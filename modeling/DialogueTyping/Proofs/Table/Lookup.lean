import DialogueTyping.Declaration.Table

set_option autoImplicit false

namespace DialogueTyping

theorem Ty.isResolved_iff {type : Ty} : type.isResolved = true ↔ type ≠ .unresolved := by
  simp [isResolved]

theorem Ty.isResolved_eq_false_iff {type : Ty} : type.isResolved = false ↔ type = .unresolved := by
  simp [isResolved]

theorem Ty.ofName?_eq_some_iff {name : String} {type : Ty} :
    ofName? name = some type ↔ type.isResolved = true ∧ name = type.sourceName := by
  constructor
  · intro named
    unfold ofName? at named
    split at named
    · cases named
      exact ⟨rfl, ‹_›⟩
    · split at named
      · cases named
        exact ⟨rfl, ‹_›⟩
      · split at named
        · cases named
          exact ⟨rfl, ‹_›⟩
        · cases named
  · rintro ⟨known, rfl⟩
    rw [ofName?_sourceName, if_pos known]

section LastMatch

variable {α β : Type}

theorem lastSome?_eq_findSome?_reverse (f : α → Option β) (list : List α) :
    lastSome? f list = list.reverse.findSome? f := by
  induction list with
  | nil => rfl
  | cons a list ih =>
      rw [lastSome?, ih, List.reverse_cons, List.findSome?_append]
      cases list.reverse.findSome? f <;> simp

theorem lastSome?_append (f : α → Option β) (front back : List α) :
    lastSome? f (front ++ back) = (lastSome? f back).or (lastSome? f front) := by
  simp only [lastSome?_eq_findSome?_reverse, List.reverse_append, List.findSome?_append]

theorem lastSome?_eq_none_iff {f : α → Option β} {list : List α} :
    lastSome? f list = none ↔ ∀ a ∈ list, f a = none := by
  simp only [lastSome?_eq_findSome?_reverse, List.findSome?_eq_none_iff, List.mem_reverse]

theorem lastSome?_eq_some_iff {f : α → Option β} {list : List α} {b : β} :
    lastSome? f list = some b ↔
      ∃ before a later, list = before ++ a :: later ∧ f a = some b ∧ ∀ x ∈ later, f x = none := by
  rw [lastSome?_eq_findSome?_reverse, List.findSome?_eq_some_iff]
  constructor
  · rintro ⟨later, a, before, split, hit, misses⟩
    refine ⟨before.reverse, a, later.reverse, ?_, hit, ?_⟩
    · rw [← List.reverse_reverse list, split]
      simp
    · intro x member
      exact misses x (List.mem_reverse.1 member)
  · rintro ⟨before, a, later, rfl, hit, misses⟩
    refine ⟨later.reverse, a, before.reverse, by simp, hit, ?_⟩
    intro x member
    exact misses x (List.mem_reverse.1 member)

theorem lastSome?_filter {f : α → Option β} {p : α → Bool} (list : List α)
    (misses : ∀ a, p a = false → f a = none) : lastSome? f (list.filter p) = lastSome? f list := by
  induction list with
  | nil => rfl
  | cons a list ih =>
      cases kept : p a with
      | true => rw [List.filter_cons_of_pos kept, lastSome?, lastSome?, ih]
      | false =>
          rw [List.filter_cons_of_neg (by simp [kept]), lastSome?, ih, misses a kept]
          cases lastSome? f list <;> rfl

theorem replaceLast?_append {f : α → Option α} {before later : List α} {a b : α}
    (hit : f a = some b) (misses : ∀ x ∈ later, f x = none) :
    replaceLast? f (before ++ a :: later) = some (before ++ b :: later) := by
  have unreplaced : replaceLast? f later = none := by
    induction later with
    | nil => rfl
    | cons x later ih =>
        rw [replaceLast?, ih fun y member => misses y (List.mem_cons_of_mem x member),
          misses x List.mem_cons_self]
        rfl
  induction before with
  | nil => rw [List.nil_append, replaceLast?, unreplaced, hit]; rfl
  | cons x before ih => rw [List.cons_append, replaceLast?, ih]; rfl

end LastMatch

namespace Declaration

theorem signature?_eq_some_iff {name : String} {declaration : Declaration}
    {signature : Signature} :
    declaration.signature? name = some signature ↔ declaration = .functionOf name signature := by
  cases declaration with
  | variableOf declared type => simp [signature?]
  | functionOf declared held =>
      simp only [signature?, Option.ite_none_right_eq_some, Option.some.injEq,
        functionOf.injEq]

theorem variableType?_eq_some_iff {name : String} {declaration : Declaration} {type : Ty} :
    declaration.variableType? name = some type ↔ declaration = .variableOf name type := by
  cases declaration with
  | variableOf declared held =>
      simp only [variableType?, Option.ite_none_right_eq_some, Option.some.injEq,
        variableOf.injEq]
  | functionOf declared held => simp [variableType?]

end Declaration

namespace Table

/-- The first declaration of a variable `name` gives it the type `type`. -/
def DeclaresVariable (table : Table) (name : String) (type : Ty) : Prop :=
  ∃ before later, table.declarations = before ++ .variableOf name type :: later ∧
    ∀ other, .variableOf name other ∉ before

/-- The last declaration of a function `name` gives it the signature `signature`. -/
def DeclaresFunction (table : Table) (name : String) (signature : Signature) : Prop :=
  ∃ before later, table.declarations = before ++ .functionOf name signature :: later ∧
    ∀ other, .functionOf name other ∉ later

theorem forall_variableType?_eq_none {name : String} {declarations : List Declaration} :
    (∀ declaration ∈ declarations, declaration.variableType? name = none) ↔
      ∀ other, .variableOf name other ∉ declarations := by
  constructor
  · intro absent other member
    have miss := absent _ member
    rw [Declaration.variableType?_eq_some_iff.2 rfl] at miss
    cases miss
  · intro absent declaration member
    cases found : declaration.variableType? name with
    | none => rfl
    | some type =>
        have same := Declaration.variableType?_eq_some_iff.1 found
        exact absurd (same ▸ member) (absent type)

theorem forall_signature?_eq_none {name : String} {declarations : List Declaration} :
    (∀ declaration ∈ declarations, declaration.signature? name = none) ↔
      ∀ other, .functionOf name other ∉ declarations := by
  constructor
  · intro absent other member
    have miss := absent _ member
    rw [Declaration.signature?_eq_some_iff.2 rfl] at miss
    cases miss
  · intro absent declaration member
    cases found : declaration.signature? name with
    | none => rfl
    | some signature =>
        have same := Declaration.signature?_eq_some_iff.1 found
        exact absurd (same ▸ member) (absent signature)

theorem findVariable?_eq_some_iff {table : Table} {name : String} {type : Ty} :
    table.findVariable? name = some type ↔ table.DeclaresVariable name type := by
  rw [findVariable?, List.findSome?_eq_some_iff]
  constructor
  · rintro ⟨before, declaration, later, split, hit, misses⟩
    cases Declaration.variableType?_eq_some_iff.1 hit
    exact ⟨before, later, split, forall_variableType?_eq_none.1 misses⟩
  · rintro ⟨before, later, split, absent⟩
    exact ⟨before, _, later, split, Declaration.variableType?_eq_some_iff.2 rfl,
      forall_variableType?_eq_none.2 absent⟩

theorem findFunction?_eq_some_iff {table : Table} {name : String} {signature : Signature} :
    table.findFunction? name = some signature ↔ table.DeclaresFunction name signature := by
  rw [findFunction?, lastSome?_eq_some_iff]
  constructor
  · rintro ⟨before, declaration, later, split, hit, misses⟩
    cases Declaration.signature?_eq_some_iff.1 hit
    exact ⟨before, later, split, forall_signature?_eq_none.1 misses⟩
  · rintro ⟨before, later, split, absent⟩
    exact ⟨before, _, later, split, Declaration.signature?_eq_some_iff.2 rfl,
      forall_signature?_eq_none.2 absent⟩

theorem findVariable?_eq_none_iff {table : Table} {name : String} :
    table.findVariable? name = none ↔ ∀ type, .variableOf name type ∉ table.declarations := by
  rw [findVariable?, List.findSome?_eq_none_iff, forall_variableType?_eq_none]

theorem findFunction?_eq_none_iff {table : Table} {name : String} :
    table.findFunction? name = none ↔
      ∀ signature, .functionOf name signature ∉ table.declarations := by
  rw [findFunction?, lastSome?_eq_none_iff, forall_signature?_eq_none]

theorem bind_eq_ok_iff {table after : Table} {name : String} {slot : Slot} {type : Ty} :
    table.bind name slot type = .ok after ↔
      ∃ signature, table.findFunction? name = some signature ∧
        signature.slot? slot = some .unresolved ∧ type.isResolved ∧
        after = table.setSlot name slot type := by
  cases found : table.findFunction? name with
  | none => simp [bind, found]
  | some signature =>
      cases held : signature.slot? slot with
      | none => simp [bind, found, held]
      | some old =>
          by_cases same : old = .unresolved
          · subst same
            by_cases resolved : type.isResolved
            · simp only [bind, found, held, resolved, Option.bind_some, Option.some.injEq,
                exists_eq_left', true_and]
              exact ⟨fun done => (Except.ok.inj done).symm, fun done => congrArg Except.ok done.symm⟩
            · have unknown : type = .unresolved := Ty.isResolved_eq_false_iff.1 (by simpa using resolved)
              simp [bind, found, held, unknown, Ty.isResolved]
          · simp [bind, found, held, same, Ty.isResolved]

theorem declarations_setSlot {table : Table} {name : String} {before later : List Declaration}
    {signature : Signature} (slot : Slot) (type : Ty)
    (split : table.declarations = before ++ .functionOf name signature :: later)
    (absent : ∀ other, .functionOf name other ∉ later) :
    (table.setSlot name slot type).declarations =
      before ++ .functionOf name (signature.setSlot type slot) :: later := by
  rw [setSlot, split, replaceLast?_append (b := .functionOf name (signature.setSlot type slot))]
  · rfl
  · rw [Declaration.signature?_eq_some_iff.2 rfl]
    rfl
  · intro declaration member
    rw [forall_signature?_eq_none.2 absent declaration member]
    rfl

/-- Filling a slot touches the last declaration of the function and nothing else. -/
theorem declarations_of_bind {table after : Table} {name : String} {slot : Slot} {type : Ty}
    (bound : table.bind name slot type = .ok after) :
    ∃ before signature later,
      table.declarations = before ++ .functionOf name signature :: later ∧
      (∀ other, .functionOf name other ∉ later) ∧
      signature.slot? slot = some .unresolved ∧ type.isResolved ∧
      after.declarations = before ++ .functionOf name (signature.setSlot type slot) :: later := by
  obtain ⟨signature, found, unbound, resolved, rfl⟩ := bind_eq_ok_iff.1 bound
  obtain ⟨before, later, split, absent⟩ := findFunction?_eq_some_iff.1 found
  exact ⟨before, signature, later, split, absent, unbound, resolved,
    declarations_setSlot slot type split absent⟩

theorem findVariable?_of_bind {table after : Table} {name : String} {slot : Slot} {type : Ty}
    (bound : table.bind name slot type = .ok after) (sought : String) :
    after.findVariable? sought = table.findVariable? sought := by
  obtain ⟨before, signature, later, split, -, -, -, filled⟩ := declarations_of_bind bound
  simp only [findVariable?, split, filled, List.findSome?_append, List.findSome?_cons,
    Declaration.variableType?]

theorem findFunction?_of_bind {table after : Table} {name : String} {slot : Slot} {type : Ty}
    (bound : table.bind name slot type = .ok after) (sought : String) :
    after.findFunction? sought =
      if sought = name then (table.findFunction? name).map (·.setSlot type slot)
      else table.findFunction? sought := by
  obtain ⟨before, signature, later, split, absent, -, -, filled⟩ := declarations_of_bind bound
  simp only [findFunction?, split, filled, lastSome?_append, lastSome?]
  by_cases same : sought = name
  · subst same
    rw [lastSome?_eq_none_iff.2 (forall_signature?_eq_none.2 absent)]
    simp [Declaration.signature?]
  · have other : name ≠ sought := fun h => same h.symm
    simp [Declaration.signature?, same, other]

end Table

end DialogueTyping
