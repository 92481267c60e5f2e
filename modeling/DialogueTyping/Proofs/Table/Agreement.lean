import DialogueTyping.Proofs.Expr.Subexpression
import DialogueTyping.Proofs.Table.Evolution

set_option autoImplicit false

namespace DialogueTyping

namespace Signature

/-- The types in the slots of a signature, without the names of its parameters. -/
def types (signature : Signature) : List Ty × Ty :=
  (signature.parameters.map Parameter.type, signature.result)

theorem types_eq_iff {first second : Signature} :
    first.types = second.types ↔ ∀ slot, first.slot? slot = second.slot? slot := by
  constructor
  · intro same slot
    obtain ⟨parameters, result⟩ := Prod.mk.inj same
    cases slot with
    | result => exact congrArg some result
    | parameter index => simpa [slot?] using congrArg (·[index]?) parameters
  · intro slots
    apply Prod.ext
    · apply List.ext_getElem?
      intro index
      simpa [types, slot?] using slots (.parameter index)
    · exact Option.some.inj (slots .result)

theorem types_setSlot {first second : Signature} (same : first.types = second.types) (type : Ty)
    (slot : Slot) : (first.setSlot type slot).types = (second.setSlot type slot).types := by
  rw [types_eq_iff] at same ⊢
  intro other
  by_cases here : other = slot
  · subst here
    cases held : first.slot? other with
    | none =>
        have heldSecond : second.slot? other = none := by rw [← same, held]
        cases other with
        | result => cases held
        | parameter index =>
            simp only [slot?, Option.map_eq_none_iff] at held heldSecond
            simp [slot?, setSlot, held, heldSecond]
    | some old =>
        rw [slot?_setSlot_same type held, slot?_setSlot_same type (same other ▸ held)]
  · rw [slot?_setSlot_other type here, slot?_setSlot_other type here, same]

end Signature

namespace Table

/-- The tables give the same answers: the same type for each of the variables, and the same types
for the slots of each of the functions, or none in both. -/
structure Agree (vars functions : String → Prop) (first second : Table) : Prop where
  variableTypes : ∀ name, vars name → first.findVariable? name = second.findVariable? name
  functionTypes : ∀ name, functions name →
    (first.findFunction? name).map Signature.types = (second.findFunction? name).map Signature.types

namespace Agree

variable {vars functions : String → Prop} {first second third : Table}

theorem refl (table : Table) : Agree vars functions table table :=
  ⟨fun _ _ => rfl, fun _ _ => rfl⟩

theorem symm (agree : Agree vars functions first second) :
    Agree vars functions second first where
  variableTypes name named := (agree.variableTypes name named).symm
  functionTypes name named := (agree.functionTypes name named).symm

theorem trans (early : Agree vars functions first second)
    (late : Agree vars functions second third) : Agree vars functions first third where
  variableTypes name named := (early.variableTypes name named).trans (late.variableTypes name named)
  functionTypes name named := (early.functionTypes name named).trans (late.functionTypes name named)

/-- A function is declared in both tables with the same types, or in neither. -/
theorem findFunction?_cases (agree : Agree vars functions first second) {name : String}
    (named : functions name) :
    first.findFunction? name = none ∧ second.findFunction? name = none ∨
      ∃ held other, first.findFunction? name = some held ∧
        second.findFunction? name = some other ∧ held.types = other.types := by
  have same := agree.functionTypes name named
  cases found : first.findFunction? name with
  | none =>
      rw [found, Option.map_none] at same
      exact Or.inl ⟨rfl, Option.map_eq_none_iff.1 same.symm⟩
  | some held =>
      rw [found, Option.map_some] at same
      obtain ⟨other, foundOther, sameTypes⟩ := Option.map_eq_some_iff.1 same.symm
      exact Or.inr ⟨held, other, rfl, foundOther, sameTypes.symm⟩

theorem slot? (agree : Agree vars functions first second) {name : String}
    (named : functions name) (slot : Slot) :
    (first.findFunction? name).bind (·.slot? slot) =
      (second.findFunction? name).bind (·.slot? slot) := by
  rcases agree.findFunction?_cases named with
    ⟨none, noneOther⟩ | ⟨held, other, some, someOther, same⟩
  · rw [none, noneOther]
  · rw [some, someOther]
    exact Signature.types_eq_iff.1 same slot

theorem of_bind (agree : Agree vars functions first second) {name : String}
    (named : functions name) {slot : Slot} {type : Ty} {afterFirst afterSecond : Table}
    (boundFirst : first.bind name slot type = .ok afterFirst)
    (boundSecond : second.bind name slot type = .ok afterSecond) :
    Agree vars functions afterFirst afterSecond := by
  constructor
  · intro sought refers
    rw [findVariable?_of_bind boundFirst, findVariable?_of_bind boundSecond,
      agree.variableTypes sought refers]
  · intro sought calls
    rw [findFunction?_of_bind boundFirst, findFunction?_of_bind boundSecond]
    by_cases here : sought = name
    · rcases agree.findFunction?_cases named with
        ⟨none, noneOther⟩ | ⟨held, other, some, someOther, same⟩
      · simp only [here, ↓reduceIte, none, noneOther, Option.map_none]
      · simp only [here, ↓reduceIte, some, someOther, Option.map_some, Option.some.injEq]
        exact Signature.types_setSlot same type slot
    · simp only [here, ↓reduceIte]
      exact agree.functionTypes sought calls

/-- A slot is filled in both tables, which then agree again, or in neither for the same reason. -/
theorem bind (agree : Agree vars functions first second) {name : String}
    (named : functions name) (slot : Slot) (type : Ty) :
    (∃ fault, first.bind name slot type = .error fault ∧
      second.bind name slot type = .error fault) ∨
    ∃ afterFirst afterSecond, first.bind name slot type = .ok afterFirst ∧
      second.bind name slot type = .ok afterSecond ∧
      Agree vars functions afterFirst afterSecond := by
  have same := agree.slot? named slot
  cases found : (second.findFunction? name).bind (·.slot? slot) with
  | none =>
      rw [found] at same
      exact Or.inl ⟨.noSlot, by simp only [Table.bind, same], by simp only [Table.bind, found]⟩
  | some held =>
      rw [found] at same
      by_cases known : held.isResolved
      · exact Or.inl ⟨.alreadyBound held, by simp [Table.bind, same, known],
          by simp [Table.bind, found, known]⟩
      · by_cases resolved : type.isResolved
        · have boundFirst : first.bind name slot type = .ok (first.setSlot name slot type) := by
            simp [Table.bind, same, known, resolved]
          have boundSecond : second.bind name slot type = .ok (second.setSlot name slot type) := by
            simp [Table.bind, found, known, resolved]
          exact Or.inr ⟨_, _, boundFirst, boundSecond, agree.of_bind named boundFirst boundSecond⟩
        · exact Or.inl ⟨.unresolvedType, by simp [Table.bind, same, known, resolved],
            by simp [Table.bind, found, known, resolved]⟩

end Agree

def AgreeOn (e : Expr) : Table → Table → Prop := Agree (e.Refers ·) (e.Calls ·)

/-- A name in the expression stands for `declaration`, which comes after `front` and before `back`:
it is the first of a variable or the last of a function. -/
def Selected (e : Expr) (front : List Declaration) (back : List Declaration) : Declaration → Prop
  | .variableOf name _ => e.Refers name ∧ ∀ other, .variableOf name other ∉ front
  | .functionOf name _ => e.Calls name ∧ ∀ other, .functionOf name other ∉ back

/-- `longer` is `shorter` with one more declaration, which no name in the expression stands for. -/
def Spares (e : Expr) (shorter longer : Table) : Prop :=
  ∃ front declaration back, shorter.declarations = front ++ back ∧
    longer.declarations = front ++ declaration :: back ∧ ¬ Selected e front back declaration

/-- The tables differ by declarations that were added, removed or moved, and for which no name in
the expression stands. To move one is to remove it and to add it elsewhere. -/
def Rearranged (e : Expr) : Table → Table → Prop := Relation.EqvGen (Spares e)

theorem Spares.agreeOn {e : Expr} {shorter longer : Table} (spares : Spares e shorter longer) :
    AgreeOn e shorter longer := by
  obtain ⟨front, declaration, back, short, long, spared⟩ := spares
  constructor
  · intro name refers
    simp only [findVariable?, short, long, List.findSome?_append, List.findSome?_cons]
    cases earlier : front.findSome? (Declaration.variableType? name) with
    | some type => rfl
    | none =>
        cases declared : declaration.variableType? name with
        | none => rfl
        | some type =>
            cases Declaration.variableType?_eq_some_iff.1 declared
            rw [List.findSome?_eq_none_iff, forall_variableType?_eq_none] at earlier
            exact absurd ⟨refers, earlier⟩ spared
  · intro name calls
    simp only [findFunction?, short, long, lastSome?_append, lastSome?]
    cases later : lastSome? (Declaration.signature? name) back with
    | some held => rfl
    | none =>
        cases declared : declaration.signature? name with
        | none => rfl
        | some signature =>
            cases Declaration.signature?_eq_some_iff.1 declared
            rw [lastSome?_eq_none_iff, forall_signature?_eq_none] at later
            exact absurd ⟨calls, later⟩ spared

theorem Rearranged.agreeOn {e : Expr} {first second : Table}
    (rearranged : Rearranged e first second) : AgreeOn e first second := by
  induction rearranged with
  | rel _ _ spares => exact spares.agreeOn
  | refl table => exact .refl table
  | symm _ _ _ ih => exact Agree.symm ih
  | trans _ _ _ _ _ early late => exact Agree.trans early late

end Table

end DialogueTyping
