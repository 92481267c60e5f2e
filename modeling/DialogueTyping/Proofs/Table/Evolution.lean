import DialogueTyping.Proofs.Table.Lookup
import Mathlib.Logic.Relation

set_option autoImplicit false

namespace DialogueTyping

/-- What may become of a type in a slot. -/
def Ty.Settles (before after : Ty) : Prop :=
  after = before ∨ before = .unresolved ∧ after.isResolved

namespace Ty.Settles

theorem refl (type : Ty) : type.Settles type := Or.inl rfl

theorem eq_of_isResolved {before after : Ty} (settles : before.Settles after)
    (known : before.isResolved) : after = before := by
  rcases settles with same | ⟨unknown, -⟩
  · exact same
  · exact absurd unknown (Ty.isResolved_iff.1 known)

theorem trans {first second third : Ty} (early : first.Settles second)
    (late : second.Settles third) : first.Settles third := by
  rcases early with rfl | ⟨unknown, known⟩
  · exact late
  · rw [late.eq_of_isResolved known]
    exact Or.inr ⟨unknown, known⟩

/-- A slot that is still open was open before. -/
theorem unresolved_left {before : Ty} (settles : before.Settles .unresolved) :
    before = .unresolved := by
  rcases settles with same | ⟨unknown, -⟩
  · exact same.symm
  · exact unknown

end Ty.Settles

/-- The parameters keep their number and names, and every slot its type once it is known. -/
structure Signature.Evolves (before after : Signature) : Prop where
  names : after.parameters.map Parameter.name = before.parameters.map Parameter.name
  slots : ∀ slot type, before.slot? slot = some type →
    ∃ later, after.slot? slot = some later ∧ type.Settles later

namespace Signature

theorem Evolves.refl (signature : Signature) : signature.Evolves signature where
  names := rfl
  slots _ type held := ⟨type, held, .refl type⟩

theorem Evolves.trans {first second third : Signature} (early : first.Evolves second)
    (late : second.Evolves third) : first.Evolves third where
  names := late.names.trans early.names
  slots slot type held := by
    obtain ⟨middle, heldMiddle, settlesEarly⟩ := early.slots slot type held
    obtain ⟨last, heldLast, settlesLate⟩ := late.slots slot middle heldMiddle
    exact ⟨last, heldLast, settlesEarly.trans settlesLate⟩

theorem Evolves.result {before after : Signature} (evolves : before.Evolves after) :
    before.result.Settles after.result := by
  obtain ⟨later, held, settles⟩ := evolves.slots .result before.result rfl
  cases held
  exact settles

theorem Evolves.length_parameters {before after : Signature} (evolves : before.Evolves after) :
    after.parameters.length = before.parameters.length := by
  simpa only [List.length_map] using congrArg List.length evolves.names

theorem slot?_setSlot_same {signature : Signature} {slot : Slot} {held : Ty} (type : Ty)
    (found : signature.slot? slot = some held) :
    (signature.setSlot type slot).slot? slot = some type := by
  cases slot with
  | result => rfl
  | parameter index =>
      obtain ⟨parameter, present, -⟩ := Option.map_eq_some_iff.1 found
      simp [slot?, setSlot, present]

theorem slot?_setSlot_other {signature : Signature} {slot other : Slot} (type : Ty)
    (different : other ≠ slot) : (signature.setSlot type slot).slot? other = signature.slot? other := by
  cases slot with
  | result =>
      cases other with
      | result => exact absurd rfl different
      | parameter index => rfl
  | parameter index =>
      cases other with
      | result => rfl
      | parameter otherIndex =>
          have apart : index ≠ otherIndex := fun same => different (same ▸ rfl)
          simp [slot?, setSlot, apart]

theorem map_name_setSlot (signature : Signature) (slot : Slot) (type : Ty) :
    (signature.setSlot type slot).parameters.map Parameter.name =
      signature.parameters.map Parameter.name := by
  cases slot with
  | result => rfl
  | parameter index =>
      apply List.ext_getElem?
      intro place
      simp only [setSlot, List.getElem?_map, List.getElem?_modify]
      by_cases here : index = place
      · cases signature.parameters[place]? <;> simp [here]
      · simp [here]

theorem evolves_setSlot {signature : Signature} {slot : Slot} {type : Ty}
    (unbound : signature.slot? slot = some .unresolved) (resolved : type.isResolved) :
    signature.Evolves (signature.setSlot type slot) where
  names := map_name_setSlot signature slot type
  slots other held found := by
    by_cases same : other = slot
    · subst same
      rw [unbound] at found
      cases found
      exact ⟨type, slot?_setSlot_same type unbound, Or.inr ⟨rfl, resolved⟩⟩
    · exact ⟨held, (slot?_setSlot_other type same).trans found, .refl held⟩

end Signature

/-- A variable keeps its type, and a function its name while its signature evolves. -/
inductive Declaration.Evolves : Declaration → Declaration → Prop
  | variableOf (name : String) (type : Ty) : Evolves (.variableOf name type) (.variableOf name type)
  | functionOf (name : String) {before after : Signature} : before.Evolves after →
      Evolves (.functionOf name before) (.functionOf name after)

namespace Declaration

theorem Evolves.refl (declaration : Declaration) : declaration.Evolves declaration := by
  cases declaration with
  | variableOf name type => exact .variableOf name type
  | functionOf name signature => exact .functionOf name (.refl signature)

theorem Evolves.trans {first second third : Declaration} (early : first.Evolves second)
    (late : second.Evolves third) : first.Evolves third := by
  cases early with
  | variableOf => exact late
  | functionOf name evolves =>
      cases late with
      | functionOf _ evolvesLate => exact .functionOf name (evolves.trans evolvesLate)

/-- The type in a slot of a declaration. A variable has one slot, that of its type. -/
def slot? : Declaration → Slot → Option Ty
  | variableOf _ type, .result => some type
  | variableOf .., .parameter _ => none
  | functionOf _ signature, slot => signature.slot? slot

theorem Evolves.slots {before after : Declaration} (evolves : before.Evolves after) {slot : Slot}
    {type : Ty} (held : before.slot? slot = some type) :
    ∃ later, after.slot? slot = some later ∧ type.Settles later := by
  cases evolves with
  | variableOf => exact ⟨type, held, .refl type⟩
  | functionOf name evolves => exact evolves.slots slot type held

end Declaration

/-- Every declaration stays at its place and evolves. -/
def Table.Evolves (before after : Table) : Prop :=
  ∀ (index : Nat) (declaration : Declaration), before.declarations[index]? = some declaration →
    ∃ later, after.declarations[index]? = some later ∧ declaration.Evolves later

namespace Table

theorem Evolves.refl (table : Table) : table.Evolves table :=
  fun _ declaration held => ⟨declaration, held, .refl declaration⟩

theorem Evolves.trans {first second third : Table} (early : first.Evolves second)
    (late : second.Evolves third) : first.Evolves third := by
  intro index declaration held
  obtain ⟨middle, heldMiddle, evolvesEarly⟩ := early index declaration held
  obtain ⟨last, heldLast, evolvesLate⟩ := late index middle heldMiddle
  exact ⟨last, heldLast, evolvesEarly.trans evolvesLate⟩

theorem evolves_append (table : Table) (added : List Declaration) :
    table.Evolves ⟨table.declarations ++ added⟩ := by
  intro index declaration held
  obtain ⟨bound, -⟩ := List.getElem?_eq_some_iff.1 held
  exact ⟨declaration, by rw [List.getElem?_append_left bound, held], .refl declaration⟩

/-- The type in a slot of the declaration at a place of the table. -/
def slotAt? (table : Table) (index : Nat) (slot : Slot) : Option Ty :=
  (table.declarations[index]?).bind (·.slot? slot)

theorem Evolves.slotAt? {before after : Table} (evolves : before.Evolves after) {index : Nat}
    {slot : Slot} {type : Ty} (held : before.slotAt? index slot = some type) :
    ∃ later, after.slotAt? index slot = some later ∧ type.Settles later := by
  obtain ⟨declaration, present, slotted⟩ := Option.bind_eq_some_iff.1 held
  obtain ⟨last, presentLater, evolvesHere⟩ := evolves index declaration present
  obtain ⟨later, slottedLater, settles⟩ := evolvesHere.slots slotted
  exact ⟨later, Option.bind_eq_some_iff.2 ⟨last, presentLater, slottedLater⟩, settles⟩

/-- `after` is `before` with one open slot filled, one that `allowed` names. -/
def Fill (allowed : String → Slot → Prop) (before after : Table) : Prop :=
  ∃ name slot type, allowed name slot ∧ before.bind name slot type = .ok after

/-- All that filling a slot does to the declaration at a place: nothing, unless it is the last of a
function that has the slot. -/
theorem Fill.getElem? {allowed : String → Slot → Prop} {before after : Table}
    (fill : Fill allowed before after) {index : Nat} {declaration : Declaration}
    (held : before.declarations[index]? = some declaration) :
    after.declarations[index]? = some declaration ∨
      ∃ name signature slot type, declaration = .functionOf name signature ∧ allowed name slot ∧
        signature.slot? slot = some .unresolved ∧ type.isResolved ∧
        (∀ later, index < later → ∀ other,
          before.declarations[later]? ≠ some (.functionOf name other)) ∧
        after.declarations[index]? = some (.functionOf name (signature.setSlot type slot)) := by
  obtain ⟨name, slot, type, permission, bound⟩ := fill
  obtain ⟨front, signature, rest, split, absent, unbound, resolved, filled⟩ :=
    declarations_of_bind bound
  rw [split] at held
  rw [filled, split]
  rcases Nat.lt_trichotomy index front.length with inFront | here | inRest
  · left
    rw [List.getElem?_append_left inFront] at held ⊢
    exact held
  · right
    subst here
    rw [List.getElem?_append_right (Nat.le_refl _), Nat.sub_self, List.getElem?_cons_zero] at held
    cases held
    refine ⟨name, signature, slot, type, rfl, permission, unbound, resolved, ?_, ?_⟩
    · intro later after other found
      rw [List.getElem?_append_right (Nat.le_of_lt after),
        show later - front.length = (later - front.length - 1) + 1 by omega,
        List.getElem?_cons_succ] at found
      exact absent other (List.mem_of_getElem? found)
    · rw [List.getElem?_append_right (Nat.le_refl _), Nat.sub_self, List.getElem?_cons_zero]
  · left
    rw [List.getElem?_append_right (Nat.le_of_lt inRest),
      show index - front.length = (index - front.length - 1) + 1 by omega,
      List.getElem?_cons_succ] at held ⊢
    exact held

theorem Fill.evolves {allowed : String → Slot → Prop} {before after : Table}
    (fill : Fill allowed before after) : before.Evolves after := by
  intro index declaration held
  rcases fill.getElem? held with same |
    ⟨name, signature, slot, type, rfl, -, unbound, resolved, -, filled⟩
  · exact ⟨declaration, same, .refl declaration⟩
  · exact ⟨_, filled, .functionOf name (Signature.evolves_setSlot unbound resolved)⟩

/-- `after` is `before` with some open slots filled one after another, all of which `allowed`
names. -/
def Filled (allowed : String → Slot → Prop) : Table → Table → Prop :=
  Relation.ReflTransGen (Fill allowed)

namespace Filled

variable {allowed : String → Slot → Prop} {before after : Table}

theorem refl (table : Table) : Filled allowed table table := Relation.ReflTransGen.refl

theorem trans {middle : Table} (early : Filled allowed before middle)
    (late : Filled allowed middle after) : Filled allowed before after :=
  Relation.ReflTransGen.trans early late

theorem mono {wider : String → Slot → Prop} (filled : Filled allowed before after)
    (implies : ∀ name slot, allowed name slot → wider name slot) : Filled wider before after := by
  induction filled with
  | refl => exact refl before
  | tail _ fill ih =>
      obtain ⟨name, slot, type, permission, bound⟩ := fill
      exact Relation.ReflTransGen.tail ih ⟨name, slot, type, implies name slot permission, bound⟩

theorem evolves (filled : Filled allowed before after) : before.Evolves after := by
  induction filled with
  | refl => exact .refl before
  | tail _ fill ih => exact ih.trans fill.evolves

theorem findVariable? (filled : Filled allowed before after) (name : String) :
    after.findVariable? name = before.findVariable? name := by
  induction filled with
  | refl => rfl
  | tail _ fill ih =>
      obtain ⟨bound, slot, type, -, success⟩ := fill
      rw [findVariable?_of_bind success, ih]

theorem findFunction? (filled : Filled allowed before after) {name : String}
    {signature : Signature} (found : before.findFunction? name = some signature) :
    ∃ later, after.findFunction? name = some later ∧ signature.Evolves later := by
  induction filled with
  | refl => exact ⟨signature, found, .refl signature⟩
  | tail _ fill ih =>
      obtain ⟨middle, foundMiddle, evolves⟩ := ih
      obtain ⟨bound, slot, type, -, success⟩ := fill
      rw [findFunction?_of_bind success]
      by_cases same : name = bound
      · subst same
        obtain ⟨held, foundHeld, unbound, resolved, -⟩ := bind_eq_ok_iff.1 success
        rw [foundMiddle] at foundHeld
        cases foundHeld
        exact ⟨_, by rw [if_pos rfl, foundMiddle]; rfl,
          evolves.trans (Signature.evolves_setSlot unbound resolved)⟩
      · exact ⟨middle, by rw [if_neg same, foundMiddle], evolves⟩

theorem findFunction?_eq_none (filled : Filled allowed before after) {name : String}
    (absent : before.findFunction? name = none) : after.findFunction? name = none := by
  induction filled with
  | refl => exact absent
  | tail _ fill ih =>
      obtain ⟨bound, slot, type, -, success⟩ := fill
      rw [findFunction?_of_bind success]
      by_cases same : name = bound
      · rw [if_pos same, ← same, ih]
        rfl
      · rw [if_neg same, ih]

theorem findFunction?_before (filled : Filled allowed before after) {name : String}
    {later : Signature} (found : after.findFunction? name = some later) :
    ∃ signature, before.findFunction? name = some signature ∧ signature.Evolves later := by
  cases foundBefore : before.findFunction? name with
  | none =>
      rw [filled.findFunction?_eq_none foundBefore] at found
      cases found
  | some signature =>
      obtain ⟨_, foundAgain, evolves⟩ := filled.findFunction? foundBefore
      rw [found] at foundAgain
      cases foundAgain
      exact ⟨signature, rfl, evolves⟩

theorem findFunction?_eq_none_before (filled : Filled allowed before after) {name : String}
    (absent : after.findFunction? name = none) : before.findFunction? name = none := by
  cases foundBefore : before.findFunction? name with
  | none => rfl
  | some signature =>
      obtain ⟨later, found, -⟩ := filled.findFunction? foundBefore
      rw [absent] at found
      cases found

theorem getElem?_of_untouched (filled : Filled allowed before after) {index : Nat}
    {declaration : Declaration} (held : before.declarations[index]? = some declaration)
    (untouched : ∀ name signature slot, declaration = .functionOf name signature →
      ¬ allowed name slot) : after.declarations[index]? = some declaration := by
  induction filled with
  | refl => exact held
  | tail _ fill ih =>
      rcases fill.getElem? ih with same | ⟨name, signature, slot, _, isFunction, permission, -⟩
      · exact same
      · exact absurd permission (untouched name signature slot isFunction)

/-- A function with a later declaration of its name keeps its signature. -/
theorem getElem?_of_shadowed (filled : Filled allowed before after) {index shadow : Nat}
    {name : String} {signature other : Signature}
    (held : before.declarations[index]? = some (.functionOf name signature)) (later : index < shadow)
    (shadowed : before.declarations[shadow]? = some (.functionOf name other)) :
    after.declarations[index]? = some (.functionOf name signature) := by
  induction filled with
  | refl => exact held
  | @tail middle _ steps fill ih =>
      -- the later declaration is still there, as one of the same name
      obtain ⟨found, present, evolves⟩ := evolves steps shadow _ shadowed
      rcases fill.getElem? ih with same | ⟨_, _, _, _, isFunction, -, -, -, unshadowed, -⟩
      · exact same
      · cases isFunction
        cases evolves with
        | functionOf _ _ => exact absurd present (unshadowed shadow later _)

theorem result_eq_of_untouched (filled : Filled allowed before after) {index : Nat} {name : String}
    {signature : Signature} (held : before.declarations[index]? = some (.functionOf name signature))
    (untouched : ¬ allowed name .result) :
    ∃ later, after.declarations[index]? = some (.functionOf name later) ∧
      later.result = signature.result := by
  induction filled with
  | refl => exact ⟨signature, held, rfl⟩
  | tail _ fill ih =>
      obtain ⟨middle, heldMiddle, kept⟩ := ih
      rcases fill.getElem? heldMiddle with same |
        ⟨_, _, slot, type, isFunction, permission, -, -, -, filledHere⟩
      · exact ⟨middle, same, kept⟩
      · cases isFunction
        cases slot with
        | result => exact absurd permission untouched
        | parameter place => exact ⟨_, filledHere, kept⟩

theorem length (filled : Filled allowed before after) :
    after.declarations.length = before.declarations.length := by
  induction filled with
  | refl => rfl
  | tail _ fill ih =>
      obtain ⟨name, slot, type, -, bound⟩ := fill
      obtain ⟨front, signature, rest, split, -, -, -, result⟩ := declarations_of_bind bound
      rw [← ih, split, result]
      simp only [List.length_append, List.length_cons]

theorem findFunction?_of_untouched (filled : Filled allowed before after) {name : String}
    (untouched : ∀ slot, ¬ allowed name slot) :
    after.findFunction? name = before.findFunction? name := by
  induction filled with
  | refl => rfl
  | tail _ fill ih =>
      obtain ⟨bound, slot, type, permission, success⟩ := fill
      have other : name ≠ bound := by
        rintro rfl
        exact untouched slot permission
      rw [findFunction?_of_bind success, if_neg other, ih]

end Filled

theorem findFunction?_of_getElem? {table : Table} {index : Nat} {name : String}
    {signature : Signature} (held : table.declarations[index]? = some (.functionOf name signature))
    (last : ∀ later, index < later → ∀ other,
      table.declarations[later]? ≠ some (.functionOf name other)) :
    table.findFunction? name = some signature := by
  obtain ⟨inside, isHeld⟩ := List.getElem?_eq_some_iff.1 held
  refine findFunction?_eq_some_iff.2 ⟨table.declarations.take index,
    table.declarations.drop (index + 1), ?_, ?_⟩
  · rw [← isHeld, List.getElem_cons_drop, List.take_append_drop]
  · intro other member
    obtain ⟨place, found⟩ := List.mem_iff_getElem?.1 member
    rw [List.getElem?_drop] at found
    exact last _ (by omega) other found

/-- The declaration that a function's name stands for is the same one afterwards. -/
theorem Filled.getElem?_of_last {allowed : String → Slot → Prop} {before after : Table}
    (filled : Filled allowed before after) {index : Nat} {name : String} {signature : Signature}
    (held : before.declarations[index]? = some (.functionOf name signature))
    (last : ∀ later, index < later → ∀ other,
      before.declarations[later]? ≠ some (.functionOf name other)) :
    after.declarations[index]? = (after.findFunction? name).map (Declaration.functionOf name) := by
  obtain ⟨_, heldAfter, evolves⟩ := filled.evolves index _ held
  cases evolves with
  | @functionOf _ _ evolved _ =>
      have lastAfter : ∀ later, index < later → ∀ other,
          after.declarations[later]? ≠ some (.functionOf name other) := by
        intro later order other found
        obtain ⟨inside, -⟩ := List.getElem?_eq_some_iff.1 found
        rw [filled.length] at inside
        have present := List.getElem?_eq_getElem inside
        obtain ⟨_, foundAgain, evolvesLater⟩ := filled.evolves later _ present
        rw [found] at foundAgain
        cases foundAgain
        generalize before.declarations[later] = origin at present evolvesLater
        cases evolvesLater with
        | functionOf _ _ => exact last later order _ present
      rw [heldAfter, findFunction?_of_getElem? heldAfter lastAfter, Option.map_some]

/-- Tables that come from one table are equal when they give the same signatures. -/
theorem eq_of_findFunction? {allowed others : String → Slot → Prop} {start first second : Table}
    (filledFirst : Filled allowed start first) (filledSecond : Filled others start second)
    (same : ∀ name, first.findFunction? name = second.findFunction? name) : first = second := by
  have pointwise : first.declarations = second.declarations := by
    apply List.ext_getElem?
    intro index
    cases held : start.declarations[index]? with
    | none =>
        rw [List.getElem?_eq_none_iff] at held
        rw [List.getElem?_eq_none (filledFirst.length ▸ held),
          List.getElem?_eq_none (filledSecond.length ▸ held)]
    | some declaration =>
        cases declaration with
        | variableOf name type =>
            rw [filledFirst.getElem?_of_untouched held (fun _ _ _ isFunction => nomatch isFunction),
              filledSecond.getElem?_of_untouched held fun _ _ _ isFunction => nomatch isFunction]
        | functionOf name signature =>
            by_cases shadowed : ∃ later, index < later ∧ ∃ other,
                start.declarations[later]? = some (.functionOf name other)
            · obtain ⟨later, order, other, shadow⟩ := shadowed
              rw [filledFirst.getElem?_of_shadowed held order shadow,
                filledSecond.getElem?_of_shadowed held order shadow]
            · have last : ∀ later, index < later → ∀ other,
                  start.declarations[later]? ≠ some (.functionOf name other) :=
                fun later order other found => shadowed ⟨later, order, other, found⟩
              rw [filledFirst.getElem?_of_last held last, filledSecond.getElem?_of_last held last,
                same name]
  exact congrArg Table.mk pointwise

end Table

end DialogueTyping
