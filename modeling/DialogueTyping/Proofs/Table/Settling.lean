import DialogueTyping.Proofs.Table.Evolution
import Mathlib.Data.List.Forall2

set_option autoImplicit false

namespace DialogueTyping

theorem exists_of_rel_some {γ δ : Type} {valued : γ → δ → Prop} {value : γ} {other : Option δ}
    (related : Option.Rel valued (some value) other) :
    ∃ found, other = some found ∧ valued value found := by
  cases related with
  | some here => exact ⟨_, rfl, here⟩

theorem rel_findSome? {α β γ δ : Type} {related : α → β → Prop} {valued : γ → δ → Prop}
    {f : α → Option γ} {g : β → Option δ}
    (each : ∀ a b, related a b → Option.Rel valued (f a) (g b)) {first : List α} {second : List β}
    (lists : List.Forall₂ related first second) :
    Option.Rel valued (first.findSome? f) (second.findSome? g) := by
  induction lists with
  | nil => exact .none
  | @cons a b _ _ head _ ih =>
      have values := each a b head
      rw [List.findSome?_cons, List.findSome?_cons]
      generalize f a = left at values ⊢
      generalize g b = right at values ⊢
      cases values with
      | some value => exact .some value
      | none => exact ih

/-- Parameters at the same places, each with its type once that is known. -/
theorem Signature.Evolves.parameters {before after : Signature} (evolves : before.Evolves after) :
    List.Forall₂ (fun early late => Ty.Settles early.type late.type)
      before.parameters after.parameters := by
  apply List.forall₂_iff_get.2
  refine ⟨evolves.length_parameters.symm, ?_⟩
  intro index insideBefore insideAfter
  have held {signature : Signature} (inside : index < signature.parameters.length) :
      signature.slot? (.parameter index) =
        some (signature.parameters.get ⟨index, inside⟩).type := by
    simp [slot?, inside]
  obtain ⟨later, heldLater, settles⟩ := evolves.slots (.parameter index) _ (held insideBefore)
  rw [held insideAfter] at heldLater
  cases heldLater
  exact settles

/-- The same variable or function, with every type that was known. -/
inductive Declaration.Settles : Declaration → Declaration → Prop
  | variableOf (name : String) {before after : Ty} : before.Settles after →
      Settles (.variableOf name before) (.variableOf name after)
  | functionOf (name : String) {before after : Signature} : before.Evolves after →
      Settles (.functionOf name before) (.functionOf name after)

namespace Declaration

theorem Settles.refl (declaration : Declaration) : declaration.Settles declaration := by
  cases declaration with
  | variableOf name type => exact .variableOf name (.refl type)
  | functionOf name signature => exact .functionOf name (.refl signature)

theorem Settles.variableType? {before after : Declaration} (settles : before.Settles after)
    (name : String) :
    Option.Rel Ty.Settles (before.variableType? name) (after.variableType? name) := by
  cases settles with
  | functionOf declared evolves => exact .none
  | variableOf declared settles =>
      by_cases same : declared = name
      · simp only [Declaration.variableType?, same, ↓reduceIte]
        exact .some settles
      · simp only [Declaration.variableType?, same, ↓reduceIte]
        exact .none

theorem Settles.signature? {before after : Declaration} (settles : before.Settles after)
    (name : String) :
    Option.Rel Signature.Evolves (before.signature? name) (after.signature? name) := by
  cases settles with
  | variableOf declared settles => exact .none
  | functionOf declared evolves =>
      by_cases same : declared = name
      · simp only [Declaration.signature?, same, ↓reduceIte]
        exact .some evolves
      · simp only [Declaration.signature?, same, ↓reduceIte]
        exact .none

end Declaration

/-- The same declarations in the same order, with every type that was known. -/
def Table.Settles (before after : Table) : Prop :=
  List.Forall₂ Declaration.Settles before.declarations after.declarations

namespace Table

theorem Settles.refl (table : Table) : table.Settles table :=
  List.forall₂_same.2 fun declaration _ => .refl declaration

theorem Settles.findVariable? {before after : Table} (settles : before.Settles after)
    (name : String) :
    Option.Rel Ty.Settles (before.findVariable? name) (after.findVariable? name) :=
  rel_findSome? (fun _ _ here => here.variableType? name) settles

theorem Settles.findFunction? {before after : Table} (settles : before.Settles after)
    (name : String) :
    Option.Rel Signature.Evolves (before.findFunction? name) (after.findFunction? name) := by
  rw [Table.findFunction?, Table.findFunction?, lastSome?_eq_findSome?_reverse,
    lastSome?_eq_findSome?_reverse]
  exact rel_findSome? (fun _ _ here => here.signature? name) (List.forall₂_reverse_iff.2 settles)

theorem Settles.declaresVariable {before after : Table} (settles : before.Settles after)
    {name : String} {type : Ty} (declared : before.DeclaresVariable name type) :
    ∃ later, after.DeclaresVariable name later ∧ type.Settles later := by
  have related := settles.findVariable? name
  rw [findVariable?_eq_some_iff.2 declared] at related
  obtain ⟨later, found, settlesHere⟩ := exists_of_rel_some related
  exact ⟨later, findVariable?_eq_some_iff.1 found, settlesHere⟩

theorem Settles.declaresFunction {before after : Table} (settles : before.Settles after)
    {name : String} {signature : Signature} (declared : before.DeclaresFunction name signature) :
    ∃ later, after.DeclaresFunction name later ∧ signature.Evolves later := by
  have related := settles.findFunction? name
  rw [findFunction?_eq_some_iff.2 declared] at related
  obtain ⟨later, found, evolves⟩ := exists_of_rel_some related
  exact ⟨later, findFunction?_eq_some_iff.1 found, evolves⟩

end Table

end DialogueTyping
