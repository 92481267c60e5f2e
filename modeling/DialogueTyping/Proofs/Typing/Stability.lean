import DialogueTyping.Proofs.Table.Settling
import DialogueTyping.Proofs.Typing.Exactness

set_option autoImplicit false

/-
What was accepted once is accepted again, and then nothing is left to fill. The types that the first
check found come back; one that was not known then is read from the new table. Arguments of unknown
type are left out, because nothing ties them to their parameters.
-/

namespace DialogueTyping

/-- Inside parentheses and atom nodes, the expression is a variable or a call, and its declared type
in `table` is `type`. -/
def Expr.SlotIn (table : Table) (expr : Expr) (type : Ty) : Prop :=
  match expr.core with
  | .reference _ name => table.DeclaresVariable name type
  | .call _ name _ => ∃ signature, table.DeclaresFunction name signature ∧ signature.result = type
  | _ => False

namespace Expr

theorem openIn_iff_slotIn {table : Table} {e : Expr} :
    e.OpenIn table ↔ e.SlotIn table .unresolved := by
  unfold OpenIn SlotIn
  cases e.core <;> rfl

theorem SlotIn.unique {table : Table} {e : Expr} {first second : Ty}
    (early : e.SlotIn table first) (late : e.SlotIn table second) : first = second := by
  unfold SlotIn at early late
  cases isCore : e.core with
  | reference site name =>
      simp only [isCore, ← Table.findVariable?_eq_some_iff] at early late
      rw [early] at late
      exact Option.some.inj late
  | call site name arguments =>
      simp only [isCore, ← Table.findFunction?_eq_some_iff] at early late
      obtain ⟨signature, found, rfl⟩ := early
      obtain ⟨again, foundAgain, rfl⟩ := late
      rw [found] at foundAgain
      cases foundAgain
      rfl
  | literal | unary | binary | assignment | paren | atom | conversion | condition =>
      simp only [isCore] at early

/-- No argument of a call in the expression is one that `excluded` names. -/
def NoArgument (excluded : Expr → Prop) (expr : Expr) : Prop :=
  ∀ site name arguments, (call site name arguments).Within expr →
    ∀ argument ∈ arguments, ¬ excluded argument

theorem NoArgument.child {excluded : Expr → Prop} {outer child : Expr}
    (avoided : outer.NoArgument excluded) (member : child ∈ outer.children) :
    child.NoArgument excluded :=
  fun site name arguments within =>
    avoided site name arguments (within.trans (.of_child member))

end Expr

/-- A type comes from a declaration or from the form of the expression. In the second case it is
known, and no table has a slot for the expression. -/
theorem HasType.slotIn_or_isResolved {exempt : Expr → Prop} {table : Table} {constant : Bool}
    {e : Expr} {type : Ty} (typed : HasType exempt table constant e type) :
    e.SlotIn table type ∨ type.isResolved ∧ ∀ other held, ¬ e.SlotIn other held := by
  induction e using Expr.ind generalizing type with
  | literal site value =>
      cases typed with
      | number | string | bool => exact Or.inr ⟨rfl, fun _ _ => id⟩
  | reference site name =>
      cases typed with
      | reference _ declared => exact Or.inl declared
  | call site name arguments _ =>
      cases typed with
      | call declared _ => exact Or.inl ⟨_, declared, rfl⟩
  | unary site operator operand _ =>
      cases typed with
      | unary _ permitted =>
          have known := Operator.isResolved_result (.unary operator) permitted
          exact Or.inr ⟨known, fun _ _ => id⟩
  | binary site operator left right _ _ =>
      cases typed with
      | binary _ _ permitted =>
          have known := Operator.isResolved_result (.binary operator) permitted
          exact Or.inr ⟨known, fun _ _ => id⟩
  | assignment site operator target value _ _ =>
      cases typed with
      | assignment _ _ permitted =>
          have known := Operator.isResolved_result (.assignment operator) permitted
          exact Or.inr ⟨known, fun _ _ => id⟩
  | paren site inner ih =>
      cases typed with
      | paren innerTyped => exact ih innerTyped
  | atom site inner ih =>
      cases typed with
      | atom innerTyped => exact ih innerTyped
  | conversion site target body _ =>
      cases typed with
      | conversion _ resolved => exact Or.inr ⟨resolved, fun _ _ => id⟩
  | condition site clause body _ =>
      cases typed with
      | condition _ permitted =>
          have known := Operator.isResolved_result (.condition clause) permitted
          exact Or.inr ⟨known, fun _ _ => id⟩

section Later

variable {exempt : Expr → Prop} {before later : Table} {constant : Bool}

/-- Arguments whose types are known and stay fit the parameters that a later table declares. -/
theorem Fits.settled {arguments : List Expr} {parameters others : List Parameter}
    (fits : Fits exempt before constant arguments parameters)
    (evolve : List.Forall₂ (fun early late => Ty.Settles early.type late.type) parameters others)
    (avoided : ∀ argument ∈ arguments, ¬ exempt argument)
    (stays : ∀ argument ∈ arguments, ∀ type, HasType exempt before constant argument type →
      type.isResolved ∧ HasStrictType later constant argument type) :
    Fits (fun _ => False) later constant arguments others := by
  induction arguments generalizing parameters others with
  | nil =>
      cases fits
      cases evolve
      exact .nil
  | cons argument arguments ih =>
      obtain ⟨avoidedHead, avoidedTail⟩ := List.forall_mem_cons.1 avoided
      obtain ⟨staysHead, staysTail⟩ := List.forall_mem_cons.1 stays
      cases fits with
      | @cons _ type parameter _ parameters typed agrees rest =>
          cases evolve with
          | @cons _ other _ others settles evolveRest =>
              have same : type = parameter.type := agrees.resolve_right avoidedHead
              obtain ⟨known, typedLater⟩ := staysHead type typed
              have kept : other.type = parameter.type := settles.eq_of_isResolved (same ▸ known)
              have sameLater : type = other.type := same.trans kept.symm
              exact .cons typedLater (Or.inl sameLater) (ih rest evolveRest avoidedTail staysTail)

/-- A type by the rules is one in every table that knows more, and the same one if it was known. -/
theorem HasType.settled {e : Expr} {type : Ty} (settles : before.Settles later)
    (unknown : ∀ argument : Expr, argument.OpenIn before → exempt argument)
    (typed : HasType exempt before constant e type) (avoided : e.NoArgument exempt) :
    ∃ found, HasStrictType later constant e found ∧ type.Settles found := by
  -- the operands of an operator have a known type, so each keeps it
  have operand {child : Expr} {common : Ty} (operator : Operator)
      (permitted : common ∈ operator.permitted)
      (step : ∃ found, HasStrictType later constant child found ∧ common.Settles found) :
      HasStrictType later constant child common := by
    obtain ⟨found, typedLater, settlesHere⟩ := step
    rwa [settlesHere.eq_of_isResolved (operator.isResolved_of_permitted permitted)] at typedLater
  induction e using Expr.ind generalizing type with
  | literal site value =>
      cases typed with
      | number => exact ⟨_, .number site _, .refl _⟩
      | string => exact ⟨_, .string site _, .refl _⟩
      | bool => exact ⟨_, .bool site _, .refl _⟩
  | reference site name =>
      cases typed with
      | reference variablesAllowed declared =>
          obtain ⟨found, declaredLater, settlesHere⟩ := settles.declaresVariable declared
          exact ⟨found, .reference variablesAllowed declaredLater, settlesHere⟩
  | call site name arguments ih =>
      cases typed with
      | call declared fits =>
          obtain ⟨signature, declaredLater, evolves⟩ := settles.declaresFunction declared
          refine ⟨signature.result, .call declaredLater ?_, evolves.result⟩
          have free : ∀ argument ∈ arguments, ¬ exempt argument :=
            avoided site name arguments .self
          apply fits.settled evolves.parameters free
          intro argument member argumentType argumentTyped
          have known : argumentType.isResolved := by
            rcases argumentTyped.slotIn_or_isResolved with slotted | ⟨known, -⟩
            · apply Ty.isResolved_iff.2
              rintro rfl
              exact free argument member (unknown argument (Expr.openIn_iff_slotIn.2 slotted))
            · exact known
          obtain ⟨found, typedLater, settlesHere⟩ :=
            ih argument member argumentTyped (avoided.child member)
          rw [settlesHere.eq_of_isResolved known] at typedLater
          exact ⟨known, typedLater⟩
  | unary site operator child ih =>
      cases typed with
      | unary childTyped permitted =>
          have step := ih childTyped (avoided.child (by simp [Expr.children]))
          have childLater := operand (.unary operator) permitted step
          exact ⟨_, .unary childLater permitted, .refl _⟩
  | binary site operator left right ihLeft ihRight =>
      cases typed with
      | binary leftTyped rightTyped permitted =>
          have stepLeft := ihLeft leftTyped (avoided.child (by simp [Expr.children]))
          have stepRight := ihRight rightTyped (avoided.child (by simp [Expr.children]))
          have leftLater := operand (.binary operator) permitted stepLeft
          have rightLater := operand (.binary operator) permitted stepRight
          exact ⟨_, .binary leftLater rightLater permitted, .refl _⟩
  | assignment site operator target value ihTarget ihValue =>
      cases typed with
      | assignment targetTyped valueTyped permitted =>
          have stepTarget := ihTarget targetTyped (avoided.child (by simp [Expr.children]))
          have stepValue := ihValue valueTyped (avoided.child (by simp [Expr.children]))
          have targetLater := operand (.assignment operator) permitted stepTarget
          have valueLater := operand (.assignment operator) permitted stepValue
          exact ⟨_, .assignment targetLater valueLater permitted, .refl _⟩
  | paren site inner ih =>
      cases typed with
      | paren innerTyped =>
          obtain ⟨found, typedLater, settlesHere⟩ :=
            ih innerTyped (avoided.child (List.mem_singleton_self inner))
          exact ⟨found, .paren typedLater, settlesHere⟩
  | atom site inner ih =>
      cases typed with
      | atom innerTyped =>
          obtain ⟨found, typedLater, settlesHere⟩ :=
            ih innerTyped (avoided.child (List.mem_singleton_self inner))
          exact ⟨found, .atom typedLater, settlesHere⟩
  | conversion site target body ih =>
      cases typed with
      | conversion bodyTyped known =>
          obtain ⟨found, typedLater, -⟩ :=
            ih bodyTyped (avoided.child (List.mem_singleton_self body))
          exact ⟨_, .conversion typedLater known, .refl _⟩
  | condition site clause body ih =>
      cases typed with
      | condition bodyTyped permitted =>
          have step := ih bodyTyped (avoided.child (List.mem_singleton_self body))
          have bodyLater := operand (.condition clause) permitted step
          exact ⟨_, .condition bodyLater permitted, .refl _⟩

end Later

namespace Check

/-- The type is the same if it was known, and otherwise what the later table declares for the
variable or call that the expression is. -/
theorem accepted_from_later {constant : Bool} {e : Expr} {table after later : Table} {type : Ty}
    (accepted : (expr constant e).outcome table = (.ok type, after))
    (known : e.NoArgument (·.OpenIn table)) (settles : after.Settles later) :
    ∃ found, (expr constant e).outcome later = (.ok found, later) ∧
      (type.isResolved → found = type) ∧ (type = .unresolved → e.SlotIn later found) := by
  obtain ⟨derivable, unknown⟩ := sound_expr constant e accepted fun _ stillOpen => stillOpen
  obtain ⟨derived, typed, agrees⟩ := derivable after (.refl after)
  have stillOpen : ∀ argument : Expr, argument.OpenIn after → argument.OpenIn table :=
    fun _ isOpen => .of_filled (leadsTo_expr accepted) isOpen
  obtain ⟨found, typedLater, settlesHere⟩ := typed.settled settles stillOpen known
  refine ⟨found, outcome_of_hasType typedLater, ?_, ?_⟩
  · intro resolved
    have same := agrees resolved
    rw [settlesHere.eq_of_isResolved (same ▸ resolved), same]
  · intro unresolved
    have slotted := Expr.openIn_iff_slotIn.1 (unknown unresolved)
    rcases typedLater.slotIn_or_isResolved with slottedLater | ⟨-, unslotted⟩
    · exact slottedLater
    · exact absurd slotted (unslotted after .unresolved)

/-- An expression that was accepted, with no argument of unknown type, is accepted from every table
that knows at least what the check left behind, and leaves that table as it is. -/
theorem accepted_again (constant : Bool) (e : Expr) (table after : Table) (type : Ty)
    (accepted : (expr constant e).outcome table = (.ok type, after))
    (known : e.NoArgument (·.OpenIn table)) :
    (∀ later, after.Settles later →
      ∃ found, (expr constant e).outcome later = (.ok found, later) ∧
        (type.isResolved → found = type) ∧ (type = .unresolved → e.SlotIn later found)) ∧
    (expr constant e).outcome after = (.ok type, after) := by
  constructor
  · intro later settles
    exact accepted_from_later accepted known settles
  · obtain ⟨found, acceptedAgain, same, slotted⟩ :=
      accepted_from_later accepted known (.refl after)
    have agrees : found = type := by
      by_cases resolved : type.isResolved
      · exact same resolved
      · have unresolved := Ty.isResolved_eq_false_iff.1 (Bool.eq_false_iff.2 resolved)
        have isOpen := (sound_expr constant e accepted fun _ stillOpen => stillOpen).2 unresolved
        rw [unresolved]
        exact (slotted unresolved).unique (Expr.openIn_iff_slotIn.1 isOpen)
    rw [acceptedAgain, agrees]

/-- `luck() + dice($gold)` fills the result of `luck` and the parameter of `dice`. Once another
function and another variable are known too, it is a number again. -/
theorem accepted_again_later :
    let site : Site := ⟨⟨0⟩, .point 0⟩
    let sum : Expr := .binary site .add (.call site "luck" [])
      (.call site "dice" [.reference site "$gold"])
    let table : Table := ⟨[.variableOf "$gold" .number, .variableOf "$name" .unresolved,
      .functionOf "dice" ⟨[⟨none, .unresolved⟩], .number⟩, .functionOf "luck" ⟨[], .unresolved⟩,
      .functionOf "seen" ⟨[], .unresolved⟩]⟩
    let after : Table := ⟨[.variableOf "$gold" .number, .variableOf "$name" .unresolved,
      .functionOf "dice" ⟨[⟨none, .number⟩], .number⟩, .functionOf "luck" ⟨[], .number⟩,
      .functionOf "seen" ⟨[], .unresolved⟩]⟩
    let later : Table := ⟨[.variableOf "$gold" .number, .variableOf "$name" .string,
      .functionOf "dice" ⟨[⟨none, .number⟩], .number⟩, .functionOf "luck" ⟨[], .number⟩,
      .functionOf "seen" ⟨[], .bool⟩]⟩
    (expr false sum).outcome table = (.ok .number, after) ∧ sum.NoArgument (·.OpenIn table) ∧
      after.Settles later ∧ (expr false sum).outcome later = (.ok .number, later) := by
  intro site sum table after later
  have accepted : (expr false sum).outcome table = (.ok .number, after) := rfl
  have known : sum.NoArgument (·.OpenIn table) := by
    intro callSite name arguments within argument member
    have isGold : arguments ⊆ [.reference site "$gold"] := by
      simp only [sum] at within
      rcases within with _ | ⟨inSum, _ | ⟨inCall, within⟩⟩
      · rcases inSum with _ | ⟨_, _ | ⟨_, ⟨⟩⟩⟩ <;> simp
      · rcases inSum with _ | ⟨_, _ | ⟨_, ⟨⟩⟩⟩
        · cases inCall
        · cases List.mem_singleton.1 inCall
          rcases within with _ | ⟨⟨⟩, _⟩
    cases List.mem_singleton.1 (isGold member)
    intro isOpen
    have found := Table.findVariable?_eq_some_iff.2 isOpen
    cases found
  have seen : Signature.Evolves ⟨[], .unresolved⟩ ⟨[], .bool⟩ :=
    Signature.evolves_setSlot (rfl : Signature.slot? ⟨[], .unresolved⟩ .result = _) rfl
  have settles : after.Settles later :=
    .cons (.refl _) (.cons (.variableOf "$name" (Or.inr ⟨rfl, rfl⟩))
      (.cons (.refl _) (.cons (.refl _) (.cons (.functionOf "seen" seen) .nil))))
  refine ⟨accepted, known, settles, ?_⟩
  obtain ⟨found, again, same, -⟩ :=
    (accepted_again false sum table after .number accepted known).1 later settles
  rw [again, same rfl]

end Check

end DialogueTyping
