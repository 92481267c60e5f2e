import DialogueTyping.Proofs.Typing.Exactness
import DialogueTyping.Proofs.Typing.Locality

set_option autoImplicit false

namespace DialogueTyping

namespace Signature

theorem Evolves.eq_of_types {start first second : Signature} (evolvesFirst : start.Evolves first)
    (evolvesSecond : start.Evolves second) (same : first.types = second.types) :
    first = second := by
  obtain ⟨sameParameters, sameResult⟩ := Prod.mk.inj same
  have sameNames := evolvesFirst.names.trans evolvesSecond.names.symm
  have parameters : first.parameters = second.parameters := by
    apply List.ext_getElem?
    intro index
    have nameHere := congrArg (·[index]?) sameNames
    have typeHere := congrArg (·[index]?) sameParameters
    simp only [List.getElem?_map] at nameHere typeHere
    cases found : first.parameters[index]? with
    | none =>
        rw [found, Option.map_none] at nameHere
        exact (Option.map_eq_none_iff.1 nameHere.symm).symm
    | some parameter =>
        rw [found, Option.map_some] at nameHere typeHere
        obtain ⟨other, foundOther, sameName⟩ := Option.map_eq_some_iff.1 nameHere.symm
        rw [foundOther, Option.map_some, Option.some.injEq] at typeHere
        rw [foundOther, Option.some.injEq]
        cases parameter
        cases other
        simp_all
  cases first
  cases second
  simp_all

theorem Evolves.eq_of_closed {before after : Signature} (evolves : before.Evolves after)
    (closed : before.isOpen = false) : after = before := by
  refine evolves.eq_of_types (.refl before) (types_eq_iff.2 ?_)
  have known := (@Declaration.isOpen_eq_false_iff (.functionOf "" before)).1 closed
  intro slot
  cases held : before.slot? slot with
  | some type =>
      obtain ⟨later, heldLater, settles⟩ := evolves.slots slot type held
      rw [heldLater, settles.eq_of_isResolved (known slot type held)]
  | none =>
      cases slot with
      | result => cases held
      | parameter index =>
          simp only [slot?, Option.map_eq_none_iff, List.getElem?_eq_none_iff] at held ⊢
          rw [evolves.length_parameters]
          exact held

end Signature

/-- A function that starts with one signature in two tables and ends with the same types in both ends
with one signature. -/
theorem Table.findFunction?_eq_of_types {allowed others : String → Slot → Prop}
    {early late first second : Table} {name : String} (filledFirst : early.Filled allowed first)
    (filledSecond : late.Filled others second)
    (sameStart : early.findFunction? name = late.findFunction? name)
    (sameTypes : (first.findFunction? name).map Signature.types =
      (second.findFunction? name).map Signature.types) :
    first.findFunction? name = second.findFunction? name := by
  cases found : late.findFunction? name with
  | none =>
      rw [found] at sameStart
      rw [filledFirst.findFunction?_eq_none sameStart, filledSecond.findFunction?_eq_none found]
  | some signature =>
      rw [found] at sameStart
      obtain ⟨held, foundFirst, evolvesFirst⟩ := filledFirst.findFunction? sameStart
      obtain ⟨other, foundSecond, evolvesSecond⟩ := filledSecond.findFunction? found
      rw [foundFirst, foundSecond, Option.map_some, Option.map_some, Option.some.injEq] at sameTypes
      rw [foundFirst, foundSecond, evolvesFirst.eq_of_types evolvesSecond sameTypes]

namespace Check

/-- Every function that both expressions call has no open slot, if it is declared. -/
def Independent (first second : Expr) (table : Table) : Prop :=
  ∀ name, first.Calls name → second.Calls name → ∀ signature,
    table.findFunction? name = some signature → signature.isOpen = false

theorem Independent.symm {first second : Expr} {table : Table}
    (apart : Independent first second table) : Independent second first table :=
  fun name called calledFirst => apart name calledFirst called

theorem findFunction?_kept (constant : Bool) {e : Expr} {table : Table} {name : String}
    (settled : e.Calls name → ∀ signature, table.findFunction? name = some signature →
      signature.isOpen = false) :
    ((expr constant e).outcome table).2.findFunction? name = table.findFunction? name := by
  have filled := fills_expr constant e table
  by_cases called : e.Calls name
  · cases found : table.findFunction? name with
    | none => exact filled.findFunction?_eq_none found
    | some signature =>
        obtain ⟨later, foundLater, evolves⟩ := filled.findFunction? found
        rw [foundLater, evolves.eq_of_closed (settled called signature found)]
  · apply filled.findFunction?_of_untouched
    intro slot may
    cases slot with
    | result => exact called (Expr.CallsAsOperand.calls may)
    | parameter index => exact called may

section Independent

variable {first second : Expr} {table : Table}

/-- What the second expression looks up is not changed by checking the first. -/
theorem Independent.agreeOn (apart : Independent first second table) (constant : Bool) :
    Table.AgreeOn second ((expr constant first).outcome table).2 table where
  variableTypes name _ := (fills_expr constant first table).findVariable? name
  functionTypes name called := by
    have kept := findFunction?_kept constant (e := first) fun calledFirst =>
      apart name calledFirst called
    rw [kept]

/-- A function that the second expression calls ends with one signature, in whatever order the two
are checked. -/
theorem Independent.findFunction?_eq (apart : Independent first second table) (constant : Bool)
    {name : String} (called : second.Calls name) :
    ((expr constant second).outcome ((expr constant first).outcome table).2).2.findFunction? name =
      ((expr constant first).outcome
        ((expr constant second).outcome table).2).2.findFunction? name := by
  have settled (calledFirst : first.Calls name) := apart name calledFirst called
  -- checked last, the first expression finds nothing of the function to fill
  have keptLast : ((expr constant first).outcome
      ((expr constant second).outcome table).2).2.findFunction? name =
        ((expr constant second).outcome table).2.findFunction? name := by
    apply findFunction?_kept
    intro calledFirst
    rw [findFunction?_kept constant fun _ => settled calledFirst]
    exact settled calledFirst
  rw [keptLast]
  have keptFirst := findFunction?_kept constant (e := first) settled
  have agree := (mirrors_own_names constant second _ _ (apart.agreeOn constant)).2
  have filledLate := fills_expr constant second ((expr constant first).outcome table).2
  have filledAlone := fills_expr constant second table
  exact Table.findFunction?_eq_of_types filledLate filledAlone keptFirst
    (agree.functionTypes name called)

end Independent

/-- Two expressions that share no open function have the same outcomes and leave the same table in
whatever order they are checked, whether or not they are wrong. -/
theorem independent_commute (constant : Bool) (first second : Expr) (table : Table)
    (apart : Independent first second table) :
    let firstAlone := (expr constant first).outcome table
    let secondAlone := (expr constant second).outcome table
    let secondAfter := (expr constant second).outcome firstAlone.2
    let firstAfter := (expr constant first).outcome secondAlone.2
    firstAfter.1 = firstAlone.1 ∧ secondAfter.1 = secondAlone.1 ∧ firstAfter.2 = secondAfter.2 := by
  intro firstAlone secondAlone secondAfter firstAfter
  have sameFirst := (mirrors_own_names constant first _ _ (apart.symm.agreeOn constant)).1
  have sameSecond := (mirrors_own_names constant second _ _ (apart.agreeOn constant)).1
  refine ⟨sameFirst, sameSecond, ?_⟩
  have anything {e : Expr} (name : String) (slot : Slot) (_ : e.MayFill name slot) : True := trivial
  have filledFirst : table.Filled (fun _ _ => True) firstAfter.2 :=
    ((fills_expr constant second table).mono anything).trans
      ((fills_expr constant first secondAlone.2).mono anything)
  have filledSecond : table.Filled (fun _ _ => True) secondAfter.2 :=
    ((fills_expr constant first table).mono anything).trans
      ((fills_expr constant second firstAlone.2).mono anything)
  apply Table.eq_of_findFunction? filledFirst filledSecond
  intro name
  by_cases calledSecond : second.Calls name
  · exact (apart.findFunction?_eq constant calledSecond).symm
  · by_cases calledFirst : first.Calls name
    · exact apart.symm.findFunction?_eq constant calledFirst
    · -- nobody calls the function
      have kept (e : Expr) (uncalled : ¬ e.Calls name) (start : Table) :
          ((expr constant e).outcome start).2.findFunction? name = start.findFunction? name :=
        findFunction?_kept constant fun called => absurd called uncalled
      rw [kept first calledFirst, kept second calledSecond, kept second calledSecond,
        kept first calledFirst]

/-- `gain(luck()) + 0` and `loss(luck()) and null`, which is found wrong. Both call `luck`, which
has no open slot. -/
theorem independent_commute_wrong :
    let site : Site := ⟨⟨0⟩, .point 0⟩
    let tree (operator : BinaryOperator) (function : String) (value : Literal) : Expr :=
      .binary site operator (.call site function [.call site "luck" []]) (.literal site value)
    let first := tree .add "gain" (.number .zero)
    let second := tree .and "loss" .null
    let table : Table := ⟨[.functionOf "gain" ⟨[⟨none, .unresolved⟩], .unresolved⟩,
      .functionOf "loss" ⟨[⟨none, .unresolved⟩], .unresolved⟩, .functionOf "luck" ⟨[], .number⟩]⟩
    let firstAfter := (expr false first).outcome ((expr false second).outcome table).2
    let secondAfter := (expr false second).outcome ((expr false first).outcome table).2
    Independent first second table ∧ firstAfter.1 = .ok .number ∧
      secondAfter.1 = .error (.report (.atSite .nullNotPermitted site)) ∧
      firstAfter.2 = secondAfter.2 ∧
      secondAfter.2 = ⟨[.functionOf "gain" ⟨[⟨none, .number⟩], .number⟩,
        .functionOf "loss" ⟨[⟨none, .number⟩], .unresolved⟩,
        .functionOf "luck" ⟨[], .number⟩]⟩ := by
  intro site tree first second table firstAfter secondAfter
  have calls {operator : BinaryOperator} {function name : String} {value : Literal}
      (called : (tree operator function value).Calls name) : name = function ∨ name = "luck" := by
    obtain ⟨_, _, inside⟩ := called
    cases inside with
    | inside member inner =>
        rcases List.mem_cons.1 member with rfl | other
        · cases inner with
          | self => exact Or.inl rfl
          | inside deeper innermost =>
              cases List.mem_singleton.1 deeper
              cases innermost with
              | self => exact Or.inr rfl
              | inside absent _ => cases absent
        · cases List.mem_singleton.1 other
          cases inner with
          | inside absent _ => cases absent
  have apart : Independent first second table := by
    intro name calledFirst calledSecond signature found
    have shared : name = "luck" := by
      rcases calls calledFirst with rfl | same
      · rcases calls calledSecond with impossible | same
        · exact absurd impossible (by decide)
        · exact same
      · exact same
    subst shared
    cases found
    rfl
  obtain ⟨sameFirst, sameSecond, sameTable⟩ := independent_commute false first second table apart
  exact ⟨apart, sameFirst, sameSecond, sameTable, rfl⟩

end Check

end DialogueTyping
