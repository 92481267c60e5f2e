import DialogueTyping.Proofs.Typing.Soundness
import Mathlib.Data.List.Forall2

set_option autoImplicit false

namespace DialogueTyping

theorem exists_of_forall₂ {α β : Type} {related : α → β → Prop} {list : List α} {others : List β}
    (all : List.Forall₂ related list others) {a : α} (member : a ∈ list) :
    ∃ b, b ∈ others ∧ related a b := by
  induction all with
  | nil => cases member
  | cons head _ ih =>
      rcases List.mem_cons.1 member with rfl | later
      · exact ⟨_, List.mem_cons_self, head⟩
      · obtain ⟨b, inside, here⟩ := ih later
        exact ⟨b, List.mem_cons_of_mem _ inside, here⟩

namespace Check

theorem expr_of_operator? {node : Expr} {symbol : Operator} (constant : Bool)
    (isOperator : node.operator? = some symbol) :
    expr constant node = (do
      let types ← node.operands.mapM (expr constant)
      unify node.site symbol (node.operands.zip types)) := by
  cases node with
  | unary site operator operand =>
      cases isOperator
      simp [expr, Expr.operands, Expr.site]
  | binary site operator left right =>
      cases isOperator
      simp [expr, Expr.operands, Expr.site]
  | assignment site operator target value =>
      cases isOperator
      simp [expr, Expr.operands, Expr.site]
  | condition site clause body =>
      cases isOperator
      simp [expr, Expr.operands, Expr.site]
  | literal | reference | call | paren | atom | conversion => cases isOperator

theorem Fills.leadsTo {α : Type} {check : Check α} {table after : Table} {answer : Except Stop α}
    (fills : Fills (fun _ _ => True) check) (ended : check.outcome table = (answer, after)) :
    table.LeadsTo after :=
  fills.filled ended

theorem leadsTo_pass {function : String} {index : Nat} {argument : Site} {supplied : Ty}
    {table after : Table} {answer : Except Stop Unit}
    (ended : (pass function index argument supplied).outcome table = (answer, after)) :
    table.LeadsTo after :=
  Fills.leadsTo (fills_pass argument supplied trivial) ended

theorem fills_settle_any (common : Ty) (operand : Expr × Ty) :
    Fills (fun _ _ => True) (settle common operand) :=
  fills_settle common fun _ _ _ => trivial

theorem leadsTo_settle {common : Ty} {operand : Expr × Ty} {table after : Table}
    {answer : Except Stop Ty} (ended : (settle common operand).outcome table = (answer, after)) :
    table.LeadsTo after :=
  (fills_settle_any common operand).leadsTo ended

theorem leadsTo_unify {site : Site} {operator : Operator} {operands : List (Expr × Ty)}
    {table after : Table} {answer : Except Stop Ty}
    (ended : (unify site operator operands).outcome table = (answer, after)) :
    table.LeadsTo after :=
  Fills.leadsTo (fills_unify site operator fun _ _ _ _ _ => trivial) ended

theorem fills_expr_any (constant : Bool) (e : Expr) :
    Fills (fun _ _ => True) (expr constant e) :=
  (fills_expr constant e).mono fun _ _ _ => trivial

theorem leadsTo_mapM {constant : Bool} {list : List Expr} {table after : Table}
    {answer : Except Stop (List Ty)}
    (ended : (list.mapM (expr constant)).outcome table = (answer, after)) :
    table.LeadsTo after :=
  Fills.leadsTo (fills_mapM fun e _ => fills_expr_any constant e) ended

section Steps

variable {α β : Type} {step : α → Check β} {list : List α} {table after : Table}

/-- When a whole list is done, each of its steps was done somewhere on the way. -/
theorem steps_of_mapM {values : List β} (each : ∀ a, Fills (fun _ _ => True) (step a))
    (done : (list.mapM step).outcome table = (.ok values, after)) :
    List.Forall₂ (fun a value => ∃ start finish, table.LeadsTo start ∧
      (step a).outcome start = (.ok value, finish) ∧ finish.LeadsTo after) list values := by
  induction list generalizing table values with
  | nil =>
      cases done
      exact .nil
  | cons head tail ih =>
      rw [List.mapM_cons] at done
      obtain ⟨value, between, first, rest⟩ := outcome_bind_eq_ok_iff.1 done
      obtain ⟨others, last, later, given⟩ := outcome_bind_eq_ok_iff.1 rest
      cases given
      have leadsFirst := (each head).leadsTo first
      have leadsLater : between.LeadsTo after := Fills.leadsTo (fills_mapM fun a _ => each a) later
      refine .cons ⟨table, between, .refl table, first, leadsLater⟩ ((ih later).imp ?_)
      rintro a value ⟨start, finish, leadsStart, here, leadsFinish⟩
      exact ⟨start, finish, leadsFirst.trans leadsStart, here, leadsFinish⟩

theorem exists_of_mapM_eq_error {stop : Stop} (each : ∀ a, Fills (fun _ _ => True) (step a))
    (failed : (list.mapM step).outcome table = (.error stop, after)) :
    ∃ a start, a ∈ list ∧ table.LeadsTo start ∧
      (step a).outcome start = (.error stop, after) := by
  induction list generalizing table with
  | nil => cases failed
  | cons head tail ih =>
      rw [List.mapM_cons] at failed
      rcases outcome_bind_eq_error_iff.1 failed with wrong | ⟨_, between, first, rest⟩
      · exact ⟨head, table, List.mem_cons_self, .refl table, wrong⟩
      · rcases outcome_bind_eq_error_iff.1 rest with later | ⟨_, _, -, done⟩
        · obtain ⟨a, start, member, leads, wrong⟩ := ih later
          have leadsFirst := (each head).leadsTo first
          exact ⟨a, start, List.mem_cons_of_mem head member, leadsFirst.trans leads, wrong⟩
        · cases done

end Steps

/-- On the way from `before` to `after`, `e` was checked and found to have the type `type`. -/
def Found (constant : Bool) (before after : Table) (e : Expr) (type : Ty) : Prop :=
  ∃ start finish, before.LeadsTo start ∧ (expr constant e).outcome start = (.ok type, finish) ∧
    finish.LeadsTo after

section Found

variable {constant : Bool} {before after : Table} {e : Expr} {type : Ty}

theorem Found.of_ok (accepted : (expr constant e).outcome before = (.ok type, after)) :
    Found constant before after e type :=
  ⟨before, after, .refl before, accepted, .refl after⟩

theorem Found.widen {earlier later : Table} (found : Found constant before after e type)
    (leadsBefore : earlier.LeadsTo before) (leadsAfter : after.LeadsTo later) :
    Found constant earlier later e type := by
  obtain ⟨start, finish, leadsStart, accepted, leadsFinish⟩ := found
  exact ⟨start, finish, leadsBefore.trans leadsStart, accepted, leadsFinish.trans leadsAfter⟩

theorem Found.earlier {earlier : Table} (found : Found constant before after e type)
    (leads : earlier.LeadsTo before) : Found constant earlier after e type :=
  found.widen leads (.refl after)

theorem Found.later {later : Table} (found : Found constant before after e type)
    (leads : after.LeadsTo later) : Found constant before later e type :=
  found.widen (.refl before) leads

theorem found_of_mapM {list : List Expr} {types : List Ty}
    (accepted : (list.mapM (expr constant)).outcome before = (.ok types, after)) :
    List.Forall₂ (Found constant before after) list types :=
  steps_of_mapM (fills_expr_any constant) accepted

theorem found_of_passAll {function : String} {index : Nat} {arguments : List Expr}
    (passed : (passAll constant function index arguments).outcome before = (.ok (), after)) :
    ∀ argument ∈ arguments, ∃ supplied, Found constant before after argument supplied := by
  induction arguments generalizing before index with
  | nil => exact List.forall_mem_nil _
  | cons argument others ih =>
      rw [passAll] at passed
      obtain ⟨supplied, between, checked, rest⟩ := outcome_bind_eq_ok_iff.1 passed
      obtain ⟨⟨⟩, handed, handing, later⟩ := outcome_bind_eq_ok_iff.1 rest
      have leadsHanded := leadsTo_pass handing
      have leadsLater := leadsTo_passAll later
      refine List.forall_mem_cons.2 ⟨⟨supplied, ?_⟩, ?_⟩
      · exact (Found.of_ok checked).later (leadsHanded.trans leadsLater)
      · intro other member
        obtain ⟨otherType, found⟩ := ih later other member
        exact ⟨otherType, found.earlier ((leadsTo_expr checked).trans leadsHanded)⟩

theorem found_of_child (accepted : (expr constant e).outcome before = (.ok type, after)) :
    ∀ child ∈ e.children, ∃ childType, Found constant before after child childType := by
  cases e using Expr.operatorInd with
  | literal | reference => exact List.forall_mem_nil _
  | call site name arguments =>
      rw [expr] at accepted
      obtain ⟨⟨⟩, between, counted, rest⟩ := outcome_bind_eq_ok_iff.1 accepted
      obtain ⟨rfl, -⟩ := arity_eq_ok_iff.1 counted
      obtain ⟨⟨⟩, last, passed, looked⟩ := outcome_bind_eq_ok_iff.1 rest
      obtain ⟨rfl, -⟩ := slot_eq_ok_iff.1 looked
      exact found_of_passAll passed
  | operator node symbol isOperator =>
      rw [expr_of_operator? constant isOperator] at accepted
      obtain ⟨types, between, checked, unified⟩ := outcome_bind_eq_ok_iff.1 accepted
      rw [Expr.children_of_operator? isOperator]
      intro operand member
      obtain ⟨operandType, -, found⟩ := exists_of_forall₂ (found_of_mapM checked) member
      exact ⟨operandType, found.later (leadsTo_unify unified)⟩
  | paren site inner =>
      rw [expr] at accepted
      exact List.forall_mem_singleton.2 ⟨type, .of_ok accepted⟩
  | atom site inner =>
      rw [expr] at accepted
      exact List.forall_mem_singleton.2 ⟨type, .of_ok accepted⟩
  | conversion site target body =>
      rw [expr] at accepted
      obtain ⟨bodyType, between, checked, converted⟩ := outcome_bind_eq_ok_iff.1 accepted
      obtain ⟨rfl, -⟩ := conversion_eq_ok_iff.1 converted
      exact List.forall_mem_singleton.2 ⟨bodyType, .of_ok checked⟩

/-- What is accepted was accepted in all its parts. -/
theorem found_of_within {inner : Expr}
    (accepted : (expr constant e).outcome before = (.ok type, after)) (within : inner.Within e) :
    ∃ innerType, Found constant before after inner innerType := by
  induction within generalizing before after type with
  | self => exact ⟨type, .of_ok accepted⟩
  | inside member _ ih =>
      obtain ⟨childType, start, finish, leadsStart, checked, leadsFinish⟩ :=
        found_of_child accepted _ member
      obtain ⟨innerType, found⟩ := ih checked
      exact ⟨innerType, found.widen leadsStart leadsFinish⟩

/-- A call, also inside parentheses and atom nodes, has the type of its function's result. -/
theorem result_of_core {site : Site} {name : String} {arguments : List Expr}
    (accepted : (expr constant e).outcome before = (.ok type, after))
    (isCore : e.core = .call site name arguments) :
    ∃ held, after.findFunction? name = some held ∧ held.result = type := by
  induction e using Expr.operatorInd with
  | call site called list =>
      cases isCore
      rw [expr] at accepted
      obtain ⟨_, _, -, rest⟩ := outcome_bind_eq_ok_iff.1 accepted
      obtain ⟨_, _, -, looked⟩ := outcome_bind_eq_ok_iff.1 rest
      obtain ⟨rfl, held, found, placed⟩ := slot_eq_ok_iff.1 looked
      exact ⟨held, found, Option.some.inj placed⟩
  | paren site inner ih =>
      rw [expr] at accepted
      exact ih accepted isCore
  | atom site inner ih =>
      rw [expr] at accepted
      exact ih accepted isCore
  | operator node symbol isOperator =>
      rw [Expr.core_of_operator? isOperator] at isCore
      subst isCore
      cases isOperator
  | literal | reference | conversion => cases isCore

/-- Once the result of a call is known, it stays the type that was found. -/
theorem Found.result {site : Site} {name : String} {arguments : List Expr}
    (found : Found constant before after e type) (isCore : e.core = .call site name arguments) :
    ∃ held, after.findFunction? name = some held ∧ type.Settles held.result := by
  obtain ⟨start, finish, -, accepted, leads⟩ := found
  obtain ⟨held, foundHeld, rfl⟩ := result_of_core accepted isCore
  obtain ⟨later, foundLater, evolves⟩ := Table.Filled.findFunction? leads foundHeld
  exact ⟨later, foundLater, evolves.result⟩

end Found

end Check

end DialogueTyping
