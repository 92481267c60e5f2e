import DialogueTyping.Proofs.Expr.Subexpression
import DialogueTyping.Proofs.Table.Evolution
import DialogueTyping.Proofs.Typing.Outcome

set_option autoImplicit false

namespace DialogueTyping

/-- The slots that checking an expression may fill. -/
def Expr.MayFill (expr : Expr) (name : String) : Slot → Prop
  | .result => expr.CallsAsOperand name
  | .parameter _ => expr.Calls name

theorem Expr.MayFill.mono {inner outer : Expr} (within : inner.Within outer) (name : String)
    (slot : Slot) (may : inner.MayFill name slot) : outer.MayFill name slot := by
  cases slot with
  | result => exact CallsAsOperand.mono within may
  | parameter index => exact Calls.mono within may

namespace Check

/-- The computation does nothing to the table but fill slots that `allowed` names. -/
def Fills {α : Type} (allowed : String → Slot → Prop) (check : Check α) : Prop :=
  ∀ table, Table.Filled allowed table (check.outcome table).2

section Fills

variable {α β : Type} {allowed : String → Slot → Prop}

theorem fills_pure (value : α) : Fills allowed (pure value) := fun table => .refl table

theorem fills_throw (stop : Stop) : Fills (α := α) allowed (throw stop) := fun table => .refl table

theorem fills_fail (site : Site) (problem : Problem) :
    Fills (α := α) allowed (fail site problem) :=
  fills_throw _

theorem fills_get : Fills allowed (get : Check Table) := fun table => .refl table

theorem Fills.bind {first : Check α} {next : α → Check β} (early : Fills allowed first)
    (late : ∀ value, Fills allowed (next value)) : Fills allowed (first >>= next) := by
  intro table
  have filled := early table
  rw [outcome_bind]
  rcases found : first.outcome table with ⟨_ | value, between⟩
  · rw [found] at filled
    exact filled
  · rw [found] at filled
    exact filled.trans (late value between)

theorem Fills.mono {wider : String → Slot → Prop} {check : Check α} (fills : Fills allowed check)
    (implies : ∀ name slot, allowed name slot → wider name slot) : Fills wider check :=
  fun table => (fills table).mono implies

theorem Fills.filled {check : Check α} {table after : Table} {answer : Except Stop α}
    (fills : Fills allowed check) (ended : check.outcome table = (answer, after)) :
    table.Filled allowed after := by
  have filled := fills table
  rwa [ended] at filled

theorem fills_mapM {f : α → Check β} {list : List α} (each : ∀ a ∈ list, Fills allowed (f a)) :
    Fills allowed (list.mapM f) := by
  induction list with
  | nil => exact fills_pure _
  | cons a list ih =>
      rw [List.mapM_cons]
      apply (each a List.mem_cons_self).bind
      intro first
      apply (ih fun b member => each b (List.mem_cons_of_mem a member)).bind
      intro others
      exact fills_pure _

theorem fills_bindSlot {name : String} {slot : Slot} (type : Ty) (permission : allowed name slot) :
    Fills allowed (bindSlot name slot type) := by
  intro table
  rw [bindSlot, outcome_bind]
  simp only [outcome_get]
  cases bound : table.bind name slot type with
  | error fault => exact .refl table
  | ok after => exact Relation.ReflTransGen.single ⟨name, slot, type, permission, bound⟩

theorem fills_signature (name : String) : Fills allowed (signature name) := by
  apply fills_get.bind
  intro table
  split
  · exact fills_pure _
  · exact fills_throw _

theorem fills_slot (name : String) (place : Slot) : Fills allowed (slot name place) := by
  apply (fills_signature name).bind
  intro held
  split
  · exact fills_pure _
  · exact fills_throw _

theorem fills_pass {function : String} {index : Nat} (argument : Site) (supplied : Ty)
    (permission : allowed function (.parameter index)) :
    Fills allowed (pass function index argument supplied) := by
  apply (fills_slot function (.parameter index)).bind
  intro expected
  split
  · split
    · exact fills_bindSlot supplied permission
    · exact fills_pure _
  · split
    · exact fills_fail _ _
    · exact fills_pure _

theorem fills_settle {operand : Expr × Ty} (common : Ty)
    (permission : ∀ name arguments, operand.1.call? = some (name, arguments) →
      allowed name .result) : Fills allowed (settle common operand) := by
  unfold settle
  split
  · exact fills_pure _
  · rename_i name arguments called
    apply (fills_slot name .result).bind
    intro held
    split
    · exact fills_pure _
    · apply (fills_bindSlot common (permission name arguments called)).bind
      intro _
      exact fills_pure _

theorem fills_unify {operands : List (Expr × Ty)} (site : Site) (operator : Operator)
    (permission : ∀ operand ∈ operands, ∀ name arguments,
      operand.1.call? = some (name, arguments) → allowed name .result) :
    Fills allowed (unify site operator operands) := by
  unfold unify
  split
  · exact fills_fail _ _
  · rename_i common decided
    apply (fills_mapM fun operand member => fills_settle common (permission operand member)).bind
    intro types
    split
    · exact fills_fail _ _
    · split
      · exact fills_fail _ _
      · exact fills_pure _

theorem fills_literal (site : Site) (value : Literal) : Fills allowed (literal site value) := by
  cases value with
  | number value => exact fills_pure _
  | string value => exact fills_pure _
  | bool value => exact fills_pure _
  | null => exact fills_fail _ _

theorem fills_reference (constant : Bool) (site : Site) (name : String) :
    Fills allowed (reference constant site name) := by
  unfold reference
  split
  · exact fills_fail _ _
  · apply fills_get.bind
    intro table
    split
    · exact fills_pure _
    · exact fills_fail _ _

theorem fills_conversion (site : Site) (target : String) :
    Fills allowed (conversion site target) := by
  unfold conversion
  split
  · exact fills_pure _
  · exact fills_fail _ _

theorem fills_arity (site : Site) (name : String) (actual : Nat) :
    Fills allowed (arity site name actual) := by
  apply fills_get.bind
  intro table
  split
  · exact fills_fail _ _
  · split
    · exact fills_fail _ _
    · exact fills_pure _

theorem fills_passAll {constant : Bool} {function : String} {arguments : List Expr}
    (each : ∀ argument ∈ arguments, Fills allowed (expr constant argument))
    (permission : ∀ index, allowed function (.parameter index)) (index : Nat) :
    Fills allowed (passAll constant function index arguments) := by
  induction arguments generalizing index with
  | nil => exact fills_pure _
  | cons argument others ih =>
      rw [passAll]
      apply (each argument List.mem_cons_self).bind
      intro supplied
      apply (fills_pass argument.site supplied (permission index)).bind
      intro _
      exact ih (fun other member => each other (List.mem_cons_of_mem argument member)) (index + 1)

end Fills

/-- Checking an expression fills only slots that the expression may fill. -/
theorem fills_expr (constant : Bool) (e : Expr) : Fills e.MayFill (expr constant e) := by
  -- an operator: its operands are checked, and then the calls among them are settled
  have operator {node : Expr} {operands : List (Expr × Ty)} (site : Site) (symbol : Operator)
      (all : ∀ operand ∈ operands, operand.1 ∈ node.operands) :
      Fills node.MayFill (unify site symbol operands) :=
    fills_unify site symbol fun operand member name arguments called =>
      ⟨node, operand.1, arguments, .self, all operand member, called⟩
  have part {child node : Expr} (member : child ∈ node.children)
      (fills : Fills child.MayFill (expr constant child)) :
      Fills node.MayFill (expr constant child) :=
    fills.mono (Expr.MayFill.mono (.of_child member))
  induction e using Expr.ind with
  | literal site value => exact fills_literal site value
  | reference site name => exact fills_reference constant site name
  | call site name arguments ih =>
      rw [expr]
      apply (fills_arity site name arguments.length).bind
      intro _
      have calls : ∀ index, (Expr.call site name arguments).MayFill name (.parameter index) :=
        fun _ => ⟨site, arguments, .self⟩
      have each : ∀ argument ∈ arguments,
          Fills (Expr.call site name arguments).MayFill (expr constant argument) :=
        fun argument member => part member (ih argument member)
      apply (fills_passAll each calls 0).bind
      intro _
      exact fills_slot name .result
  | unary site symbol operand ih =>
      rw [expr]
      apply (part (List.mem_singleton_self operand) ih).bind
      intro type
      exact operator site (.unary symbol) (by simp [Expr.operands])
  | binary site symbol left right ihLeft ihRight =>
      rw [expr]
      apply (part (by simp [Expr.children]) ihLeft).bind
      intro leftType
      apply (part (by simp [Expr.children]) ihRight).bind
      intro rightType
      exact operator site (.binary symbol) (by simp [Expr.operands])
  | assignment site symbol target value ihTarget ihValue =>
      rw [expr]
      apply (part (by simp [Expr.children]) ihTarget).bind
      intro targetType
      apply (part (by simp [Expr.children]) ihValue).bind
      intro valueType
      exact operator site (.assignment symbol) (by simp [Expr.operands])
  | paren site inner ih =>
      rw [expr]
      exact part (List.mem_singleton_self inner) ih
  | atom site inner ih =>
      rw [expr]
      exact part (List.mem_singleton_self inner) ih
  | conversion site target body ih =>
      rw [expr]
      apply (part (List.mem_singleton_self body) ih).bind
      intro _
      exact fills_conversion site target
  | condition site clause body ih =>
      rw [expr]
      apply (part (List.mem_singleton_self body) ih).bind
      intro type
      exact operator site (.condition clause) (by simp [Expr.operands])

/-- The table after expressions were checked one after another, each as a constant or not, and
whether or not they were wrong. -/
def tableAfter (checks : List (Bool × Expr)) (table : Table) : Table :=
  checks.foldl (fun table check => ((expr check.1 check.2).outcome table).2) table

theorem tableAfter_append (first second : List (Bool × Expr)) (table : Table) :
    tableAfter (first ++ second) table = tableAfter second (tableAfter first table) :=
  List.foldl_append

theorem filled_tableAfter (checks : List (Bool × Expr)) (table : Table) :
    table.Filled (fun _ _ => True) (tableAfter checks table) := by
  induction checks generalizing table with
  | nil => exact .refl table
  | cons check checks ih =>
      have first := (fills_expr check.1 check.2 table).mono fun _ _ _ => trivial
      exact first.trans (ih _)

end Check

end DialogueTyping
