import DialogueTyping.Proofs.Expr.Subexpression
import DialogueTyping.Proofs.Table.Evolution
import Mathlib.Data.List.Basic

set_option autoImplicit false

namespace DialogueTyping

theorem Operator.isResolved_of_permitted (operator : Operator) {common : Ty}
    (permitted : common ∈ operator.permitted) : common.isResolved := by
  apply Ty.isResolved_iff.2
  rintro rfl
  exact unresolved_notMem_permitted operator permitted

theorem Operator.isResolved_result (operator : Operator) {common : Ty}
    (permitted : common ∈ operator.permitted) : (operator.result common).isResolved := by
  have known := isResolved_of_permitted operator permitted
  cases operator with
  | binary symbol =>
      simp only [result]
      split
      · rfl
      · exact known
  | unary | assignment | condition => exact known

mutual

/-- `expr` has the type `type` in `table`. With `constant` set, no variable has a type. An argument
has the type of its parameter, unless `exempt` excuses it. -/
inductive HasType (exempt : Expr → Prop) (table : Table) (constant : Bool) : Expr → Ty → Prop
  | number (site : Site) (value : Binary64) :
      HasType exempt table constant (.literal site (.number value)) .number
  | string (site : Site) (value : String) :
      HasType exempt table constant (.literal site (.string value)) .string
  | bool (site : Site) (value : Bool) :
      HasType exempt table constant (.literal site (.bool value)) .bool
  -- the first declaration of a variable counts
  | reference {site : Site} {name : String} {type : Ty} : constant = false →
      table.DeclaresVariable name type →
      HasType exempt table constant (.reference site name) type
  -- the last declaration of a function counts
  | call {site : Site} {name : String} {arguments : List Expr} {signature : Signature} :
      table.DeclaresFunction name signature →
      Fits exempt table constant arguments signature.parameters →
      HasType exempt table constant (.call site name arguments) signature.result
  | unary {site : Site} {operator : UnaryOperator} {operand : Expr} {common : Ty} :
      HasType exempt table constant operand common → common ∈ operator.permitted →
      HasType exempt table constant (.unary site operator operand) common
  | binary {site : Site} {operator : BinaryOperator} {left right : Expr} {common : Ty} :
      HasType exempt table constant left common → HasType exempt table constant right common →
      common ∈ operator.permitted →
      HasType exempt table constant (.binary site operator left right)
        (if operator.yieldsBool then .bool else common)
  | assignment {site : Site} {operator : AssignmentOperator} {target value : Expr} {common : Ty} :
      HasType exempt table constant target common → HasType exempt table constant value common →
      common ∈ operator.permitted →
      HasType exempt table constant (.assignment site operator target value) common
  | paren {site : Site} {inner : Expr} {type : Ty} : HasType exempt table constant inner type →
      HasType exempt table constant (.paren site inner) type
  | atom {site : Site} {inner : Expr} {type : Ty} : HasType exempt table constant inner type →
      HasType exempt table constant (.atom site inner) type
  | conversion {site : Site} {body : Expr} {inner type : Ty} :
      HasType exempt table constant body inner → type.isResolved →
      HasType exempt table constant (.conversion site type.sourceName body) type
  | condition {site : Site} {clause : Clause} {body : Expr} {common : Ty} :
      HasType exempt table constant body common → common ∈ clause.permitted →
      HasType exempt table constant (.condition site clause body) common

/-- There is one argument for each parameter, and it has the type of the parameter or is excused. -/
inductive Fits (exempt : Expr → Prop) (table : Table) (constant : Bool) :
    List Expr → List Parameter → Prop
  | nil : Fits exempt table constant [] []
  | cons {argument : Expr} {type : Ty} {parameter : Parameter} {arguments : List Expr}
      {parameters : List Parameter} : HasType exempt table constant argument type →
      type = parameter.type ∨ exempt argument → Fits exempt table constant arguments parameters →
      Fits exempt table constant (argument :: arguments) (parameter :: parameters)

end

/-- Operators row by row: operands of the type `common` give a result of the type `result`. -/
inductive Operator.Gives : Operator → Ty → Ty → Prop
  | logical {operator : BinaryOperator} : operator ∈ [.and, .or, .xor] →
      Gives (.binary operator) .bool .bool
  | add {common : Ty} : common ∈ [.string, .number] → Gives (.binary .add) common common
  | arithmetic {operator : BinaryOperator} :
      operator ∈ [.subtract, .multiply, .divide, .modulo] →
      Gives (.binary operator) .number .number
  | negate : Gives (.unary .negate) .number .number
  | not : Gives (.unary .not) .bool .bool
  | increase {common : Ty} : common ∈ [.string, .number] → Gives (.assignment .add) common common
  | change {operator : AssignmentOperator} :
      operator ∈ [.subtract, .multiply, .divide, .modulo] →
      Gives (.assignment operator) .number .number
  | order {operator : BinaryOperator} :
      operator ∈ [.less, .lessEquals, .greater, .greaterEquals] →
      Gives (.binary operator) .number .bool
  | equality {operator : BinaryOperator} {common : Ty} : operator ∈ [.equals, .notEquals] →
      common ∈ [.number, .string, .bool] → Gives (.binary operator) common .bool
  | condition (clause : Clause) : Gives (.condition clause) .bool .bool

/-- The checker's tables are these rows. -/
theorem Operator.gives_iff {operator : Operator} {common result : Ty} :
    operator.Gives common result ↔
      common ∈ operator.permitted ∧ result = operator.result common := by
  constructor
  · intro gives
    cases gives with
    | negate | not => decide
    | condition clause => cases clause <;> decide
    | add listed | increase listed => exact ⟨listed, rfl⟩
    | equality isOperator listed =>
        simp only [List.mem_cons, List.not_mem_nil, or_false] at isOperator
        rcases isOperator with rfl | rfl <;> exact ⟨listed, rfl⟩
    | logical isOperator =>
        simp only [List.mem_cons, List.not_mem_nil, or_false] at isOperator
        rcases isOperator with rfl | rfl | rfl <;> decide
    | arithmetic isOperator | change isOperator | order isOperator =>
        simp only [List.mem_cons, List.not_mem_nil, or_false] at isOperator
        rcases isOperator with rfl | rfl | rfl | rfl <;> decide
  · rintro ⟨permitted, rfl⟩
    rcases operator with symbol | symbol | symbol | clause
    · cases symbol with
      | negate =>
          obtain rfl := List.mem_singleton.1 permitted
          exact .negate
      | not =>
          obtain rfl := List.mem_singleton.1 permitted
          exact .not
    · cases symbol with
      | add => exact .add permitted
      | equals | notEquals => exact .equality (by decide) permitted
      | and | or | xor =>
          obtain rfl := List.mem_singleton.1 permitted
          exact .logical (by decide)
      | subtract | multiply | divide | modulo =>
          obtain rfl := List.mem_singleton.1 permitted
          exact .arithmetic (by decide)
      | less | lessEquals | greater | greaterEquals =>
          obtain rfl := List.mem_singleton.1 permitted
          exact .order (by decide)
    · cases symbol with
      | add => exact .increase permitted
      | subtract | multiply | divide | modulo =>
          obtain rfl := List.mem_singleton.1 permitted
          exact .change (by decide)
    · obtain rfl := List.mem_singleton.1 permitted
      exact .condition clause

/-- An operator has a type by its row. -/
theorem HasType.operator_iff {exempt : Expr → Prop} {table : Table} {constant : Bool} {node : Expr}
    {operator : Operator} {type : Ty} (isOperator : node.operator? = some operator) :
    HasType exempt table constant node type ↔
      ∃ common, (∀ operand ∈ node.operands, HasType exempt table constant operand common) ∧
        operator.Gives common type := by
  simp only [Operator.gives_iff]
  constructor
  · intro typed
    cases typed with
    | unary operand permitted | condition operand permitted =>
        cases isOperator
        exact ⟨_, List.forall_mem_singleton.2 operand, permitted, rfl⟩
    | binary left right permitted | assignment left right permitted =>
        cases isOperator
        refine ⟨_, ?_, permitted, rfl⟩
        intro operand member
        rcases List.mem_pair.1 member with rfl | rfl
        · exact left
        · exact right
    | number | string | bool | reference | call | paren | atom | conversion => cases isOperator
  · rintro ⟨common, typed, permitted, rfl⟩
    cases node with
    | unary =>
        cases isOperator
        exact .unary (typed _ (List.mem_singleton_self _)) permitted
    | binary =>
        cases isOperator
        exact .binary (typed _ (List.mem_pair.2 (Or.inl rfl)))
          (typed _ (List.mem_pair.2 (Or.inr rfl))) permitted
    | assignment =>
        cases isOperator
        exact .assignment (typed _ (List.mem_pair.2 (Or.inl rfl)))
          (typed _ (List.mem_pair.2 (Or.inr rfl))) permitted
    | condition =>
        cases isOperator
        exact .condition (typed _ (List.mem_singleton_self _)) permitted
    | literal | reference | call | paren | atom | conversion => cases isOperator

theorem HasType.eq_result {exempt : Expr → Prop} {table : Table} {constant : Bool} {e : Expr}
    {type : Ty} {name : String} {arguments : List Expr}
    (typed : HasType exempt table constant e type) (called : e.call? = some (name, arguments)) :
    ∃ signature, table.DeclaresFunction name signature ∧ type = signature.result := by
  induction e using Expr.ind with
  | atom site inner ih =>
      cases typed with
      | atom typedInner => exact ih typedInner called
  | call site function others _ =>
      cases called
      cases typed with
      | call declared _ => exact ⟨_, declared, rfl⟩
  | literal | reference | unary | binary | assignment | paren | conversion | condition =>
      cases called

/-- Inside parentheses and atom nodes, the expression is a variable or a call whose declared type is
not yet known in `table`. -/
def Expr.OpenIn (table : Table) (expr : Expr) : Prop :=
  match expr.core with
  | .reference _ name => table.DeclaresVariable name .unresolved
  | .call _ name _ =>
    ∃ signature, table.DeclaresFunction name signature ∧ signature.result = .unresolved
  | _ => False

/-- What is not known after slots were filled was not known before. -/
theorem Expr.OpenIn.of_filled {allowed : String → Slot → Prop} {before after : Table} {e : Expr}
    (filled : before.Filled allowed after) (unknown : e.OpenIn after) : e.OpenIn before := by
  unfold OpenIn at unknown ⊢
  split at unknown
  · rw [← Table.findVariable?_eq_some_iff] at unknown ⊢
    rw [← filled.findVariable?, unknown]
  · rename_i site name arguments isCore
    obtain ⟨later, declared, unresolved⟩ := unknown
    rw [← Table.findFunction?_eq_some_iff] at declared
    obtain ⟨signature, found, evolves⟩ := filled.findFunction?_before declared
    refine ⟨signature, Table.findFunction?_eq_some_iff.1 found, ?_⟩
    exact Ty.Settles.unresolved_left (unresolved ▸ evolves.result)
  · cases unknown

end DialogueTyping
