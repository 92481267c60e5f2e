import DialogueTyping.Expr.Basic

set_option autoImplicit false

namespace DialogueTyping.Expr

@[elab_as_elim]
theorem ind {motive : Expr → Prop}
    (literal : ∀ site value, motive (.literal site value))
    (reference : ∀ site name, motive (.reference site name))
    (call : ∀ site name arguments, (∀ argument ∈ arguments, motive argument) →
      motive (.call site name arguments))
    (unary : ∀ site operator operand, motive operand → motive (.unary site operator operand))
    (binary : ∀ site operator left right, motive left → motive right →
      motive (.binary site operator left right))
    (assignment : ∀ site operator target value, motive target → motive value →
      motive (.assignment site operator target value))
    (paren : ∀ site inner, motive inner → motive (.paren site inner))
    (atom : ∀ site inner, motive inner → motive (.atom site inner))
    (conversion : ∀ site target body, motive body → motive (.conversion site target body))
    (condition : ∀ site clause body, motive body → motive (.condition site clause body))
    (expr : Expr) : motive expr :=
  @Expr.rec motive (fun arguments => ∀ argument ∈ arguments, motive argument)
    literal reference call unary binary assignment paren atom conversion condition
    (fun _ member => nomatch member)
    (fun _ _ head tail => List.forall_mem_cons.2 ⟨head, tail⟩)
    expr

/-- `inner` is `outer` or a part of it. -/
inductive Within (inner : Expr) : Expr → Prop
  | self : Within inner inner
  | inside {child outer : Expr} : child ∈ outer.children → Within inner child → Within inner outer

theorem Within.of_child {child outer : Expr} (member : child ∈ outer.children) :
    child.Within outer :=
  .inside member .self

theorem Within.trans {inner middle outer : Expr} (first : inner.Within middle)
    (second : middle.Within outer) : inner.Within outer := by
  induction second with
  | self => exact first
  | inside member _ ih => exact .inside member ih

/-- The operands of the outermost operator, if the outermost node is one. -/
def operands : Expr → List Expr
  | unary _ _ operand => [operand]
  | binary _ _ left right => [left, right]
  | assignment _ _ target value => [target, value]
  | condition _ _ body => [body]
  | literal .. | reference .. | call .. | paren .. | atom .. | conversion .. => []

/-- The outermost operator, if the outermost node is one. -/
def operator? : Expr → Option Operator
  | unary _ operator _ => some (.unary operator)
  | binary _ operator _ _ => some (.binary operator)
  | assignment _ operator _ _ => some (.assignment operator)
  | condition _ clause _ => some (.condition clause)
  | literal .. | reference .. | call .. | paren .. | atom .. | conversion .. => none

/-- A reference to the variable `name` is a part of the expression. -/
def Refers (name : String) (expr : Expr) : Prop :=
  ∃ site, (reference site name).Within expr

/-- A call of the function `name` is a part of the expression. -/
def Calls (name : String) (expr : Expr) : Prop :=
  ∃ site arguments, (call site name arguments).Within expr

/-- A call of the function `name` is an operand of an operator in the expression, with nothing but
atom nodes around it. -/
def CallsAsOperand (name : String) (expr : Expr) : Prop :=
  ∃ (node operand : Expr) (arguments : List Expr),
    node.Within expr ∧ operand ∈ node.operands ∧ operand.call? = some (name, arguments)

theorem unwrapped_within (expr : Expr) : expr.unwrapped.Within expr := by
  induction expr using Expr.ind with
  | atom site inner ih => exact .inside (List.mem_singleton_self inner) ih
  | literal | reference | call | unary | binary | assignment | paren | conversion | condition =>
      exact .self

theorem unwrapped_of_call? {expr : Expr} {name : String} {arguments : List Expr}
    (called : expr.call? = some (name, arguments)) :
    ∃ site, expr.unwrapped = call site name arguments := by
  unfold call? at called
  split at called
  · rename_i site _ _ unwraps
    cases called
    exact ⟨site, unwraps⟩
  · cases called

theorem operands_subset_children (expr : Expr) : expr.operands ⊆ expr.children := by
  cases expr with
  | unary | binary | assignment | condition => exact List.Subset.refl _
  | literal | reference | call | paren | atom | conversion => exact List.nil_subset _

theorem CallsAsOperand.calls {name : String} {expr : Expr} (called : expr.CallsAsOperand name) :
    expr.Calls name := by
  obtain ⟨node, operand, arguments, within, member, isCall⟩ := called
  obtain ⟨site, unwraps⟩ := unwrapped_of_call? isCall
  have inOperand : (call site name arguments).Within operand := unwraps ▸ operand.unwrapped_within
  exact ⟨site, arguments,
    inOperand.trans (.trans (.of_child (operands_subset_children node member)) within)⟩

theorem Refers.mono {name : String} {inner outer : Expr} (within : inner.Within outer)
    (refers : inner.Refers name) : outer.Refers name := by
  obtain ⟨site, found⟩ := refers
  exact ⟨site, found.trans within⟩

theorem Calls.mono {name : String} {inner outer : Expr} (within : inner.Within outer)
    (calls : inner.Calls name) : outer.Calls name := by
  obtain ⟨site, arguments, found⟩ := calls
  exact ⟨site, arguments, found.trans within⟩

theorem CallsAsOperand.mono {name : String} {inner outer : Expr} (within : inner.Within outer)
    (calls : inner.CallsAsOperand name) : outer.CallsAsOperand name := by
  obtain ⟨node, operand, arguments, found, rest⟩ := calls
  exact ⟨node, operand, arguments, found.trans within, rest⟩

/-- The expression inside the parentheses and atom nodes around it. -/
def core : Expr → Expr
  | paren _ inner | atom _ inner => inner.core
  | expr => expr

theorem core_of_call? {expr : Expr} {name : String} {arguments : List Expr}
    (called : expr.call? = some (name, arguments)) :
    ∃ site, expr.core = call site name arguments := by
  induction expr using Expr.ind with
  | atom site inner ih => exact ih called
  | call site function others =>
      cases called
      exact ⟨site, rfl⟩
  | literal | reference | unary | binary | assignment | paren | conversion | condition => cases called

/-- Induction over expressions with one case for all operators. -/
@[elab_as_elim]
theorem operatorInd {motive : Expr → Prop}
    (literal : ∀ site value, motive (.literal site value))
    (reference : ∀ site name, motive (.reference site name))
    (call : ∀ site name arguments, (∀ argument ∈ arguments, motive argument) →
      motive (.call site name arguments))
    (operator : ∀ (node : Expr) (symbol : Operator), node.operator? = some symbol →
      (∀ operand ∈ node.operands, motive operand) → motive node)
    (paren : ∀ site inner, motive inner → motive (.paren site inner))
    (atom : ∀ site inner, motive inner → motive (.atom site inner))
    (conversion : ∀ site target body, motive body → motive (.conversion site target body))
    (expr : Expr) : motive expr := by
  induction expr using Expr.ind with
  | literal site value => exact literal site value
  | reference site name => exact reference site name
  | call site name arguments ih => exact call site name arguments ih
  | unary site symbol operand ih => exact operator _ _ rfl (List.forall_mem_singleton.2 ih)
  | binary site symbol left right ihLeft ihRight =>
      exact operator _ _ rfl (List.forall_mem_cons.2 ⟨ihLeft, List.forall_mem_singleton.2 ihRight⟩)
  | assignment site symbol target value ihTarget ihValue =>
      exact operator _ _ rfl
        (List.forall_mem_cons.2 ⟨ihTarget, List.forall_mem_singleton.2 ihValue⟩)
  | paren site inner ih => exact paren site inner ih
  | atom site inner ih => exact atom site inner ih
  | conversion site target body ih => exact conversion site target body ih
  | condition site clause body ih => exact operator _ _ rfl (List.forall_mem_singleton.2 ih)

theorem children_of_operator? {node : Expr} {symbol : Operator}
    (isOperator : node.operator? = some symbol) : node.children = node.operands := by
  cases node with
  | unary | binary | assignment | condition => rfl
  | literal | reference | call | paren | atom | conversion => cases isOperator

theorem core_of_operator? {node : Expr} {symbol : Operator}
    (isOperator : node.operator? = some symbol) : node.core = node := by
  cases node with
  | unary | binary | assignment | condition => rfl
  | literal | reference | call | paren | atom | conversion => cases isOperator

end DialogueTyping.Expr
