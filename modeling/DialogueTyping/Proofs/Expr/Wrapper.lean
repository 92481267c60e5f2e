import DialogueTyping.Proofs.Expr.Subexpression

set_option autoImplicit false

namespace DialogueTyping

/-- The two kinds of nodes that do nothing but stand around another expression. -/
inductive Wrapper where
  | atom
  | paren
  deriving DecidableEq, Repr

namespace Expr

mutual

/-- The expression without the nodes of one kind of wrapper. -/
def without (wrapper : Wrapper) : Expr → Expr
  | literal site value => literal site value
  | reference site name => reference site name
  | call site name arguments => call site name (withoutAll wrapper arguments)
  | unary site operator operand => unary site operator (operand.without wrapper)
  | binary site operator left right =>
    binary site operator (left.without wrapper) (right.without wrapper)
  | assignment site operator target value =>
    assignment site operator (target.without wrapper) (value.without wrapper)
  | paren site inner =>
    match wrapper with
    | .paren => inner.without .paren
    | .atom => paren site (inner.without .atom)
  | atom site inner =>
    match wrapper with
    | .paren => atom site (inner.without .paren)
    | .atom => inner.without .atom
  | conversion site target body => conversion site target (body.without wrapper)
  | condition site clause body => condition site clause (body.without wrapper)

def withoutAll (wrapper : Wrapper) : List Expr → List Expr
  | [] => []
  | expr :: exprs => expr.without wrapper :: withoutAll wrapper exprs

end

theorem length_withoutAll (wrapper : Wrapper) (exprs : List Expr) :
    (withoutAll wrapper exprs).length = exprs.length := by
  induction exprs with
  | nil => rfl
  | cons expr exprs ih => rw [withoutAll, List.length_cons, List.length_cons, ih]

/-- A call that is seen inside atom nodes is still seen. -/
theorem call?_without (wrapper : Wrapper) {e : Expr} {name : String} {arguments : List Expr}
    (called : e.call? = some (name, arguments)) :
    (e.without wrapper).call? = some (name, withoutAll wrapper arguments) := by
  induction e using Expr.ind with
  | call site function others =>
      cases called
      rw [without]
      rfl
  | atom site inner ih =>
      cases wrapper with
      | atom =>
          rw [without]
          exact ih called
      | paren =>
          rw [without]
          exact ih called
  | literal | reference | unary | binary | assignment | paren | conversion | condition =>
      cases called

/-- No call comes to be seen by removing atom nodes. -/
theorem call?_without_atom {e : Expr} (unseen : e.call? = none) :
    (e.without .atom).call? = none := by
  induction e using Expr.ind with
  | atom site inner ih =>
      rw [without]
      exact ih unseen
  | call => cases unseen
  | literal | reference | unary | binary | assignment | paren | conversion | condition =>
      rw [without]
      rfl

/-- A call that is seen once wrappers are removed was there before, inside such wrappers. -/
theorem core_of_call?_without {wrapper : Wrapper} {e : Expr} {name : String}
    {arguments : List Expr} (called : (e.without wrapper).call? = some (name, arguments)) :
    ∃ site others, e.core = call site name others := by
  induction e using Expr.ind with
  | call site function others =>
      rw [without] at called
      cases called
      exact ⟨site, others, rfl⟩
  | paren site inner ih =>
      cases wrapper with
      | paren =>
          rw [without] at called
          exact ih called
      | atom =>
          rw [without] at called
          cases called
  | atom site inner ih =>
      cases wrapper with
      | paren =>
          rw [without] at called
          exact ih called
      | atom =>
          rw [without] at called
          exact ih called
  | literal | reference | unary | binary | assignment | conversion | condition =>
      rw [without] at called
      cases called

end Expr

end DialogueTyping
