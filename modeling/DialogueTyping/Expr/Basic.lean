import DialogueTyping.Number.Binary64
import DialogueTyping.Operator
import DialogueTyping.Span

set_option autoImplicit false

namespace DialogueTyping

inductive Literal where
  | number (value : Binary64)
  | string (value : String)
  | bool (value : Bool)
  | null
  deriving DecidableEq, Repr

def Literal.equal : Literal → Literal → Bool
  | number x, number y => x.equal y
  | string x, string y => x == y
  | bool x, bool y => x == y
  | null, null => true
  | _, _ => false

inductive Expr where
  | literal (site : Site) (value : Literal)
  | reference (site : Site) (name : String)
  | call (site : Site) (name : String) (arguments : List Expr)
  | unary (site : Site) (operator : UnaryOperator) (operand : Expr)
  | binary (site : Site) (operator : BinaryOperator) (left right : Expr)
  | assignment (site : Site) (operator : AssignmentOperator) (target value : Expr)
  | paren (site : Site) (inner : Expr)
  -- a literal, reference or call as an operand
  | atom (site : Site) (inner : Expr)
  | conversion (site : Site) (target : String) (body : Expr)
  | condition (site : Site) (clause : Clause) (body : Expr)
  deriving Repr

namespace Expr

def site : Expr → Site
  | literal site _ | reference site _ | call site _ _ | unary site _ _ | binary site _ _ _
  | assignment site _ _ _ | paren site _ | atom site _ | conversion site _ _
  | condition site _ _ => site

def span (expr : Expr) : Span := expr.site.span

def id (expr : Expr) : NodeId := expr.site.id

/-- The expressions right below the outermost node, from left to right. -/
def children : Expr → List Expr
  | literal .. | reference .. => []
  | call _ _ arguments => arguments
  | unary _ _ operand => [operand]
  | binary _ _ left right => [left, right]
  | assignment _ _ target value => [target, value]
  | paren _ inner | atom _ inner => [inner]
  | conversion _ _ body | condition _ _ body => [body]

/-- The expression inside the atom nodes around it. Parentheses stay. -/
def unwrapped : Expr → Expr
  | atom _ inner => inner.unwrapped
  | expr => expr

/-- The name and the arguments of a call, looked for inside atom nodes. -/
def call? (expr : Expr) : Option (String × List Expr) :=
  match expr.unwrapped with
  | call _ name arguments => some (name, arguments)
  | _ => none

/-- The name of a variable that is referred to, looked for inside atom nodes. -/
def reference? (expr : Expr) : Option String :=
  match expr.unwrapped with
  | reference _ name => some name
  | _ => none

mutual

/-- The subexpressions of `expr`, each before those inside it, followed by `later`. -/
def preorderOnto (later : List Expr) (expr : Expr) : List Expr :=
  expr :: match expr with
    | literal .. | reference .. => later
    | call _ _ arguments => preorderAllOnto later arguments
    | unary _ _ operand => preorderOnto later operand
    | binary _ _ left right => preorderOnto (preorderOnto later right) left
    | assignment _ _ target value => preorderOnto (preorderOnto later value) target
    | paren _ inner | atom _ inner => preorderOnto later inner
    | conversion _ _ body | condition _ _ body => preorderOnto later body

def preorderAllOnto (later : List Expr) : List Expr → List Expr
  | [] => later
  | expr :: exprs => preorderOnto (preorderAllOnto later exprs) expr

end

/-- All subexpressions, each before those inside it and the left ones first. -/
def preorder (expr : Expr) : List Expr := expr.preorderOnto []

mutual

/-- Whether two expressions have the same nodes at the same sites and equal values. -/
def equal : Expr → Expr → Bool
  | literal s x, literal t y => s == t && x.equal y
  | reference s x, reference t y => s == t && x == y
  | call s x xs, call t y ys => s == t && x == y && equalAll xs ys
  | unary s f x, unary t g y => s == t && f == g && equal x y
  | binary s f x x', binary t g y y' => s == t && f == g && equal x y && equal x' y'
  | assignment s f x x', assignment t g y y' => s == t && f == g && equal x y && equal x' y'
  | paren s x, paren t y => s == t && equal x y
  | atom s x, atom t y => s == t && equal x y
  | conversion s f x, conversion t g y => s == t && f == g && equal x y
  | condition s f x, condition t g y => s == t && f == g && equal x y
  | _, _ => false

def equalAll : List Expr → List Expr → Bool
  | [], [] => true
  | x :: xs, y :: ys => equal x y && equalAll xs ys
  | _, _ => false

end

end Expr

end DialogueTyping
