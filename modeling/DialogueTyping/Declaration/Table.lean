import DialogueTyping.Declaration.Basic

set_option autoImplicit false

namespace DialogueTyping

/-- The value of `f` at the last element that it has one for. -/
def lastSome? {α β : Type} (f : α → Option β) : List α → Option β
  | [] => none
  | a :: as =>
    match lastSome? f as with
    | some b => some b
    | none => f a

/-- The list with the last element that `f` has a value for replaced by that value. -/
def replaceLast? {α : Type} (f : α → Option α) : List α → Option (List α)
  | [] => none
  | a :: as =>
    match replaceLast? f as with
    | some replaced => some (a :: replaced)
    | none => (f a).map (· :: as)

/-- Declarations in the order in which they were made. -/
structure Table where
  declarations : List Declaration
  deriving DecidableEq, Repr

inductive BindFault where
  | noSlot
  | alreadyBound (type : Ty)
  | unresolvedType
  deriving DecidableEq, Repr

def BindFault.message : BindFault → String
  | noSlot => "no such type slot"
  | alreadyBound type => "type slot already bound to " ++ type.label
  | unresolvedType => "type slot cannot be bound to Unresolved"

namespace Table

def empty : Table := ⟨[]⟩

def push (table : Table) (declaration : Declaration) : Table :=
  ⟨table.declarations ++ [declaration]⟩

def append (table other : Table) : Table := ⟨table.declarations ++ other.declarations⟩

def size (table : Table) : Nat := table.declarations.length

/-- The type of a variable, by the first declaration of its name. -/
def findVariable? (table : Table) (name : String) : Option Ty :=
  table.declarations.findSome? (Declaration.variableType? name)

/-- The signature of a function, by the last declaration of its name. -/
def findFunction? (table : Table) (name : String) : Option Signature :=
  lastSome? (Declaration.signature? name) table.declarations

def openDeclarations (table : Table) : List Declaration :=
  table.declarations.filter Declaration.isOpen

def setSlot (table : Table) (name : String) (slot : Slot) (type : Ty) : Table :=
  let replaced := replaceLast?
    (fun declaration => (declaration.signature? name).map fun signature =>
      .functionOf name (signature.setSlot type slot))
    table.declarations
  ⟨replaced.getD table.declarations⟩

/-- The table after `type` was put into an open slot of a function. -/
def bind (table : Table) (name : String) (slot : Slot) (type : Ty) : Except BindFault Table :=
  match (table.findFunction? name).bind (·.slot? slot) with
  | none => .error .noSlot
  | some held =>
    if held.isResolved then .error (.alreadyBound held)
    else if !type.isResolved then .error .unresolvedType
    else .ok (table.setSlot name slot type)

end Table

end DialogueTyping
