set_option autoImplicit false

namespace DialogueTyping

inductive Ty where
  | unresolved
  | bool
  | number
  | string
  deriving DecidableEq, Repr

namespace Ty

def all : List Ty := [unresolved, bool, number, string]

theorem mem_all (type : Ty) : type ∈ all := by
  cases type <;> decide

def isResolved (type : Ty) : Bool := type != unresolved

def label : Ty → String
  | unresolved => "Unresolved"
  | bool => "Bool"
  | number => "Number"
  | string => "String"

def sourceName : Ty → String
  | unresolved => "?"
  | bool => "bool"
  | number => "number"
  | string => "string"

/-- The type of values that a source name stands for. -/
def ofName? (name : String) : Option Ty :=
  if name = "number" then some number
  else if name = "string" then some string
  else if name = "bool" then some bool
  else none

def listLabel (types : List Ty) : String :=
  ", ".intercalate (types.map label)

theorem ofName?_sourceName (type : Ty) :
    ofName? type.sourceName = if type.isResolved then some type else none := by
  cases type <;> rfl

end Ty

end DialogueTyping
