import DialogueTyping.Ty

set_option autoImplicit false

namespace DialogueTyping

/-- A parameter of a function. The name is only shown. -/
structure Parameter where
  name : Option String
  type : Ty
  deriving DecidableEq, Repr

structure Signature where
  parameters : List Parameter
  result : Ty
  deriving DecidableEq, Repr

/-- A place for a type in a signature. -/
inductive Slot where
  | result
  | parameter (index : Nat)
  deriving DecidableEq, Repr

inductive Declaration where
  | variableOf (name : String) (type : Ty)
  | functionOf (name : String) (signature : Signature)
  deriving DecidableEq, Repr

def Parameter.text (parameter : Parameter) : String :=
  match parameter.name with
  | none => parameter.type.sourceName
  | some name => name ++ ": " ++ parameter.type.sourceName

namespace Signature

/-- Whether a type of the signature is not yet known. -/
def isOpen (signature : Signature) : Bool :=
  !signature.result.isResolved || signature.parameters.any fun parameter =>
    !parameter.type.isResolved

def text (signature : Signature) : String :=
  "(" ++ ", ".intercalate (signature.parameters.map Parameter.text) ++ ") -> "
    ++ signature.result.sourceName

def slot? (signature : Signature) : Slot → Option Ty
  | .result => some signature.result
  | .parameter index => (signature.parameters[index]?).map Parameter.type

def setSlot (type : Ty) (signature : Signature) : Slot → Signature
  | .result => { signature with result := type }
  | .parameter index =>
    { signature with
      parameters := signature.parameters.modify index fun parameter =>
        { parameter with type := type } }

end Signature

namespace Declaration

def name : Declaration → String
  | variableOf name _ | functionOf name _ => name

/-- Whether a declared type is not yet known. -/
def isOpen : Declaration → Bool
  | variableOf _ type => !type.isResolved
  | functionOf _ signature => signature.isOpen

def text : Declaration → String
  | variableOf name type => "var " ++ name ++ ": " ++ type.sourceName
  | functionOf name signature => "fn " ++ name ++ signature.text

/-- The type of the variable `name`, if this declares it. -/
def variableType? (name : String) : Declaration → Option Ty
  | variableOf declared type => if declared = name then some type else none
  | functionOf .. => none

/-- The signature of the function `name`, if this declares it. -/
def signature? (name : String) : Declaration → Option Signature
  | variableOf .. => none
  | functionOf declared signature => if declared = name then some signature else none

end Declaration

end DialogueTyping
