import DialogueTyping.Span
import DialogueTyping.Text.Bytes

set_option autoImplicit false

namespace DialogueTyping

/-- A source text and the number of bytes before the place. -/
structure Reader where
  source : List Char
  offset : Nat
  deriving DecidableEq, Repr

namespace Reader

def ofSource (source : String) : Reader := ⟨source.toList, 0⟩

def advance (bytes : Nat) (reader : Reader) : Reader :=
  { reader with offset := reader.offset + bytes }

def position (reader : Reader) : Offset := UInt32.ofNat reader.offset

/-- The next `bytes` bytes. -/
def spanOf (bytes : Nat) (reader : Reader) : Span := Span.ofLength reader.offset bytes

def atEnd (reader : Reader) : Bool := Text.byteLength reader.source ≤ reader.offset

/-- The text ahead, unless the place is inside a character or past the end. -/
def ahead? (reader : Reader) : Option String :=
  (Text.dropBytes? reader.offset reader.source).map String.ofList

end Reader

end DialogueTyping
