set_option autoImplicit false

namespace DialogueTyping

/-- A number of bytes from the start of a source text. Which file the text is in is no part of a
place; its name is given when a report is rendered. -/
abbrev Offset := UInt32

/-- The bytes from `start` up to, not including, `stop`. -/
structure Span where
  start : Offset
  stop : Offset
  deriving DecidableEq, Repr

namespace Span

def point (offset : Offset) : Span := ⟨offset, offset⟩

/-- The span of `length` bytes from byte `start` on. -/
def ofLength (start length : Nat) : Span := ⟨UInt32.ofNat start, UInt32.ofNat (start + length)⟩

/-- From the start of `first` to the end of `last`. -/
def join (first last : Span) : Span := ⟨first.start, last.stop⟩

/-- The number of bytes, at least one: an empty or reversed span still points at something. -/
def width (span : Span) : Nat :=
  if span.start < span.stop then (span.stop - span.start).toNat else 1

end Span

structure NodeId where
  number : UInt32
  deriving DecidableEq, Repr

def NodeId.label (id : NodeId) : String := "#" ++ toString id.number.toNat

/-- What tells a node of a tree apart: its number and the bytes it was read from. -/
structure Site where
  id : NodeId
  span : Span
  deriving DecidableEq, Repr

end DialogueTyping
