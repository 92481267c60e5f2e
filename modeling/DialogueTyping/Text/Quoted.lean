import DialogueTyping.Text.DefaultIgnorable
import DialogueTyping.Text.ExtendingMark
import DialogueTyping.Text.Unprintable

set_option autoImplicit false

namespace DialogueTyping.Text

/-- `c` by its code point, in lower-case hexadecimal digits without leading zeros. -/
def codePointEscape (c : Char) : List Char :=
  ['\\', 'u', '{'] ++ Nat.toDigits 16 c.toNat ++ ['}']

/-- Whether a reader of a message could not make out `c`: it has no glyph, it may be left out, or it
is drawn onto its neighbour. -/
def isUnseen (c : Char) : Bool :=
  isUnprintable c || isDefaultIgnorable c || isExtendingMark c

/-- How `c` stands inside a quoted text. -/
def quoteChar (c : Char) : List Char :=
  if c = Char.ofNat 0 then ['\\', '0']
  else if c = '\t' then ['\\', 't']
  else if c = '\r' then ['\\', 'r']
  else if c = '\n' then ['\\', 'n']
  else if c = '\\' then ['\\', '\\']
  else if c = '"' then ['\\', '"']
  else if isUnseen c then codePointEscape c
  else [c]

/-- `text` between double quotes, every character of it visible. -/
def quoted (text : String) : String :=
  String.ofList ('"' :: text.toList.flatMap quoteChar ++ ['"'])

end DialogueTyping.Text
