set_option autoImplicit false

namespace DialogueTyping.Escape

/-- The character that a backslash and `c` stand for. -/
def meaning? (c : Char) : Option Char :=
  if c = 'n' then some '\n'
  else if c = 't' then some '\t'
  else if c = 'r' then some '\r'
  else if c = '\\' then some '\\'
  else if c = '"' then some '"'
  else none

def decode : List Char → List Char
  | [] => []
  | [c] => [c]
  | c :: d :: rest =>
    if c = '\\' then
      match meaning? d with
      | some meant => meant :: decode rest
      | none => c :: d :: decode rest
    else c :: decode (d :: rest)

/-- The end of a string literal that starts before `text`: its body and the quote that closes it.
A backslash takes the next character with it, which may be a quote but no line feed. -/
def closing? : List Char → Option (List Char)
  | [] => none
  | [c] => if c = '"' then some [c] else none
  | c :: d :: rest =>
    if c = '"' then some [c]
    else if c = '\\' then
      if d = '\n' then none else (closing? rest).map (c :: d :: ·)
    else (closing? (d :: rest)).map (c :: ·)

/-- The end of a literal is what the text after its opening quote starts with. -/
theorem closing?_isPrefix {text found : List Char} (h : closing? text = some found) :
    found <+: text := by
  fun_induction closing? text generalizing found with
  | case1 => cases h
  | case2 => cases h; exact List.prefix_rfl
  | case3 => cases h
  | case4 d rest => cases h; exact ⟨d :: rest, rfl⟩
  | case5 => cases h
  | case6 d rest _ _ ih =>
    obtain ⟨later, closed, rfl⟩ := Option.map_eq_some_iff.1 h
    obtain ⟨after, rfl⟩ := ih closed
    exact ⟨after, rfl⟩
  | case7 c d rest _ _ ih =>
    obtain ⟨later, closed, rfl⟩ := Option.map_eq_some_iff.1 h
    obtain ⟨after, joined⟩ := ih closed
    exact ⟨after, by rw [← joined]; rfl⟩

end DialogueTyping.Escape
