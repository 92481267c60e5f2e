set_option autoImplicit false

namespace DialogueTyping.Text

def byteLength (text : List Char) : Nat :=
  text.foldr (fun c bytes => c.utf8Size + bytes) 0

@[simp] theorem byteLength_nil : byteLength [] = 0 := rfl

@[simp] theorem byteLength_cons (c : Char) (text : List Char) :
    byteLength (c :: text) = c.utf8Size + byteLength text := rfl

@[simp] theorem byteLength_append (first second : List Char) :
    byteLength (first ++ second) = byteLength first + byteLength second := by
  induction first with
  | nil => rw [List.nil_append, byteLength_nil, Nat.zero_add]
  | cons c rest ih => rw [List.cons_append, byteLength_cons, byteLength_cons, ih, Nat.add_assoc]

theorem length_le_byteLength (text : List Char) : text.length ≤ byteLength text := by
  induction text with
  | nil => exact Nat.le_refl 0
  | cons c rest ih =>
    have := c.utf8Size_pos
    rw [List.length_cons, byteLength_cons]
    omega

/-- What stands after the first `bytes` bytes of a text, when a character starts or the text ends
there. -/
def dropBytes? : Nat → List Char → Option (List Char)
  | 0, text => some text
  | _ + 1, [] => none
  | bytes + 1, c :: text =>
    if c.utf8Size ≤ bytes + 1 then dropBytes? (bytes + 1 - c.utf8Size) text else none
termination_by structural _ text => text

@[simp] theorem dropBytes?_zero (text : List Char) : dropBytes? 0 text = some text := by
  cases text <;> rfl

theorem dropBytes?_byteLength_append (first second : List Char) :
    dropBytes? (byteLength first) (first ++ second) = some second := by
  induction first with
  | nil => exact dropBytes?_zero second
  | cons c rest ih =>
    have positive := c.utf8Size_pos
    obtain ⟨bytes, total⟩ : ∃ bytes, c.utf8Size + byteLength rest = bytes + 1 :=
      ⟨c.utf8Size + byteLength rest - 1, by omega⟩
    rw [byteLength_cons, total, List.cons_append, dropBytes?, if_pos (by omega), ← total,
      Nat.add_sub_cancel_left, ih]

end DialogueTyping.Text
