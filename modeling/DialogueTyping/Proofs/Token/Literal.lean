import DialogueTyping.Token.Escape

set_option autoImplicit false

namespace DialogueTyping.Escape

/-- The characters that have a meaning after a backslash, each with what it means. -/
def escapes : List (Char × Char) :=
  [('n', '\n'), ('t', '\t'), ('r', '\r'), ('\\', '\\'), ('"', '"')]

theorem meaning?_eq_some_iff {c meant : Char} : meaning? c = some meant ↔ (c, meant) ∈ escapes := by
  constructor
  · intro means
    unfold meaning? at means
    grind [escapes]
  · intro listed
    simp only [escapes, List.mem_cons, Prod.mk.injEq, List.not_mem_nil, or_false] at listed
    rcases listed with ⟨rfl, rfl⟩ | ⟨rfl, rfl⟩ | ⟨rfl, rfl⟩ | ⟨rfl, rfl⟩ | ⟨rfl, rfl⟩ <;> rfl

/-- `body`, between quotes, stands for the text `value`: a backslash takes the next character with
it, and no other character is a quote. A pair without a meaning stands for itself. -/
inductive Denotes : List Char → List Char → Prop
  | nil : Denotes [] []
  | plain {c : Char} {body value : List Char} : c ≠ '"' → c ≠ '\\' → Denotes body value →
      Denotes (c :: body) (c :: value)
  | escaped {c meant : Char} {body value : List Char} : (c, meant) ∈ escapes →
      Denotes body value → Denotes ('\\' :: c :: body) (meant :: value)
  | kept {c : Char} {body value : List Char} : (∀ meant, (c, meant) ∉ escapes) → c ≠ '\n' →
      Denotes body value → Denotes ('\\' :: c :: body) ('\\' :: c :: value)

namespace Denotes

theorem decode {body value : List Char} (denotes : Denotes body value) :
    Escape.decode body = value := by
  induction denotes with
  | nil => rfl
  | @plain c body value _ notBackslash denotes ih =>
      cases body with
      | nil =>
          cases denotes
          rfl
      | cons d rest => rw [Escape.decode, if_neg notBackslash, ih]
  | escaped listed _ ih =>
      simp only [Escape.decode, ↓reduceIte, meaning?_eq_some_iff.2 listed, ih]
  | @kept c _ _ unlisted _ _ ih =>
      have meaningless : meaning? c = none := by
        apply Option.eq_none_iff_forall_ne_some.2
        intro meant means
        exact unlisted meant (meaning?_eq_some_iff.1 means)
      simp only [Escape.decode, ↓reduceIte, meaningless, ih]

/-- A body is taken up to the quote after it, whatever comes then. -/
theorem closing? {body value : List Char} (denotes : Denotes body value) (rest : List Char) :
    Escape.closing? (body ++ '"' :: rest) = some (body ++ ['"']) := by
  have pair {c : Char} {body : List Char} (notNewline : c ≠ '\n')
      (ih : Escape.closing? (body ++ '"' :: rest) = some (body ++ ['"'])) :
      Escape.closing? ('\\' :: c :: (body ++ '"' :: rest)) =
        some ('\\' :: c :: (body ++ ['"'])) := by
    simp [Escape.closing?, notNewline, ih]
  induction denotes with
  | nil => cases rest <;> simp [Escape.closing?]
  | @plain c body value notQuote notBackslash _ ih =>
      cases body with
      | nil => cases rest <;> simp [Escape.closing?, notQuote, notBackslash]
      | cons d others =>
          simp only [List.cons_append] at ih ⊢
          simp [Escape.closing?, notQuote, notBackslash, ih]
  | @escaped c meant _ _ listed _ ih =>
      have notNewline : c ≠ '\n' := by
        rintro rfl
        simp [escapes] at listed
      exact pair notNewline ih
  | kept _ notNewline _ ih => exact pair notNewline ih

end Denotes

/-- What is taken as the end of a literal is a body, which stands for its decoded text, and a
quote. -/
theorem closing?_eq_some {text found : List Char} (closed : closing? text = some found) :
    ∃ body, found = body ++ ['"'] ∧ Denotes body (decode body) := by
  have denoted {body : List Char} : (∃ value, Denotes body value) → Denotes body (decode body) := by
    rintro ⟨value, denotes⟩
    rwa [denotes.decode]
  suffices ∃ body, found = body ++ ['"'] ∧ ∃ value, Denotes body value by
    obtain ⟨body, split, valued⟩ := this
    exact ⟨body, split, denoted valued⟩
  fun_induction closing? text generalizing found with
  | case1 => cases closed
  | case2 =>
      cases closed
      exact ⟨[], rfl, [], .nil⟩
  | case3 => cases closed
  | case4 =>
      cases closed
      exact ⟨[], rfl, [], .nil⟩
  | case5 => cases closed
  | case6 d rest notNewline _ ih =>
      obtain ⟨later, closedLater, rfl⟩ := Option.map_eq_some_iff.1 closed
      obtain ⟨body, rfl, value, denotes⟩ := ih closedLater
      refine ⟨'\\' :: d :: body, rfl, ?_⟩
      by_cases listed : ∃ meant, (d, meant) ∈ escapes
      · obtain ⟨meant, listed⟩ := listed
        exact ⟨_, .escaped listed denotes⟩
      · exact ⟨_, .kept (fun meant member => listed ⟨meant, member⟩) notNewline denotes⟩
  | case7 c d rest notQuote notBackslash ih =>
      obtain ⟨later, closedLater, rfl⟩ := Option.map_eq_some_iff.1 closed
      obtain ⟨body, rfl, value, denotes⟩ := ih closedLater
      exact ⟨c :: body, rfl, _, .plain notQuote notBackslash denotes⟩

def encodeChar (c : Char) : List Char :=
  match escapes.find? (·.2 = c) with
  | some (mark, _) => ['\\', mark]
  | none => [c]

/-- The body that a text is written with: backslash, quote, line feed, tab and carriage return are
escaped, and all else stands for itself. -/
def encode (text : List Char) : List Char := text.flatMap encodeChar

theorem denotes_encode (text : List Char) : Denotes (encode text) text := by
  induction text with
  | nil => exact .nil
  | cons c text ih =>
      rw [encode, List.flatMap_cons, encodeChar]
      split
      · rename_i mark meant found
        have listed := List.mem_of_find?_eq_some found
        have same : meant = c := by simpa using List.find?_some found
        exact .escaped (same ▸ listed) ih
      · rename_i absent
        have unlisted : ∀ mark, (mark, c) ∉ escapes := by
          intro mark listed
          simpa using List.find?_eq_none.1 absent (mark, c) listed
        have notQuote : c ≠ '"' := by
          rintro rfl
          exact unlisted '"' (by decide)
        have notBackslash : c ≠ '\\' := by
          rintro rfl
          exact unlisted '\\' (by decide)
        exact .plain notQuote notBackslash ih

end DialogueTyping.Escape
