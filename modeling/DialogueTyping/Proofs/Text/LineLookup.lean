import DialogueTyping.Text.Lines
import Mathlib.Data.List.DropRight
import Mathlib.Data.List.TakeWhile

set_option autoImplicit false

namespace DialogueTyping.Text

theorem dropEndWhile_eq (drop : Char → Bool) (text : List Char) :
    dropEndWhile drop text = text.rdropWhile drop := rfl

theorem trimEnd_eq (text : List Char) : trimEnd text = text.rdropWhile isBlank := rfl

theorem dropWhile_append_cons {drop : Char → Bool} {c : Char} (stays : drop c = false)
    (front rest : List Char) :
    (front ++ c :: rest).dropWhile drop = front.dropWhile drop ++ c :: rest := by
  have stops : (c :: rest).dropWhile drop = c :: rest :=
    List.dropWhile_cons_of_neg (by rw [stays]; exact Bool.false_ne_true)
  rw [List.dropWhile_append, stops]
  split
  · rename_i none
    rw [List.isEmpty_iff.1 none, List.nil_append]
  · rfl

theorem trimEnd_append_cons {c : Char} (stays : isBlank c = false) (front rest : List Char) :
    trimEnd (front ++ c :: rest) = front ++ c :: trimEnd rest := by
  have turned : (front ++ c :: rest).reverse = rest.reverse ++ c :: front.reverse := by
    simp
  rw [trimEnd_eq, trimEnd_eq, List.rdropWhile, turned, dropWhile_append_cons stays]
  simp [List.rdropWhile]

def bytes (text : List Char) : List UInt8 := text.flatMap String.utf8EncodeChar

@[simp] theorem bytes_append (first second : List Char) :
    bytes (first ++ second) = bytes first ++ bytes second :=
  List.flatMap_append

@[simp] theorem length_bytes (text : List Char) : (bytes text).length = byteLength text := by
  induction text with
  | nil => rfl
  | cons c rest ih =>
      rw [bytes, List.flatMap_cons, List.length_append, String.length_utf8EncodeChar,
        byteLength_cons, ← ih, bytes]

/-- No other character has the byte of a line feed in it. -/
theorem feed_notMem_encoding {c : Char} (other : c ≠ '\n') : 10 ∉ String.utf8EncodeChar c := by
  have code : c.val.toNat ≠ 10 := by
    intro same
    exact other (Char.ext (UInt32.toNat_inj.1 same))
  have differs {n : Nat} (small : n < 256) (apart : n ≠ 10) : (10 : UInt8) ≠ UInt8.ofNat n := by
    intro same
    have values := congrArg UInt8.toNat same
    rw [UInt8.toNat_ofNat_of_lt' small] at values
    exact apart values.symm
  unfold String.utf8EncodeChar
  dsimp only
  repeat' split
  all_goals
    simp only [List.mem_cons, List.not_mem_nil, or_false, not_or]
    and_intros <;> exact differs (by omega) (by omega)

theorem count_bytes (text : List Char) : (bytes text).count 10 = text.count '\n' := by
  induction text with
  | nil => rfl
  | cons c rest ih =>
      rw [bytes, List.flatMap_cons, List.count_append, ← bytes, ih]
      by_cases feed : c = '\n'
      · subst feed
        rw [List.count_cons_self, Nat.add_comm]
        rfl
      · rw [List.count_eq_zero_of_not_mem (feed_notMem_encoding feed), Nat.zero_add,
          List.count_cons_of_ne feed]

/-- A line without the line feed that ends it. -/
def body (line : List Char) : List Char := line.takeWhile (· ≠ '\n')

theorem feed_notMem_body (line : List Char) : '\n' ∉ body line := by
  intro member
  simpa using List.mem_takeWhile_imp member

theorem body_eq_self {line : List Char} (inner : '\n' ∉ line) : body line = line := by
  rw [body, List.takeWhile_eq_self_iff]
  intro c member
  exact decide_eq_true fun feed => inner (feed ▸ member)

theorem body_append_feed {line : List Char} (inner : '\n' ∉ line) (rest : List Char) :
    body (line ++ '\n' :: rest) = line := by
  have whole := body_eq_self inner
  rw [body, List.takeWhile_eq_self_iff] at whole
  rw [body, List.takeWhile_append_of_pos whole, List.takeWhile_cons_of_neg (by decide),
    List.append_nil]

/-- The byte `position` of `text` is in `line`, with `before` and `after` around it. The place
behind the last byte belongs to the last line. Only the line of the empty text is empty. -/
structure LineAt (text : List Char) (position : Nat) (before line after : List Char) : Prop where
  split : text = before ++ (line ++ after)
  starts : before = [] ∨ before.getLast? = some '\n'
  ends : line = body line ++ ['\n'] ∨ line = body line ∧ after = []
  empty : line = [] → before = []
  start_le : byteLength before ≤ position
  inside : position < byteLength before + byteLength line ∨
    after = [] ∧ position = byteLength text

theorem inclusiveLines_ne_nil {text : List Char} (nonempty : text ≠ []) :
    inclusiveLines text ≠ [] := by
  intro none
  have joined := flatten_inclusiveLines text
  rw [none, List.flatten_nil] at joined
  exact nonempty joined.symm

theorem inclusiveLines_append_feed (front rest : List Char) :
    inclusiveLines (front ++ '\n' :: rest) =
      inclusiveLines (front ++ ['\n']) ++ inclusiveLines rest := by
  induction front with
  | nil => simp [inclusiveLines]
  | cons c front ih =>
      obtain ⟨line, lines, first⟩ := List.exists_cons_of_ne_nil
        (inclusiveLines_ne_nil (List.append_ne_nil_of_right_ne_nil front (List.cons_ne_nil '\n' [])))
      rw [first] at ih
      rw [List.cons_append, List.cons_append, inclusiveLines, inclusiveLines, ih, first]
      split <;> rfl

theorem inclusiveLines_of_notMem {line : List Char} (inner : '\n' ∉ line) (nonempty : line ≠ []) :
    inclusiveLines line = [line] := by
  induction line with
  | nil => exact absurd rfl nonempty
  | cons c line ih =>
      obtain ⟨notFeed, rest⟩ := List.ne_and_not_mem_of_not_mem_cons inner
      cases line with
      | nil => simp [inclusiveLines, Ne.symm notFeed]
      | cons d line =>
          rw [inclusiveLines, if_neg (Ne.symm notFeed), ih rest (List.cons_ne_nil d line)]

theorem inclusiveLines_body_feed {line : List Char} (inner : '\n' ∉ line) :
    inclusiveLines (line ++ ['\n']) = [line ++ ['\n']] := by
  induction line with
  | nil => rfl
  | cons c line ih =>
      obtain ⟨notFeed, rest⟩ := List.ne_and_not_mem_of_not_mem_cons inner
      rw [List.cons_append, inclusiveLines, if_neg (Ne.symm notFeed), ih rest]

theorem length_inclusiveLines_feed (front : List Char) :
    (inclusiveLines (front ++ ['\n'])).length = (front ++ ['\n']).count '\n' := by
  induction front with
  | nil => rfl
  | cons c front ih =>
      obtain ⟨line, lines, first⟩ := List.exists_cons_of_ne_nil
        (inclusiveLines_ne_nil (List.append_ne_nil_of_right_ne_nil front (List.cons_ne_nil '\n' [])))
      rw [List.cons_append, inclusiveLines, first]
      rw [first] at ih
      by_cases feed : c = '\n'
      · rw [if_pos feed, feed, List.count_cons_self, List.length_cons, ih]
      · rw [if_neg feed, List.count_cons_of_ne feed, ← ih]
        rfl

theorem locate?_append {earlier : List (List Char)} {line : List Char} {position : Nat}
    (number : Nat) (later : List (List Char)) (start_le : byteLength earlier.flatten ≤ position)
    (inside : position < byteLength earlier.flatten + byteLength line) :
    locate? number position (earlier ++ line :: later) =
      some ⟨number + earlier.length, line, position - byteLength earlier.flatten⟩ := by
  induction earlier generalizing number position with
  | nil =>
      simp only [List.flatten_nil, byteLength_nil, Nat.zero_add] at inside
      rw [List.nil_append, locate?, if_pos inside]
      rfl
  | cons first earlier ih =>
      simp only [List.flatten_cons, byteLength_append] at start_le inside ⊢
      rw [List.cons_append, locate?, if_neg (by omega), ih (number + 1) (by omega) (by omega),
        List.length_cons, Nat.sub_sub, Nat.add_assoc number, Nat.add_comm 1]

theorem locate?_eq_none {lines : List (List Char)} {number position : Nat}
    (behind : byteLength lines.flatten ≤ position) : locate? number position lines = none := by
  induction lines generalizing number position with
  | nil => rfl
  | cons line lines ih =>
      simp only [List.flatten_cons, byteLength_append] at behind
      rw [locate?, if_neg (by omega), ih (by omega)]

namespace LineAt

variable {text before line after : List Char} {position : Nat}

theorem inclusiveLines_before (found : LineAt text position before line after) :
    inclusiveLines text = inclusiveLines before ++ inclusiveLines (line ++ after) ∧
      (inclusiveLines before).length = before.count '\n' := by
  rw [found.split]
  rcases found.starts with rfl | feed
  · exact ⟨rfl, rfl⟩
  · obtain ⟨front, rfl⟩ := List.getLast?_eq_some_iff.1 feed
    refine ⟨?_, length_inclusiveLines_feed front⟩
    rw [List.append_assoc, List.singleton_append, inclusiveLines_append_feed]

theorem inclusiveLines_line (found : LineAt text position before line after)
    (nonempty : line ≠ []) : inclusiveLines (line ++ after) = line :: inclusiveLines after := by
  rcases found.ends with feed | ⟨whole, rfl⟩
  · rw [feed, List.append_assoc, List.singleton_append, inclusiveLines_append_feed,
      inclusiveLines_body_feed (feed_notMem_body line), List.singleton_append]
  · rw [List.append_nil, inclusiveLines_of_notMem (whole ▸ feed_notMem_body line) nonempty]
    rfl

theorem dropEndWhile_feed (found : LineAt text position before line after) :
    dropEndWhile (· = '\n') line = body line := by
  have kept : (body line).rdropWhile (· = '\n') = body line := by
    rw [List.rdropWhile_eq_self_iff]
    intro some isFeed
    apply feed_notMem_body line
    rw [← of_decide_eq_true isFeed]
    exact List.getLast_mem some
  rw [dropEndWhile_eq]
  rcases found.ends with feed | ⟨whole, -⟩
  · rw [feed, List.rdropWhile_concat_pos _ _ _ (by decide), kept, ← feed]
  · rw [← whole] at kept
    rw [kept, ← whole]

/-- What stands behind a line without its line feed starts with that feed, if with anything. -/
theorem exists_behind (found : LineAt text position before line after) :
    ∃ behind, line ++ after = body line ++ behind ∧ ∀ c ∈ behind.head?, c = '\n' := by
  rcases found.ends with feed | ⟨whole, rfl⟩
  · refine ⟨'\n' :: after, ?_, ?_⟩
    · rw [← List.singleton_append, ← List.append_assoc, ← feed]
    · rintro _ ⟨⟩
      rfl
  · exact ⟨[], by rw [← whole], by simp⟩

theorem byteLength_line_le (found : LineAt text position before line after) :
    byteLength line ≤ byteLength (body line) + 1 := by
  rcases found.ends with feed | ⟨whole, -⟩
  · have size := congrArg byteLength feed
    rw [byteLength_append] at size
    exact Nat.le_of_eq size
  · rw [← whole]
    exact Nat.le_succ _

theorem lineAt?_inside (found : LineAt text position before line after)
    (inside : position < byteLength before + byteLength line) :
    lineAt? text position =
      some ⟨1 + before.count '\n', line, position - byteLength before⟩ := by
  have nonempty : line ≠ [] := by
    rintro rfl
    have start := found.start_le
    rw [byteLength_nil] at inside
    omega
  obtain ⟨lines, count⟩ := found.inclusiveLines_before
  rw [found.inclusiveLines_line nonempty] at lines
  have joined := flatten_inclusiveLines before
  have located := locate?_append 1 (inclusiveLines after) (joined.symm ▸ found.start_le)
    (joined.symm ▸ inside)
  rw [lineAt?, lines, located, count, joined]

theorem lineAt?_end (found : LineAt text position before line [])
    (atEnd : position = byteLength text) :
    lineAt? text position = some ⟨1 + before.count '\n', line, byteLength (body line)⟩ := by
  have behind : locate? 1 position (inclusiveLines text) = none :=
    locate?_eq_none (by rw [flatten_inclusiveLines, atEnd])
  rw [lineAt?, behind]
  simp only [atEnd, ↓reduceIte, endPlace]
  by_cases empty : line = []
  · have split := found.split
    rw [found.empty empty, empty] at split
    subst split
    rw [found.empty empty, empty]
    rfl
  · obtain ⟨lines, count⟩ := found.inclusiveLines_before
    rw [found.inclusiveLines_line empty, inclusiveLines] at lines
    rw [lines, List.getLast?_concat, List.length_append, List.length_singleton, count,
      Option.getD_some, found.dropEndWhile_feed, Nat.max_eq_left (Nat.le_add_left _ _),
      Nat.add_comm]

theorem first (ends : line = body line ++ ['\n'] ∨ line = body line ∧ after = [])
    (inside : position < byteLength line ∨ after = [] ∧ position ≤ byteLength line) :
    LineAt (line ++ after) position [] line after where
  split := rfl
  starts := Or.inl rfl
  ends := ends
  empty := fun _ => rfl
  start_le := Nat.zero_le position
  inside := by
    rw [byteLength_nil, Nat.zero_add]
    rcases inside with inside | ⟨rfl, within⟩
    · exact Or.inl inside
    · rw [List.append_nil]
      rcases Nat.lt_or_eq_of_le within with inside | atEnd
      · exact Or.inl inside
      · exact Or.inr ⟨rfl, atEnd⟩

/-- The line is in a longer text when whole lines are put in front. -/
theorem prepend (found : LineAt text position before line after) {front : List Char}
    (feed : front.getLast? = some '\n') (nonempty : text ≠ []) :
    LineAt (front ++ text) (byteLength front + position) (front ++ before) line after where
  split := by rw [found.split, List.append_assoc]
  starts := by
    right
    rcases found.starts with rfl | ends
    · rw [List.append_nil, feed]
    · rw [List.getLast?_append, ends]
      rfl
  ends := found.ends
  empty := by
    intro empty
    have split := found.split
    have ends := found.ends
    rw [found.empty empty, empty] at split
    rw [empty] at ends
    rcases ends with feed | ⟨-, rfl⟩
    · cases feed
    · exact absurd split nonempty
  start_le := by
    rw [byteLength_append]
    have start := found.start_le
    omega
  inside := by
    simp only [byteLength_append]
    rcases found.inside with inside | ⟨last, atEnd⟩
    · exact Or.inl (by omega)
    · exact Or.inr ⟨last, by omega⟩

end LineAt

/-- Every byte of a text has a line, and so has the place behind the last. -/
theorem exists_lineAt {text : List Char} {position : Nat} (within : position ≤ byteLength text) :
    ∃ before line after, LineAt text position before line after := by
  induction length : text.length using Nat.strongRecOn generalizing text position with
  | ind _ ih =>
      by_cases feed : '\n' ∈ text
      · obtain ⟨inner, rest, rfl, notFeed⟩ := List.eq_append_cons_of_mem feed
        have isLine : inner ++ ['\n'] = body (inner ++ ['\n']) ++ ['\n'] := by
          rw [body_append_feed notFeed]
        have ends : (inner ++ ['\n']).getLast? = some '\n' := List.getLast?_concat
        rw [List.append_cons] at length within ⊢
        generalize inner ++ ['\n'] = line at *
        rw [byteLength_append] at within
        by_cases here : position < byteLength line ∨ rest = []
        · refine ⟨[], line, rest, .first (Or.inl isLine) ?_⟩
          rcases here with inside | rfl
          · exact Or.inl inside
          · exact Or.inr ⟨rfl, by rwa [byteLength_nil, Nat.add_zero] at within⟩
        · -- the line is one of those behind the first
          obtain ⟨behind, nonempty⟩ := not_or.1 here
          have size := congrArg List.length isLine
          rw [List.length_append] at length size
          rw [List.length_singleton] at size
          have within : position - byteLength line ≤ byteLength rest := by omega
          obtain ⟨before, other, after, found⟩ := ih rest.length (by omega) within rfl
          have longer := found.prepend ends nonempty
          rw [Nat.add_sub_cancel' (Nat.le_of_not_lt behind)] at longer
          exact ⟨line ++ before, other, after, longer⟩
      · refine ⟨[], text, [], ?_⟩
        have whole := LineAt.first (Or.inr ⟨(body_eq_self feed).symm, rfl⟩) (Or.inr ⟨rfl, within⟩)
        rwa [List.append_nil] at whole

theorem LineAt.count_feeds {text before line after : List Char} {position : Nat}
    (found : LineAt text position before line after)
    (inside : position < byteLength before + byteLength line) :
    ((bytes text).take position).count 10 = before.count '\n' := by
  have start := found.start_le
  obtain ⟨rest, split, -⟩ := found.exists_behind
  have reaches : position - byteLength before ≤ byteLength (body line) := by
    have oneMore := found.byteLength_line_le
    omega
  have none : ((bytes (body line)).take (position - byteLength before)).count 10 = 0 := by
    have all : (bytes (body line)).count 10 = 0 := by
      rw [count_bytes, List.count_eq_zero_of_not_mem (feed_notMem_body line)]
    exact Nat.eq_zero_of_le_zero (all ▸ (List.take_sublist _ _).count_le 10)
  rw [found.split, split, bytes_append, bytes_append, List.take_append, length_bytes,
    List.take_of_length_le (by rwa [length_bytes]), List.take_append_of_le_length (by rwa [length_bytes]),
    List.count_append, none, count_bytes, Nat.add_zero]

/-- A text has a line at each of its bytes and behind the last, and no other. The place behind the
last byte is found in the last line, before the feed that may end it. -/
theorem lineAt?_exact (text : List Char) (position : Nat) :
    (lineAt? text position = none ↔ byteLength text < position) ∧
    (position < byteLength text → ∃ before line after offset,
      LineAt text position before line after ∧
      lineAt? text position = some ⟨1 + ((bytes text).take position).count 10, line, offset⟩ ∧
      byteLength before + offset = position ∧ offset < byteLength line) ∧
    (position = byteLength text → ∃ before line,
      LineAt text position before line [] ∧
      lineAt? text position = some ⟨1 + before.count '\n', line, byteLength (body line)⟩) := by
  refine ⟨⟨?_, ?_⟩, ?_, ?_⟩
  · intro none
    by_contra within
    obtain ⟨before, line, after, found⟩ := exists_lineAt (Nat.le_of_not_lt within)
    rcases found.inside with inside | ⟨rfl, atEnd⟩
    · rw [found.lineAt?_inside inside] at none
      cases none
    · rw [found.lineAt?_end atEnd] at none
      cases none
  · intro behind
    rw [lineAt?, locate?_eq_none (by rw [flatten_inclusiveLines]; omega)]
    exact if_neg (by omega)
  · intro within
    obtain ⟨before, line, after, found⟩ := exists_lineAt (Nat.le_of_lt within)
    have start := found.start_le
    have inside : position < byteLength before + byteLength line := by
      rcases found.inside with inside | ⟨-, atEnd⟩
      · exact inside
      · omega
    refine ⟨before, line, after, position - byteLength before, found, ?_, by omega, by omega⟩
    rw [found.count_feeds inside, found.lineAt?_inside inside]
  · intro atEnd
    obtain ⟨before, line, after, found⟩ := exists_lineAt (Nat.le_of_eq atEnd)
    rcases found.inside with inside | ⟨rfl, -⟩
    · have total := congrArg byteLength found.split
      simp only [byteLength_append] at total
      omega
    · exact ⟨before, line, found, found.lineAt?_end atEnd⟩

/-- The feed of an empty line, a byte inside the last line, the place behind its feed, and a place
too far. -/
theorem lineAt?_exact_empty_line :
    let text := ['é', '\n', '\n', ' ', 'é', '\n']
    (3 < byteLength text ∧ ∃ before line after offset, LineAt text 3 before line after ∧
      lineAt? text 3 = some ⟨1 + ((bytes text).take 3).count 10, line, offset⟩ ∧
      byteLength before + offset = 3 ∧ offset < byteLength line) ∧
    lineAt? text 3 = some ⟨2, ['\n'], 0⟩ ∧ lineAt? text 6 = some ⟨3, [' ', 'é', '\n'], 2⟩ ∧
    (8 = byteLength text ∧ ∃ before line, LineAt text 8 before line [] ∧
      lineAt? text 8 = some ⟨1 + before.count '\n', line, byteLength (body line)⟩) ∧
    lineAt? text 8 = some ⟨3, [' ', 'é', '\n'], 3⟩ ∧ lineAt? text 9 = none := by
  intro text
  have within : 3 < byteLength text := by decide
  have atEnd : 8 = byteLength text := by decide
  refine ⟨⟨within, (lineAt?_exact text 3).2.1 within⟩, by decide, by decide,
    ⟨atEnd, (lineAt?_exact text 8).2.2 atEnd⟩, by decide, ?_⟩
  exact (lineAt?_exact text 9).1.2 (by decide)

end DialogueTyping.Text
