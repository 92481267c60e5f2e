import DialogueTyping.Diagnostic.Render
import DialogueTyping.Proofs.Diagnostic.Places
import DialogueTyping.Proofs.Text.LineLookup

set_option autoImplicit false

namespace DialogueTyping

namespace Text

/-- The characters of `text`, which starts at byte `offset`, that start at byte `first` or later and
before byte `last`. -/
def charsIn (first last : Nat) : Nat → List Char → List Char
  | _, [] => []
  | offset, c :: text =>
    if first ≤ offset ∧ offset < last then c :: charsIn first last (offset + c.utf8Size) text
    else charsIn first last (offset + c.utf8Size) text

variable {first last offset : Nat} {text : List Char}

theorem charsIn_append (first last offset : Nat) (front back : List Char) :
    charsIn first last offset (front ++ back) =
      charsIn first last offset front ++ charsIn first last (offset + byteLength front) back := by
  induction front generalizing offset with
  | nil => rfl
  | cons c front ih =>
      simp only [List.cons_append, charsIn, byteLength_cons, ih, Nat.add_assoc]
      split <;> rfl

theorem charsIn_eq_self (start_le : first ≤ offset) (le_stop : offset + byteLength text ≤ last) :
    charsIn first last offset text = text := by
  induction text generalizing offset with
  | nil => rfl
  | cons c text ih =>
      have positive := c.utf8Size_pos
      rw [byteLength_cons] at le_stop
      rw [charsIn, if_pos ⟨start_le, by omega⟩, ih (by omega) (by omega)]

theorem charsIn_eq_nil (outside : offset + byteLength text ≤ first ∨ last ≤ offset) :
    charsIn first last offset text = [] := by
  induction text generalizing offset with
  | nil => rfl
  | cons c text ih =>
      have positive := c.utf8Size_pos
      rw [byteLength_cons] at outside
      rw [charsIn, if_neg (by omega), ih (by omega)]

/-- From a place on, the characters inside the bytes of a text are those up to its end or up to the
end of what is looked at. -/
theorem charsIn_of_isPrefix {shown : List Char} (start : Nat)
    (comparable : text <+: shown ∨ shown <+: text) :
    charsIn start (start + byteLength text) start shown <+: shown ∧
      byteLength (charsIn start (start + byteLength text) start shown) =
        min (byteLength text) (byteLength shown) := by
  rcases comparable with ⟨rest, rfl⟩ | ⟨rest, rfl⟩
  · rw [charsIn_append, charsIn_eq_self Nat.le.refl Nat.le.refl, charsIn_eq_nil (Or.inr Nat.le.refl),
      List.append_nil, byteLength_append]
    exact ⟨List.prefix_append _ _, by omega⟩
  · rw [byteLength_append, charsIn_eq_self Nat.le.refl (by omega)]
    exact ⟨List.prefix_rfl, by omega⟩

theorem byteLength_eq_length_iff {text : List Char} :
    byteLength text = text.length ↔ ∀ c ∈ text, c.utf8Size = 1 := by
  induction text with
  | nil => exact ⟨fun _ => List.forall_mem_nil _, fun _ => rfl⟩
  | cons c text ih =>
      have positive := c.utf8Size_pos
      have atLeast := length_le_byteLength text
      rw [List.forall_mem_cons, ← ih, byteLength_cons, List.length_cons]
      omega

/-- At least one is counted, so that bytes and characters agree also where there is none. -/
theorem max_byteLength_eq_iff {text : List Char} :
    max 1 (byteLength text) = max 1 text.length ↔ ∀ c ∈ text, c.utf8Size = 1 := by
  rw [← byteLength_eq_length_iff]
  have atLeast := length_le_byteLength text
  cases text with
  | nil => exact ⟨fun _ => rfl, fun _ => rfl⟩
  | cons c text =>
      rw [List.length_cons] at atLeast ⊢
      omega

/-- The spaces at the start of a line. -/
def indent (line : List Char) : List Char := (body line).takeWhile (· = ' ')

/-- A line without the spaces at its start and the line feed at its end. -/
def row (line : List Char) : List Char := (body line).dropWhile (· = ' ')

/-- A line without the spaces at its start and the blanks at its end. -/
def displayed (line : List Char) : List Char := trimEnd (row line)

theorem byteLength_body_le (line : List Char) : byteLength (body line) ≤ byteLength line := by
  have split := congrArg byteLength (List.takeWhile_append_dropWhile (p := (· ≠ '\n')) (l := line))
  rw [byteLength_append] at split
  exact Nat.le.intro split

theorem indent_append_row (line : List Char) : indent line ++ row line = body line :=
  List.takeWhile_append_dropWhile

theorem byteLength_indent (line : List Char) : byteLength (indent line) = (indent line).length := by
  rw [byteLength_eq_length_iff]
  intro c member
  have space : c = ' ' := by simpa using List.mem_takeWhile_imp member
  rw [space]
  decide

theorem trimEnd_append_feed (text : List Char) : trimEnd (text ++ ['\n']) = trimEnd text :=
  List.rdropWhile_concat_pos _ _ _ (by decide)

namespace LineAt

variable {text before line after front rest : List Char} {position : Nat} {c : Char}

theorem takeWhile_line (found : LineAt text position before line after) :
    line.takeWhile (· = ' ') = indent line := by
  rcases found.ends with feed | ⟨whole, -⟩
  · rw [indent]
    generalize body line = inner at feed ⊢
    rw [feed, List.takeWhile_append, List.takeWhile_cons_of_neg (by decide), List.append_nil]
    split
    · rename_i all
      exact ((List.takeWhile_prefix _).eq_of_length all).symm
    · rfl
  · rw [indent, ← whole]

theorem trimEnd_line (found : LineAt text position before line after) :
    trimEnd (line.dropWhile (· = ' ')) = displayed line := by
  rcases found.ends with feed | ⟨whole, -⟩
  · rw [displayed, row]
    generalize body line = inner at feed ⊢
    rw [feed, dropWhile_append_cons (by decide), trimEnd_append_feed]
  · rw [displayed, row, ← whole]

/-- A character that is no blank stands in the row of its line, behind the spaces. -/
theorem exists_solid (found : LineAt text position before line after)
    (split : text = front ++ c :: rest) (place : byteLength front = position)
    (solid : isBlank c = false) :
    ∃ gap more, row line = gap ++ c :: more ∧ front = before ++ (indent line ++ gap) ∧
      more <+: rest := by
  obtain ⟨behind, regrouped, feed⟩ := found.exists_behind
  have whole : before ++ (body line ++ behind) = front ++ c :: rest := by
    rw [← regrouped, ← found.split, split]
  have start := found.start_le
  obtain ⟨inner, rfl, inLine⟩ := append_eq_append_of_le whole (by omega)
  have within : byteLength inner ≤ byteLength (body line) := by
    have total := congrArg byteLength split
    have oneMore := found.byteLength_line_le
    have positive := c.utf8Size_pos
    rw [byteLength_append, byteLength_append, byteLength_cons] at total
    rw [byteLength_append] at place
    rcases found.inside with inside | ⟨-, atEnd⟩ <;> omega
  obtain ⟨tail, isBody, isRest⟩ := append_eq_append_of_le inLine.symm within
  cases tail with
  | nil =>
      have isFeed := feed c (by rw [← List.nil_append behind, ← isRest]; rfl)
      rw [isFeed] at solid
      exact absurd solid (by decide)
  | cons d more =>
      cases isRest
      have notSpace : c ≠ ' ' := by
        rintro rfl
        exact absurd solid (by decide)
      have isRow : row line = inner.dropWhile (· = ' ') ++ c :: more := by
        rw [row, isBody, dropWhile_append_cons (decide_eq_false notSpace)]
      refine ⟨_, more, isRow, ?_, List.prefix_append _ _⟩
      have joined := indent_append_row line
      rw [isRow, isBody, ← List.append_assoc] at joined
      rw [List.append_cancel_right joined]

end LineAt

end Text

namespace Span

open Text

/-- The characters of a line between the spaces at its start and the start of the span, where
`before` stands before the line. -/
def gap (before line : List Char) (span : Span) : List Char :=
  charsIn 0 span.start.toNat (byteLength (before ++ indent line)) (row line)

/-- The displayed characters of a line inside the span, where `before` stands before the line. -/
def covered (before line : List Char) (span : Span) : List Char :=
  charsIn span.start.toNat span.stop.toNat (byteLength (before ++ indent line)) (displayed line)

variable {source before line after : List Char} {span : Span}

theorem width_eq {length : Nat} (stop : span.start.toNat + length = span.stop.toNat) :
    span.width = max 1 length := by
  rw [width]
  split
  · rename_i forward
    rw [UInt32.lt_iff_toNat_lt] at forward
    rw [UInt32.toNat_sub_of_le _ _ (UInt32.le_iff_toNat_le.2 (Nat.le_of_lt forward))]
    omega
  · rename_i empty
    rw [UInt32.lt_iff_toNat_lt] at empty
    omega

/-- The place of a span in its line: the bytes before it are those of the leading spaces and of the
gap, and the bytes under it, as far as they are displayed, those of the covered characters. -/
structure InLine (source before line : List Char) (span : Span) : Prop where
  place : lineAt? source span.start.toNat = some ⟨1 + before.count '\n', line,
    byteLength (indent line) + byteLength (span.gap before line)⟩
  width : max 1 (min span.width (byteLength (displayed line) - byteLength (span.gap before line))) =
    max 1 (byteLength (span.covered before line))
  under : span.covered before line ≠ [] →
    span.gap before line ++ span.covered before line <+: displayed line

theorem inLine_of_solid {front text back rest : List Char} {c : Char}
    (found : LineAt source span.start.toNat before line after)
    (split : source = front ++ (text ++ back)) (place : byteLength front = span.start.toNat)
    (length : span.start.toNat + byteLength text = span.stop.toNat)
    (starts : text ++ back = c :: rest) (solid : isBlank c = false) :
    span.InLine source before line := by
  rw [starts] at split
  obtain ⟨gap, more, isRow, rfl, isPrefix⟩ := found.exists_solid split place solid
  have position : byteLength (before ++ indent line) + byteLength gap = span.start.toNat := by
    rw [← place, ← byteLength_append, List.append_assoc]
  have isGap : span.gap before line = gap := by
    rw [Span.gap, isRow, charsIn_append, charsIn_eq_self (Nat.zero_le _) (Nat.le_of_eq position),
      charsIn_eq_nil (Or.inr (Nat.le_of_eq position.symm)), List.append_nil]
  have isShown : displayed line = gap ++ c :: trimEnd more := by
    rw [displayed, isRow, trimEnd_append_cons solid]
  generalize isTail : c :: trimEnd more = tail at isShown
  have isCovered : span.covered before line =
      charsIn span.start.toNat (span.start.toNat + byteLength text) span.start.toNat tail := by
    rw [Span.covered, isShown, charsIn_append, charsIn_eq_nil (Or.inl (Nat.le_of_eq position)),
      List.nil_append, position, length]
  have comparable : text <+: tail ∨ tail <+: text := by
    have whole : text <+: c :: rest := ⟨back, starts⟩
    have shorter : tail <+: c :: rest := by
      rw [← isTail]
      exact List.cons_prefix_cons.2 ⟨rfl, (List.rdropWhile_prefix _ more).trans isPrefix⟩
    exact List.prefix_or_prefix_of_prefix whole shorter
  obtain ⟨inTail, bytes⟩ := charsIn_of_isPrefix span.start.toNat comparable
  constructor
  · have inside : span.start.toNat < byteLength before + byteLength line := by
      have inBody := congrArg byteLength (indent_append_row line)
      have positive := c.utf8Size_pos
      have inLine := byteLength_body_le line
      rw [isRow] at inBody
      simp only [byteLength_append, byteLength_cons] at inBody position
      omega
    rw [found.lineAt?_inside inside, isGap, ← position, byteLength_append, Nat.add_assoc,
      Nat.add_sub_cancel_left]
  · rw [isGap, isCovered, bytes, isShown, byteLength_append, width_eq length]
    omega
  · intro _
    rw [isGap, isCovered, isShown]
    exact (List.prefix_append_right_inj gap).2 inTail

theorem inLine_of_end (found : LineAt source span.start.toNat before line after)
    (atEnd : span.start.toNat = byteLength source) (empty : span.start.toNat + 0 = span.stop.toNat) :
    span.InLine source before line := by
  obtain ⟨behind, regrouped, -⟩ := found.exists_behind
  have total := congrArg byteLength (found.split.trans (congrArg (before ++ ·) regrouped))
  have isBody := congrArg byteLength (indent_append_row line)
  simp only [byteLength_append] at total isBody
  have within : byteLength (before ++ indent line) + byteLength (row line) ≤ span.start.toNat := by
    rw [byteLength_append]
    omega
  have isGap : span.gap before line = row line := charsIn_eq_self (Nat.zero_le _) within
  have isCovered : span.covered before line = [] := by
    obtain ⟨cut, isRow⟩ : trimEnd (row line) <+: row line := List.rdropWhile_prefix _ _
    have shorter := congrArg byteLength isRow
    rw [byteLength_append] at shorter
    exact charsIn_eq_nil (Or.inl (by rw [displayed]; omega))
  constructor
  · rcases found.inside with inside | ⟨rfl, -⟩
    · have size := congrArg byteLength found.split
      simp only [byteLength_append] at size
      omega
    · rw [found.lineAt?_end atEnd, isGap, isBody]
  · rw [isCovered, width_eq empty, byteLength_nil]
    omega
  · intro some
    exact absurd isCovered some

theorem Anchored.inLine (anchored : span.Anchored source)
    (found : LineAt source span.start.toNat before line after) : span.InLine source before line := by
  obtain ⟨front, text, back, split, place, length, solid⟩ := anchored
  cases starts : text ++ back with
  | nil =>
      obtain ⟨rfl, rfl⟩ := List.append_eq_nil_iff.1 starts
      rw [starts, List.append_nil] at split
      exact inLine_of_end found (by rw [← place, split]) length
  | cons c rest =>
      rw [starts] at solid
      exact inLine_of_solid found split place length starts (solid c rfl)

end Span

namespace Diagnostic

open Text

/-- The row under a displayed line: a margin as wide as that of the line, blanks and carets. -/
def caretRow (number blanks carets : Nat) : List Char :=
  List.leftpad ((Nat.toDigits 10 number).length + 2) ' ' ['|']
    ++ ' ' :: (List.replicate blanks ' ' ++ List.replicate carets '^')

/-- The diagnostic with a displayed line and carets behind blanks under it. -/
def underlined (diagnostic : Diagnostic) (file : String) (number : Nat) (shown : List Char)
    (blanks carets : Nat) : String :=
  diagnostic.headline ++ "\n  " ++ diagnostic.problem.message ++ "\n-> " ++ file ++ "\n"
    ++ String.ofList (List.leftpad ((Nat.toDigits 10 number).length + 2) ' ' ['|'] ++ ['\n']
      ++ Nat.toDigits 10 number ++ [' ', '|', ' '] ++ shown ++ ['\n']
      ++ (caretRow number blanks carets ++ ['\n']))

theorem excerpt?_eq {diagnostic : Diagnostic} {source : String} {before line : List Char}
    {rest : List Char} (inLine : diagnostic.span.InLine source.toList before line)
    (found : LineAt source.toList diagnostic.span.start.toNat before line rest) :
    diagnostic.excerpt? source = some ⟨1 + before.count '\n', displayed line,
      byteLength (diagnostic.span.gap before line),
      max 1 (byteLength (diagnostic.span.covered before line))⟩ := by
  rw [excerpt?, inLine.place, Option.map_some, Excerpt.ofPlace]
  simp only [found.takeWhile_line, found.trimEnd_line, ← byteLength_indent,
    Nat.add_sub_cancel_left, inLine.width]

theorem render_eq_underlined {diagnostic : Diagnostic} {source : String} {number : Nat}
    {shown : List Char} {column width : Nat} (file : String)
    (shows : diagnostic.excerpt? source = some ⟨number, shown, column, width⟩) :
    diagnostic.render file source = diagnostic.underlined file number shown column width := by
  rw [render, shows]
  simp only [Excerpt.rows, underlined, caretRow, List.append_assoc, List.cons_append,
    List.nil_append]

theorem underlined_eq_iff {diagnostic : Diagnostic} {file : String} {number : Nat}
    {shown : List Char} {blanks carets twinBlanks twinCarets : Nat} :
    diagnostic.underlined file number shown blanks carets =
        diagnostic.underlined file number shown twinBlanks twinCarets ↔
      blanks = twinBlanks ∧ carets = twinCarets := by
  constructor
  · intro same
    have chars := congrArg String.toList same
    simp only [underlined, caretRow, String.toList_append, String.toList_ofList,
      List.append_cancel_left_eq, List.append_cancel_right_eq, List.cons.injEq, true_and] at chars
    have spaces := congrArg (List.count ' ') chars
    have marks := congrArg (List.count '^') chars
    simp only [List.count_append, List.count_replicate] at spaces marks
    exact ⟨by simpa using spaces, by simpa using marks⟩
  · rintro ⟨rfl, rfl⟩
    rfl

variable {diagnostic : Diagnostic} {source : String} {before line rest : List Char}

theorem render_eq (file : String) (inLine : diagnostic.span.InLine source.toList before line)
    (found : LineAt source.toList diagnostic.span.start.toNat before line rest) :
    diagnostic.render file source =
      diagnostic.underlined file (1 + before.count '\n') (displayed line)
        (byteLength (diagnostic.span.gap before line))
        (max 1 (byteLength (diagnostic.span.covered before line))) :=
  render_eq_underlined file (excerpt?_eq inLine found)

theorem render_eq_iff (file : String) (inLine : diagnostic.span.InLine source.toList before line)
    (found : LineAt source.toList diagnostic.span.start.toNat before line rest) :
    diagnostic.render file source =
        diagnostic.underlined file (1 + before.count '\n') (displayed line)
          (diagnostic.span.gap before line).length
          (max 1 (diagnostic.span.covered before line).length) ↔
      ∀ c ∈ diagnostic.span.gap before line ++ diagnostic.span.covered before line,
        c.utf8Size = 1 := by
  rw [render_eq file inLine found, underlined_eq_iff, byteLength_eq_length_iff,
    max_byteLength_eq_iff, List.forall_mem_append]

end Diagnostic

namespace Check

open Text

/-- Blanks and carets are counted in bytes, so they are as many as the characters that they stand
for exactly if each of these takes one byte. The name `file` is put into a row of its own; the
diagnostic does not have it. -/
theorem carets_count_bytes {constant : Bool} {source : String} {table after : Table}
    {diagnostic : Diagnostic} (file : String)
    (short : byteLength source.toList < UInt32.size)
    (reported : (Check.source constant source).outcome table = (.error (.report diagnostic), after)) :
    (∃ before line rest, LineAt source.toList diagnostic.span.start.toNat before line rest) ∧
    ∀ before line rest, LineAt source.toList diagnostic.span.start.toNat before line rest →
      let gap := diagnostic.span.gap before line
      let covered := diagnostic.span.covered before line
      let underlined := diagnostic.underlined file (1 + before.count '\n') (displayed line)
      (covered ≠ [] → gap ++ covered <+: displayed line) ∧
      diagnostic.render file source = underlined (byteLength gap) (max 1 (byteLength covered)) ∧
      (diagnostic.render file source = underlined gap.length (max 1 covered.length) ↔
        ∀ c ∈ gap ++ covered, c.utf8Size = 1) := by
  have anchored := anchored_source short reported
  constructor
  · obtain ⟨front, text, back, split, place, -⟩ := anchored
    apply exists_lineAt
    rw [split, ← place, byteLength_append]
    exact Nat.le_add_right _ _
  · intro before line rest found gap covered underlined
    have inLine := anchored.inLine found
    exact ⟨inLine.under, Diagnostic.render_eq file inLine found,
      Diagnostic.render_eq_iff file inLine found⟩

/-- Operands on two lines, the first of them with a character of two bytes: four carets stand under
three characters. -/
theorem carets_count_bytes_two_lines :
    let source := "\n  if (\"é\"\n + 1) "
    let line := "  if (\"é\"\n".toList
    let diagnostic : Diagnostic :=
      ⟨.operandMismatch "+" [.string, .number], ⟨7, 16⟩, some ⟨4⟩⟩
    byteLength source.toList < UInt32.size ∧
      (Check.source false source).outcome ⟨[]⟩ = (.error (.report diagnostic), ⟨[]⟩) ∧
      LineAt source.toList 7 ['\n'] line " + 1) ".toList ∧
      diagnostic.span.gap ['\n'] line = "if (".toList ∧
      diagnostic.span.covered ['\n'] line = "\"é\"".toList ∧
      diagnostic.render "bag.txt" source =
        diagnostic.underlined "bag.txt" 2 "if (\"é\"".toList 4 4 := by
  intro source line diagnostic
  have short : byteLength source.toList < UInt32.size := by decide
  have reported : (Check.source false source).outcome ⟨[]⟩ =
      (.error (.report diagnostic), ⟨[]⟩) := by
    decide +kernel
  have found : LineAt source.toList 7 ['\n'] line " + 1) ".toList :=
    ⟨by decide, Or.inr rfl, Or.inl (by decide), by decide, by decide, Or.inl (by decide)⟩
  have isGap : diagnostic.span.gap ['\n'] line = "if (".toList := by decide
  have isCovered : diagnostic.span.covered ['\n'] line = "\"é\"".toList := by decide
  obtain ⟨-, rendered, -⟩ := (carets_count_bytes "bag.txt" short reported).2 _ _ _ found
  rw [isGap, isCovered] at rendered
  exact ⟨short, reported, found, isGap, isCovered, rendered⟩

/-- Behind a character of two bytes, the carets stand one place too far to the right. -/
theorem carets_beside_text :
    let source := "\"é\" + $x"
    let diagnostic : Diagnostic := ⟨.undeclaredVariable "$x", ⟨7, 9⟩, some ⟨2⟩⟩
    let gap := diagnostic.span.gap [] source.toList
    let covered := diagnostic.span.covered [] source.toList
    (Check.source false source).outcome ⟨[]⟩ = (.error (.report diagnostic), ⟨[]⟩) ∧
      LineAt source.toList 7 [] source.toList [] ∧
      gap = "\"é\" + ".toList ∧ covered = "$x".toList ∧
      diagnostic.render "test.yarn" source ≠
        diagnostic.underlined "test.yarn" 1 source.toList gap.length (max 1 covered.length) := by
  intro source diagnostic gap covered
  have reported : (Check.source false source).outcome ⟨[]⟩ =
      (.error (.report diagnostic), ⟨[]⟩) := by
    decide +kernel
  have found : LineAt source.toList 7 [] source.toList [] :=
    ⟨by decide, Or.inl rfl, Or.inr (by decide), by decide, by decide, Or.inl (by decide)⟩
  exact ⟨reported, found, by decide, by decide, by decide +kernel⟩

end Check

end DialogueTyping
