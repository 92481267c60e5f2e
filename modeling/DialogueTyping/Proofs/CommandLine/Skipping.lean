import DialogueTyping.Proofs.CommandLine.Agreement
import DialogueTyping.Proofs.Text.LineLookup
import DialogueTyping.Proofs.Token.Layout

set_option autoImplicit false

namespace DialogueTyping

namespace Text

theorem trim_of_blank {c : Char} {rest : List Char} (blank : isBlank c) :
    trim (c :: rest) = trim rest := by
  rw [trim, List.dropWhile_cons_of_pos blank, trim]

theorem trim_of_notBlank {c : Char} {rest : List Char} (other : isBlank c = false) :
    trim (c :: rest) = c :: trimEnd rest := by
  rw [trim, List.dropWhile_cons_of_neg (by rw [other]; exact Bool.false_ne_true)]
  exact trimEnd_append_cons other [] rest

/-- On one line, blanks and comments are blanks alone, or blanks and a comment up to the end. -/
theorem skipped_iff {line : List Char} (sameLine : '\n' ∉ line) :
    Skipped [] line ↔ trim line = [] ∨ ['/', '/'] <+: trim line := by
  constructor
  · intro skipped
    clear sameLine
    induction skipped with
    | nil => exact Or.inl rfl
    | blank isBlank _ ih => rwa [trim_of_blank isBlank]
    | @comment body rest _ _ _ _ =>
        right
        rw [trim_of_notBlank (by decide)]
        have second := trimEnd_append_cons (by decide : isBlank '/' = false) [] (body ++ rest)
        rw [← List.nil_append ('/' :: (body ++ rest)), second]
        exact ⟨_, rfl⟩
  · intro starts
    induction line with
    | nil => exact .nil
    | cons c rest ih =>
        obtain ⟨-, inner⟩ := List.ne_and_not_mem_of_not_mem_cons sameLine
        by_cases blank : isBlank c
        · rw [trim_of_blank blank] at starts
          exact .blank blank (ih inner starts)
        · rw [trim_of_notBlank (Bool.eq_false_iff.2 blank)] at starts
          rcases starts with none | slashes
          · cases none
          · obtain ⟨rfl, second⟩ := List.cons_prefix_cons.1 slashes
            obtain ⟨body, rfl⟩ := second.trans (List.rdropWhile_prefix isBlank rest)
            obtain ⟨-, sameBody⟩ := List.ne_and_not_mem_of_not_mem_cons inner
            have comment : Skipped [] ('/' :: '/' :: (body ++ [])) :=
              .comment sameBody (by simp) .nil
            rwa [List.append_nil] at comment

theorem feed_of_mem_inclusiveLines {text line : List Char} (member : line ∈ inclusiveLines text) :
    line = body line ++ ['\n'] ∨ line = body line := by
  fun_induction inclusiveLines text generalizing line with
  | case1 => cases member
  | case2 rest ih =>
      rcases List.mem_cons.1 member with rfl | later
      · exact Or.inl rfl
      · exact ih later
  | case3 c rest notFeed none ih =>
      rw [List.mem_singleton.1 member]
      exact Or.inr (body_eq_self (by simp [Ne.symm notFeed])).symm
  | case4 c rest notFeed first others some ih =>
      rcases List.mem_cons.1 member with rfl | later
      · have longer : body (c :: first) = c :: body first :=
          List.takeWhile_cons_of_pos (decide_eq_true notFeed)
        rw [longer]
        exact (ih (some ▸ List.mem_cons_self)).imp (congrArg (c :: ·)) (congrArg (c :: ·))
      · exact ih (some ▸ List.mem_cons_of_mem _ later)

theorem feed_notMem_withoutLineEnd {line : List Char}
    (ends : line = body line ++ ['\n'] ∨ line = body line) : '\n' ∉ withoutLineEnd line := by
  have inner := feed_notMem_body line
  have before {front : List Char} (whole : line = front ++ ['\n']) : '\n' ∉ front := by
    rcases ends with feed | same
    · rwa [List.append_cancel_right (whole.symm.trans feed)]
    · rw [← same, whole] at inner
      exact absurd (List.mem_append_right front (List.mem_singleton_self '\n')) inner
  unfold withoutLineEnd
  split
  · rename_i rest reversed
    have whole : line = rest.reverse ++ ['\r'] ++ ['\n'] := by
      rw [← List.reverse_reverse line, reversed, List.reverse_cons, List.reverse_cons]
    intro member
    exact before whole (List.mem_append_left _ member)
  · rename_i rest _ reversed
    exact before (by rw [← List.reverse_reverse line, reversed, List.reverse_cons])
  · rename_i unfed
    rcases ends with feed | same
    · have reversed := congrArg List.reverse feed
      rw [List.reverse_append] at reversed
      exact absurd reversed (unfed _)
    · rwa [same]

theorem feed_notMem_of_mem_lines {text line : List Char} (member : line ∈ lines text) :
    '\n' ∉ line := by
  obtain ⟨whole, among, rfl⟩ := List.mem_map.1 member
  exact feed_notMem_withoutLineEnd (feed_of_mem_inclusiveLines among)

end Text

theorem Tiling.skipped {offset : Nat} {text : List Char} (tiling : Tiling offset text []) :
    Text.Skipped [] text := by
  cases tiling with
  | gap skipped => exact skipped

/-- A text has no token exactly when it consists of blanks and comments. -/
theorem tokenize_eq_end_iff {source : String} :
    tokenize source =
        .ok [Token.endOfInput (UInt32.ofNat (Text.byteLength source.toList))] ↔
      Text.Skipped [] source.toList := by
  constructor
  · intro scanned
    simp only [tokenize] at scanned
    split at scanned
    · rename_i complete
      have tiling := tiling_of_cut 0 complete
      have none : tokensFrom 0 (Cut.ofText source.toList).pieces = [] := by
        have lengths := congrArg List.length (Except.ok.inj scanned)
        rw [List.length_append, List.length_singleton, List.length_singleton] at lengths
        exact List.length_eq_zero_iff.1 (by omega)
      rw [none] at tiling
      exact tiling.skipped
    · cases scanned
  · intro skipped
    have scans : Scans 0 (source.toList ++ []) [] := .skip skipped (.nil _)
    rw [List.append_nil] at scans
    rw [tokenize_of_scans scans, List.nil_append]

namespace CommandLine

theorem not_holdsExpression_iff {line : List Char} (sameLine : '\n' ∉ line) :
    holdsExpression line = false ↔ Text.Skipped [] line := by
  rw [holdsExpression_eq, decide_eq_false_iff_not, Text.skipped_iff sameLine, not_and_or,
    Classical.not_not, Classical.not_not]

theorem mem_entries_iff {text : String} {index : Nat} {line : List Char}
    (found : (Text.lines text.toList)[index]? = some line) :
    ⟨index + 1, line⟩ ∈ entries text ↔ holdsExpression line = true := by
  have placed : (line, index + 1) ∈ (Text.lines text.toList).zipIdx 1 :=
    List.mk_mem_zipIdx_iff_le_and_getElem?_sub.2 ⟨Nat.le_add_left 1 index, found⟩
  rw [entries, List.mem_filter]
  exact and_iff_right (List.mem_map.2 ⟨_, placed, rfl⟩)

theorem not_holdsExpression_iff_tokenize {line : List Char} (sameLine : '\n' ∉ line) :
    holdsExpression line = false ↔ tokenize (String.ofList line) =
      .ok [Token.endOfInput (UInt32.ofNat (Text.byteLength line))] := by
  have tokens : _ ↔ Text.Skipped [] (String.ofList line).toList := tokenize_eq_end_iff
  rw [String.toList_ofList] at tokens
  rw [tokens, not_holdsExpression_iff sameLine]

/-- A line is passed over exactly when tokenizing it gives nothing but the mark of its end, although
only the characters that it starts with are looked at. -/
theorem skips_iff_no_token :
    (∀ line : List Char, '\n' ∉ line →
      (holdsExpression line = false ↔ tokenize (String.ofList line) =
        .ok [Token.endOfInput (UInt32.ofNat (Text.byteLength line))])) ∧
    ∀ (text : String) (index : Nat) (line : List Char),
      (Text.lines text.toList)[index]? = some line →
      (⟨index + 1, line⟩ ∉ entries text ↔ tokenize (String.ofList line) =
        .ok [Token.endOfInput (UInt32.ofNat (Text.byteLength line))]) ∧
      (∀ e, Expr.ofSource (String.ofList line) = .ok e → ⟨index + 1, line⟩ ∈ entries text) ∧
      (∀ report, tokenize (String.ofList line) = .error report →
        ⟨index + 1, line⟩ ∈ entries text) ∧
      (Text.Skipped [] line → ⟨index + 1, line⟩ ∉ entries text) := by
  refine ⟨fun line sameLine => not_holdsExpression_iff_tokenize sameLine, ?_⟩
  intro text index line found
  have sameLine := Text.feed_notMem_of_mem_lines (List.mem_of_getElem? found)
  have decides := not_holdsExpression_iff_tokenize sameLine
  rw [mem_entries_iff found, Bool.not_eq_true]
  refine ⟨decides, ?_, ?_, (not_holdsExpression_iff sameLine).2⟩
  · intro e read
    by_contra skipped
    have scanned := decides.1 (Bool.eq_false_iff.2 skipped)
    rw [Expr.ofSource, scanned] at read
    cases read
  · intro report refused
    by_contra skipped
    rw [decides.1 (Bool.eq_false_iff.2 skipped)] at refused
    cases refused

/-- A comment behind a tab, a blank line, slashes in a string, and a character that starts no
token. -/
theorem skips_iff_no_token_slashes :
    let text := "\t// 1 +\n \r\n\"//\" + 1\n@ // 1"
    let comment := ['\t', '/', '/', ' ', '1', ' ', '+']
    let refused := ['@', ' ', '/', '/', ' ', '1']
    ('\n' ∉ comment ∧ holdsExpression comment = false ∧
      tokenize (String.ofList comment) = .ok [Token.endOfInput 7]) ∧
    ((Text.lines text.toList)[0]? = some comment ∧ ⟨1, comment⟩ ∉ entries text) ∧
    ((Text.lines text.toList)[1]? = some [' '] ∧ ⟨2, [' ']⟩ ∉ entries text) ∧
    ((Text.lines text.toList)[2]? = some "\"//\" + 1".toList ∧
      ⟨3, "\"//\" + 1".toList⟩ ∈ entries text) ∧
    ((Text.lines text.toList)[3]? = some refused ∧ ⟨4, refused⟩ ∈ entries text) := by
  intro text comment refused
  have sameLine : '\n' ∉ comment := by decide
  have first : (Text.lines text.toList)[0]? = some comment := by decide
  have second : (Text.lines text.toList)[1]? = some [' '] := by decide
  have third : (Text.lines text.toList)[2]? = some "\"//\" + 1".toList := by decide
  have fourth : (Text.lines text.toList)[3]? = some refused := by decide
  have skipped : holdsExpression comment = false := by decide
  have blank : tokenize (String.ofList [' ']) = .ok [Token.endOfInput 1] := by decide +kernel
  have spelled : (Expr.ofSource "\"//\" + 1").isOk = true := by decide +kernel
  have stopped : tokenize (String.ofList refused) =
      .error (.atOffset (.unrecognisedToken "@") 0) := by decide +kernel
  obtain ⟨decides, each⟩ := skips_iff_no_token
  have scanned := (decides comment sameLine).1 skipped
  refine ⟨⟨sameLine, skipped, scanned⟩, ⟨first, (each text 0 comment first).1.2 scanned⟩,
    ⟨second, (each text 1 _ second).1.2 blank⟩, ⟨third, ?_⟩,
    ⟨fourth, (each text 3 _ fourth).2.2.1 _ stopped⟩⟩
  cases read : Expr.ofSource "\"//\" + 1" with
  | error report =>
      rw [read] at spelled
      cases spelled
  | ok e => exact (each text 2 _ third).2.1 e (by rwa [String.ofList_toList])

end CommandLine

end DialogueTyping
