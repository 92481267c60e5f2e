import DialogueTyping.Proofs.Token.Tiling

set_option autoImplicit false

namespace DialogueTyping

theorem Text.isBlank_eq_false {c : Char} (low : 33 ≤ c.toNat) (high : c.toNat ≤ 132) :
    isBlank c = false := by
  simp only [isBlank, blankRanges, List.any_cons, List.any_nil, Bool.or_false, Bool.or_eq_false_iff,
    Bool.and_eq_false_iff, decide_eq_false_iff_not]
  omega

namespace LexicalRule

theorem toNat_of_isDigit {c : Char} (digit : c.isDigit) : 48 ≤ c.toNat ∧ c.toNat ≤ 57 := by
  simpa [Char.isDigit, UInt32.le_iff_toNat_le] using digit

theorem toNat_of_isAlpha {c : Char} (letter : c.isAlpha) : 65 ≤ c.toNat ∧ c.toNat ≤ 122 := by
  delta Char.isAlpha Char.isUpper Char.isLower at letter
  simp only [UInt32.le_iff_toNat_le, ge_iff_le, Bool.or_eq_true, Bool.and_eq_true,
    decide_eq_true_eq] at letter
  change (65 ≤ c.toNat ∧ c.toNat ≤ 90) ∨ 97 ≤ c.toNat ∧ c.toNat ≤ 122 at letter
  omega

theorem toNat_of_isNameStart {c : Char} (start : isNameStart c) :
    65 ≤ c.toNat ∧ c.toNat ≤ 122 := by
  simp only [isNameStart, Bool.or_eq_true, decide_eq_true_eq] at start
  rcases start with letter | rfl
  · exact toNat_of_isAlpha letter
  · decide

theorem toNat_of_isNamePart {c : Char} (part : isNamePart c) : 48 ≤ c.toNat ∧ c.toNat ≤ 122 := by
  simp only [isNamePart, Char.isAlphanum, Bool.or_eq_true, decide_eq_true_eq] at part
  rcases part with (letter | digit) | rfl
  · have bounds := toNat_of_isAlpha letter
    omega
  · have bounds := toNat_of_isDigit digit
    omega
  · decide

/-- Whether a rule can take a lexeme that starts with `c`. -/
def opens : LexicalRule → Char → Bool
  | blanks, c => Text.isBlank c
  | comment, c => c = '/'
  | variableName, c => c = '$'
  | word, c => isNameStart c
  | number, c => c.isDigit
  | string, c => c = '"'
  | symbol _ spelling, c => spelling.head? = some c

theorem lexeme?_eq_none_of_opens {rule : LexicalRule} {c : Char} (text : List Char)
    (closed : rule.opens c = false) : rule.lexeme? (c :: text) = none := by
  cases rule with
  | blanks => simp_all [opens, lexeme?, run?]
  | comment =>
      apply lexeme?.eq_3
      rintro line ⟨⟩
      cases closed
  | variableName =>
      apply lexeme?.eq_5
      rintro rest ⟨⟩
      cases closed
  | word => simp_all [opens, lexeme?, name?]
  | number => simp_all [opens, lexeme?, run?]
  | string =>
      apply lexeme?.eq_9
      rintro rest ⟨⟩
      cases closed
  | symbol kind spelling =>
      rw [lexeme?.eq_10, if_neg]
      rintro ⟨nonempty, rest, joined⟩
      cases spelling with
      | nil => exact nonempty rfl
      | cons d spelling =>
          cases joined
          simp [opens] at closed

theorem first?_eq_some {before after : List LexicalRule} {rule : LexicalRule}
    {text lexeme : List Char} (order : all = before ++ rule :: after)
    (others : ∀ other ∈ before, other.lexeme? text = none)
    (taken : rule.lexeme? text = some lexeme) : first? text = some (rule, lexeme) := by
  have nothing : (before.findSome? fun other => (other.lexeme? text).map (other, ·)) = none := by
    rw [List.findSome?_eq_none_iff]
    intro other member
    rw [others other member, Option.map_none]
  rw [first?, order, List.findSome?_append, nothing, Option.none_or, List.findSome?_cons, taken]
  rfl

theorem first?_eq_some_of_opens {before after : List LexicalRule} {rule : LexicalRule} {c : Char}
    {text lexeme : List Char} (alone : ∀ other ∈ before, other.opens c = false)
    (order : all = before ++ rule :: after) (taken : rule.lexeme? (c :: text) = some lexeme) :
    first? (c :: text) = some (rule, lexeme) := by
  refine first?_eq_some order ?_ taken
  intro other member
  exact lexeme?_eq_none_of_opens text (alone other member)

theorem takeWhile_append_eq_left {keep : Char → Bool} {text rest : List Char}
    (kept : ∀ c ∈ text, keep c) (ends : ∀ c ∈ rest.head?, keep c = false) :
    (text ++ rest).takeWhile keep = text := by
  rw [List.takeWhile_append_of_pos kept]
  cases rest with
  | nil => simp
  | cons c rest => simp [ends c rfl]

/-- A letter or underscore, and letters, underscores and digits. -/
def IsName (text : List Char) : Prop :=
  ∃ c rest, text = c :: rest ∧ isNameStart c ∧ ∀ d ∈ rest, isNamePart d

def IsDigits (text : List Char) : Prop := text ≠ [] ∧ ∀ c ∈ text, c.isDigit

/-- Digits, and possibly a point and more digits. -/
def IsNumeral (text : List Char) : Prop :=
  IsDigits text ∨ ∃ whole part, text = whole ++ '.' :: part ∧ IsDigits whole ∧ IsDigits part

theorem first?_blanks {run rest : List Char} (nonempty : run ≠ [])
    (blank : ∀ c ∈ run, Text.isBlank c) (ends : ∀ c ∈ rest.head?, Text.isBlank c = false) :
    first? (run ++ rest) = some (.blanks, run) := by
  have taken : blanks.lexeme? (run ++ rest) = some run := by
    rw [lexeme?.eq_1, run?_eq_some_iff]
    exact ⟨nonempty, takeWhile_append_eq_left blank ends⟩
  have none : ∀ other ∈ ([] : List LexicalRule), other.lexeme? (run ++ rest) = none :=
    List.forall_mem_nil _
  exact first?_eq_some rfl none taken

theorem first?_comment {body rest : List Char} (sameLine : '\n' ∉ body)
    (ends : ∀ c ∈ rest.head?, c = '\n') :
    first? ('/' :: '/' :: body ++ rest) = some (.comment, '/' :: '/' :: body) := by
  have taken : comment.lexeme? ('/' :: '/' :: (body ++ rest)) = some ('/' :: '/' :: body) := by
    rw [lexeme?.eq_2, takeWhile_append_eq_left]
    · intro c member
      apply decide_eq_true
      rintro rfl
      exact sameLine member
    · intro c first
      exact decide_eq_false (not_not_intro (ends c first))
  have alone : ∀ other ∈ [blanks], other.opens '/' = false := by
    decide
  exact first?_eq_some_of_opens alone rfl taken

theorem IsName.name? {name rest : List Char} (named : IsName name)
    (ends : ∀ c ∈ rest.head?, isNamePart c = false) :
    LexicalRule.name? (name ++ rest) = some name := by
  obtain ⟨c, parts, rfl, start, kept⟩ := named
  rw [name?_eq_some_iff]
  refine ⟨c, parts ++ rest, rfl, start, ?_⟩
  rw [takeWhile_append_eq_left kept ends]

theorem first?_word {name rest : List Char} (named : IsName name)
    (ends : ∀ c ∈ rest.head?, isNamePart c = false) :
    first? (name ++ rest) = some (.word, name) := by
  have taken : word.lexeme? (name ++ rest) = some name := named.name? ends
  obtain ⟨c, parts, rfl, start, -⟩ := named
  have bounds := toNat_of_isNameStart start
  have alone : ∀ other ∈ [blanks, comment, variableName], other.opens c = false := by
    simp only [List.forall_mem_cons, opens, decide_eq_false_iff_not]
    refine ⟨Text.isBlank_eq_false (by omega) (by omega), ?_, ?_, List.forall_mem_nil _⟩
    · rintro rfl
      cases start
    · rintro rfl
      cases start
  exact first?_eq_some_of_opens alone rfl taken

theorem first?_variableName {name rest : List Char} (named : IsName name)
    (ends : ∀ c ∈ rest.head?, isNamePart c = false) :
    first? ('$' :: name ++ rest) = some (.variableName, '$' :: name) := by
  have taken : variableName.lexeme? ('$' :: (name ++ rest)) = some ('$' :: name) := by
    rw [lexeme?.eq_4, named.name? ends]
    rfl
  have alone : ∀ other ∈ [blanks, comment], other.opens '$' = false := by
    decide
  exact first?_eq_some_of_opens alone rfl taken

theorem fraction_eq_nil {rest : List Char} (ends : ∀ c ∈ rest.head?, c ≠ '.') :
    fraction rest = [] := by
  cases rest with
  | nil => rfl
  | cons c rest => rw [fraction, if_neg (ends c rfl)]

theorem run?_digits_append {digits rest : List Char} (isDigits : IsDigits digits)
    (ends : ∀ c ∈ rest.head?, c.isDigit = false) :
    run? Char.isDigit (digits ++ rest) = some digits := by
  rw [run?_eq_some_iff]
  exact ⟨isDigits.1, takeWhile_append_eq_left isDigits.2 ends⟩

theorem lexeme?_number_append {digits rest : List Char} (isDigits : IsDigits digits)
    (ends : ∀ c ∈ rest.head?, c.isDigit = false) :
    number.lexeme? (digits ++ rest) = some (digits ++ fraction rest) := by
  have left : (digits ++ rest).dropWhile Char.isDigit = rest := by
    have whole : (digits ++ rest).takeWhile Char.isDigit ++
        (digits ++ rest).dropWhile Char.isDigit = digits ++ rest :=
      List.takeWhile_append_dropWhile
    rw [takeWhile_append_eq_left isDigits.2 ends] at whole
    exact List.append_cancel_left whole
  rw [lexeme?, run?_digits_append isDigits ends, left]
  rfl

theorem first?_number {text rest : List Char} (numeral : IsNumeral text)
    (ends : ∀ c ∈ rest.head?, c.isDigit = false ∧ c ≠ '.') :
    first? (text ++ rest) = some (.number, text) := by
  have digitEnds : ∀ c ∈ rest.head?, c.isDigit = false := fun c first => (ends c first).1
  have taken : number.lexeme? (text ++ rest) = some text := by
    rcases numeral with isDigits | ⟨whole, part, rfl, isWhole, isPart⟩
    · rw [lexeme?_number_append isDigits digitEnds,
        fraction_eq_nil fun c first => (ends c first).2, List.append_nil]
    · rw [List.append_assoc, List.cons_append, lexeme?_number_append isWhole]
      · rw [fraction, if_pos rfl, run?_digits_append isPart digitEnds]
        rfl
      · rintro c ⟨⟩
        decide
  have start : ∃ c others, text = c :: others ∧ c.isDigit := by
    have first {digits : List Char} (isDigits : IsDigits digits) :
        ∃ c others, digits = c :: others ∧ c.isDigit := by
      obtain ⟨c, others, rfl⟩ := List.exists_cons_of_ne_nil isDigits.1
      exact ⟨c, others, rfl, isDigits.2 c List.mem_cons_self⟩
    rcases numeral with isDigits | ⟨whole, part, rfl, isWhole, -⟩
    · exact first isDigits
    · obtain ⟨c, others, rfl, digit⟩ := first isWhole
      exact ⟨c, _, rfl, digit⟩
  obtain ⟨c, others, rfl, digit⟩ := start
  have alone : ∀ other ∈ [blanks, comment, variableName, word], other.opens c = false := by
    have bounds := toNat_of_isDigit digit
    simp only [List.forall_mem_cons, opens, decide_eq_false_iff_not]
    refine ⟨Text.isBlank_eq_false (by omega) (by omega), ?_, ?_, ?_, List.forall_mem_nil _⟩
    · rintro rfl
      cases digit
    · rintro rfl
      cases digit
    · apply eq_false_of_ne_true
      intro start
      have later := toNat_of_isNameStart start
      omega
  exact first?_eq_some_of_opens alone rfl taken

theorem first?_string {body value : List Char} (denotes : Escape.Denotes body value)
    (rest : List Char) :
    first? ('"' :: (body ++ ['"']) ++ rest) = some (.string, '"' :: (body ++ ['"'])) := by
  have taken : string.lexeme? ('"' :: (body ++ ['"']) ++ rest) = some ('"' :: (body ++ ['"'])) := by
    have closed := denotes.closing? rest
    rw [List.cons_append, lexeme?.eq_8, List.append_assoc]
    change (Escape.closing? (body ++ '"' :: rest)).map _ = _
    rw [closed]
    rfl
  have alone : ∀ other ∈ [blanks, comment, variableName, word, number],
      other.opens '"' = false := by
    decide
  exact first?_eq_some_of_opens alone rfl taken

/-- The characters that symbols go on with after their first, and the second slash of a comment. -/
def joining : List Char := ['=', '|', '&', '>', '/']

/-- What follows a symbol adds nothing to it unless it goes on with a joining character. -/
theorem isPrefix_of_isPrefix_append {start spelling rest : List Char} (nonempty : spelling ≠ [])
    (tail : start.tail ⊆ joining) (ends : ∀ c ∈ rest.head?, c ∉ joining)
    (starts : start <+: spelling ++ rest) : start <+: spelling := by
  rcases List.prefix_or_prefix_of_prefix starts (List.prefix_append spelling rest) with
    shorter | ⟨more, rfl⟩
  · exact shorter
  · cases more with
    | nil => exact (List.append_nil spelling).symm ▸ List.prefix_rfl
    | cons c more =>
        have first : c ∈ rest.head? := by
          obtain ⟨after, rfl⟩ := (List.prefix_append_right_inj spelling).1 starts
          rfl
        have later : c ∈ (spelling ++ c :: more).tail := by
          rw [List.tail_append_of_ne_nil nonempty]
          exact List.mem_append_right _ List.mem_cons_self
        exact absurd (tail later) (ends c first)

theorem pairwise_symbols :
    symbols.Pairwise fun early late => ¬ early.2.toList <+: late.2.toList := by
  decide

theorem first?_symbol {kind : TokenKind} {spelling : String} {rest : List Char}
    (listed : (kind, spelling) ∈ symbols) (ends : ∀ c ∈ rest.head?, c ∉ joining) :
    first? (spelling.toList ++ rest) = some (.symbol kind spelling.toList, spelling.toList) := by
  have tails : ∀ entry ∈ symbols, entry.2.toList.tail ⊆ joining := by
    decide
  have nonempties : ∀ entry ∈ symbols, entry.2.toList ≠ [] := by
    decide
  have starts : ∀ entry ∈ symbols, ∀ other ∈ [blanks, variableName, word, number, string],
      entry.2.toList.head?.any other.opens = false := by
    decide
  have noComment : ∀ entry ∈ symbols, ¬ ['/', '/'] <+: entry.2.toList := by
    decide
  obtain ⟨front, back, split⟩ := List.append_of_mem listed
  have order : all = ([blanks, comment, variableName, word, number, string] ++
      front.map fun entry => symbol entry.1 entry.2.toList) ++
      symbol kind spelling.toList :: back.map fun entry => symbol entry.1 entry.2.toList := by
    rw [all, split, List.map_append, List.map_cons, List.append_assoc]
  have nonempty : spelling.toList ≠ [] := nonempties _ listed
  have unopened : ∀ other ∈ [blanks, variableName, word, number, string],
      other.lexeme? (spelling.toList ++ rest) = none := by
    intro other member
    have closed := starts _ listed other member
    obtain ⟨c, others, spelled⟩ := List.exists_cons_of_ne_nil nonempty
    rw [spelled] at closed ⊢
    exact lexeme?_eq_none_of_opens _ closed
  -- the rule for comments also starts with a slash, so only the second character tells
  have slashes : comment.lexeme? (spelling.toList ++ rest) = none := by
    apply lexeme?.eq_3
    intro line joined
    have comments : ['/', '/'] <+: spelling.toList ++ rest := ⟨line, joined.symm⟩
    exact noComment _ listed (isPrefix_of_isPrefix_append nonempty (by decide) ends comments)
  have early : ∀ entry ∈ front, ¬ entry.2.toList <+: spelling.toList := by
    have ordered := pairwise_symbols
    rw [split] at ordered
    intro entry member
    exact (List.pairwise_append.1 ordered).2.2 entry member _ List.mem_cons_self
  refine first?_eq_some order (List.forall_mem_append.2 ⟨?_, ?_⟩) ?_
  · simp only [List.forall_mem_cons] at unopened ⊢
    exact ⟨unopened.1, slashes, unopened.2⟩
  · rw [List.forall_mem_map]
    intro entry member
    have known : entry ∈ symbols := by
      rw [split]
      exact List.mem_append_left _ member
    rw [lexeme?.eq_10, if_neg]
    rintro ⟨-, starts⟩
    exact early entry member (isPrefix_of_isPrefix_append nonempty (tails entry known) ends starts)
  · rw [lexeme?.eq_10, if_pos ⟨nonempty, List.prefix_append _ _⟩]

/-- Whether every token ends before `c`. -/
def isBreak (c : Char) : Bool := !isNamePart c && c ≠ '.' && c ∉ joining

theorem isBreak_iff {c : Char} :
    isBreak c ↔ isNamePart c = false ∧ c ≠ '.' ∧ c ∉ joining := by
  simp [isBreak, and_assoc]

theorem isBreak_of_isBlank {c : Char} (blank : Text.isBlank c) : isBreak c := by
  have notPart : isNamePart c = false := by
    apply eq_false_of_ne_true
    intro part
    have bounds := toNat_of_isNamePart part
    rw [Text.isBlank_eq_false (by omega) (by omega)] at blank
    cases blank
  have unjoined : ('.' :: joining).any Text.isBlank = false := by
    decide
  have absent : c ∉ '.' :: joining := by
    intro member
    exact List.any_eq_false.1 unjoined c member blank
  rw [List.mem_cons, not_or] at absent
  exact isBreak_iff.2 ⟨notPart, absent⟩

end LexicalRule

open LexicalRule in
/-- Tokens of the kind can have this value. -/
inductive Spellable : TokenKind → String → Prop
  | number {value : String} : IsNumeral value.toList → Spellable .number value
  | variableName {name : List Char} : IsName name →
      Spellable .variableName (String.ofList ('$' :: name))
  | identifier {value : String} : IsName value.toList → (∀ kind, (value, kind) ∉ reserved) →
      Spellable .identifier value
  | reserved {word : String} {kind : TokenKind} : (word, kind) ∈ reserved → Spellable kind word
  | symbol {spelling : String} {kind : TokenKind} : (kind, spelling) ∈ symbols →
      Spellable kind spelling
  | string (value : String) : Spellable .string value

/-- How a token is written: a string between quotes and with escapes, any other token as its
value. -/
def spell (kind : TokenKind) (value : String) : List Char :=
  if kind = .string then '"' :: (Escape.encode value.toList ++ ['"']) else value.toList

namespace LexicalRule

theorem wordKind_of_mem {word : String} {kind : TokenKind} (listed : (word, kind) ∈ reserved) :
    wordKind word = kind := by
  have each : ∀ entry ∈ reserved, wordKind entry.1 = entry.2 := by
    decide
  exact each _ listed

theorem wordKind_of_forall_not_mem {word : String} (unlisted : ∀ kind, (word, kind) ∉ reserved) :
    wordKind word = .identifier := by
  rw [wordKind]
  cases found : reserved.lookup word with
  | none => rfl
  | some kind =>
      obtain ⟨before, after, split, -⟩ := List.lookup_eq_some_iff.1 found
      exact absurd (split ▸ List.mem_append_right _ List.mem_cons_self) (unlisted kind)

theorem isName_of_mem_reserved {word : String} {kind : TokenKind}
    (listed : (word, kind) ∈ reserved) : IsName word.toList := by
  have each : ∀ entry ∈ reserved, entry.1.toList.head?.any isNameStart ∧
      entry.1.toList.tail.all isNamePart := by
    decide
  obtain ⟨start, parts⟩ := each _ listed
  cases spelled : word.toList with
  | nil =>
      rw [spelled] at start
      cases start
  | cons c rest =>
      rw [spelled] at start parts
      exact ⟨c, rest, rfl, start, List.all_eq_true.1 parts⟩

/-- A token is read back from its spelling when a break or the end of the text follows. -/
theorem first?_spell {kind : TokenKind} {value : String} {rest : List Char}
    (spellable : Spellable kind value) (ends : ∀ c ∈ rest.head?, isBreak c) :
    ∃ rule, first? (spell kind value ++ rest) = some (rule, spell kind value) ∧
      rule.token? (spell kind value) = some (kind, value) := by
  have partEnds : ∀ c ∈ rest.head?, isNamePart c = false := by
    intro c first
    exact (isBreak_iff.1 (ends c first)).1
  have symbolEnds : ∀ c ∈ rest.head?, c ∉ joining := by
    intro c first
    exact (isBreak_iff.1 (ends c first)).2.2
  have numeralEnds : ∀ c ∈ rest.head?, c.isDigit = false ∧ c ≠ '.' := by
    intro c first
    obtain ⟨notPart, notPoint, -⟩ := isBreak_iff.1 (ends c first)
    refine ⟨?_, notPoint⟩
    simp only [isNamePart, Char.isAlphanum, Bool.or_eq_false_iff] at notPart
    exact notPart.1.2
  cases spellable with
  | number numeral =>
      have made : number.token? value.toList = some (.number, value) := by
        rw [token?, String.ofList_toList]
      exact ⟨.number, first?_number numeral numeralEnds, made⟩
  | @variableName name named =>
      have spelled : spell .variableName (String.ofList ('$' :: name)) = '$' :: name :=
        String.toList_ofList
      rw [spelled]
      exact ⟨.variableName, first?_variableName named partEnds, rfl⟩
  | identifier named unlisted =>
      have made : word.token? value.toList = some (.identifier, value) := by
        rw [token?, String.ofList_toList, wordKind_of_forall_not_mem unlisted]
      exact ⟨.word, first?_word named partEnds, made⟩
  | reserved listed =>
      have notString : kind ≠ .string := ne_string_of_mem_reserved _ listed
      have made : word.token? value.toList = some (kind, value) := by
        rw [token?, String.ofList_toList, wordKind_of_mem listed]
      rw [spell, if_neg notString]
      exact ⟨.word, first?_word (isName_of_mem_reserved listed) partEnds, made⟩
  | symbol listed =>
      have notString : kind ≠ .string := ne_string_of_mem_symbols _ listed
      rw [spell, if_neg notString]
      refine ⟨_, first?_symbol listed symbolEnds, ?_⟩
      rw [token?, String.ofList_toList]
  | string =>
      have denotes := Escape.denotes_encode value.toList
      have made : string.token? ('"' :: (Escape.encode value.toList ++ ['"'])) =
          some (.string, value) := by
        rw [token?, List.drop_one, List.tail_cons, List.dropLast_concat, denotes.decode,
          String.ofList_toList]
      exact ⟨.string, first?_string denotes rest, made⟩

theorem isName_of_name? {text name : List Char} (found : name? text = some name) : IsName name := by
  obtain ⟨c, rest, -, start, rfl⟩ := name?_eq_some_iff.1 found
  exact ⟨c, _, rfl, start, fun d member => List.mem_takeWhile_imp member⟩

theorem isDigits_of_run? {text digits : List Char} (found : run? Char.isDigit text = some digits) :
    IsDigits digits := by
  obtain ⟨nonempty, rfl⟩ := run?_eq_some_iff.1 found
  exact ⟨nonempty, fun c member => List.mem_takeWhile_imp member⟩

theorem isName_of_lexeme?_variableName {text lexeme : List Char}
    (found : variableName.lexeme? text = some lexeme) :
    ∃ name, lexeme = '$' :: name ∧ IsName name := by
  by_cases dollar : ∃ rest, text = '$' :: rest
  · obtain ⟨rest, rfl⟩ := dollar
    rw [lexeme?.eq_4] at found
    obtain ⟨name, named, rfl⟩ := Option.map_eq_some_iff.1 found
    exact ⟨name, rfl, isName_of_name? named⟩
  · rw [lexeme?.eq_5 text fun rest same => dollar ⟨rest, same⟩] at found
    cases found

theorem fraction_eq_nil_or (text : List Char) :
    fraction text = [] ∨ ∃ part, fraction text = '.' :: part ∧ IsDigits part := by
  cases text with
  | nil => exact Or.inl rfl
  | cons c rest =>
      rw [fraction]
      split
      · rename_i point
        cases found : run? Char.isDigit rest with
        | none => exact Or.inl rfl
        | some part => exact Or.inr ⟨part, by rw [point]; rfl, isDigits_of_run? found⟩
      · exact Or.inl rfl

theorem isNumeral_of_lexeme? {text lexeme : List Char}
    (found : number.lexeme? text = some lexeme) : IsNumeral lexeme := by
  rw [lexeme?] at found
  obtain ⟨whole, taken, rfl⟩ := Option.map_eq_some_iff.1 found
  have isWhole := isDigits_of_run? taken
  rcases fraction_eq_nil_or (text.dropWhile Char.isDigit) with none | ⟨part, some, isPart⟩
  · rw [none, List.append_nil]
    exact Or.inl isWhole
  · exact Or.inr ⟨whole, part, by rw [some], isWhole, isPart⟩

theorem spellable_wordKind {name : List Char} (named : IsName name) :
    Spellable (wordKind (String.ofList name)) (String.ofList name) := by
  by_cases listed : ∃ kind, (String.ofList name, kind) ∈ reserved
  · obtain ⟨kind, listed⟩ := listed
    rw [wordKind_of_mem listed]
    exact .reserved listed
  · have unlisted : ∀ kind, (String.ofList name, kind) ∉ reserved :=
      fun kind member => listed ⟨kind, member⟩
    rw [wordKind_of_forall_not_mem unlisted]
    exact .identifier (by rwa [String.toList_ofList]) unlisted

theorem spellable_of_token? {rule : LexicalRule} {text lexeme : List Char} {kind : TokenKind}
    {value : String} (known : rule ∈ all) (found : rule.lexeme? text = some lexeme)
    (made : rule.token? lexeme = some (kind, value)) : Spellable kind value := by
  cases rule with
  | blanks | comment => cases made
  | variableName =>
      obtain ⟨name, rfl, named⟩ := isName_of_lexeme?_variableName found
      cases made
      exact .variableName named
  | word =>
      cases made
      exact spellable_wordKind (isName_of_name? found)
  | number =>
      cases made
      exact .number (by rw [String.toList_ofList]; exact isNumeral_of_lexeme? found)
  | string =>
      cases made
      exact .string _
  | symbol symbolKind spelling =>
      obtain ⟨listedText, rfl, member⟩ := mem_symbols_of_mem_all known
      rw [lexeme?.eq_10] at found
      split at found <;> cases found
      cases made
      rw [String.ofList_toList]
      exact .symbol member

end LexicalRule

end DialogueTyping
