import DialogueTyping.Proofs.Token.Refused

set_option autoImplicit false

/-
Maximal munch. `Matches` says which texts a rule stands for, whatever comes behind them, and
`Munched` how a text is cut without any order of the rules. Of two rules that both take something
the one that is tried earlier takes more, so both come to the same.
-/

namespace DialogueTyping

theorem Text.byteLength_lt_of_isPrefix {first second : List Char} (starts : first <+: second)
    (shorter : first.length < second.length) : byteLength first < byteLength second := by
  obtain ⟨more, rfl⟩ := starts
  have positive := length_le_byteLength more
  rw [List.length_append] at shorter
  rw [byteLength_append]
  omega

namespace LexicalRule

inductive Matches : LexicalRule → List Char → Prop
  | blanks {run : List Char} : run ≠ [] → (∀ c ∈ run, Text.isBlank c) → Matches .blanks run
  | comment {body : List Char} : '\n' ∉ body → Matches .comment ('/' :: '/' :: body)
  | variableName {name : List Char} : IsName name → Matches .variableName ('$' :: name)
  | word {name : List Char} : IsName name → Matches .word name
  | number {text : List Char} : IsNumeral text → Matches .number text
  | string {body value : List Char} : Escape.Denotes body value →
      Matches .string ('"' :: (body ++ ['"']))
  | symbol {kind : TokenKind} {spelling : List Char} : spelling ≠ [] →
      Matches (.symbol kind spelling) spelling

/-- Of all starts of `text` that the rule matches, `lexeme` is the longest. -/
structure Longest (rule : LexicalRule) (text lexeme : List Char) : Prop where
  matched : rule.Matches lexeme
  starts : lexeme <+: text
  longest : ∀ start, rule.Matches start → start <+: text → start.length ≤ lexeme.length

theorem matches_of_lexeme? {rule : LexicalRule} {text lexeme : List Char}
    (found : rule.lexeme? text = some lexeme) : rule.Matches lexeme := by
  cases rule with
  | blanks =>
      obtain ⟨nonempty, rfl⟩ := run?_eq_some_iff.1 found
      exact .blanks nonempty fun c member => List.mem_takeWhile_imp member
  | comment =>
      obtain ⟨line, -, rfl⟩ := lexeme?_comment_eq_some_iff.1 found
      refine .comment ?_
      intro member
      simpa using List.mem_takeWhile_imp member
  | variableName =>
      obtain ⟨name, rfl, named⟩ := isName_of_lexeme?_variableName found
      exact .variableName named
  | word => exact .word (isName_of_name? found)
  | number => exact .number (isNumeral_of_lexeme? found)
  | string =>
      obtain ⟨rest, closed, -, closing, rfl⟩ := lexeme?_string_eq_some_iff.1 found
      obtain ⟨body, rfl, denotes⟩ := Escape.closing?_eq_some closing
      exact .string denotes
  | symbol kind spelling =>
      rw [lexeme?.eq_10] at found
      split at found
      · rename_i spelled
        cases found
        exact .symbol spelled.1
      · cases found

theorem isPrefix_takeWhile {keep : Char → Bool} {start text : List Char}
    (kept : ∀ c ∈ start, keep c) (starts : start <+: text) : start <+: text.takeWhile keep := by
  obtain ⟨rest, rfl⟩ := starts
  rw [List.takeWhile_append_of_pos kept]
  exact List.prefix_append _ _

theorem exists_run? {keep : Char → Bool} {start text : List Char} (nonempty : start ≠ [])
    (kept : ∀ c ∈ start, keep c) (starts : start <+: text) :
    ∃ run, run? keep text = some run ∧ start <+: run := by
  have longer := isPrefix_takeWhile kept starts
  have taken : text.takeWhile keep ≠ [] := by
    intro none
    rw [none, List.prefix_nil] at longer
    exact nonempty longer
  exact ⟨_, run?_eq_some_iff.2 ⟨taken, rfl⟩, longer⟩

theorem IsName.exists_name? {name text : List Char} (named : IsName name) (starts : name <+: text) :
    ∃ longer, LexicalRule.name? text = some longer ∧ name <+: longer := by
  obtain ⟨c, parts, rfl, start, kept⟩ := named
  obtain ⟨rest, rfl⟩ := starts
  refine ⟨_, name?_eq_some_iff.2 ⟨c, parts ++ rest, rfl, start, rfl⟩, ?_⟩
  exact List.cons_prefix_cons.2 ⟨rfl, isPrefix_takeWhile kept (List.prefix_append _ _)⟩

theorem IsNumeral.exists_lexeme? {numeral text : List Char} (isNumeral : IsNumeral numeral)
    (starts : numeral <+: text) :
    ∃ longer, number.lexeme? text = some longer ∧ numeral <+: longer := by
  rcases isNumeral with isDigits | ⟨whole, part, rfl, isWhole, isPart⟩
  · obtain ⟨digits, taken, longer⟩ := exists_run? isDigits.1 isDigits.2 starts
    have found : number.lexeme? text = some (digits ++ fraction (text.dropWhile Char.isDigit)) := by
      rw [lexeme?, taken]
      rfl
    exact ⟨_, found, longer.trans (List.prefix_append _ _)⟩
  · -- the point ends the first digits, so those behind it are taken as the fraction
    obtain ⟨rest, rfl⟩ := starts
    have ends : ∀ c ∈ ('.' :: (part ++ rest)).head?, c.isDigit = false := by
      rintro c ⟨⟩
      decide
    obtain ⟨digits, taken, longer⟩ :=
      exists_run? isPart.1 isPart.2 (List.prefix_append part rest)
    have fractional : fraction ('.' :: (part ++ rest)) = '.' :: digits :=
      fraction_eq_cons_iff.2 ⟨_, rfl, taken, rfl⟩
    refine ⟨whole ++ '.' :: digits, ?_, ?_⟩
    · rw [List.append_assoc, List.cons_append, lexeme?_number_append isWhole ends, fractional]
    · rw [List.prefix_append_right_inj, List.cons_prefix_cons]
      exact ⟨rfl, longer⟩

theorem Matches.exists_lexeme? {rule : LexicalRule} {start text : List Char}
    (matched : rule.Matches start) (starts : start <+: text) :
    ∃ lexeme, rule.lexeme? text = some lexeme ∧ start <+: lexeme := by
  cases matched with
  | blanks nonempty blank => exact exists_run? nonempty blank starts
  | @comment body sameLine =>
      obtain ⟨rest, rfl⟩ := starts
      refine ⟨_, lexeme?_comment_eq_some_iff.2 ⟨body ++ rest, rfl, rfl⟩, ?_⟩
      simp only [List.cons_prefix_cons, true_and]
      refine isPrefix_takeWhile ?_ (List.prefix_append _ _)
      intro c member
      apply decide_eq_true
      rintro rfl
      exact sameLine member
  | @variableName name named =>
      obtain ⟨rest, rfl⟩ := starts
      obtain ⟨longer, taken, more⟩ := named.exists_name? (List.prefix_append name rest)
      refine ⟨'$' :: longer, ?_, List.cons_prefix_cons.2 ⟨rfl, more⟩⟩
      rw [List.cons_append, lexeme?.eq_4, taken]
      rfl
  | word named => exact named.exists_name? starts
  | number isNumeral => exact isNumeral.exists_lexeme? starts
  | @string body value denotes =>
      obtain ⟨rest, rfl⟩ := starts
      have split : '"' :: (body ++ ['"']) ++ rest = '"' :: (body ++ '"' :: rest) := by
        rw [List.cons_append, List.append_assoc]
        rfl
      have taken := lexeme?_string_eq_some_iff.2 ⟨_, _, split, denotes.closing? rest, rfl⟩
      exact ⟨_, taken, List.prefix_rfl⟩
  | symbol nonempty =>
      refine ⟨start, ?_, List.prefix_rfl⟩
      rw [lexeme?.eq_10, if_pos ⟨nonempty, starts⟩]

theorem lexeme?_eq_some_iff {rule : LexicalRule} {text lexeme : List Char} :
    rule.lexeme? text = some lexeme ↔ rule.Longest text lexeme := by
  constructor
  · intro found
    refine ⟨matches_of_lexeme? found, lexeme?_isPrefix found, ?_⟩
    intro start matched starts
    obtain ⟨taken, foundAgain, shorter⟩ := matched.exists_lexeme? starts
    rw [found] at foundAgain
    cases foundAgain
    exact shorter.length_le
  · rintro ⟨matched, starts, longest⟩
    obtain ⟨taken, found, shorter⟩ := matched.exists_lexeme? starts
    have bound := longest taken (matches_of_lexeme? found) (lexeme?_isPrefix found)
    rw [found, shorter.eq_of_length_le bound]

theorem Matches.ne_nil {rule : LexicalRule} {text : List Char} (matched : rule.Matches text) :
    text ≠ [] := by
  rintro rfl
  obtain ⟨lexeme, found, -⟩ := matched.exists_lexeme? List.prefix_rfl
  exact lexeme?_ne_nil found (List.prefix_nil.1 (lexeme?_isPrefix found))

theorem exists_opens_of_lexeme? {rule : LexicalRule} {text lexeme : List Char}
    (found : rule.lexeme? text = some lexeme) : ∃ c rest, text = c :: rest ∧ rule.opens c := by
  cases text with
  | nil => exact absurd (List.prefix_nil.1 (lexeme?_isPrefix found)) (lexeme?_ne_nil found)
  | cons c rest =>
      refine ⟨c, rest, rfl, ?_⟩
      by_contra closed
      rw [lexeme?_eq_none_of_opens rest (eq_false_of_ne_true closed)] at found
      cases found

/-- The characters that comments, variables and strings start with. -/
def marks : List Char := ['/', '$', '"']

/-- The one form that can take a lexeme starting with `c`. -/
def formOf (c : Char) : LexicalRule :=
  if c = '/' then comment
  else if c = '$' then variableName
  else if c = '"' then string
  else if c.isDigit then number
  else if isNameStart c then word
  else blanks

theorem formOf_of_unmarked {c : Char} (unmarked : c ∉ marks) :
    formOf c = if c.isDigit then number else if isNameStart c then word else blanks := by
  simp only [marks, List.mem_cons, List.not_mem_nil, or_false, not_or] at unmarked
  obtain ⟨notSlash, notDollar, notQuote⟩ := unmarked
  rw [formOf, if_neg notSlash, if_neg notDollar, if_neg notQuote]

theorem eq_formOf_of_opens {rule : LexicalRule} {c : Char} (form : rule ∈ forms)
    (opened : rule.opens c) : rule = formOf c := by
  have unmarked (plain : rule ∈ [blanks, word, number]) : c ∉ marks := by
    have none : ∀ other ∈ [blanks, word, number], marks.any other.opens = false := by
      decide
    intro member
    exact List.any_eq_false.1 (none rule plain) c member opened
  cases rule with
  | comment | variableName | string =>
      cases of_decide_eq_true opened
      rfl
  | symbol kind spelling => simp [forms] at form
  | number =>
      have digit : c.isDigit := opened
      rw [formOf_of_unmarked (unmarked (by decide)), if_pos digit]
  | word =>
      have start : isNameStart c := opened
      have bounds := toNat_of_isNameStart start
      have notDigit : ¬ c.isDigit := by
        intro digit
        have digitBounds := toNat_of_isDigit digit
        omega
      rw [formOf_of_unmarked (unmarked (by decide)), if_neg notDigit, if_pos start]
  | blanks =>
      have outside : ¬ (33 ≤ c.toNat ∧ c.toNat ≤ 132) := by
        rintro ⟨low, high⟩
        rw [opens, Text.isBlank_eq_false low high] at opened
        cases opened
      have notDigit : ¬ c.isDigit := by
        intro digit
        have bounds := toNat_of_isDigit digit
        omega
      have notStart : ¬ isNameStart c := by
        intro start
        have bounds := toNat_of_isNameStart start
        omega
      rw [formOf_of_unmarked (unmarked (by decide)), if_neg notDigit, if_neg notStart]

/-- Wherever both rules take something, `early` takes more. -/
def Outruns (early late : LexicalRule) : Prop :=
  ∀ text long short, early.lexeme? text = some long → late.lexeme? text = some short →
    short.length < long.length

/-- No two forms take something from one text. -/
theorem outruns_of_forms {early late : LexicalRule} (first : early ∈ forms) (second : late ∈ forms)
    (different : early ≠ late) : early.Outruns late := by
  intro text long short taken takenLate
  obtain ⟨c, rest, rfl, opened⟩ := exists_opens_of_lexeme? taken
  obtain ⟨_, _, ⟨⟩, openedLate⟩ := exists_opens_of_lexeme? takenLate
  have same := (eq_formOf_of_opens first opened).trans (eq_formOf_of_opens second openedLate).symm
  exact absurd same different

theorem length_lt_of_not_isPrefix {first second text : List Char} (one : first <+: text)
    (other : second <+: text) (apart : ¬ first <+: second) : second.length < first.length := by
  by_contra shorter
  exact apart (List.prefix_of_prefix_length_le one other (Nat.le_of_not_lt shorter))

theorem isPrefix_of_lexeme?_symbol {kind : TokenKind} {spelling text lexeme : List Char}
    (found : (symbol kind spelling).lexeme? text = some lexeme) :
    lexeme = spelling ∧ spelling <+: text := by
  have same : lexeme = spelling := by
    cases matches_of_lexeme? found
    rfl
  exact ⟨same, same ▸ lexeme?_isPrefix found⟩

theorem outruns_of_symbols {first second : TokenKind} {early late : List Char}
    (apart : ¬ early <+: late) : (symbol first early).Outruns (symbol second late) := by
  intro text long short taken takenLate
  obtain ⟨rfl, starts⟩ := isPrefix_of_lexeme?_symbol taken
  obtain ⟨rfl, startsLate⟩ := isPrefix_of_lexeme?_symbol takenLate
  exact length_lt_of_not_isPrefix starts startsLate apart

/-- Only comments start with a character that a symbol starts with, and they go on otherwise. -/
theorem outruns_of_form_symbol {form : LexicalRule} {entry : TokenKind × String}
    (known : form ∈ forms) (listed : entry ∈ symbols) :
    form.Outruns (symbol entry.1 entry.2.toList) := by
  have noComment : ∀ entry ∈ symbols, ¬ ['/', '/'] <+: entry.2.toList := by
    decide
  have unopened : ∀ form ∈ forms, form ≠ comment → ∀ entry ∈ symbols,
      entry.2.toList.head?.any form.opens = false := by
    decide
  intro text long short taken takenLate
  by_cases slashes : form = comment
  · subst slashes
    obtain ⟨rfl, starts⟩ := isPrefix_of_lexeme?_symbol takenLate
    obtain ⟨line, rfl, rfl⟩ := lexeme?_comment_eq_some_iff.1 taken
    have shorter := length_lt_of_not_isPrefix ⟨line, rfl⟩ starts (noComment entry listed)
    simp only [List.length_cons, List.length_nil] at shorter ⊢
    omega
  · obtain ⟨c, rest, rfl, opened⟩ := exists_opens_of_lexeme? taken
    obtain ⟨_, _, ⟨⟩, openedLate⟩ := exists_opens_of_lexeme? takenLate
    have closed := unopened form known slashes entry listed
    rw [of_decide_eq_true openedLate, Option.any_some, opened] at closed
    cases closed

theorem pairwise_longer : all.Pairwise Outruns := by
  have distinct : forms.Pairwise (· ≠ ·) := by
    decide
  refine List.pairwise_append.2 ⟨?_, ?_, ?_⟩
  · exact distinct.imp_of_mem outruns_of_forms
  · exact List.pairwise_map.2 (pairwise_symbols.imp outruns_of_symbols)
  · intro form known
    rw [List.forall_mem_map]
    intro entry listed
    exact outruns_of_form_symbol known listed

/-- Of all that the rules match at the start of `text`, `lexeme` is the longest, and `rule` is the
only one that matches so much. -/
structure Munches (text : List Char) (rule : LexicalRule) (lexeme : List Char) : Prop where
  known : rule ∈ all
  matched : rule.Matches lexeme
  starts : lexeme <+: text
  longest : ∀ other ∈ all, ∀ start, other.Matches start → start <+: text →
    start.length ≤ lexeme.length
  alone : ∀ other ∈ all, other.Matches lexeme → other = rule

theorem Munches.unique {text one other : List Char} {first second : LexicalRule}
    (munches : Munches text first one) (munchesToo : Munches text second other) :
    (first, one) = (second, other) := by
  have atMost := munchesToo.longest first munches.known one munches.matched munches.starts
  have atLeast := munches.longest second munchesToo.known other munchesToo.matched munchesToo.starts
  have inside := List.prefix_of_prefix_length_le munches.starts munchesToo.starts atMost
  cases inside.eq_of_length_le atLeast
  rw [munchesToo.alone first munches.known munches.matched]

/-- The rules before the first that takes something take nothing, and those behind it take less. -/
theorem exists_order_of_first? {text lexeme : List Char} {rule : LexicalRule}
    (found : first? text = some (rule, lexeme)) :
    ∃ before after, all = before ++ rule :: after ∧
      (∀ other ∈ before, other.lexeme? text = none) ∧ rule.lexeme? text = some lexeme ∧
      ∀ other ∈ after, ∀ shorter, other.lexeme? text = some shorter →
        shorter.length < lexeme.length := by
  obtain ⟨before, winner, after, order, taken, others⟩ := List.findSome?_eq_some_iff.1 found
  obtain ⟨_, taken, ⟨⟩⟩ := Option.map_eq_some_iff.1 taken
  refine ⟨before, after, order, ?_, taken, ?_⟩
  · intro other member
    exact Option.map_eq_none_iff.1 (others other member)
  · have outruns := pairwise_longer
    rw [order] at outruns
    intro other member shorter takenLate
    have behind := (List.pairwise_cons.1 (List.pairwise_append.1 outruns).2.1).1 other member
    exact behind text lexeme shorter taken takenLate

theorem munches_of_first? {text lexeme : List Char} {rule : LexicalRule}
    (found : first? text = some (rule, lexeme)) : Munches text rule lexeme := by
  obtain ⟨before, after, order, nothing, taken, less⟩ := exists_order_of_first? found
  have starts := lexeme?_isPrefix taken
  -- what another rule matches is part of what it takes, and that is less
  have compare : ∀ other ∈ all, ∀ start, other.Matches start → start <+: text →
      start.length < lexeme.length ∨ other = rule ∧ start.length ≤ lexeme.length := by
    intro other member start matched startsToo
    obtain ⟨longer, takenToo, inside⟩ := matched.exists_lexeme? startsToo
    have bound := inside.length_le
    rw [order, List.mem_append, List.mem_cons] at member
    rcases member with early | rfl | late
    · rw [nothing other early] at takenToo
      cases takenToo
    · rw [taken] at takenToo
      cases takenToo
      exact Or.inr ⟨rfl, bound⟩
    · exact Or.inl (Nat.lt_of_le_of_lt bound (less other late longer takenToo))
  refine ⟨(first?_mem found).1, matches_of_lexeme? taken, starts, ?_, ?_⟩
  · intro other member start matched startsToo
    rcases compare other member start matched startsToo with shorter | ⟨-, bound⟩
    · exact Nat.le_of_lt shorter
    · exact bound
  · intro other member matched
    rcases compare other member lexeme matched starts with shorter | ⟨same, -⟩
    · exact absurd shorter (Nat.lt_irrefl _)
    · exact same

theorem first?_eq_none_iff_unmatched {text : List Char} : first? text = none ↔
    ∀ rule ∈ all, ∀ start, rule.Matches start → ¬ start <+: text := by
  rw [first?, List.findSome?_eq_none_iff]
  simp only [Option.map_eq_none_iff]
  constructor
  · intro nothing rule member start matched starts
    obtain ⟨lexeme, taken, -⟩ := matched.exists_lexeme? starts
    rw [nothing rule member] at taken
    cases taken
  · intro unmatched rule member
    apply Option.eq_none_iff_forall_ne_some.2
    intro lexeme taken
    exact unmatched rule member lexeme (matches_of_lexeme? taken) (lexeme?_isPrefix taken)

theorem exists_first?_of_matches {rule : LexicalRule} {start text : List Char} (known : rule ∈ all)
    (matched : rule.Matches start) (starts : start <+: text) :
    ∃ winner lexeme, first? text = some (winner, lexeme) := by
  cases found : first? text with
  | none => exact absurd starts (first?_eq_none_iff_unmatched.1 found rule known start matched)
  | some pair => exact ⟨pair.1, pair.2, rfl⟩

theorem first?_eq_some_iff {text lexeme : List Char} {rule : LexicalRule} :
    first? text = some (rule, lexeme) ↔ Munches text rule lexeme := by
  refine ⟨munches_of_first?, ?_⟩
  intro munches
  obtain ⟨winner, longest, found⟩ :=
    exists_first?_of_matches munches.known munches.matched munches.starts
  rw [found, munches.unique (munches_of_first? found)]

end LexicalRule

/-- The text is cut by maximal munch: each piece is the longest match at its place, until no rule
matches. -/
inductive Munched : List Char → Cut → Prop
  | stuck {text : List Char} :
      (∀ rule ∈ LexicalRule.all, ∀ start, rule.Matches start → ¬ start <+: text) →
      Munched text ⟨[], text⟩
  | munch {rule : LexicalRule} {lexeme rest : List Char} {cut : Cut} :
      LexicalRule.Munches (lexeme ++ rest) rule lexeme → Munched rest cut →
      Munched (lexeme ++ rest) ⟨⟨rule, lexeme⟩ :: cut.pieces, cut.rest⟩

theorem Cut.munched (text : List Char) : Munched text (ofText text) := by
  fun_induction ofText text with
  | case1 text nothing => exact .stuck (LexicalRule.first?_eq_none_iff_unmatched.1 nothing)
  | case2 text rule lexeme found _ cut ih =>
      have munches := LexicalRule.munches_of_first? found
      obtain ⟨rest, rfl⟩ := munches.starts
      rw [List.drop_left] at ih
      have remains : cut = ofText rest := congrArg ofText List.drop_left
      rw [remains]
      exact .munch munches ih

theorem Munched.ofText {text : List Char} {cut : Cut} (munched : Munched text cut) :
    Cut.ofText text = cut := by
  induction munched with
  | stuck unmatched =>
      exact Consumed.nil.ofText (LexicalRule.first?_eq_none_iff_unmatched.2 unmatched)
  | munch munches _ ih =>
      rw [Cut.ofText_append (LexicalRule.first?_eq_some_iff.2 munches), ih]

theorem munched_iff {text : List Char} {cut : Cut} : Munched text cut ↔ Cut.ofText text = cut := by
  refine ⟨Munched.ofText, ?_⟩
  rintro rfl
  exact Cut.munched text

open LexicalRule in
/-- The first rule in order that matches at the start of a text has a longer match than every other
rule, so the rules in their order cut every text by maximal munch. -/
theorem LexicalRule.first?_longest :
    (∀ text start rule, rule ∈ all → rule.Matches start → start <+: text →
      ∃ before winner after lexeme, all = before ++ winner :: after ∧
        (∀ other ∈ before, other.lexeme? text = none) ∧ winner.lexeme? text = some lexeme ∧
        first? text = some (winner, lexeme) ∧
        ∀ other ∈ before ++ after, ∀ shorter, other.lexeme? text = some shorter →
          Text.byteLength shorter < Text.byteLength lexeme) ∧
    (∀ (rule : LexicalRule) (text lexeme : List Char),
      rule.lexeme? text = some lexeme ↔ rule.Longest text lexeme) ∧
    (∀ (rule : LexicalRule) (text : List Char), rule.Matches text → text ≠ []) ∧
    ∀ text cut, Munched text cut ↔ Cut.ofText text = cut := by
  refine ⟨?_, fun _ _ _ => lexeme?_eq_some_iff, fun _ _ matched => matched.ne_nil,
    fun _ _ => munched_iff⟩
  intro text start rule known matched starts
  obtain ⟨winner, lexeme, found⟩ := exists_first?_of_matches known matched starts
  obtain ⟨before, after, order, nothing, taken, less⟩ := exists_order_of_first? found
  refine ⟨before, winner, after, lexeme, order, nothing, taken, found, ?_⟩
  intro other member shorter takenToo
  rcases List.mem_append.1 member with early | late
  · rw [nothing other early] at takenToo
    cases takenToo
  · have shorterLength := less other late shorter takenToo
    have inside := List.prefix_of_prefix_length_le (lexeme?_isPrefix takenToo)
      (lexeme?_isPrefix taken) (Nat.le_of_lt shorterLength)
    exact Text.byteLength_lt_of_isPrefix inside shorterLength

open LexicalRule in
/-- A comment, whose first slash is a symbol too, and an arrow, whose dash is one. -/
theorem LexicalRule.first?_longest_slashes :
    let text := ['/', '/', '=', 'é', '\n', '-', '>', '=', '=']
    let line := ['/', '/', '=', 'é']
    let slash := symbol .slash ['/']
    (comment ∈ all ∧ comment.Matches ['/', '/'] ∧ ['/', '/'] <+: text) ∧
    (slash ∈ all ∧ slash.lexeme? text = some ['/']) ∧
    first? text = some (comment, line) ∧ Text.byteLength ['/'] < Text.byteLength line ∧
    comment.Longest text line ∧ line ≠ [] ∧
    Munched text ⟨[⟨comment, line⟩, ⟨blanks, ['\n']⟩, ⟨symbol .arrow ['-', '>'], ['-', '>']⟩,
      ⟨symbol .equals ['=', '='], ['=', '=']⟩], []⟩ := by
  intro text line slash
  have known : comment ∈ all ∧ slash ∈ all := by decide
  have matched : comment.Matches ['/', '/'] := .comment (by decide)
  have starts : ['/', '/'] <+: text := by decide
  have taken : slash.lexeme? text = some ['/'] := by decide
  have takesLine : comment.lexeme? text = some line := by decide
  obtain ⟨compares, longest, nonempty, munched⟩ := first?_longest
  have isLongest := (longest comment text line).1 takesLine
  obtain ⟨before, winner, after, lexeme, order, -, -, found, less⟩ :=
    compares text _ comment known.1 matched starts
  have first : first? text = some (comment, line) := by decide
  cases first.symm.trans found
  have other : slash ∈ before ++ after := by
    have member := known.2
    rw [order, List.mem_append, List.mem_cons] at member
    rcases member with early | same | late
    · exact List.mem_append_left _ early
    · exact absurd same (by decide)
    · exact List.mem_append_right _ late
  exact ⟨⟨known.1, matched, starts⟩, ⟨known.2, taken⟩, first, less slash other _ taken, isLongest,
    nonempty comment line isLongest.matched, (munched _ _).2 (by decide +kernel)⟩

end DialogueTyping
