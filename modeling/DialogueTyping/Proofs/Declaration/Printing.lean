import DialogueTyping.Proofs.Declaration.Spelling
import DialogueTyping.Proofs.Token.Layout
import DialogueTyping.Proofs.Typing.Filling

set_option autoImplicit false

namespace DialogueTyping

/-- A dollar sign and a name. -/
def IsVariableName (name : String) : Prop :=
  ∃ rest, name = String.ofList ('$' :: rest) ∧ LexicalRule.IsName rest

/-- A name that is no reserved word. -/
def IsIdentifier (name : String) : Prop :=
  LexicalRule.IsName name.toList ∧ ∀ kind, (name, kind) ∉ LexicalRule.reserved

def Parameter.WellNamed (parameter : Parameter) : Prop := ∀ name ∈ parameter.name, IsIdentifier name

def Declaration.WellNamed : Declaration → Prop
  | variableOf name _ => IsVariableName name
  | functionOf name signature =>
    IsIdentifier name ∧ ∀ parameter ∈ signature.parameters, parameter.WellNamed

def Table.WellNamed (table : Table) : Prop :=
  ∀ declaration ∈ table.declarations, declaration.WellNamed

theorem spellable_variableName_iff {name : String} :
    Spellable .variableName name ↔ IsVariableName name := by
  constructor
  · intro spellable
    cases spellable with
    | variableName named => exact ⟨_, rfl, named⟩
    | reserved listed => simp [LexicalRule.reserved] at listed
    | symbol listed => simp [LexicalRule.symbols] at listed
  · rintro ⟨rest, rfl, named⟩
    exact .variableName named

theorem spellable_identifier_iff {name : String} :
    Spellable .identifier name ↔ IsIdentifier name := by
  constructor
  · intro spellable
    cases spellable with
    | identifier named unlisted => exact ⟨named, unlisted⟩
    | reserved listed => simp [LexicalRule.reserved] at listed
    | symbol listed => simp [LexicalRule.symbols] at listed
  · rintro ⟨named, unlisted⟩
    exact .identifier named unlisted

def Ty.word (type : Ty) : TokenKind × String := (type.kind, type.sourceName)

def Parameter.words (parameter : Parameter) : List (TokenKind × String) :=
  match parameter.name with
  | none => [parameter.type.word]
  | some name => [(.identifier, name), (.colon, ":"), parameter.type.word]

def Signature.words (signature : Signature) : List (TokenKind × String) :=
  (.openParen, "(") :: ([(.comma, ",")].intercalate (signature.parameters.map Parameter.words) ++
    [(.closeParen, ")"), (.arrow, "->"), signature.result.word])

def Declaration.words : Declaration → List (TokenKind × String)
  | variableOf name type => [(.varWord, "var"), (.variableName, name), (.colon, ":"), type.word]
  | functionOf name signature => (.fnWord, "fn") :: (.identifier, name) :: signature.words

/-- All declarations, one on each line. -/
def Table.text (table : Table) : String :=
  "\n".intercalate (table.declarations.map Declaration.text)

/-- The text is read completely and as tokens that are these words. -/
def Written (text : List Char) (words : List (TokenKind × String)) : Prop :=
  ∀ offset, ∃ tokens, Scans offset text tokens ∧ tokens.map Token.word = words

namespace Written

variable {kind : TokenKind} {value : String} {rest : List Char} {words : List (TokenKind × String)}

theorem nil : Written [] [] := fun offset => ⟨[], .nil offset, rfl⟩

theorem blank {c : Char} (isBlank : Text.isBlank c) (later : Written rest words) :
    Written (c :: rest) words := by
  intro offset
  obtain ⟨tokens, scans, same⟩ := later (offset + c.utf8Size)
  exact ⟨tokens, .blank isBlank scans, same⟩

theorem of_rule {rule : LexicalRule} {lexeme : List Char}
    (taken : LexicalRule.first? (lexeme ++ rest) = some (rule, lexeme))
    (makes : rule.token? lexeme = some (kind, value)) (later : Written rest words) :
    Written (lexeme ++ rest) ((kind, value) :: words) := by
  intro offset
  obtain ⟨tokens, scans, same⟩ := later (offset + Text.byteLength lexeme)
  exact ⟨_, .token taken makes scans, by rw [List.map_cons, same, Token.word]⟩

theorem word (spellable : Spellable kind value) (plain : kind ≠ .string)
    (ends : ∀ c ∈ rest.head?, LexicalRule.isBreak c) (later : Written rest words) :
    Written (value.toList ++ rest) ((kind, value) :: words) := by
  obtain ⟨rule, taken, makes⟩ := LexicalRule.first?_spell spellable ends
  rw [spell, if_neg plain] at taken makes
  exact of_rule taken makes later

theorem symbol (listed : (kind, value) ∈ LexicalRule.symbols)
    (ends : ∀ c ∈ rest.head?, c ∉ LexicalRule.joining) (later : Written rest words) :
    Written (value.toList ++ rest) ((kind, value) :: words) :=
  of_rule (LexicalRule.first?_symbol listed ends)
    (by rw [LexicalRule.token?, String.ofList_toList]) later

theorem spaced (spellable : Spellable kind value) (plain : kind ≠ .string)
    (later : Written rest words) :
    Written (value.toList ++ ' ' :: rest) ((kind, value) :: words) := by
  refine word spellable plain ?_ (blank (by decide) later)
  rintro _ ⟨⟩
  decide

theorem head (text : List Char) {holds : Char → Prop} [DecidablePred holds]
    (here : text.head?.any fun c => decide (holds c)) : ∀ c ∈ (text ++ rest).head?, holds c := by
  cases text with
  | nil => cases here
  | cons c text =>
      rintro _ ⟨⟩
      exact of_decide_eq_true here

theorem type (type : Ty) (ends : ∀ c ∈ rest.head?, LexicalRule.isBreak c)
    (later : Written rest words) :
    Written (type.sourceName.toList ++ rest) (type.word :: words) := by
  apply word ?_ ?_ ends later
  · cases type with
    | unresolved => exact .symbol (by decide)
    | bool | number | string => exact .reserved (by decide)
  · cases type <;> decide

theorem typed (type : Ty) (ends : ∀ c ∈ rest.head?, LexicalRule.isBreak c)
    (later : Written rest words) :
    Written (": ".toList ++ (type.sourceName.toList ++ rest))
      ((.colon, ":") :: type.word :: words) := by
  have split : ": ".toList = ":".toList ++ [' '] := by decide
  rw [split, List.append_assoc, List.singleton_append]
  exact spaced (.symbol (by decide)) (by decide) (Written.type type ends later)

theorem parameter {parameter : Parameter} (wellNamed : parameter.WellNamed)
    (ends : ∀ c ∈ rest.head?, LexicalRule.isBreak c) (later : Written rest words) :
    Written (parameter.text.toList ++ rest) (parameter.words ++ words) := by
  obtain ⟨name, type⟩ := parameter
  cases name with
  | none => exact Written.type type ends later
  | some name =>
      have spellable := spellable_identifier_iff.2 (wellNamed name rfl)
      simp only [Parameter.text, Parameter.words, String.toList_append, List.append_assoc,
        List.cons_append, List.nil_append]
      exact word spellable (by decide) (head ": ".toList (by decide)) (typed type ends later)

theorem parameters {parameters : List Parameter}
    (wellNamed : ∀ parameter ∈ parameters, parameter.WellNamed)
    (ends : ∀ c ∈ rest.head?, LexicalRule.isBreak c) (later : Written rest words) :
    Written ((", ".intercalate (parameters.map Parameter.text)).toList ++ rest)
      ([(.comma, ",")].intercalate (parameters.map Parameter.words) ++ words) := by
  induction parameters with
  | nil => exact later
  | cons first others ih =>
      obtain ⟨firstNamed, othersNamed⟩ := List.forall_mem_cons.1 wellNamed
      cases others with
      | nil =>
          simp only [List.map_cons, List.map_nil, String.intercalate_singleton,
            List.intercalate_singleton]
          exact parameter firstNamed ends later
      | cons second others =>
          have split : ", ".toList = ",".toList ++ [' '] := by decide
          have behind := ih othersNamed
          simp only [List.map_cons] at behind
          simp only [List.map_cons, String.intercalate_cons_cons, List.intercalate_cons_cons,
            String.toList_append, List.append_assoc, split, List.singleton_append]
          apply parameter firstNamed (head ",".toList (by decide))
          exact spaced (.symbol (by decide)) (by decide) behind

/-- Nothing in a list of parameters could belong to the parenthesis before it. -/
theorem head_parameters {parameters : List Parameter}
    (wellNamed : ∀ parameter ∈ parameters, parameter.WellNamed)
    (ends : ∀ c ∈ rest.head?, c ∉ LexicalRule.joining) :
    ∀ c ∈ ((", ".intercalate (parameters.map Parameter.text)).toList ++ rest).head?,
      c ∉ LexicalRule.joining := by
  have typed (type : Ty) {rest : List Char} :
      ∀ c ∈ (type.sourceName.toList ++ rest).head?, c ∉ LexicalRule.joining := by
    cases type <;> exact head _ (by decide)
  have named {name : String} {rest : List Char} (identifier : IsIdentifier name) :
      ∀ c ∈ (name.toList ++ rest).head?, c ∉ LexicalRule.joining := by
    obtain ⟨c, others, spelled, start, -⟩ := identifier.1
    rw [spelled]
    rintro _ ⟨⟩ joins
    have low : ∀ d ∈ LexicalRule.joining, d.toNat < 65 ∨ 122 < d.toNat := by
      simp [LexicalRule.joining]
    have bounds := LexicalRule.toNat_of_isNameStart start
    have outside := low c joins
    omega
  have first {parameter : Parameter} {rest : List Char} (wellNamed : parameter.WellNamed) :
      ∀ c ∈ (parameter.text.toList ++ rest).head?, c ∉ LexicalRule.joining := by
    obtain ⟨name, type⟩ := parameter
    cases name with
    | none => exact typed type
    | some name =>
        simp only [Parameter.text, String.toList_append, List.append_assoc]
        exact named (wellNamed name rfl)
  cases parameters with
  | nil => exact ends
  | cons parameter others =>
      have firstNamed := wellNamed parameter List.mem_cons_self
      cases others with
      | nil =>
          simp only [List.map_cons, List.map_nil, String.intercalate_singleton]
          exact first firstNamed
      | cons second others =>
          simp only [List.map_cons, String.intercalate_cons_cons, String.toList_append,
            List.append_assoc]
          exact first firstNamed

theorem declaration {declaration : Declaration} (wellNamed : declaration.WellNamed)
    (ends : ∀ c ∈ rest.head?, LexicalRule.isBreak c) (later : Written rest words) :
    Written (declaration.text.toList ++ rest) (declaration.words ++ words) := by
  cases declaration with
  | variableOf name type =>
      have split : "var ".toList = "var".toList ++ [' '] := by decide
      simp only [Declaration.text, Declaration.words, String.toList_append, List.append_assoc,
        List.cons_append, List.nil_append, split]
      apply spaced (.reserved (by decide)) (by decide)
      apply word (spellable_variableName_iff.2 wellNamed) (by decide) (head ": ".toList (by decide))
      exact typed type ends later
  | functionOf name signature =>
      obtain ⟨named, parametersNamed⟩ := wellNamed
      have split : "fn ".toList = "fn".toList ++ [' '] := by decide
      have closing : ") -> ".toList = ")".toList ++ (' ' :: ("->".toList ++ [' '])) := by decide
      simp only [Declaration.text, Declaration.words, Signature.text, Signature.words,
        String.toList_append, List.append_assoc, List.cons_append, List.nil_append, split, closing]
      apply spaced (.reserved (by decide)) (by decide)
      apply word (spellable_identifier_iff.2 named) (by decide) (head "(".toList (by decide))
      apply symbol (by decide) (head_parameters parametersNamed (head ")".toList (by decide)))
      apply parameters parametersNamed (head ")".toList (by decide))
      apply spaced (.symbol (by decide)) (by decide)
      apply spaced (.symbol (by decide)) (by decide)
      exact Written.type signature.result ends later

theorem declarations {declarations : List Declaration}
    (wellNamed : ∀ declaration ∈ declarations, declaration.WellNamed) :
    Written ("\n".intercalate (declarations.map Declaration.text)).toList
      (declarations.flatMap Declaration.words) := by
  induction declarations with
  | nil => exact nil
  | cons first others ih =>
      obtain ⟨firstNamed, othersNamed⟩ := List.forall_mem_cons.1 wellNamed
      cases others with
      | nil =>
          have ends : ∀ c ∈ ([] : List Char).head?, LexicalRule.isBreak c :=
            fun c absent => nomatch absent
          have alone := declaration firstNamed ends nil
          simp only [List.map_cons, List.map_nil, String.intercalate_singleton,
            List.flatMap_singleton]
          rwa [List.append_nil, List.append_nil] at alone
      | cons second others =>
          have split : "\n".toList = ['\n'] := by decide
          have behind := ih othersNamed
          simp only [List.map_cons] at behind
          rw [List.flatMap_cons]
          simp only [List.map_cons, String.intercalate_cons_cons, String.toList_append,
            List.append_assoc]
          apply declaration firstNamed (head "\n".toList (by decide))
          rw [split]
          exact blank (by decide) behind

end Written

namespace Parameter

theorem spells_of_words {parameter : Parameter} {tokens : List Token}
    (same : tokens.map Token.word = parameter.words) : parameter.Spells tokens := by
  obtain ⟨name, type⟩ := parameter
  cases name with
  | none =>
      obtain ⟨word, rest, rfl, isType, none⟩ := List.map_eq_cons_iff.1 same
      cases List.map_eq_nil_iff.1 none
      exact .bare (congrArg Prod.fst isType)
  | some name =>
      obtain ⟨label, rest, rfl, isLabel, same⟩ := List.map_eq_cons_iff.1 same
      obtain ⟨colon, rest, rfl, isColon, same⟩ := List.map_eq_cons_iff.1 same
      obtain ⟨word, rest, rfl, isType, none⟩ := List.map_eq_cons_iff.1 same
      cases List.map_eq_nil_iff.1 none
      obtain ⟨isName, rfl⟩ := Prod.mk.inj isLabel
      exact .named isName (congrArg Prod.fst isColon) (congrArg Prod.fst isType)

theorem spellsAll_of_words {parameters : List Parameter} {tokens : List Token}
    (same : tokens.map Token.word = [(.comma, ",")].intercalate (parameters.map words)) :
    SpellsAll parameters tokens := by
  induction parameters generalizing tokens with
  | nil =>
      cases List.map_eq_nil_iff.1 same
      exact .nil
  | cons first others ih =>
      cases others with
      | nil => exact .single (spells_of_words (same.trans List.intercalate_singleton))
      | cons second others =>
          simp only [List.map_cons, List.intercalate_cons_cons, List.append_assoc,
            List.singleton_append] at same
          obtain ⟨front, rest, rfl, isFirst, same⟩ := List.map_eq_append_iff.1 same
          obtain ⟨comma, back, rfl, isComma, isOthers⟩ := List.map_eq_cons_iff.1 same
          exact .cons (spells_of_words isFirst) (congrArg Prod.fst isComma) (ih isOthers)

end Parameter

namespace Declaration

theorem spells_of_words {declaration : Declaration} {tokens : List Token}
    (same : tokens.map Token.word = declaration.words) : declaration.Spells tokens := by
  cases declaration with
  | variableOf name type =>
      obtain ⟨var, rest, rfl, isVar, same⟩ := List.map_eq_cons_iff.1 same
      obtain ⟨label, rest, rfl, isLabel, same⟩ := List.map_eq_cons_iff.1 same
      obtain ⟨colon, rest, rfl, isColon, same⟩ := List.map_eq_cons_iff.1 same
      obtain ⟨word, rest, rfl, isType, none⟩ := List.map_eq_cons_iff.1 same
      cases List.map_eq_nil_iff.1 none
      obtain ⟨isName, rfl⟩ := Prod.mk.inj isLabel
      exact .variableOf (congrArg Prod.fst isVar) isName (congrArg Prod.fst isColon)
        (congrArg Prod.fst isType)
  | functionOf name signature =>
      obtain ⟨fn, rest, rfl, isFn, same⟩ := List.map_eq_cons_iff.1 same
      obtain ⟨label, rest, rfl, isLabel, same⟩ := List.map_eq_cons_iff.1 same
      obtain ⟨opening, rest, rfl, opens, same⟩ := List.map_eq_cons_iff.1 same
      obtain ⟨inner, rest, rfl, isParameters, same⟩ := List.map_eq_append_iff.1 same
      obtain ⟨closing, rest, rfl, closes, same⟩ := List.map_eq_cons_iff.1 same
      obtain ⟨arrow, rest, rfl, isArrow, same⟩ := List.map_eq_cons_iff.1 same
      obtain ⟨word, rest, rfl, isType, none⟩ := List.map_eq_cons_iff.1 same
      cases List.map_eq_nil_iff.1 none
      obtain ⟨isName, rfl⟩ := Prod.mk.inj isLabel
      exact .functionOf (congrArg Prod.fst isFn) isName (congrArg Prod.fst opens)
        (Parameter.spellsAll_of_words isParameters) (congrArg Prod.fst closes)
        (.written (congrArg Prod.fst isArrow) (congrArg Prod.fst isType))

theorem spellsAll_of_words {declarations : List Declaration} {tokens : List Token}
    (same : tokens.map Token.word = declarations.flatMap words) :
    SpellsAll declarations tokens := by
  induction declarations generalizing tokens with
  | nil =>
      cases List.map_eq_nil_iff.1 same
      exact .nil
  | cons first others ih =>
      rw [List.flatMap_cons] at same
      obtain ⟨front, back, rfl, isFirst, isOthers⟩ := List.map_eq_append_iff.1 same
      have unmarked : ∀ token ∈ (none : Option Token), token.kind = .semicolon :=
        fun token absent => nomatch absent
      have whole := SpellsAll.cons (spells_of_words isFirst) unmarked (ih isOthers)
      rwa [Option.toList_none, List.append_nil] at whole

end Declaration

theorem Table.ofSource_eq_ok_iff {source : String} {table : Table} :
    ofSource source = .ok table ↔
      ∃ tokens, tokenize source = .ok tokens ∧ ofTokens tokens = .ok table := by
  rw [ofSource]
  cases tokenize source with
  | error report =>
      constructor
      · intro read
        cases read
      · rintro ⟨tokens, scanned, -⟩
        cases scanned
  | ok tokens =>
      constructor
      · intro read
        exact ⟨tokens, rfl, read⟩
      · rintro ⟨_, ⟨⟩, read⟩
        exact read

theorem Table.ofSource_text {table : Table} (wellNamed : table.WellNamed) :
    ofSource table.text = .ok table := by
  obtain ⟨tokens, scans, same⟩ := Written.declarations wellNamed 0
  have scanned := tokenize_of_scans scans
  have lexed := lexed_of_tokenize scanned
  have inside : ∀ token ∈ tokens, token.kind ≠ .eof := by
    have endsOnce := lexed.endsOnce
    rwa [List.dropLast_concat] at endsOnce
  refine ofSource_eq_ok_iff.2 ⟨_, scanned, ofTokens_of_spellsAll lexed.endsOnce ?_⟩
  rw [Token.beforeEnd, List.takeWhile_append_of_pos (by simpa using inside)]
  simp only [Token.endOfInput, ne_eq, not_true_eq_false, decide_false, Bool.false_eq_true,
    not_false_eq_true, List.takeWhile_cons_of_neg, List.append_nil]
  exact Declaration.spellsAll_of_words same

theorem Parameter.Spells.wellNamed {parameter : Parameter} {tokens : List Token}
    (spelled : parameter.Spells tokens)
    (spellable : ∀ token ∈ tokens, Spellable token.kind token.value) : parameter.WellNamed := by
  cases spelled with
  | bare => exact fun name absent => nomatch absent
  | @named type name colon word isName =>
      rintro _ ⟨⟩
      have here := spellable name List.mem_cons_self
      rw [isName] at here
      exact spellable_identifier_iff.1 here

theorem Parameter.SpellsAll.wellNamed {parameters : List Parameter} {tokens : List Token}
    (spelled : SpellsAll parameters tokens)
    (spellable : ∀ token ∈ tokens, Spellable token.kind token.value) :
    ∀ parameter ∈ parameters, parameter.WellNamed := by
  induction spelled with
  | nil => exact List.forall_mem_nil _
  | single spelled => exact List.forall_mem_singleton.2 (spelled.wellNamed spellable)
  | cons spelled _ _ ih =>
      obtain ⟨front, back⟩ := List.forall_mem_append.1 spellable
      exact List.forall_mem_cons.2 ⟨spelled.wellNamed front, ih (List.forall_mem_cons.1 back).2⟩

theorem Declaration.Spells.wellNamed {declaration : Declaration} {tokens : List Token}
    (spelled : declaration.Spells tokens)
    (spellable : ∀ token ∈ tokens, Spellable token.kind token.value) :
    declaration.WellNamed := by
  cases spelled with
  | @variableOf type var name colon word isVar isName =>
      have here := spellable name (List.mem_cons_of_mem _ List.mem_cons_self)
      rw [isName] at here
      exact spellable_variableName_iff.1 here
  | @functionOf _ _ fn name _ _ inner _ _ isName _ parametersSpelled =>
      have here := spellable name (List.mem_cons_of_mem _ List.mem_cons_self)
      rw [isName] at here
      refine ⟨spellable_identifier_iff.1 here, parametersSpelled.wellNamed ?_⟩
      intro token member
      apply spellable token
      simp only [List.mem_cons, List.mem_append]
      exact Or.inr (Or.inr (Or.inr (Or.inl member)))

theorem Declaration.SpellsAll.wellNamed {declarations : List Declaration} {tokens : List Token}
    (spelled : SpellsAll declarations tokens)
    (spellable : ∀ token ∈ tokens, Spellable token.kind token.value) :
    ∀ declaration ∈ declarations, declaration.WellNamed := by
  induction spelled with
  | nil => exact List.forall_mem_nil _
  | cons spelled _ _ ih =>
      obtain ⟨front, back⟩ := List.forall_mem_append.1 spellable
      have first := (List.forall_mem_append.1 front).1
      exact List.forall_mem_cons.2 ⟨spelled.wellNamed first, ih back⟩

theorem Table.wellNamed_of_ofSource {source : String} {table : Table}
    (read : ofSource source = .ok table) : table.WellNamed := by
  obtain ⟨tokens, scanned, readTokens⟩ := ofSource_eq_ok_iff.1 read
  have spelled := spellsAll_of_ofTokens (lexed_of_tokenize scanned).endsOnce readTokens
  apply spelled.wellNamed
  intro token member
  obtain ⟨inside, notEnd⟩ := Token.mem_of_mem_beforeEnd member
  exact spellable_of_tokenize scanned token inside notEnd

theorem Declaration.Evolves.wellNamed {before after : Declaration} (evolves : before.Evolves after)
    (wellNamed : before.WellNamed) : after.WellNamed := by
  cases evolves with
  | variableOf => exact wellNamed
  | functionOf name evolves =>
      refine ⟨wellNamed.1, ?_⟩
      intro parameter member
      have listed : parameter.name ∈ _ := evolves.names ▸ List.mem_map_of_mem member
      obtain ⟨earlier, earlierMember, sameName⟩ := List.mem_map.1 listed
      rw [Parameter.WellNamed, ← sameName]
      exact wellNamed.2 earlier earlierMember

theorem Table.Filled.wellNamed {allowed : String → Slot → Prop} {before after : Table}
    (filled : before.Filled allowed after) (wellNamed : before.WellNamed) : after.WellNamed := by
  intro declaration member
  obtain ⟨index, inside, here⟩ := List.getElem_of_mem member
  have insideBefore : index < before.declarations.length := filled.length ▸ inside
  obtain ⟨later, held, evolves⟩ :=
    filled.evolves index _ (List.getElem?_eq_getElem insideBefore)
  rw [List.getElem?_eq_getElem inside, here] at held
  cases held
  exact evolves.wellNamed (wellNamed _ (List.getElem_mem insideBefore))

/-- A table that was read has names that can be read, and checking keeps them; so the text of the
table is read back after whatever was checked. -/
theorem Table.text_read_back :
    (∀ table : Table, table.WellNamed → ofSource table.text = .ok table) ∧
    (∀ source table, ofSource source = .ok table → table.WellNamed) ∧
    (∀ constant e (table : Table), table.WellNamed →
      ((Check.expr constant e).outcome table).2.WellNamed) ∧
    ∀ source table checks, ofSource source = .ok table →
      let current := Check.tableAfter checks table
      ofSource current.text = .ok current := by
  refine ⟨fun table => ofSource_text, fun source table => wellNamed_of_ofSource, ?_, ?_⟩
  · intro constant e table wellNamed
    exact (Check.fills_expr constant e table).wellNamed wellNamed
  · intro source table checks read
    have filled := Check.filled_tableAfter checks table
    exact ofSource_text (filled.wellNamed (wellNamed_of_ofSource read))

/-- Of two functions of one name the last is filled by `dice(0, true) + 0`. -/
theorem Table.text_read_back_filled :
    let site : Site := ⟨⟨0⟩, .point 0⟩
    let roll : Expr := .binary site .add
      (.call site "dice" [.literal site (.number .zero), .literal site (.bool true)])
      (.literal site (.number .zero))
    let table (sides result : Ty) : Table := ⟨[.functionOf "dice" ⟨[], .bool⟩,
      .variableOf "$dice" .unresolved,
      .functionOf "dice" ⟨[⟨some "sides", sides⟩, ⟨none, .bool⟩], result⟩]⟩
    let before := table .unresolved .unresolved
    let after := table .number .number
    before.WellNamed ∧
      before.text = "fn dice() -> bool\nvar $dice: ?\nfn dice(sides: ?, bool) -> ?" ∧
      ofSource before.text = .ok before ∧
      ((Check.expr false roll).outcome before).2 = after ∧ after.WellNamed ∧
      after.text = "fn dice() -> bool\nvar $dice: ?\nfn dice(sides: number, bool) -> number" ∧
      ofSource after.text = .ok after := by
  intro site roll table before after
  have isName {text : List Char} {c : Char} {rest : List Char} (split : text = c :: rest)
      (start : LexicalRule.isNameStart c) (parts : rest.all LexicalRule.isNamePart) :
      LexicalRule.IsName text :=
    ⟨c, rest, split, start, List.all_eq_true.1 parts⟩
  have dice : IsIdentifier "dice" :=
    ⟨isName (by decide : "dice".toList = ['d', 'i', 'c', 'e']) (by decide) (by decide),
      fun kind => by simp [LexicalRule.reserved]⟩
  have sides : IsIdentifier "sides" :=
    ⟨isName (by decide : "sides".toList = ['s', 'i', 'd', 'e', 's']) (by decide) (by decide),
      fun kind => by simp [LexicalRule.reserved]⟩
  have diceVariable : IsVariableName "$dice" :=
    ⟨['d', 'i', 'c', 'e'], by decide, isName rfl (by decide) (by decide)⟩
  have wellNamed : before.WellNamed := by
    intro declaration member
    simp only [before, table, List.mem_cons, List.not_mem_nil, or_false] at member
    rcases member with rfl | rfl | rfl
    · exact ⟨dice, List.forall_mem_nil _⟩
    · exact diceVariable
    · refine ⟨dice, ?_⟩
      intro parameter inside
      simp only [List.mem_cons, List.not_mem_nil, or_false] at inside
      rcases inside with rfl | rfl
      · rintro _ ⟨⟩
        exact sides
      · intro _ absent
        cases absent
  obtain ⟨readBack, named, kept, current⟩ := text_read_back
  have read := readBack before wellNamed
  exact ⟨wellNamed, by decide, read, rfl, kept false roll before wellNamed, by decide,
    current before.text before [(false, roll)] read⟩

end DialogueTyping
