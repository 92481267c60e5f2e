import DialogueTyping.Proofs.Grammar.FirstBadToken
import DialogueTyping.Proofs.Token.Layout
import DialogueTyping.Proofs.Typing.Blame

set_option autoImplicit false

namespace DialogueTyping

namespace Numeral

open LexicalRule (IsDigits IsNumeral)

theorem decimal?_of_isNumeral {text : List Char} (numeral : IsNumeral text) :
    ∃ decimal, decimal? text = some decimal := by
  rcases numeral with ⟨nonempty, digits⟩ | ⟨whole, part, rfl, ⟨nonempty, wholeDigits⟩, -, partDigits⟩
  · have kept : text.takeWhile Char.isDigit = text := List.takeWhile_eq_self_iff.2 digits
    have dropped : text.dropWhile Char.isDigit = [] := List.dropWhile_eq_nil_iff.2 digits
    simp [decimal?, kept, dropped, fractionOf, exponent?, nonempty]
  · have kept : (whole ++ '.' :: part).takeWhile Char.isDigit = whole := by
      rw [List.takeWhile_append_of_pos wholeDigits]
      simp
    have dropped : (whole ++ '.' :: part).dropWhile Char.isDigit = '.' :: part := by
      rw [List.dropWhile_append_of_pos wholeDigits]
      rfl
    have keptPart : part.takeWhile Char.isDigit = part := List.takeWhile_eq_self_iff.2 partDigits
    have droppedPart : part.dropWhile Char.isDigit = [] := List.dropWhile_eq_nil_iff.2 partDigits
    simp [decimal?, kept, dropped, fractionOf, keptPart, droppedPart, exponent?, nonempty]

theorem read?_of_isNumeral {text : List Char} (numeral : IsNumeral text) :
    ∃ value, read? text = some value := by
  obtain ⟨decimal, found⟩ := decimal?_of_isNumeral numeral
  have digit : ∀ c ∈ text.head?, c.isDigit := by
    intro c start
    rcases numeral with ⟨-, digits⟩ | ⟨whole, part, rfl, ⟨nonempty, digits⟩, -⟩
    · exact digits c (List.mem_of_mem_head? start)
    · obtain ⟨first, others, rfl⟩ := List.exists_cons_of_ne_nil nonempty
      cases start
      exact digits c List.mem_cons_self
  unfold read?
  split
  · exact absurd (digit '-' rfl) (by decide)
  · exact absurd (digit '+' rfl) (by decide)
  · exact ⟨_, by rw [unsigned?, found]⟩

theorem read?_of_tokenize {source : String} {tokens : List Token} {token : Token}
    (scanned : tokenize source = .ok tokens) (member : token ∈ tokens)
    (kind : token.kind = .number) : ∃ value, read? token.value.toList = some value := by
  have spellable := spellable_of_tokenize scanned token member (by rw [kind]; decide)
  rw [kind] at spellable
  cases spellable with
  | number numeral => exact read?_of_isNumeral numeral
  | reserved listed => simp [LexicalRule.reserved] at listed
  | symbol listed => simp [LexicalRule.symbols] at listed

end Numeral

theorem problem_of_tokenize {source : String} {report : Diagnostic}
    (failed : tokenize source = .error report) :
    ∃ character, report.problem = .unrecognisedToken character := by
  simp only [tokenize] at failed
  split at failed
  · cases failed
  · cases failed
    exact ⟨_, rfl⟩

namespace Expr

/-- The outermost node assigns to a variable or converts to a type that exists, if it does one of
these. -/
def WellTargeted : Expr → Prop
  | assignment _ _ target _ => ∃ site name, target = reference site name
  | conversion _ target _ => ∃ type, Ty.ofName? target = some type
  | _ => True

theorem wellTargeted_of_children {e : Expr} (here : e.WellTargeted)
    (below : ∀ child ∈ e.children, ∀ inner : Expr, inner.Within child → inner.WellTargeted) :
    ∀ inner : Expr, inner.Within e → inner.WellTargeted := by
  intro inner within
  cases within with
  | self => exact here
  | inside member deeper => exact below _ member inner deeper

theorem ofName?_of_typeWord? {kind : TokenKind} {word : String}
    (named : kind.typeWord? = some word) : ∃ type, Ty.ofName? word = some type := by
  cases kind <;> cases named <;> exact ⟨_, rfl⟩

theorem Shaped.wellTargeted {e : Expr} (shaped : e.Shaped) :
    ∀ inner : Expr, inner.Within e → inner.WellTargeted := by
  have leaf {e : Expr} (plain : e.children = []) (here : e.WellTargeted) :
      ∀ inner : Expr, inner.Within e → inner.WellTargeted := by
    apply wellTargeted_of_children here
    rw [plain]
    exact List.forall_mem_nil _
  induction shaped with
  | literal | reference =>
      exact wellTargeted_of_children trivial (List.forall_mem_singleton.2 (leaf rfl trivial))
  | call _ each =>
      exact wellTargeted_of_children trivial
        (List.forall_mem_singleton.2 (wellTargeted_of_children trivial each))
  | unary _ _ ih => exact wellTargeted_of_children trivial (List.forall_mem_singleton.2 ih)
  | binary _ _ _ _ ihLeft ihRight =>
      exact wellTargeted_of_children trivial
        (List.forall_mem_cons.2 ⟨ihLeft, List.forall_mem_singleton.2 ihRight⟩)
  | assignment _ ih =>
      exact wellTargeted_of_children ⟨_, _, rfl⟩
        (List.forall_mem_cons.2 ⟨leaf rfl trivial, List.forall_mem_singleton.2 ih⟩)
  | paren _ ih => exact wellTargeted_of_children trivial (List.forall_mem_singleton.2 ih)
  | conversion named _ ih =>
      exact wellTargeted_of_children (ofName?_of_typeWord? named) (List.forall_mem_singleton.2 ih)
  | condition _ ih => exact wellTargeted_of_children trivial (List.forall_mem_singleton.2 ih)

theorem tokenize_of_ofSource {text : String} {e : Expr} (read : ofSource text = .ok e) :
    ∃ tokens, tokenize text = .ok tokens ∧ ofTokens tokens = .ok e := by
  rw [ofSource] at read
  cases scanned : tokenize text with
  | error report =>
      rw [scanned] at read
      cases read
  | ok tokens =>
      rw [scanned] at read
      exact ⟨tokens, rfl, read⟩

/-- A text that is not read has a character that starts no token, or a token that cannot stand where
it stands. -/
theorem problem_of_ofSource {text : String} {report : Diagnostic}
    (failed : ofSource text = .error report) :
    (∃ character, report.problem = .unrecognisedToken character) ∨
      (∃ token, report.problem = .unexpectedToken token) ∨
      (∃ token expectation, report.problem = .unmetExpectation token expectation) ∨
      report.problem = .invalidAssignmentTarget := by
  rw [ofSource] at failed
  cases scanned : tokenize text with
  | error other =>
      rw [scanned] at failed
      cases failed
      obtain ⟨character, unrecognised⟩ := problem_of_tokenize scanned
      exact Or.inl ⟨character, unrecognised⟩
  | ok tokens =>
      rw [scanned] at failed
      have lexed := lexed_of_tokenize scanned
      obtain ⟨stopped, -, ways⟩ := givesUp_of_ofTokens lexed failed
      cases ways with
      | stuck _ _ cause =>
          rcases cause with rfl | ⟨expectation, rfl⟩
          · exact Or.inr (Or.inl ⟨_, rfl⟩)
          · exact Or.inr (Or.inr (Or.inl ⟨_, _, rfl⟩))
      | target _ place => exact Or.inr (Or.inr (Or.inr (congrArg Diagnostic.problem place)))
      | numeral member kind unread =>
          rw [Cursor.ahead_ofTokens lexed.endsOnce] at member
          obtain ⟨value, read⟩ :=
            Numeral.read?_of_tokenize scanned (Token.mem_of_mem_beforeEnd member).1 kind
          rw [unread] at read
          cases read

end Expr

namespace Reading

variable {α β : Type}

/-- The reading gives up only for an expectation that is not met or for a type that does not
exist. -/
def Declares (reading : Reading α) : Prop :=
  ∀ cursor report stopped, reading.run cursor = .error report stopped →
    (∃ token expectation, report.problem = .unmetExpectation token expectation) ∨
      ∃ name, report.problem = .unknownType name

theorem Declares.bind {first : Reading α} {next : α → Reading β} (early : first.Declares)
    (late : ∀ value, (next value).Declares) : (first >>= next).Declares := by
  intro cursor report stopped failed
  rcases run_bind_eq_error_iff.1 failed with failed | ⟨value, between, -, failed⟩
  · exact early cursor report stopped failed
  · exact late value between report stopped failed

theorem declares_of_ok {reading : Reading α}
    (succeeds : ∀ cursor, ∃ value after, reading.run cursor = .ok value after) :
    reading.Declares := by
  intro cursor report stopped failed
  obtain ⟨value, after, done⟩ := succeeds cursor
  rw [done] at failed
  cases failed

theorem declares_pure (value : α) : (pure value : Reading α).Declares :=
  declares_of_ok fun _ => ⟨_, _, rfl⟩

theorem declares_current : current.Declares := declares_of_ok fun _ => ⟨_, _, rfl⟩

theorem declares_advance : advance.Declares := declares_of_ok fun _ => ⟨_, _, rfl⟩

theorem declares_expect (kind : TokenKind) : (expect kind).Declares := by
  intro cursor report stopped failed
  obtain ⟨_, rfl, rfl⟩ := expect_eq_error_iff.1 failed
  exact Or.inl ⟨_, _, rfl⟩

end Reading

namespace Declaration

open Reading

theorem declares_readType : readType.Declares := by
  apply declares_advance.bind
  intro token
  split
  case h_5 =>
      rintro _ _ _ ⟨⟩
      exact Or.inr ⟨_, rfl⟩
  case h_6 =>
      rintro _ _ _ ⟨⟩
      exact Or.inl ⟨_, _, rfl⟩
  all_goals exact declares_pure _

theorem declares_readParameter : readParameter.Declares := by
  apply (declares_of_ok fun _ => ⟨_, _, rfl⟩ : (get : Reading Cursor).Declares).bind
  intro cursor
  split
  · apply declares_advance.bind
    intro name
    apply declares_advance.bind
    intro _
    exact declares_readType.bind fun _ => declares_pure _
  · exact declares_readType.bind fun _ => declares_pure _

theorem declares_readParameters (count : Nat) : (readParameters count).Declares := by
  induction count with
  | zero => exact declares_pure _
  | succ count ih =>
      apply declares_readParameter.bind
      intro parameter
      apply declares_current.bind
      intro token
      split
      · apply declares_advance.bind
        intro _
        exact ih.bind fun _ => declares_pure _
      · exact declares_pure _

theorem declares_readVariable : readVariable.Declares := by
  apply (declares_expect .varWord).bind
  intro _
  apply (declares_expect .variableName).bind
  intro name
  apply (declares_expect .colon).bind
  intro _
  exact declares_readType.bind fun _ => declares_pure _

theorem declares_readResult : readResult.Declares := by
  apply declares_current.bind
  intro token
  split
  · exact declares_advance.bind fun _ => declares_readType
  · exact declares_pure _

theorem declares_readFunction : readFunction.Declares := by
  apply (declares_expect .fnWord).bind
  intro _
  apply (declares_expect .identifier).bind
  intro name
  apply (declares_expect .openParen).bind
  intro _
  have closed (parameters : List Parameter) :
      (do let _ ← expect .closeParen
          let result ← readResult
          return functionOf name.value ⟨parameters, result⟩ : Reading Declaration).Declares := by
    apply (declares_expect .closeParen).bind
    intro _
    exact declares_readResult.bind fun _ => declares_pure _
  apply declares_current.bind
  intro token
  split
  · exact (declares_pure _).bind closed
  · apply (declares_of_ok fun _ => ⟨_, _, rfl⟩ : remaining.Declares).bind
    intro count
    exact (declares_readParameters count).bind closed

theorem declares_read : read.Declares := by
  apply declares_current.bind
  intro token
  split
  · exact declares_readVariable
  · exact declares_readFunction
  · rintro _ _ _ ⟨⟩
    exact Or.inl ⟨_, _, rfl⟩

theorem declares_skipSemicolon : skipSemicolon.Declares := by
  apply declares_current.bind
  intro token
  split
  · exact declares_advance.bind fun _ => declares_pure _
  · exact declares_pure _

theorem declares_readAll (count : Nat) : (readAll count).Declares := by
  induction count with
  | zero => exact declares_pure _
  | succ count ih =>
      apply (declares_of_ok fun _ => ⟨_, _, rfl⟩ : (get : Reading Cursor).Declares).bind
      intro cursor
      split
      · apply declares_read.bind
        intro declaration
        apply declares_skipSemicolon.bind
        intro _
        exact ih.bind fun _ => declares_pure _
      · exact declares_pure _

end Declaration

theorem Table.problem_of_ofSource {text : String} {report : Diagnostic}
    (failed : ofSource text = .error report) :
    (∃ character, report.problem = .unrecognisedToken character) ∨
      (∃ token expectation, report.problem = .unmetExpectation token expectation) ∨
      ∃ name, report.problem = .unknownType name := by
  rw [ofSource] at failed
  cases scanned : tokenize text with
  | error other =>
      rw [scanned] at failed
      cases failed
      exact Or.inl (problem_of_tokenize scanned)
  | ok tokens =>
      rw [scanned] at failed
      have declares : (do return ⟨← Declaration.readAll (← Reading.remaining)⟩ :
          Reading Table).Declares := by
        apply (Reading.declares_of_ok fun _ => ⟨_, _, rfl⟩ : Reading.remaining.Declares).bind
        intro count
        exact (Declaration.declares_readAll count).bind fun _ => Reading.declares_pure _
      change Table.ofTokens tokens = .error report at failed
      rw [ofTokens, Reading.runOn] at failed
      split at failed
      · cases failed
      · rename_i gaveUp
        cases failed
        exact Or.inr (declares _ _ _ gaveUp)

/-- What is read from a text assigns to variables and converts to types that exist, so no text of an
expression is refused for a number, a conversion or a type's name in it. Texts have no file names
here; only `Diagnostic.render` is given one. -/
theorem Check.source_problems :
    (∀ constant text table stop after,
      (source constant text).outcome table = (.error stop, after) →
      ∃ diagnostic, stop = .report diagnostic ∧ ∀ word,
        diagnostic.problem ≠ .invalidNumber word ∧
        diagnostic.problem ≠ .unsupportedConversion word ∧
        diagnostic.problem ≠ .unknownType word) ∧
    (∀ text e, Expr.ofSource text = .ok e →
      (∀ site operator target value, (Expr.assignment site operator target value).Within e →
        ∃ place name, target = .reference place name) ∧
      ∀ site target body, (Expr.conversion site target body).Within e →
        ∃ type, Ty.ofName? target = some type) ∧
    ∀ text diagnostic, Table.ofSource text = .error diagnostic →
      (∃ character, diagnostic.problem = .unrecognisedToken character) ∨
        (∃ token expectation, diagnostic.problem = .unmetExpectation token expectation) ∨
        ∃ name, diagnostic.problem = .unknownType name := by
  have targeted (text : String) (e : Expr) (read : Expr.ofSource text = .ok e) :
      ∀ inner : Expr, inner.Within e → inner.WellTargeted := by
    obtain ⟨tokens, scanned, accepted⟩ := Expr.tokenize_of_ofSource read
    exact (Expr.sound_of_ofTokens (lexed_of_tokenize scanned) accepted).2.wellTargeted
  refine ⟨?_, ?_, fun text diagnostic failed => Table.problem_of_ofSource failed⟩
  · intro constant text table stop after failed
    unfold source at failed
    split at failed
    · rename_i e read
      obtain ⟨node, problem, within, rfl, justified⟩ := blames_expr failed
      refine ⟨_, rfl, fun word => ⟨?_, ?_, ?_⟩⟩
      · rintro rfl
        exact justified
      · rintro rfl
        obtain ⟨⟨site, body, rfl⟩, unnamed⟩ := justified
        obtain ⟨type, named⟩ := targeted text e read _ within
        obtain ⟨known, same⟩ := Ty.ofName?_eq_some_iff.1 named
        exact unnamed type known same.symm
      · rintro rfl
        exact justified
    · rename_i report unread
      cases failed
      refine ⟨report, rfl, fun word => ?_⟩
      rcases Expr.problem_of_ofSource unread with
        ⟨_, is⟩ | ⟨_, is⟩ | ⟨_, _, is⟩ | is <;> rw [is] <;> exact ⟨nofun, nofun, nofun⟩
  · intro text e read
    exact ⟨fun _ _ _ _ within => targeted text e read _ within,
      fun _ _ _ within => targeted text e read _ within⟩

/-- A numeral, a conversion and an assignment, refused for their types only; and a declaration,
refused for its type's name. -/
theorem Check.source_problems_mismatch :
    let text := "$x -= number(00.50)"
    let table : Table := ⟨[.variableOf "$x" .string]⟩
    let diagnostic := Diagnostic.atSite (.operandMismatch "-=" [.string, .number]) ⟨⟨5⟩, ⟨0, 19⟩⟩
    let declared := Diagnostic.atOffset (.unknownType "int") 8
    (source false text).outcome table = (.error (.report diagnostic), table) ∧
      (∀ word, diagnostic.problem ≠ .invalidNumber word ∧
        diagnostic.problem ≠ .unsupportedConversion word ∧
        diagnostic.problem ≠ .unknownType word) ∧
      (∃ e, Expr.ofSource text = .ok e ∧
        ∀ site operator target value, (Expr.assignment site operator target value).Within e →
          ∃ place name, target = .reference place name) ∧
      Table.ofSource "var $x: int" = .error declared ∧
      ((∃ character, declared.problem = .unrecognisedToken character) ∨
        (∃ token expectation, declared.problem = .unmetExpectation token expectation) ∨
        ∃ name, declared.problem = .unknownType name) := by
  intro text table diagnostic declared
  have refused : (source false text).outcome table = (.error (.report diagnostic), table) := by
    decide +kernel
  have accepted : (Expr.ofSource text).isOk = true := by decide +kernel
  have undeclared : Table.ofSource "var $x: int" = .error declared := by decide +kernel
  obtain ⟨sources, expressions, declarations⟩ := source_problems
  obtain ⟨_, ⟨⟩, problems⟩ := sources _ _ _ _ _ refused
  cases read : Expr.ofSource text with
  | error report =>
      rw [read] at accepted
      cases accepted
  | ok e =>
      exact ⟨refused, problems, ⟨e, rfl, (expressions text e read).1⟩, undeclared,
        declarations _ _ undeclared⟩

end DialogueTyping
