import DialogueTyping.Proofs.Grammar.Productions
import DialogueTyping.Proofs.Token.Program
import Mathlib.Data.List.Forall2

set_option autoImplicit false

namespace DialogueTyping

/-- Tokens of one kind, and of one value if tokens of the kind differ in it. -/
structure Token.Alike (first second : Token) : Prop where
  kind : first.kind = second.kind
  value : first.kind.carriesValue → first.value = second.value

/-- Alike, and of one value also where the kind is that of a type's name, which is kept as it is
written. -/
structure Token.Matches (first second : Token) : Prop extends Token.Alike first second where
  typeName : ∀ word, first.kind.typeWord? = some word → first.value = second.value

theorem Token.Matches.symm {first second : Token} (same : first.Matches second) :
    second.Matches first where
  kind := same.kind.symm
  value := by
    rw [← same.kind]
    exact fun carries => (same.value carries).symm
  typeName := by
    rw [← same.kind]
    exact fun word named => (same.typeName word named).symm

namespace Expr

/-- The expressions differ at most in the bytes that their nodes were read from. -/
def Alike (first second : Expr) : Prop := first.unplaced = second.unplaced

theorem alike_iff {first second : Expr} :
    first.Alike second ↔ first.mapSites Site.unplaced = second.mapSites Site.unplaced := by
  rw [Alike, unplaced_eq, unplaced_eq]

end Expr

theorem Literal.WrittenAs.twin {value : Literal} {token twin : Token}
    (written : value.WrittenAs token) (alike : token.Alike twin) : value.WrittenAs twin := by
  cases value with
  | number =>
      have same := alike.value (by rw [written.1]; rfl)
      exact ⟨alike.kind ▸ written.1, same ▸ written.2⟩
  | string =>
      have same := alike.value (by rw [written.1]; rfl)
      exact ⟨alike.kind ▸ written.1, same ▸ written.2⟩
  | bool value => cases value <;> exact alike.kind.symm.trans written
  | null => exact alike.kind.symm.trans written

/-- A token that matches leads to the same production. -/
theorem LeadingRule.Takes.twin {rule : LeadingRule} {token twin : Token} {production : Production}
    (takes : rule.Takes token production) (alike : token.Matches twin) :
    rule.Takes twin production := by
  cases takes with
  | literal written => exact .literal (written.twin alike.toAlike)
  | reference kind =>
      rw [alike.value (by rw [kind]; rfl)]
      exact .reference (alike.kind ▸ kind)
  | call kind =>
      rw [alike.value (by rw [kind]; rfl)]
      exact .call (alike.kind ▸ kind)
  | unary kind => exact .unary (alike.kind ▸ kind)
  | group kind => exact .group (alike.kind ▸ kind)
  | conversion named =>
      rw [alike.typeName _ named]
      exact .conversion (alike.kind ▸ named)
  | condition kind => exact .condition (alike.kind ▸ kind)

/-- Two lists of tokens that start alike, and after that go on with `rest` and `other`. `tokens` are
alike, and `problems` are those that alike tokens lead to. -/
structure Twins where
  tokens : Token → Token → Prop
  problems : Problem → Problem → Prop
  rest : List Token
  other : List Token
  refl : ∀ token, tokens token token
  alike : ∀ {token twin}, tokens token twin → token.Matches twin
  same : ∀ problem, problems problem problem
  unexpected : ∀ {token twin : Token}, tokens token twin →
    problems (.unexpectedToken token.value) (.unexpectedToken twin.value)
  unmet : ∀ {token twin : Token} (expectation : String), tokens token twin →
    problems (.unmetExpectation token.value expectation) (.unmetExpectation twin.value expectation)

theorem Cursor.head?_tokens (cursor : Cursor) : cursor.tokens.head? = some cursor.current := by
  rw [tokens, current]
  cases cursor.ahead <;> rfl

theorem Cursor.tokens_eq_cons {cursor : Cursor} (marked : cursor.last.kind = .eof)
    (more : cursor.current.kind ≠ .eof) : cursor.tokens = cursor.current :: cursor.next.tokens := by
  obtain ⟨ahead, last, nodes⟩ := cursor
  cases ahead with
  | nil => exact absurd marked more
  | cons token rest => rfl

namespace Twins

open Reading

variable {twins : Twins} {α β : Type} {limit start middle finish : Nat}

/-- The first reading has left what both lists share. -/
def Past (twins : Twins) (cursor : Cursor) : Prop := cursor.tokens.length ≤ twins.rest.length

/-- The next tokens, at least one and at most `limit`, are alike in both lists. -/
structure Shares (twins : Twins) (limit : Nat) (cursor twin : Cursor) : Prop where
  marked : cursor.last.kind = .eof
  twinMarked : twin.last.kind = .eof
  nodes : cursor.nodes = twin.nodes
  front : ∃ front twinFront, front ≠ [] ∧ front.length ≤ limit ∧
    List.Forall₂ twins.tokens front twinFront ∧ cursor.tokens = front ++ twins.rest ∧
    twin.tokens = twinFront ++ twins.other

namespace Shares

variable {cursor twin : Cursor}

theorem current (shares : twins.Shares limit cursor twin) :
    twins.tokens cursor.current twin.current := by
  obtain ⟨_, _, some, -, alike, here, there⟩ := shares.front
  cases alike with
  | nil => exact absurd rfl some
  | cons head _ =>
      have first := cursor.head?_tokens
      have second := twin.head?_tokens
      rw [here] at first
      rw [there] at second
      cases first
      cases second
      exact head

theorem next (shares : twins.Shares limit cursor twin) (more : cursor.current.kind ≠ .eof) :
    twins.Past cursor.next ∨ twins.Shares (limit - 1) cursor.next twin.next := by
  have twinMore : twin.current.kind ≠ .eof := (twins.alike shares.current).kind ▸ more
  obtain ⟨_, _, some, short, alike, here, there⟩ := shares.front
  rw [Cursor.tokens_eq_cons shares.marked more] at here
  rw [Cursor.tokens_eq_cons shares.twinMarked twinMore] at there
  cases alike with
  | nil => exact absurd rfl some
  | @cons _ _ front twinFront _ tail =>
      have behind := (List.cons.inj here).2
      rw [List.length_cons] at short
      by_cases last : front = []
      · subst last
        exact Or.inl (Nat.le_of_eq (congrArg List.length behind))
      · exact Or.inr ⟨shares.marked, shares.twinMarked, shares.nodes, front, twinFront, last,
          by omega, tail, behind, (List.cons.inj there).2⟩

theorem numbered (shares : twins.Shares limit cursor twin) (count : Nat) :
    twins.Shares limit (cursor.numbered count) (twin.numbered count) :=
  ⟨shares.marked, shares.twinMarked, congrArg (· + count) shares.nodes, shares.front⟩

theorem mono (shares : twins.Shares start cursor twin) (fewer : start ≤ finish) :
    twins.Shares finish cursor twin := by
  obtain ⟨front, twinFront, some, short, rest⟩ := shares.front
  exact ⟨shares.marked, shares.twinMarked, shares.nodes, front, twinFront, some,
    Nat.le_trans short fewer, rest⟩

theorem limit_pos (shares : twins.Shares limit cursor twin) : 0 < limit := by
  obtain ⟨front, _, some, short, -⟩ := shares.front
  exact Nat.lt_of_lt_of_le (List.length_pos_iff.2 some) short

/-- How many tokens are left differs between the two, but both numbers are large enough for the
shared ones. -/
theorem exact (shares : twins.Shares limit cursor twin) :
    ∃ count ≤ limit, twins.Shares count cursor twin ∧ count ≤ cursor.ahead.length + 1 ∧
      count ≤ twin.ahead.length + 1 := by
  obtain ⟨front, twinFront, some, short, alike, here, there⟩ := shares.front
  refine ⟨front.length, short, ⟨shares.marked, shares.twinMarked, shares.nodes, front, twinFront,
    some, Nat.le.refl, alike, here, there⟩, ?_, ?_⟩
  · have length := congrArg List.length here
    simp only [Cursor.tokens, List.length_append, List.length_singleton] at length
    omega
  · have length := congrArg List.length there
    simp only [Cursor.tokens, List.length_append, List.length_singleton] at length
    have := alike.length_eq
    omega

end Shares

/-- Both give values, which are related, and stay before `rest` and `other`, or both give up for
problems that are alike, or the first has reached `rest` or gone on. -/
inductive End (twins : Twins) (limit : Nat) (values : α → α → Prop) :
    EStateM.Result Diagnostic Cursor α → EStateM.Result Diagnostic Cursor α → Prop
  | ok {value twinValue : α} {after twinAfter : Cursor} : values value twinValue →
      twins.Shares limit after twinAfter →
      End twins limit values (.ok value after) (.ok twinValue twinAfter)
  | error {report twinReport : Diagnostic} {stopped twinStopped : Cursor} :
      twins.problems report.problem twinReport.problem →
      End twins limit values (.error report stopped) (.error twinReport twinStopped)
  | past {ended twinEnded : EStateM.Result Diagnostic Cursor α} : twins.Past (placeOf ended) →
      End twins limit values ended twinEnded

/-- From at most `start` shared tokens on, of which the first is of a kind as given, the readings
end alike with at most `finish` of them left, and the first never comes back from `rest`. -/
structure InStep (twins : Twins) (here : TokenKind → Prop) (start finish : Nat)
    (values : α → α → Prop) (first second : Reading α) : Prop where
  shared : ∀ {cursor twin : Cursor}, twins.Shares start cursor twin → here cursor.current.kind →
    twins.End finish values (first.run cursor) (second.run twin)
  past : ∀ {cursor : Cursor}, twins.Past cursor → twins.Past (placeOf (first.run cursor))

variable {here : TokenKind → Prop} {values : α → α → Prop} {results : β → β → Prop}

theorem End.mono {ended twinEnded : EStateM.Result Diagnostic Cursor α} (fewer : limit ≤ finish)
    (alike : twins.End limit values ended twinEnded) : twins.End finish values ended twinEnded := by
  cases alike with
  | ok related shares => exact .ok related (shares.mono fewer)
  | error alike => exact .error alike
  | past far => exact .past far

theorem End.relate {others : α → α → Prop} {ended twinEnded : EStateM.Result Diagnostic Cursor α}
    (alike : twins.End limit values ended twinEnded)
    (implies : ∀ {value twinValue}, values value twinValue → others value twinValue) :
    twins.End limit others ended twinEnded := by
  cases alike with
  | ok related shares => exact .ok (implies related) shares
  | error alike => exact .error alike
  | past far => exact .past far

namespace InStep

theorem mono {first second : Reading α}
    (inStep : twins.InStep here start middle values first second) (fewer : middle ≤ finish) :
    twins.InStep here start finish values first second :=
  ⟨fun shares kind => (inStep.shared shares kind).mono fewer, inStep.past⟩

theorem bind {first second : Reading α} {next twinNext : α → Reading β}
    (early : twins.InStep here start middle values first second)
    (refl : ∀ value, values value value)
    (late : ∀ value twinValue, values value twinValue →
      twins.InStep (fun _ => True) middle finish results (next value) (twinNext twinValue)) :
    twins.InStep here start finish results (first >>= next) (second >>= twinNext) := by
  constructor
  · intro cursor twin shares kind
    rw [EStateM.run_bind, EStateM.run_bind]
    have ended := early.shared shares kind
    generalize first.run cursor = result at ended ⊢
    generalize second.run twin = twinResult at ended ⊢
    cases ended with
    | ok related shares => exact (late _ _ related).shared shares trivial
    | error alike => exact .error alike
    | past far =>
        cases result with
        | ok value after => exact .past ((late value value (refl value)).past far)
        | error report stopped => exact .past far
  · intro cursor far
    rw [EStateM.run_bind]
    have ended := early.past far
    generalize first.run cursor = result at ended ⊢
    cases result with
    | ok value after => exact (late value value (refl value)).past ended
    | error report stopped => exact ended

/-- After a look at the current token, its kind is known. -/
theorem current {next twinNext : Token → Reading β}
    (late : ∀ token twin, twins.tokens token twin →
      twins.InStep (fun kind => here kind ∧ kind = token.kind) start finish results (next token)
        (twinNext twin)) :
    twins.InStep here start finish results (Reading.current >>= next)
      (Reading.current >>= twinNext) := by
  constructor
  · intro cursor twin shares kind
    exact (late _ _ shares.current).shared shares ⟨kind, rfl⟩
  · intro cursor past
    exact (late _ _ (twins.refl cursor.current)).past past

theorem weaken {strict : TokenKind → Prop} {first second : Reading α}
    (inStep : twins.InStep here start finish values first second)
    (implies : ∀ kind, strict kind → here kind) :
    twins.InStep strict start finish values first second :=
  ⟨fun shares kind => inStep.shared shares (implies _ kind), inStep.past⟩

theorem relate {first second : Reading α} {others : α → α → Prop}
    (inStep : twins.InStep here start finish values first second)
    (implies : ∀ {value twinValue}, values value twinValue → others value twinValue) :
    twins.InStep here start finish others first second :=
  ⟨fun shares kind => (inStep.shared shares kind).relate implies, inStep.past⟩

/-- With no shared token left, only the first matters. -/
theorem of_zero {first second third : Reading α}
    (inStep : twins.InStep here 0 middle values first second) :
    twins.InStep here 0 finish values first third :=
  ⟨fun shares _ => absurd shares.limit_pos (Nat.lt_irrefl 0), inStep.past⟩

/-- A repetition of the second that is allowed at least once where a token is shared. -/
theorem of_succ {first : Reading α} (second : Nat → Reading α)
    (step : ∀ count, start ≤ count + 1 →
      twins.InStep here start start values first (second (count + 1)))
    {count : Nat} (enough : start ≤ count) :
    twins.InStep here start start values first (second count) := by
  cases count with
  | zero =>
      obtain rfl := Nat.le_zero.1 enough
      exact (step 0 (Nat.zero_le _)).of_zero
  | succ count => exact step count enough

end InStep

theorem past_of_forward {reading : Reading α} (forward : reading.Forward) {cursor : Cursor}
    (past : twins.Past cursor) : twins.Past (placeOf (reading.run cursor)) := by
  have leads := forward cursor
  refine Nat.le_trans ?_ past
  rw [Cursor.tokens, Cursor.tokens, List.length_append, List.length_append]
  exact Nat.add_le_add_right leads.length_le 1

theorem inStep_pure {value twinValue : α} (related : values value twinValue) :
    twins.InStep here start start values (pure value) (pure twinValue) :=
  ⟨fun shares _ => .ok related shares, fun far => far⟩

theorem inStep_throw {report twinReport : Diagnostic}
    (alike : twins.problems report.problem twinReport.problem) :
    twins.InStep here start finish values (throw report) (throw twinReport) :=
  ⟨fun _ _ => .error alike, fun far => far⟩

theorem inStep_unexpected :
    twins.InStep here start finish values (Reading.unexpected : Reading α) Reading.unexpected :=
  ⟨fun shares _ => .error (twins.unexpected shares.current), fun far => far⟩

theorem inStep_advance (inside : ∀ kind, here kind → kind ≠ .eof) :
    twins.InStep here start (start - 1) twins.tokens advance advance := by
  refine ⟨fun shares kind => ?_, past_of_forward forward_advance⟩
  rcases shares.next (inside _ kind) with past | behind
  · exact .past past
  · exact .ok shares.current behind

theorem inStep_expect {kind : TokenKind} (inside : kind ≠ .eof) :
    twins.InStep here start (start - 1) twins.tokens (expect kind) (expect kind) := by
  refine ⟨fun {cursor twin} shares _ => ?_, past_of_forward (forward_expect kind)⟩
  have same := (twins.alike shares.current).kind
  by_cases is : cursor.current.kind = kind
  · rw [expect_eq_ok_iff.2 ⟨is, rfl, rfl⟩, expect_eq_ok_iff.2 ⟨same ▸ is, rfl, rfl⟩]
    rcases shares.next (is ▸ inside) with past | behind
    · exact .past past
    · exact .ok shares.current behind
  · rw [expect_eq_error_iff.2 ⟨is, rfl, rfl⟩, expect_eq_error_iff.2 ⟨same ▸ is, rfl, rfl⟩]
    exact .error (twins.unmet _ shares.current)

theorem inStep_remaining {first second : Nat → Reading α}
    (each : ∀ limit ≤ start, ∀ count twinCount, limit ≤ count → limit ≤ twinCount →
      twins.InStep here limit limit values (first count) (second twinCount)) :
    twins.InStep here start start values (do first (← remaining)) (do second (← remaining)) := by
  constructor
  · intro cursor twin shares kind
    obtain ⟨count, few, shares, enough, twinEnough⟩ := shares.exact
    exact ((each count few _ _ enough twinEnough).shared shares kind).mono few
  · intro cursor far
    exact (each 0 (Nat.zero_le _) _ 0 (Nat.zero_le _) (Nat.zero_le _)).past far

/-- A node is made with the same number in both. -/
theorem inStep_node {span twinSpan : Span} {build twinBuild : Site → Expr}
    (alike : ∀ id, (build ⟨id, span⟩).Alike (twinBuild ⟨id, twinSpan⟩)) :
    twins.InStep here start start Expr.Alike (node span build) (node twinSpan twinBuild) := by
  refine ⟨fun shares _ => ?_, past_of_forward (forward_node span build)⟩
  rw [run_node, run_node, Cursor.site, Cursor.site, shares.nodes]
  exact .ok (alike _) (shares.numbered 1)

/-- Operands are read in step where at most `limit` shared tokens are left. -/
def Operands (twins : Twins) (limit : Nat) (operand twinOperand : OperandReading) : Prop :=
  ∀ count ≤ limit, ∀ power,
    twins.InStep (fun _ => True) count count Expr.Alike (operand power) (twinOperand power)

variable {operand twinOperand : OperandReading}

theorem Operands.fewer {fewer : Nat} (operands : twins.Operands limit operand twinOperand)
    (less : fewer ≤ limit) : twins.Operands fewer operand twinOperand :=
  fun count few => operands count (Nat.le_trans few less)

def AlikeAll (exprs others : List Expr) : Prop :=
  Expr.mapSitesAll Site.unplaced exprs = Expr.mapSitesAll Site.unplaced others

theorem alikeAll_cons {expr other : Expr} {exprs others : List Expr} (first : expr.Alike other)
    (rest : AlikeAll exprs others) : AlikeAll (expr :: exprs) (other :: others) := by
  rw [AlikeAll, Expr.mapSitesAll, Expr.mapSitesAll, Expr.alike_iff.1 first, rest]

theorem alikeAll_append {exprs others rest twinRest : List Expr} (front : AlikeAll exprs others)
    (back : AlikeAll rest twinRest) : AlikeAll (exprs ++ rest) (others ++ twinRest) := by
  rw [AlikeAll, Expr.mapSitesAll_append, Expr.mapSitesAll_append, front, back]

theorem inStep_readArguments (operands : twins.Operands limit operand twinOperand)
    {count twinCount : Nat} (enough : limit ≤ count) (twinEnough : limit ≤ twinCount) :
    twins.InStep here limit limit AlikeAll (Item.readArguments operand count)
      (Item.readArguments twinOperand twinCount) := by
  induction count generalizing here limit twinCount with
  | zero =>
      obtain rfl := Nat.le_zero.1 enough
      have empty : twins.InStep here 0 0 AlikeAll (pure []) (pure []) := inStep_pure rfl
      exact empty.of_zero
  | succ count ih =>
      refine .of_succ (Item.readArguments twinOperand) (fun twinCount twinEnough => ?_) twinEnough
      apply ((operands limit Nat.le.refl .lowest).weaken fun _ _ => trivial).bind fun _ => rfl
      intro argument twinArgument alike
      apply InStep.current
      intro token twin like
      rw [← (twins.alike like).kind]
      by_cases comma : token.kind = .comma
      · simp only [comma, ↓reduceIte]
        apply (inStep_advance (by rintro _ ⟨-, rfl⟩; decide)).bind twins.refl
        intro _ _ _
        have later : twins.InStep (fun _ => True) (limit - 1) limit AlikeAll
            (Item.readArguments operand count) (Item.readArguments twinOperand twinCount) :=
          (ih (operands.fewer (Nat.sub_le limit 1)) (by omega) (by omega)).mono (Nat.sub_le limit 1)
        apply later.bind fun _ => rfl
        intro others twinOthers alikeOthers
        exact inStep_pure (alikeAll_cons alike alikeOthers)
      · simp only [comma, ↓reduceIte]
        exact inStep_pure (alikeAll_cons alike rfl)

def AlikeParts (items : List Item) (parts others : Parts items) : Prop :=
  AlikeAll (Parts.exprs items parts) (Parts.exprs items others)

theorem inStep_item (operands : twins.Operands limit operand twinOperand) (item : Item) :
    twins.InStep (fun _ => True) limit limit
      (fun part other => AlikeAll (item.exprs part) (item.exprs other))
      (item.read operand) (item.read twinOperand) := by
  cases item with
  | openParen =>
      exact ((inStep_expect (by decide)).mono (Nat.sub_le limit 1)).relate fun _ => rfl
  | closeParen =>
      exact ((inStep_expect (by decide)).mono (Nat.sub_le limit 1)).relate fun _ => rfl
  | operand power =>
      exact (operands limit Nat.le.refl power).relate fun alike => alikeAll_cons alike rfl
  | arguments =>
      apply InStep.current
      intro token twin like
      rw [← (twins.alike like).kind]
      by_cases closes : token.kind = .closeParen
      · simp only [closes, ↓reduceIte]
        exact inStep_pure rfl
      · simp only [closes, ↓reduceIte]
        exact inStep_remaining fun count few _ _ => inStep_readArguments (operands.fewer few)

theorem inStep_parts (operands : twins.Operands limit operand twinOperand) (items : List Item) :
    twins.InStep (fun _ => True) limit limit (AlikeParts items) (Parts.read operand items)
      (Parts.read twinOperand items) := by
  induction items with
  | nil => exact inStep_pure rfl
  | cons item items ih =>
      apply (inStep_item operands item).bind fun _ => rfl
      intro part twinPart alike
      apply ih.bind fun _ => rfl
      intro parts twinParts alikeRest
      exact inStep_pure (alikeAll_append alike alikeRest)

theorem inStep_production (operands : twins.Operands limit operand twinOperand)
    {production other : Production} (alike : production.Alike Site.unplaced other)
    (first second : Span) :
    twins.InStep (fun _ => True) limit limit Expr.Alike (production.read operand first)
      (other.read twinOperand second) := by
  cases alike with
  | @intro items build twinBuild wrapped each =>
      apply (inStep_parts operands items).bind fun _ => rfl
      intro parts twinParts alikeParts
      have made (id : NodeId) (span twinSpan : Span) :
          (build parts ⟨id, span⟩).Alike (twinBuild twinParts ⟨id, twinSpan⟩) :=
        Expr.alike_iff.2 (each alikeParts rfl)
      dsimp only
      apply (inStep_node fun id => made id _ _).bind fun _ => rfl
      intro inner twinInner alikeInner
      cases wrapped with
      | false => exact inStep_pure alikeInner
      | true =>
          rw [if_pos rfl, if_pos rfl]
          refine inStep_node fun id => Expr.alike_iff.2 ?_
          simp only [Expr.mapSites, Expr.alike_iff.1 alikeInner, Site.unplaced]

/-- A rule does the same at both tokens. -/
inductive AlikeOpening (twins : Twins) : Opening → Opening → Prop
  | refused {report twinReport : Diagnostic} : twins.problems report.problem twinReport.problem →
      AlikeOpening twins (.refused report) (.refused twinReport)
  | refusedBehind {report twinReport : Diagnostic} :
      twins.problems report.problem twinReport.problem →
      AlikeOpening twins (.refusedBehind report) (.refusedBehind twinReport)
  | taken {production other : Production} : production.Alike Site.unplaced other →
      AlikeOpening twins (.taken production) (.taken other)

theorem alike_leading {rule : LeadingRule} {token twin : Token}
    (found : Grammar.standard.leading token.kind = some rule) (like : twins.tokens token twin) :
    twins.AlikeOpening (rule.opening token) (rule.opening twin) := by
  have alike := twins.alike like
  have twinFound := found
  rw [alike.kind] at twinFound
  rcases LeadingRule.opening_taken_or_refused found with
    ⟨production, opens⟩ | ⟨kind, unread, refused⟩
  · have takes := LeadingRule.takes_of_opening found opens
    rw [opens, (takes.twin alike).opening_eq.2]
    exact .taken (takes.alike Site.unplaced)
  · have value := alike.value (by rw [kind]; rfl)
    rcases LeadingRule.opening_taken_or_refused twinFound with
      ⟨production, opens⟩ | ⟨_, _, twinRefused⟩
    · have takes := (LeadingRule.takes_of_opening twinFound opens).twin alike.symm
      rw [takes.opening_eq.2] at refused
      cases refused
    · rw [refused, twinRefused, ← value]
      exact .refused (twins.same _)

theorem alike_trailing {rule : TrailingRule} {tighter : BindingPower} {left twinLeft : Expr}
    {token twin : Token} (found : Grammar.standard.trailing token.kind = some (tighter, rule))
    (like : twins.tokens token twin) (same : left.Alike twinLeft) :
    twins.AlikeOpening (rule.opening tighter left token) (rule.opening tighter twinLeft twin) := by
  have kind := (twins.alike like).kind
  have sites := Expr.alike_iff.1 same
  have twinFound := found
  rw [kind] at twinFound
  rcases TrailingRule.opening_taken_or_refused found with ⟨production, opens⟩ | refused
  · obtain ⟨other, twinTakes, alike⟩ := (TrailingRule.takes_of_opening found opens).twin sites kind
    rw [opens, twinTakes.opening_eq.2]
    exact .taken alike
  · rcases TrailingRule.opening_taken_or_refused twinFound with ⟨production, opens⟩ | twinRefused
    · obtain ⟨_, takes, -⟩ :=
        (TrailingRule.takes_of_opening twinFound opens).twin sites.symm kind.symm
      rw [takes.opening_eq.2] at refused
      cases refused
    · rw [refused, twinRefused]
      exact .refusedBehind (twins.same _)

theorem past_opening (operands : twins.Operands limit operand twinOperand) (opening : Opening)
    (first : Span) {cursor : Cursor} (far : twins.Past cursor) :
    twins.Past (placeOf ((opening.read operand first).run cursor)) := by
  have behind : twins.Past cursor.next := past_of_forward forward_advance far
  cases opening with
  | refused report => exact far
  | refusedBehind report => exact behind
  | taken production =>
      have ended := (inStep_parts operands production.items).past behind
      cases result : (Opening.read operand first (.taken production)).run cursor with
      | ok expr after =>
          obtain ⟨_, parts, between, ⟨⟩, read, rfl, rfl⟩ := Opening.read_eq_ok_iff.1 result
          rw [read] at ended
          exact ended
      | error report stopped =>
          rcases Opening.read_eq_error_iff.1 result with ⟨⟨⟩, -⟩ | ⟨⟨⟩, -⟩ | ⟨_, ⟨⟩, failed⟩
          rw [failed] at ended
          exact ended

theorem inStep_opening (operands : twins.Operands (limit - 1) operand twinOperand)
    {opening other : Opening} (alike : twins.AlikeOpening opening other) (first second : Span)
    (inside : ∀ kind, here kind → kind ≠ .eof) :
    twins.InStep here limit (limit - 1) Expr.Alike (opening.read operand first)
      (other.read twinOperand second) := by
  cases alike with
  | refused alike => exact inStep_throw alike
  | refusedBehind alike =>
      apply (inStep_advance inside).bind twins.refl
      intro _ _ _
      exact inStep_throw alike
  | taken alike =>
      apply (inStep_advance inside).bind twins.refl
      intro _ _ _
      exact inStep_production operands alike first second

theorem inStep_leading (operands : twins.Operands (limit - 1) operand twinOperand)
    (rule : LeadingRule) :
    twins.InStep (fun kind => Grammar.standard.leading kind = some rule) limit (limit - 1)
      Expr.Alike (rule.read operand) (rule.read twinOperand) := by
  refine ⟨fun shares found => ?_, past_opening operands _ _⟩
  rw [LeadingRule.run_read, LeadingRule.run_read]
  exact (inStep_opening operands (alike_leading found shares.current) _ _
    fun _ => Grammar.ne_eof_of_leading).shared shares found

theorem inStep_trailing (operands : twins.Operands (limit - 1) operand twinOperand)
    {left twinLeft : Expr} (alike : left.Alike twinLeft) (tighter : BindingPower)
    (rule : TrailingRule) :
    twins.InStep (fun kind => Grammar.standard.trailing kind = some (tighter, rule)) limit
      (limit - 1) Expr.Alike (rule.read operand tighter left)
      (rule.read twinOperand tighter twinLeft) := by
  refine ⟨fun shares found => ?_, past_opening operands _ _⟩
  rw [TrailingRule.run_read, TrailingRule.run_read]
  exact (inStep_opening operands (alike_trailing found shares.current alike) _ _
    fun _ => Grammar.ne_eof_of_trailing).shared shares found

open Grammar

theorem inStep_extend (operands : twins.Operands limit operand twinOperand)
    (power : BindingPower) {count twinCount : Nat} (enough : limit ≤ count)
    (twinEnough : limit ≤ twinCount) {left twinLeft : Expr} (alike : left.Alike twinLeft) :
    twins.InStep here limit limit Expr.Alike (extend standard operand power count left)
      (extend standard twinOperand power twinCount twinLeft) := by
  induction count generalizing here limit twinCount left twinLeft with
  | zero =>
      obtain rfl := Nat.le_zero.1 enough
      have stays : twins.InStep here 0 0 Expr.Alike (pure left) (pure twinLeft) :=
        inStep_pure alike
      exact stays.of_zero
  | succ count ih =>
      refine .of_succ (extend standard twinOperand power · twinLeft)
        (fun twinCount twinEnough => ?_) twinEnough
      apply InStep.current
      intro token twin like
      rw [← (twins.alike like).kind]
      cases found : standard.trailing token.kind with
      | none => exact inStep_pure alike
      | some entry =>
          by_cases binds : power < entry.1
          · simp only [binds, ↓reduceIte]
            have fewer := operands.fewer (Nat.sub_le limit 1)
            apply ((inStep_trailing fewer alike entry.1 entry.2).weaken
              (by rintro _ ⟨-, rfl⟩; exact found)).bind fun _ => rfl
            intro extended twinExtended alikeExtended
            exact (ih fewer (by omega) (by omega) alikeExtended).mono (Nat.sub_le limit 1)
          · simp only [binds, ↓reduceIte]
            exact inStep_pure alike

theorem inStep_readWithin {depth twinDepth : Nat} (enough : limit ≤ depth)
    (twinEnough : limit ≤ twinDepth) (power : BindingPower) :
    twins.InStep here limit limit Expr.Alike (readWithin standard depth power)
      (readWithin standard twinDepth power) := by
  induction depth generalizing here limit twinDepth power with
  | zero =>
      obtain rfl := Nat.le_zero.1 enough
      have stays : twins.InStep here 0 0 Expr.Alike Reading.unexpected Reading.unexpected :=
        inStep_unexpected
      exact stays.of_zero
  | succ depth ih =>
      refine .of_succ (readWithin standard · power) (fun twinDepth twinEnough => ?_) twinEnough
      have operands : twins.Operands (limit - 1) (readWithin standard depth)
          (readWithin standard twinDepth) :=
        fun count few power => ih (by omega) (by omega) power
      apply InStep.current
      intro token twin like
      rw [← (twins.alike like).kind]
      cases found : standard.leading token.kind with
      | none => exact inStep_unexpected
      | some rule =>
          apply ((inStep_leading operands rule).weaken
            (by rintro _ ⟨-, rfl⟩; exact found)).bind fun _ => rfl
          intro left twinLeft alike
          exact (inStep_extend operands power (by omega) (by omega) alike).mono
            (Nat.sub_le limit 1)

theorem inStep_readAll (limit : Nat) :
    twins.InStep (fun _ => True) limit limit Expr.Alike standard.readAll standard.readAll := by
  have read : twins.InStep (fun _ => True) limit limit Expr.Alike (standard.read .lowest)
      (standard.read .lowest) :=
    inStep_remaining fun _ _ _ _ enough twinEnough => inStep_readWithin enough twinEnough .lowest
  apply read.bind fun _ => rfl
  intro expr twinExpr alike
  refine ⟨fun {cursor twin} shares _ => ?_, fun {cursor} far => ?_⟩
  · rw [EStateM.run_bind, EStateM.run_bind, EStateM.run_get, EStateM.run_get]
    have same : twin.hasTokens = cursor.hasTokens := by
      rw [Cursor.hasTokens, Cursor.hasTokens, (twins.alike shares.current).kind]
    simp only [same]
    by_cases more : cursor.hasTokens
    · simp only [more, ↓reduceIte]
      exact .error (twins.unexpected shares.current)
    · simp only [more, Bool.false_eq_true, ↓reduceIte]
      exact .ok alike shares
  · rw [EStateM.run_bind, EStateM.run_get]
    simp only
    split <;> exact far

/-- Lists of tokens that start alike are read alike, unless more was looked at than their start. -/
theorem inStep_ofTokens {tokens others front twinFront : List Token}
    (alike : List.Forall₂ twins.tokens front twinFront) (nonempty : front ≠ [])
    (first : (Cursor.ofTokens tokens).tokens = front ++ twins.rest)
    (second : (Cursor.ofTokens others).tokens = twinFront ++ twins.other) :
    (∃ expr other, Expr.ofTokens tokens = .ok expr ∧ Expr.ofTokens others = .ok other ∧
      expr.Alike other) ∨
    (∃ report other, Expr.ofTokens tokens = .error report ∧ Expr.ofTokens others = .error other ∧
      twins.problems report.problem other.problem) ∨
    twins.Past (placeOf (standard.readAll.run (Cursor.ofTokens tokens))) := by
  have nodes : (Cursor.ofTokens tokens).nodes = (Cursor.ofTokens others).nodes := by
    rw [Cursor.nodes_ofTokens, Cursor.nodes_ofTokens]
  have shares : twins.Shares front.length (Cursor.ofTokens tokens) (Cursor.ofTokens others) :=
    ⟨Cursor.kind_last_ofTokens tokens, Cursor.kind_last_ofTokens others, nodes, front, twinFront,
      nonempty, Nat.le.refl, alike, first, second⟩
  have ended := (inStep_readAll front.length).shared shares trivial
  rw [Expr.ofTokens, Expr.ofTokens, runOn, runOn]
  generalize standard.readAll.run (Cursor.ofTokens tokens) = result at ended ⊢
  generalize standard.readAll.run (Cursor.ofTokens others) = twinResult at ended ⊢
  cases ended with
  | ok alike => exact Or.inl ⟨_, _, rfl, rfl, alike⟩
  | error alike => exact Or.inr (Or.inl ⟨_, _, rfl, rfl, alike⟩)
  | past far => exact Or.inr (Or.inr far)

end Twins

end DialogueTyping
