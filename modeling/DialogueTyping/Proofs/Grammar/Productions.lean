import DialogueTyping.Proofs.Expr.Unplaced
import DialogueTyping.Proofs.Grammar.Rules
import DialogueTyping.Proofs.Grammar.Spelling

set_option autoImplicit false

namespace DialogueTyping

open Grammar

/-- A token of the kind does not bind tighter than `power`. -/
def TokenKind.Stops (power : BindingPower) (kind : TokenKind) : Prop :=
  ∀ tighter rule, standard.trailing kind = some (tighter, rule) → ¬ power < tighter

namespace Cursor

def Stops (power : BindingPower) (cursor : Cursor) : Prop := cursor.current.kind.Stops power

theorem stops_or_tighter (power : BindingPower) (cursor : Cursor) :
    cursor.Stops power ∨ ∃ tighter rule,
      standard.trailing cursor.current.kind = some (tighter, rule) ∧ power < tighter := by
  cases found : standard.trailing cursor.current.kind with
  | none =>
      refine Or.inl fun tighter rule absent => ?_
      rw [found] at absent
      cases absent
  | some entry =>
      by_cases binds : power < entry.1
      · exact Or.inr ⟨entry.1, entry.2, rfl, binds⟩
      · refine Or.inl fun tighter rule same => ?_
        rw [found] at same
        cases same
        exact binds

end Cursor

namespace Item

/-- The expressions in what an item was read as. -/
def exprs : (item : Item) → item.Part → List Expr
  | openParen, _ | closeParen, _ => []
  | operand _, expr => [expr]
  | arguments, exprs => exprs

/-- The tokens are a way to write what an item was read as. -/
def Spells : (item : Item) → item.Part → List Token → Prop
  | openParen, token, tokens => token.kind = .openParen ∧ tokens = [token]
  | operand _, expr, tokens => expr.Spells tokens
  | arguments, exprs, tokens => Expr.SpellsAll exprs tokens
  | closeParen, token, tokens => token.kind = .closeParen ∧ tokens = [token]

/-- The expressions are nested as their operators ask for, and those of an operand bind tighter than
its power. -/
def Shaped : (item : Item) → item.Part → Prop
  | openParen, _ | closeParen, _ => True
  | operand power, expr => expr.Shaped ∧ expr.BindsTighter power
  | arguments, exprs => ∀ expr ∈ exprs, expr.Shaped

/-- What was read as an operand ends before a token of the kind. -/
def EndsAt (next : TokenKind) : (item : Item) → item.Part → Prop
  | operand power, expr => expr.Precedes next ∧ next.Stops power
  | openParen, _ | arguments, _ | closeParen, _ => True

end Item

namespace Parts

def exprs : (items : List Item) → Parts items → List Expr
  | [], _ => []
  | item :: items, (part, parts) => item.exprs part ++ exprs items parts

def Spells : (items : List Item) → Parts items → List Token → Prop
  | [], _, tokens => tokens = []
  | item :: items, (part, parts), tokens =>
    ∃ first rest, item.Spells part first ∧ Spells items parts rest ∧ tokens = first ++ rest

def Shaped : (items : List Item) → Parts items → Prop
  | [], _ => True
  | item :: items, (part, parts) => item.Shaped part ∧ Shaped items parts

/-- If the last item is an operand, it ends before a token of the kind. -/
def EndAt (next : TokenKind) : (items : List Item) → Parts items → Prop
  | [], _ => True
  | [item], (part, _) => item.EndsAt next part
  | _ :: item :: items, (_, parts) => EndAt next (item :: items) parts

end Parts

theorem Token.asAtom_cases {token : Token} {build : Site → Expr}
    (known : token.asAtom = .ok build) :
    (∃ value : Literal, value.WrittenAs token ∧ build = (.literal · value)) ∨
      token.kind = .variableName ∧ build = (.reference · token.value) := by
  unfold asAtom at known
  split at known
  case h_1 kind =>
      split at known
      · rename_i value read
        cases known
        exact Or.inl ⟨.number value, ⟨kind, read⟩, rfl⟩
      · cases known
  case h_2 kind =>
      cases known
      exact Or.inl ⟨.string token.value, ⟨kind, rfl⟩, rfl⟩
  case h_3 kind =>
      cases known
      exact Or.inl ⟨.bool true, kind, rfl⟩
  case h_4 kind =>
      cases known
      exact Or.inl ⟨.bool false, kind, rfl⟩
  case h_5 kind =>
      cases known
      exact Or.inl ⟨.null, kind, rfl⟩
  case h_6 kind =>
      cases known
      exact Or.inr ⟨kind, rfl⟩
  case h_7 => cases known

/-- Only an atom around a reference can be assigned to. -/
theorem Expr.Shaped.eq_of_reference? {expr : Expr} {name : String} (shaped : expr.Shaped)
    (known : expr.reference? = some name) :
    ∃ site inner, expr = atom site (Expr.reference inner name) := by
  cases shaped with
  | reference =>
      cases known
      exact ⟨_, _, rfl⟩
  | literal | call | unary | binary | assignment | paren | conversion | condition => cases known

/-- What reads its last operand as far as it goes has no operator behind it. -/
theorem Expr.Precedes.of_stops_lowest {kind : TokenKind} {expr : Expr}
    (stops : kind.Stops .lowest) : expr.Precedes kind := by
  intro power rule found
  exact absurd (lowest_lt_of_trailing found) (stops power rule found)

theorem Expr.bindsTighter_lowest (expr : Expr) : expr.BindsTighter .lowest := by
  intro outer known
  cases expr with
  | binary _ operator => cases known; cases operator <;> decide
  | assignment => cases known; decide
  | literal | reference | call | unary | paren | atom | conversion | condition => cases known

/-- Nothing that could be read on follows an expression which takes all that follows. -/
theorem Expr.Precedes.trailing_eq_none {kind : TokenKind} {expr : Expr}
    (precedes : expr.Precedes kind)
    (greedy : expr.EndsInCondition ∨ expr.power? = some .assignment) :
    standard.trailing kind = none := by
  cases found : standard.trailing kind with
  | none => rfl
  | some entry =>
      obtain ⟨before, loose⟩ := precedes entry.1 entry.2 found
      rcases greedy with ends | assigns
      · exact absurd ends before.ends
      · exact absurd assigns loose

theorem Item.endsAt_of_trailing_none {kind : TokenKind} (plain : standard.trailing kind = none)
    (item : Item) (part : item.Part) : item.EndsAt kind part := by
  have absent {power : BindingPower} {rule : TrailingRule} :
      standard.trailing kind ≠ some (power, rule) := by
    rw [plain]
    exact fun found => by cases found
  cases item with
  | operand =>
      exact ⟨fun _ _ found => absurd found absent, fun _ _ found => absurd found absent⟩
  | openParen | arguments | closeParen => trivial

/-- What the rule for a token at the start of an expression goes on with. -/
inductive LeadingRule.Takes (token : Token) : LeadingRule → Production → Prop
  | literal {value : Literal} : value.WrittenAs token →
      Takes token .atom ⟨[], fun _ => (.literal · value), true⟩
  | reference : token.kind = .variableName →
      Takes token .atom ⟨[], fun _ => (.reference · token.value), true⟩
  | call : token.kind = .identifier →
      Takes token .call ⟨[.openParen, .arguments, .closeParen],
        fun (_, arguments, _) => (.call · token.value arguments), true⟩
  | unary {operator : UnaryOperator} : token.kind = operator.kind →
      Takes token .unary ⟨[.operand .unary], fun (inner, _) => (.unary · operator inner), false⟩
  | group : token.kind = .openParen →
      Takes token .group ⟨[.operand .lowest, .closeParen],
        fun (inner, _) => (.paren · inner), false⟩
  | conversion {word : String} : token.kind.typeWord? = some word →
      Takes token .conversion ⟨[.openParen, .operand .lowest, .closeParen],
        fun (_, body, _) => (.conversion · token.value body), false⟩
  | condition {clause : Clause} : token.kind = clause.kind →
      Takes token .condition ⟨[.operand .lowest],
        fun (body, _) => (.condition · clause body), false⟩

/-- What the rule for a token after `left` goes on with. -/
inductive TrailingRule.Takes (left : Expr) (token : Token) :
    BindingPower → TrailingRule → Production → Prop
  | binary {operator : BinaryOperator} : token.kind = operator.kind →
      Takes left token operator.power .binary ⟨[.operand operator.power],
        fun (right, _) => (.binary · operator left right), false⟩
  | assignment {operator : AssignmentOperator} {name : String} : token.kind = operator.kind →
      left.reference? = some name →
      Takes left token .assignment .assignment ⟨[.operand .lowest],
        fun (value, _) => (.assignment · operator left.unwrapped value), false⟩

theorem LeadingRule.takes_of_opening {rule : LeadingRule} {token : Token} {production : Production}
    (found : standard.leading token.kind = some rule)
    (opens : rule.opening token = .taken production) : rule.Takes token production := by
  cases rule with
  | atom =>
      rw [opening] at opens
      split at opens
      · cases opens
      · rename_i build known
        cases opens
        rcases Token.asAtom_cases known with ⟨value, written, rfl⟩ | ⟨kind, rfl⟩
        · exact .literal written
        · exact .reference kind
  | call =>
      have kind := kind_of_leading_call found
      rw [opening, if_pos kind] at opens
      cases opens
      exact .call kind
  | unary =>
      cases opens
      exact .unary (kind_of_leading_unary found)
  | group =>
      cases opens
      exact .group (kind_of_leading_group found)
  | conversion =>
      obtain ⟨word, named⟩ := typeWord?_of_leading_conversion found
      cases opens
      exact .conversion named
  | condition =>
      cases opens
      exact .condition (kind_of_leading_condition found)

theorem LeadingRule.Takes.opening_eq {rule : LeadingRule} {token : Token} {production : Production}
    (takes : rule.Takes token production) :
    standard.leading token.kind = some rule ∧ rule.opening token = .taken production := by
  cases takes with
  | literal written =>
      obtain ⟨found, known⟩ := leading_literal written
      exact ⟨found, by rw [opening, known]⟩
  | reference kind =>
      obtain ⟨found, known⟩ := leading_variableName kind
      exact ⟨found, by rw [opening, known]⟩
  | call kind => exact ⟨by rw [kind]; rfl, by rw [opening, if_pos kind]⟩
  | @unary operator kind =>
      obtain ⟨found, same⟩ := leading_unary operator
      rw [← kind] at found same
      exact ⟨found, by rw [opening, same]⟩
  | group kind => exact ⟨by rw [kind]; rfl, rfl⟩
  | conversion named => exact ⟨leading_conversion named, rfl⟩
  | @condition clause kind =>
      obtain ⟨found, same⟩ := leading_condition clause
      rw [← kind] at found same
      exact ⟨found, by rw [opening, same]⟩

theorem TrailingRule.takes_of_opening {rule : TrailingRule} {tighter : BindingPower} {left : Expr}
    {token : Token} {production : Production}
    (found : standard.trailing token.kind = some (tighter, rule))
    (opens : rule.opening tighter left token = .taken production) :
    rule.Takes left token tighter production := by
  cases rule with
  | binary =>
      rw [opening] at opens
      split at opens
      · cases opens
      · rename_i operator known
        cases opens
        obtain ⟨kind, rfl⟩ := power_eq_of_trailing_binary found known
        exact .binary kind
  | assignment =>
      rw [opening] at opens
      split at opens
      · cases opens
      · rename_i name known
        cases opens
        obtain ⟨kind, rfl⟩ := kind_of_trailing_assignment found
        exact .assignment kind known

theorem TrailingRule.Takes.opening_eq {rule : TrailingRule} {tighter : BindingPower} {left : Expr}
    {token : Token} {production : Production} (takes : rule.Takes left token tighter production) :
    standard.trailing token.kind = some (tighter, rule) ∧
      rule.opening tighter left token = .taken production := by
  cases takes with
  | @binary operator kind =>
      have known := binaryOperator?_kind operator
      rw [← kind] at known
      exact ⟨by rw [kind, trailing_binary], by rw [opening, known]⟩
  | @assignment operator _ kind known =>
      have same := assignmentOperator_kind operator
      rw [← kind] at same
      exact ⟨by rw [kind, trailing_assignment], by rw [opening, known, same]⟩

/-- At the start of an expression, only a number can be refused. -/
theorem LeadingRule.opening_taken_or_refused {rule : LeadingRule} {token : Token}
    (found : standard.leading token.kind = some rule) :
    (∃ production, rule.opening token = .taken production) ∨
      token.kind = .number ∧ Numeral.read? token.value.toList = none ∧
        rule.opening token =
          .refused (.atOffset (.invalidNumber token.value) token.span.start) := by
  cases rule with
  | atom =>
      obtain ⟨kind, value, span⟩ := token
      cases kind <;> cases found
      case number.refl =>
          cases read : Numeral.read? value.toList with
          | none => exact Or.inr ⟨rfl, rfl, by simp only [opening, Token.asAtom, read]⟩
          | some number =>
              refine Or.inl ⟨⟨[], fun _ => (.literal · (.number number)), true⟩, ?_⟩
              simp only [opening, Token.asAtom, read]
      all_goals exact Or.inl ⟨_, rfl⟩
  | call => exact Or.inl ⟨_, by rw [opening, if_pos (kind_of_leading_call found)]⟩
  | unary | group | conversion | condition => exact Or.inl ⟨_, rfl⟩

theorem TrailingRule.opening_taken_or_refused {rule : TrailingRule} {tighter : BindingPower}
    {left : Expr} {token : Token} (found : standard.trailing token.kind = some (tighter, rule)) :
    (∃ production, rule.opening tighter left token = .taken production) ∨
      rule.opening tighter left token =
        .refusedBehind (.atOffset .invalidAssignmentTarget left.span.start) := by
  cases rule with
  | binary =>
      obtain ⟨operator, known⟩ := binaryOperator?_of_trailing found
      exact Or.inl ⟨_, by rw [opening, known]⟩
  | assignment =>
      cases known : left.reference? with
      | none => exact Or.inr (by rw [opening, known])
      | some name => exact Or.inl ⟨_, by rw [opening, known]⟩

theorem Production.spells_node {production : Production} {parts : Parts production.items}
    {site : Site} {tokens : List Token} (spelled : (production.build parts site).Spells tokens)
    (outer : Site) : (production.node parts site outer).Spells tokens := by
  unfold node
  split
  · exact .atom spelled
  · exact spelled

/-- Both read the same items, and make of them what differs in its sites only where they do. `f` is
what is left of a site. -/
inductive Production.Alike (f : Site → Site) : Production → Production → Prop
  | intro {items : List Item} {build twinBuild : Parts items → Site → Expr} {wrapped : Bool} :
      (∀ {parts twinParts : Parts items} {site twinSite : Site},
        Expr.mapSitesAll f (Parts.exprs items parts) =
          Expr.mapSitesAll f (Parts.exprs items twinParts) → f site = f twinSite →
        (build parts site).mapSites f = (twinBuild twinParts twinSite).mapSites f) →
      Alike f ⟨items, build, wrapped⟩ ⟨items, twinBuild, wrapped⟩

theorem Production.mapSites_node {items : List Item} {build twinBuild : Parts items → Site → Expr}
    {wrapped : Bool} {f : Site → Site} {parts twinParts : Parts items}
    {site twinSite outer twinOuter : Site}
    (same : (build parts site).mapSites f = (twinBuild twinParts twinSite).mapSites f)
    (outers : f outer = f twinOuter) :
    (node ⟨items, build, wrapped⟩ parts site outer).mapSites f =
      (node ⟨items, twinBuild, wrapped⟩ twinParts twinSite twinOuter).mapSites f := by
  cases wrapped with
  | false => exact same
  | true => simp only [node, ↓reduceIte, Expr.mapSites, same, outers]

theorem Expr.BindsTighter.power?_eq_none {expr : Expr} (tight : expr.BindsTighter .unary) :
    expr.power? = none := by
  cases outer : expr.power? with
  | none => rfl
  | some power => exact absurd (tight power outer) (by cases power <;> decide)

namespace LeadingRule.Takes

variable {rule : LeadingRule} {token : Token} {production : Production}
  {parts : Parts production.items}

theorem ne_eof (takes : rule.Takes token production) : token.kind ≠ .eof :=
  ne_eof_of_leading takes.opening_eq.1

theorem site_build (takes : rule.Takes token production) (parts : Parts production.items)
    (site : Site) : (production.build parts site).site = site := by
  cases takes <;> rfl

theorem children_build (takes : rule.Takes token production) (parts : Parts production.items)
    (site : Site) :
    (production.build parts site).children = Parts.exprs production.items parts := by
  cases takes with
  | call => exact (List.append_nil _).symm
  | literal | reference | unary | group | conversion | condition => rfl

theorem spells {tokens : List Token} (takes : rule.Takes token production)
    (own : ∀ word ∈ token.kind.typeWord?, token.value = word)
    (spelled : Parts.Spells production.items parts tokens) (site : Site) :
    (production.build parts site).Spells (token :: tokens) := by
  cases takes with
  | literal written =>
      obtain rfl := spelled
      exact .literal written
  | reference kind =>
      obtain rfl := spelled
      exact .reference kind
  | call kind =>
      obtain ⟨_, _, ⟨opens, rfl⟩, ⟨inner, _, listed, ⟨_, _, ⟨closes, rfl⟩, rfl, rfl⟩, rfl⟩, rfl⟩ :=
        spelled
      exact .call kind opens listed closes
  | unary kind =>
      obtain ⟨inner, _, spelled, rfl, rfl⟩ := spelled
      rw [List.append_nil]
      exact .unary kind spelled
  | group kind =>
      obtain ⟨inner, _, spelled, ⟨_, _, ⟨closes, rfl⟩, rfl, rfl⟩, rfl⟩ := spelled
      exact .paren kind spelled closes
  | conversion named =>
      obtain ⟨_, _, ⟨opens, rfl⟩, ⟨inner, _, spelled, ⟨_, _, ⟨closes, rfl⟩, rfl, rfl⟩, rfl⟩, rfl⟩ :=
        spelled
      exact .conversion (by rw [own _ named, named]) opens spelled closes
  | condition kind =>
      obtain ⟨inner, _, spelled, rfl, rfl⟩ := spelled
      rw [List.append_nil]
      exact .condition kind spelled

/-- What a token starts is nested as it has to be, and it is no operator with an operand before
it. -/
theorem shaped (takes : rule.Takes token production)
    (own : ∀ word ∈ token.kind.typeWord?, token.value = word)
    (shaped : Parts.Shaped production.items parts) (site outer : Site) :
    (production.node parts site outer).Shaped ∧
      (production.node parts site outer).power? = none := by
  cases takes with
  | literal => exact ⟨.literal, rfl⟩
  | reference => exact ⟨.reference, rfl⟩
  | call => exact ⟨.call shaped.2.1, rfl⟩
  | unary => exact ⟨.unary shaped.1.1 shaped.1.2.power?_eq_none, rfl⟩
  | group => exact ⟨.paren shaped.1.1, rfl⟩
  | conversion named => exact ⟨.conversion (by rw [own _ named, named]) shaped.2.1.1, rfl⟩
  | condition => exact ⟨.condition shaped.1.1, rfl⟩

/-- What is made of expressions that differ in their sites only differs in its sites only. -/
theorem mapSites_build {f : Site → Site} {twinParts : Parts production.items} {site twinSite : Site}
    (takes : rule.Takes token production)
    (same : Expr.mapSitesAll f (Parts.exprs production.items parts) =
      Expr.mapSitesAll f (Parts.exprs production.items twinParts)) (sites : f site = f twinSite) :
    (production.build parts site).mapSites f =
      (production.build twinParts twinSite).mapSites f := by
  cases takes with
  | literal | reference => simp only [Expr.mapSites, sites]
  | call =>
      simp only [Parts.exprs, Item.exprs, List.nil_append, List.append_nil] at same
      simp only [Expr.mapSites, sites, same]
  | unary | group | conversion | condition =>
      have inner := (List.cons.inj same).1
      simp only [Expr.mapSites, sites, inner]

theorem alike (takes : rule.Takes token production) (f : Site → Site) :
    production.Alike f production :=
  .intro takes.mapSites_build

theorem precedes {next : TokenKind} (takes : rule.Takes token production)
    (ends : Parts.EndAt next production.items parts) (site outer : Site) :
    (production.node parts site outer).Precedes next := by
  cases takes with
  | literal | reference | call | group | conversion => exact .of_closed rfl id
  | unary =>
      intro power rule found
      exact Expr.StandsBefore.of_plain rfl (ends.1 power rule found).1.ends
  | condition => exact .of_stops_lowest ends.2

theorem endAt {next : TokenKind} {site outer : Site} (takes : rule.Takes token production)
    (shaped : Parts.Shaped production.items parts)
    (precedes : (production.node parts site outer).Precedes next) :
    Parts.EndAt next production.items parts := by
  cases takes with
  | literal | reference | call | group | conversion => trivial
  | unary =>
      refine ⟨fun power rule found => ?_, fun _ _ found => lt_unary_of_trailing found⟩
      exact Expr.StandsBefore.of_plain shaped.1.2.power?_eq_none (precedes power rule found).1.ends
  | condition => exact Item.endsAt_of_trailing_none (precedes.trailing_eq_none (Or.inl trivial)) _ _

end LeadingRule.Takes

namespace TrailingRule.Takes

variable {rule : TrailingRule} {tighter : BindingPower} {left : Expr} {token : Token}
  {production : Production} {parts : Parts production.items}

theorem ne_eof (takes : rule.Takes left token tighter production) : token.kind ≠ .eof :=
  ne_eof_of_trailing takes.opening_eq.1

theorem site_build (takes : rule.Takes left token tighter production)
    (parts : Parts production.items) (site : Site) :
    (production.build parts site).site = site := by
  cases takes <;> rfl

theorem spells {front tokens : List Token} (takes : rule.Takes left token tighter production)
    (spelledLeft : left.Spells front) (shapedLeft : left.Shaped)
    (spelled : Parts.Spells production.items parts tokens) (site : Site) :
    (production.build parts site).Spells (front ++ token :: tokens) := by
  cases takes with
  | binary kind =>
      obtain ⟨inner, _, spelled, rfl, rfl⟩ := spelled
      rw [List.append_nil]
      exact .binary spelledLeft kind spelled
  | assignment kind known =>
      obtain ⟨inner, _, spelled, rfl, rfl⟩ := spelled
      obtain ⟨_, _, rfl⟩ := shapedLeft.eq_of_reference? known
      cases spelledLeft with
      | atom target =>
          rw [List.append_nil]
          exact .assignment target kind spelled

theorem shaped (takes : rule.Takes left token tighter production) (shapedLeft : left.Shaped)
    (before : left.StandsBefore tighter) (shaped : Parts.Shaped production.items parts)
    (site outer : Site) :
    (production.node parts site outer).Shaped ∧
      (production.node parts site outer).power? = some tighter := by
  cases takes with
  | binary => exact ⟨.binary shapedLeft before shaped.1.1 shaped.1.2, rfl⟩
  | assignment _ known =>
      obtain ⟨_, _, rfl⟩ := shapedLeft.eq_of_reference? known
      exact ⟨.assignment shaped.1.1, rfl⟩

/-- The same operator behind an expression that differs in its sites only. -/
theorem twin {twinLeft : Expr} {twin : Token} {f : Site → Site}
    (takes : rule.Takes left token tighter production)
    (same : left.mapSites f = twinLeft.mapSites f) (kind : token.kind = twin.kind) :
    ∃ twinProduction, rule.Takes twinLeft twin tighter twinProduction ∧
      production.Alike f twinProduction := by
  cases takes with
  | binary is =>
      refine ⟨_, .binary (kind ▸ is), .intro fun inner sites => ?_⟩
      have right := (List.cons.inj inner).1
      simp only [Expr.mapSites, sites, same, right]
  | @assignment operator name is known =>
      have target : left.unwrapped.mapSites f = twinLeft.unwrapped.mapSites f := by
        rw [← Expr.unwrapped_mapSites, ← Expr.unwrapped_mapSites, same]
      have twinKnown : twinLeft.reference? = some name := by
        rw [← known, ← Expr.reference?_mapSites f left, ← Expr.reference?_mapSites f twinLeft, same]
      refine ⟨_, .assignment (kind ▸ is) twinKnown, .intro fun inner sites => ?_⟩
      have value := (List.cons.inj inner).1
      simp only [Expr.mapSites, sites, target, value]

theorem precedes {next : TokenKind} (takes : rule.Takes left token tighter production)
    (ends : Parts.EndAt next production.items parts) (site outer : Site) :
    (production.node parts site outer).Precedes next := by
  cases takes with
  | @binary operator =>
      intro power rule found
      refine ⟨⟨?_, (ends.1 power rule found).1.ends⟩, ?_⟩
      · rintro _ ⟨⟩
        exact ends.2 power rule found
      · exact fun same => operator.power_ne_assignment (Option.some.inj same)
  | assignment => exact .of_stops_lowest ends.2

theorem endAt {next : TokenKind} {site outer : Site}
    (takes : rule.Takes left token tighter production)
    (shaped : Parts.Shaped production.items parts)
    (precedes : (production.node parts site outer).Precedes next) :
    Parts.EndAt next production.items parts := by
  cases takes with
  | @binary operator =>
      have stops : next.Stops operator.power :=
        fun power rule found => (precedes power rule found).1.tight _ rfl
      refine ⟨fun power rule found => ⟨⟨?_, (precedes power rule found).1.ends⟩, ?_⟩, stops⟩
      · intro outer known looser
        exact stops power rule found (Nat.lt_trans (shaped.1.2 outer known) looser)
      · intro assigns
        exact Nat.lt_asymm (shaped.1.2 _ assigns) operator.assignment_lt_power
  | assignment => exact Item.endsAt_of_trailing_none (precedes.trailing_eq_none (Or.inr rfl)) _ _

/-- What stands before an operator as its left operand is read up to it. -/
theorem precedes_left (takes : rule.Takes left token tighter production)
    (shapedLeft : left.Shaped) (before : left.StandsBefore tighter) : left.Precedes token.kind := by
  intro power rule found
  cases takes.opening_eq.1.symm.trans found
  refine ⟨before, fun assigns => ?_⟩
  cases takes with
  | @binary operator => exact before.tight _ assigns operator.assignment_lt_power
  | assignment _ known =>
      obtain ⟨_, _, rfl⟩ := shapedLeft.eq_of_reference? known
      cases assigns

end TrailingRule.Takes

namespace Item

/-- Arguments stand before a parenthesis that closes, and so does an operand that is not last. -/
def Before : Item → List Item → Prop
  | openParen, _ | closeParen, _ => True
  | operand _, items => items = [] ∨ items.head? = some .closeParen
  | arguments, items => items.head? = some .closeParen

def Delimited : List Item → Prop
  | [] => True
  | item :: items => item.Before items ∧ Delimited items

end Item

theorem LeadingRule.Takes.delimited {rule : LeadingRule} {token : Token} {production : Production}
    (takes : rule.Takes token production) : Item.Delimited production.items := by
  cases takes <;> simp [Item.Delimited, Item.Before]

theorem TrailingRule.Takes.delimited {rule : TrailingRule} {tighter : BindingPower} {left : Expr}
    {token : Token} {production : Production} (takes : rule.Takes left token tighter production) :
    Item.Delimited production.items := by
  cases takes <;> simp [Item.Delimited, Item.Before]

/-- The expression is written by a rule for its first token, or for an operator with an operand
before it. -/
inductive Expr.Written : Expr → List Token → Prop
  | leading {rule : LeadingRule} {production : Production} {token : Token} {tokens : List Token}
      {site : Site} (outer : Site) : rule.Takes token production →
      (parts : Parts production.items) → Parts.Spells production.items parts tokens →
      Parts.Shaped production.items parts →
      Written (production.node parts site outer) (token :: tokens)
  | trailing {rule : TrailingRule} {tighter : BindingPower} {production : Production}
      {left : Expr} {token : Token} {front tokens : List Token} {site : Site}
      (outer : Site) : left.Spells front → left.Shaped → left.StandsBefore tighter →
      rule.Takes left token tighter production → (parts : Parts production.items) →
      Parts.Spells production.items parts tokens → Parts.Shaped production.items parts →
      Written (production.node parts site outer) (front ++ token :: tokens)

theorem Expr.Shaped.written {expr : Expr} {tokens : List Token} (shaped : expr.Shaped)
    (spelled : expr.Spells tokens) : expr.Written tokens := by
  cases shaped with
  | literal =>
      cases spelled with
      | atom inside =>
          cases inside with
          | literal written => exact .leading _ (.literal written) () rfl trivial
  | reference =>
      cases spelled with
      | atom inside =>
          cases inside with
          | reference kind => exact .leading _ (.reference kind) () rfl trivial
  | @call _ _ _ arguments each =>
      cases spelled with
      | atom inside =>
          cases inside with
          | @call _ _ opening closing _ _ kind opens listed closes =>
              exact .leading _ (.call kind) (opening, arguments, closing, ())
                ⟨_, _, ⟨opens, rfl⟩, ⟨_, _, listed, ⟨_, _, ⟨closes, rfl⟩, rfl, rfl⟩, rfl⟩, rfl⟩
                ⟨trivial, each, trivial, trivial⟩
  | @unary _ _ operand inner plain =>
      cases spelled with
      | unary kind one =>
          exact .leading .blank (.unary kind) (operand, ())
            ⟨_, _, one, rfl, (List.append_nil _).symm⟩ ⟨⟨inner, .of_power?_none plain⟩, trivial⟩
  | @binary _ _ _ second left before right tight =>
      cases spelled with
      | binary one kind two =>
          exact .trailing .blank one left before (.binary kind) (second, ())
            ⟨_, _, two, rfl, (List.append_nil _).symm⟩ ⟨⟨right, tight⟩, trivial⟩
  | @assignment _ inner _ name value shaped =>
      cases spelled with
      | assignment one kind two =>
          have before : (atom inner (Expr.reference inner name)).StandsBefore .assignment :=
            ⟨fun _ known => absurd known (by simp [power?]), fun ends => ends⟩
          exact .trailing .blank (.atom one) .reference before (.assignment kind rfl) (value, ())
            ⟨_, _, two, rfl, (List.append_nil _).symm⟩ ⟨⟨shaped, bindsTighter_lowest _⟩, trivial⟩
  | @paren _ inner shaped =>
      cases spelled with
      | @paren _ _ _ closing _ opens one closes =>
          exact .leading .blank (.group opens) (inner, closing, ())
            ⟨_, _, one, ⟨_, _, ⟨closes, rfl⟩, rfl, rfl⟩, rfl⟩
            ⟨⟨shaped, bindsTighter_lowest _⟩, trivial, trivial⟩
  | @conversion _ _ _ body _ shaped =>
      cases spelled with
      | @conversion _ _ _ opening closing _ named opens one closes =>
          exact .leading .blank (.conversion named) (opening, body, closing, ())
            ⟨_, _, ⟨opens, rfl⟩, ⟨_, _, one, ⟨_, _, ⟨closes, rfl⟩, rfl, rfl⟩, rfl⟩, rfl⟩
            ⟨trivial, ⟨shaped, bindsTighter_lowest _⟩, trivial, trivial⟩
  | @condition _ _ body shaped =>
      cases spelled with
      | condition kind one =>
          exact .leading .blank (.condition kind) (body, ())
            ⟨_, _, one, rfl, (List.append_nil _).symm⟩ ⟨⟨shaped, bindsTighter_lowest _⟩, trivial⟩

end DialogueTyping
