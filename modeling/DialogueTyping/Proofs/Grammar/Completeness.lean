import DialogueTyping.Proofs.Grammar.Productions

set_option autoImplicit false

namespace DialogueTyping

open Grammar

def Site.erased (_ : Site) : Site := .blank

namespace Expr

theorem bareAll_eq {exprs : List Expr}
    (each : ∀ expr ∈ exprs, expr.bare = expr.mapSites Site.erased) :
    bareAll exprs = mapSitesAll Site.erased exprs := by
  induction exprs with
  | nil => rfl
  | cons expr exprs ih =>
      obtain ⟨first, rest⟩ := List.forall_mem_cons.1 each
      rw [bareAll, mapSitesAll, first, ih rest]

theorem bare_eq (e : Expr) : e.bare = e.mapSites Site.erased := by
  induction e using Expr.ind with
  | call site name arguments ih =>
      rw [bare, mapSites, bareAll_eq ih]
      rfl
  | literal | reference =>
      rw [bare, mapSites]
      rfl
  | unary _ _ _ ih | paren _ _ ih | atom _ _ ih | conversion _ _ _ ih | condition _ _ _ ih =>
      rw [bare, mapSites, ih]
      rfl
  | binary _ _ _ _ left right | assignment _ _ _ _ left right =>
      rw [bare, mapSites, left, right]
      rfl

theorem Shaped.exists_head {expr : Expr} {tokens : List Token} (shaped : expr.Shaped)
    (spelled : expr.Spells tokens) :
    ∃ token others rule, tokens = token :: others ∧ standard.leading token.kind = some rule := by
  induction size : tokens.length using Nat.strong_induction_on generalizing expr tokens with
  | _ size ih =>
      cases shaped.written spelled with
      | leading _ takes => exact ⟨_, _, _, rfl, takes.opening_eq.1⟩
      | @trailing _ _ _ _ token front tokens _ _ one left =>
          rw [List.length_append, List.length_cons] at size
          obtain ⟨first, others, rule, rfl, found⟩ := ih front.length (by omega) left one rfl
          exact ⟨first, _, rule, rfl, found⟩

theorem exists_head_of_spellsAll {arguments : List Expr} {tokens : List Token}
    (shaped : ∀ argument ∈ arguments, argument.Shaped) (listed : arguments ≠ [])
    (spelled : SpellsAll arguments tokens) :
    ∃ token others rule, tokens = token :: others ∧ standard.leading token.kind = some rule := by
  cases spelled with
  | nil => exact absurd rfl listed
  | single one => exact (shaped _ List.mem_cons_self).exists_head one
  | cons one =>
      obtain ⟨token, others, rule, rfl, found⟩ := (shaped _ List.mem_cons_self).exists_head one
      exact ⟨token, _, rule, rfl, found⟩

/-- The expression is read from the start of the tokens it is written with, up to the point where
reading on would look at the token after them. Sites do not matter. -/
def Resumes (expr : Expr) (tokens : List Token) : Prop :=
  ∀ ⦃depth power rest last nodes⦄, tokens.length + rest.length < depth + 1 →
    expr.BindsTighter power → expr.Precedes (Cursor.mk rest last nodes).current.kind →
    ∃ (read : Expr) (count later : Nat),
      read.mapSites Site.erased = expr.mapSites Site.erased ∧ rest.length < count ∧
      (readWithin standard (depth + 1) power).run ⟨tokens ++ rest, last, nodes⟩ =
        (extend standard (readWithin standard depth) power count read).run ⟨rest, last, later⟩

/-- All expressions that are written with fewer than `limit` tokens resume. -/
def ResumeBelow (limit : Nat) : Prop :=
  ∀ ⦃expr : Expr⦄ ⦃tokens : List Token⦄, tokens.length < limit → expr.Shaped →
    expr.Spells tokens → expr.Resumes tokens

/-- Where the next token does not bind tighter, the expression is all that is read. -/
theorem Resumes.operand {expr : Expr} {tokens rest : List Token} (resumes : expr.Resumes tokens)
    {depth nodes : Nat} {power : BindingPower} {last : Token}
    (room : tokens.length + rest.length < depth) (tight : expr.BindsTighter power)
    (ends : Item.EndsAt (Cursor.mk rest last nodes).current.kind (.operand power) expr) :
    ∃ (read : Expr) (later : Nat), read.mapSites Site.erased = expr.mapSites Site.erased ∧
      (readWithin standard depth power).run ⟨tokens ++ rest, last, nodes⟩ =
        .ok read ⟨rest, last, later⟩ := by
  cases depth with
  | zero => omega
  | succ depth =>
      obtain ⟨read, count, later, same, _, resumed⟩ := resumes room tight ends.1
      exact ⟨read, later, same, resumed.trans (extend_of_stop ends.2)⟩

end Expr

namespace Item

theorem endsAt_of_kind {token last : Token} {kind : TokenKind} (is : token.kind = kind)
    (plain : standard.trailing kind = none) {rest : List Token} {nodes : Nat} (item : Item)
    (part : item.Part) :
    item.EndsAt (Cursor.mk (token :: rest) last nodes).current.kind part := by
  rw [← is] at plain
  exact endsAt_of_trailing_none plain item part

variable {limit depth : Nat} {tokens rest : List Token} {last : Token}
  (each : Expr.ResumeBelow limit)

include each

theorem run_readArguments {count : Nat} {arguments : List Expr} {closing : Token} (nodes : Nat)
    (shaped : ∀ argument ∈ arguments, argument.Shaped) (listed : arguments ≠ [])
    (spelled : Expr.SpellsAll arguments tokens) (closes : closing.kind = .closeParen)
    (short : tokens.length < limit)
    (room : tokens.length + (closing :: rest).length < depth) (enough : tokens.length < count) :
    ∃ (read : List Expr) (later : Nat),
      Expr.mapSitesAll Site.erased read = Expr.mapSitesAll Site.erased arguments ∧
      (Item.readArguments (readWithin standard depth) count).run
        ⟨tokens ++ closing :: rest, last, nodes⟩ = .ok read ⟨closing :: rest, last, later⟩ := by
  induction arguments generalizing tokens count nodes with
  | nil => exact absurd rfl listed
  | cons argument arguments ih =>
      obtain ⟨count, rfl⟩ : ∃ more, count = more + 1 := ⟨count - 1, by omega⟩
      obtain ⟨shapedFirst, shapedRest⟩ := List.forall_mem_cons.1 shaped
      cases spelled with
      | single one =>
          obtain ⟨read, later, same, run⟩ :=
            (each short shapedFirst one).operand room (Expr.bindsTighter_lowest argument)
              (endsAt_of_kind closes rfl (.operand .lowest) argument)
          refine ⟨[read], later, by simp only [Expr.mapSitesAll, same], ?_⟩
          refine Item.readArguments_succ_eq_ok_iff.2 ⟨read, _, run, Or.inr ⟨?_, rfl, rfl⟩⟩
          show closing.kind ≠ .comma
          rw [closes]
          decide
      | @cons _ next others comma front back one kind more =>
          rw [List.length_append, List.length_cons] at room enough short
          have roomFirst :
              front.length + (comma :: (back ++ closing :: rest)).length < depth := by
            rw [List.length_cons, List.length_append]
            omega
          obtain ⟨read, between, same, run⟩ :=
            (each (by omega) shapedFirst one).operand roomFirst (Expr.bindsTighter_lowest argument)
              (endsAt_of_kind kind rfl (.operand .lowest) argument)
          obtain ⟨reads, later, sames, runs⟩ := ih between shapedRest (List.cons_ne_nil _ _) more
            (by omega) (by omega) (show back.length < count by omega)
          refine ⟨read :: reads, later, by simp only [Expr.mapSitesAll, same, sames], ?_⟩
          rw [List.append_assoc, List.cons_append]
          exact Item.readArguments_succ_eq_ok_iff.2
            ⟨read, _, run, Or.inl ⟨kind, reads, runs, rfl⟩⟩

/-- Before a token that ends it, an item is read from what it is written with. -/
theorem run_read {item : Item} {part : item.Part} (nodes : Nat) (spelled : item.Spells part tokens)
    (shaped : item.Shaped part) (short : tokens.length < limit)
    (room : tokens.length + rest.length < depth)
    (ends : item.EndsAt (Cursor.mk rest last nodes).current.kind part)
    (closed : item = .arguments → ∃ closing ∈ rest.head?, closing.kind = .closeParen) :
    ∃ (reads : item.Part) (later : Nat),
      Expr.mapSitesAll Site.erased (item.exprs reads) =
        Expr.mapSitesAll Site.erased (item.exprs part) ∧
      (item.read (readWithin standard depth)).run ⟨tokens ++ rest, last, nodes⟩ =
        .ok reads ⟨rest, last, later⟩ := by
  cases item with
  | openParen =>
      obtain ⟨opens, rfl⟩ := spelled
      exact ⟨part, nodes, rfl, Reading.expect_eq_ok_iff.2 ⟨opens, rfl, rfl⟩⟩
  | closeParen =>
      obtain ⟨closes, rfl⟩ := spelled
      exact ⟨part, nodes, rfl, Reading.expect_eq_ok_iff.2 ⟨closes, rfl, rfl⟩⟩
  | operand power =>
      obtain ⟨read, later, same, run⟩ := (each short shaped.1 spelled).operand room shaped.2 ends
      exact ⟨read, later, congrArg ([·]) same, run⟩
  | arguments =>
      obtain ⟨closing, first, closes⟩ := closed rfl
      obtain ⟨rest, rfl⟩ := List.head?_eq_some_iff.1 first
      by_cases empty : part = []
      · subst empty
        cases spelled
        refine ⟨[], nodes, rfl, ?_⟩
        rw [Item.run_arguments, if_pos]
        · rfl
        · exact closes
      · have more : (Cursor.mk (tokens ++ closing :: rest) last nodes).current.kind ≠
            .closeParen := by
          obtain ⟨token, others, rule, rfl, found⟩ :=
            Expr.exists_head_of_spellsAll shaped empty spelled
          intro is
          rw [show token.kind = .closeParen from is] at found
          cases found
        rw [Item.run_arguments, if_neg more]
        refine run_readArguments each nodes shaped empty spelled closes short room ?_
        rw [List.length_append]
        omega

end Item

namespace Parts

theorem EndAt.tail {next : TokenKind} {item : Item} {items : List Item} {part : item.Part}
    {parts : Parts items} (ends : EndAt next (item :: items) (part, parts)) :
    EndAt next items parts := by
  cases items with
  | nil => trivial
  | cons => exact ends

/-- An item ends where what is written behind it starts. -/
theorem ended_of_before {item : Item} {items : List Item} {part : item.Part} {parts : Parts items}
    {tokens rest : List Token} {last : Token} {nodes : Nat} (before : item.Before items)
    (spelled : Spells items parts tokens)
    (ends : EndAt (Cursor.mk rest last nodes).current.kind (item :: items) (part, parts)) :
    item.EndsAt (Cursor.mk (tokens ++ rest) last nodes).current.kind part ∧
      (item = .arguments → ∃ closing ∈ (tokens ++ rest).head?, closing.kind = .closeParen) := by
  have closed (first : items.head? = some .closeParen) :
      ∃ closing others, tokens = closing :: others ∧ closing.kind = .closeParen := by
    obtain ⟨items, rfl⟩ := List.head?_eq_some_iff.1 first
    obtain ⟨closing, parts⟩ := parts
    obtain ⟨_, inner, ⟨closes, rfl⟩, -, rfl⟩ := spelled
    exact ⟨closing, inner, rfl, closes⟩
  cases item with
  | openParen | closeParen => exact ⟨trivial, fun same => by cases same⟩
  | operand =>
      refine ⟨?_, fun same => by cases same⟩
      rcases before with rfl | first
      · obtain rfl := spelled
        exact ends
      · obtain ⟨closing, others, rfl, closes⟩ := closed first
        exact Item.endsAt_of_kind closes rfl _ part
  | arguments =>
      obtain ⟨closing, others, rfl, closes⟩ := closed before
      exact ⟨trivial, fun _ => ⟨closing, rfl, closes⟩⟩

variable {limit depth : Nat} {last : Token} (each : Expr.ResumeBelow limit)

include each

theorem run_read {items : List Item} {parts : Parts items} {tokens rest : List Token} (nodes : Nat)
    (delimited : Item.Delimited items) (spelled : Spells items parts tokens)
    (shaped : Shaped items parts) (short : tokens.length < limit)
    (room : tokens.length + rest.length < depth)
    (ends : EndAt (Cursor.mk rest last nodes).current.kind items parts) :
    ∃ (reads : Parts items) (later : Nat),
      Expr.mapSitesAll Site.erased (exprs items reads) =
        Expr.mapSitesAll Site.erased (exprs items parts) ∧
      (read (readWithin standard depth) items).run ⟨tokens ++ rest, last, nodes⟩ =
        .ok reads ⟨rest, last, later⟩ := by
  induction items generalizing tokens nodes with
  | nil =>
      obtain rfl := spelled
      exact ⟨(), nodes, rfl, rfl⟩
  | cons item items ih =>
      obtain ⟨part, parts⟩ := parts
      obtain ⟨front, inner, one, spelled, rfl⟩ := spelled
      rw [List.length_append] at short room
      have roomFirst : front.length + (inner ++ rest).length < depth := by
        rw [List.length_append]
        omega
      obtain ⟨ended, closed⟩ := ended_of_before delimited.1 spelled ends
      obtain ⟨reads, between, same, run⟩ :=
        Item.run_read each nodes one shaped.1 (by omega) roomFirst ended closed
      obtain ⟨others, later, sames, runs⟩ :=
        ih between delimited.2 spelled shaped.2 (by omega) (by omega) ends.tail
      refine ⟨(reads, others), later, ?_, ?_⟩
      · simp only [exprs, Expr.mapSitesAll_append, same, sames]
      · rw [List.append_assoc]
        exact read_cons_eq_ok_iff.2 ⟨_, run, runs⟩

end Parts

namespace Expr

section Operands

variable {limit : Nat} {token : Token} {front tokens : List Token} (each : ResumeBelow limit)

include each

theorem resumes_of_leading {rule : LeadingRule} {production : Production}
    (takes : rule.Takes token production) {parts : Parts production.items}
    (spelled : Parts.Spells production.items parts tokens)
    (shaped : Parts.Shaped production.items parts) (short : tokens.length < limit)
    (site outer : Site) : (production.node parts site outer).Resumes (token :: tokens) := by
  intro depth power rest last nodes room _ precedes
  rw [List.length_cons] at room
  obtain ⟨found, opens⟩ := takes.opening_eq
  obtain ⟨reads, later, same, run⟩ := Parts.run_read each nodes takes.delimited spelled shaped
    short (show tokens.length + rest.length < depth by omega) (takes.endAt shaped precedes)
  have first : (rule.read (readWithin standard depth)).run
      ⟨token :: (tokens ++ rest), last, nodes⟩ = _ :=
    Opening.read_eq_ok_iff.2 ⟨production, reads, _, opens, run, rfl, rfl⟩
  refine ⟨production.made token.span reads ⟨rest, last, later⟩, depth, later + production.nodes,
    Production.mapSites_node (takes.mapSites_build same rfl) rfl, by omega, ?_⟩
  rw [List.cons_append, readWithin_succ_of_leading found, EStateM.run_bind, first]
  rfl

/-- The left operand is read first, and reading on finds the operator behind it. -/
theorem resumes_of_trailing {rule : TrailingRule} {tighter : BindingPower}
    {production : Production} {left : Expr} (takes : rule.Takes left token tighter production)
    (spelledLeft : left.Spells front) (shapedLeft : left.Shaped)
    (before : left.StandsBefore tighter) {parts : Parts production.items}
    (spelled : Parts.Spells production.items parts tokens)
    (shaped : Parts.Shaped production.items parts) (shortLeft : front.length < limit)
    (short : tokens.length < limit) (site outer : Site) :
    (production.node parts site outer).Resumes (front ++ token :: tokens) := by
  intro depth power rest last nodes room tight precedes
  have looser : power < tighter :=
    tight tighter (takes.shaped shapedLeft before shaped site outer).2
  have tightLeft : left.BindsTighter power := by
    intro outer known
    exact Nat.lt_of_lt_of_le looser (Nat.le_of_not_lt (before.tight outer known))
  have positive := spelledLeft.length_pos
  rw [List.length_append, List.length_cons] at room
  have roomLeft : front.length + (token :: (tokens ++ rest)).length < depth + 1 := by
    rw [List.length_cons, List.length_append]
    omega
  have follows : left.Precedes
      (Cursor.mk (token :: (tokens ++ rest)) last nodes).current.kind :=
    takes.precedes_left shapedLeft before
  obtain ⟨readLeft, count, between, sameLeft, enough, resumed⟩ :=
    each shortLeft shapedLeft spelledLeft roomLeft tightLeft follows
  rw [List.length_cons, List.length_append] at enough
  obtain ⟨count, rfl⟩ : ∃ more, count = more + 1 := ⟨count - 1, by omega⟩
  obtain ⟨reads, later, same, run⟩ := Parts.run_read each between takes.delimited spelled shaped
    short (show tokens.length + rest.length < depth by omega) (takes.endAt shaped precedes)
  obtain ⟨twin, twinTakes, alike⟩ := takes.twin sameLeft.symm (rfl : token.kind = token.kind)
  obtain ⟨found, opens⟩ := twinTakes.opening_eq
  cases alike with
  | @intro items build twinBuild wrapped alike =>
      let twin : Production := ⟨items, twinBuild, wrapped⟩
      have next : (rule.read (readWithin standard depth) tighter readLeft).run
          ⟨token :: (tokens ++ rest), last, between⟩ = _ :=
        Opening.read_eq_ok_iff.2 ⟨twin, reads, _, opens, run, rfl, rfl⟩
      refine ⟨twin.made readLeft.span reads ⟨rest, last, later⟩, count, later + twin.nodes,
        (Production.mapSites_node (alike same.symm (by rfl)) (by rfl)).symm, by omega, ?_⟩
      rw [List.append_assoc, List.cons_append, resumed, extend_of_tighter found looser,
        EStateM.run_bind, next]
      rfl

end Operands

/-- Each operand is written with fewer tokens than the whole, so this is an induction on their
number. -/
theorem Shaped.resumes {expr : Expr} {tokens : List Token} (shaped : expr.Shaped)
    (spelled : expr.Spells tokens) : expr.Resumes tokens := by
  induction size : tokens.length using Nat.strong_induction_on generalizing expr tokens with
  | _ count ih =>
      have each : ResumeBelow count :=
        fun _ front fewer shaped spelled => ih front.length fewer shaped spelled rfl
      cases shaped.written spelled with
      | leading _ takes parts spelledParts shapedParts =>
          rw [List.length_cons] at size
          exact resumes_of_leading each takes spelledParts shapedParts (by omega) _ _
      | trailing _ spelledLeft shapedLeft before takes parts spelledParts shapedParts =>
          rw [List.length_append, List.length_cons] at size
          exact resumes_of_trailing each takes spelledLeft shapedLeft before spelledParts
            shapedParts (by omega) (by omega) _ _

section Inside

variable {limit : Nat} {tokens : List Token}
  (each : ∀ {expr : Expr} {tokens : List Token}, tokens.length < limit →
    expr.Shaped → expr.Spells tokens → ∀ token ∈ tokens, token.kind ≠ .eof)

include each

theorem ne_eof_of_spellsAll {arguments : List Expr}
    (shaped : ∀ argument ∈ arguments, argument.Shaped) (spelled : SpellsAll arguments tokens)
    (short : tokens.length < limit) : ∀ token ∈ tokens, token.kind ≠ .eof := by
  induction arguments generalizing tokens with
  | nil =>
      cases spelled
      exact List.forall_mem_nil _
  | cons argument arguments ih =>
      obtain ⟨shapedFirst, shapedRest⟩ := List.forall_mem_cons.1 shaped
      cases spelled with
      | single one => exact each short shapedFirst one
      | cons one kind more =>
          rw [List.length_append, List.length_cons] at short
          have later := ih shapedRest more (by omega)
          refine List.forall_mem_append.2 ⟨each (by omega) shapedFirst one, ?_⟩
          exact List.forall_mem_cons.2 ⟨by rw [kind]; decide, later⟩

theorem ne_eof_of_item {item : Item} {part : item.Part} (spelled : item.Spells part tokens)
    (shaped : item.Shaped part) (short : tokens.length < limit) :
    ∀ token ∈ tokens, token.kind ≠ .eof := by
  cases item with
  | openParen | closeParen =>
      obtain ⟨kind, rfl⟩ := spelled
      exact List.forall_mem_singleton.2 (by rw [kind]; decide)
  | operand => exact each short shaped.1 spelled
  | arguments => exact ne_eof_of_spellsAll each shaped spelled short

theorem ne_eof_of_parts {items : List Item} {parts : Parts items}
    (spelled : Parts.Spells items parts tokens) (shaped : Parts.Shaped items parts)
    (short : tokens.length < limit) : ∀ token ∈ tokens, token.kind ≠ .eof := by
  induction items generalizing tokens with
  | nil =>
      obtain rfl := spelled
      exact List.forall_mem_nil _
  | cons item items ih =>
      obtain ⟨first, rest, one, more, rfl⟩ := spelled
      rw [List.length_append] at short
      exact List.forall_mem_append.2 ⟨ne_eof_of_item each one shaped.1 (by omega),
        ih more shaped.2 (by omega)⟩

end Inside

theorem Shaped.ne_eof {expr : Expr} {tokens : List Token} (shaped : expr.Shaped)
    (spelled : expr.Spells tokens) : ∀ token ∈ tokens, token.kind ≠ .eof := by
  induction size : tokens.length using Nat.strong_induction_on generalizing expr tokens with
  | _ count ih =>
      have each {inner : Expr} {front : List Token} (fewer : front.length < count)
          (shaped : inner.Shaped) (spelled : inner.Spells front) :
          ∀ token ∈ front, token.kind ≠ .eof :=
        ih front.length fewer shaped spelled rfl
      cases shaped.written spelled with
      | leading _ takes parts spelledParts shapedParts =>
          rw [List.length_cons] at size
          exact List.forall_mem_cons.2 ⟨takes.ne_eof,
            ne_eof_of_parts each spelledParts shapedParts (by omega)⟩
      | trailing _ spelledLeft shapedLeft before takes parts spelledParts shapedParts =>
          rw [List.length_append, List.length_cons] at size
          exact List.forall_mem_append.2 ⟨each (by omega) shapedLeft spelledLeft,
            List.forall_mem_cons.2 ⟨takes.ne_eof,
              ne_eof_of_parts each spelledParts shapedParts (by omega)⟩⟩

theorem Shaped.read_back {expr : Expr} {tokens : List Token} (shaped : expr.Shaped)
    (spelled : expr.Spells tokens) {mark : Option Token}
    (marks : ∀ token ∈ mark, token.kind = .eof) :
    ∃ read, ofTokens (tokens ++ mark.toList) = .ok read ∧ read.bare = expr.bare := by
  have ahead := Cursor.ahead_ofTokens_append (shaped.ne_eof spelled) marks
  have marked := Cursor.kind_last_ofTokens (tokens ++ mark.toList)
  rw [ofTokens, Reading.runOn]
  generalize Cursor.ofTokens (tokens ++ mark.toList) = cursor at ahead marked ⊢
  obtain ⟨front, last, nodes⟩ := cursor
  obtain rfl : front = tokens := ahead
  have ends : standard.trailing (Cursor.mk [] last nodes).current.kind = none := by
    show standard.trailing last.kind = none
    rw [marked]
    rfl
  obtain ⟨read, later, same, run⟩ := (shaped.resumes spelled).operand (Nat.lt_succ_self _)
    (bindsTighter_lowest expr) (Item.endsAt_of_trailing_none ends (.operand .lowest) expr)
  rw [List.append_nil] at run
  have whole : standard.readAll.run ⟨front, last, nodes⟩ = .ok read ⟨[], last, later⟩ :=
    readAll_eq_ok_iff.2 ⟨run, marked⟩
  rw [whole]
  exact ⟨read, rfl, by rw [bare_eq, bare_eq, same]⟩

/-- An expression nested as its operators ask for is read back from every spelling of it, with or
without a mark at the end, and no other such expression has that spelling. -/
theorem ofTokens_of_spelling {expr : Expr} {tokens : List Token} (shaped : expr.Shaped)
    (spelled : expr.Spells tokens) :
    (∀ mark : Option Token, (∀ token ∈ mark, token.kind = .eof) →
        ∃ read, ofTokens (tokens ++ mark.toList) = .ok read ∧ read.bare = expr.bare) ∧
      ∀ other : Expr, other.Shaped → other.Spells tokens → other.bare = expr.bare := by
  refine ⟨fun mark marks => shaped.read_back spelled marks, ?_⟩
  intro other shapedOther spelledOther
  have unmarked : ∀ token ∈ (none : Option Token), token.kind = .eof := by simp
  obtain ⟨read, accepted, same⟩ := shaped.read_back spelled unmarked
  obtain ⟨readOther, acceptedOther, sameOther⟩ := shapedOther.read_back spelledOther unmarked
  rw [accepted] at acceptedOther
  cases acceptedOther
  rw [← sameOther, same]

/-- `$x -= $a * -$b - if $c`: two powers, a unary operand and a condition at the end. -/
theorem ofTokens_of_spelling_chain :
    let token (kind : TokenKind) (value : String) : Token := ⟨kind, value, Span.point 0⟩
    let use (name : String) : Expr := atom .blank (reference .blank name)
    let product := binary .blank .multiply (use "$a") (unary .blank .negate (use "$b"))
    let value := binary .blank .subtract product (condition .blank .ifClause (use "$c"))
    let expr := assignment .blank .subtract (reference .blank "$x") value
    let tokens := [token .variableName "$x", token .minusEquals "-=", token .variableName "$a",
      token .star "*", token .dash "-", token .variableName "$b", token .dash "-",
      token .ifWord "if", token .variableName "$c"]
    expr.Shaped ∧ expr.Spells tokens ∧
      (∃ read, ofTokens (tokens ++ [token .eof "EOF"]) = .ok read ∧ read.bare = expr.bare) ∧
      ∀ other : Expr, other.Shaped → other.Spells tokens → other.bare = expr.bare := by
  intro token use product value expr tokens
  have closed : ¬ (use "$a").EndsInCondition := fun ends => ends
  have shapedProduct : product.Shaped :=
    .binary .reference (StandsBefore.of_plain rfl closed).1 (.unary .reference rfl)
      (.of_power?_none rfl)
  have before : product.StandsBefore .additive := by
    refine ⟨?_, fun ends => ends⟩
    rintro _ ⟨⟩
    decide
  have shaped : expr.Shaped :=
    .assignment (.binary shapedProduct before (.condition .reference) (.of_power?_none rfl))
  have spelledUse (name : String) :
      (use name).Spells [token .variableName name] :=
    .atom (@Spells.reference .blank (token .variableName name) rfl)
  have spelledProduct := @Spells.binary .blank .multiply _ _ (token .star "*") _ _
    (spelledUse "$a") rfl
    (@Spells.unary .blank .negate _ (token .dash "-") _ rfl (spelledUse "$b"))
  have spelledValue := @Spells.binary .blank .subtract _ _ (token .dash "-") _ _ spelledProduct rfl
    (@Spells.condition .blank .ifClause _ (token .ifWord "if") _ rfl (spelledUse "$c"))
  have spelled : expr.Spells tokens :=
    @Spells.assignment .blank .subtract _ _ (token .minusEquals "-=") _ _
      (@Spells.reference .blank (token .variableName "$x") rfl) rfl spelledValue
  have result := ofTokens_of_spelling shaped spelled
  refine ⟨shaped, spelled, result.1 (some (token .eof "EOF")) ?_, result.2⟩
  rintro _ ⟨⟩
  rfl

end Expr

end DialogueTyping
