import DialogueTyping.Proofs.Grammar.Soundness
import DialogueTyping.Proofs.Token.Slice
import DialogueTyping.Proofs.Typing.TextProblems

set_option autoImplicit false

namespace DialogueTyping

/-- No token starts before the end of one before it, and none ends before it starts. -/
structure Token.InOrder (tokens : List Token) : Prop where
  apart : tokens.Pairwise fun first second => first.span.stop ≤ second.span.start
  forward : ∀ token ∈ tokens, token.span.start ≤ token.span.stop

theorem Token.InOrder.sublist {inner tokens : List Token} (order : InOrder tokens)
    (sublist : inner.Sublist tokens) : InOrder inner where
  apart := order.apart.sublist sublist
  forward := fun token member => order.forward token (sublist.subset member)

namespace Span.Covers

variable {span inner : Span} {tokens run : List Token}

theorem exists_start (covers : span.Covers tokens) :
    ∃ token rest, tokens = token :: rest ∧ token.span.start = span.start := by
  obtain ⟨token, first, start⟩ := Option.map_eq_some_iff.1 covers.start
  obtain ⟨rest, split⟩ := List.head?_eq_some_iff.1 first
  exact ⟨token, rest, split, start⟩

theorem exists_stop (covers : span.Covers tokens) :
    ∃ front token, tokens = front ++ [token] ∧ token.span.stop = span.stop := by
  obtain ⟨token, last, stop⟩ := Option.map_eq_some_iff.1 covers.stop
  obtain ⟨front, split⟩ := List.getLast?_eq_some_iff.1 last
  exact ⟨front, token, split, stop⟩

theorem start_le (covers : span.Covers tokens) (order : Token.InOrder tokens) {token : Token}
    (member : token ∈ tokens) : span.start ≤ token.span.start := by
  obtain ⟨first, rest, rfl, start⟩ := covers.exists_start
  rw [← start]
  rcases List.mem_cons.1 member with rfl | later
  · exact UInt32.le_refl _
  · exact UInt32.le_trans (order.forward first List.mem_cons_self)
      ((List.pairwise_cons.1 order.apart).1 token later)

theorem le_stop (covers : span.Covers tokens) (order : Token.InOrder tokens) {token : Token}
    (member : token ∈ tokens) : token.span.stop ≤ span.stop := by
  obtain ⟨front, last, rfl, stop⟩ := covers.exists_stop
  rw [← stop]
  rcases List.mem_append.1 member with earlier | final
  · exact UInt32.le_trans
      ((List.pairwise_append.1 order.apart).2.2 token earlier last (List.mem_singleton_self last))
      (order.forward last (List.mem_append_right _ (List.mem_singleton_self last)))
  · rw [List.mem_singleton.1 final]
    exact UInt32.le_refl _

theorem inside (covers : span.Covers tokens) (order : Token.InOrder tokens)
    (part : inner.Covers run) (subset : run ⊆ tokens) :
    span.start ≤ inner.start ∧ inner.stop ≤ span.stop := by
  obtain ⟨first, rest, rfl, start⟩ := part.exists_start
  constructor
  · rw [← start]
    exact covers.start_le order (subset List.mem_cons_self)
  · obtain ⟨front, last, split, stop⟩ := part.exists_stop
    rw [← stop]
    apply covers.le_stop order
    apply subset
    rw [split]
    exact List.mem_append_right _ (List.mem_singleton_self last)

end Span.Covers

namespace Expr

/-- The expressions have their places in the tokens one after another. -/
inductive InTurn (placed : Expr → List Token → Prop) : List Expr → List Token → Prop
  | nil {tokens : List Token} : InTurn placed [] tokens
  | cons {expr : Expr} {exprs : List Expr} {gap run rest : List Token} : placed expr run →
      InTurn placed exprs rest → InTurn placed (expr :: exprs) (gap ++ (run ++ rest))

/-- The expression is written with the tokens and its span covers them. So it is with its parts, for
tokens that follow one another among these. -/
inductive Placed : Expr → List Token → Prop
  | node {expr : Expr} {tokens : List Token} : expr.Spells tokens → expr.span.Covers tokens →
      InTurn Placed expr.children tokens → Placed expr tokens

namespace InTurn

variable {placed : Expr → List Token → Prop} {expr : Expr} {exprs : List Expr}
  {tokens run : List Token}

theorem prepend (turns : InTurn placed exprs tokens) (front : List Token) :
    InTurn placed exprs (front ++ tokens) := by
  cases turns with
  | nil => exact .nil
  | cons here later =>
      rw [← List.append_assoc]
      exact .cons here later

theorem first (here : placed expr run) (later : InTurn placed exprs tokens) :
    InTurn placed (expr :: exprs) (run ++ tokens) := by
  rw [← List.nil_append (run ++ tokens)]
  exact .cons here later

theorem single (here : placed expr run) : InTurn placed [expr] run := by
  rw [← List.append_nil run]
  exact .first here .nil

theorem concat {others : List Expr} (turns : InTurn placed exprs run)
    (later : InTurn placed others tokens) : InTurn placed (exprs ++ others) (run ++ tokens) := by
  induction turns with
  | nil => exact later.prepend _
  | cons here _ ih =>
      rw [List.append_assoc, List.append_assoc]
      exact .cons here ih

theorem exists_infix {child : Expr} (turns : InTurn placed exprs tokens) (member : child ∈ exprs) :
    ∃ run, run <:+: tokens ∧ placed child run := by
  induction turns with
  | nil => cases member
  | @cons expr exprs gap run rest here _ ih =>
      rcases List.mem_cons.1 member with rfl | later
      · exact ⟨run, ⟨gap, rest, List.append_assoc _ _ _⟩, here⟩
      · obtain ⟨other, inside, there⟩ := ih later
        refine ⟨other, inside.trans ?_, there⟩
        rw [← List.append_assoc]
        exact (List.suffix_append _ _).isInfix

end InTurn

namespace Placed

variable {expr node : Expr} {tokens : List Token}

theorem spells (placed : expr.Placed tokens) : expr.Spells tokens := by
  cases placed with
  | node spells _ _ => exact spells

theorem covers (placed : expr.Placed tokens) : expr.span.Covers tokens := by
  cases placed with
  | node _ covers _ => exact covers

theorem parts (placed : expr.Placed tokens) : InTurn Placed expr.children tokens := by
  cases placed with
  | node _ _ parts => exact parts

theorem atom {site : Site} (placed : expr.Placed tokens) (same : site.span = expr.span) :
    (Expr.atom site expr).Placed tokens := by
  refine .node (.atom placed.spells) ?_ (.single placed)
  rw [span, Expr.site, same]
  exact placed.covers

theorem exists_infix (within : node.Within expr) (placed : expr.Placed tokens) :
    ∃ run, run <:+: tokens ∧ node.Placed run := by
  induction within generalizing tokens with
  | self => exact ⟨tokens, List.infix_rfl, placed⟩
  | inside member _ ih =>
      obtain ⟨part, inside, placed⟩ := placed.parts.exists_infix member
      obtain ⟨run, deeper, placed⟩ := ih placed
      exact ⟨run, deeper.trans inside, placed⟩

theorem children_inside (placed : expr.Placed tokens) (order : Token.InOrder tokens) :
    ∀ child ∈ expr.children,
      expr.span.start ≤ child.span.start ∧ child.span.stop ≤ expr.span.stop := by
  intro child member
  obtain ⟨run, inside, part⟩ := placed.parts.exists_infix member
  exact placed.covers.inside order part.covers inside.subset

end Placed

theorem InTurn.apart {exprs : List Expr} {tokens : List Token}
    (turns : InTurn Placed exprs tokens) (order : Token.InOrder tokens) :
    exprs.Pairwise fun first second => first.span.stop ≤ second.span.start := by
  induction turns with
  | nil => exact .nil
  | @cons expr exprs gap run rest here later ih =>
      have behind := order.sublist (List.sublist_append_right gap (run ++ rest))
      refine List.pairwise_cons.2 ⟨?_, ih (behind.sublist (List.sublist_append_right run rest))⟩
      intro second member
      obtain ⟨other, inside, there⟩ := later.exists_infix member
      obtain ⟨front, last, rfl, stop⟩ := here.covers.exists_stop
      obtain ⟨first, back, rfl, start⟩ := there.covers.exists_start
      rw [← stop, ← start]
      exact (List.pairwise_append.1 behind.apart).2.2 last
        (List.mem_append_right _ (List.mem_singleton_self last)) first
        (inside.subset List.mem_cons_self)

end Expr

/-- The last of the spans ends where the last of the tokens does. -/
def Span.EndTogether (spans : List Span) (tokens : List Token) : Prop :=
  tokens.getLast?.map (·.span.stop) = spans.getLast?.map Span.stop

namespace Span.EndTogether

variable {spans others : List Span} {tokens later : List Token}

theorem append (early : EndTogether spans tokens) (late : EndTogether others later) :
    EndTogether (spans ++ others) (tokens ++ later) := by
  rw [EndTogether, List.getLast?_append, List.getLast?_append, Option.map_or, Option.map_or,
    early, late]

theorem prepend (ends : EndTogether spans tokens) (some : spans ≠ []) (before : List Span)
    (front : List Token) : EndTogether (before ++ spans) (front ++ tokens) := by
  have more : tokens ≠ [] := by
    rintro rfl
    cases last : spans.getLast? with
    | none => exact some (List.getLast?_eq_none_iff.1 last)
    | some span =>
        rw [EndTogether, last] at ends
        cases ends
  rw [EndTogether, List.getLast?_append_of_ne_nil _ some, List.getLast?_append_of_ne_nil _ more]
  exact ends

/-- A node covers its tokens if it starts where they do and reaches to the end of its last part. -/
theorem covers {first : Span} {front gap : List Token} (ends : EndTogether spans tokens)
    (early : first.Covers front) (tight : spans = [] → gap = []) :
    (first.join (spans.getLastD first)).Covers (front ++ (gap ++ tokens)) where
  start := by
    rw [List.head?_append_of_ne_nil _ early.nonempty]
    exact early.start
  stop := by
    rw [EndTogether] at ends
    rw [join, List.getLastD_eq_getLast?]
    cases last : spans.getLast? with
    | none =>
        rw [last, Option.map_none, Option.map_eq_none_iff, List.getLast?_eq_none_iff] at ends
        rw [tight (List.getLast?_eq_none_iff.1 last), ends, List.append_nil, List.append_nil]
        exact early.stop
    | some span =>
        rw [last] at ends
        obtain ⟨token, found, stop⟩ := Option.map_eq_some_iff.1 ends
        rw [← List.append_assoc, List.getLast?_append, found, Option.some_or, Option.map_some, stop]
        rfl

end Span.EndTogether

namespace Grammar

open Cursor

section Parts

variable {reads : BindingPower → Expr → Cursor → Cursor → Prop}
  (each : ∀ {power expr cursor after}, reads power expr cursor after → cursor.Proper →
    ∃ tokens, Takes tokens cursor after ∧ expr.Placed tokens)
  {cursor after : Cursor}

include each

theorem Listed.placed {exprs : List Expr} (listed : Listed reads exprs cursor after)
    (proper : cursor.Proper) : ∃ tokens, Takes tokens cursor after ∧
      Expr.SpellsAll exprs tokens ∧ Expr.InTurn Expr.Placed exprs tokens ∧
      Span.EndTogether (exprs.map Expr.span) tokens := by
  induction listed with
  | nil => exact ⟨[], ⟨rfl, rfl⟩, .nil, .nil, rfl⟩
  | last read =>
      obtain ⟨tokens, taken, placed⟩ := each read proper
      exact ⟨tokens, taken, .single placed.spells, .single placed, placed.covers.stop⟩
  | next read comma _ ih =>
      obtain ⟨first, taken, placed⟩ := each read proper
      have between := taken.proper proper
      have step := between.takes_next (by rw [comma]; decide)
      obtain ⟨second, rest, spells, turns, ends⟩ := ih (step.proper between)
      exact ⟨_, taken.trans (step.trans rest), .cons placed.spells comma spells,
        .first placed (turns.prepend _),
        ((ends.prepend (List.cons_ne_nil _ _) [] [_]).prepend (List.cons_ne_nil _ _) [_] first)⟩

theorem ItemRead.placed {item : Item} {part : item.Part}
    (read : ItemRead reads item part cursor after) (proper : cursor.Proper) :
    ∃ tokens, Takes tokens cursor after ∧ item.Spells part tokens ∧
      Expr.InTurn Expr.Placed (item.exprs part) tokens ∧
      Span.EndTogether (item.spans part) tokens := by
  cases read with
  | openParen opens =>
      exact ⟨_, proper.takes_next (by rw [opens]; decide), ⟨opens, rfl⟩, .nil, rfl⟩
  | operand read =>
      obtain ⟨tokens, taken, placed⟩ := each read proper
      exact ⟨tokens, taken, placed.spells, .single placed, placed.covers.stop⟩
  | arguments listed => exact listed.placed each proper
  | closeParen closes =>
      exact ⟨_, proper.takes_next (by rw [closes]; decide), ⟨closes, rfl⟩, .nil, rfl⟩

theorem PartsRead.placed {items : List Item} {parts : Parts items}
    (read : PartsRead reads items parts cursor after) (proper : cursor.Proper) :
    ∃ tokens, Takes tokens cursor after ∧ Parts.Spells items parts tokens ∧
      Expr.InTurn Expr.Placed (Parts.exprs items parts) tokens ∧
      Span.EndTogether (Parts.spans items parts) tokens := by
  induction read with
  | nil => exact ⟨[], ⟨rfl, rfl⟩, rfl, .nil, rfl⟩
  | cons one _ ih =>
      obtain ⟨first, taken, spelled, turns, ends⟩ := one.placed each proper
      obtain ⟨others, rest, spelledRest, turnsRest, endsRest⟩ := ih (taken.proper proper)
      exact ⟨_, taken.trans rest, ⟨first, others, spelled, spelledRest, rfl⟩,
        turns.concat turnsRest, ends.append endsRest⟩

end Parts

/-- A node that was placed stays so inside its atom node. -/
theorem Production.placed_made {production : Production} {parts : Parts production.items}
    {tokens : List Token} {first : Span} {between : Cursor}
    (own : ∀ site, (production.build parts site).site = site)
    (spelled : ∀ site, (production.build parts site).Spells tokens)
    (covers : (production.span first parts).Covers tokens)
    (turns : ∀ site, Expr.InTurn Expr.Placed (production.build parts site).children tokens) :
    (production.made first parts between).Placed tokens := by
  have placed (site : Site) (same : site.span = production.span first parts) :
      (production.build parts site).Placed tokens := by
    refine .node (spelled site) ?_ (turns site)
    rw [Expr.span, own, same]
    exact covers
  unfold Production.made Production.node
  split
  · refine (placed _ rfl).atom ?_
    rw [Expr.span, own]
    rfl
  · exact placed _ rfl

theorem Reads.placed {power : BindingPower} {expr : Expr} {cursor after : Cursor}
    (reads : Reads power expr cursor after) :
    cursor.Proper → ∃ tokens, Takes tokens cursor after ∧ expr.Placed tokens := by
  refine Reads.ind ?leading ?trailing reads
  case leading =>
    intro _ _ production parts cursor between takes read proper
    have step := proper.takes_next takes.ne_eof
    have own : ∀ word ∈ cursor.current.kind.typeWord?, cursor.current.value = word :=
      fun word named => proper.current_ownWord named
    obtain ⟨tokens, taken, spelled, turns, ends⟩ := read.placed id (step.proper proper)
    refine ⟨_, (step.trans taken).numbered _, Production.placed_made (takes.site_build parts)
      (takes.spells own spelled) (ends.covers (.singleton _) fun _ => rfl) fun site => ?_⟩
    rw [takes.children_build]
    exact turns.prepend _
  case trailing =>
    intro _ _ _ production parts left start cursor between before placed takes _ read proper
    obtain ⟨front, takenLeft, placedLeft⟩ := placed proper
    obtain ⟨⟨-, shapedLeft, -⟩, -⟩ := before.sound proper
    have here := takenLeft.proper proper
    have step := here.takes_next takes.ne_eof
    obtain ⟨tokens, taken, spelled, turns, ends⟩ := read.placed id (step.proper here)
    have whole := takes.spells placedLeft.spells shapedLeft spelled
    refine ⟨_, (takenLeft.trans (step.trans taken)).numbered _,
      Production.placed_made (takes.site_build parts) whole ?_ ?_⟩
    · refine ends.covers placedLeft.covers fun empty => ?_
      cases takes <;> cases empty
    · intro site
      cases takes with
      | binary => exact .first placedLeft (turns.prepend _)
      | assignment _ known =>
          obtain ⟨_, _, rfl⟩ := before.target known
          exact placedLeft.parts.concat (turns.prepend _)

end Grammar

namespace Expr

theorem placed_of_ofTokens {tokens : List Token} {expr : Expr} (lexed : Token.Lexed tokens)
    (accepted : ofTokens tokens = .ok expr) : expr.Placed (Token.beforeEnd tokens) := by
  obtain ⟨after, -, reads, ends⟩ := reads_of_ofTokens accepted
  have proper := Cursor.proper_ofTokens lexed
  obtain ⟨run, taken, placed⟩ := reads.placed proper
  have all := taken.ahead
  rw [(taken.proper proper).ahead_eq_nil ends, List.append_nil,
    Cursor.ahead_ofTokens lexed.endsOnce] at all
  rwa [all]

/-- A node is placed in a run of the tokens, the text at its bytes, read alone, has the words of the
run, and its children are inside it, one behind the other. -/
structure PlacedIn (source : String) (tokens : List Token) (node : Expr) : Prop where
  run : ∃ run, run <:+: tokens ∧ node.Placed run ∧
    ∃ text alone, node.span.Shows source.toList text ∧ tokenize (String.ofList text) = .ok alone ∧
      alone.map Token.word = run.map Token.word ++ [(.eof, "EOF")]
  children_inside : ∀ child ∈ node.children,
    node.span.start ≤ child.span.start ∧ child.span.stop ≤ node.span.stop
  children_apart : node.children.Pairwise fun first second => first.span.stop ≤ second.span.start

theorem Placed.placedIn {source : String} {tokens run : List Token} {node : Expr}
    (short : Text.byteLength source.toList < UInt32.size) (scanned : tokenize source = .ok tokens)
    (order : Token.InOrder (Token.beforeEnd tokens)) (inside : run <:+: Token.beforeEnd tokens)
    (placed : node.Placed run) : node.PlacedIn source (Token.beforeEnd tokens) where
  run := ⟨run, inside, placed, tokenize_slice short scanned inside placed.covers⟩
  children_inside := placed.children_inside (order.sublist inside.sublist)
  children_apart := placed.parts.apart (order.sublist inside.sublist)

end Expr

theorem inOrder_of_tokenize {source : String} {tokens : List Token}
    (short : Text.byteLength source.toList < UInt32.size) (scanned : tokenize source = .ok tokens) :
    Token.InOrder (Token.beforeEnd tokens) := by
  obtain ⟨pieces, joined, consumed, made⟩ := exists_consumed_of_tokenize scanned
  have cut := consumed.ofText LexicalRule.first?_nil
  rw [List.append_nil, ← joined] at cut
  have tiles := (tiling_of_cut 0 (congrArg Cut.rest cut)).tiles short
  rw [cut, ← made] at tiles
  constructor
  · exact tiles.ordered.sublist (List.sublist_append_left _ _)
  · intro token member
    have notEnd := (Token.mem_of_mem_beforeEnd member).2
    exact UInt32.le_of_lt (tiles.nonempty token (List.mem_append_left _ member) notEnd)

/-- The expression that a source is read as is placed in all of its tokens, and each of its nodes in
some of them. -/
theorem Expr.ofSource_spans {source : String} {e : Expr}
    (short : Text.byteLength source.toList < UInt32.size) (read : Expr.ofSource source = .ok e) :
    ∃ tokens, tokenize source = .ok tokens ∧ e.Placed (Token.beforeEnd tokens) ∧
      ∀ node : Expr, node.Within e → node.PlacedIn source (Token.beforeEnd tokens) := by
  obtain ⟨tokens, scanned, accepted⟩ := tokenize_of_ofSource read
  have placed := placed_of_ofTokens (lexed_of_tokenize scanned) accepted
  refine ⟨tokens, scanned, placed, ?_⟩
  intro node within
  obtain ⟨run, inside, placedNode⟩ := placed.exists_infix within
  exact placedNode.placedIn short scanned (inOrder_of_tokenize short scanned) inside

/-- An assignment of a call with a comment inside it. -/
theorem Expr.ofSource_spans_commented :
    let source := "$g += f(\"é\", // é\n -(2)) "
    let tokens : List Token := [⟨.variableName, "$g", ⟨0, 2⟩⟩, ⟨.plusEquals, "+=", ⟨3, 5⟩⟩,
      ⟨.identifier, "f", ⟨6, 7⟩⟩, ⟨.openParen, "(", ⟨7, 8⟩⟩, ⟨.string, "é", ⟨8, 12⟩⟩,
      ⟨.comma, ",", ⟨12, 13⟩⟩, ⟨.dash, "-", ⟨21, 22⟩⟩, ⟨.openParen, "(", ⟨22, 23⟩⟩,
      ⟨.number, "2", ⟨23, 24⟩⟩, ⟨.closeParen, ")", ⟨24, 25⟩⟩, ⟨.closeParen, ")", ⟨25, 26⟩⟩]
    Text.byteLength source.toList < UInt32.size ∧ ∃ e, Expr.ofSource source = .ok e ∧
      e.preorder.map Expr.span = [⟨0, 26⟩, ⟨0, 2⟩, ⟨6, 26⟩, ⟨6, 26⟩, ⟨8, 12⟩, ⟨8, 12⟩, ⟨21, 25⟩,
        ⟨22, 25⟩, ⟨23, 24⟩, ⟨23, 24⟩] ∧
      e.Placed tokens ∧ ∀ node : Expr, node.Within e → node.PlacedIn source tokens := by
  intro source tokens
  have short : Text.byteLength source.toList < UInt32.size := by decide
  have spans : (Expr.ofSource source).toOption.map (fun e => e.preorder.map Expr.span) =
      some [⟨0, 26⟩, ⟨0, 2⟩, ⟨6, 26⟩, ⟨6, 26⟩, ⟨8, 12⟩, ⟨8, 12⟩, ⟨21, 25⟩, ⟨22, 25⟩, ⟨23, 24⟩,
        ⟨23, 24⟩] := by
    decide +kernel
  have scanned : (tokenize source).toOption.map Token.beforeEnd = some tokens := by decide +kernel
  cases read : Expr.ofSource source with
  | error report =>
      rw [read] at spans
      cases spans
  | ok e =>
      rw [read] at spans
      obtain ⟨found, success, placed, nodes⟩ := Expr.ofSource_spans short read
      rw [success] at scanned
      have same : Token.beforeEnd found = tokens := Option.some.inj scanned
      rw [same] at placed nodes
      exact ⟨short, e, rfl, Option.some.inj spans, placed, nodes⟩

end DialogueTyping
