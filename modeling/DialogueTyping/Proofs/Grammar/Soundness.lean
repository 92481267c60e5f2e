import DialogueTyping.Proofs.Grammar.Steps

set_option autoImplicit false

namespace DialogueTyping

namespace Cursor

/-- The tokens ahead are as tokenizing gives them, with the mark of the end kept apart. -/
structure Proper (cursor : Cursor) : Prop where
  marked : cursor.last.kind = .eof
  inside : ∀ token ∈ cursor.ahead, token.kind ≠ .eof
  ownWords : ∀ token ∈ cursor.ahead, ∀ word ∈ token.kind.typeWord?, token.value = word

/-- `after` is the place behind `tokens`, which stand ahead of `cursor`. -/
structure Takes (tokens : List Token) (cursor after : Cursor) : Prop where
  ahead : cursor.ahead = tokens ++ after.ahead
  last : after.last = cursor.last

variable {cursor between after : Cursor} {first second tokens : List Token}

theorem Takes.trans (before : Takes first cursor between) (later : Takes second between after) :
    Takes (first ++ second) cursor after where
  ahead := by rw [before.ahead, later.ahead, List.append_assoc]
  last := later.last.trans before.last

theorem Takes.numbered (taken : Takes tokens cursor after) (count : Nat) :
    Takes tokens cursor (after.numbered count) :=
  ⟨taken.ahead, taken.last⟩

theorem Takes.proper (taken : Takes tokens cursor after) (proper : cursor.Proper) :
    after.Proper where
  marked := by rw [taken.last, proper.marked]
  inside := fun token member =>
    proper.inside token (taken.ahead ▸ List.mem_append_right _ member)
  ownWords := fun token member =>
    proper.ownWords token (taken.ahead ▸ List.mem_append_right _ member)

theorem Takes.length (taken : Takes tokens cursor after) :
    cursor.ahead.length = tokens.length + after.ahead.length := by
  rw [taken.ahead, List.length_append]

theorem Proper.takes_next (proper : cursor.Proper) (more : cursor.current.kind ≠ .eof) :
    Takes [cursor.current] cursor cursor.next := by
  refine ⟨?_, rfl⟩
  cases found : cursor.ahead with
  | nil =>
      have marked : cursor.current.kind = .eof := by
        rw [current, found]
        exact proper.marked
      exact absurd marked more
  | cons token rest => simp [current, next, found]

theorem Proper.ahead_eq_nil (proper : cursor.Proper) (ends : cursor.current.kind = .eof) :
    cursor.ahead = [] := by
  cases found : cursor.ahead with
  | nil => rfl
  | cons token rest =>
      have head : cursor.current = token := by rw [current, found, List.headD_cons]
      exact absurd (head ▸ ends) (proper.inside token (found ▸ List.mem_cons_self))

theorem proper_ofTokens {tokens : List Token} (lexed : Token.Lexed tokens) :
    (ofTokens tokens).Proper where
  marked := kind_last_ofTokens tokens
  inside := by
    rw [ahead_ofTokens lexed.endsOnce]
    exact fun token member => (Token.mem_of_mem_beforeEnd member).2
  ownWords := by
    rw [ahead_ofTokens lexed.endsOnce]
    exact fun token member => lexed.ownWords token (Token.mem_of_mem_beforeEnd member).1

theorem Proper.current_ownWord (proper : cursor.Proper) {word : String}
    (named : cursor.current.kind.typeWord? = some word) : cursor.current.value = word := by
  have more : cursor.current.kind ≠ .eof := by
    intro marks
    rw [marks] at named
    cases named
  have member : cursor.current ∈ cursor.ahead := by
    rw [(proper.takes_next more).ahead]
    exact List.mem_cons_self
  exact proper.ownWords _ member word named

end Cursor

open Cursor Grammar

/-- The expression was read between two places: it is written with the tokens there, and the next
token is no part of its last operand. -/
structure ReadBetween (cursor : Cursor) (expr : Expr) (after : Cursor) : Prop where
  written : ∃ tokens, Takes tokens cursor after ∧ expr.Spells tokens
  shaped : expr.Shaped
  precedes : expr.Precedes after.current.kind

namespace Grammar

section Parts

variable {reads : BindingPower → Expr → Cursor → Cursor → Prop}
  (each : ∀ {power expr cursor after}, reads power expr cursor after → cursor.Proper →
    ReadBetween cursor expr after ∧ expr.BindsTighter power)
  {cursor after : Cursor}

include each

theorem Listed.sound {exprs : List Expr} (listed : Listed reads exprs cursor after)
    (proper : cursor.Proper) : (∀ expr ∈ exprs, expr.Shaped) ∧
      ∃ tokens, Takes tokens cursor after ∧ Expr.SpellsAll exprs tokens := by
  induction listed with
  | nil => exact ⟨List.forall_mem_nil _, [], ⟨rfl, rfl⟩, .nil⟩
  | last read =>
      obtain ⟨⟨⟨tokens, taken, spelled⟩, shaped, -⟩, -⟩ := each read proper
      exact ⟨List.forall_mem_singleton.2 shaped, tokens, taken, .single spelled⟩
  | next read comma _ ih =>
      obtain ⟨⟨⟨first, taken, spelled⟩, shaped, -⟩, -⟩ := each read proper
      have between := taken.proper proper
      have step := between.takes_next (by rw [comma]; decide)
      obtain ⟨shapedOthers, second, rest, spelledOthers⟩ := ih (step.proper between)
      exact ⟨List.forall_mem_cons.2 ⟨shaped, shapedOthers⟩, _, taken.trans (step.trans rest),
        .cons spelled comma spelledOthers⟩

theorem ItemRead.sound {item : Item} {part : item.Part}
    (read : ItemRead reads item part cursor after) (proper : cursor.Proper) :
    item.Shaped part ∧ item.EndsAt after.current.kind part ∧
      ∃ tokens, Takes tokens cursor after ∧ item.Spells part tokens := by
  cases read with
  | openParen opens =>
      exact ⟨trivial, trivial, _, proper.takes_next (by rw [opens]; decide), opens, rfl⟩
  | operand read stops =>
      obtain ⟨⟨written, shaped, precedes⟩, tight⟩ := each read proper
      exact ⟨⟨shaped, tight⟩, ⟨precedes, stops⟩, written⟩
  | arguments listed =>
      obtain ⟨shaped, written⟩ := listed.sound each proper
      exact ⟨shaped, trivial, written⟩
  | closeParen closes =>
      exact ⟨trivial, trivial, _, proper.takes_next (by rw [closes]; decide), closes, rfl⟩

theorem PartsRead.sound {items : List Item} {parts : Parts items}
    (read : PartsRead reads items parts cursor after) (proper : cursor.Proper) :
    Parts.Shaped items parts ∧ Parts.EndAt after.current.kind items parts ∧
      ∃ tokens, Takes tokens cursor after ∧ Parts.Spells items parts tokens := by
  induction read with
  | nil => exact ⟨trivial, trivial, [], ⟨rfl, rfl⟩, rfl⟩
  | cons one rest ih =>
      obtain ⟨shaped, ends, first, taken, spelled⟩ := one.sound each proper
      obtain ⟨shapedRest, endRest, others, takenRest, spelledRest⟩ := ih (taken.proper proper)
      refine ⟨⟨shaped, shapedRest⟩, ?_, _, taken.trans takenRest, first, others, spelled,
        spelledRest, rfl⟩
      cases rest with
      | nil => exact ends
      | cons => exact endRest

end Parts

theorem Reads.sound {power : BindingPower} {expr : Expr} {cursor after : Cursor}
    (reads : Reads power expr cursor after) :
    cursor.Proper → ReadBetween cursor expr after ∧ expr.BindsTighter power := by
  refine Reads.ind ?leading ?trailing reads
  case leading =>
    intro power rule production parts cursor between takes read proper
    have step := proper.takes_next takes.ne_eof
    have own : ∀ word ∈ cursor.current.kind.typeWord?, cursor.current.value = word :=
      fun word named => proper.current_ownWord named
    obtain ⟨shaped, ends, tokens, taken, spelled⟩ := read.sound id (step.proper proper)
    obtain ⟨whole, plain⟩ := takes.shaped own shaped (between.site _) ((between.numbered 1).site _)
    refine ⟨⟨⟨_, (step.trans taken).numbered _, ?_⟩, whole, takes.precedes ends _ _⟩,
      .of_power?_none plain⟩
    exact Production.spells_node (takes.spells own spelled _) _
  case trailing =>
    intro power tighter rule production parts left start cursor between _ before takes binds read
      proper
    obtain ⟨⟨⟨front, takenLeft, spelledLeft⟩, shapedLeft, precedes⟩, -⟩ := before proper
    have here := takenLeft.proper proper
    have step := here.takes_next takes.ne_eof
    obtain ⟨shaped, ends, tokens, taken, spelled⟩ := read.sound id (step.proper here)
    have stands := (precedes _ _ takes.opening_eq.1).1
    obtain ⟨whole, outermost⟩ :=
      takes.shaped shapedLeft stands shaped (between.site _) ((between.numbered 1).site _)
    refine ⟨⟨⟨_, (takenLeft.trans (step.trans taken)).numbered _, ?_⟩, whole,
      takes.precedes ends _ _⟩, ?_⟩
    · exact Production.spells_node (takes.spells spelledLeft shapedLeft spelled _) _
    · intro outer known
      rw [Production.made, outermost] at known
      cases known
      exact binds

end Grammar

theorem Expr.sound_of_ofTokens {tokens : List Token} {expr : Expr} (lexed : Token.Lexed tokens)
    (accepted : Expr.ofTokens tokens = .ok expr) :
    expr.Spells (Token.beforeEnd tokens) ∧ expr.Shaped := by
  obtain ⟨after, -, reads, ends⟩ := reads_of_ofTokens accepted
  have proper := proper_ofTokens lexed
  obtain ⟨⟨⟨taken, takes, spelled⟩, shaped, -⟩, -⟩ := reads.sound proper
  have whole : Token.beforeEnd tokens = taken := by
    rw [← ahead_ofTokens lexed.endsOnce, takes.ahead, (takes.proper proper).ahead_eq_nil ends,
      List.append_nil]
  rw [whole]
  exact ⟨spelled, shaped⟩

/-- An expression that lexed tokens are read as is written with all of them up to the end and is
nested as its operators ask for. -/
theorem Expr.ofTokens_faithful :
    (∀ source tokens, tokenize source = .ok tokens → Token.Lexed tokens) ∧
      ∀ tokens expr, Token.Lexed tokens → Expr.ofTokens tokens = .ok expr →
        expr.Spells (Token.beforeEnd tokens) ∧ expr.Shaped := by
  exact ⟨fun _ _ scanned => lexed_of_tokenize scanned,
    fun _ _ lexed accepted => sound_of_ofTokens lexed accepted⟩

/-- `$x += -f($y, 1) * string(2 is 3) - if $z`, whose condition ends a chain of operators. -/
theorem Expr.ofTokens_faithful_nested :
    let tokens := [(.variableName, "$x"), (.plusEquals, "+="), (.dash, "-"), (.identifier, "f"),
      (.openParen, "("), (.variableName, "$y"), (.comma, ","), (.number, "1"), (.closeParen, ")"),
      (.star, "*"), (.stringType, "string"), (.openParen, "("), (.number, "2"), (.equals, "is"),
      (.number, "3"), (.closeParen, ")"), (.dash, "-"), (.ifWord, "if"), (.variableName, "$z"),
      (.eof, "EOF")].map fun entry => (⟨entry.1, entry.2, Span.point 0⟩ : Token)
    ∃ expr, Token.Lexed tokens ∧ Expr.ofTokens tokens = .ok expr ∧
      expr.Spells (Token.beforeEnd tokens) ∧ expr.Shaped := by
  intro tokens
  have lexed : Token.Lexed tokens := ⟨by decide, by decide⟩
  have accepted : (Expr.ofTokens tokens).isOk = true := by decide +kernel
  cases read : Expr.ofTokens tokens with
  | error report =>
      rw [read] at accepted
      cases accepted
  | ok expr => exact ⟨expr, lexed, rfl, Expr.ofTokens_faithful.2 tokens expr lexed read⟩

end DialogueTyping
