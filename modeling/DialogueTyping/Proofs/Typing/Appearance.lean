import DialogueTyping.Proofs.Grammar.Lookahead
import DialogueTyping.Proofs.Typing.Outcome

set_option autoImplicit false

namespace DialogueTyping

theorem Expr.ofSource_of_tokenize {text : String} {tokens : List Token}
    (scanned : tokenize text = .ok tokens) : ofSource text = ofTokens tokens := by
  rw [ofSource, scanned]
  rfl

def Diagnostic.unplaced (diagnostic : Diagnostic) : Diagnostic :=
  { diagnostic with span := .point 0 }

def Stop.unplaced : Stop → Stop
  | report diagnostic => report diagnostic.unplaced
  | breach fault => breach fault

namespace Check

/-- The computation with the places of its reports forgotten. -/
def unplaced {α : Type} (check : Check α) : Check α := EStateM.adaptExcept Stop.unplaced check

section Unplaced

variable {α β : Type}

theorem outcome_unplaced (check : Check α) (table : Table) :
    check.unplaced.outcome table =
      ((check.outcome table).1.mapError Stop.unplaced, (check.outcome table).2) := by
  rw [unplaced, outcome, outcome, EStateM.run_adaptExcept]
  cases check.run table <;> rfl

@[simp] theorem unplaced_pure (value : α) : (pure value : Check α).unplaced = pure value := rfl

@[simp] theorem unplaced_get : (get : Check Table).unplaced = get := rfl

@[simp] theorem unplaced_bind (first : Check α) (next : α → Check β) :
    (first >>= next).unplaced = first.unplaced >>= fun value => (next value).unplaced := by
  funext table
  change (EStateM.adaptExcept _ _).run table = (EStateM.adaptExcept _ _ >>= _).run table
  rw [EStateM.run_adaptExcept, EStateM.run_bind, EStateM.run_bind, EStateM.run_adaptExcept]
  cases first.run table with
  | error stop between => rfl
  | ok value between => exact (EStateM.run_adaptExcept ..).symm

theorem unplaced_mapM {f g : α → Check β} (each : ∀ a, (f a).unplaced = g a) (list : List α) :
    (list.mapM f).unplaced = list.mapM g := by
  induction list with
  | nil => rfl
  | cons a list ih => simp only [List.mapM_cons, unplaced_bind, unplaced_pure, each, ih]

@[simp] theorem unplaced_bindSlot (name : String) (slot : Slot) (type : Ty) :
    (bindSlot name slot type).unplaced = bindSlot name slot type := by
  rw [bindSlot, unplaced_bind, unplaced_get]
  congr
  funext table
  split <;> rfl

@[simp] theorem unplaced_slot (name : String) (place : Slot) :
    (slot name place).unplaced = slot name place := by
  have found : (signature name).unplaced = signature name := by
    rw [signature, unplaced_bind, unplaced_get]
    congr
    funext table
    split <;> rfl
  rw [slot, unplaced_bind, found]
  congr
  funext held
  split <;> rfl

@[simp] theorem unplaced_literal (site : Site) (value : Literal) :
    (literal site value).unplaced = literal site.unplaced value := by
  cases value <;> rfl

@[simp] theorem unplaced_reference (constant : Bool) (site : Site) (name : String) :
    (reference constant site name).unplaced = reference constant site.unplaced name := by
  rw [reference, reference]
  split
  · rfl
  · rw [unplaced_bind, unplaced_get]
    congr
    funext table
    split <;> rfl

@[simp] theorem unplaced_conversion (site : Site) (target : String) :
    (conversion site target).unplaced = conversion site.unplaced target := by
  rw [conversion, conversion]
  split <;> rfl

@[simp] theorem unplaced_arity (site : Site) (name : String) (actual : Nat) :
    (arity site name actual).unplaced = arity site.unplaced name actual := by
  rw [arity, arity, unplaced_bind, unplaced_get]
  congr
  funext table
  split
  · rfl
  · split <;> rfl

@[simp] theorem unplaced_pass (function : String) (index : Nat) (argument : Site) (supplied : Ty) :
    (pass function index argument supplied).unplaced =
      pass function index argument.unplaced supplied := by
  rw [pass, pass, unplaced_bind, unplaced_slot]
  congr
  funext expected
  split
  · split
    · exact unplaced_bindSlot function _ supplied
    · rfl
  · split <;> rfl

theorem unplaced_settle (common : Ty) (operand : Expr × Ty) :
    (settle common operand).unplaced = settle common (operand.1.unplaced, operand.2) := by
  rw [settle, settle, Expr.call?_unplaced]
  cases operand.1.call? with
  | none => rfl
  | some called =>
      simp only [Option.map_some, unplaced_bind, unplaced_slot]
      congr
      funext held
      split
      · rfl
      · rw [unplaced_bind, unplaced_bindSlot, unplaced_pure]

theorem unplaced_unify (site : Site) (operator : Operator) (operands : List (Expr × Ty)) :
    (unify site operator operands).unplaced =
      unify site.unplaced operator
        (operands.map fun operand => (operand.1.unplaced, operand.2)) := by
  have types : (operands.map fun operand => (operand.1.unplaced, operand.2)).map Prod.snd =
      operands.map Prod.snd := by
    rw [List.map_map]
    rfl
  have settled (common : Ty) : (operands.mapM (settle common)).unplaced =
      (operands.map fun operand => (operand.1.unplaced, operand.2)).mapM (settle common) := by
    rw [List.mapM_map]
    exact unplaced_mapM (unplaced_settle common) operands
  rw [unify, unify, types]
  split
  · rfl
  · rw [unplaced_bind, settled]
    congr
    funext types
    split
    · rfl
    · split <;> rfl

theorem unplaced_passAll (constant : Bool) (function : String) (index : Nat) (arguments : List Expr)
    (each : ∀ argument ∈ arguments,
      (expr constant argument).unplaced = expr constant argument.unplaced) :
    (passAll constant function index arguments).unplaced =
      passAll constant function index (Expr.unplacedAll arguments) := by
  induction arguments generalizing index with
  | nil => rw [Expr.unplacedAll, passAll, unplaced_pure]
  | cons argument others ih =>
      obtain ⟨first, rest⟩ := List.forall_mem_cons.1 each
      simp only [Expr.unplacedAll, passAll, unplaced_bind, unplaced_pass, first, ih _ rest,
        Expr.site_unplaced]

/-- Checking never looks at where a node was read from. -/
theorem unplaced_expr (constant : Bool) (e : Expr) :
    (expr constant e).unplaced = expr constant e.unplaced := by
  induction e using Expr.ind with
  | literal site value => simp only [Expr.unplaced, expr, unplaced_literal]
  | reference site name => simp only [Expr.unplaced, expr, unplaced_reference]
  | call site name arguments ih =>
      simp only [Expr.unplaced, expr, unplaced_bind, unplaced_arity, unplaced_slot,
        unplaced_passAll constant name 0 arguments ih, Expr.length_unplacedAll]
  | unary site operator operand ih =>
      simp only [Expr.unplaced, expr, unplaced_bind, unplaced_unify, List.map_cons, List.map_nil,
        ih]
  | binary site operator left right ihLeft ihRight =>
      simp only [Expr.unplaced, expr, unplaced_bind, unplaced_unify, List.map_cons, List.map_nil,
        ihLeft, ihRight]
  | assignment site operator target value ihTarget ihValue =>
      simp only [Expr.unplaced, expr, unplaced_bind, unplaced_unify, List.map_cons, List.map_nil,
        ihTarget, ihValue]
  | paren site inner ih => simp only [Expr.unplaced, expr, ih]
  | atom site inner ih => simp only [Expr.unplaced, expr, ih]
  | conversion site target body ih =>
      simp only [Expr.unplaced, expr, unplaced_bind, unplaced_conversion, ih]
  | condition site clause body ih =>
      simp only [Expr.unplaced, expr, unplaced_bind, unplaced_unify, List.map_cons, List.map_nil,
        ih]

end Unplaced

/-- The same type, or reports of the same problem at the same node. -/
def SameAnswer : Except Stop Ty → Except Stop Ty → Prop
  | .ok type, .ok other => type = other
  | .error (.report report), .error (.report other) =>
    report.problem = other.problem ∧ report.node = other.node
  | .error (.breach fault), .error (.breach other) => fault = other
  | _, _ => False

theorem sameAnswer_of_unplaced {answer other : Except Stop Ty}
    (same : answer.mapError Stop.unplaced = other.mapError Stop.unplaced) :
    SameAnswer answer other := by
  rcases answer with (report | fault) | type <;>
    rcases other with (otherReport | otherFault) | otherType <;>
    simp_all [Except.mapError, Stop.unplaced, Diagnostic.unplaced, SameAnswer]

theorem outcome_of_alike {e other : Expr} (same : e.Alike other) (constant : Bool) (table : Table) :
    SameAnswer ((expr constant e).outcome table).1 ((expr constant other).outcome table).1 ∧
      ((expr constant e).outcome table).2 = ((expr constant other).outcome table).2 := by
  have sameCheck : (expr constant e).unplaced = (expr constant other).unplaced := by
    rw [unplaced_expr, unplaced_expr, same]
  have sameOutcome := congrArg (·.outcome table) sameCheck
  simp only [outcome_unplaced, Prod.mk.injEq] at sameOutcome
  exact ⟨sameAnswer_of_unplaced sameOutcome.1, sameOutcome.2⟩

/-- Source texts with tokens that are alike have the same types or the same problems and leave the
same table, whether or not they are read. The names of their files are no part of this: only
`Diagnostic.render` is given one. -/
theorem source_of_alike {first second : String} {tokens others : List Token}
    (scanned : tokenize first = .ok tokens) (otherScanned : tokenize second = .ok others)
    (alike : List.Forall₂ Token.Alike tokens others) :
    (∃ e other, Expr.ofSource first = .ok e ∧ Expr.ofSource second = .ok other ∧ e.Alike other ∧
      ∀ constant table,
        let outcome := (source constant first).outcome table
        let otherOutcome := (source constant second).outcome table
        SameAnswer outcome.1 otherOutcome.1 ∧ outcome.2 = otherOutcome.2) ∨
    ∃ report other, Expr.ofSource first = .error report ∧ Expr.ofSource second = .error other ∧
      report.problem.name = other.problem.name ∧
      ∀ constant table, (source constant first).outcome table = (.error (.report report), table) ∧
        (source constant second).outcome table = (.error (.report other), table) := by
  have read := Expr.ofSource_of_tokenize scanned
  have otherRead := Expr.ofSource_of_tokenize otherScanned
  rw [read, otherRead]
  rcases Expr.ofTokens_alike (lexed_of_tokenize scanned) (lexed_of_tokenize otherScanned) alike with
    ⟨e, other, found, otherFound, same⟩ | ⟨report, other, failed, otherFailed, sameName⟩
  · refine Or.inl ⟨e, other, found, otherFound, same, ?_⟩
    intro constant table
    simp only [source, read, otherRead, found, otherFound]
    exact outcome_of_alike same constant table
  · refine Or.inr ⟨report, other, failed, otherFailed, sameName, ?_⟩
    intro constant table
    simp only [source, read, otherRead, failed, otherFailed, outcome_throw, and_self]

/-- A comment, a word for the operator, and an escape for the character itself. Both texts fill the
result of `f` and are then found wrong. -/
theorem source_of_alike_comment :
    let first := "f()&&\"\t\""
    let second := "f( )//\nand\"\\t\""
    let tokens : List Token := [⟨.identifier, "f", ⟨0, 1⟩⟩, ⟨.openParen, "(", ⟨1, 2⟩⟩,
      ⟨.closeParen, ")", ⟨2, 3⟩⟩, ⟨.and, "&&", ⟨3, 5⟩⟩, ⟨.string, "\t", ⟨5, 8⟩⟩,
      ⟨.eof, "EOF", ⟨8, 8⟩⟩]
    let others : List Token := [⟨.identifier, "f", ⟨0, 1⟩⟩, ⟨.openParen, "(", ⟨1, 2⟩⟩,
      ⟨.closeParen, ")", ⟨3, 4⟩⟩, ⟨.and, "and", ⟨7, 10⟩⟩, ⟨.string, "\t", ⟨10, 14⟩⟩,
      ⟨.eof, "EOF", ⟨14, 14⟩⟩]
    let table (result : Ty) : Table := ⟨[.functionOf "f" ⟨[], result⟩]⟩
    let outcome := (source false first).outcome (table .unresolved)
    let otherOutcome := (source false second).outcome (table .unresolved)
    tokenize first = .ok tokens ∧ tokenize second = .ok others ∧
      List.Forall₂ Token.Alike tokens others ∧
      (∃ e other, Expr.ofSource first = .ok e ∧ Expr.ofSource second = .ok other ∧
        e.Alike other) ∧
      SameAnswer outcome.1 otherOutcome.1 ∧ outcome.2 = otherOutcome.2 ∧
      outcome.2 = table .string := by
  intro first second tokens others table outcome otherOutcome
  have scanned : tokenize first = .ok tokens := by decide +kernel
  have otherScanned : tokenize second = .ok others := by decide +kernel
  have alike : List.Forall₂ Token.Alike tokens others :=
    .cons ⟨rfl, fun _ => rfl⟩ (.cons ⟨rfl, by decide⟩ (.cons ⟨rfl, by decide⟩
      (.cons ⟨rfl, by decide⟩ (.cons ⟨rfl, fun _ => rfl⟩ (.cons ⟨rfl, by decide⟩ .nil)))))
  have filled : ((source false first).outcome (table .unresolved)).2 = table .string := by
    rw [source, Expr.ofSource_of_tokenize scanned]
    rfl
  rcases source_of_alike scanned otherScanned alike with
    ⟨e, other, found, otherFound, same, outcomes⟩ | ⟨report, _, _, _, _, outcomes⟩
  · obtain ⟨sameAnswer, sameTable⟩ := outcomes false (table .unresolved)
    exact ⟨scanned, otherScanned, alike, ⟨e, other, found, otherFound, same⟩, sameAnswer,
      sameTable, filled⟩
  · -- a text that is not read would leave the table as it was
    have changed : table .unresolved ≠ table .string := by decide
    rw [(outcomes false _).1] at filled
    exact absurd filled changed

end Check

end DialogueTyping
