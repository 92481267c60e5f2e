import DialogueTyping.Proofs.Expr.Wrapper
import DialogueTyping.Proofs.Typing.Visit

set_option autoImplicit false

/-
Parentheses hide a call from the operator around them, so that its result is not filled. But then
its type was known already, or the operands do not agree.
-/

namespace DialogueTyping

/-- The result of every function is known. -/
def Table.ResultsKnown (table : Table) : Prop :=
  ∀ name held, table.findFunction? name = some held → held.result.isResolved

/-- Nothing that the wrapper hides could be filled in the table. -/
def Wrapper.Transparent (table : Table) : Wrapper → Prop
  | atom => True
  | paren => table.ResultsKnown

theorem Wrapper.Transparent.later {wrapper : Wrapper} {before after : Table}
    (transparent : wrapper.Transparent before) (leads : before.LeadsTo after) :
    wrapper.Transparent after := by
  cases wrapper with
  | atom => trivial
  | paren =>
      intro name later found
      obtain ⟨held, foundBefore, evolves⟩ := Table.Filled.findFunction?_before leads found
      have known : held.result.isResolved := transparent name held foundBefore
      rw [evolves.result.eq_of_isResolved known]
      exact known

theorem Expr.operator?_without (wrapper : Wrapper) {node : Expr} {symbol : Operator}
    (isOperator : node.operator? = some symbol) :
    (node.without wrapper).operator? = some symbol ∧ (node.without wrapper).site = node.site ∧
      (node.without wrapper).operands = node.operands.map (·.without wrapper) := by
  cases node with
  | unary | binary | assignment | condition =>
      rw [without]
      exact ⟨isOperator, rfl, rfl⟩
  | literal | reference | call | paren | atom | conversion => cases isOperator

namespace Check

/-- The same value, or reports of the same problem at whatever node, and the same table. -/
inductive SameEnd {α : Type} : Except Stop α × Table → Except Stop α × Table → Prop
  | ok (value : α) (table : Table) : SameEnd (.ok value, table) (.ok value, table)
  | report {report other : Diagnostic} (table : Table) : report.problem = other.problem →
      SameEnd (.error (.report report), table) (.error (.report other), table)
  | breach (fault : BindFault) (table : Table) :
      SameEnd (.error (.breach fault), table) (.error (.breach fault), table)

theorem SameEnd.refl {α : Type} (ended : Except Stop α × Table) : SameEnd ended ended := by
  obtain ⟨(report | fault) | value, table⟩ := ended
  · exact .report table rfl
  · exact .breach fault table
  · exact .ok value table

/-- Both computations end the same way from `table` on, if the first succeeds or the wrapper hides
nothing. -/
def Tracks {α : Type} (wrapper : Wrapper) (first second : Check α) (table : Table) : Prop :=
  (wrapper.Transparent table ∨ ∃ value after, first.outcome table = (.ok value, after)) →
    SameEnd (first.outcome table) (second.outcome table)

section Tracks

variable {α β : Type} {wrapper : Wrapper} {constant : Bool} {table : Table}

theorem tracks_of_eq {first second : Check α} (same : first.outcome table = second.outcome table) :
    Tracks wrapper first second table := by
  intro _
  rw [same]
  exact .refl _

theorem Tracks.bind {first second : Check α} {next other : α → Check β}
    (early : Tracks wrapper first second table)
    (leads : ∀ value between, first.outcome table = (.ok value, between) → table.LeadsTo between)
    (late : ∀ value between, first.outcome table = (.ok value, between) →
      Tracks wrapper (next value) (other value) between) :
    Tracks wrapper (first >>= next) (second >>= other) table := by
  intro clear
  have clearFirst : wrapper.Transparent table ∨
      ∃ value after, first.outcome table = (.ok value, after) := by
    refine clear.imp_right ?_
    rintro ⟨value, after, done⟩
    obtain ⟨middle, between, started, -⟩ := outcome_bind_eq_ok_iff.1 done
    exact ⟨middle, between, started⟩
  have same := early clearFirst
  have step := outcome_bind first next table
  rw [outcome_bind second other table]
  generalize second.outcome table = ended at same ⊢
  cases found : first.outcome table with
  | mk answer between =>
      rw [found] at same step
      rw [step]
      cases same with
      | report _ sameProblem => exact .report _ sameProblem
      | breach fault _ => exact .breach fault _
      | ok value _ =>
          apply late value between found
          refine clear.imp (fun transparent => transparent.later (leads value between found)) ?_
          rintro ⟨final, after, done⟩
          exact ⟨final, after, step.symm.trans done⟩

theorem tracks_pass (function : String) (index : Nat) (argument other : Site) (supplied : Ty) :
    Tracks wrapper (pass function index argument supplied) (pass function index other supplied)
      table := by
  apply (tracks_of_eq rfl).bind
  · intro expected between looked
    obtain ⟨rfl, -⟩ := slot_eq_ok_iff.1 looked
    exact .refl between
  · intro expected between _
    split
    · exact tracks_of_eq rfl
    · split
      · intro _
        exact .report _ rfl
      · exact tracks_of_eq rfl

theorem tracks_passAll {function : String} {arguments : List Expr} {index : Nat}
    (each : ∀ argument ∈ arguments, ∀ table,
      Tracks wrapper (expr constant argument) (expr constant (argument.without wrapper)) table) :
    Tracks wrapper (passAll constant function index arguments)
      (passAll constant function index (Expr.withoutAll wrapper arguments)) table := by
  induction arguments generalizing index table with
  | nil =>
      rw [Expr.withoutAll]
      exact tracks_of_eq rfl
  | cons argument others ih =>
      obtain ⟨first, rest⟩ := List.forall_mem_cons.1 each
      rw [Expr.withoutAll, passAll, passAll]
      apply (first table).bind
      · intro supplied between checked
        exact leadsTo_expr checked
      intro supplied between _
      apply (tracks_pass function index _ _ supplied).bind
      · intro _ handed passed
        exact leadsTo_pass passed
      intro _ handed _
      exact ih rest

theorem tracks_mapM {list : List Expr}
    (each : ∀ e ∈ list, ∀ table,
      Tracks wrapper (expr constant e) (expr constant (e.without wrapper)) table) :
    Tracks wrapper (list.mapM (expr constant))
      ((list.map (·.without wrapper)).mapM (expr constant)) table := by
  induction list generalizing table with
  | nil => exact tracks_of_eq rfl
  | cons head tail ih =>
      obtain ⟨first, rest⟩ := List.forall_mem_cons.1 each
      rw [List.map_cons, List.mapM_cons, List.mapM_cons]
      apply (first table).bind
      · intro type between checked
        exact leadsTo_expr checked
      intro type between _
      apply (ih rest).bind
      · intro types after checked
        exact leadsTo_mapM checked
      intro types after _
      exact tracks_of_eq rfl

/-- An operand is settled as before, unless it is a hidden call of unknown type. -/
theorem settle_without {start : Table} {operand : Expr} {type : Ty} (common : Ty)
    (found : Found constant start table operand type)
    (clear : operand.call? = none → wrapper.Transparent table ∨ type.isResolved) :
    (settle common (operand.without wrapper, type)).outcome table =
      (settle common (operand, type)).outcome table := by
  unfold settle
  dsimp only
  cases called : operand.call? with
  | some call =>
      obtain ⟨name, arguments⟩ := call
      rw [Expr.call?_without wrapper called]
  | none =>
      cases seen : (operand.without wrapper).call? with
      | none => rfl
      | some call =>
          -- the call comes to light, but its result is known: there is nothing to fill
          obtain ⟨name, arguments⟩ := call
          obtain ⟨site, others, isCore⟩ := Expr.core_of_call?_without seen
          obtain ⟨held, foundHeld, settles⟩ := found.result isCore
          have known : held.result.isResolved := by
            rcases clear called with transparent | known
            · cases wrapper with
              | atom =>
                  rw [Expr.call?_without_atom called] at seen
                  cases seen
              | paren => exact transparent name held foundHeld
            · rw [settles.eq_of_isResolved known]
              exact known
          have looked : (slot name .result).outcome table = (.ok held.result, table) :=
            slot_eq_ok_iff.2 ⟨rfl, held, foundHeld, rfl⟩
          simp only [outcome_bind, looked, known, ↓reduceIte]

theorem settleAll_without {start : Table} {operands : List (Expr × Ty)} (common : Ty)
    (found : ∀ operand ∈ operands, Found constant start table operand.1 operand.2)
    (clear : ∀ operand ∈ operands, operand.1.call? = none →
      wrapper.Transparent table ∨ operand.2.isResolved) :
    ((operands.map (Prod.map (·.without wrapper) id)).mapM (settle common)).outcome table =
      (operands.mapM (settle common)).outcome table := by
  induction operands generalizing table with
  | nil => rfl
  | cons operand operands ih =>
      obtain ⟨foundHead, foundTail⟩ := List.forall_mem_cons.1 found
      obtain ⟨clearHead, clearTail⟩ := List.forall_mem_cons.1 clear
      have head := settle_without common foundHead clearHead
      rw [List.map_cons, List.mapM_cons, List.mapM_cons, outcome_bind, outcome_bind, Prod.map,
        id_eq, head]
      cases ended : (settle common operand).outcome table with
      | mk answer between =>
          cases answer with
          | error stop => rfl
          | ok type =>
              have leads := leadsTo_settle ended
              have foundLater : ∀ other ∈ operands,
                  Found constant start between other.1 other.2 :=
                fun other member => (foundTail other member).later leads
              have clearLater : ∀ other ∈ operands, other.1.call? = none →
                  wrapper.Transparent between ∨ other.2.isResolved :=
                fun other member unseen => (clearTail other member unseen).imp_left (·.later leads)
              simp only [outcome_bind, ih foundLater clearLater]

/-- When the operands agree, one that is no visible call had the common type from the start. -/
theorem type_of_settleAll {common : Ty} {operands : List (Expr × Ty)} {types : List Ty}
    {after : Table}
    (settled : (operands.mapM (settle common)).outcome table = (.ok types, after))
    (uniform : ∀ type ∈ types, type = common) :
    ∀ operand ∈ operands, operand.1.call? = none → operand.2 = common := by
  intro operand member unseen
  obtain ⟨type, listed, _, _, -, here, -⟩ :=
    exists_of_forall₂ (steps_of_mapM (fills_settle_any common) settled) member
  rcases settle_eq_ok here with ⟨-, rfl⟩ | ⟨-, name, arguments, called, -⟩
  · exact uniform _ listed
  · rw [unseen] at called
    cases called

theorem unify_without {start : Table} {operands : List (Expr × Ty)} (site : Site)
    (operator : Operator)
    (found : ∀ operand ∈ operands, Found constant start table operand.1 operand.2)
    (clear : wrapper.Transparent table ∨
      ∃ type after, (unify site operator operands).outcome table = (.ok type, after)) :
    (unify site operator (operands.map (Prod.map (·.without wrapper) id))).outcome table =
      (unify site operator operands).outcome table := by
  -- an operand that is not seen as a call is never filled, so success means that its type was known
  have each : ∀ operand ∈ operands, operand.1.call? = none →
      wrapper.Transparent table ∨ operand.2.isResolved := by
    intro operand member unseen
    refine clear.imp_right ?_
    rintro ⟨type, after, unified⟩
    obtain ⟨common, types, settled, uniform, permitted, -⟩ := unify_eq_ok unified
    rw [type_of_settleAll settled uniform operand member unseen]
    exact operator.isResolved_of_permitted permitted
  have sameTypes : (operands.map (Prod.map (·.without wrapper) id)).map Prod.snd =
      operands.map Prod.snd := by
    rw [List.map_map]
    rfl
  rw [unify, unify, sameTypes]
  split
  · rfl
  · rename_i common _
    rw [outcome_bind, outcome_bind, settleAll_without common found each]

end Tracks

/-- An expression is checked like itself without the nodes of a wrapper, if it is accepted or the
wrapper hides nothing. -/
theorem tracks_without (wrapper : Wrapper) (constant : Bool) (e : Expr) (table : Table) :
    Tracks wrapper (expr constant e) (expr constant (e.without wrapper)) table := by
  induction e using Expr.operatorInd generalizing table with
  | literal | reference =>
      rw [Expr.without]
      exact tracks_of_eq rfl
  | call site name arguments ih =>
      rw [Expr.without, expr, expr, Expr.length_withoutAll]
      apply (tracks_of_eq rfl).bind
      · intro _ between counted
        obtain ⟨rfl, -⟩ := arity_eq_ok_iff.1 counted
        exact .refl between
      intro _ between _
      apply (tracks_passAll ih).bind
      · intro _ after passed
        exact leadsTo_passAll passed
      intro _ after _
      exact tracks_of_eq rfl
  | operator node symbol isOperator ih =>
      obtain ⟨stillOperator, sameSite, sameOperands⟩ := Expr.operator?_without wrapper isOperator
      rw [expr_of_operator? constant isOperator, expr_of_operator? constant stillOperator, sameSite,
        sameOperands]
      apply (tracks_mapM ih).bind
      · intro types between checked
        exact leadsTo_mapM checked
      intro types between checked clear
      have found : ∀ operand ∈ node.operands.zip types,
          Found constant table between operand.1 operand.2 :=
        fun _ member => List.forall₂_zip (found_of_mapM checked) member
      rw [List.zip_map_left, unify_without node.site symbol found clear]
      exact .refl _
  | paren site inner ih =>
      cases wrapper with
      | atom | paren =>
          simp only [Expr.without, expr]
          exact ih table
  | atom site inner ih =>
      cases wrapper with
      | atom | paren =>
          simp only [Expr.without, expr]
          exact ih table
  | conversion site target body ih =>
      rw [Expr.without, expr, expr]
      apply (ih table).bind
      · intro type between checked
        exact leadsTo_expr checked
      intro type between _
      exact tracks_of_eq rfl

/-- Atom nodes make no difference: without them an expression has the same type or the same problem,
and the same table is left. -/
theorem without_atoms (constant : Bool) (e : Expr) (table : Table) :
    SameEnd ((expr constant e).outcome table) ((expr constant (e.without .atom)).outcome table) :=
  tracks_without .atom constant e table (Or.inl trivial)

/-- Removing parentheses never hurts, and where the results of all functions are known, what is
refused stays refused for the same problem. -/
theorem without_parens (constant : Bool) (e : Expr) (table : Table) :
    (∀ type after, (expr constant e).outcome table = (.ok type, after) →
      (expr constant (e.without .paren)).outcome table = (.ok type, after)) ∧
    (table.ResultsKnown →
      SameEnd ((expr constant e).outcome table)
        ((expr constant (e.without .paren)).outcome table)) := by
  have tracks := tracks_without .paren constant e table
  refine ⟨?_, fun known => tracks (Or.inl known)⟩
  intro type after accepted
  have same := tracks (Or.inr ⟨type, after, accepted⟩)
  rw [accepted] at same
  generalize (expr constant (e.without .paren)).outcome table = ended at same ⊢
  cases same
  rfl

/-- `(f()) + number(g(0))` and `(f()) + g(0)`, where `g` gives a string. Without the parentheses
both calls of `f` are seen. -/
theorem without_parens_hidden_call :
    let site : Site := ⟨⟨0⟩, .point 0⟩
    let text : Expr := .call site "g" [.literal site (.number .zero)]
    let sum (right : Expr) : Expr := .binary site .add (.paren site (.call site "f" [])) right
    let plain (right : Expr) : Expr := .binary site .add (.call site "f" []) right
    let right : Expr := .atom site (.conversion site "number" text)
    let table (type : Ty) : Table :=
      ⟨[.functionOf "f" ⟨[], .number⟩, .functionOf "g" ⟨[⟨none, type⟩], .string⟩]⟩
    (table .unresolved).ResultsKnown ∧ (sum right).without .paren = plain right ∧
      (expr false (sum right)).outcome (table .unresolved) = (.ok .number, table .number) ∧
      (expr false (plain right)).outcome (table .unresolved) = (.ok .number, table .number) ∧
      (expr false (sum text)).outcome (table .unresolved) =
        (.error (.report (.atSite (.operandMismatch "+" [.number, .string]) site)),
          table .number) ∧
      SameEnd ((expr false (sum text)).outcome (table .unresolved))
        ((expr false (plain text)).outcome (table .unresolved)) := by
  intro site text sum plain right table
  have known : (table .unresolved).ResultsKnown := by
    intro name held found
    obtain ⟨before, later, split, -⟩ := Table.findFunction?_eq_some_iff.1 found
    have declared : .functionOf name held ∈ (table .unresolved).declarations := by
      rw [split]
      exact List.mem_append_right before List.mem_cons_self
    simp only [table, List.mem_cons, Declaration.functionOf.injEq, List.not_mem_nil, or_false]
      at declared
    rcases declared with ⟨-, rfl⟩ | ⟨-, rfl⟩
    · rfl
    · rfl
  have accepted : (expr false (sum right)).outcome (table .unresolved) =
      (.ok .number, table .number) := by
    decide +kernel
  have removed (right : Expr) (bare : right.without .paren = right) :
      (sum right).without .paren = plain right := by
    simp only [sum, plain, Expr.without, Expr.withoutAll, bare]
  have sameRight := removed right rfl
  have sameText := removed text rfl
  have acceptedPlain := (without_parens false (sum right) (table .unresolved)).1 _ _ accepted
  have sameEnd := (without_parens false (sum text) (table .unresolved)).2 known
  rw [sameRight] at acceptedPlain
  rw [sameText] at sameEnd
  exact ⟨known, sameRight, accepted, acceptedPlain, by decide +kernel, sameEnd⟩

end Check

end DialogueTyping
