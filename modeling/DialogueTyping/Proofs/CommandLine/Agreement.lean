import DialogueTyping.CommandLine.Basic
import DialogueTyping.Proofs.Typing.Exactness
import DialogueTyping.Proofs.Typing.Blame

set_option autoImplicit false

namespace DialogueTyping

/-- Some type of the declaration is not known. -/
def Declaration.HasOpenSlot (declaration : Declaration) : Prop :=
  ∃ slot, declaration.slot? slot = some .unresolved

theorem Declaration.isOpen_iff {declaration : Declaration} :
    declaration.isOpen = true ↔ declaration.HasOpenSlot := by
  rw [← Bool.not_eq_false, isOpen_eq_false_iff, HasOpenSlot]
  constructor
  · intro unsettled
    push Not at unsettled
    obtain ⟨slot, type, held, unknown⟩ := unsettled
    cases type with
    | unresolved => exact ⟨slot, held⟩
    | _ => exact absurd rfl unknown
  · rintro ⟨slot, held⟩ settled
    exact absurd (settled slot _ held) (by decide)

instance (declaration : Declaration) : Decidable declaration.HasOpenSlot :=
  decidable_of_iff _ Declaration.isOpen_iff

theorem Table.openDeclarations_eq (table : Table) :
    table.openDeclarations =
      table.declarations.filter fun declaration => declaration.HasOpenSlot := by
  unfold openDeclarations
  congr 1
  funext declaration
  rw [Bool.eq_iff_iff, decide_eq_true_iff, Declaration.isOpen_iff]

namespace Check

variable {constant : Bool} {index : Nat} {text : String} {texts : List String} {type : Ty}
  {stop : Stop} {table between : Table}

theorem outcome_eq_ok_iff {α : Type} {check : Check α} {value : α} {after : Table} :
    check.outcome table = (.ok value, after) ↔ check.run table = .ok value after := by
  unfold outcome
  cases check.run table <;> simp

theorem outcome_eq_error_iff {α : Type} {check : Check α} {after : Table} :
    check.outcome table = (.error stop, after) ↔ check.run table = .error stop after := by
  unfold outcome
  cases check.run table <;> simp

theorem sourcesFrom_cons_of_ok (typed : (source constant text).outcome table = (.ok type, between)) :
    (sourcesFrom constant index (text :: texts)).run table =
      match (sourcesFrom constant (index + 1) texts).run between with
      | .ok types after => .ok (type :: types) after
      | .error fault after => .error fault after := by
  rw [outcome_eq_ok_iff] at typed
  rw [sourcesFrom, EStateM.run_bind, EStateM.run_adaptExcept, typed]
  simp only [EStateM.run_bind]
  cases (sourcesFrom constant (index + 1) texts).run between <;> rfl

theorem sourcesFrom_cons_of_error
    (wrong : (source constant text).outcome table = (.error stop, between)) :
    (sourcesFrom constant index (text :: texts)).run table = .error (index, stop) between := by
  rw [outcome_eq_error_iff] at wrong
  rw [sourcesFrom, EStateM.run_bind, EStateM.run_adaptExcept, wrong]

/-- A source text is never found wrong without a report. -/
theorem source_stop_eq_report {after : Table}
    (wrong : (source constant text).outcome table = (.error stop, after)) :
    ∃ diagnostic, stop = .report diagnostic := by
  unfold source at wrong
  split at wrong
  · obtain ⟨node, problem, -, isReport, -⟩ := blames_expr wrong
    exact ⟨_, isReport⟩
  · cases wrong
    exact ⟨_, rfl⟩

end Check

namespace CommandLine

def Entry.source (entry : Entry) : String := String.ofList entry.line

/-- The lines of `text` that are not blank and do not start with a comment, in order and with their
numbers. -/
structure Lists (text : String) (listed : List Entry) : Prop where
  lines : listed.map Entry.line = (Text.lines text.toList).filter fun line =>
    Text.trim line ≠ [] ∧ ¬ ['/', '/'] <+: Text.trim line
  numbered : ∀ entry ∈ listed,
    0 < entry.number ∧ (Text.lines text.toList)[entry.number - 1]? = some entry.line
  ascending : listed.Pairwise fun entry later => entry.number < later.number

theorem holdsExpression_eq (line : List Char) :
    holdsExpression line = decide (Text.trim line ≠ [] ∧ ¬ ['/', '/'] <+: Text.trim line) := by
  rw [Bool.eq_iff_iff, decide_eq_true_iff, holdsExpression, Bool.and_eq_true, Bool.not_eq_true',
    Bool.not_eq_true', List.isEmpty_eq_false_iff, ← Bool.not_eq_true, List.isPrefixOf_iff_prefix]

theorem lists_entries (text : String) : Lists text (entries text) := by
  constructor
  · change (List.filter (holdsExpression ∘ Entry.line) _).map Entry.line = _
    rw [← List.filter_map, List.map_map]
    -- the line of the entry made from a numbered line is that line
    change List.filter holdsExpression (List.map Prod.fst _) = _
    rw [List.zipIdx_map_fst, funext holdsExpression_eq]
  · intro entry member
    simp only [entries, List.mem_filter, List.mem_map] at member
    obtain ⟨⟨⟨line, number⟩, placed, rfl⟩, -⟩ := member
    exact List.mk_mem_zipIdx_iff_le_and_getElem?_sub.1 placed
  · apply List.Pairwise.filter
    rw [List.pairwise_map, ← List.pairwise_map (f := Prod.snd) (R := (· < ·)), List.zipIdx_map_snd]
    exact List.pairwise_lt_range'

variable {constant : Bool} {index : Nat} {listed : List Entry}
  {table after : Table}

theorem pass_of_ok (file : String) {types : List Ty}
    (typed : (Check.sourcesFrom constant index (listed.map Entry.source)).run table =
      .ok types after) :
    types.length = listed.length ∧
      pass file constant listed table = ⟨List.zipWith Entry.row listed types, none, after⟩ := by
  induction listed generalizing index table types with
  | nil =>
      cases typed
      exact ⟨rfl, rfl⟩
  | cons entry others ih =>
      rw [List.map_cons] at typed
      rcases first : (Check.source constant entry.source).outcome table with ⟨stop | type, between⟩
      · rw [Check.sourcesFrom_cons_of_error first] at typed
        cases typed
      · rw [Check.sourcesFrom_cons_of_ok first] at typed
        split at typed
        · rename_i laterTypes _ rest
          cases typed
          obtain ⟨sameLength, passed⟩ := ih rest
          refine ⟨congrArg (· + 1) sameLength, ?_⟩
          rw [Entry.source] at first
          rw [pass, first]
          simp only [passed, List.zipWith_cons_cons]
        · cases typed

theorem pass_of_error (file : String) {number : Nat} {stop : Stop}
    (wrong : (Check.sourcesFrom constant index (listed.map Entry.source)).run table =
      .error (number, stop) after) :
    ∃ count entry types between, number = index + count ∧ listed[count]? = some entry ∧
      (Check.sourcesFrom constant index ((listed.take count).map Entry.source)).run table =
        .ok types between ∧
      (Check.source constant entry.source).outcome between = (.error stop, after) ∧
      pass file constant listed table =
        ⟨List.zipWith Entry.row (listed.take count) types, some (entry.report file stop), after⟩ := by
  induction listed generalizing index table with
  | nil => cases wrong
  | cons entry others ih =>
      rw [List.map_cons] at wrong
      rcases first : (Check.source constant entry.source).outcome table with ⟨_ | type, between⟩
      · rw [Check.sourcesFrom_cons_of_error first] at wrong
        cases wrong
        refine ⟨0, entry, [], table, rfl, rfl, rfl, first, ?_⟩
        rw [Entry.source] at first
        rw [pass, first]
        rfl
      · rw [Check.sourcesFrom_cons_of_ok first] at wrong
        split at wrong
        · cases wrong
        · rename_i rest
          cases wrong
          obtain ⟨count, failing, types, last, rfl, placed, typed, stopped, passed⟩ := ih rest
          refine ⟨count + 1, failing, type :: types, last, by omega, placed, ?_, stopped, ?_⟩
          · rw [List.take_succ_cons, List.map_cons, Check.sourcesFrom_cons_of_ok first, typed]
          · rw [Entry.source] at first
            rw [pass, first]
            simp only [passed, List.take_succ_cons, List.zipWith_cons_cons]

/-- Texts on lines of their own, two blanks in front of each. -/
def indented (texts : List String) : String :=
  String.join (texts.map fun text => "  " ++ text ++ "\n")

theorem summary_eq (table : Table) :
    let unresolved := table.declarations.filter fun declaration => declaration.HasOpenSlot
    summary table = "\nDeclarations:\n" ++ indented (table.declarations.map Declaration.text) ++
      if unresolved = [] then ""
      else "Still unresolved:\n" ++ indented (unresolved.map Declaration.name) := by
  intro unresolved
  unfold summary
  rw [Table.openDeclarations_eq]
  simp only [List.isEmpty_iff]
  rfl

section Run

variable (invocation : Invocation) {declarations expressions : String} {table after : Table}
  {rows : List String} (read : Table.ofSource declarations = .ok table)

include read

theorem run_of_pass (passed : pass (fileName invocation.expressionsPath) invocation.constant
      (entries expressions) table = ⟨rows, none, after⟩) :
    invocation.run (.ok declarations) (.ok expressions) =
      ⟨0, String.join rows ++ summary after, ""⟩ := by
  simp only [Invocation.run, Invocation.runOn, read, passed]

theorem run_of_failed_pass {message : String}
    (passed : pass (fileName invocation.expressionsPath) invocation.constant
      (entries expressions) table = ⟨rows, some message, after⟩) :
    invocation.run (.ok declarations) (.ok expressions) =
      ⟨1, String.join rows, message ++ "\n"⟩ := by
  simp only [Invocation.run, Invocation.runOn, read, passed, failed]

end Run

/-- A run prints what one pass over the texts of the lines computes: their types and the table that
is left, or the rows up to the first wrong line and the report on it. No type or table depends on
the name of the file, which only the report shows. -/
theorem run_agrees_with_sources (invocation : Invocation) {declarations : String} {table : Table}
    (read : Table.ofSource declarations = .ok table) (expressions : String) :
    let listed := entries expressions
    Lists expressions listed ∧
      (∀ types after,
        (Check.sources invocation.constant (listed.map Entry.source)).run table = .ok types after →
        let unresolved := after.declarations.filter fun declaration => declaration.HasOpenSlot
        types.length = listed.length ∧
          invocation.run (.ok declarations) (.ok expressions) =
            ⟨0, String.join (List.zipWith Entry.row listed types) ++ ("\nDeclarations:\n" ++
              indented (after.declarations.map Declaration.text) ++
              if unresolved = [] then ""
              else "Still unresolved:\n" ++ indented (unresolved.map Declaration.name)), ""⟩) ∧
      ∀ index stop after,
        (Check.sources invocation.constant (listed.map Entry.source)).run table =
          .error (index, stop) after →
        ∃ entry diagnostic types between, listed[index]? = some entry ∧ stop = .report diagnostic ∧
          (Check.sources invocation.constant ((listed.take index).map Entry.source)).run table =
            .ok types between ∧
          types.length = index ∧
          invocation.run (.ok declarations) (.ok expressions) =
            ⟨1, String.join (List.zipWith Entry.row (listed.take index) types),
              diagnostic.render (fileName invocation.expressionsPath ++ ":" ++ toString entry.number)
                entry.source ++ "\n"⟩ := by
  refine ⟨lists_entries expressions, ?_, ?_⟩
  · intro types after typed unresolved
    obtain ⟨sameLength, passed⟩ := pass_of_ok (fileName invocation.expressionsPath) typed
    refine ⟨sameLength, ?_⟩
    rw [run_of_pass invocation read passed, ← summary_eq]
  · intro index stop after wrong
    obtain ⟨count, entry, types, between, rfl, placed, typed, stopped, passed⟩ :=
      pass_of_error (fileName invocation.expressionsPath) wrong
    obtain ⟨diagnostic, rfl⟩ := Check.source_stop_eq_report stopped
    obtain ⟨sameLength, -⟩ := pass_of_ok (fileName invocation.expressionsPath) typed
    have inside := (List.getElem?_eq_some_iff.1 placed).1
    have count_eq : types.length = count := by
      rw [sameLength, List.length_take, Nat.min_eq_left (Nat.le_of_lt inside)]
    rw [Nat.zero_add]
    refine ⟨entry, diagnostic, types, between, placed, rfl, typed, count_eq, ?_⟩
    exact run_of_failed_pass invocation read passed

/-- The comment and the empty line take up numbers of the file but none of the pass. -/
theorem run_agrees_with_sources_second :
    let invocation : Invocation := ⟨"dice.decl", "rolls.txt", false⟩
    let declarations := "fn dice(?) -> ?"
    let expressions := "// rolls\n dice(6) + 1\n\ndice(true)"
    let table : Table := ⟨[.functionOf "dice" ⟨[⟨none, .unresolved⟩], .unresolved⟩]⟩
    let diagnostic := Diagnostic.atSite (.argumentMismatch "dice" 0 .number .bool) ⟨⟨1⟩, ⟨5, 9⟩⟩
    Table.ofSource declarations = .ok table ∧
      invocation.run (.ok declarations) (.ok expressions) =
        ⟨1, "   2 | dice(6) + 1                              : Number\n",
          diagnostic.render (fileName "rolls.txt" ++ ":" ++ toString 4) "dice(true)" ++ "\n"⟩ := by
  intro invocation declarations expressions table diagnostic
  let filled : Table := ⟨[.functionOf "dice" ⟨[⟨none, .number⟩], .number⟩]⟩
  have read : Table.ofSource declarations = .ok table := by decide +kernel
  have listed : entries expressions = [⟨2, " dice(6) + 1".toList⟩, ⟨4, "dice(true)".toList⟩] := by
    decide +kernel
  have texts : (entries expressions).map Entry.source = [" dice(6) + 1", "dice(true)"] := by
    decide +kernel
  have first : (Check.source false " dice(6) + 1").outcome table = (.ok .number, filled) := by
    decide +kernel
  have second : (Check.source false "dice(true)").outcome filled =
      (.error (.report diagnostic), filled) := by
    decide +kernel
  have stopped : (Check.sources false ((entries expressions).map Entry.source)).run table =
      .error (1, .report diagnostic) filled := by
    rw [texts, Check.sources, Check.sourcesFrom_cons_of_ok first,
      Check.sourcesFrom_cons_of_error second]
  obtain ⟨-, -, agrees⟩ := run_agrees_with_sources invocation read expressions
  obtain ⟨entry, _, types, _, placed, ⟨⟩, typed, -, same⟩ := agrees _ _ _ stopped
  rw [List.map_take, texts, Check.sources, List.take_succ_cons,
    Check.sourcesFrom_cons_of_ok first] at typed
  rw [listed] at placed same
  cases placed
  cases typed
  have row : String.join [Entry.row ⟨2, " dice(6) + 1".toList⟩ .number] =
      "   2 | dice(6) + 1                              : Number\n" := by
    decide +kernel
  have text : Entry.source ⟨4, "dice(true)".toList⟩ = "dice(true)" := by decide
  rw [text] at same
  exact ⟨read, same.trans (row ▸ rfl)⟩

end CommandLine

end DialogueTyping
