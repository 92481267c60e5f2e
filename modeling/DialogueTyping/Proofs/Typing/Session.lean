import DialogueTyping.Proofs.Typing.Filling

set_option autoImplicit false

namespace DialogueTyping

/-- What checking `expr` leaves alone. -/
structure Table.Framed (expr : Expr) (before after : Table) : Prop where
  variablesKept : ∀ (index : Nat) (name : String) (type : Ty),
    before.declarations[index]? = some (.variableOf name type) →
      after.declarations[index]? = some (.variableOf name type)
  shadowedKept : ∀ (index shadow : Nat) (name : String) (signature other : Signature),
    before.declarations[index]? = some (.functionOf name signature) → index < shadow →
      before.declarations[shadow]? = some (.functionOf name other) →
        after.declarations[index]? = some (.functionOf name signature)
  uncalledKept : ∀ (index : Nat) (name : String) (signature : Signature),
    before.declarations[index]? = some (.functionOf name signature) → ¬ expr.Calls name →
      after.declarations[index]? = some (.functionOf name signature)
  resultsKept : ∀ (index : Nat) (name : String) (signature : Signature),
    before.declarations[index]? = some (.functionOf name signature) → ¬ expr.CallsAsOperand name →
      ∃ later, after.declarations[index]? = some (.functionOf name later) ∧
        later.result = signature.result

theorem Check.framed_expr (constant : Bool) (e : Expr) (table : Table) :
    table.Framed e ((Check.expr constant e).outcome table).2 := by
  have filled := fills_expr constant e table
  constructor
  · intro index name type held
    apply filled.getElem?_of_untouched held
    intro _ _ _ isFunction
    cases isFunction
  · intro index shadow name signature other held later shadowed
    exact filled.getElem?_of_shadowed held later shadowed
  · intro index name signature held uncalled
    apply filled.getElem?_of_untouched held
    intro _ _ slot isFunction may
    cases isFunction
    cases slot with
    | result => exact uncalled (Expr.CallsAsOperand.calls may)
    | parameter place => exact uncalled may
  · intro index name signature held uncalled
    exact filled.result_eq_of_untouched held uncalled

namespace Check

theorem evolves_expr (constant : Bool) (e : Expr) (table : Table) :
    table.Evolves ((expr constant e).outcome table).2 :=
  (fills_expr constant e table).evolves

theorem evolves_source (constant : Bool) (text : String) (table : Table) :
    table.Evolves ((source constant text).outcome table).2 := by
  unfold source
  split
  · exact evolves_expr constant _ table
  · exact .refl table

/-- The table that a computation leaves, whether it succeeds or not. -/
def tableOf {ε α : Type} : EStateM.Result ε Table α → Table
  | .ok _ table | .error _ table => table

theorem evolves_sourcesFrom (constant : Bool) (index : Nat) (texts : List String) (table : Table) :
    table.Evolves (tableOf ((sourcesFrom constant index texts).run table)) := by
  induction texts generalizing index table with
  | nil => exact .refl table
  | cons text texts ih =>
      have first := evolves_source constant text table
      rw [sourcesFrom, EStateM.run_bind, EStateM.run_adaptExcept]
      unfold outcome at first
      cases checked : (source constant text).run table with
      | error stop between =>
          rw [checked] at first
          exact first
      | ok type between =>
          rw [checked] at first
          have others := ih (index + 1) between
          simp only [EStateM.run_bind]
          cases later : (sourcesFrom constant (index + 1) texts).run between with
          | error stop after =>
              rw [later] at others
              exact first.trans others
          | ok types after =>
              rw [later] at others
              exact first.trans others

theorem evolves_eachSource (constant : Bool) (texts : List String) (table : Table) :
    ∀ step ∈ eachSource constant texts table, table.Evolves step.2 := by
  induction texts generalizing table with
  | nil => intro step member; cases member
  | cons text texts ih =>
      intro step member
      have first := evolves_source constant text table
      rcases List.mem_cons.1 member with rfl | later
      · exact first
      · exact first.trans (ih _ step later)

end Check

namespace Session

inductive Operation where
  | checkExpr (constant : Bool) (expr : Expr)
  | checkSource (constant : Bool) (text : String)
  -- up to the first that is wrong
  | checkSources (constant : Bool) (texts : List String)
  -- also after one that is wrong
  | checkEachSource (constant : Bool) (texts : List String)
  | push (declaration : Declaration)
  | appendSource (text : String)
  | bind (name : String) (slot : Slot) (type : Ty)

def Operation.apply (table : Table) : Operation → Table
  | checkExpr constant expr => ((Check.expr constant expr).outcome table).2
  | checkSource constant text => ((Check.source constant text).outcome table).2
  | checkSources constant texts => Check.tableOf ((Check.sources constant texts).run table)
  | checkEachSource constant texts =>
    ((Check.eachSource constant texts table).getLast?.map Prod.snd).getD table
  | push declaration => table.push declaration
  | appendSource text =>
    match Table.ofSource text with
    | .ok more => table.append more
    | .error _ => table
  | bind name slot type =>
    match table.bind name slot type with
    | .ok after => after
    | .error _ => table

theorem Operation.evolves_apply (table : Table) (operation : Operation) :
    table.Evolves (operation.apply table) := by
  cases operation with
  | checkExpr constant expr => exact Check.evolves_expr constant expr table
  | checkSource constant text => exact Check.evolves_source constant text table
  | checkSources constant texts => exact Check.evolves_sourcesFrom constant 0 texts table
  | checkEachSource constant texts =>
      simp only [apply]
      cases last : (Check.eachSource constant texts table).getLast? with
      | none => exact .refl table
      | some step =>
          exact Check.evolves_eachSource constant texts table step (List.mem_of_getLast? last)
  | push declaration => exact table.evolves_append [declaration]
  | appendSource text =>
      simp only [apply]
      split
      · exact table.evolves_append _
      · exact .refl table
  | bind name slot type =>
      simp only [apply]
      split
      · rename_i after bound
        have fill : Table.Fill (fun _ _ => True) table after := ⟨name, slot, type, trivial, bound⟩
        exact fill.evolves
      · exact .refl table

/-- The table after the first `count` operations. -/
def tableAt (start : Table) (operations : List Operation) (count : Nat) : Table :=
  (operations.take count).foldl Operation.apply start

/-- The operation number `count`, from 0, puts another type into a slot. -/
def ChangesAt (start : Table) (operations : List Operation) (index : Nat) (slot : Slot)
    (count : Nat) : Prop :=
  ∃ before after, (tableAt start operations count).slotAt? index slot = some before ∧
    (tableAt start operations (count + 1)).slotAt? index slot = some after ∧ after ≠ before

theorem evolves_succ (start : Table) (operations : List Operation) (count : Nat) :
    (tableAt start operations count).Evolves (tableAt start operations (count + 1)) := by
  unfold tableAt
  by_cases inside : count < operations.length
  · rw [List.take_succ_eq_append_getElem inside, List.foldl_append]
    exact Operation.evolves_apply _ _
  · rw [List.take_of_length_le (by omega), List.take_of_length_le (by omega)]
    exact .refl _

theorem evolves_of_le (start : Table) (operations : List Operation) {early late : Nat}
    (order : early ≤ late) :
    (tableAt start operations early).Evolves (tableAt start operations late) := by
  induction order with
  | refl => exact .refl _
  | step _ ih => exact ih.trans (evolves_succ start operations _)

/-- A slot that was changed is not changed later. -/
theorem not_changesAt_later {start : Table} {operations : List Operation} {index : Nat}
    {slot : Slot} {early late : Nat} (changed : ChangesAt start operations index slot early)
    (order : early < late) : ¬ ChangesAt start operations index slot late := by
  rintro ⟨old, new, heldOld, heldNew, different⟩
  obtain ⟨before, after, heldBefore, heldAfter, changes⟩ := changed
  -- the first change leaves a known type behind
  obtain ⟨_, found, settles⟩ := (evolves_succ start operations early).slotAt? heldBefore
  rw [heldAfter] at found
  cases found
  have known : after.isResolved := by
    rcases settles with same | ⟨-, known⟩
    · exact absurd same changes
    · exact known
  -- which is still there before and after the later operation
  obtain ⟨_, found, settles⟩ := (evolves_of_le start operations order).slotAt? heldAfter
  rw [heldOld] at found
  cases found
  have kept := settles.eq_of_isResolved known
  obtain ⟨_, found, settles⟩ := (evolves_succ start operations late).slotAt? heldOld
  rw [heldNew] at found
  cases found
  exact different (settles.eq_of_isResolved (kept ▸ known))

/-- Every operation keeps every declaration at its place and changes a type only from unknown to
known; so a slot changes at most once. -/
theorem slots_settle_once (start : Table) (operations : List Operation) :
    (∀ count, (tableAt start operations count).Evolves (tableAt start operations (count + 1))) ∧
    (∀ index slot first second, ChangesAt start operations index slot first →
      ChangesAt start operations index slot second → first = second) ∧
    (∀ (constant : Bool) (expr : Expr) (table : Table),
      table.Framed expr ((Check.expr constant expr).outcome table).2) := by
  refine ⟨evolves_succ start operations, ?_, Check.framed_expr⟩
  intro index slot first second changesFirst changesSecond
  rcases Nat.lt_trichotomy first second with before | same | after
  · exact absurd changesSecond (not_changesAt_later changesFirst before)
  · exact same
  · exact absurd changesFirst (not_changesAt_later changesSecond after)

/-- `roll("six") and null` is found wrong after it has filled the parameter of `roll`, which changes
neither by a call with `true` nor by hand. -/
theorem slots_settle_once_wrong :
    let site : Site := ⟨⟨0⟩, .point 0⟩
    let table (type : Ty) : Table := ⟨[.functionOf "roll" ⟨[⟨none, type⟩], .unresolved⟩]⟩
    let wrong : Expr :=
      .binary site .and (.call site "roll" [.literal site (.string "six")]) (.literal site .null)
    let operations : List Operation := [.checkExpr false wrong,
      .checkExpr false (.call site "roll" [.literal site (.bool true)]),
      .bind "roll" (.parameter 0) .number]
    tableAt (table .unresolved) operations 3 = table .string ∧
      ChangesAt (table .unresolved) operations 0 (.parameter 0) 0 ∧
      ∀ count, ChangesAt (table .unresolved) operations 0 (.parameter 0) count → 0 = count := by
  intro site table wrong operations
  have changes : ChangesAt (table .unresolved) operations 0 (.parameter 0) 0 :=
    ⟨.unresolved, .string, rfl, rfl, by decide⟩
  obtain ⟨-, once, -⟩ := slots_settle_once (table .unresolved) operations
  exact ⟨rfl, changes, fun count again => once 0 (.parameter 0) 0 count changes again⟩

end Session

end DialogueTyping
