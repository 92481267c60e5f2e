import DialogueTyping.Proofs.Table.Lookup
import DialogueTyping.Script

set_option autoImplicit false

namespace DialogueTyping.Check

variable {α β : Type}

@[simp] theorem outcome_pure (value : α) (table : Table) :
    (pure value : Check α).outcome table = (.ok value, table) := rfl

@[simp] theorem outcome_throw (stop : Stop) (table : Table) :
    (throw stop : Check α).outcome table = (.error stop, table) := rfl

@[simp] theorem outcome_fail (site : Site) (problem : Problem) (table : Table) :
    (fail site problem : Check α).outcome table = (.error (.report (.atSite problem site)), table) :=
  rfl

@[simp] theorem outcome_get (table : Table) : (get : Check Table).outcome table = (.ok table, table) :=
  rfl

@[simp] theorem outcome_set (after table : Table) :
    (set after : Check PUnit).outcome table = (.ok ⟨⟩, after) := rfl

theorem outcome_bind (first : Check α) (next : α → Check β) (table : Table) :
    (first >>= next).outcome table =
      match first.outcome table with
      | (.ok value, between) => (next value).outcome between
      | (.error stop, between) => (.error stop, between) := by
  unfold outcome
  rw [EStateM.run_bind]
  cases first.run table <;> rfl

theorem outcome_bind_eq_ok_iff {first : Check α} {next : α → Check β} {table after : Table}
    {value : β} : (first >>= next).outcome table = (.ok value, after) ↔
      ∃ middle between, first.outcome table = (.ok middle, between) ∧
        (next middle).outcome between = (.ok value, after) := by
  rw [outcome_bind]
  rcases found : first.outcome table with ⟨_ | middle, between⟩
  · simp
  · constructor
    · intro done
      exact ⟨middle, between, rfl, done⟩
    · rintro ⟨_, _, ⟨⟩, done⟩
      exact done

theorem outcome_bind_eq_error_iff {first : Check α} {next : α → Check β} {table after : Table}
    {stop : Stop} : (first >>= next).outcome table = (.error stop, after) ↔
      first.outcome table = (.error stop, after) ∨
        ∃ middle between, first.outcome table = (.ok middle, between) ∧
          (next middle).outcome between = (.error stop, after) := by
  rw [outcome_bind]
  rcases found : first.outcome table with ⟨_ | middle, between⟩
  · simp
  · constructor
    · intro failed
      exact Or.inr ⟨middle, between, rfl, failed⟩
    · rintro (impossible | ⟨_, _, ⟨⟩, failed⟩)
      · cases impossible
      · exact failed

theorem bindSlot_eq_ok_iff {name : String} {place : Slot} {type : Ty} {table after : Table} :
    (bindSlot name place type).outcome table = (.ok (), after) ↔
      table.bind name place type = .ok after := by
  rw [bindSlot, outcome_bind]
  simp only [outcome_get]
  cases table.bind name place type with
  | error fault => simp
  | ok bound => simp

theorem slot_eq_ok_iff {name : String} {place : Slot} {table after : Table} {type : Ty} :
    (slot name place).outcome table = (.ok type, after) ↔
      after = table ∧ ∃ held, table.findFunction? name = some held ∧ held.slot? place = some type := by
  rw [slot, signature, outcome_bind, outcome_bind]
  simp only [outcome_get]
  cases found : table.findFunction? name with
  | none => simp
  | some held =>
      cases placed : held.slot? place with
      | none => simp [placed]
      | some there =>
          simp only [outcome_pure, placed, Prod.mk.injEq, Except.ok.injEq, Option.some.injEq,
            exists_eq_left']
          exact ⟨fun ⟨same, stays⟩ => ⟨stays.symm, same⟩, fun ⟨stays, same⟩ => ⟨same, stays.symm⟩⟩

theorem literal_eq_ok_iff {site : Site} {value : Literal} {table after : Table} {type : Ty} :
    (literal site value).outcome table = (.ok type, after) ↔
      after = table ∧
        match value with
        | .number _ => type = .number
        | .string _ => type = .string
        | .bool _ => type = .bool
        | .null => False := by
  cases value <;> simp [literal, and_comm, eq_comm]

theorem reference_eq_ok_iff {constant : Bool} {site : Site} {name : String} {table after : Table}
    {type : Ty} : (reference constant site name).outcome table = (.ok type, after) ↔
      after = table ∧ constant = false ∧ table.findVariable? name = some type := by
  cases constant with
  | true => simp [reference]
  | false =>
      simp only [reference, Bool.false_eq_true, ↓reduceIte, outcome_bind, outcome_get]
      cases found : table.findVariable? name with
      | none => simp
      | some held => simp [and_comm, eq_comm]

theorem conversion_eq_ok_iff {site : Site} {target : String} {table after : Table} {type : Ty} :
    (conversion site target).outcome table = (.ok type, after) ↔
      after = table ∧ Ty.ofName? target = some type := by
  unfold conversion
  cases named : Ty.ofName? target with
  | none => simp
  | some known => simp [and_comm, eq_comm]

theorem arity_eq_ok_iff {site : Site} {name : String} {actual : Nat} {table after : Table} :
    (arity site name actual).outcome table = (.ok (), after) ↔
      after = table ∧
        ∃ held, table.findFunction? name = some held ∧ actual = held.parameters.length := by
  rw [arity, outcome_bind]
  simp only [outcome_get]
  cases found : table.findFunction? name with
  | none => simp
  | some held =>
      by_cases same : actual = held.parameters.length
      · simp [same, eq_comm]
      · simp [same]

/-- An argument is taken in three ways: its type is put into the open parameter, nothing is known
about either, or the two agree. -/
theorem pass_eq_ok_iff {function : String} {index : Nat} {argument : Site} {supplied : Ty}
    {table after : Table} :
    (pass function index argument supplied).outcome table = (.ok (), after) ↔
      ∃ held expected, table.findFunction? function = some held ∧
        held.slot? (.parameter index) = some expected ∧
        (expected = .unresolved ∧ supplied.isResolved ∧
            table.bind function (.parameter index) supplied = .ok after ∨
          expected = .unresolved ∧ supplied = .unresolved ∧ after = table ∨
          expected.isResolved ∧ expected = supplied ∧ after = table) := by
  rw [pass, outcome_bind_eq_ok_iff]
  constructor
  · rintro ⟨expected, between, slotted, passed⟩
    obtain ⟨rfl, held, found, placed⟩ := slot_eq_ok_iff.1 slotted
    refine ⟨held, expected, found, placed, ?_⟩
    by_cases known : expected.isResolved
    · by_cases same : expected = supplied
      · subst same
        have stays : between = after := by simpa [known] using passed
        exact Or.inr (Or.inr ⟨known, rfl, stays.symm⟩)
      · simp [known, same] at passed
    · have unknown := Ty.isResolved_eq_false_iff.1 (Bool.eq_false_iff.2 known)
      by_cases resolved : supplied.isResolved
      · simp only [known, resolved, Bool.not_false, ↓reduceIte] at passed
        exact Or.inl ⟨unknown, resolved, bindSlot_eq_ok_iff.1 passed⟩
      · have stays : between = after := by simpa [known, resolved] using passed
        exact Or.inr (Or.inl ⟨unknown,
          Ty.isResolved_eq_false_iff.1 (Bool.eq_false_iff.2 resolved), stays.symm⟩)
  · rintro ⟨held, expected, found, placed, taken⟩
    refine ⟨expected, table, slot_eq_ok_iff.2 ⟨rfl, held, found, placed⟩, ?_⟩
    rcases taken with ⟨rfl, resolved, bound⟩ | ⟨rfl, rfl, rfl⟩ | ⟨known, rfl, rfl⟩
    · simp only [Ty.isResolved_eq_false_iff.2 rfl, resolved, Bool.not_false, ↓reduceIte]
      exact bindSlot_eq_ok_iff.2 bound
    · rfl
    · simp [known]

/-- An operand keeps its type, or it is a call that takes the common one. -/
theorem settle_eq_ok {common : Ty} {operand : Expr × Ty} {table after : Table} {type : Ty}
    (settled : (settle common operand).outcome table = (.ok type, after)) :
    after = table ∧ type = operand.2 ∨
      type = common ∧ ∃ name arguments, operand.1.call? = some (name, arguments) ∧
        table.bind name .result common = .ok after := by
  unfold settle at settled
  split at settled
  · cases settled
    exact Or.inl ⟨rfl, rfl⟩
  · rename_i name arguments called
    obtain ⟨held, between, slotted, rest⟩ := outcome_bind_eq_ok_iff.1 settled
    obtain ⟨rfl, -⟩ := slot_eq_ok_iff.1 slotted
    split at rest
    · cases rest
      exact Or.inl ⟨rfl, rfl⟩
    · obtain ⟨_, bound, binding, done⟩ := outcome_bind_eq_ok_iff.1 rest
      cases done
      exact Or.inr ⟨rfl, name, arguments, called, bindSlot_eq_ok_iff.1 binding⟩

/-- The operands agree on a type that the operator takes. -/
theorem unify_eq_ok {site : Site} {operator : Operator} {operands : List (Expr × Ty)}
    {table after : Table} {type : Ty}
    (unified : (unify site operator operands).outcome table = (.ok type, after)) :
    ∃ common types, (operands.mapM (settle common)).outcome table = (.ok types, after) ∧
      (∀ settled ∈ types, settled = common) ∧ common ∈ operator.permitted ∧
      type = operator.result common := by
  unfold unify at unified
  split at unified
  · cases unified
  · rename_i common decided
    obtain ⟨types, between, settled, rest⟩ := outcome_bind_eq_ok_iff.1 unified
    split at rest
    · cases rest
    · rename_i uniform
      split at rest
      · cases rest
      · rename_i permitted
        cases rest
        refine ⟨common, types, settled, ?_, ?_, rfl⟩
        · simpa using uniform
        · simpa using permitted

end DialogueTyping.Check
