import DialogueTyping.Proofs.Typing.Filling
import DialogueTyping.Proofs.Typing.HasType

set_option autoImplicit false

/-
What the checker accepts has a type by the rules, in the table at the end of the whole pass: later
expressions, also wrong ones, fill slots, and no type that was found before changes by that. The one
thing that may not hold at the end is the type of an argument that was not known when the argument
was handed over.
-/

namespace DialogueTyping

/-- `after` is `before` with some open slots filled. -/
def Table.LeadsTo (before after : Table) : Prop := before.Filled (fun _ _ => True) after

namespace Table

theorem LeadsTo.trans {first second third : Table} (early : first.LeadsTo second)
    (late : second.LeadsTo third) : first.LeadsTo third :=
  Filled.trans early late

theorem leadsTo_of_bind {table after : Table} {name : String} {slot : Slot} {type : Ty}
    (bound : table.bind name slot type = .ok after) : table.LeadsTo after :=
  Relation.ReflTransGen.single ⟨name, slot, type, trivial, bound⟩

theorem LeadsTo.slot? {before after : Table} (leads : before.LeadsTo after) {name : String}
    {held later : Signature} {slot : Slot} {type : Ty} (found : before.findFunction? name = some held)
    (placed : held.slot? slot = some type) (known : type.isResolved)
    (foundLater : after.findFunction? name = some later) : later.slot? slot = some type := by
  obtain ⟨_, foundAgain, evolves⟩ := Filled.findFunction? leads found
  rw [foundLater] at foundAgain
  cases foundAgain
  obtain ⟨last, placedLast, settles⟩ := evolves.slots slot type placed
  rw [placedLast, settles.eq_of_isResolved known]

theorem slot?_of_bind {table bound after : Table} {name : String} {slot : Slot} {type : Ty}
    {later : Signature} (binding : table.bind name slot type = .ok bound)
    (leads : bound.LeadsTo after) (foundLater : after.findFunction? name = some later) :
    later.slot? slot = some type := by
  obtain ⟨held, found, unbound, known, -⟩ := bind_eq_ok_iff.1 binding
  have filled : bound.findFunction? name = some (held.setSlot type slot) := by
    rw [findFunction?_of_bind binding, if_pos rfl, found]
    rfl
  exact leads.slot? filled (Signature.slot?_setSlot_same type unbound) known foundLater

end Table

namespace Check

theorem leadsTo_expr {constant : Bool} {e : Expr} {table after : Table} {type : Ty}
    (accepted : (expr constant e).outcome table = (.ok type, after)) : table.LeadsTo after := by
  have filled := fills_expr constant e table
  rw [accepted] at filled
  exact filled.mono fun _ _ _ => trivial

theorem leadsTo_passAll {constant : Bool} {function : String} {index : Nat} {arguments : List Expr}
    {table after : Table}
    (passed : (passAll constant function index arguments).outcome table = (.ok (), after)) :
    table.LeadsTo after := by
  have fills : Fills (fun _ _ => True) (passAll constant function index arguments) :=
    fills_passAll (fun argument _ => (fills_expr constant argument).mono fun _ _ _ => trivial)
      (fun _ => trivial) index
  have filled := fills table
  rw [passed] at filled
  exact filled

/-- `e` has a type by the rules in every table that `after` leads to, and it is `type` if that is
a known type. -/
def Derivable (exempt : Expr → Prop) (constant : Bool) (after : Table) (e : Expr) (type : Ty) :
    Prop :=
  ∀ final, after.LeadsTo final →
    ∃ derived, HasType exempt final constant e derived ∧ (type.isResolved → derived = type)

theorem Derivable.later {exempt : Expr → Prop} {constant : Bool} {before after : Table} {e : Expr}
    {type : Ty} (derivable : Derivable exempt constant before e type)
    (leads : before.LeadsTo after) : Derivable exempt constant after e type :=
  fun final reaches => derivable final (leads.trans reaches)

section Operands

variable {exempt : Expr → Prop} {constant : Bool} {common : Ty}

/-- An operand that was settled has the common type from then on. -/
theorem hasType_of_settle {operand : Expr × Ty} {table after : Table}
    (settled : (settle common operand).outcome table = (.ok common, after))
    (known : common.isResolved) (derivable : Derivable exempt constant table operand.1 operand.2) :
    table.LeadsTo after ∧
      ∀ final, after.LeadsTo final → HasType exempt final constant operand.1 common := by
  rcases settle_eq_ok settled with ⟨rfl, same⟩ | ⟨-, name, arguments, called, binding⟩
  · refine ⟨.refl after, ?_⟩
    intro final leads
    obtain ⟨derived, typed, agrees⟩ := derivable final leads
    rw [same, ← agrees (same ▸ known)]
    exact typed
  · have bound := Table.leadsTo_of_bind binding
    refine ⟨bound, ?_⟩
    intro final leads
    obtain ⟨derived, typed, -⟩ := derivable final (bound.trans leads)
    obtain ⟨signature, declared, isResult⟩ := typed.eq_result called
    have found := Table.findFunction?_eq_some_iff.2 declared
    have filled := Table.slot?_of_bind binding leads found
    cases filled
    rw [isResult] at typed
    exact typed

theorem hasType_of_settleAll {operands : List (Expr × Ty)} {types : List Ty} {table after : Table}
    (settled : (operands.mapM (settle common)).outcome table = (.ok types, after))
    (uniform : ∀ type ∈ types, type = common) (known : common.isResolved)
    (derivable : ∀ operand ∈ operands, Derivable exempt constant table operand.1 operand.2) :
    table.LeadsTo after ∧ ∀ operand ∈ operands, ∀ final, after.LeadsTo final →
      HasType exempt final constant operand.1 common := by
  induction operands generalizing table types with
  | nil =>
      cases settled
      exact ⟨.refl after, fun operand member => nomatch member⟩
  | cons operand operands ih =>
      rw [List.mapM_cons] at settled
      obtain ⟨type, between, first, rest⟩ := outcome_bind_eq_ok_iff.1 settled
      obtain ⟨others, last, later, done⟩ := outcome_bind_eq_ok_iff.1 rest
      cases done
      obtain ⟨rfl, uniformLater⟩ := List.forall_mem_cons.1 uniform
      obtain ⟨derivableHead, derivableTail⟩ := List.forall_mem_cons.1 derivable
      obtain ⟨leads, typed⟩ := hasType_of_settle first known derivableHead
      obtain ⟨leadsLater, typedLater⟩ := ih later uniformLater
        fun other member => (derivableTail other member).later leads
      refine ⟨leads.trans leadsLater, List.forall_mem_cons.2 ⟨?_, typedLater⟩⟩
      intro final reaches
      exact typed final (leadsLater.trans reaches)

/-- The operands of an operator that was accepted have one type, which the operator takes. -/
theorem hasType_of_unify {site : Site} {operator : Operator} {operands : List (Expr × Ty)}
    {table after : Table} {type : Ty}
    (unified : (unify site operator operands).outcome table = (.ok type, after))
    (derivable : ∀ operand ∈ operands, Derivable exempt constant table operand.1 operand.2) :
    ∃ common, common ∈ operator.permitted ∧ type = operator.result common ∧
      ∀ operand ∈ operands, ∀ final, after.LeadsTo final →
        HasType exempt final constant operand.1 common := by
  obtain ⟨common, types, settled, uniform, permitted, isResult⟩ := unify_eq_ok unified
  have known := operator.isResolved_of_permitted permitted
  exact ⟨common, permitted, isResult, (hasType_of_settleAll settled uniform known derivable).2⟩

end Operands

/-- `e` has a type by the rules from now on, and only a variable or call of unknown type is accepted
without one. Arguments that are open in the table at the start are excused. -/
def Sound (constant : Bool) (e : Expr) : Prop :=
  ∀ {table after : Table} {type : Ty} {exempt : Expr → Prop},
    (expr constant e).outcome table = (.ok type, after) →
    (∀ argument : Expr, argument.OpenIn table → exempt argument) →
      Derivable exempt constant after e type ∧ (type = .unresolved → e.OpenIn after)

theorem fits_passAll {constant : Bool} {function : String} {arguments : List Expr}
    (sound : ∀ argument ∈ arguments, Sound constant argument) {index : Nat} {table after : Table}
    {exempt : Expr → Prop}
    (passed : (passAll constant function index arguments).outcome table = (.ok (), after))
    (excused : ∀ argument : Expr, argument.OpenIn table → exempt argument) {final : Table}
    (leads : after.LeadsTo final) {signature : Signature}
    (found : final.findFunction? function = some signature)
    (count : signature.parameters.length = index + arguments.length) :
    Fits exempt final constant arguments (signature.parameters.drop index) := by
  induction arguments generalizing index table with
  | nil =>
      cases passed
      rw [List.drop_of_length_le (by simp only [List.length_nil] at count; omega)]
      exact .nil
  | cons argument others ih =>
      rw [passAll] at passed
      obtain ⟨supplied, between, checked, rest⟩ := outcome_bind_eq_ok_iff.1 passed
      obtain ⟨⟨⟩, handed, handing, later⟩ := outcome_bind_eq_ok_iff.1 rest
      obtain ⟨soundHead, soundTail⟩ := List.forall_mem_cons.1 sound
      have leadsChecked := leadsTo_expr checked
      obtain ⟨derivable, unknown⟩ := soundHead checked excused
      obtain ⟨held, expected, foundHeld, placed, taken⟩ := pass_eq_ok_iff.1 handing
      have leadsHanded : between.LeadsTo handed := by
        rcases taken with ⟨-, -, binding⟩ | ⟨-, -, rfl⟩ | ⟨-, -, rfl⟩
        · exact Table.leadsTo_of_bind binding
        · exact .refl handed
        · exact .refl handed
      have excusedLater : ∀ other : Expr, other.OpenIn handed → exempt other := fun other stillOpen =>
        excused other (.of_filled (leadsChecked.trans leadsHanded) stillOpen)
      have leadsLater := leadsTo_passAll later
      have fits := ih soundTail later excusedLater (by simp only [List.length_cons] at count; omega)
      have leadsAll := leadsHanded.trans (leadsLater.trans leads)
      obtain ⟨derived, typed, agrees⟩ := derivable final leadsAll
      have inside : index < signature.parameters.length := by
        simp only [List.length_cons] at count
        omega
      rw [List.drop_eq_getElem_cons inside]
      refine .cons typed ?_ fits
      -- a known type has gone into the parameter or was found there; an unknown one is excused
      rcases taken with ⟨-, known, binding⟩ | ⟨-, unresolved, rfl⟩ | ⟨known, same, rfl⟩
      · left
        have filled := Table.slot?_of_bind binding (leadsLater.trans leads) found
        simp only [Signature.slot?, List.getElem?_eq_getElem inside, Option.map_some,
          Option.some.injEq] at filled
        rw [agrees known, filled]
      · right
        exact excused argument (.of_filled leadsChecked (unknown unresolved))
      · left
        have filled := Table.LeadsTo.slot? leadsAll foundHeld placed known found
        simp only [Signature.slot?, List.getElem?_eq_getElem inside, Option.map_some,
          Option.some.injEq] at filled
        rw [agrees (same ▸ known), filled, same]

/-- The rule for an operator turns types of the operands into a type of the whole. -/
private theorem derivable_of_unify {exempt : Expr → Prop} {constant : Bool} {site : Site}
    {operator : Operator} {operands : List (Expr × Ty)} {table after : Table} {type : Ty}
    {node : Expr} (unified : (unify site operator operands).outcome table = (.ok type, after))
    (derivable : ∀ operand ∈ operands, Derivable exempt constant table operand.1 operand.2)
    (rule : ∀ final common, common ∈ operator.permitted →
      (∀ operand ∈ operands, HasType exempt final constant operand.1 common) →
        HasType exempt final constant node (operator.result common)) :
    Derivable exempt constant after node type ∧ (type = .unresolved → node.OpenIn after) := by
  obtain ⟨common, permitted, rfl, typed⟩ := hasType_of_unify unified derivable
  refine ⟨?_, fun unknown =>
    absurd unknown (Ty.isResolved_iff.1 (operator.isResolved_result permitted))⟩
  intro final leads
  exact ⟨_, rule final common permitted fun operand member => typed operand member final leads,
    fun _ => rfl⟩

/-- Two operands are checked one after the other; what was found about the first still holds after
the second. -/
private theorem derivable_pair {exempt : Expr → Prop} {constant : Bool} {first second : Expr}
    {table between after : Table} {firstType secondType : Ty} (soundFirst : Sound constant first)
    (soundSecond : Sound constant second)
    (excused : ∀ argument : Expr, argument.OpenIn table → exempt argument)
    (checkedFirst : (expr constant first).outcome table = (.ok firstType, between))
    (checkedSecond : (expr constant second).outcome between = (.ok secondType, after)) :
    ∀ operand ∈ [(first, firstType), (second, secondType)],
      Derivable exempt constant after operand.1 operand.2 := by
  have leadsFirst := leadsTo_expr checkedFirst
  have derivableFirst := (soundFirst checkedFirst excused).1.later (leadsTo_expr checkedSecond)
  have derivableSecond := (soundSecond checkedSecond fun argument stillOpen =>
    excused argument (.of_filled leadsFirst stillOpen)).1
  simp only [List.forall_mem_cons]
  exact ⟨derivableFirst, derivableSecond, fun _ member => nomatch member⟩

theorem sound_expr (constant : Bool) (e : Expr) : Sound constant e := by
  induction e using Expr.ind with
  | literal site value =>
      intro table after type exempt accepted _
      obtain ⟨rfl, typed⟩ := literal_eq_ok_iff.1 (by rwa [expr] at accepted)
      cases value with
      | null => cases typed
      | number value =>
          subst typed
          exact ⟨fun _ _ => ⟨_, .number site value, fun _ => rfl⟩, Ty.noConfusion⟩
      | string value =>
          subst typed
          exact ⟨fun _ _ => ⟨_, .string site value, fun _ => rfl⟩, Ty.noConfusion⟩
      | bool value =>
          subst typed
          exact ⟨fun _ _ => ⟨_, .bool site value, fun _ => rfl⟩, Ty.noConfusion⟩
  | reference site name =>
      intro table after type exempt accepted _
      rw [expr] at accepted
      obtain ⟨rfl, variablesAllowed, found⟩ := reference_eq_ok_iff.1 accepted
      constructor
      · intro final leads
        refine ⟨type, .reference variablesAllowed ?_, fun _ => rfl⟩
        rw [← Table.findVariable?_eq_some_iff, Table.Filled.findVariable? leads, found]
      · rintro rfl
        exact Table.findVariable?_eq_some_iff.1 found
  | call site name arguments ih =>
      intro table after type exempt accepted excused
      rw [expr] at accepted
      obtain ⟨⟨⟩, between, counted, rest⟩ := outcome_bind_eq_ok_iff.1 accepted
      obtain ⟨rfl, declared, foundDeclared, count⟩ := arity_eq_ok_iff.1 counted
      obtain ⟨⟨⟩, _, passed, slotted⟩ := outcome_bind_eq_ok_iff.1 rest
      obtain ⟨rfl, held, found, placed⟩ := slot_eq_ok_iff.1 slotted
      cases placed
      constructor
      · intro final leads
        obtain ⟨signature, foundFinal, evolves⟩ := Table.Filled.findFunction? leads found
        refine ⟨signature.result, .call (Table.findFunction?_eq_some_iff.1 foundFinal) ?_,
          evolves.result.eq_of_isResolved⟩
        have length : signature.parameters.length = 0 + arguments.length := by
          obtain ⟨_, foundHeld, evolvesHeld⟩ :=
            Table.Filled.findFunction? (leadsTo_passAll passed) foundDeclared
          rw [found] at foundHeld
          cases foundHeld
          rw [evolves.length_parameters, evolvesHeld.length_parameters]
          omega
        exact fits_passAll ih passed excused leads foundFinal length
      · intro unknown
        exact ⟨held, Table.findFunction?_eq_some_iff.1 found, unknown⟩
  | unary site operator operand ih =>
      intro table after type exempt accepted excused
      rw [expr] at accepted
      obtain ⟨operandType, between, checked, unified⟩ := outcome_bind_eq_ok_iff.1 accepted
      apply derivable_of_unify unified
      · simp only [List.forall_mem_singleton]
        exact (ih checked excused).1
      · intro final common permitted typed
        exact .unary (typed _ (List.mem_singleton_self _)) permitted
  | binary site operator left right ihLeft ihRight =>
      intro table after type exempt accepted excused
      rw [expr] at accepted
      obtain ⟨leftType, middle, checkedLeft, rest⟩ := outcome_bind_eq_ok_iff.1 accepted
      obtain ⟨rightType, between, checkedRight, unified⟩ := outcome_bind_eq_ok_iff.1 rest
      apply derivable_of_unify unified
        (derivable_pair ihLeft ihRight excused checkedLeft checkedRight)
      intro final common permitted typed
      simp only [List.forall_mem_cons] at typed
      exact .binary typed.1 typed.2.1 permitted
  | assignment site operator target value ihTarget ihValue =>
      intro table after type exempt accepted excused
      rw [expr] at accepted
      obtain ⟨targetType, middle, checkedTarget, rest⟩ := outcome_bind_eq_ok_iff.1 accepted
      obtain ⟨valueType, between, checkedValue, unified⟩ := outcome_bind_eq_ok_iff.1 rest
      apply derivable_of_unify unified
        (derivable_pair ihTarget ihValue excused checkedTarget checkedValue)
      intro final common permitted typed
      simp only [List.forall_mem_cons] at typed
      exact .assignment typed.1 typed.2.1 permitted
  | paren site inner ih =>
      intro table after type exempt accepted excused
      rw [expr] at accepted
      obtain ⟨derivable, unknown⟩ := ih accepted excused
      refine ⟨?_, unknown⟩
      intro final leads
      obtain ⟨derived, typed, agrees⟩ := derivable final leads
      exact ⟨derived, .paren typed, agrees⟩
  | atom site inner ih =>
      intro table after type exempt accepted excused
      rw [expr] at accepted
      obtain ⟨derivable, unknown⟩ := ih accepted excused
      refine ⟨?_, unknown⟩
      intro final leads
      obtain ⟨derived, typed, agrees⟩ := derivable final leads
      exact ⟨derived, .atom typed, agrees⟩
  | conversion site target body ih =>
      intro table after type exempt accepted excused
      rw [expr] at accepted
      obtain ⟨bodyType, between, checked, converted⟩ := outcome_bind_eq_ok_iff.1 accepted
      obtain ⟨rfl, named⟩ := conversion_eq_ok_iff.1 converted
      obtain ⟨known, rfl⟩ := Ty.ofName?_eq_some_iff.1 named
      refine ⟨?_, fun unknown => absurd unknown (Ty.isResolved_iff.1 known)⟩
      intro final leads
      obtain ⟨derived, typed, -⟩ := (ih checked excused).1 final leads
      exact ⟨type, .conversion typed known, fun _ => rfl⟩
  | condition site clause body ih =>
      intro table after type exempt accepted excused
      rw [expr] at accepted
      obtain ⟨bodyType, between, checked, unified⟩ := outcome_bind_eq_ok_iff.1 accepted
      apply derivable_of_unify unified
      · simp only [List.forall_mem_singleton]
        exact (ih checked excused).1
      · intro final common permitted typed
        exact .condition (typed _ (List.mem_singleton_self _)) permitted

/-- Whatever a pass accepts has a type by the rules in the table at its end, and it is the type that
was found if that was known. Only arguments that were open when they were handed over are
excused. -/
theorem accepted_hasType_at_end (table : Table) (checks : List (Bool × Expr)) (index : Nat)
    (constant : Bool) (e : Expr) (present : checks[index]? = some (constant, e)) (type : Ty)
    (accepted : ((expr constant e).outcome (tableAfter (checks.take index) table)).1 = .ok type) :
    ∃ derived,
      HasType (·.OpenIn (tableAfter (checks.take index) table)) (tableAfter checks table) constant e
        derived ∧
      (derived = type ∨
        type = .unresolved ∧ e.OpenIn (tableAfter (checks.take index) table)) := by
  have success : (expr constant e).outcome (tableAfter (checks.take index) table) =
      (.ok type, tableAfter (checks.take index ++ [(constant, e)]) table) := by
    rw [← accepted, tableAfter_append]
    rfl
  have rest : tableAfter checks table = tableAfter (checks.drop (index + 1))
      (tableAfter (checks.take index ++ [(constant, e)]) table) := by
    obtain ⟨inside, isCheck⟩ := List.getElem?_eq_some_iff.1 present
    rw [← tableAfter_append, ← isCheck, ← List.take_succ_eq_append_getElem inside,
      List.take_append_drop]
  obtain ⟨derivable, unknown⟩ := sound_expr constant e success fun _ stillOpen => stillOpen
  obtain ⟨derived, typed, agrees⟩ := derivable _ (filled_tableAfter _ _)
  rw [← rest] at typed
  refine ⟨derived, typed, ?_⟩
  by_cases known : type.isResolved
  · exact Or.inl (agrees known)
  · have unresolved := Ty.isResolved_eq_false_iff.1 (Bool.eq_false_iff.2 known)
    exact Or.inr ⟨unresolved, .of_filled (leadsTo_expr success) (unknown unresolved)⟩

/-- The second expression settles the type of an argument of the first, and the third its parameter,
as another type. At the end the first has a type only because its argument is excused. -/
theorem accepted_hasType_at_end_open_argument :
    let site : Site := ⟨⟨0⟩, .point 0⟩
    let table : Table := ⟨[.functionOf "roll" ⟨[⟨none, .unresolved⟩], .unresolved⟩,
      .functionOf "luck" ⟨[], .unresolved⟩]⟩
    let nested : Expr := .call site "roll" [.call site "luck" []]
    let sum : Expr := .binary site .add (.call site "luck" []) (.literal site (.number .zero))
    let wrong : Expr :=
      .binary site .and (.call site "roll" [.literal site (.string "six")]) (.literal site .null)
    let checks := [(false, nested), (true, sum), (false, wrong)]
    tableAfter checks table = ⟨[.functionOf "roll" ⟨[⟨none, .string⟩], .unresolved⟩,
      .functionOf "luck" ⟨[], .number⟩]⟩ ∧
    ((expr false nested).outcome (tableAfter (checks.take 0) table)).1 = .ok .unresolved ∧
    ∃ derived, HasType (·.OpenIn (tableAfter (checks.take 0) table)) (tableAfter checks table) false
        nested derived ∧
      (derived = .unresolved ∨ Ty.unresolved = .unresolved ∧
        nested.OpenIn (tableAfter (checks.take 0) table)) := by
  intro site table nested sum wrong checks
  exact ⟨rfl, rfl, accepted_hasType_at_end table checks 0 false nested rfl .unresolved rfl⟩

end Check

end DialogueTyping
