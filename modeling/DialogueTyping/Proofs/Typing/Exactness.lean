import DialogueTyping.Proofs.Typing.Soundness

set_option autoImplicit false

namespace DialogueTyping

/-- `expr` has the type `type` in `table`, and every argument in it the type of its parameter. -/
abbrev HasStrictType (table : Table) (constant : Bool) : Expr → Ty → Prop :=
  HasType (fun _ => False) table constant

theorem Fits.length_eq {exempt : Expr → Prop} {table : Table} {constant : Bool}
    {arguments : List Expr} {parameters : List Parameter}
    (fits : Fits exempt table constant arguments parameters) :
    arguments.length = parameters.length := by
  induction arguments generalizing parameters with
  | nil =>
      cases fits
      rfl
  | cons argument others ih =>
      cases fits with
      | cons _ _ rest => simp only [List.length_cons, ih rest]

namespace Check

section Parts

variable {table : Table} {constant : Bool}

theorem slot_of_found {name : String} {signature : Signature} {type : Ty} (place : Slot)
    (found : table.findFunction? name = some signature)
    (placed : signature.slot? place = some type) :
    (slot name place).outcome table = (.ok type, table) :=
  slot_eq_ok_iff.2 ⟨rfl, signature, found, placed⟩

/-- An argument of the type of its parameter is taken, also when that type is not known. -/
theorem pass_of_eq {function : String} {signature : Signature} {index : Nat} {type : Ty}
    (argument : Site) (found : table.findFunction? function = some signature)
    (placed : signature.slot? (.parameter index) = some type) :
    (pass function index argument type).outcome table = (.ok (), table) := by
  apply pass_eq_ok_iff.2
  refine ⟨signature, type, found, placed, ?_⟩
  by_cases known : type.isResolved
  · exact Or.inr (Or.inr ⟨known, rfl, rfl⟩)
  · have unknown := Ty.isResolved_eq_false_iff.1 (Bool.eq_false_iff.2 known)
    exact Or.inr (Or.inl ⟨unknown, unknown, rfl⟩)

theorem passAll_of_fits {function : String} {signature : Signature} {arguments : List Expr}
    (found : table.findFunction? function = some signature)
    (accepts : ∀ argument ∈ arguments, ∀ type, HasStrictType table constant argument type →
      (expr constant argument).outcome table = (.ok type, table))
    {index : Nat}
    (fits : Fits (fun _ => False) table constant arguments (signature.parameters.drop index)) :
    (passAll constant function index arguments).outcome table = (.ok (), table) := by
  induction arguments generalizing index with
  | nil => rfl
  | cons argument others ih =>
      obtain ⟨acceptsHead, acceptsTail⟩ := List.forall_mem_cons.1 accepts
      have inside : index < signature.parameters.length := by
        have count := fits.length_eq
        simp only [List.length_cons, List.length_drop] at count
        omega
      rw [List.drop_eq_getElem_cons inside] at fits
      cases fits with
      | cons typed same rest =>
          have agrees := same.resolve_right id
          have placed : signature.slot? (.parameter index) =
              some (signature.parameters[index]).type := by
            simp only [Signature.slot?, List.getElem?_eq_getElem inside, Option.map_some]
          rw [passAll, outcome_bind, acceptsHead _ typed]
          simp only [outcome_bind]
          rw [agrees, pass_of_eq argument.site found placed]
          exact ih acceptsTail rest

/-- A call among the operands has its type already, so nothing is filled. -/
theorem settle_of_hasType {operand : Expr} {common : Ty} (known : common.isResolved)
    (typed : HasStrictType table constant operand common) :
    (settle common (operand, common)).outcome table = (.ok common, table) := by
  unfold settle
  split
  · rfl
  · rename_i name arguments called
    obtain ⟨signature, declared, isResult⟩ := typed.eq_result called
    have found := Table.findFunction?_eq_some_iff.2 declared
    rw [outcome_bind, slot_of_found .result found rfl]
    simp only [← isResult, known, ↓reduceIte, outcome_pure]

theorem settleAll_of_hasType {operands : List Expr} {common : Ty} (known : common.isResolved)
    (typed : ∀ operand ∈ operands, HasStrictType table constant operand common) :
    ((operands.map (·, common)).mapM (settle common)).outcome table =
      (.ok (operands.map fun _ => common), table) := by
  induction operands with
  | nil => rfl
  | cons operand operands ih =>
      obtain ⟨typedHead, typedTail⟩ := List.forall_mem_cons.1 typed
      simp only [List.map_cons, List.mapM_cons]
      rw [outcome_bind, settle_of_hasType known typedHead]
      simp only [outcome_bind]
      rw [ih typedTail]
      rfl

/-- Operands of one type that the operator takes need nothing to be filled. -/
theorem unify_of_hasType {operands : List Expr} {common : Ty} (site : Site) (operator : Operator)
    (nonempty : operands ≠ [])
    (typed : ∀ operand ∈ operands, HasStrictType table constant operand common)
    (permitted : common ∈ operator.permitted) :
    (unify site operator (operands.map (·, common))).outcome table =
      (.ok (operator.result common), table) := by
  have known := operator.isResolved_of_permitted permitted
  have decided : ((operands.map (·, common)).map Prod.snd).find? Ty.isResolved = some common := by
    cases operands with
    | nil => exact absurd rfl nonempty
    | cons operand operands => simp only [List.map_cons, List.find?_cons, known]
  unfold unify
  rw [decided]
  simp only [outcome_bind]
  rw [settleAll_of_hasType known typed]
  have uniform : (operands.map fun _ => common).any (· ≠ common) = false := by simp
  have contained : operator.permitted.contains common = true := by simpa using permitted
  simp only [uniform, contained, Bool.not_true, Bool.false_eq_true, ↓reduceIte, outcome_pure]

end Parts

/-- What has a type by the rules is accepted with that type, and the table stays as it was. -/
theorem outcome_of_hasType {table : Table} {constant : Bool} {e : Expr} {type : Ty}
    (typed : HasStrictType table constant e type) :
    (expr constant e).outcome table = (.ok type, table) := by
  induction e using Expr.ind generalizing type with
  | literal site value =>
      rw [expr]
      cases typed with
      | number => rfl
      | string => rfl
      | bool => rfl
  | reference site name =>
      rw [expr]
      cases typed with
      | reference variablesAllowed declared =>
          apply reference_eq_ok_iff.2
          exact ⟨rfl, variablesAllowed, Table.findVariable?_eq_some_iff.2 declared⟩
  | call site name arguments ih =>
      cases typed with
      | @call _ _ _ signature declared fits =>
          have found := Table.findFunction?_eq_some_iff.2 declared
          have counted : (arity site name arguments.length).outcome table = (.ok (), table) :=
            arity_eq_ok_iff.2 ⟨rfl, signature, found, fits.length_eq⟩
          have passed : (passAll constant name 0 arguments).outcome table = (.ok (), table) := by
            apply passAll_of_fits found
            · intro argument member argumentType argumentTyped
              exact ih argument member argumentTyped
            · exact fits
          rw [expr, outcome_bind, counted]
          simp only [outcome_bind]
          rw [passed]
          exact slot_of_found .result found rfl
  | unary site operator operand ih =>
      cases typed with
      | unary operandTyped permitted =>
          rw [expr, outcome_bind, ih operandTyped]
          apply unify_of_hasType site (.unary operator) (List.cons_ne_nil operand [])
          · exact List.forall_mem_singleton.2 operandTyped
          · exact permitted
  | binary site operator left right ihLeft ihRight =>
      cases typed with
      | binary leftTyped rightTyped permitted =>
          rw [expr, outcome_bind, ihLeft leftTyped]
          simp only [outcome_bind]
          rw [ihRight rightTyped]
          apply unify_of_hasType site (.binary operator) (List.cons_ne_nil left [right])
          · exact List.forall_mem_cons.2 ⟨leftTyped, List.forall_mem_singleton.2 rightTyped⟩
          · exact permitted
  | assignment site operator target value ihTarget ihValue =>
      cases typed with
      | assignment targetTyped valueTyped permitted =>
          rw [expr, outcome_bind, ihTarget targetTyped]
          simp only [outcome_bind]
          rw [ihValue valueTyped]
          apply unify_of_hasType site (.assignment operator) (List.cons_ne_nil target [value])
          · exact List.forall_mem_cons.2 ⟨targetTyped, List.forall_mem_singleton.2 valueTyped⟩
          · exact permitted
  | paren site inner ih =>
      cases typed with
      | paren innerTyped =>
          rw [expr]
          exact ih innerTyped
  | atom site inner ih =>
      cases typed with
      | atom innerTyped =>
          rw [expr]
          exact ih innerTyped
  | conversion site target body ih =>
      cases typed with
      | conversion bodyTyped known =>
          rw [expr, outcome_bind, ih bodyTyped]
          apply conversion_eq_ok_iff.2
          exact ⟨rfl, Ty.ofName?_eq_some_iff.2 ⟨known, rfl⟩⟩
  | condition site clause body ih =>
      cases typed with
      | condition bodyTyped permitted =>
          rw [expr, outcome_bind, ih bodyTyped]
          apply unify_of_hasType site (.condition clause) (List.cons_ne_nil body [])
          · exact List.forall_mem_singleton.2 bodyTyped
          · exact permitted

end Check

/-- Every slot of every declaration holds a known type. -/
def Table.Closed (table : Table) : Prop :=
  ∀ declaration ∈ table.declarations, ∀ (slot : Slot) (type : Ty),
    declaration.slot? slot = some type → type.isResolved

theorem Declaration.isOpen_eq_false_iff {declaration : Declaration} :
    declaration.isOpen = false ↔
      ∀ (slot : Slot) (type : Ty), declaration.slot? slot = some type → type.isResolved := by
  cases declaration with
  | variableOf name type =>
      constructor
      · intro known slot held placed
        cases slot with
        | result =>
            cases placed
            simpa [isOpen] using known
        | parameter index => cases placed
      · intro each
        simpa [isOpen] using each .result type rfl
  | functionOf name signature =>
      simp only [isOpen, Signature.isOpen, Bool.or_eq_false_iff, Bool.not_eq_eq_eq_not,
        Bool.not_false, List.any_eq_false, Bool.not_true, Bool.not_eq_false]
      constructor
      · rintro ⟨resultKnown, parametersKnown⟩ slot held placed
        cases slot with
        | result =>
            cases placed
            exact resultKnown
        | parameter index =>
            obtain ⟨parameter, present, rfl⟩ := Option.map_eq_some_iff.1 placed
            exact parametersKnown parameter (List.mem_of_getElem? present)
      · intro each
        refine ⟨each .result signature.result rfl, ?_⟩
        intro parameter member
        obtain ⟨index, present⟩ := List.mem_iff_getElem?.1 member
        apply each (.parameter index)
        simp only [slot?, Signature.slot?, present, Option.map_some]

namespace Table

theorem closed_iff_openDeclarations {table : Table} :
    table.Closed ↔ table.openDeclarations = [] := by
  simp only [openDeclarations, List.filter_eq_nil_iff, Bool.not_eq_true,
    Declaration.isOpen_eq_false_iff, Closed]

theorem Closed.eq_of_filled {allowed : String → Slot → Prop} {table after : Table}
    (closed : table.Closed) (filled : table.Filled allowed after) : after = table := by
  induction filled with
  | refl => rfl
  | tail _ fill ih =>
      rw [ih] at fill
      obtain ⟨name, slot, type, -, bound⟩ := fill
      obtain ⟨before, signature, later, split, -, unbound, -⟩ := declarations_of_bind bound
      have declared : .functionOf name signature ∈ table.declarations := by simp [split]
      exact absurd (closed _ declared slot .unresolved unbound) Bool.noConfusion

theorem Closed.not_openIn {table : Table} (closed : table.Closed) (e : Expr) :
    ¬ e.OpenIn table := by
  intro isOpen
  unfold Expr.OpenIn at isOpen
  split at isOpen
  · rename_i name _
    obtain ⟨before, later, split, -⟩ := isOpen
    have declared : .variableOf name .unresolved ∈ table.declarations := by simp [split]
    exact absurd (closed _ declared .result .unresolved rfl) Bool.noConfusion
  · rename_i name _ _
    obtain ⟨signature, ⟨before, later, split, -⟩, unresolved⟩ := isOpen
    have declared : .functionOf name signature ∈ table.declarations := by simp [split]
    have known := closed _ declared .result signature.result rfl
    rw [unresolved] at known
    exact absurd known Bool.noConfusion
  · exact isOpen

end Table

namespace Check

/-- Against a table without open slots, checking changes nothing, and it finds a type exactly when
the rules give that type. -/
theorem accepts_iff_hasType (constant : Bool) (e : Expr) (table : Table) (closed : table.Closed) :
    ((expr constant e).outcome table).2 = table ∧
      ∀ type, ((expr constant e).outcome table).1 = .ok type ↔
        HasStrictType table constant e type := by
  have stays : ((expr constant e).outcome table).2 = table :=
    closed.eq_of_filled (fills_expr constant e table)
  refine ⟨stays, ?_⟩
  intro type
  constructor
  · intro accepted
    have success : (expr constant e).outcome table = (.ok type, table) := Prod.ext accepted stays
    obtain ⟨derivable, unknown⟩ := sound_expr constant e success
      fun argument isOpen => closed.not_openIn argument isOpen
    obtain ⟨derived, typed, agrees⟩ := derivable table (.refl table)
    have known : type.isResolved := by
      apply Ty.isResolved_iff.2
      intro unresolved
      exact closed.not_openIn e (unknown unresolved)
    rw [agrees known] at typed
    exact typed
  · intro typed
    rw [outcome_of_hasType typed]

/-- Two declarations of one variable and two of one function: the first variable and the last
function count. -/
theorem accepts_iff_hasType_shadowed :
    let site : Site := ⟨⟨0⟩, .point 0⟩
    let table : Table := ⟨[.variableOf "$gold" .number, .variableOf "$gold" .string,
      .functionOf "dice" ⟨[], .bool⟩, .functionOf "dice" ⟨[⟨none, .string⟩], .number⟩]⟩
    let gold : Expr := .atom site (.reference site "$gold")
    let right : Expr := .binary site .greater gold
      (.atom site (.call site "dice" [.atom site (.literal site (.string "d6"))]))
    let wrong : Expr := .binary site .add gold
      (.atom site (.call site "dice" [.atom site (.literal site (.number .zero))]))
    table.Closed ∧ HasStrictType table false right .bool ∧
      ((expr false wrong).outcome table).2 = table ∧
      ∀ type, ¬ HasStrictType table false wrong type := by
  intro site table gold right wrong
  have closed : table.Closed := Table.closed_iff_openDeclarations.2 rfl
  refine ⟨closed, ?_, (accepts_iff_hasType false wrong table closed).1, ?_⟩
  · exact ((accepts_iff_hasType false right table closed).2 .bool).1 rfl
  · intro type typed
    have accepted := ((accepts_iff_hasType false wrong table closed).2 type).2 typed
    cases accepted

end Check

end DialogueTyping
