import DialogueTyping.Proofs.Typing.Visit

set_option autoImplicit false

/-
A check that stops was stopped by one node: its parts before were accepted, and it is the step of
that node itself that fails. So what a report lists are the types that were found there, and what it
says about the table is so in the table that the check started from or leaves behind.
-/

namespace DialogueTyping

namespace Check

/-- One type is listed for each operand of `node`: the one that was found for it, or, where none was
known, a type that it was given since. -/
def Lists (constant : Bool) (before after : Table) (node : Expr) (types : List Ty) : Prop :=
  List.Forall₂ (fun operand type =>
    ∃ found, Found constant before after operand found ∧ found.Settles type) node.operands types

/-- What a report on `node` says is so. The expression `e`, of which `node` is a part, is checked
from the table `before` on, and `after` is the table that is left. -/
def Justified (constant : Bool) (e : Expr) (before after : Table) (node : Expr) : Problem → Prop
  | .nullNotPermitted => ∃ site, node = .literal site .null
  | .variableInConstant name => constant = true ∧ ∃ site, node = .reference site name
  | .undeclaredVariable name =>
    constant = false ∧ (∃ site, node = .reference site name) ∧
      ∀ type, .variableOf name type ∉ before.declarations
  | .undeclaredFunction name =>
    (∃ site arguments, node = .call site name arguments) ∧
      ∀ signature, .functionOf name signature ∉ before.declarations
  | .arityMismatch name expected actual =>
    ∃ site arguments held, node = .call site name arguments ∧ before.DeclaresFunction name held ∧
      arguments.length = actual ∧ held.parameters.length = expected ∧ actual ≠ expected
  -- the report is about the argument and not about the call
  | .argumentMismatch name index expected supplied =>
    ∃ site arguments held, (Expr.call site name arguments).Within e ∧
      arguments[index]? = some node ∧ Found constant before after node supplied ∧
      after.DeclaresFunction name held ∧ held.slot? (.parameter index) = some expected ∧
      expected.isResolved ∧ expected ≠ supplied
  | .unsupportedConversion target =>
    (∃ site body, node = .conversion site target body) ∧
      ∀ type : Ty, type.isResolved → type.sourceName ≠ target
  | .ambiguousType label =>
    ∃ operator, node.operator? = some operator ∧ operator.label = label ∧
      ∀ operand ∈ node.operands, Found constant before after operand .unresolved
  | .operandMismatch label types =>
    ∃ operator, node.operator? = some operator ∧ operator.label = label ∧
      Lists constant before after node types ∧ ∃ first ∈ types, ∃ second ∈ types, first ≠ second
  | .operatorMismatch label permitted types =>
    ∃ operator common, node.operator? = some operator ∧ operator.label = label ∧
      Lists constant before after node types ∧ (∀ type ∈ types, type = common) ∧
      common.isResolved ∧ permitted = operator.permitted ∧ common ∉ permitted
  -- problems of source texts and declarations
  | .unrecognisedToken .. | .unexpectedToken .. | .unmetExpectation .. | .invalidNumber ..
  | .invalidAssignmentTarget | .unknownType .. => False

/-- The check stops with a justified report on a part of `e`, and for no other reason. -/
def Blames (constant : Bool) (e : Expr) (before after : Table) (stop : Stop) : Prop :=
  ∃ node problem, node.Within e ∧ stop = .report (.atSite problem node.site) ∧
    Justified constant e before after node problem

section Blames

variable {constant : Bool} {table after : Table} {stop : Stop}

theorem Lists.earlier {start : Table} {node : Expr} {types : List Ty}
    (lists : Lists constant start after node types) (leads : table.LeadsTo start) :
    Lists constant table after node types := by
  refine lists.imp ?_
  rintro operand type ⟨found, foundHere, settles⟩
  exact ⟨found, foundHere.earlier leads, settles⟩

/-- What is so of a part, and from a later table on, is so of the whole from the start. -/
theorem Justified.lift {inner outer node : Expr} {problem : Problem} {start : Table}
    (justified : Justified constant inner start after node problem) (within : inner.Within outer)
    (leads : table.LeadsTo start) : Justified constant outer table after node problem := by
  cases problem with
  | nullNotPermitted | variableInConstant name | unsupportedConversion target => exact justified
  | undeclaredVariable name =>
      obtain ⟨isFree, isReference, absent⟩ := justified
      rw [← Table.findVariable?_eq_none_iff, Table.Filled.findVariable? leads] at absent
      exact ⟨isFree, isReference, Table.findVariable?_eq_none_iff.1 absent⟩
  | undeclaredFunction name =>
      obtain ⟨isCall, absent⟩ := justified
      have absentBefore := Table.Filled.findFunction?_eq_none_before leads
        (Table.findFunction?_eq_none_iff.2 absent)
      exact ⟨isCall, Table.findFunction?_eq_none_iff.1 absentBefore⟩
  | arityMismatch name expected actual =>
      obtain ⟨site, arguments, held, isCall, declared, isActual, isExpected, different⟩ := justified
      obtain ⟨early, found, evolves⟩ :=
        Table.Filled.findFunction?_before leads (Table.findFunction?_eq_some_iff.2 declared)
      exact ⟨site, arguments, early, isCall, Table.findFunction?_eq_some_iff.1 found, isActual,
        evolves.length_parameters.symm.trans isExpected, different⟩
  | argumentMismatch name index expected supplied =>
      obtain ⟨site, arguments, held, inside, listed, found, rest⟩ := justified
      exact ⟨site, arguments, held, inside.trans within, listed, found.earlier leads, rest⟩
  | ambiguousType label =>
      obtain ⟨operator, isOperator, isLabel, unknown⟩ := justified
      exact ⟨operator, isOperator, isLabel, fun operand member =>
        (unknown operand member).earlier leads⟩
  | operandMismatch label types =>
      obtain ⟨operator, isOperator, isLabel, lists, different⟩ := justified
      exact ⟨operator, isOperator, isLabel, lists.earlier leads, different⟩
  | operatorMismatch label permitted types =>
      obtain ⟨operator, common, isOperator, isLabel, lists, rest⟩ := justified
      exact ⟨operator, common, isOperator, isLabel, lists.earlier leads, rest⟩
  | unrecognisedToken | unexpectedToken | unmetExpectation | invalidNumber
  | invalidAssignmentTarget | unknownType => cases justified

theorem Blames.lift {inner outer : Expr} {start : Table}
    (blames : Blames constant inner start after stop) (within : inner.Within outer)
    (leads : table.LeadsTo start) : Blames constant outer table after stop := by
  obtain ⟨node, problem, inside, isReport, justified⟩ := blames
  exact ⟨node, problem, inside.trans within, isReport, justified.lift within leads⟩

theorem blames_literal {site : Site} {value : Literal}
    (failed : (literal site value).outcome table = (.error stop, after)) :
    Blames constant (.literal site value) table after stop := by
  cases value with
  | number | string | bool => cases failed
  | null =>
      cases failed
      exact ⟨_, .nullNotPermitted, .self, rfl, site, rfl⟩

theorem blames_reference {site : Site} {name : String}
    (failed : (reference constant site name).outcome table = (.error stop, after)) :
    Blames constant (.reference site name) table after stop := by
  cases constant with
  | true =>
      cases failed
      exact ⟨_, .variableInConstant name, .self, rfl, rfl, site, rfl⟩
  | false =>
      simp only [reference, Bool.false_eq_true, ↓reduceIte, outcome_bind, outcome_get] at failed
      cases found : table.findVariable? name with
      | some type =>
          rw [found] at failed
          cases failed
      | none =>
          rw [found] at failed
          cases failed
          exact ⟨_, .undeclaredVariable name, .self, rfl, rfl, ⟨site, rfl⟩,
            Table.findVariable?_eq_none_iff.1 found⟩

theorem blames_conversion {site : Site} {target : String} {body : Expr}
    (failed : (conversion site target).outcome table = (.error stop, after)) :
    Blames constant (.conversion site target body) table after stop := by
  unfold conversion at failed
  cases named : Ty.ofName? target with
  | some type =>
      rw [named] at failed
      cases failed
  | none =>
      rw [named] at failed
      cases failed
      refine ⟨_, .unsupportedConversion target, .self, rfl, ⟨site, body, rfl⟩, ?_⟩
      rintro type known rfl
      rw [Ty.ofName?_eq_some_iff.2 ⟨known, rfl⟩] at named
      cases named

theorem blames_arity {site : Site} {name : String} {arguments : List Expr}
    (failed : (arity site name arguments.length).outcome table =
      (.error stop, after)) :
    Blames constant (.call site name arguments) table after stop := by
  rw [arity, outcome_bind] at failed
  simp only [outcome_get] at failed
  cases found : table.findFunction? name with
  | none =>
      rw [found] at failed
      cases failed
      exact ⟨_, .undeclaredFunction name, .self, rfl, ⟨site, arguments, rfl⟩,
        Table.findFunction?_eq_none_iff.1 found⟩
  | some held =>
      by_cases same : arguments.length = held.parameters.length
      · simp [found, same] at failed
      · simp only [found, ne_eq, same, not_false_eq_true, ↓reduceIte] at failed
        cases failed
        exact ⟨_, .arityMismatch name held.parameters.length arguments.length, .self, rfl, site,
          arguments, held, rfl, Table.findFunction?_eq_some_iff.1 found, rfl, rfl, same⟩

theorem slot_ne_error {name : String} {held : Signature} {place : Slot} {type : Ty}
    (found : table.findFunction? name = some held) (placed : held.slot? place = some type) :
    (slot name place).outcome table ≠ (.error stop, after) := by
  rw [slot_eq_ok_iff.2 ⟨rfl, held, found, placed⟩]
  intro failed
  cases failed

theorem bindSlot_ne_error {name : String} {held : Signature} {place : Slot} {type : Ty}
    (found : table.findFunction? name = some held)
    (unbound : held.slot? place = some .unresolved) (known : type.isResolved) :
    (bindSlot name place type).outcome table ≠ (.error stop, after) := by
  have bound := Table.bind_eq_ok_iff.2 ⟨held, found, unbound, known, rfl⟩
  rw [bindSlot_eq_ok_iff.2 bound]
  intro failed
  cases failed

/-- An argument that has a parameter is refused only for its type. -/
theorem pass_eq_error {function : String} {index : Nat} {argument : Site} {supplied : Ty}
    {held : Signature} (found : table.findFunction? function = some held)
    (inside : index < held.parameters.length)
    (failed : (pass function index argument supplied).outcome table = (.error stop, after)) :
    after = table ∧ ∃ expected, held.slot? (.parameter index) = some expected ∧
      expected.isResolved ∧ expected ≠ supplied ∧
      stop = .report (.atSite (.argumentMismatch function index expected supplied) argument) := by
  have placed : held.slot? (.parameter index) = some (held.parameters[index]).type := by
    simp only [Signature.slot?, List.getElem?_eq_getElem inside, Option.map_some]
  rcases outcome_bind_eq_error_iff.1 failed with missing | ⟨expected, between, looked, rest⟩
  · exact absurd missing (slot_ne_error found placed)
  · obtain ⟨rfl, again, foundAgain, holds⟩ := slot_eq_ok_iff.1 looked
    rw [found] at foundAgain
    cases foundAgain
    split at rest
    · rename_i unknown
      have isOpen : expected = .unresolved := Ty.isResolved_eq_false_iff.1 (by simpa using unknown)
      subst isOpen
      split at rest
      · rename_i known
        exact absurd rest (bindSlot_ne_error found holds known)
      · cases rest
    · rename_i known
      split at rest
      · rename_i different
        cases rest
        exact ⟨rfl, expected, holds, by simpa using known, different, rfl⟩
      · cases rest

/-- From number `index` on there are as many arguments as parameters, whatever the arguments before
have filled. -/
theorem blames_passAll {site : Site} {name : String} {arguments others : List Expr} {index : Nat}
    {held : Signature}
    (each : ∀ argument ∈ arguments, ∀ table,
      (expr constant argument).outcome table = (.error stop, after) →
      Blames constant argument table after stop)
    (rest : arguments.drop index = others) (found : table.findFunction? name = some held)
    (arity : arguments.length = held.parameters.length)
    (failed : (passAll constant name index others).outcome table = (.error stop, after)) :
    Blames constant (.call site name arguments) table after stop := by
  induction others generalizing index table held with
  | nil => cases failed
  | cons argument others ih =>
      have listed : arguments[index]? = some argument := by
        rw [← List.head?_drop, rest, List.head?_cons]
      have inside : index < arguments.length := (List.getElem?_eq_some_iff.1 listed).1
      have restLater : arguments.drop (index + 1) = others := by
        rw [← List.tail_drop, rest, List.tail_cons]
      have member : argument ∈ arguments := List.mem_of_getElem? listed
      have part : argument.Within (.call site name arguments) := .of_child member
      rw [passAll] at failed
      rcases outcome_bind_eq_error_iff.1 failed with wrong | ⟨supplied, between, checked, handed⟩
      · exact (each argument member table wrong).lift part (.refl table)
      · have leads := leadsTo_expr checked
        obtain ⟨heldBetween, foundBetween, evolves⟩ := Table.Filled.findFunction? leads found
        have arityBetween := arity.trans evolves.length_parameters.symm
        rcases outcome_bind_eq_error_iff.1 handed with refused | ⟨⟨⟩, last, passed, later⟩
        · obtain ⟨rfl, expected, placed, known, different, rfl⟩ :=
            pass_eq_error foundBetween (arityBetween ▸ inside) refused
          exact ⟨argument, .argumentMismatch name index expected supplied, part, rfl, site,
            arguments, heldBetween, .self, listed, .of_ok checked,
            Table.findFunction?_eq_some_iff.1 foundBetween, placed, known, different⟩
        · have leadsPassed := leadsTo_pass passed
          obtain ⟨heldLast, foundLast, evolvesLast⟩ :=
            Table.Filled.findFunction? leadsPassed foundBetween
          have arityLast := arityBetween.trans evolvesLast.length_parameters.symm
          exact (ih restLater foundLast arityLast later).lift .self (leads.trans leadsPassed)

/-- A call that was checked has a function, so that its result can be looked up and filled. -/
theorem settle_ne_error {start : Table} {common : Ty} {operand : Expr × Ty}
    (known : common.isResolved) (found : Found constant start table operand.1 operand.2) :
    (settle common operand).outcome table ≠ (.error stop, after) := by
  intro failed
  unfold settle at failed
  split at failed
  · cases failed
  · rename_i name arguments isCall
    obtain ⟨site, isCore⟩ := Expr.core_of_call? isCall
    obtain ⟨held, foundHeld, -⟩ := found.result isCore
    rcases outcome_bind_eq_error_iff.1 failed with missing | ⟨result, between, looked, rest⟩
    · exact slot_ne_error foundHeld rfl missing
    · obtain ⟨rfl, again, foundAgain, holds⟩ := slot_eq_ok_iff.1 looked
      rw [foundHeld] at foundAgain
      cases foundAgain
      split at rest
      · cases rest
      · rename_i unknown
        rw [Ty.isResolved_eq_false_iff.1 (Bool.eq_false_iff.2 unknown)] at holds
        rcases outcome_bind_eq_error_iff.1 rest with unbound | ⟨_, _, -, done⟩
        · exact bindSlot_ne_error foundHeld holds known unbound
        · cases done

theorem settleAll_ne_error {start : Table} {common : Ty} {operands : List (Expr × Ty)}
    (known : common.isResolved)
    (checked : ∀ operand ∈ operands, Found constant start table operand.1 operand.2) :
    (operands.mapM (settle common)).outcome table ≠ (.error stop, after) := by
  intro failed
  obtain ⟨operand, between, member, leads, unsettled⟩ :=
    exists_of_mapM_eq_error (fills_settle_any common) failed
  exact settle_ne_error known ((checked operand member).later leads) unsettled

/-- Each operand keeps its type or takes the common one. -/
theorem types_of_settleAll {common : Ty} {operands : List (Expr × Ty)} {types : List Ty}
    {after : Table}
    (settled : (operands.mapM (settle common)).outcome table = (.ok types, after)) :
    List.Forall₂ (fun operand type => type = operand.2 ∨ type = common) operands types := by
  induction operands generalizing table types with
  | nil =>
      cases settled
      exact .nil
  | cons operand operands ih =>
      rw [List.mapM_cons] at settled
      obtain ⟨type, between, first, rest⟩ := outcome_bind_eq_ok_iff.1 settled
      obtain ⟨others, last, later, done⟩ := outcome_bind_eq_ok_iff.1 rest
      cases done
      have head : type = operand.2 ∨ type = common := by
        rcases settle_eq_ok first with ⟨-, same⟩ | ⟨same, -⟩
        · exact Or.inl same
        · exact Or.inr same
      exact .cons head (ih later)

/-- The type that decides is still among the types once all operands are settled. -/
theorem mem_types_of_decided {common : Ty} {operands : List (Expr × Ty)} {types : List Ty}
    (decided : (operands.map Prod.snd).find? Ty.isResolved = some common)
    (settled : List.Forall₂ (fun operand type => type = operand.2 ∨ type = common) operands types) :
    common ∈ types := by
  have deciding := List.mem_of_find?_eq_some decided
  clear decided
  induction settled with
  | nil => cases deciding
  | @cons operand type _ _ head _ ih =>
      rcases List.mem_cons.1 deciding with here | later
      · rcases head with same | same
        · rw [here, ← same]
          exact List.mem_cons_self
        · rw [same]
          exact List.mem_cons_self
      · exact List.mem_cons_of_mem _ (ih later)

/-- An operand of a known type keeps it: a call whose result is still open had no known type when it
was checked. -/
theorem settles_of_settle {start : Table} {common type : Ty} {operand : Expr × Ty}
    (found : Found constant start table operand.1 operand.2)
    (settled : (settle common operand).outcome table = (.ok type, after)) :
    operand.2.Settles type := by
  rcases settle_eq_ok settled with ⟨-, rfl⟩ | ⟨rfl, name, arguments, called, binding⟩
  · exact .refl operand.2
  · obtain ⟨site, isCore⟩ := Expr.core_of_call? called
    obtain ⟨held, foundHeld, settles⟩ := found.result isCore
    obtain ⟨again, foundAgain, unbound, known, -⟩ := Table.bind_eq_ok_iff.1 binding
    rw [foundHeld] at foundAgain
    cases foundAgain
    rw [Option.some.inj unbound] at settles
    exact Or.inr ⟨settles.unresolved_left, known⟩

theorem lists_of_settleAll {start : Table} {common : Ty} {operands : List (Expr × Ty)}
    {types : List Ty}
    (checked : ∀ operand ∈ operands, Found constant start table operand.1 operand.2)
    (settled : (operands.mapM (settle common)).outcome table = (.ok types, after)) :
    List.Forall₂ (fun operand type =>
      ∃ found, Found constant start after operand.1 found ∧ found.Settles type) operands types := by
  have steps := steps_of_mapM (fills_settle_any common) settled
  refine List.forall₂_iff_zip.2 ⟨steps.length_eq, ?_⟩
  intro operand type member
  obtain ⟨first, last, leadsFirst, here, leadsLast⟩ := List.forall₂_zip steps member
  have found := (checked operand (List.of_mem_zip member).1).later leadsFirst
  have foundAfter := found.later ((leadsTo_settle here).trans leadsLast)
  exact ⟨operand.2, foundAfter, settles_of_settle found here⟩

theorem blames_unify {start : Table} {node : Expr} {symbol : Operator} {types : List Ty}
    (isOperator : node.operator? = some symbol)
    (checked : List.Forall₂ (Found constant start table) node.operands types)
    (failed : (unify node.site symbol (node.operands.zip types)).outcome table =
      (.error stop, after)) :
    Blames constant node start after stop := by
  have sameLength := checked.length_eq
  have sameTypes : (node.operands.zip types).map Prod.snd = types :=
    List.map_snd_zip (Nat.le_of_eq sameLength.symm)
  have sameOperands : (node.operands.zip types).map Prod.fst = node.operands :=
    List.map_fst_zip (Nat.le_of_eq sameLength)
  unfold unify at failed
  rw [sameTypes] at failed
  split at failed
  · rename_i undecided
    cases failed
    refine ⟨node, .ambiguousType symbol.label, .self, rfl, symbol, isOperator, rfl, ?_⟩
    intro operand member
    obtain ⟨type, inside, found⟩ := exists_of_forall₂ checked member
    have unknown := List.find?_eq_none.1 undecided type inside
    rwa [Ty.isResolved_eq_false_iff.1 (Bool.eq_false_iff.2 unknown)] at found
  · rename_i common decided
    have known : common.isResolved := List.find?_some decided
    rcases outcome_bind_eq_error_iff.1 failed with unsettled | ⟨listed, between, settled, rest⟩
    · exact absurd unsettled
        (settleAll_ne_error known fun _ member => List.forall₂_zip checked member)
    · have lists : Lists constant start between node listed := by
        have each := lists_of_settleAll
          (fun _ member => List.forall₂_zip checked member) settled
        rw [Lists, ← sameOperands, List.forall₂_map_left_iff]
        exact each
      split at rest
      · rename_i differs
        cases rest
        obtain ⟨other, member, different⟩ := List.any_eq_true.1 differs
        rw [← sameTypes] at decided
        -- the first known type is still listed, so the one that differs has another beside it
        have decisive := mem_types_of_decided decided (types_of_settleAll settled)
        exact ⟨node, .operandMismatch symbol.label listed, .self, rfl, symbol, isOperator, rfl,
          lists, other, member, common, decisive, of_decide_eq_true different⟩
      · rename_i uniform
        split at rest
        · rename_i refused
          cases rest
          exact ⟨node, .operatorMismatch symbol.label symbol.permitted listed, .self, rfl, symbol,
            common, isOperator, rfl, lists, by simpa using uniform, known, rfl,
            by simpa using refused⟩
        · cases rest

end Blames

/-- Checking an expression stops only with a report on a part of it, and what the report says about
that part is so. -/
theorem blames_expr {constant : Bool} {e : Expr} {table after : Table} {stop : Stop}
    (failed : (expr constant e).outcome table = (.error stop, after)) :
    Blames constant e table after stop := by
  induction e using Expr.operatorInd generalizing table with
  | literal site value =>
      rw [expr] at failed
      exact blames_literal failed
  | reference site name =>
      rw [expr] at failed
      exact blames_reference failed
  | call site name arguments ih =>
      rw [expr] at failed
      rcases outcome_bind_eq_error_iff.1 failed with refused | ⟨⟨⟩, between, counted, rest⟩
      · exact blames_arity refused
      · obtain ⟨rfl, held, found, arity⟩ := arity_eq_ok_iff.1 counted
        rcases outcome_bind_eq_error_iff.1 rest with wrong | ⟨⟨⟩, last, passed, missing⟩
        · exact blames_passAll (fun argument member _ => ih argument member) List.drop_zero found
            arity wrong
        · -- the result is there, since the function was found when the arguments were counted
          obtain ⟨later, foundLater, -⟩ :=
            Table.Filled.findFunction? (leadsTo_passAll passed) found
          exact absurd missing (slot_ne_error foundLater rfl)
  | operator node symbol isOperator ih =>
      rw [expr_of_operator? constant isOperator] at failed
      rcases outcome_bind_eq_error_iff.1 failed with wrong | ⟨types, between, checked, refused⟩
      · obtain ⟨operand, start, member, leads, wrongHere⟩ :=
          exists_of_mapM_eq_error (fills_expr_any constant) wrong
        have part : operand.Within node :=
          .of_child (Expr.children_of_operator? isOperator ▸ member)
        exact (ih operand member wrongHere).lift part leads
      · exact blames_unify isOperator (found_of_mapM checked) refused
  | paren site inner ih =>
      rw [expr] at failed
      exact (ih failed).lift (.of_child (List.mem_singleton_self inner)) (.refl table)
  | atom site inner ih =>
      rw [expr] at failed
      exact (ih failed).lift (.of_child (List.mem_singleton_self inner)) (.refl table)
  | conversion site target body ih =>
      rw [expr] at failed
      rcases outcome_bind_eq_error_iff.1 failed with wrong | ⟨_, between, checked, refused⟩
      · exact (ih wrong).lift (.of_child (List.mem_singleton_self body)) (.refl table)
      · exact (blames_conversion refused).lift .self (leadsTo_expr checked)

/-- Checking breaks no rule of the table, and a function is reported as undeclared by the look-up
that a call of it starts with, and nowhere else. -/
theorem expr_never_breaches (constant : Bool) (e : Expr) (table : Table) :
    (∀ fault after, (expr constant e).outcome table ≠ (.error (.breach fault), after)) ∧
      ∀ diagnostic name after,
        (expr constant e).outcome table = (.error (.report diagnostic), after) →
        diagnostic.problem = .undeclaredFunction name →
        ∃ site arguments, (Expr.call site name arguments).Within e ∧
          table.findFunction? name = none ∧
          (arity site name arguments.length).outcome after =
            (.error (.report diagnostic), after) := by
  constructor
  · intro fault after breached
    obtain ⟨_, _, -, isReport, -⟩ := blames_expr breached
    cases isReport
  · intro diagnostic name after failed undeclared
    obtain ⟨node, problem, within, isReport, justified⟩ := blames_expr failed
    cases isReport
    cases undeclared
    obtain ⟨⟨site, arguments, rfl⟩, undeclared⟩ := justified
    have absent := Table.findFunction?_eq_none_iff.2 undeclared
    refine ⟨site, arguments, within, absent, ?_⟩
    have absentAfter : after.findFunction? name = none := by
      cases later : after.findFunction? name with
      | none => rfl
      | some held =>
          obtain ⟨early, found, -⟩ := ((fills_expr constant e).filled failed).findFunction?_before later
          rw [absent] at found
          cases found
    rw [arity, outcome_bind, outcome_get]
    simp only [absentAfter, outcome_fail]
    rfl

/-- `f(1, g(true))` without a `g`: the first argument is handed over before the second is
refused. -/
theorem expr_never_breaches_missing :
    let site (number : UInt32) : Site := ⟨⟨number⟩, .point 0⟩
    let inner := Expr.call (site 2) "g" [.literal (site 1) (.bool true)]
    let e := Expr.call (site 4) "f" [.literal (site 0) (.number .zero), .atom (site 3) inner]
    let table (first : Ty) : Table := ⟨[.functionOf "f" ⟨[], .number⟩,
      .functionOf "f" ⟨[⟨none, first⟩, ⟨none, .unresolved⟩], .unresolved⟩]⟩
    let diagnostic := Diagnostic.atSite (.undeclaredFunction "g") (site 2)
    (expr false e).outcome (table .unresolved) = (.error (.report diagnostic), table .number) ∧
      ∃ place arguments, (Expr.call place "g" arguments).Within e ∧
        (table .unresolved).findFunction? "g" = none ∧
        (arity place "g" arguments.length).outcome (table .number) =
          (.error (.report diagnostic), table .number) := by
  intro site inner e table diagnostic
  have failed : (expr false e).outcome (table .unresolved) =
      (.error (.report diagnostic), table .number) := by
    decide +kernel
  exact ⟨failed, (expr_never_breaches false e (table .unresolved)).2 diagnostic "g" _ failed rfl⟩

/-- Checking an expression fails only with a report on a part of it, at the number and the bytes of
that node, and what the report says is so. -/
theorem report_justified (constant : Bool) (e : Expr) (table after : Table) (stop : Stop)
    (failed : (expr constant e).outcome table = (.error stop, after)) :
    ∃ node problem, node.Within e ∧
      stop = .report ⟨problem, node.span, some node.id⟩ ∧
      Justified constant e table after node problem := by
  obtain ⟨node, problem, within, isReport, justified⟩ := blames_expr failed
  exact ⟨node, problem, within, isReport, justified⟩

/-- `f(g() + 0, g())`: the first argument fills the result of `g` before the second is refused, and
the report names the atom node around it. -/
theorem report_justified_second_argument :
    let site (number : UInt32) : Site := ⟨⟨number⟩, .point 0⟩
    let sum := Expr.binary (site 2) .add (.call (site 0) "g" []) (.literal (site 1) (.number .zero))
    let e := Expr.call (site 5) "f" [sum, .atom (site 4) (.call (site 3) "g" [])]
    let table (type : Ty) : Table := ⟨[.functionOf "f" ⟨[], .number⟩,
      .functionOf "f" ⟨[⟨none, type⟩, ⟨none, .string⟩], .unresolved⟩, .functionOf "g" ⟨[], type⟩]⟩
    let stop := Stop.report (.atSite (.argumentMismatch "f" 1 .string .number) (site 4))
    (expr false e).outcome (table .unresolved) = (.error stop, table .number) ∧
      ∃ node problem, node.Within e ∧ stop = .report ⟨problem, node.span, some node.id⟩ ∧
        Justified false e (table .unresolved) (table .number) node problem := by
  intro site sum e table stop
  have failed : (expr false e).outcome (table .unresolved) = (.error stop, table .number) := by
    decide +kernel
  exact ⟨failed, report_justified false e (table .unresolved) (table .number) stop failed⟩

end Check

end DialogueTyping
