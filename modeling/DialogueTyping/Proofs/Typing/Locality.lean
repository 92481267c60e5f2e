import DialogueTyping.Proofs.Table.Agreement
import DialogueTyping.Proofs.Typing.Outcome

set_option autoImplicit false

namespace DialogueTyping

namespace Expr

/-- The variables and functions that the expression names are among the given ones. -/
structure NamesIn (vars functions : String → Prop) (e : Expr) : Prop where
  refers : ∀ name, e.Refers name → vars name
  calls : ∀ name, e.Calls name → functions name

variable {vars functions : String → Prop} {outer : Expr}

theorem NamesIn.child {child : Expr} (names : outer.NamesIn vars functions)
    (member : child ∈ outer.children) : child.NamesIn vars functions where
  refers name here := names.refers name (here.mono (.of_child member))
  calls name here := names.calls name (here.mono (.of_child member))

theorem NamesIn.operand {operand : Expr} {name : String} {arguments : List Expr}
    (names : outer.NamesIn vars functions) (member : operand ∈ outer.operands)
    (called : operand.call? = some (name, arguments)) : functions name := by
  have asOperand : outer.CallsAsOperand name := ⟨outer, operand, arguments, .self, member, called⟩
  exact names.calls name asOperand.calls

end Expr

namespace Check

/-- From tables that agree, the computation gives the same answer and leaves tables that agree. -/
def Mirrors {α : Type} (vars functions : String → Prop) (check : Check α) : Prop :=
  ∀ first second, Table.Agree vars functions first second →
    (check.outcome first).1 = (check.outcome second).1 ∧
      Table.Agree vars functions (check.outcome first).2 (check.outcome second).2

section Mirrors

variable {α β : Type} {vars functions : String → Prop}

theorem mirrors_pure (value : α) : Mirrors vars functions (pure value) :=
  fun _ _ agree => ⟨rfl, agree⟩

theorem mirrors_fail (site : Site) (problem : Problem) :
    Mirrors vars functions (fail site problem : Check α) :=
  fun _ _ agree => ⟨rfl, agree⟩

theorem Mirrors.bind {first : Check α} {next : α → Check β}
    (early : Mirrors vars functions first)
    (late : ∀ value, Mirrors vars functions (next value)) :
    Mirrors vars functions (first >>= next) := by
  intro left right agree
  have step := early left right agree
  rw [outcome_bind, outcome_bind]
  generalize first.outcome left = ended at step ⊢
  generalize first.outcome right = endedRight at step ⊢
  obtain ⟨answer, between⟩ := ended
  obtain ⟨answerRight, betweenRight⟩ := endedRight
  obtain ⟨same, agreeBetween⟩ := step
  dsimp only at same
  subst same
  cases answer with
  | error stop => exact ⟨rfl, agreeBetween⟩
  | ok value => exact late value between betweenRight agreeBetween

theorem mirrors_mapM {f : α → Check β} {list : List α}
    (each : ∀ a ∈ list, Mirrors vars functions (f a)) :
    Mirrors vars functions (list.mapM f) := by
  induction list with
  | nil => exact mirrors_pure _
  | cons a list ih =>
      rw [List.mapM_cons]
      apply (each a List.mem_cons_self).bind
      intro first
      apply (ih fun b member => each b (List.mem_cons_of_mem a member)).bind
      intro others
      exact mirrors_pure _

theorem mirrors_bindSlot {name : String} (slot : Slot) (type : Ty) (named : functions name) :
    Mirrors vars functions (bindSlot name slot type) := by
  intro first second agree
  rw [bindSlot, outcome_bind, outcome_bind]
  simp only [outcome_get]
  rcases agree.bind named slot type with
    ⟨fault, failsFirst, failsSecond⟩ | ⟨_, _, boundFirst, boundSecond, agreeAfter⟩
  · rw [failsFirst, failsSecond]
    exact ⟨rfl, agree⟩
  · rw [boundFirst, boundSecond]
    exact ⟨rfl, agreeAfter⟩

theorem mirrors_slot {name : String} (place : Slot) (named : functions name) :
    Mirrors vars functions (slot name place) := by
  intro first second agree
  simp only [slot, signature, outcome_bind, outcome_get]
  rcases agree.findFunction?_cases named with
    ⟨none, noneSecond⟩ | ⟨held, heldSecond, found, foundSecond, same⟩
  · rw [none, noneSecond]
    exact ⟨rfl, agree⟩
  · rw [found, foundSecond]
    simp only [outcome_pure]
    rw [Signature.types_eq_iff.1 same place]
    cases heldSecond.slot? place with
    | none => exact ⟨rfl, agree⟩
    | some type => exact ⟨rfl, agree⟩

theorem mirrors_arity (site : Site) {name : String} (actual : Nat) (named : functions name) :
    Mirrors vars functions (arity site name actual) := by
  intro first second agree
  simp only [arity, outcome_bind, outcome_get]
  rcases agree.findFunction?_cases named with
    ⟨none, noneSecond⟩ | ⟨held, heldSecond, found, foundSecond, same⟩
  · rw [none, noneSecond]
    exact ⟨rfl, agree⟩
  · have length : held.parameters.length = heldSecond.parameters.length := by
      simpa [Signature.types] using congrArg (List.length ∘ Prod.fst) same
    rw [found, foundSecond]
    simp only [length]
    split
    · exact ⟨rfl, agree⟩
    · exact ⟨rfl, agree⟩

theorem mirrors_reference (constant : Bool) (site : Site) {name : String}
    (named : constant = false → vars name) :
    Mirrors vars functions (reference constant site name) := by
  intro first second agree
  unfold reference
  split
  · exact ⟨rfl, agree⟩
  · rename_i isFree
    have sameType := agree.variableTypes name (named (Bool.eq_false_iff.2 isFree))
    simp only [outcome_bind, outcome_get, sameType]
    cases second.findVariable? name with
    | none => exact ⟨rfl, agree⟩
    | some type => exact ⟨rfl, agree⟩

theorem mirrors_literal (site : Site) (value : Literal) :
    Mirrors vars functions (literal site value) := by
  cases value with
  | number | string | bool => exact mirrors_pure _
  | null => exact mirrors_fail _ _

theorem mirrors_conversion (site : Site) (target : String) :
    Mirrors vars functions (conversion site target) := by
  unfold conversion
  split
  · exact mirrors_pure _
  · exact mirrors_fail _ _

theorem mirrors_pass {function : String} (index : Nat) (argument : Site) (supplied : Ty)
    (named : functions function) :
    Mirrors vars functions (pass function index argument supplied) := by
  apply (mirrors_slot (.parameter index) named).bind
  intro expected
  split
  · split
    · exact mirrors_bindSlot _ _ named
    · exact mirrors_pure _
  · split
    · exact mirrors_fail _ _
    · exact mirrors_pure _

theorem mirrors_settle {operand : Expr × Ty} (common : Ty)
    (named : ∀ name arguments, operand.1.call? = some (name, arguments) → functions name) :
    Mirrors vars functions (settle common operand) := by
  unfold settle
  split
  · exact mirrors_pure _
  · rename_i name arguments called
    apply (mirrors_slot .result (named name arguments called)).bind
    intro held
    split
    · exact mirrors_pure _
    · apply (mirrors_bindSlot .result common (named name arguments called)).bind
      intro _
      exact mirrors_pure _

theorem mirrors_unify {operands : List (Expr × Ty)} (site : Site) (operator : Operator)
    (named : ∀ operand ∈ operands, ∀ name arguments,
      operand.1.call? = some (name, arguments) → functions name) :
    Mirrors vars functions (unify site operator operands) := by
  unfold unify
  split
  · exact mirrors_fail _ _
  · rename_i common decided
    apply (mirrors_mapM fun operand member => mirrors_settle common (named operand member)).bind
    intro types
    split
    · exact mirrors_fail _ _
    · split
      · exact mirrors_fail _ _
      · exact mirrors_pure _

theorem mirrors_passAll {constant : Bool} {function : String} {arguments : List Expr}
    (each : ∀ argument ∈ arguments, Mirrors vars functions (expr constant argument))
    (named : functions function) (index : Nat) :
    Mirrors vars functions (passAll constant function index arguments) := by
  induction arguments generalizing index with
  | nil => exact mirrors_pure _
  | cons argument others ih =>
      rw [passAll]
      apply (each argument List.mem_cons_self).bind
      intro supplied
      apply (mirrors_pass index argument.site supplied named).bind
      intro _
      exact ih (fun other member => each other (List.mem_cons_of_mem argument member)) (index + 1)

/-- Checking an expression looks up no names but those in the expression, and in a constant
expression no variables. -/
theorem mirrors_expr (constant : Bool) (e : Expr)
    (names : e.NamesIn (fun name => constant = false → vars name) functions) :
    Mirrors vars functions (expr constant e) := by
  have operator {node : Expr} {operands : List (Expr × Ty)} (site : Site) (symbol : Operator)
      (inside : node.NamesIn (fun name => constant = false → vars name) functions)
      (among : ∀ operand ∈ operands, operand.1 ∈ node.operands) :
      Mirrors vars functions (unify site symbol operands) :=
    mirrors_unify site symbol fun operand member _ _ called =>
      inside.operand (among operand member) called
  induction e using Expr.ind with
  | literal site value => exact mirrors_literal site value
  | reference site name => exact mirrors_reference constant site (names.refers name ⟨site, .self⟩)
  | call site name arguments ih =>
      have named : functions name := names.calls name ⟨site, arguments, .self⟩
      have each : ∀ argument ∈ arguments, Mirrors vars functions (expr constant argument) :=
        fun argument member => ih argument member (names.child member)
      rw [expr]
      apply (mirrors_arity site arguments.length named).bind
      intro _
      apply (mirrors_passAll each named 0).bind
      intro _
      exact mirrors_slot .result named
  | unary site symbol operand ih =>
      rw [expr]
      apply (ih (names.child (by simp [Expr.children]))).bind
      intro type
      exact operator site (.unary symbol) names (by simp [Expr.operands])
  | binary site symbol left right ihLeft ihRight =>
      rw [expr]
      apply (ihLeft (names.child (by simp [Expr.children]))).bind
      intro leftType
      apply (ihRight (names.child (by simp [Expr.children]))).bind
      intro rightType
      exact operator site (.binary symbol) names (by simp [Expr.operands])
  | assignment site symbol target value ihTarget ihValue =>
      rw [expr]
      apply (ihTarget (names.child (by simp [Expr.children]))).bind
      intro targetType
      apply (ihValue (names.child (by simp [Expr.children]))).bind
      intro valueType
      exact operator site (.assignment symbol) names (by simp [Expr.operands])
  | paren site inner ih =>
      rw [expr]
      exact ih (names.child (by simp [Expr.children]))
  | atom site inner ih =>
      rw [expr]
      exact ih (names.child (by simp [Expr.children]))
  | conversion site target body ih =>
      rw [expr]
      apply (ih (names.child (by simp [Expr.children]))).bind
      intro _
      exact mirrors_conversion site target
  | condition site clause body ih =>
      rw [expr]
      apply (ih (names.child (by simp [Expr.children]))).bind
      intro type
      exact operator site (.condition clause) names (by simp [Expr.operands])

end Mirrors

theorem mirrors_own_names (constant : Bool) (e : Expr) :
    Mirrors (e.Refers ·) (e.Calls ·) (expr constant e) :=
  mirrors_expr constant e ⟨fun _ refers _ => refers, fun _ calls => calls⟩

/-- Checking sees a table only through its answers on the names in the expression, so declarations
that no name stands for make no difference, wherever they are. -/
theorem sees_only_lookups (constant : Bool) (e : Expr) (first second : Table) :
    (Table.AgreeOn e first second →
      ((expr constant e).outcome first).1 = ((expr constant e).outcome second).1 ∧
        Table.AgreeOn e ((expr constant e).outcome first).2 ((expr constant e).outcome second).2) ∧
    (Table.Rearranged e first second →
      ((expr constant e).outcome first).1 = ((expr constant e).outcome second).1) := by
  have mirrors := mirrors_own_names constant e
  refine ⟨mirrors first second, ?_⟩
  intro rearranged
  exact (mirrors first second rearranged.agreeOn).1

/-- The second table has a shadowed declaration of the function, a second one of the variable and
another variable with the name of the function. -/
theorem sees_only_lookups_shadowed :
    let site : Site := ⟨⟨0⟩, .point 0⟩
    let e : Expr := .call site "roll" [.reference site "$gold"]
    let first : Table := ⟨[.variableOf "$gold" .number,
      .functionOf "roll" ⟨[⟨none, .unresolved⟩], .bool⟩]⟩
    let second : Table := ⟨[.functionOf "roll" ⟨[], .string⟩,
      .functionOf "roll" ⟨[⟨some "sides", .unresolved⟩], .bool⟩, .variableOf "roll" .string,
      .variableOf "$gold" .number, .variableOf "$gold" .string]⟩
    let third : Table := ⟨[.variableOf "$gold" .number, .variableOf "roll" .string,
      .functionOf "roll" ⟨[⟨none, .unresolved⟩], .bool⟩]⟩
    Table.AgreeOn e first second ∧ Table.Rearranged e first third ∧
      ((expr false e).outcome first).1 = ((expr false e).outcome second).1 ∧
      Table.AgreeOn e ((expr false e).outcome first).2 ((expr false e).outcome second).2 ∧
      ((expr false e).outcome first).1 = ((expr false e).outcome third).1 := by
  intro site e first second third
  have within {part : Expr} (inside : part.Within e) :
      part = .call site "roll" [.reference site "$gold"] ∨ part = .reference site "$gold" := by
    cases inside with
    | self => exact Or.inl rfl
    | inside member deeper =>
        cases List.mem_singleton.1 member
        cases deeper with
        | self => exact Or.inr rfl
        | inside absent _ => cases absent
  have refers {name : String} (refersTo : e.Refers name) : name = "$gold" := by
    obtain ⟨_, inside⟩ := refersTo
    rcases within inside with impossible | same
    · cases impossible
    · cases same
      rfl
  have calls {name : String} (callsIt : e.Calls name) : name = "roll" := by
    obtain ⟨_, _, inside⟩ := callsIt
    rcases within inside with same | impossible
    · cases same
      rfl
    · cases impossible
  have agree : Table.AgreeOn e first second := by
    constructor
    · intro name refersTo
      rw [refers refersTo]
      rfl
    · intro name callsIt
      rw [calls callsIt]
      rfl
  have spares : Table.Spares e first third := by
    refine ⟨[.variableOf "$gold" .number], .variableOf "roll" .string,
      [.functionOf "roll" ⟨[⟨none, .unresolved⟩], .bool⟩], rfl, rfl, ?_⟩
    rintro ⟨refersTo, -⟩
    exact absurd (refers refersTo) (by decide)
  have rearranged : Table.Rearranged e first third := .rel _ _ spares
  obtain ⟨same, agreeAfter⟩ := (sees_only_lookups false e first second).1 agree
  exact ⟨agree, rearranged, same, agreeAfter, (sees_only_lookups false e first third).2 rearranged⟩

end Check

end DialogueTyping
