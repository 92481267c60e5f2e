import DialogueTyping.Proofs.Typing.Blame
import DialogueTyping.Proofs.Typing.Commuting

set_option autoImplicit false

namespace DialogueTyping

def Declaration.isFunction : Declaration → Bool
  | variableOf .. => false
  | functionOf .. => true

namespace Table

def withoutVariables (table : Table) : Table :=
  ⟨table.declarations.filter Declaration.isFunction⟩

theorem findFunction?_withoutVariables (table : Table) (name : String) :
    table.withoutVariables.findFunction? name = table.findFunction? name := by
  apply lastSome?_filter
  intro declaration isVariable
  cases declaration with
  | variableOf declared type => rfl
  | functionOf declared signature => cases isVariable

theorem bind_withoutVariables {before after : Table} {name : String} {slot : Slot} {type : Ty}
    (bound : before.bind name slot type = .ok after) :
    before.withoutVariables.bind name slot type = .ok after.withoutVariables := by
  obtain ⟨signature, found, unbound, known, -⟩ := bind_eq_ok_iff.1 bound
  refine bind_eq_ok_iff.2 ⟨signature, ?_, unbound, known, ?_⟩
  · rw [findFunction?_withoutVariables, found]
  · obtain ⟨front, held, rest, split, absent, -, -, filled⟩ := declarations_of_bind bound
    have isFunction (signature : Signature) :
        (Declaration.functionOf name signature).isFunction = true := rfl
    have splitFunctions : before.withoutVariables.declarations =
        front.filter Declaration.isFunction ++ .functionOf name held ::
          rest.filter Declaration.isFunction := by
      rw [withoutVariables, split, List.filter_append, List.filter_cons_of_pos (isFunction held)]
    have absentFunctions : ∀ other,
        .functionOf name other ∉ rest.filter Declaration.isFunction := by
      intro other member
      exact absent other (List.mem_of_mem_filter member)
    have set := declarations_setSlot slot type splitFunctions absentFunctions
    rw [withoutVariables, filled, List.filter_append, List.filter_cons_of_pos (isFunction _), ← set]

theorem Filled.withoutVariables {allowed : String → Slot → Prop} {before after : Table}
    (filled : Filled allowed before after) :
    Filled allowed before.withoutVariables after.withoutVariables := by
  induction filled with
  | refl => exact .refl _
  | tail _ fill ih =>
      obtain ⟨name, slot, type, permission, bound⟩ := fill
      exact Relation.ReflTransGen.tail ih
        ⟨name, slot, type, permission, bind_withoutVariables bound⟩

theorem agree_withoutVariables (table : Table) :
    Agree (fun _ => False) (fun _ => True) table.withoutVariables table where
  variableTypes _ impossible := impossible.elim
  functionTypes name _ := by rw [findFunction?_withoutVariables]

end Table

/-- No variable is referred to, at any depth. -/
def Expr.VariableFree (e : Expr) : Prop := ∀ name, ¬ e.Refers name

theorem Expr.VariableFree.child {outer child : Expr} (free : outer.VariableFree)
    (member : child ∈ outer.children) : child.VariableFree :=
  fun name refers => free name (refers.mono (.of_child member))

namespace Check

theorem passAll_congr {function : String} {arguments : List Expr} (index : Nat)
    (each : ∀ argument ∈ arguments, expr true argument = expr false argument) :
    passAll true function index arguments = passAll false function index arguments := by
  induction arguments generalizing index with
  | nil => rw [passAll, passAll]
  | cons argument others ih =>
      obtain ⟨first, rest⟩ := List.forall_mem_cons.1 each
      simp only [passAll, first, ih _ rest]

theorem mapM_congr {operands : List Expr}
    (each : ∀ operand ∈ operands, expr true operand = expr false operand) :
    operands.mapM (expr true) = operands.mapM (expr false) := by
  induction operands with
  | nil => rfl
  | cons operand others ih =>
      obtain ⟨first, rest⟩ := List.forall_mem_cons.1 each
      rw [List.mapM_cons, List.mapM_cons, first, ih rest]

/-- Without variables there is nothing to refuse. -/
theorem expr_of_variableFree {e : Expr} (free : e.VariableFree) : expr true e = expr false e := by
  induction e using Expr.operatorInd with
  | literal site value => rw [expr, expr]
  | reference site name => exact absurd ⟨site, .self⟩ (free name)
  | call site name arguments ih =>
      have each : ∀ argument ∈ arguments, expr true argument = expr false argument :=
        fun argument member => ih argument member (free.child member)
      rw [expr, expr, passAll_congr 0 each]
  | operator node symbol isOperator ih =>
      have each : ∀ operand ∈ node.operands, expr true operand = expr false operand := by
        intro operand member
        have isChild : operand ∈ node.children := Expr.children_of_operator? isOperator ▸ member
        exact ih operand member (free.child isChild)
      rw [expr_of_operator? true isOperator, expr_of_operator? false isOperator, mapM_congr each]
  | paren site inner ih =>
      rw [expr, expr, ih (free.child (List.mem_singleton_self inner))]
  | atom site inner ih =>
      rw [expr, expr, ih (free.child (List.mem_singleton_self inner))]
  | conversion site target body ih =>
      rw [expr, expr, ih (free.child (List.mem_singleton_self body))]

/-- Whatever is accepted as a constant was accepted in all its parts, and a variable never is. -/
theorem variableFree_of_accepted {e : Expr} {table after : Table} {type : Ty}
    (accepted : (expr true e).outcome table = (.ok type, after)) : e.VariableFree := by
  rintro name ⟨site, within⟩
  obtain ⟨innerType, start, finish, -, checked, -⟩ := found_of_within accepted within
  rw [expr] at checked
  obtain ⟨-, isFree, -⟩ := reference_eq_ok_iff.1 checked
  cases isFree

theorem constant_withoutVariables (e : Expr) (table : Table) :
    (expr true e).outcome table.withoutVariables =
      (((expr true e).outcome table).1, ((expr true e).outcome table).2.withoutVariables) := by
  have mirrors : Mirrors (fun _ => False) (fun _ => True) (expr true e) :=
    mirrors_expr true e ⟨fun _ _ isFree => Bool.noConfusion isFree, fun _ _ => trivial⟩
  obtain ⟨sameAnswer, agree⟩ := mirrors _ _ table.agree_withoutVariables
  refine Prod.ext sameAnswer ?_
  have filledAlone := fills_expr true e table.withoutVariables
  have filledBeside := (fills_expr true e table).withoutVariables
  apply Table.eq_of_findFunction? filledAlone filledBeside
  intro name
  apply Table.findFunction?_eq_of_types filledAlone filledBeside rfl
  rw [Table.findFunction?_withoutVariables]
  exact agree.functionTypes name trivial

/-- With variables refused, exactly the expressions that refer to none are checked as before, and
what the table says about variables makes no difference to them. -/
theorem constant_iff_variableFree (e : Expr) (table : Table) :
    (∀ type after, (expr true e).outcome table = (.ok type, after) ↔
      e.VariableFree ∧ (expr false e).outcome table = (.ok type, after)) ∧
    (e.VariableFree → (expr true e).outcome table = (expr false e).outcome table) ∧
    (∀ diagnostic after name,
      (expr true e).outcome table = (.error (.report diagnostic), after) →
      diagnostic.problem ≠ .undeclaredVariable name) ∧
    (expr true e).outcome table.withoutVariables =
      (((expr true e).outcome table).1, ((expr true e).outcome table).2.withoutVariables) := by
  refine ⟨?_, ?_, ?_, constant_withoutVariables e table⟩
  · intro type after
    constructor
    · intro accepted
      have free := variableFree_of_accepted accepted
      exact ⟨free, expr_of_variableFree free ▸ accepted⟩
    · rintro ⟨free, accepted⟩
      rwa [expr_of_variableFree free]
  · intro free
    rw [expr_of_variableFree free]
  · intro diagnostic after name failed isUndeclared
    obtain ⟨node, problem, -, ⟨⟩, justified⟩ := blames_expr failed
    cases isUndeclared
    cases justified.1

/-- `f(0) + $x` fills the parameter of `f` before the variable is refused. -/
theorem constant_iff_variableFree_filled :
    let site : Site := ⟨⟨0⟩, .point 0⟩
    let e : Expr := .call site "f" [.literal site (.number .zero)]
    let wrong : Expr := .binary site .add e (.reference site "$x")
    let functions (type : Ty) : Table := ⟨[.functionOf "f" ⟨[⟨none, type⟩], .number⟩]⟩
    let table (type : Ty) : Table :=
      ⟨[.variableOf "$x" .number, .functionOf "f" ⟨[⟨none, type⟩], .number⟩]⟩
    let diagnostic := Diagnostic.atSite (.variableInConstant "$x") site
    (expr true e).outcome (table .unresolved) = (.ok .number, table .number) ∧ e.VariableFree ∧
      (expr false e).outcome (table .unresolved) = (.ok .number, table .number) ∧
      (expr true wrong).outcome (table .unresolved) =
        (.error (.report diagnostic), table .number) ∧
      (∀ name, diagnostic.problem ≠ .undeclaredVariable name) ∧
      (expr true wrong).outcome (functions .unresolved) =
        (.error (.report diagnostic), functions .number) := by
  intro site e wrong functions table diagnostic
  have accepted : (expr true e).outcome (table .unresolved) = (.ok .number, table .number) := by
    decide +kernel
  have refused : (expr true wrong).outcome (table .unresolved) =
      (.error (.report diagnostic), table .number) := by
    decide +kernel
  obtain ⟨free, acceptedFreely⟩ :=
    ((constant_iff_variableFree e (table .unresolved)).1 _ _).1 accepted
  obtain ⟨-, -, declared, removed⟩ := constant_iff_variableFree wrong (table .unresolved)
  rw [refused] at removed
  exact ⟨accepted, free, acceptedFreely, refused, fun name => declared _ _ name refused, removed⟩

end Check

end DialogueTyping
