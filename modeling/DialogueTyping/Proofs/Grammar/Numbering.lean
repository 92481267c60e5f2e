import DialogueTyping.Proofs.Grammar.Steps
import Mathlib.Data.List.Flatten
import Mathlib.Data.List.Perm.Basic

set_option autoImplicit false

namespace DialogueTyping

open scoped List

namespace Expr

def number (expr : Expr) : Nat := expr.id.number.toNat

mutual

/-- All subexpressions, each after those inside it and the left ones first. -/
def postorder (expr : Expr) : List Expr :=
  (match expr with
    | literal .. | reference .. => []
    | call _ _ arguments => postorderAll arguments
    | unary _ _ operand => postorder operand
    | binary _ _ left right => postorder left ++ postorder right
    | assignment _ _ target value => postorder target ++ postorder value
    | paren _ inner | atom _ inner => postorder inner
    | conversion _ _ body | condition _ _ body => postorder body) ++ [expr]

def postorderAll : List Expr → List Expr
  | [] => []
  | expr :: exprs => postorder expr ++ postorderAll exprs

end

mutual

/-- The numbers given out while the expression is made, in order: those of its nodes, and after the
target of each assignment one more. -/
def made (expr : Expr) : List Nat :=
  (match expr with
    | literal .. | reference .. => []
    | call _ _ arguments => madeAll arguments
    | unary _ _ operand => made operand
    | binary _ _ left right => made left ++ made right
    | assignment _ _ target value => made target ++ [target.number + 1] ++ made value
    | paren _ inner | atom _ inner => made inner
    | conversion _ _ body | condition _ _ body => made body) ++ [expr.number]

def madeAll : List Expr → List Nat
  | [] => []
  | expr :: exprs => made expr ++ madeAll exprs

end

/-- The number after that of the target, if the outermost node is an assignment. -/
def dropped? : Expr → Option Nat
  | assignment _ _ target _ => some (target.number + 1)
  | _ => none

/-- The numbers of all nodes, in postorder. -/
def numbers (expr : Expr) : List Nat := expr.postorder.map number

/-- The numbers after those of the targets of all assignments. -/
def gaps (expr : Expr) : List Nat := expr.postorder.filterMap dropped?

@[elab_as_elim]
theorem childInd {motive : Expr → Prop}
    (node : ∀ expr, (∀ child ∈ expr.children, motive child) → motive expr) (expr : Expr) :
    motive expr := by
  induction expr using Expr.ind with
  | literal | reference => exact node _ (List.forall_mem_nil _)
  | call site name arguments ih => exact node _ ih
  | binary _ _ _ _ left right | assignment _ _ _ _ left right =>
      exact node _ (List.forall_mem_cons.2 ⟨left, List.forall_mem_singleton.2 right⟩)
  | unary _ _ _ ih | paren _ _ ih | atom _ _ ih | conversion _ _ _ ih | condition _ _ _ ih =>
      exact node _ (List.forall_mem_singleton.2 ih)

theorem postorder_eq (e : Expr) : e.postorder = e.children.flatMap postorder ++ [e] := by
  have all (exprs : List Expr) : postorderAll exprs = exprs.flatMap postorder := by
    induction exprs with
    | nil => rfl
    | cons expr exprs ih => rw [postorderAll, List.flatMap_cons, ih]
  cases e <;> simp [postorder, children, all]

theorem mem_postorder_iff {inner outer : Expr} : inner ∈ outer.postorder ↔ inner.Within outer := by
  induction outer using childInd with
  | node outer ih =>
      rw [postorder_eq, List.mem_append, List.mem_flatMap, List.mem_singleton]
      constructor
      · rintro (⟨child, member, inside⟩ | rfl)
        · exact .inside member ((ih child member).1 inside)
        · exact .self
      · intro within
        cases within with
        | self => exact Or.inr rfl
        | inside member inside => exact Or.inl ⟨_, member, (ih _ member).2 inside⟩

theorem Within.postorder_sublist {inner outer : Expr} (within : inner.Within outer) :
    inner.postorder.Sublist outer.postorder := by
  induction within with
  | self => exact List.Sublist.refl _
  | @inside child outer member _ ih =>
      have below : child.postorder.Sublist (outer.children.flatMap postorder) := by
        simpa using (List.singleton_sublist.2 member).flatMap postorder
      rw [postorder_eq outer]
      exact ih.trans (below.trans (List.sublist_append_left _ _))

theorem numbers_eq (e : Expr) : e.numbers = e.children.flatMap numbers ++ [e.number] := by
  rw [numbers, postorder_eq, List.map_append, List.map_flatMap, List.map_singleton]
  rfl

theorem gaps_eq (e : Expr) : e.gaps = e.children.flatMap gaps ++ e.dropped?.toList := by
  have last : [e].filterMap dropped? = e.dropped?.toList := by
    cases found : e.dropped? <;> simp [found]
  rw [gaps, postorder_eq, List.filterMap_append, List.filterMap_flatMap, last]
  rfl

theorem madeAll_eq_flatMap (exprs : List Expr) : madeAll exprs = exprs.flatMap made := by
  induction exprs with
  | nil => rfl
  | cons expr exprs ih => rw [madeAll, List.flatMap_cons, ih]

theorem made_eq (e : Expr) : e.dropped? = none ∧ e.made = e.children.flatMap made ++ [e.number] ∨
    ∃ site operator target value, e = assignment site operator target value ∧
      e.made = target.made ++ [target.number + 1] ++ value.made ++ [e.number] := by
  cases e with
  | assignment => exact Or.inr ⟨_, _, _, _, rfl, by rw [made]⟩
  | literal | reference | call | unary | binary | paren | atom | conversion | condition =>
      refine Or.inl ⟨rfl, ?_⟩
      simp [made, children, madeAll_eq_flatMap]

theorem numbers_sublist_made (e : Expr) : e.numbers <+ e.made := by
  induction e using childInd with
  | node e ih =>
      have below : e.children.flatMap numbers ++ [e.number] <+
          e.children.flatMap made ++ [e.number] :=
        (List.Sublist.flatMap_right _ ih).append_right _
      rw [numbers_eq]
      rcases e.made_eq with ⟨-, same⟩ | ⟨site, operator, target, value, rfl, same⟩
      · rwa [same]
      · refine below.trans ?_
        rw [same]
        simp [children]

theorem made_perm (e : Expr) : e.made ~ e.numbers ++ e.gaps := by
  induction e using childInd with
  | node e ih =>
      have below : e.children.flatMap made ~
          e.children.flatMap numbers ++ e.children.flatMap gaps :=
        (List.Perm.flatMap_left _ ih).trans (List.flatMap_append_perm _ _ _).symm
      have level : e.made ~ e.children.flatMap made ++ e.dropped?.toList ++ [e.number] := by
        rcases e.made_eq with ⟨nothing, same⟩ | ⟨site, operator, target, value, rfl, same⟩
        · rw [same, nothing, Option.toList_none, List.append_nil]
        · have swap : [target.number + 1] ++ value.made ~ value.made ++ [target.number + 1] :=
            List.perm_append_comm
          rw [same]
          simpa [children, dropped?] using (swap.append_left target.made).append_right [number _]
      calc e.made
        _ ~ e.children.flatMap made ++ e.dropped?.toList ++ [e.number] := level
        _ ~ e.children.flatMap numbers ++ e.children.flatMap gaps ++ e.dropped?.toList ++
            [e.number] :=
          (below.append_right _).append_right _
        _ ~ e.numbers ++ e.gaps := by
          rw [numbers_eq, gaps_eq]
          simp only [List.append_assoc]
          refine List.Perm.append_left _ ?_
          rw [← List.append_assoc]
          exact List.perm_append_comm

end Expr

/-- The numbers given out while the count of nodes went from `start` to `stop`. As long as the count
fits into 32 bits, they are those from `start` on. -/
structure GivenOut (numbers : List Nat) (start stop : Nat) : Prop where
  count : stop = start + numbers.length
  inTurn : stop ≤ UInt32.size → numbers = List.range' start numbers.length

namespace GivenOut

theorem nil (start : Nat) : GivenOut [] start start :=
  ⟨rfl, fun _ => rfl⟩

theorem append {first second : List Nat} {start middle stop : Nat}
    (early : GivenOut first start middle) (late : GivenOut second middle stop) :
    GivenOut (first ++ second) start stop where
  count := by rw [late.count, early.count, List.length_append, Nat.add_assoc]
  inTurn few := by
    have fewer : middle ≤ UInt32.size := by
      have := late.count
      omega
    rw [List.length_append, ← List.range'_append_1, ← early.count, ← early.inTurn fewer,
      ← late.inTurn few]

theorem singleton {number start : Nat} (same : start < UInt32.size → number = start) :
    GivenOut [number] start (start + 1) := by
  refine ⟨rfl, fun few => ?_⟩
  rw [same few]
  rfl

/-- A node gets the number of nodes before it. -/
theorem fresh (start : Nat) : GivenOut [(UInt32.ofNat start).toNat] start (start + 1) :=
  singleton UInt32.toNat_ofNat_of_lt'

end GivenOut

/-- A number that comes right after another may be named by it. -/
theorem GivenOut.pair {first second start stop : Nat}
    (given : GivenOut [first, second] start stop) : GivenOut [first, first + 1] start stop := by
  refine ⟨given.count, fun few => ?_⟩
  have turn : [first, second] = [start, start + 1] := given.inTurn few
  cases turn
  rfl

/-- The numbers given out for the parts come before that of the node, and that of its atom node
after it. -/
theorem Production.givenOut {production : Production} {parts : Parts production.items}
    {numbers : List Nat} {start : Nat} {between : Cursor}
    (before : GivenOut numbers start between.nodes)
    (inner : ∀ site, (production.build parts site).made = numbers ++ [site.id.number.toNat])
    (first : Span) :
    GivenOut (production.made first parts between).made start
      (between.numbered production.nodes).nodes := by
  unfold made node nodes
  split
  · rw [Expr.made, inner]
    exact (before.append (.fresh between.nodes)).append (.fresh (between.nodes + 1))
  · rw [inner]
    exact before.append (.fresh between.nodes)

theorem LeadingRule.Takes.made_build {rule : LeadingRule} {token : Token} {production : Production}
    (takes : rule.Takes token production) (parts : Parts production.items) (site : Site) :
    (production.build parts site).made =
      (Parts.exprs production.items parts).flatMap Expr.made ++ [site.id.number.toNat] := by
  have own : (production.build parts site).number = site.id.number.toNat := by
    rw [Expr.number, Expr.id, takes.site_build]
  rw [← takes.children_build parts site, ← own]
  rcases (production.build parts site).made_eq with ⟨-, same⟩ | ⟨_, _, _, _, assigns, -⟩
  · exact same
  · cases takes <;> cases assigns

namespace Grammar

section Parts

variable {reads : BindingPower → Expr → Cursor → Cursor → Prop}
  (each : ∀ {power expr cursor after}, reads power expr cursor after →
    GivenOut expr.made cursor.nodes after.nodes)
  {cursor after : Cursor}

include each

theorem Listed.givenOut {exprs : List Expr} (listed : Listed reads exprs cursor after) :
    GivenOut (exprs.flatMap Expr.made) cursor.nodes after.nodes := by
  induction listed with
  | nil => exact .nil _
  | last read => simpa using each read
  | next read _ _ ih => exact (each read).append ih

theorem ItemRead.givenOut {item : Item} {part : item.Part}
    (read : ItemRead reads item part cursor after) :
    GivenOut ((item.exprs part).flatMap Expr.made) cursor.nodes after.nodes := by
  cases read with
  | openParen | closeParen => exact .nil _
  | operand read => simpa [Item.exprs] using each read
  | arguments listed => exact listed.givenOut each

theorem PartsRead.givenOut {items : List Item} {parts : Parts items}
    (read : PartsRead reads items parts cursor after) :
    GivenOut ((Parts.exprs items parts).flatMap Expr.made) cursor.nodes after.nodes := by
  induction read with
  | nil => exact .nil _
  | cons one _ ih =>
      rw [Parts.exprs, List.flatMap_append]
      exact (one.givenOut each).append ih

end Parts

/-- The numbers of an expression that was read are those given out in between, and each node comes
after its parts. -/
theorem Reads.givenOut {power : BindingPower} {expr : Expr} {cursor after : Cursor}
    (reads : Reads power expr cursor after) : GivenOut expr.made cursor.nodes after.nodes := by
  refine Reads.ind ?leading ?trailing reads
  case leading =>
    intro _ _ production parts cursor between takes read
    exact Production.givenOut (read.givenOut id) (takes.made_build parts) _
  case trailing =>
    intro _ _ _ production parts left start cursor between before given takes _ read
    have behind := read.givenOut id
    cases takes with
    | binary =>
        refine Production.givenOut (given.append behind) (fun site => ?_) _
        rw [Expr.made, Parts.exprs, Item.exprs, Parts.exprs, List.append_nil,
          List.flatMap_singleton]
        rfl
    | assignment _ known =>
        -- the atom node around the target is made before the value is read, and dropped
        obtain ⟨_, _, rfl⟩ := before.target known
        rw [Expr.made, Expr.made] at given
        refine Production.givenOut (given.pair.append behind) (fun site => ?_) _
        rw [Expr.made, Parts.exprs, Item.exprs, Parts.exprs, List.append_nil,
          List.flatMap_singleton]
        rfl

end Grammar

namespace Expr

theorem mem_numbers_iff {k : Nat} {e : Expr} :
    k ∈ e.numbers ↔ ∃ node : Expr, node.Within e ∧ node.number = k := by
  simp only [numbers, List.mem_map, mem_postorder_iff]

theorem mem_gaps_iff {k : Nat} {e : Expr} : k ∈ e.gaps ↔
    ∃ site operator target value, (assignment site operator target value).Within e ∧
      k = target.number + 1 := by
  simp only [gaps, List.mem_filterMap, mem_postorder_iff]
  constructor
  · rintro ⟨node, within, found⟩
    cases node with
    | assignment site operator target value =>
        cases found
        exact ⟨site, operator, target, value, within, rfl⟩
    | literal | reference | call | unary | binary | paren | atom | conversion | condition =>
        cases found
  · rintro ⟨site, operator, target, value, within, rfl⟩
    exact ⟨_, within, rfl⟩

theorem Within.number_lt {outer child inner : Expr} (ascending : outer.numbers.Pairwise (· < ·))
    (member : child ∈ outer.children) (within : inner.Within child) :
    inner.number < outer.number := by
  rw [numbers_eq] at ascending
  have below : inner.number ∈ outer.children.flatMap numbers :=
    List.mem_flatMap.2 ⟨child, member, mem_numbers_iff.2 ⟨inner, within, rfl⟩⟩
  exact (List.pairwise_append.1 ascending).2.2 _ below _ List.mem_cons_self

structure NumberedInPostorder (e : Expr) : Prop where
  ascending : e.numbers.Pairwise (· < ·)
  root_greatest : ∀ node : Expr, node.Within e → node.number ≤ e.number
  -- the atom node around the target of an assignment is made, numbered and dropped
  occurring : ∀ k, (∃ node : Expr, node.Within e ∧ node.number = k) ↔
    k ≤ e.number ∧ ∀ site operator target value,
      (assignment site operator target value).Within e → k ≠ target.number + 1
  distinct : e.numbers.Nodup
  above_parts : ∀ outer child inner : Expr, outer.Within e → child ∈ outer.children →
    inner.Within child → inner.number < outer.number

theorem made_eq_concat (e : Expr) : ∃ front, e.made = front ++ [e.number] := by
  rcases e.made_eq with ⟨-, same⟩ | ⟨site, operator, target, value, -, same⟩
  · exact ⟨_, same⟩
  · exact ⟨_, same⟩

theorem numberedInPostorder_of_made {e : Expr} {count : Nat}
    (made : e.made = List.range' 0 count) : e.NumberedInPostorder := by
  have total : count = e.number + 1 := by
    obtain ⟨front, ends⟩ := e.made_eq_concat
    have length := congrArg List.length made
    rw [ends, List.length_append, List.length_singleton, List.length_range'] at length
    rw [ends, ← length, List.range'_1_concat] at made
    have same := List.append_inj_right' made rfl
    rw [List.singleton_inj] at same
    omega
  have ascending : e.numbers.Pairwise (· < ·) := by
    refine List.Pairwise.sublist e.numbers_sublist_made ?_
    rw [made]
    exact List.pairwise_lt_range'
  have apart : (e.numbers ++ e.gaps).Nodup := by
    rw [← e.made_perm.nodup_iff, made]
    exact List.nodup_range'
  have given (k : Nat) : k ∈ e.numbers ∨ k ∈ e.gaps ↔ k ≤ e.number := by
    rw [← List.mem_append, ← e.made_perm.mem_iff, made, List.mem_range'_1]
    omega
  refine ⟨ascending, ?_, ?_, ?_, ?_⟩
  · intro node within
    exact (given _).1 (Or.inl (mem_numbers_iff.2 ⟨node, within, rfl⟩))
  · intro k
    rw [← mem_numbers_iff, ← given k]
    constructor
    · intro member
      refine ⟨Or.inl member, ?_⟩
      intro site operator target value within same
      have gap := mem_gaps_iff.2 ⟨site, operator, target, value, within, same⟩
      exact (List.nodup_append.1 apart).2.2 k member k gap rfl
    · rintro ⟨member | gap, outside⟩
      · exact member
      · obtain ⟨site, operator, target, value, within, same⟩ := mem_gaps_iff.1 gap
        exact absurd same (outside site operator target value within)
  · exact ascending.imp Nat.ne_of_lt
  · intro outer child inner within
    refine Within.number_lt ?_
    exact List.Pairwise.sublist (within.postorder_sublist.map number) ascending

end Expr

/-- How many nodes were made when a reading came to its end. -/
def Reading.nodesMade {α : Type} (reading : Reading α) (tokens : List Token) : Nat :=
  match reading.run (Cursor.ofTokens tokens) with
  | .ok _ after | .error _ after => after.nodes

/-- The nodes of an expression that tokens are read as are numbered in postorder, unless so many
were made that the numbers start again. -/
theorem Expr.ofTokens_postorder {tokens : List Token} {e : Expr}
    (accepted : Expr.ofTokens tokens = .ok e)
    (few : Grammar.standard.readAll.nodesMade tokens < UInt32.size) : e.NumberedInPostorder := by
  obtain ⟨after, run, reads, -⟩ := Expr.reads_of_ofTokens accepted
  rw [Reading.nodesMade, run] at few
  have given := reads.givenOut
  rw [Cursor.nodes_ofTokens] at given
  exact numberedInPostorder_of_made (given.inTurn (Nat.le_of_lt few))

/-- `$x += f(-1) - ($y += 2)`, with an assignment inside another. -/
theorem Expr.ofTokens_postorder_nested :
    let tokens := [(.variableName, "$x"), (.plusEquals, "+="), (.identifier, "f"),
      (.openParen, "("), (.dash, "-"), (.number, "1"), (.closeParen, ")"), (.dash, "-"),
      (.openParen, "("), (.variableName, "$y"), (.plusEquals, "+="), (.number, "2"),
      (.closeParen, ")")].map fun entry => (⟨entry.1, entry.2, Span.point 0⟩ : Token)
    ∃ e, Expr.ofTokens tokens = .ok e ∧ Grammar.standard.readAll.nodesMade tokens < UInt32.size ∧
      e.numbers = [0, 2, 3, 4, 5, 6, 7, 9, 10, 11, 12, 13, 14] ∧ e.NumberedInPostorder := by
  intro tokens
  have numbers : (Expr.ofTokens tokens).toOption.map Expr.numbers =
      some [0, 2, 3, 4, 5, 6, 7, 9, 10, 11, 12, 13, 14] := by
    decide +kernel
  have few : Grammar.standard.readAll.nodesMade tokens < UInt32.size := by decide +kernel
  cases read : Expr.ofTokens tokens with
  | error report =>
      rw [read] at numbers
      cases numbers
  | ok e =>
      rw [read] at numbers
      exact ⟨e, rfl, few, Option.some.inj numbers, Expr.ofTokens_postorder read few⟩

end DialogueTyping
