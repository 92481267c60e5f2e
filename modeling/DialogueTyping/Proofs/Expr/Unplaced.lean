import DialogueTyping.Proofs.Expr.Subexpression

set_option autoImplicit false

namespace DialogueTyping

def Site.unplaced (site : Site) : Site := ⟨site.id, .point 0⟩

namespace Expr

mutual

/-- The expression without the bytes that its nodes were read from. -/
def unplaced : Expr → Expr
  | literal site value => literal site.unplaced value
  | reference site name => reference site.unplaced name
  | call site name arguments => call site.unplaced name (unplacedAll arguments)
  | unary site operator operand => unary site.unplaced operator operand.unplaced
  | binary site operator left right =>
    binary site.unplaced operator left.unplaced right.unplaced
  | assignment site operator target value =>
    assignment site.unplaced operator target.unplaced value.unplaced
  | paren site inner => paren site.unplaced inner.unplaced
  | atom site inner => atom site.unplaced inner.unplaced
  | conversion site target body => conversion site.unplaced target body.unplaced
  | condition site clause body => condition site.unplaced clause body.unplaced

def unplacedAll : List Expr → List Expr
  | [] => []
  | expr :: exprs => expr.unplaced :: unplacedAll exprs

end

mutual

def mapSites (f : Site → Site) : Expr → Expr
  | literal site value => literal (f site) value
  | reference site name => reference (f site) name
  | call site name arguments => call (f site) name (mapSitesAll f arguments)
  | unary site operator operand => unary (f site) operator (operand.mapSites f)
  | binary site operator left right =>
    binary (f site) operator (left.mapSites f) (right.mapSites f)
  | assignment site operator target value =>
    assignment (f site) operator (target.mapSites f) (value.mapSites f)
  | paren site inner => paren (f site) (inner.mapSites f)
  | atom site inner => atom (f site) (inner.mapSites f)
  | conversion site target body => conversion (f site) target (body.mapSites f)
  | condition site clause body => condition (f site) clause (body.mapSites f)

def mapSitesAll (f : Site → Site) : List Expr → List Expr
  | [] => []
  | expr :: exprs => expr.mapSites f :: mapSitesAll f exprs

end

theorem mapSitesAll_append (f : Site → Site) (first second : List Expr) :
    mapSitesAll f (first ++ second) = mapSitesAll f first ++ mapSitesAll f second := by
  induction first with
  | nil => rfl
  | cons expr exprs ih => rw [List.cons_append, mapSitesAll, mapSitesAll, ih, List.cons_append]

theorem unwrapped_mapSites (f : Site → Site) (e : Expr) :
    (e.mapSites f).unwrapped = e.unwrapped.mapSites f := by
  induction e using Expr.ind with
  | atom site inner ih => simpa only [mapSites, unwrapped] using ih
  | _ => simp only [mapSites, unwrapped]

theorem reference?_mapSites (f : Site → Site) (e : Expr) :
    (e.mapSites f).reference? = e.reference? := by
  rw [reference?, reference?, unwrapped_mapSites]
  cases e.unwrapped <;> simp only [mapSites]

theorem unplacedAll_eq {exprs : List Expr}
    (each : ∀ expr ∈ exprs, expr.unplaced = expr.mapSites Site.unplaced) :
    unplacedAll exprs = mapSitesAll Site.unplaced exprs := by
  induction exprs with
  | nil => rfl
  | cons expr exprs ih =>
      obtain ⟨first, rest⟩ := List.forall_mem_cons.1 each
      rw [unplacedAll, mapSitesAll, first, ih rest]

theorem unplaced_eq (e : Expr) : e.unplaced = e.mapSites Site.unplaced := by
  induction e using Expr.ind with
  | call site name arguments ih => rw [unplaced, mapSites, unplacedAll_eq ih]
  | literal | reference => rw [unplaced, mapSites]
  | unary _ _ _ ih | paren _ _ ih | atom _ _ ih | conversion _ _ _ ih | condition _ _ _ ih =>
      rw [unplaced, mapSites, ih]
  | binary _ _ _ _ left right | assignment _ _ _ _ left right =>
      rw [unplaced, mapSites, left, right]

theorem length_unplacedAll (exprs : List Expr) : (unplacedAll exprs).length = exprs.length := by
  induction exprs with
  | nil => rfl
  | cons expr exprs ih => rw [unplacedAll, List.length_cons, List.length_cons, ih]

theorem site_unplaced (e : Expr) : e.unplaced.site = e.site.unplaced := by
  cases e <;> rw [unplaced] <;> rfl

theorem call?_unplaced (e : Expr) :
    e.unplaced.call? = e.call?.map fun called => (called.1, unplacedAll called.2) := by
  have unwraps : e.unplaced.unwrapped = e.unwrapped.unplaced := by
    rw [unplaced_eq, unplaced_eq, unwrapped_mapSites]
  rw [call?, call?, unwraps]
  cases e.unwrapped <;> simp only [unplaced, Option.map_some, Option.map_none]

end Expr

end DialogueTyping
