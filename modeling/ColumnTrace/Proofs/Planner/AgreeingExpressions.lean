import ColumnTrace.Planner.Grouping
import ColumnTrace.Proofs.Planner.AgreeingRuns

/-!
# Expressions that are planned alike

An expression, a select list and the groups of a query are planned through a resolver, which is
asked for parts of their trees only. So where two resolvers agree on all trees up to a height, they
give expressions, select lists and groups that agree one height up (`Resolver.agrees_step`,
`Resolver.Agrees.selectList`, `Resolver.Agrees.aggregate`).
-/

set_option autoImplicit false

namespace ColumnTrace

variable {base : Context} {names : List String} {height : Nat}

/-- Queries up to a height that name tables of a list only are planned alike. -/
def AgreeOnQueries (base : Context) (names : List String) (height : Nat)
    (first second : Scope → Sql.Node → Planner Plan) : Prop :=
  ∀ scope node, node.Fits names height → Planner.Agrees base (first scope node) (second scope node)

namespace Resolver

open Planner

/-- Expressions up to a height that name tables of a list only are planned alike. -/
def Agrees (base : Context) (names : List String) (height : Nat) (first second : Resolver) :
    Prop :=
  ∀ scope node, node.Fits names height →
    Projecting.Agrees base (first scope node) (second scope node)

section
variable {P : Sql.Node → Prop} (hP : ∀ n, P n → n.Passes P)
include hP

/-- The key of a term of an order has the property. -/
theorem all_sortKey {term : Sql.Value} (h : term.All P) : (sortKey term).All P := by
  unfold sortKey
  split
  · next ordered hordered =>
    obtain ⟨hnode, -⟩ := Option.filter_eq_some_iff.1 hordered
    exact (hP ordered (h ordered hnode)).arg "this"
  · exact h

/-- The terms of a window's order have the property. -/
theorem all_orderTerms {window : Sql.Node} (h : window.Passes P) {terms : List Sql.Value}
    (hterms : orderTerms window = .ok terms) : ∀ term ∈ terms, term.All P := by
  unfold orderTerms at hterms
  dsimp only at hterms
  split at hterms
  · obtain ⟨order, horder, hterms⟩ := exists_of_bind_eq_ok hterms
    obtain ⟨items, hitems, hterms⟩ := exists_of_bind_eq_ok hterms
    obtain rfl := Except.ok.inj hterms
    intro term hterm
    obtain ⟨item, hitem, rfl⟩ := List.mem_map.1 hterm
    have horder : P order := (h.arg "order").toNode horder
    exact all_sortKey hP ((hP order horder).items hitems item hitem)
  · obtain rfl := Except.ok.inj hterms
    exact fun term hterm => absurd hterm List.not_mem_nil

/-- The expression of an entry has the property. -/
theorem all_computed {entry : Sql.Value} (h : entry.All P) : (computed entry).All P := by
  unfold computed
  split
  · next named hnamed =>
    obtain ⟨hnode, -⟩ := Option.filter_eq_some_iff.1 hnamed
    exact (hP named (h named hnode)).arg "this"
  · exact h

end

variable {first second : Resolver}

section
variable (h : Agrees base names height first second) (scope : Scope)
include h

theorem Agrees.value {v : Sql.Value} (hv : v.Fits names height) :
    Projecting.Agrees base (first.value scope v) (second.value scope v) :=
  Projecting.agrees_ofExcept_bind fun node hnode => h scope node (hv.toNode hnode)

theorem Agrees.plain {v : Sql.Value} (hv : v.Fits names height) :
    Planner.Agrees base (first.plain scope v) (second.plain scope v) :=
  (h.value scope hv).value

/-! ## Expressions -/

/-- A window function is planned alike. -/
theorem Agrees.windowAlias {node : Sql.Node} (hnode : node.Fits names (height + 1))
    (before : Nat) : Planner.Agrees base (first.windowAlias scope node before)
      (second.windowAlias scope node before) := by
  apply (h.plain scope (hnode.arg "this")).bind
  intro function
  apply agrees_ofExcept_bind
  intro partition hpartition
  apply (agrees_mapM fun term hterm =>
    h.plain scope (hnode.items hpartition term hterm)).bind
  intro partition
  apply agrees_ofExcept_bind
  intro order horder
  apply (agrees_mapM fun term hterm => h.plain scope
    (all_orderTerms Sql.Node.Fits.passes_of_le hnode.passes horder term hterm)).bind
  exact fun order => agrees_refl _

/-- A window is planned alike. -/
theorem Agrees.window {node : Sql.Node} (hnode : node.Fits names (height + 1)) :
    Projecting.Agrees base (first.window scope node) (second.window scope node) := by
  intro windows
  cases windows with
  | none =>
    show Planner.Agrees base (Planner.fail _) (Planner.fail _)
    exact agrees_refl _
  | some taken =>
    exact (h.windowAlias scope hnode taken.length).bind fun function => agrees_refl _

/-- A count of rows is planned alike. -/
theorem Agrees.count {node : Sql.Node} (hnode : node.Fits names (height + 1)) :
    Projecting.Agrees base (first.count scope node) (second.count scope node) := by
  apply Projecting.agrees_ofExcept_bind
  intro counted hcounted
  cases counted with
  | none => exact Projecting.agrees_refl _
  | some arg =>
    have harg : arg.Fits names height := (hnode.arg "this").nodeIfThere hcounted
    dsimp only
    split
    · apply Projecting.agrees_ofExcept_bind
      intro items hitems
      apply (Projecting.agrees_mapM fun item hitem =>
        h.value scope (harg.items_of_le hitems item hitem)).bind
      exact fun args => Projecting.agrees_refl _
    split
    · exact Projecting.agrees_refl _
    · exact (h scope arg harg).bind fun e => Projecting.agrees_refl _

end

/-- One level of an expression is planned alike where its parts and the queries in it are. -/
theorem agrees_step {query query' : Scope → Sql.Node → Planner Plan}
    (hquery : AgreeOnQueries base names (height + 1) query query')
    (h : Agrees base names height first second) :
    Agrees base names (height + 1) (Resolver.step query first) (Resolver.step query' second) := by
  intro scope node hnode
  rw [Resolver.step, Resolver.step]
  split
  · exact Projecting.agrees_refl _
  split
  · exact Projecting.agrees_refl _
  split
  · exact (Projecting.agrees_lift (hquery scope node hnode)).bind fun _ => Projecting.agrees_refl _
  split
  · exact (h.window scope hnode).bind fun _ => Projecting.agrees_refl _
  split
  · exact h.count scope hnode
  split
  · exact h.value scope (hnode.arg "this")
  split
  · exact Projecting.agrees_refl _
  · apply (Projecting.agrees_mapM fun child hchild => h scope child (hnode.child hchild)).bind
    exact fun args => Projecting.agrees_refl _

/-! ## Select lists -/

section
variable (h : Agrees base names height first second) (scope : Scope)
include h

/-- An entry of a select list is planned alike. -/
theorem Agrees.selectItems {entry : Sql.Value} (hentry : entry.Fits names height) :
    Projecting.Agrees base (first.selectItems scope entry) (second.selectItems scope entry) := by
  apply Projecting.agrees_ofExcept_bind
  intro node hread
  have hnode : node.Fits names height := hentry.toNode hread
  split
  · exact Projecting.agrees_refl _
  split
  · exact (h.value scope (hnode.arg_of_le "this")).bind fun e => Projecting.agrees_refl _
  · exact (h scope node hnode).bind fun e => Projecting.agrees_refl _

variable {select : Sql.Node} (hselect : select.Fits names (height + 1))
include hselect

/-- A select list is planned alike. -/
theorem Agrees.selectList :
    Projecting.Agrees base (first.selectList scope select) (second.selectList scope select) := by
  apply Projecting.agrees_ofExcept_bind
  intro entries hentries
  apply (Projecting.agrees_mapM fun entry hentry =>
    h.selectItems scope (hselect.items hentries entry hentry)).bind
  exact fun lists => Projecting.agrees_refl _

theorem Agrees.plainSelectList : Planner.Agrees base (first.plainSelectList scope select)
    (second.plainSelectList scope select) :=
  (h.selectList scope hselect).value

/-! ## Groups -/

/-- The entry at a position is planned alike. -/
theorem Agrees.entryAt (position : Int) : Planner.Agrees base (first.entryAt select scope position)
    (second.entryAt select scope position) := by
  apply agrees_ofExcept_bind
  intro entries hentries
  dsimp only
  split
  · exact agrees_refl _
  · next entry hentry =>
    have hmem : entry ∈ entries := by
      split at hentry
      · exact List.mem_of_getElem? hentry
      · cases hentry
    exact h.plain scope (all_computed Sql.Node.Fits.passes_of_le
      (hselect.items hentries entry hmem))

/-- A term of a `GROUP BY` clause is planned alike. -/
theorem Agrees.groupingTerm {term : Sql.Value} (hterm : term.Fits names height) :
    Planner.Agrees base (first.groupingTerm select scope term)
      (second.groupingTerm select scope term) := by
  have hplain : Planner.Agrees base (first.plain scope term) (second.plain scope term) :=
    h.plain scope hterm
  rw [Resolver.groupingTerm, Resolver.groupingTerm]
  split
  · exact hplain
  split
  · exact agrees_bind fun position => h.entryAt scope hselect position
  split
  · apply agrees_ofExcept_bind
    intro found hfound
    cases found with
    | some a => exact hplain
    | none =>
      apply agrees_ofExcept_bind
      intro named hnamed
      split
      · next projection hprojection =>
        have hfits : projection.Fits names height :=
          hselect.listed hnamed projection (List.mem_of_find?_eq_some hprojection)
        exact h.plain scope (hfits.arg_of_le "this")
      · exact hplain
  · exact hplain

/-- The members of a grouping set are planned alike. -/
theorem Agrees.groupingMembers {terms : List Sql.Value}
    (hterms : ∀ term ∈ terms, term.Fits names height) :
    Planner.Agrees base (first.groupingMembers select scope terms)
      (second.groupingMembers select scope terms) := by
  apply (agrees_mapM fun term hterm => h.groupingTerm scope hselect (hterms term hterm)).bind
  exact fun members => agrees_refl _

/-- An expansion by grouping sets is planned alike. -/
theorem Agrees.groupingSets (child : Plan) {sets : List (List Sql.Value)}
    (hsets : ∀ set ∈ sets, ∀ term ∈ set, term.Fits names height) :
    Planner.Agrees base (first.groupingSets select scope child sets)
      (second.groupingSets select scope child sets) := by
  apply (agrees_mapM fun set hset => h.groupingMembers scope hselect (hsets set hset)).bind
  intro members
  refine agrees_bind fun copies => agrees_bind fun number => ?_
  exact (h.plainSelectList scope hselect).bind fun items => agrees_refl _

/-- A grouped query is planned alike. -/
theorem Agrees.aggregate (child : Plan) : Planner.Agrees base (first.aggregate select scope child)
    (second.aggregate select scope child) := by
  apply agrees_ofExcept_bind
  intro windows hwindows
  split
  · exact agrees_fail_bind _ _ _
  apply agrees_ofExcept_bind
  intro sets hsets
  cases sets with
  | some sets =>
    have hfits := hselect.passes.groupingSets Sql.Node.Fits.passes_of_le hsets
    exact h.groupingSets scope hselect child hfits
  | none =>
    apply agrees_ofExcept_bind
    intro terms hterms
    have hfits : ∀ term ∈ terms, term.Fits names height :=
      hselect.passes.groupExpressions Sql.Node.Fits.passes_of_le hterms
    apply (agrees_mapM fun term hterm => h.groupingTerm scope hselect (hfits term hterm)).bind
    intro grouping
    exact (h.plainSelectList scope hselect).bind fun items => agrees_refl _

end

end Resolver

end ColumnTrace
