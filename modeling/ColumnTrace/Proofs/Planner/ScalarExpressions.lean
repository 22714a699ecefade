import ColumnTrace.Planner.SelectList
import ColumnTrace.Planner.Query
import ColumnTrace.Proofs.FittingTrees
import ColumnTrace.Proofs.Planner.Ensures

/-!
# Scalar expressions

An expression of columns, literals and scalar functions is resolved exactly where the scope has all
its columns (`Sql.Node.IsScalar.resolvesIff`), and resolving it takes out no window function. What a
computation succeeds under is put together from its parts (`Planner.SucceedsIff`,
`Projecting.SucceedsIff`).
-/

set_option autoImplicit false

namespace ColumnTrace

/-! ## When computations succeed -/

variable {α β γ : Type} {context : Context} {P Q : Prop}

namespace Planner

/-- The computation gives a value exactly under the condition. -/
def SucceedsIff (context : Context) (P : Prop) (x : Planner α) : Prop :=
  ∀ numbers, (∃ a, (x context numbers).result = .ok a) ↔ P

/-- A value takes out no window function. -/
theorem succeedsIff_pure (a : α) : SucceedsIff context True (pure a) :=
  fun _ => iff_true_intro ⟨a, rfl⟩

/-- A result that needs no context is a value if it is one. -/
theorem succeedsIff_ofExcept (r : Except PlanningError α) :
    SucceedsIff context (∃ a, r = .ok a) (ofExcept r) := by
  intro numbers
  cases r <;> rfl

/-- A node whose text is known is written. -/
theorem succeedsIff_write {n : Sql.Node} (h : n.facts.sql.isSome = true) :
    SucceedsIff context True (write n) := by
  obtain ⟨sql, hsql⟩ := Option.isSome_iff_exists.1 h
  refine fun numbers => iff_true_intro ⟨sql, ?_⟩
  rw [write, context_bind_apply, Sql.Node.write, hsql]
  rfl

theorem succeedsIff_freshId : SucceedsIff context True freshId :=
  fun _ => iff_true_intro ⟨_, rfl⟩

/-- The condition may be said in another way. -/
theorem SucceedsIff.congr {x : Planner α} (h : SucceedsIff context P x) (hPQ : P ↔ Q) :
    SucceedsIff context Q x :=
  fun numbers => (h numbers).trans hPQ

/-- Two steps have a value if both have. -/
theorem SucceedsIff.bind {x : Planner α} {f : α → Planner β} (h : SucceedsIff context P x)
    (hf : ∀ a, SucceedsIff context Q (f a)) : SucceedsIff context (P ∧ Q) (x >>= f) := by
  intro numbers
  simp only [result_bind_eq_ok]
  constructor
  · rintro ⟨b, a, ha, hb⟩
    exact ⟨(h numbers).1 ⟨a, ha⟩, (hf a _).1 ⟨b, hb⟩⟩
  · rintro ⟨hP, hQ⟩
    obtain ⟨a, ha⟩ := (h numbers).2 hP
    obtain ⟨b, hb⟩ := (hf a _).2 hQ
    exact ⟨b, a, ha, hb⟩

/-- What is run on a list has values if it has one on each member. -/
theorem succeedsIff_mapM {f : γ → Planner α} {P : γ → Prop} {xs : List γ}
    (h : ∀ x ∈ xs, SucceedsIff context (P x) (f x)) :
    SucceedsIff context (∀ x ∈ xs, P x) (xs.mapM f) := by
  induction xs with
  | nil => exact (succeedsIff_pure []).congr (by simp)
  | cons x rest ih =>
    rw [List.mapM_cons]
    have hrest := ih fun y hy => h y (List.mem_cons_of_mem x hy)
    refine ((h x List.mem_cons_self).bind fun a =>
      hrest.bind fun as => succeedsIff_pure (a :: as)).congr ?_
    rw [and_true, List.forall_mem_cons]

end Planner

namespace Projecting

theorem ofExcept_ok_bind (a : α) (f : α → Projecting β) :
    (((Planner.ofExcept (.ok a) : Planner α) : Projecting α) >>= f) = f a := rfl

/-- The computation gives a value exactly under the condition, and takes out no window function. -/
def SucceedsIff (context : Context) (P : Prop) (x : Projecting α) : Prop :=
  ∀ windows numbers, ((∃ r, (x.run windows context numbers).result = .ok r) ↔ P) ∧
    ∀ r, (x.run windows context numbers).result = .ok r → r.2 = windows

theorem succeedsIff_pure (a : α) : SucceedsIff context True (pure a) := by
  refine fun windows numbers => ⟨iff_true_intro ⟨(a, windows), rfl⟩, ?_⟩
  rintro _ ⟨⟩
  rfl

/-- Planning without window functions succeeds alike where they are allowed. -/
theorem succeedsIff_lift {x : Planner α} (h : x.SucceedsIff context P) :
    SucceedsIff context P (liftM x) := by
  intro windows numbers
  have hlift : ∀ r, ((liftM x : Projecting α).run windows context numbers).result = .ok r ↔
      ∃ a, (x context numbers).result = .ok a ∧ (a, windows) = r := by
    intro r
    show ((x >>= fun a => pure (a, windows)) context numbers).result = .ok r ↔ _
    simp only [Planner.result_bind_eq_ok, Planner.pure_apply, Except.ok.injEq]
  simp only [hlift]
  constructor
  · rw [← h numbers]
    constructor
    · rintro ⟨r, a, ha, -⟩
      exact ⟨a, ha⟩
    · rintro ⟨a, ha⟩
      exact ⟨_, a, ha, rfl⟩
  · rintro r ⟨a, -, rfl⟩
    rfl

/-- The condition may be said in another way. -/
theorem SucceedsIff.congr {x : Projecting α} (h : SucceedsIff context P x) (hPQ : P ↔ Q) :
    SucceedsIff context Q x :=
  fun windows numbers => ⟨(h windows numbers).1.trans hPQ, (h windows numbers).2⟩

/-- Two steps have a value if both have, and take out no window function. -/
theorem SucceedsIff.bind {x : Projecting α} {f : α → Projecting β} (h : SucceedsIff context P x)
    (hf : ∀ a, SucceedsIff context Q (f a)) : SucceedsIff context (P ∧ Q) (x >>= f) := by
  intro windows numbers
  have hbind : ∀ r, ((x >>= f).run windows context numbers).result = .ok r ↔
      ∃ s, (x.run windows context numbers).result = .ok s ∧
        ((f s.1).run s.2 context (x.run windows context numbers).numbers).result = .ok r :=
    fun r => Planner.result_bind_eq_ok
  simp only [hbind]
  constructor
  · constructor
    · rintro ⟨r, s, hs, hr⟩
      exact ⟨(h windows numbers).1.1 ⟨s, hs⟩, (hf s.1 _ _).1.1 ⟨r, hr⟩⟩
    · rintro ⟨hP, hQ⟩
      obtain ⟨s, hs⟩ := (h windows numbers).1.2 hP
      obtain ⟨r, hr⟩ := (hf s.1 s.2 _).1.2 hQ
      exact ⟨r, s, hs, hr⟩
  · rintro r ⟨s, hs, hr⟩
    rw [(hf s.1 _ _).2 r hr, (h windows numbers).2 s hs]

/-- What is run on a list has values if it has one on each member, and takes out no window function.
-/
theorem succeedsIff_mapM {f : γ → Projecting α} {P : γ → Prop} {xs : List γ}
    (h : ∀ x ∈ xs, SucceedsIff context (P x) (f x)) :
    SucceedsIff context (∀ x ∈ xs, P x) (xs.mapM f) := by
  induction xs with
  | nil => exact (succeedsIff_pure []).congr (by simp)
  | cons x rest ih =>
    rw [List.mapM_cons]
    have hrest := ih fun y hy => h y (List.mem_cons_of_mem x hy)
    refine ((h x List.mem_cons_self).bind fun a =>
      hrest.bind fun as => succeedsIff_pure (a :: as)).congr ?_
    rw [and_true, List.forall_mem_cons]

/-- Where no window functions are allowed the same condition counts. -/
theorem SucceedsIff.run_none {x : Projecting α} (h : SucceedsIff context P x) :
    Planner.SucceedsIff context P (do return (← x.run none).1) := by
  intro numbers
  rw [← (h none numbers).1]
  simp only [Planner.result_bind_eq_ok]
  constructor
  · rintro ⟨a, r, hr, -⟩
    exact ⟨r, hr⟩
  · rintro ⟨r, hr⟩
    exact ⟨r.1, r, hr, rfl⟩

end Projecting

/-! ## Scalar expressions -/

namespace Sql.Node

/-- Nothing in the tree is a column, an aggregate function, a window function or a query. -/
def IsInert (n : Node) : Prop :=
  ∀ m ∈ n.preorder, m.is "Column" = false ∧ m.is "Window" = false ∧ m.facts.aggregate = false

/-- The node is written as it stands. -/
def isConstant (n : Node) : Bool := n.is "Literal" || n.is "Null" || n.is "Boolean"

/-- The node stands around an expression and computes nothing. -/
def isWrapping (n : Node) : Bool := n.is "Alias" || n.is "Paren"

/-- The node is a function of the nodes below it. -/
def isFunction (n : Node) : Bool :=
  !(["Column", "Literal", "Null", "Boolean", "Star", "Select", "Union", "Intersect", "Except",
    "Subquery", "Window", "Count", "Alias", "Paren", "Lambda"].contains n.kind)

/-- An expression of columns without qualifiers, literals and scalar functions. -/
inductive IsScalar : Node → Prop
  | column {n : Node} (hkind : n.is "Column" = true) (hstar : n.isStarColumn = false)
      (hunqualified : n.isUnqualified = true) (hqualifier : n.qualifier? = none)
      (haggregate : n.facts.aggregate = false) (hleaf : ∀ m ∈ n.children, m.IsInert) : IsScalar n
  | constant {n : Node} (hkind : n.isConstant = true) (hsql : n.facts.sql.isSome = true)
      (haggregate : n.facts.aggregate = false) (hleaf : ∀ m ∈ n.children, m.IsInert) : IsScalar n
  | wrapping {n e : Node} (hkind : n.isWrapping = true) (hthis : n.arg "this" = .node e)
      (he : IsScalar e) (haggregate : n.facts.aggregate = false)
      (hleaf : ∀ m ∈ n.children, m = e ∨ m.IsInert) : IsScalar n
  | function {n : Node} (hkind : n.isFunction = true) (haggregate : n.facts.aggregate = false)
      (hargs : ∀ m ∈ n.children, IsScalar m) : IsScalar n

/-- The columns of an expression. -/
def columns (n : Node) : List Node := n.preorder.filter (·.is "Column")

variable {n : Node}

theorem mem_columns {c : Node} : c ∈ n.columns ↔ c ∈ n.preorder ∧ c.is "Column" = true :=
  List.mem_filter

/-- The columns of an expression are itself, where it is one, and those below it. -/
theorem mem_columns_iff {c : Node} : c ∈ n.columns ↔
    (c = n ∧ n.is "Column" = true) ∨ ∃ child ∈ n.children, c ∈ child.columns := by
  rw [mem_columns, mem_preorder_iff, or_and_right]
  refine or_congr (and_congr_right fun h => by rw [h]) ?_
  constructor
  · rintro ⟨⟨child, hchild, hc⟩, hkind⟩
    exact ⟨child, hchild, mem_columns.2 ⟨hc, hkind⟩⟩
  · rintro ⟨child, hchild, hc⟩
    exact ⟨⟨child, hchild, (mem_columns.1 hc).1⟩, (mem_columns.1 hc).2⟩

/-- An inert expression has no columns. -/
theorem IsInert.not_mem_columns (h : n.IsInert) (c : Node) : c ∉ n.columns := by
  intro hc
  obtain ⟨hmem, hkind⟩ := mem_columns.1 hc
  rw [(h c hmem).1] at hkind
  cases hkind

/-- A node of one of these kinds is of no other. -/
theorem is_eq_false_of_isFunction (h : n.isFunction = true) :
    n.is "Column" = false ∧ n.isConstant = false ∧ n.is "Star" = false ∧
      n.isQueryOrSubquery = false ∧ n.is "Window" = false ∧ n.is "Count" = false ∧
      n.isWrapping = false ∧ n.is "Lambda" = false := by
  simp only [isFunction, List.contains_eq_mem, List.mem_cons, List.not_mem_nil, or_false,
    Bool.not_eq_true', decide_eq_false_iff_not, not_or] at h
  simp [is, isConstant, isQueryOrSubquery, isQuery, isWrapping, h]

/-- A constant is no column, no star, no alias and no window. -/
theorem is_eq_false_of_isConstant (h : n.isConstant = true) :
    n.is "Column" = false ∧ n.is "Star" = false ∧ n.is "Alias" = false ∧
      n.is "Window" = false := by
  simp only [isConstant, is, Bool.or_eq_true, beq_iff_eq] at h
  rcases h with (h | h) | h <;> simp [is, h]

/-- A wrapping is no column, no constant, no star, no query, no window and no count. -/
theorem is_eq_false_of_isWrapping (h : n.isWrapping = true) :
    n.is "Column" = false ∧ n.isConstant = false ∧ n.is "Star" = false ∧
      n.isQueryOrSubquery = false ∧ n.is "Window" = false ∧ n.is "Count" = false := by
  simp only [isWrapping, is, Bool.or_eq_true, beq_iff_eq] at h
  rcases h with h | h <;> simp [is, isConstant, isQueryOrSubquery, isQuery, h]

theorem is_select_eq_false (h : n.isQueryOrSubquery = false) : n.is "Select" = false := by
  simp only [isQueryOrSubquery, isQuery, Bool.or_eq_false_iff] at h
  exact h.1.1.1.1

/-- Among inert nodes only the node itself can be a column. -/
theorem mem_columns_of_leaf {c : Node} (hleaf : ∀ m ∈ n.children, m.IsInert) :
    c ∈ n.columns ↔ c = n ∧ n.is "Column" = true := by
  rw [mem_columns_iff, or_iff_left]
  rintro ⟨child, hchild, hc⟩
  exact (hleaf child hchild).not_mem_columns c hc

/-- A node around an expression has its columns. -/
theorem mem_columns_of_wrapping {e c : Node} (hcolumn : n.is "Column" = false)
    (hthis : n.arg "this" = .node e) (hleaf : ∀ m ∈ n.children, m = e ∨ m.IsInert) :
    c ∈ n.columns ↔ c ∈ e.columns := by
  rw [mem_columns_iff, hcolumn]
  constructor
  · rintro (⟨-, hc⟩ | ⟨child, hchild, hc⟩)
    · cases hc
    · rcases hleaf child hchild with rfl | hinert
      · exact hc
      · exact absurd hc (hinert.not_mem_columns c)
  · exact fun hc => Or.inr ⟨e, mem_children_of_arg (by rw [hthis]; rfl), hc⟩

end Sql.Node

/-! ### One level of an expression -/

/-- A tier resolves expressions one level at a time. -/
theorem Tier.resolve_upTo_succ (stored : String → Planner Plan) (height : Nat) :
    (Tier.upTo stored (height + 1)).resolve =
      Resolver.step (Planner.query stored (Tier.upTo stored height))
        (Tier.upTo stored height).resolve := rfl

namespace Resolver

open Sql.Node

variable {query : Scope → Sql.Node → Planner Plan} {resolve : Resolver} {scope : Scope}
variable {n : Sql.Node}

theorem value_node (e : Sql.Node) : resolve.value scope (.node e) = resolve scope e := rfl

/-- A column is looked up in the scope. -/
theorem step_of_column (hkind : n.is "Column" = true) (hstar : n.isStarColumn = false) :
    step query resolve scope n =
      (do return .column (← (Planner.ofExcept (scope.column n) : Planner Attribute))) := by
  simp only [step, hkind, hstar, if_true, if_neg Bool.false_ne_true]

/-- A constant is written as it stands. -/
theorem step_of_isConstant (hkind : n.isConstant = true) :
    step query resolve scope n =
      (do return .literal (← (Planner.write n : Planner String))) := by
  obtain ⟨hcolumn, -, -, -⟩ := is_eq_false_of_isConstant hkind
  have hwritten : (n.is "Literal" || n.is "Null" || n.is "Boolean" || n.is "Star") = true := by
    rw [Bool.or_eq_true]
    exact Or.inl hkind
  simp only [step, hcolumn, hwritten, if_true, if_neg Bool.false_ne_true]

/-- A wrapping is resolved as what it stands around. -/
theorem step_of_isWrapping (hkind : n.isWrapping = true) :
    step query resolve scope n = resolve.value scope (n.arg "this") := by
  obtain ⟨hcolumn, hconstant, hstar, hquery, hwindow, hcount⟩ := is_eq_false_of_isWrapping hkind
  have hwritten : (n.is "Literal" || n.is "Null" || n.is "Boolean" || n.is "Star") = false :=
    Bool.or_eq_false_iff.2 ⟨hconstant, hstar⟩
  have hwraps : (n.is "Alias" || n.is "Paren") = true := hkind
  simp only [step, hcolumn, hwritten, hquery, hwindow, hcount, hwraps, if_true,
    if_neg Bool.false_ne_true]

/-- A function is resolved argument by argument. -/
theorem step_of_isFunction (hkind : n.isFunction = true) :
    step query resolve scope n =
      (do return .call n.key (← n.children.mapM (resolve scope))) := by
  obtain ⟨hcolumn, hconstant, hstar, hquery, hwindow, hcount, hwrapping, hlambda⟩ :=
    is_eq_false_of_isFunction hkind
  have hwritten : (n.is "Literal" || n.is "Null" || n.is "Boolean" || n.is "Star") = false :=
    Bool.or_eq_false_iff.2 ⟨hconstant, hstar⟩
  have hwraps : (n.is "Alias" || n.is "Paren") = false := hwrapping
  simp only [step, hcolumn, hwritten, hquery, hwindow, hcount, hwraps, hlambda,
    if_neg Bool.false_ne_true]

end Resolver

namespace Sql.Node

variable {n : Node}

namespace IsScalar

variable {stored : String → Planner Plan}

/-! ### What is in an expression -/

/-- No aggregate function and no window function stands in a scalar expression. -/
theorem plain (h : n.IsScalar) : ∀ m ∈ n.preorder,
    m.facts.aggregate = false ∧ m.is "Window" = false := by
  have hself : ∀ {n : Node}, n.IsScalar → n.facts.aggregate = false ∧ n.is "Window" = false := by
    intro n h
    cases h with
    | column hkind _ _ _ haggregate _ =>
      refine ⟨haggregate, ?_⟩
      rw [is, beq_iff_eq.1 hkind]
      rfl
    | constant hkind _ haggregate _ => exact ⟨haggregate, (is_eq_false_of_isConstant hkind).2.2.2⟩
    | wrapping hkind _ _ haggregate _ =>
      exact ⟨haggregate, (is_eq_false_of_isWrapping hkind).2.2.2.2.1⟩
    | function hkind haggregate _ =>
      exact ⟨haggregate, (is_eq_false_of_isFunction hkind).2.2.2.2.1⟩
  have hinert : ∀ {n : Node}, n.IsInert → ∀ m ∈ n.preorder,
      m.facts.aggregate = false ∧ m.is "Window" = false :=
    fun h m hm => ⟨(h m hm).2.2, (h m hm).2.1⟩
  have hroot := hself h
  induction h with
  | column _ _ _ _ _ hleaf =>
    intro m hm
    rcases mem_preorder_iff.1 hm with rfl | ⟨child, hchild, hm⟩
    · exact hroot
    · exact hinert (hleaf child hchild) m hm
  | constant _ _ _ hleaf =>
    intro m hm
    rcases mem_preorder_iff.1 hm with rfl | ⟨child, hchild, hm⟩
    · exact hroot
    · exact hinert (hleaf child hchild) m hm
  | wrapping _ _ he _ hleaf ih =>
    intro m hm
    rcases mem_preorder_iff.1 hm with rfl | ⟨child, hchild, hm⟩
    · exact hroot
    · rcases hleaf child hchild with rfl | hleaf
      · exact ih (hself he) m hm
      · exact hinert hleaf m hm
  | function _ _ hargs ih =>
    intro m hm
    rcases mem_preorder_iff.1 hm with rfl | ⟨child, hchild, hm⟩
    · exact hroot
    · exact ih child hchild (hself (hargs child hchild)) m hm

/-- The columns of a scalar expression stand without qualifiers, and belong to the query itself. -/
theorem of_mem_columns (h : n.IsScalar) : ∀ c ∈ n.columns, c.isStarColumn = false ∧
    c.isUnqualified = true ∧ c.qualifier? = none ∧ c ∈ n.reachable (·.is "Select") := by
  induction h with
  | column hkind hstar hunqualified hqualifier _ hleaf =>
    intro c hc
    obtain ⟨rfl, -⟩ := (mem_columns_of_leaf hleaf).1 hc
    exact ⟨hstar, hunqualified, hqualifier, mem_reachable_self c _⟩
  | constant hkind _ _ hleaf =>
    intro c hc
    obtain ⟨-, hcolumn⟩ := (mem_columns_of_leaf hleaf).1 hc
    rw [(is_eq_false_of_isConstant hkind).1] at hcolumn
    cases hcolumn
  | wrapping hkind hthis _ _ hleaf ih =>
    intro c hc
    obtain ⟨hcolumn, -, -, hquery, -⟩ := is_eq_false_of_isWrapping hkind
    obtain ⟨hstar, hunqualified, hqualifier, hreached⟩ :=
      ih c ((mem_columns_of_wrapping hcolumn hthis hleaf).1 hc)
    have hchild := mem_children_of_arg (by rw [hthis]; rfl)
    exact ⟨hstar, hunqualified, hqualifier,
      (mem_reachable_iff (is_select_eq_false hquery)).2 (Or.inr ⟨_, hchild, hreached⟩)⟩
  | function hkind _ _ ih =>
    intro c hc
    obtain ⟨hcolumn, -, -, hquery, -⟩ := is_eq_false_of_isFunction hkind
    rcases mem_columns_iff.1 hc with ⟨-, hc⟩ | ⟨child, hchild, hc⟩
    · rw [hcolumn] at hc
      cases hc
    · obtain ⟨hstar, hunqualified, hqualifier, hreached⟩ := ih child hchild c hc
      exact ⟨hstar, hunqualified, hqualifier,
        (mem_reachable_iff (is_select_eq_false hquery)).2 (Or.inr ⟨child, hchild, hreached⟩)⟩

/-! ### Resolving an expression -/

/-- A scalar expression is resolved exactly where all its columns are. -/
theorem resolvesIff (h : n.IsScalar) : ∀ {height : Nat}, n.height ≤ height → ∀ scope : Scope,
    Projecting.SucceedsIff context (∀ c ∈ n.columns, ∃ a, scope.column c = .ok a)
      ((Tier.upTo stored height).resolve scope n) := by
  have hpos : ∀ {n : Node} {height : Nat}, n.height ≤ height → ∃ below, height = below + 1 := by
    intro n height hheight
    obtain ⟨kind, args, facts⟩ := n
    rw [Node.height] at hheight
    exact ⟨height - 1, by omega⟩
  have hlower : ∀ {n child : Node} {below : Nat}, n.height ≤ below + 1 → child ∈ n.children →
      child.height ≤ below := by
    intro n child below hheight hchild
    have := height_lt_of_mem_children hchild
    omega
  induction h with
  | @column n hkind hstar _ _ _ hleaf =>
    intro height hheight scope
    obtain ⟨below, rfl⟩ := hpos hheight
    have hcolumns : ∀ c, c ∈ n.columns ↔ c = n :=
      fun c => (mem_columns_of_leaf hleaf).trans (and_iff_left hkind)
    rw [Tier.resolve_upTo_succ, Resolver.step_of_column hkind hstar]
    refine ((Projecting.succeedsIff_lift (Planner.succeedsIff_ofExcept _)).bind fun a =>
      Projecting.succeedsIff_pure _).congr ?_
    rw [and_true]
    simp only [hcolumns, forall_eq]
  | @constant n hkind hsql _ hleaf =>
    intro height hheight scope
    obtain ⟨below, rfl⟩ := hpos hheight
    have hcolumns : ∀ c, c ∉ n.columns := by
      intro c hc
      rw [mem_columns_of_leaf hleaf, (is_eq_false_of_isConstant hkind).1] at hc
      cases hc.2
    rw [Tier.resolve_upTo_succ, Resolver.step_of_isConstant hkind]
    refine ((Projecting.succeedsIff_lift (Planner.succeedsIff_write hsql)).bind fun a =>
      Projecting.succeedsIff_pure _).congr ?_
    exact iff_of_true ⟨trivial, trivial⟩ fun c hc => absurd hc (hcolumns c)
  | @wrapping n e hkind hthis _ _ hleaf ih =>
    intro height hheight scope
    obtain ⟨below, rfl⟩ := hpos hheight
    have hchild : e ∈ n.children := mem_children_of_arg (by rw [hthis]; rfl)
    have hcolumns : ∀ c, c ∈ n.columns ↔ c ∈ e.columns :=
      fun c => mem_columns_of_wrapping (is_eq_false_of_isWrapping hkind).1 hthis hleaf
    rw [Tier.resolve_upTo_succ, Resolver.step_of_isWrapping hkind, hthis, Resolver.value_node]
    exact (ih (hlower hheight hchild) scope).congr (by simp only [hcolumns])
  | @function n hkind _ _ ih =>
    intro height hheight scope
    obtain ⟨below, rfl⟩ := hpos hheight
    have hargs := Projecting.succeedsIff_mapM fun child hchild =>
      ih child hchild (hlower hheight hchild) scope
    rw [Tier.resolve_upTo_succ, Resolver.step_of_isFunction hkind]
    refine (hargs.bind fun args => Projecting.succeedsIff_pure _).congr ?_
    rw [and_true]
    -- a function is no column itself, so that its columns are those of its arguments
    simp only [mem_columns_iff (n := n), (is_eq_false_of_isFunction hkind).1, Bool.false_eq_true,
      and_false, false_or]
    constructor
    · rintro h c ⟨child, hchild, hc⟩
      exact h child hchild c hc
    · exact fun h child hchild c hc => h c ⟨child, hchild, hc⟩

/-- What an alias or brackets stand around is resolved exactly where all its columns are. -/
theorem value_resolvesIff (hkind : n.isWrapping = true) (h : n.IsScalar) {height : Nat}
    (hheight : n.height ≤ height) (scope : Scope) :
    Projecting.SucceedsIff context (∀ c ∈ n.columns, ∃ a, scope.column c = .ok a)
      ((Tier.upTo stored height).resolve.value scope (n.arg "this")) := by
  obtain ⟨hcolumn, hconstant, -⟩ := is_eq_false_of_isWrapping hkind
  cases h with
  | column hkind' => rw [hcolumn] at hkind'; cases hkind'
  | constant hkind' => rw [hconstant] at hkind'; cases hkind'
  | function hkind' =>
    rw [(is_eq_false_of_isFunction hkind').2.2.2.2.2.2.1] at hkind
    cases hkind
  | @wrapping _ e _ hthis he _ hleaf =>
    have hlt := height_lt_of_mem_children (mem_children_of_arg (n := n) (m := e) (by
      rw [hthis]; rfl))
    rw [hthis, Resolver.value_node]
    exact (he.resolvesIff (by omega) scope).congr
      (by simp only [mem_columns_of_wrapping hcolumn hthis hleaf])

/-- A scalar expression is no star. -/
theorem not_star (h : n.IsScalar) : n.is "Star" = false ∧ n.isStarColumn = false := by
  have hstarColumn : n.is "Column" = false → n.isStarColumn = false := by
    intro hcolumn
    rw [isStarColumn, hcolumn, Bool.false_and]
  cases h with
  | column hkind hstar =>
    refine ⟨?_, hstar⟩
    rw [is, beq_iff_eq.1 hkind]
    rfl
  | constant hkind =>
    obtain ⟨hcolumn, hstar, -, -⟩ := is_eq_false_of_isConstant hkind
    exact ⟨hstar, hstarColumn hcolumn⟩
  | wrapping hkind =>
    obtain ⟨hcolumn, -, hstar, -⟩ := is_eq_false_of_isWrapping hkind
    exact ⟨hstar, hstarColumn hcolumn⟩
  | function hkind =>
    obtain ⟨hcolumn, -, hstar, -⟩ := is_eq_false_of_isFunction hkind
    exact ⟨hstar, hstarColumn hcolumn⟩

/-- A scalar expression that is a column has no qualifier and no column but itself. -/
theorem of_is_column (h : n.IsScalar) (hcolumn : n.is "Column" = true) :
    n.isUnqualified = true ∧ n.qualifier? = none ∧ ∀ c, c ∈ n.columns ↔ c = n := by
  cases h with
  | column _ _ hunqualified hqualifier _ hleaf =>
    exact ⟨hunqualified, hqualifier,
      fun c => (mem_columns_of_leaf hleaf).trans (and_iff_left hcolumn)⟩
  | constant hkind => rw [(is_eq_false_of_isConstant hkind).1] at hcolumn; cases hcolumn
  | wrapping hkind => rw [(is_eq_false_of_isWrapping hkind).1] at hcolumn; cases hcolumn
  | function hkind => rw [(is_eq_false_of_isFunction hkind).1] at hcolumn; cases hcolumn

end IsScalar

/-! ## Select lists of scalar expressions -/

/-- An entry of a select list: a scalar expression, whose text is known where it has no alias. -/
structure IsScalarItem (n : Node) : Prop where
  scalar : n.IsScalar
  written : n.is "Alias" = false → n.facts.sql.isSome = true

/-- The names that the entries of a select list get by aliases. -/
def aliasNames (entries : List Node) : List Label :=
  (entries.filter (·.is "Alias")).map fun entry => some (normalize entry.aliasName)

/-- The entries of a select list with a name are its aliases. -/
theorem namedProjections_eq {select : Node} {entries : List Node}
    (hentries : select.projections = .ok (entries.map .node)) :
    select.namedProjections = .ok (entries.filter (·.is "Alias")) := by
  have hread : select.expressions = .ok (entries.map .node) := hentries
  have hnodes : (entries.map Value.node).filterMap Value.node? = entries := by
    rw [List.filterMap_map]
    exact List.filterMap_some
  rw [namedProjections, listed, hread]
  exact congrArg (fun nodes => Except.ok (nodes.filter (·.is "Alias"))) hnodes

end Sql.Node

namespace Resolver

open Sql.Node

variable {stored : String → Planner Plan} {height : Nat} {select : Sql.Node}
variable {entries : List Sql.Node}

/-- An entry without a name of its own keeps that of its column, or is named by its text. -/
theorem selectItems_of_unnamed {resolve : Resolver} {scope : Scope} {entry : Sql.Node}
    (hstar : entry.is "Star" = false) (hstarColumn : entry.isStarColumn = false)
    (halias : entry.is "Alias" = false) : resolve.selectItems scope (.node entry) = (do
      let e ← resolve scope entry
      e.asColumn?.elim (do
        let name ← (Planner.write entry : Planner String)
        return [.aliased (.mk e (some name) (← (Planner.freshId : Planner Int)))])
        fun a => return [.column a]) := by
  simp only [selectItems, Sql.Value.toNode, Projecting.ofExcept_ok_bind, hstar, hstarColumn,
    halias, Bool.or_self, if_neg Bool.false_ne_true]
  refine congrArg (_ >>= ·) (funext fun e => ?_)
  cases e <;> rfl

/-- An entry of a select list is planned exactly where its columns are resolved. -/
theorem selectItems_succeedsIff {entry : Sql.Node} (h : entry.IsScalarItem)
    (hheight : entry.height ≤ height) (scope : Scope) :
    Projecting.SucceedsIff context (∀ c ∈ entry.columns, ∃ a, scope.column c = .ok a)
      ((Tier.upTo stored height).resolve.selectItems scope (.node entry)) := by
  obtain ⟨hstar, hstarColumn⟩ := h.scalar.not_star
  have hnumbered : ∀ f : Int → Projecting (List SelectItem),
      (∀ id, Projecting.SucceedsIff context True (f id)) →
      Projecting.SucceedsIff context True
        (((Planner.freshId : Planner Int) : Projecting Int) >>= f) := fun f hf =>
    ((Projecting.succeedsIff_lift Planner.succeedsIff_freshId).bind hf).congr (and_self_iff)
  by_cases halias : entry.is "Alias" = true
  · have hread : (Tier.upTo stored height).resolve.selectItems scope (.node entry) = (do
        let e ← (Tier.upTo stored height).resolve.value scope (entry.arg "this")
        return [.aliased (.mk e (some (normalize entry.aliasName))
          (← (Planner.freshId : Planner Int)))]) := by
      simp only [selectItems, Sql.Value.toNode, Projecting.ofExcept_ok_bind, hstar, hstarColumn,
        halias, if_true, Bool.or_self, if_neg Bool.false_ne_true]
    have hwraps : entry.isWrapping = true := by rw [isWrapping, halias, Bool.true_or]
    rw [hread]
    exact ((h.scalar.value_resolvesIff hwraps hheight scope).bind fun e =>
      hnumbered _ fun id => Projecting.succeedsIff_pure _).congr (and_iff_left trivial)
  · have hwritten := h.written (Bool.not_eq_true _ ▸ halias)
    have hnamed : ∀ e : Expr, Projecting.SucceedsIff context True (do
        let name ← ((Planner.write entry : Planner String) : Projecting String)
        return [SelectItem.aliased (.mk e (some name)
          (← ((Planner.freshId : Planner Int) : Projecting Int)))]) := fun e =>
      ((Projecting.succeedsIff_lift (Planner.succeedsIff_write hwritten)).bind fun name =>
        hnumbered _ fun id => Projecting.succeedsIff_pure _).congr (and_self_iff)
    rw [selectItems_of_unnamed hstar hstarColumn (Bool.not_eq_true _ ▸ halias)]
    refine ((h.scalar.resolvesIff hheight scope).bind fun e => ?_).congr (and_iff_left trivial)
    cases e with
    | column a => exact Projecting.succeedsIff_pure _
    | _ => exact hnamed _

/-- The select list is planned exactly where the columns of all entries are resolved. -/
theorem selectList_succeedsIff (hentries : select.projections = .ok (entries.map .node))
    (hitems : ∀ entry ∈ entries, entry.IsScalarItem)
    (hheight : ∀ entry ∈ entries, entry.height ≤ height) (scope : Scope) :
    Projecting.SucceedsIff context
      (∀ entry ∈ entries, ∀ c ∈ entry.columns, ∃ a, scope.column c = .ok a)
      ((Tier.upTo stored height).resolve.selectList scope select) := by
  have hread : (Tier.upTo stored height).resolve.selectList scope select = (do
      return (← (entries.map Sql.Value.node).mapM
        ((Tier.upTo stored height).resolve.selectItems scope)).flatten) := by
    rw [selectList, hentries]
    rfl
  rw [hread, List.mapM_map]
  exact ((Projecting.succeedsIff_mapM fun entry hentry =>
    selectItems_succeedsIff (hitems entry hentry) (hheight entry hentry) scope).bind fun lists =>
      Projecting.succeedsIff_pure _).congr (and_iff_left trivial)

/-! ## Grouping terms -/

/-- A scalar expression is planned if each of its columns is found. -/
theorem plain_succeedsIff {e : Sql.Node} (h : e.IsScalar) (hheight : e.height ≤ height)
    (scope : Scope) :
    Planner.SucceedsIff context (∀ c ∈ e.columns, ∃ a, scope.column c = .ok a)
      ((Tier.upTo stored height).resolve.plain scope (.node e)) :=
  (h.resolvesIff hheight scope).run_none

/-- What an entry of a select list computes is resolved exactly where its columns are. -/
theorem plain_computed_succeedsIff {entry : Sql.Node} (h : entry.IsScalar)
    (hheight : entry.height ≤ height) (scope : Scope) :
    Planner.SucceedsIff context (∀ c ∈ entry.columns, ∃ a, scope.column c = .ok a)
      ((Tier.upTo stored height).resolve.plain scope (computed (.node entry))) := by
  by_cases halias : entry.is "Alias" = true
  · have hcomputed : computed (.node entry) = entry.arg "this" := by
      simp [computed, Sql.Value.node?, Option.filter, halias]
    have hwraps : entry.isWrapping = true := by rw [isWrapping, halias, Bool.true_or]
    rw [hcomputed]
    exact (h.value_resolvesIff hwraps hheight scope).run_none
  · have hcomputed : computed (.node entry) = .node entry := by
      simp [computed, Sql.Value.node?, Option.filter, halias]
    rw [hcomputed]
    exact plain_succeedsIff h hheight scope

/-- The term of a `GROUP BY` clause stands for an entry of the select list, by its position or as a
column by its alias, or it is an expression of columns in scope. -/
def IsGroupable (scope : Scope) (entries : List Sql.Node) (t : Sql.Node) : Prop :=
  if t.is "Literal" && t.facts.wholeNumber then
    ∃ position : Int, t.name.bind Text.readInt? = some position ∧ 1 ≤ position ∧
      position ≤ entries.length
  else if t.is "Column" then
    t.normalName ∈ aliasNames entries ∨ ∃ a, scope.column t = .ok a
  else ∀ c ∈ t.columns, ∃ a, scope.column c = .ok a

/-- A column without a qualifier that is none in scope stands for the first entry of that alias. -/
theorem groupingTerm_of_column {resolve : Resolver} {scope : Scope} {t : Sql.Node}
    {found : Option Attribute} (hentries : select.projections = .ok (entries.map .node))
    (hcolumn : t.is "Column" = true) (hunqualified : t.isUnqualified = true)
    (hfound : scope.find none t.normalName = .ok found) :
    resolve.groupingTerm select scope (.node t) =
      if found.isSome then resolve.plain scope (.node t)
      else ((entries.filter (·.is "Alias")).find? fun p =>
          some (normalize p.aliasName) == t.normalName).elim (resolve.plain scope (.node t))
        fun projection => resolve.plain scope (projection.arg "this") := by
  have hliteral : t.is "Literal" = false := by
    rw [is, beq_iff_eq.1 hcolumn]
    rfl
  simp only [groupingTerm, Sql.Value.node?, hliteral, Bool.false_and, if_neg Bool.false_ne_true,
    hcolumn, hunqualified, Bool.and_self, if_true, namedProjections_eq hentries, hfound,
    Planner.ofExcept, pure_bind]
  cases found with
  | some a => rfl
  | none =>
    cases (entries.filter (·.is "Alias")).find? fun p =>
      some (normalize p.aliasName) == t.normalName <;> rfl

section
variable {scope : Scope} {t : Sql.Node}
variable (hentries : select.projections = .ok (entries.map .node))
variable (hscalar : ∀ entry ∈ entries, entry.IsScalar)
variable (hheight : ∀ entry ∈ entries, entry.height ≤ height)
variable (hcolumns : ∀ entry ∈ entries, ∀ c ∈ entry.columns, ∃ a, scope.column c = .ok a)
include hentries hscalar hheight hcolumns

/-- An entry of a scalar select list is planned if there is one at the position. -/
theorem entryAt_succeedsIff (position : Int) :
    Planner.SucceedsIff context (1 ≤ position ∧ position ≤ entries.length)
      ((Tier.upTo stored height).resolve.entryAt select scope position) := by
  have hfails : (if 1 ≤ position then (entries.map Sql.Value.node)[(position - 1).toNat]?
      else none) = none → Planner.SucceedsIff context False
        ((Tier.upTo stored height).resolve.entryAt select scope position) := by
    intro hnone
    simp only [entryAt, hentries, Planner.ofExcept, pure_bind, hnone]
    exact fun numbers => iff_of_false (by rintro ⟨a, ⟨⟩⟩) id
  by_cases hpos : 1 ≤ position
  · cases hentry : entries[(position - 1).toNat]? with
    | none =>
      have hlong := List.getElem?_eq_none_iff.1 hentry
      refine (hfails (by rw [if_pos hpos, List.getElem?_map, hentry]; rfl)).congr ?_
      exact iff_of_false id (by omega)
    | some entry =>
      obtain ⟨hlt, -⟩ := List.getElem?_eq_some_iff.1 hentry
      have hmem : entry ∈ entries := List.mem_of_getElem? hentry
      have hread : (Tier.upTo stored height).resolve.entryAt select scope position =
          (Tier.upTo stored height).resolve.plain scope (computed (.node entry)) := by
        simp only [entryAt, hentries, Planner.ofExcept, pure_bind, if_pos hpos, List.getElem?_map,
          hentry, Option.map_some]
      rw [hread]
      refine (plain_computed_succeedsIff (hscalar entry hmem) (hheight entry hmem) scope).congr ?_
      exact iff_of_true (hcolumns entry hmem) (by omega)
  · exact (hfails (if_neg hpos)).congr (iff_of_false id fun h => hpos h.1)

omit hentries in
/-- What stands under an alias of the select list is resolved beside it. -/
theorem plain_alias_succeedsIff {projection : Sql.Node} (hprojection : projection ∈ entries)
    (halias : projection.is "Alias" = true) :
    Planner.SucceedsIff context True
      ((Tier.upTo stored height).resolve.plain scope (projection.arg "this")) := by
  have hwraps : projection.isWrapping = true := by rw [isWrapping, halias, Bool.true_or]
  exact ((hscalar projection hprojection).value_resolvesIff hwraps (hheight projection hprojection)
    scope).run_none.congr (iff_of_true (hcolumns projection hprojection) trivial)

/-- A column of a `GROUP BY` clause is planned if it is an alias of an entry or is found. -/
theorem groupingTerm_succeedsIff_of_column (ht : t.IsScalar) (htheight : t.height ≤ height)
    (hcolumn : t.is "Column" = true)
    (hfind : ∃ found, scope.find none t.normalName = .ok found) :
    Planner.SucceedsIff context (t.normalName ∈ aliasNames entries ∨ ∃ a, scope.column t = .ok a)
      ((Tier.upTo stored height).resolve.groupingTerm select scope (.node t)) := by
  obtain ⟨hunqualified, hqualifier, hself⟩ := ht.of_is_column hcolumn
  obtain ⟨found, hfound⟩ := hfind
  have hplain : Planner.SucceedsIff context (∃ a, scope.column t = .ok a)
      ((Tier.upTo stored height).resolve.plain scope (.node t)) :=
    (plain_succeedsIff ht htheight scope).congr (by simp only [hself, forall_eq])
  rw [groupingTerm_of_column hentries hcolumn hunqualified hfound]
  cases found with
  | some a =>
    have hresolved : ∃ a, scope.column t = .ok a := by
      refine ⟨a, ?_⟩
      rw [Scope.column, hqualifier, hfound]
      rfl
    exact hplain.congr (iff_of_true hresolved (Or.inr hresolved))
  | none =>
    rw [Option.isSome_none, if_neg Bool.false_ne_true]
    cases hnamed : (entries.filter (·.is "Alias")).find? fun p =>
        some (normalize p.aliasName) == t.normalName with
    | some projection =>
      have hmem := List.mem_filter.1 (List.mem_of_find?_eq_some hnamed)
      have hname : some (normalize projection.aliasName) = t.normalName := by
        simpa using List.find?_some hnamed
      have halias : t.normalName ∈ aliasNames entries :=
        List.mem_map.2 ⟨projection, List.mem_filter.2 hmem, hname⟩
      refine (plain_alias_succeedsIff hscalar hheight hcolumns hmem.1 hmem.2).congr ?_
      exact iff_of_true trivial (Or.inl halias)
    | none =>
      refine hplain.congr (or_iff_right ?_).symm
      intro halias
      obtain ⟨projection, hmem, hname⟩ := List.mem_map.1 halias
      exact List.find?_eq_none.1 hnamed projection hmem (by simp [hname])

/-- A term of a `GROUP BY` clause is planned exactly where it is groupable. -/
theorem groupingTerm_succeedsIff (ht : t.IsScalar) (htheight : t.height ≤ height)
    (hfind : ∃ found, scope.find none t.normalName = .ok found) :
    Planner.SucceedsIff context (IsGroupable scope entries t)
      ((Tier.upTo stored height).resolve.groupingTerm select scope (.node t)) := by
  rw [IsGroupable]
  split
  · next hliteral =>
    have hread : (Tier.upTo stored height).resolve.groupingTerm select scope (.node t) = (do
        (Tier.upTo stored height).resolve.entryAt select scope
          (← Planner.require (t.name.bind Text.readInt?))) := by
      simp only [groupingTerm, Sql.Value.node?, hliteral, if_true]
    rw [hread]
    cases hposition : t.name.bind Text.readInt? with
    | none =>
      refine fun numbers => iff_of_false (by rintro ⟨a, ⟨⟩⟩) ?_
      rintro ⟨position, ⟨⟩, -⟩
    | some position =>
      refine (entryAt_succeedsIff hentries hscalar hheight hcolumns position).congr ?_
      simp only [Option.some.injEq, exists_eq_left']
  split
  · next hcolumn =>
    exact groupingTerm_succeedsIff_of_column hentries hscalar hheight hcolumns ht htheight hcolumn
      hfind
  · next hliteral hcolumn =>
    have hread : (Tier.upTo stored height).resolve.groupingTerm select scope (.node t) =
        (Tier.upTo stored height).resolve.plain scope (.node t) := by
      simp only [groupingTerm, Sql.Value.node?, if_neg hliteral, hcolumn, Bool.false_and,
        if_neg Bool.false_ne_true]
    rw [hread]
    exact plain_succeedsIff ht htheight scope

end

end Resolver

end ColumnTrace
