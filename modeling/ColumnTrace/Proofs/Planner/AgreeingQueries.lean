import ColumnTrace.Planner.Statement
import ColumnTrace.Proofs.Planner.AgreeingExpressions

/-!
# Queries and statements that are planned alike

The relations of a `FROM` clause, queries, merges, inserts and creations ask the tier below for
queries and expressions in them, and ask for the text of a view or a stored result only where its
name is not being expanded yet, with the name among those that are. So where two tiers agree on all
trees up to a height, and two ways to plan stored texts agree on what may be asked for, the tiers
above agree one height up (`Tier.agree_through`), and so do the plans of statements
(`Planner.agrees_statement`).
-/

set_option autoImplicit false

namespace ColumnTrace

variable {base : Context} {names : List String} {height : Nat}

/-- Stored texts are planned alike wherever a name of a list that is not being expanded yet is
expanded. -/
def AgreeOnStored (base : Context) (names : List String) (first second : String → Planner Plan) :
    Prop :=
  ∀ name ∈ names, name ∉ base.expanding → ∀ sql,
    Planner.Agrees { base with expanding := name :: base.expanding } (first sql) (second sql)

namespace Planner

variable {stored stored' : String → Planner Plan} {query query' : Scope → Sql.Node → Planner Plan}

/-! ## Relations -/

section
variable (hstored : AgreeOnStored base names stored stored')
include hstored

/-- A name of the list is expanded alike. -/
theorem agrees_expandStored {name : String} (hname : name ∈ names)
    (recursive : String → PlanningError) (sql : String) :
    Agrees base (expandStored stored recursive name sql)
      (expandStored stored' recursive name sql) := by
  intro root ctes
  rw [expandStored, expandStored, context_bind_apply, context_bind_apply]
  by_cases hmem : name ∈ base.expanding
  · have hcontains : base.expanding.contains name = true := List.contains_iff_mem.2 hmem
    simp only [hcontains, if_true]
    rfl
  · have hcontains : ¬ base.expanding.contains name = true := fun h =>
      hmem (List.contains_iff_mem.1 h)
    simp only [if_neg hcontains]
    exact hstored name hname hmem sql root ctes

/-- A table of the list is read alike. -/
theorem agrees_resolveTable {table : TableName} (hname : table.qualifiedName ∈ names) :
    Agrees base (resolveTable stored table) (resolveTable stored' table) := by
  have hlookup : ∀ {rest rest' : Option CteDefinition → Planner Plan},
      (∀ definition, Agrees base (rest definition) (rest' definition)) →
      Agrees base
        (if table.database.isSome then pure none >>= rest
          else findCte? table.qualifiedName >>= rest)
        (if table.database.isSome then pure none >>= rest'
          else findCte? table.qualifiedName >>= rest') := by
    intro rest rest' hrest
    split
    · exact agrees_bind hrest
    · exact agrees_bind hrest
  apply hlookup
  intro definition
  cases definition with
  | some definition => exact agrees_refl _
  | none =>
    apply agrees_bind
    intro catalog
    split
    · exact (agrees_expandStored hstored hname _ _).bind fun query => agrees_refl _
    · exact (agrees_expandStored hstored hname _ _).bind fun body => agrees_refl _
    · exact agrees_refl _

/-- A table that fits the list is planned alike. -/
theorem agrees_table {node : Sql.Node} (hnode : node.Fits names height)
    (htable : node.is "Table" = true) : Agrees base (table stored node) (table stored' node) := by
  apply (agrees_resolveTable hstored (hnode.qualifiedName_mem htable)).bind
  exact fun plan => agrees_refl _

variable (hquery : AgreeOnQueries base names height query query') (outer : Scope)
include hquery

/-- A relation of a `FROM` clause is planned alike. -/
theorem agrees_source {term : Sql.Node} (hterm : term.Fits names height) :
    Agrees base (source stored query outer term) (source stored' query' outer term) := by
  rw [source, source]
  split
  · next htable => exact agrees_table hstored hterm htable
  split
  · exact agrees_refl _
  split
  · apply agrees_ofExcept_bind
    intro inner hinner
    have hinner : inner.Fits names height := (hterm.arg_of_le "this").toNode hinner
    split
    · exact agrees_refl _
    · exact (hquery outer inner hinner).bind fun child => agrees_refl _
  · exact agrees_refl _

/-- The relations of a `FROM` clause are planned alike. -/
theorem agrees_relations (select : Sql.Node) {terms : List Sql.Value}
    (hterms : ∀ term ∈ terms, term.Fits names height) :
    Agrees base (relations stored query outer select terms)
      (relations stored' query' outer select terms) := by
  have hknown : ∀ term ∈ terms, Agrees base (knownOrUnknown stored query outer term)
      (knownOrUnknown stored' query' outer term) := by
    intro term hterm
    apply agrees_ofExcept_bind
    intro node hnode
    apply agrees_bind
    intro unknown
    split
    · exact agrees_refl _
    · have hnode : node.Fits names height := (hterms term hterm).toNode hnode
      exact (agrees_source hstored hquery outer hnode).bind fun planned => agrees_refl _
  exact (agrees_mapM hknown).bind fun found => agrees_refl _

/-- A `FROM` clause is planned alike. -/
theorem agrees_fromClause {select : Sql.Node} (hselect : select.Fits names (height + 1)) :
    Agrees base (fromClause stored query outer select)
      (fromClause stored' query' outer select) := by
  apply agrees_ofExcept_bind
  intro term hterm
  apply agrees_ofExcept_bind
  intro joins hjoins
  split
  · exact agrees_refl _
  · apply agrees_ofExcept_bind
    intro nodes hnodes
    have hterms : ∀ v ∈ term :: nodes.map (·.arg "this"), v.Fits names height :=
      hselect.passes.relations Sql.Node.Fits.passes_of_le hterm hjoins hnodes
    exact (agrees_relations hstored hquery outer select hterms).bind fun planned => agrees_refl _

end

end Planner

/-! ## Queries -/

/-- Tiers plan queries and expressions up to a height alike, where these name tables of a list only.
-/
structure Tier.Agree (base : Context) (names : List String) (height : Nat) (first second : Tier) :
    Prop where
  query : AgreeOnQueries base names height first.query second.query
  resolve : Resolver.Agrees base names height first.resolve second.resolve

/-- The tier that plans through a tier and a way to plan stored texts. -/
def Tier.through (stored : String → Planner Plan) (below : Tier) : Tier :=
  ⟨Planner.query stored below, Resolver.step (Planner.query stored below) below.resolve⟩

namespace Planner

variable {stored stored' : String → Planner Plan} {below below' : Tier} {node : Sql.Node}

section
variable {query query' : Scope → Sql.Node → Planner Plan}
variable (hquery : AgreeOnQueries base names height query query')
include hquery

/-- Named queries and what stands over them are planned alike. -/
theorem agrees_withDefinitions {build build' : Planner Plan} (hbuild : Agrees base build build')
    {ctes : List Sql.Value} (hctes : ∀ cte ∈ ctes, cte.Fits names height) :
    Agrees base (withDefinitions query build ctes) (withDefinitions query' build' ctes) := by
  have hdefinition : ∀ cte : Sql.Node, cte.Fits names height →
      Agrees base (cteDefinition query cte) (cteDefinition query' cte) := by
    intro cte hcte
    apply agrees_ofExcept_bind
    intro inner hinner
    have hinner : inner.Fits names height := (hcte.arg_of_le "this").toNode hinner
    exact (hquery [] inner hinner).bind fun child => agrees_refl _
  induction ctes with
  | nil => exact hbuild.bind fun body => agrees_refl _
  | cons cte rest ih =>
    rw [withDefinitions, withDefinitions]
    apply agrees_ofExcept_bind
    intro inner hinner
    apply (hdefinition inner ((hctes cte List.mem_cons_self).toNode hinner)).bind
    intro definition
    have hrest := ih fun v hv => hctes v (List.mem_cons_of_mem cte hv)
    exact (hrest.within_scope definition.1 definition.2).bind fun body => agrees_refl _

/-- A query under a `WITH` clause is planned alike. -/
theorem agrees_withClause (hnode : node.Fits names (height + 1)) {build build' : Planner Plan}
    (hbuild : Agrees base build build') :
    Agrees base (withClause query node build) (withClause query' node build') := by
  apply agrees_ofExcept_bind
  intro clause? hclause
  cases clause? with
  | none => exact hbuild
  | some clause =>
    have hclause : clause.Fits names height := (hnode.firstArg _).nodeIfThere hclause
    dsimp only
    split
    · exact agrees_fail_bind _ _ _
    · apply agrees_ofExcept_bind
      intro ctes hctes
      rw [withScope_eq, withScope_eq]
      apply (agrees_withDefinitions hquery hbuild (hclause.items_of_le hctes)).bind
      exact fun body => agrees_refl _

end

section
variable (hstored : AgreeOnStored base names stored stored')
variable (hbelow : Tier.Agree base names height below below') (outer : Scope)
variable (hnode : node.Fits names (height + 1))
include hbelow hnode

/-- Two queries put together are planned alike. -/
theorem agrees_setOperation :
    Agrees base (setOperation below outer node) (setOperation below' outer node) := by
  apply agrees_ofExcept_bind
  intro left hleft
  apply (hbelow.query outer left ((hnode.arg "this").toNode hleft)).bind
  intro leftPlan
  apply agrees_ofExcept_bind
  intro right hright
  apply (hbelow.query outer right ((hnode.arg "expression").toNode hright)).bind
  exact fun rightPlan => agrees_refl _

include hstored

/-- A simple query is planned alike. -/
theorem agrees_select :
    Agrees base (select stored below outer node) (select stored' below' outer node) := by
  apply (agrees_fromClause hstored hbelow.query outer hnode).bind
  intro source
  apply agrees_ofExcept_bind
  intro grouped hgrouped
  dsimp only
  split
  · exact (hbelow.resolve.aggregate _ hnode _).bind fun plan => agrees_refl _
  · exact (hbelow.resolve.selectList _ hnode (some [])).bind fun projected => agrees_refl _

/-- A query is planned alike where the queries and expressions in it are. -/
theorem agrees_query :
    Agrees base (query stored below outer node) (query stored' below' outer node) := by
  rw [query, query]
  split
  · apply agrees_ofExcept_bind
    intro inner hinner
    apply (hbelow.query outer inner ((hnode.arg "this").toNode hinner)).bind
    exact fun plan => agrees_refl _
  split
  · exact agrees_refl _
  · apply agrees_withClause hbelow.query hnode
    split
    · exact agrees_select hstored hbelow outer hnode
    · exact agrees_setOperation hbelow outer hnode

end

end Planner

/-- No tree is so low that it fits a height of zero. -/
theorem Tier.agree_zero (first second : Tier) : Tier.Agree base names 0 first second :=
  ⟨fun _ _ hnode => hnode.not_zero.elim, fun _ _ hnode => hnode.not_zero.elim⟩

/-- Tiers that agree up to a height carry tiers that agree one height up. -/
theorem Tier.agree_through {stored stored' : String → Planner Plan} {below below' : Tier}
    (hstored : AgreeOnStored base names stored stored')
    (hbelow : Tier.Agree base names height below below') :
    Tier.Agree base names (height + 1) (through stored below) (through stored' below') := by
  have hquery : AgreeOnQueries base names (height + 1) (through stored below).query
      (through stored' below').query := fun outer node hnode =>
    Planner.agrees_query hstored hbelow outer hnode
  exact ⟨hquery, Resolver.agrees_step hquery hbelow.resolve⟩

/-! ## Statements -/

namespace Planner

variable {stored stored' : String → Planner Plan} {tier tier' : Tier} {node : Sql.Node}

section
variable {resolve resolve' : Resolver} (h : Resolver.Agrees base names height resolve resolve')
variable (target source : Source) {action clause : Sql.Node}
include h

/-- The assignments of an update are planned alike. -/
theorem agrees_updateAssignments (haction : action.Fits names height) :
    Agrees base (updateAssignments resolve target source action)
      (updateAssignments resolve' target source action) := by
  apply agrees_ofExcept_bind
  intro entries hentries
  refine (agrees_mapM fun entry hentry => ?_).bind fun lists => agrees_refl _
  apply agrees_ofExcept_bind
  intro node hread
  have hnode : node.Fits names height := (haction.items_of_le hentries entry hentry).toNode hread
  split
  · exact agrees_refl _
  split
  · exact agrees_refl _
  · refine agrees_bind fun named => agrees_bind fun key => ?_
    exact (h.plain _ (hnode.arg_of_le "expression")).bind fun value => agrees_refl _

/-- The assignments of an insertion are planned alike. -/
theorem agrees_insertAssignments (haction : action.Fits names height) :
    Agrees base (insertAssignments resolve target source action)
      (insertAssignments resolve' target source action) := by
  rw [insertAssignments, insertAssignments]
  split
  · exact agrees_refl _
  apply agrees_bind
  intro keys
  apply agrees_ofExcept_bind
  intro values hvalues
  have hfits : ∀ v ∈ values, v.Fits names height := by
    unfold insertValues at hvalues
    split at hvalues
    · next tuple htuple =>
      obtain ⟨hchild, -⟩ := Option.filter_eq_some_iff.1 htuple
      have htuple : tuple.Fits names height := haction.arg_of_le "expression" tuple hchild
      exact htuple.items_of_le hvalues
    · obtain rfl := Except.ok.inj hvalues
      exact fun v hv => absurd hv List.not_mem_nil
  split
  · exact agrees_fail_bind _ _ _
  · refine agrees_mapM fun pair hpair => ?_
    have hvalue : pair.2.Fits names height := hfits pair.2 (List.of_mem_zip hpair).2
    exact (h.plain _ hvalue).bind fun value => agrees_refl _

/-- An action of a merge is planned alike. -/
theorem agrees_mergeAction (hclause : clause.Fits names height) :
    Agrees base (mergeAction resolve target source clause)
      (mergeAction resolve' target source clause) := by
  rw [mergeAction, mergeAction]
  split
  · exact agrees_refl _
  · next action haction =>
    have haction : action.Fits names height := hclause.arg_of_le "then" action haction
    split
    · exact (agrees_updateAssignments h target source haction).bind fun _ => agrees_refl _
    split
    · exact (agrees_insertAssignments h target source haction).bind fun _ => agrees_refl _
    · exact agrees_refl _

end

section
variable (hstored : AgreeOnStored base names stored stored')
variable (htier : Tier.Agree base names height tier tier') (hnode : node.Fits names height)
include htier hnode

/-- An insert is planned alike. -/
theorem agrees_insert : Agrees base (insert tier node) (insert tier' node) := by
  have hrows : Agrees base (insertRows tier (node.arg "expression"))
      (insertRows tier' (node.arg "expression")) := by
    apply agrees_ofExcept_bind
    intro rows hrows
    split
    · exact agrees_refl _
    · exact htier.query [] rows ((hnode.arg_of_le "expression").toNode hrows)
  rw [insert, insert]
  dsimp only
  split
  · exact agrees_fail_bind _ _ _
  · exact (agrees_withClause htier.query (hnode.mono (Nat.le_succ height)) hrows).bind fun plan =>
      agrees_refl _

/-- A creation is planned alike. -/
theorem agrees_create : Agrees base (create tier node) (create tier' node) := by
  apply agrees_ofExcept_bind
  intro kind hkind
  split
  · next query hquery =>
    obtain ⟨hchild, -⟩ := Option.filter_eq_some_iff.1 hquery
    have hquery : Agrees base (withClause tier.query node (tier.query [] query))
        (withClause tier'.query node (tier'.query [] query)) :=
      agrees_withClause htier.query (hnode.mono (Nat.le_succ height))
        (htier.query [] query (hnode.arg_of_le "expression" query hchild))
    split
    · apply agrees_bind
      exact fun target => hquery.bind fun plan => agrees_refl _
    split
    · apply agrees_bind
      exact fun target => hquery.bind fun plan => agrees_refl _
    · exact agrees_refl _
  · exact agrees_refl _

include hstored

/-- A merge is planned alike. -/
theorem agrees_merge : Agrees base (merge stored tier node) (merge stored' tier' node) := by
  have hterm : ∀ (hints : List Label) (term : Sql.Node), term.Fits names height →
      Agrees base (mergeTerm stored tier.query hints term)
        (mergeTerm stored' tier'.query hints term) := by
    intro hints term hterm
    apply agrees_bind
    intro unknown
    split
    · exact agrees_refl _
    · exact agrees_source hstored htier.query [] hterm
  apply agrees_ofExcept_bind
  intro clauses hclauses
  have hclauses : ∀ clause ∈ clauses, clause.Fits names height := by
    obtain ⟨whens?, hwhens, hclauses⟩ := exists_of_bind_eq_ok hclauses
    cases whens? with
    | none => exact (hnode.mono (Nat.le_succ height)).listed hclauses
    | some whens =>
      have hwhens : whens.Fits names height := (hnode.arg_of_le "whens").nodeIfThere hwhens
      exact (hwhens.mono (Nat.le_succ height)).listed hclauses
  split
  · next target htarget =>
    obtain ⟨htarget, -⟩ := Option.filter_eq_some_iff.1 htarget
    rw [pure_bind, pure_bind]
    apply agrees_ofExcept_bind
    intro sourceValue hsource
    apply agrees_bind
    intro hints
    apply (hterm _ target (hnode.arg_of_le "this" target htarget)).bind
    intro plannedTarget
    apply agrees_ofExcept_bind
    intro sourceNode hread
    have hsourceNode : sourceNode.Fits names height := by
      unfold Sql.Node.mergeSource at hsource
      dsimp only at hsource
      split at hsource
      · obtain rfl := Except.ok.inj hsource
        exact (hnode.arg_of_le "using").toNode hread
      · cases hsource
    apply (hterm _ sourceNode hsourceNode).bind
    intro plannedSource
    refine (agrees_mapM fun clause hclause => ?_).bind fun actions => agrees_refl _
    exact (agrees_mergeAction htier.resolve _ _ (hclauses clause hclause)).bind fun _ =>
      agrees_refl _
  · exact agrees_fail_bind _ _ _

end

/-- A statement is planned alike, where its queries, its expressions and all stored texts are. -/
theorem agrees_statement (hstored : AgreeOnStored base names stored stored')
    (hchanged : ∀ sql, Agrees base (stored sql) (stored' sql))
    (htier : Tier.Agree base names height tier tier') (hnode : node.Fits names height) :
    Agrees base (statement stored tier node) (statement stored' tier' node) := by
  refine agrees_bind fun context => agrees_bind fun change => ?_
  cases change with
  | some change => exact (hchanged change.2).bind fun plan => agrees_refl _
  | none =>
    dsimp only
    split
    · exact htier.query [] node hnode
    split
    · exact agrees_insert htier hnode
    split
    · exact agrees_create htier hnode
    split
    · exact agrees_merge hstored htier hnode
    · exact agrees_refl _

end Planner

end ColumnTrace
