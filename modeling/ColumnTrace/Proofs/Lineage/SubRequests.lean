import ColumnTrace.Proofs.Lineage.NamedColumns

/-!
# Requests for some of the columns

Every operator of a query answers column by column: what it makes of one column of a request does
not depend on the other columns. So a query that is asked for some columns of a request answers as
it answers the whole request, restricted to these columns and in the same order, and it fails for
the same reason (`extract_restrict`). The empty request is no such part, for it asks for everything.

A column without a name is the one thing that could tell the two requests apart: it stops the
resolution of the whole request, but not of a part without it. `PartOf` leaves that case open, and
where all columns have names it does not arise.
-/

set_option autoImplicit false

namespace ColumnTrace

universe u v w

/-! ## Restricting a map -/

/-- Setting an entry and keeping some keys may change places. -/
theorem filter_assign {κ : Type u} {ν : Type v} [DecidableEq κ] (keep : κ → Bool) (key : κ)
    (value : ν) (entries : List (κ × ν)) :
    (assign key value entries).filter (fun entry => keep entry.1) =
      if keep key then assign key value (entries.filter fun entry => keep entry.1)
      else entries.filter fun entry => keep entry.1 := by
  induction entries with
  | nil => by_cases hkeep : keep key <;> simp [assign, hkeep]
  | cons entry rest ih =>
    by_cases hkey : entry.1 = key
    · subst hkey
      by_cases hkeep : keep entry.1 <;> simp [assign, hkeep]
    · by_cases hentry : keep entry.1 <;> by_cases hkeep : keep key <;>
        simp [assign, hkey, hentry, hkeep, ih]

namespace OrderedMap

variable {κ : Type u} {ν : Type v} {ω : Type w} {keep : κ → Bool}

/-- The entries of the keys that are kept. -/
def restrict (keep : κ → Bool) (m : OrderedMap κ ν) : OrderedMap κ ν where
  entries := m.entries.filter fun entry => keep entry.1
  nodup_keys := m.nodup_keys.sublist (List.filter_sublist.map Prod.fst)

/-- What is left are the entries with a key that is kept. -/
theorem mem_restrict {m : OrderedMap κ ν} {entry : κ × ν} :
    entry ∈ (m.restrict keep).entries ↔ entry ∈ m.entries ∧ keep entry.1 = true :=
  List.mem_filter

/-- A map that has entries left had entries. -/
theorem isEmpty_of_restrict {m : OrderedMap κ ν} (h : (m.restrict keep).isEmpty = false) :
    m.isEmpty = false := by
  cases hempty : m.isEmpty with
  | false => rfl
  | true => simp [isEmpty, restrict, isEmpty_iff.1 hempty] at h

theorem keys_restrict (m : OrderedMap κ ν) : (m.restrict keep).keys = m.keys.filter keep :=
  List.filter_map.symm

/-- Maps with the same keys have keys left together. -/
theorem isEmpty_restrict_of_keys_eq {m : OrderedMap κ ν} {n : OrderedMap κ ω}
    (h : m.keys = n.keys) : (m.restrict keep).isEmpty = (n.restrict keep).isEmpty := by
  refine isEmpty_eq_of_keys_eq ?_
  rw [keys_restrict, keys_restrict, h]

theorem restrict_mapValues (f : κ → ν → ω) (m : OrderedMap κ ν) :
    (m.mapValues f).restrict keep = (m.restrict keep).mapValues f :=
  ext List.filter_map

section
variable [DecidableEq κ]

/-- An entry that is set is left if its key is kept. -/
theorem restrict_insert (m : OrderedMap κ ν) (key : κ) (value : ν) :
    (m.insert key value).restrict keep =
      if keep key then (m.restrict keep).insert key value else m.restrict keep := by
  apply ext
  rw [apply_ite OrderedMap.entries]
  exact filter_assign keep key value m.entries

/-- Of entries that are set those are left whose keys are kept. -/
theorem restrict_insertAll (m : OrderedMap κ ν) (pairs : List (κ × ν)) :
    (m.insertAll pairs).restrict keep =
      (m.restrict keep).insertAll (pairs.filter fun pair => keep pair.1) := by
  induction pairs generalizing m with
  | nil => rfl
  | cons pair rest ih =>
    rw [insertAll_cons, ih, restrict_insert]
    by_cases hkeep : keep pair.1 <;> simp [hkeep, insertAll_cons]

/-- Under a key that is kept is found what was there. -/
theorem get?_restrict (m : OrderedMap κ ν) {key : κ} (h : keep key = true) :
    (m.restrict keep).get? key = m.get? key := by
  cases hget : m.get? key with
  | some value =>
    rw [get?_eq_some_iff] at hget ⊢
    exact mem_restrict.2 ⟨hget, h⟩
  | none =>
    rw [get?_eq_none_iff] at hget ⊢
    intro hkey
    obtain ⟨entry, hentry, rfl⟩ := List.mem_map.1 hkey
    exact hget (key_mem_of_entry_mem (mem_restrict.1 hentry).1)

end

end OrderedMap

namespace LineageMap

variable {keep : Attribute → Bool} {parent child m : LineageMap}

/-- Two maps are merged before or after they are cut down. -/
theorem merge_restrict (left right : LineageMap) :
    (left.merge right).restrict keep = merge (left.restrict keep) (right.restrict keep) := by
  rw [merge_eq_insertAll, merge_eq_insertAll, OrderedMap.restrict_insertAll, List.filter_map]
  have hpairs : ∀ entry ∈ (OrderedMap.restrict keep right).entries,
      (entry.1, entry.2 ∪ left.sourcesOf entry.1) =
        (entry.1, entry.2 ∪ sourcesOf (left.restrict keep) entry.1) := by
    intro entry hentry
    have hkeep := (OrderedMap.mem_restrict.1 hentry).2
    rw [sourcesOf, sourcesOf, OrderedMap.get?_restrict left hkeep]
  rw [← List.map_congr_left hpairs]
  rfl

/-- Several maps are merged before or after they are cut down. -/
theorem mergeAll_restrict (maps : List LineageMap) :
    (mergeAll maps).restrict keep = mergeAll (maps.map (OrderedMap.restrict keep)) := by
  have step : ∀ (maps : List LineageMap) (start : LineageMap),
      (maps.foldl merge start).restrict keep =
        (maps.map (OrderedMap.restrict keep)).foldl merge (start.restrict keep) := by
    intro maps
    induction maps with
    | nil => exact fun _ => rfl
    | cons m rest ih =>
      intro start
      rw [List.foldl_cons, ih, merge_restrict]
      rfl
  exact step maps ∅

/-- What is left of a request is resolved as in the whole. -/
theorem resolveAll_restrict (h : (parent.restrict keep).isEmpty = false) :
    (parent.resolveAll child).restrict keep = resolveAll (parent.restrict keep) child := by
  rw [resolveAll_of_not_isEmpty (OrderedMap.isEmpty_of_restrict h), resolveAll_of_not_isEmpty h,
    OrderedMap.restrict_mapValues]

/-- A table answers what is left of a request as in the whole. -/
theorem answerOf_restrict (h : (parent.restrict keep).isEmpty = false) (output : List Attribute)
    (qualifier : List String) :
    (parent.answerOf output qualifier).restrict keep =
      answerOf (parent.restrict keep) output qualifier := by
  rw [answerOf, answerOf, OrderedMap.isEmpty_of_restrict h, h, if_neg Bool.false_ne_true,
    if_neg Bool.false_ne_true, OrderedMap.restrict_mapValues]

/-- What is left of a request depends on nothing else. -/
theorem dependencies_restrict_subset :
    dependencies (parent.restrict keep) ⊆ parent.dependencies := by
  intro pair hpair
  obtain ⟨sources, hentry, ha⟩ := mem_dependencies.1 hpair
  exact mem_dependencies.2 ⟨sources, (OrderedMap.mem_restrict.1 hentry).1, ha⟩

/-- What no dependency of a request is, none of what is left is. -/
theorem any_dependencies_restrict {p : Attribute × Attribute → Bool}
    (h : parent.dependencies.any p = false) :
    (dependencies (parent.restrict keep)).any p = false := by
  rw [List.any_eq_false] at h ⊢
  exact fun pair hpair => h pair (dependencies_restrict_subset hpair)

end LineageMap

namespace Lineage

open Traced

variable {settings : Settings} {below : Below} {keep : Attribute → Bool}
variable {whole part request : LineageMap}

/-! ## Answers to a part of a request -/

/-- The second computation answers a part of what the first one answers, in the same order, or fails
with it. Nothing is said where the first one stops at a column without a name. -/
def PartOf (keep : Attribute → Bool) (whole part : Traced ExtractionError LineageMap) : Prop :=
  whole.result = .error .namelessColumn ∨
    part.result = whole.result.map (OrderedMap.restrict keep)

theorem partOf_pure {m : LineageMap} : PartOf keep (pure m) (pure (m.restrict keep)) :=
  Or.inr rfl

/-- Only results are compared. -/
theorem partOf_of_result_eq {x y x' y' : Traced ExtractionError LineageMap}
    (hx : x.result = x'.result) (hy : y.result = y'.result) (h : PartOf keep x' y') :
    PartOf keep x y := by
  rw [PartOf, hx, hy]
  exact h

/-- A computation that does not look at the request comes before both. -/
theorem partOf_bind {α : Type} (x : Traced ExtractionError α)
    {f g : α → Traced ExtractionError LineageMap}
    (h : ∀ a, x.result = .ok a → PartOf keep (f a) (g a)) : PartOf keep (x >>= f) (x >>= g) := by
  cases hx : x.result with
  | ok a => exact partOf_of_result_eq (result_bind_of_ok hx) (result_bind_of_ok hx) (h a hx)
  | error e =>
    rw [bind_of_error hx, bind_of_error hx]
    exact Or.inr rfl

/-- The request is resolved first, and what it is resolved to is handed on. -/
theorem partOf_join {computed : LineageMap} {f g : LineageMap → Traced ExtractionError LineageMap}
    (hkept : (request.restrict keep).isEmpty = false)
    (h : ∀ inner, OrderedMap.isEmpty (OrderedMap.restrict keep inner) = false →
      PartOf keep (f inner) (g (inner.restrict keep))) :
    PartOf keep (request.join computed >>= f)
      (LineageMap.join (request.restrict keep) computed >>= g) := by
  cases hany : request.dependencies.any computed.lacksName with
  | true =>
    have hresult : (request.join computed).result = .error .namelessColumn := by
      simp [LineageMap.join, hany]
    rw [bind_of_error hresult]
    exact Or.inl rfl
  | false =>
    have hwhole : (request.join computed).result = .ok (request.resolveAll computed) := by
      simp [LineageMap.join, hany]
    have hpart : (LineageMap.join (request.restrict keep) computed).result =
        .ok ((request.resolveAll computed).restrict keep) := by
      rw [LineageMap.resolveAll_restrict hkept]
      simp [LineageMap.join, LineageMap.any_dependencies_restrict hany]
    have hinner : ((request.resolveAll computed).restrict keep).isEmpty = false := by
      rw [OrderedMap.isEmpty_restrict_of_keys_eq
        (LineageMap.keys_resolveAll (OrderedMap.isEmpty_of_restrict hkept) computed)]
      exact hkept
    exact partOf_of_result_eq (result_bind_of_ok hwhole) (result_bind_of_ok hpart) (h _ hinner)

/-- A part of a request joins to a part of what the request joins to. -/
theorem partOf_join_self {computed : LineageMap}
    (hkept : (request.restrict keep).isEmpty = false) :
    PartOf keep (request.join computed) (LineageMap.join (request.restrict keep) computed) := by
  have h : PartOf keep (request.join computed >>= pure)
      (LineageMap.join (request.restrict keep) computed >>= pure) :=
    partOf_join hkept fun inner _ => partOf_pure
  rwa [bind_pure, bind_pure] at h

/-- A table answers a part of a request with a part of its answer. -/
theorem partOf_ofRelation (hkept : (request.restrict keep).isEmpty = false)
    (output : List Attribute) (qualifier : List String) :
    PartOf keep (request.ofRelation output qualifier)
      (LineageMap.ofRelation (request.restrict keep) output qualifier) := by
  cases hany : request.dependencies.any fun pair =>
      LineageMap.comparesName output pair.2 && !pair.2.isNamed with
  | true =>
    rw [LineageMap.ofRelation, if_pos hany]
    exact Or.inl rfl
  | false =>
    rw [LineageMap.ofRelation, LineageMap.ofRelation, hany,
      LineageMap.any_dependencies_restrict hany, if_neg Bool.false_ne_true,
      if_neg Bool.false_ne_true, ← LineageMap.answerOf_restrict hkept]
    exact partOf_pure

/-- An opened view or result answers a part of a request with a part of its answer. -/
theorem partOf_ofRelationPlan (hkept : (request.restrict keep).isEmpty = false)
    (output : List Attribute) (lineage : LineageMap) :
    PartOf keep (request.ofRelationPlan output lineage)
      (LineageMap.ofRelationPlan (request.restrict keep) output lineage) := by
  rw [LineageMap.ofRelationPlan, LineageMap.ofRelationPlan]
  split
  · exact Or.inr rfl
  · exact partOf_join_self hkept

/-- Where every child answers a part of the request by a part of its answer, so do all of them
together. -/
theorem partOf_ofChildren {children : List Plan}
    (h : ∀ child ∈ children,
      PartOf keep (below child request) (below child (request.restrict keep))) :
    PartOf keep (ofChildren below children request)
      (ofChildren below children (request.restrict keep)) := by
  -- the children are asked in order, and both times the same child is the first that fails
  have hanswers : (children.mapM fun child => below child request).result =
      .error .namelessColumn ∨
      (children.mapM fun child => below child (request.restrict keep)).result =
        (children.mapM fun child => below child request).result.map
          (List.map (OrderedMap.restrict keep)) := by
    induction children with
    | nil => exact Or.inr rfl
    | cons child rest ih =>
      have hrest := ih fun c hc => h c (List.mem_cons_of_mem child hc)
      rw [List.mapM_cons, List.mapM_cons]
      rcases h child List.mem_cons_self with hnameless | hpart
      · exact Or.inl (by rw [bind_of_error hnameless])
      · cases hwhole : (below child request).result with
        | error e =>
          rw [hwhole] at hpart
          rw [bind_of_error hwhole, bind_of_error hpart]
          exact Or.inr rfl
        | ok answer =>
          rw [hwhole] at hpart
          rw [result_bind_of_ok hwhole, result_bind_of_ok hpart, result_bind, result_bind]
          rcases hrest with hnameless | hparts
          · rw [hnameless]
            exact Or.inl rfl
          · rw [hparts]
            refine Or.inr ?_
            cases (rest.mapM fun child => below child request).result <;> rfl
  rw [PartOf, ofChildren, ofChildren, result_bind, result_bind]
  rcases hanswers with hnameless | hparts
  · rw [hnameless]
    exact Or.inl rfl
  · rw [hparts]
    refine Or.inr ?_
    cases (children.mapM fun child => below child request).result with
    | error e => rfl
    | ok answers =>
      exact congrArg Except.ok (LineageMap.mergeAll_restrict answers).symm

/-- A window turns a part of a request into a part of what it asks for. -/
theorem windowRequest_restrict (hkept : (request.restrict keep).isEmpty = false)
    (functions : List Alias) (input : List Attribute) :
    (windowRequest functions input request).restrict keep =
      windowRequest functions input (request.restrict keep) := by
  rw [windowRequest, windowRequest, OrderedMap.isEmpty_of_restrict hkept, hkept,
    if_neg Bool.false_ne_true, if_neg Bool.false_ne_true, OrderedMap.restrict_mapValues]

end Lineage

/-! ## Plans that only read -/

mutual

/-- Whatever is asked for the columns of the plan is a query: no write command and no merge. -/
def Plan.onlyReads : Plan → Bool
  | .project _ child => child.onlyReads
  | .aggregate _ _ child => child.onlyReads
  | .window _ child _ _ => child.onlyReads
  | .expand _ _ child => child.onlyReads
  | .join left right _ _ => left.onlyReads && right.onlyReads
  | .operator _ children _ => Plan.onlyReadAll children
  | .cteDefinition (.mk _ child) => child.onlyReads
  | .withCte definitions body => CteDefinition.onlyReadAll definitions && body.onlyReads
  | .commandResult _ command => command.onlyReads
  | .union .. => true
  | .relation .. => true
  | .localRelation .. => true
  | .oneRow => true
  | .view .. => true
  | .cached .. => true
  | .cteReference .. => true
  | _ => false

/-- All plans only read. -/
def Plan.onlyReadAll : List Plan → Bool
  | [] => true
  | plan :: rest => plan.onlyReads && Plan.onlyReadAll rest

/-- All named queries only read. -/
def CteDefinition.onlyReadAll : List CteDefinition → Bool
  | [] => true
  | .mk _ child :: rest => child.onlyReads && CteDefinition.onlyReadAll rest

end

/-- Plans only read if each of them does. -/
theorem Plan.onlyReadAll_iff {plans : List Plan} :
    Plan.onlyReadAll plans = true ↔ ∀ plan ∈ plans, plan.onlyReads = true := by
  induction plans with
  | nil => simp [Plan.onlyReadAll]
  | cons plan rest ih => simp [Plan.onlyReadAll, ih]

/-- Named queries only read if each of them does. -/
theorem CteDefinition.onlyReadAll_iff {definitions : List CteDefinition} :
    CteDefinition.onlyReadAll definitions = true ↔
      ∀ definition ∈ definitions, definition.child.onlyReads = true := by
  induction definitions with
  | nil => simp [CteDefinition.onlyReadAll]
  | cons definition rest ih =>
    obtain ⟨id, child⟩ := definition
    simp [CteDefinition.onlyReadAll, CteDefinition.child, ih]

/-- A plan still only reads after the plans that it works on have been exchanged for such that only
read. -/
theorem Plan.onlyReads_mapParts {plan : Plan} {f : Plan → Plan} (hscoping : plan.isScoping = false)
    (hreads : plan.onlyReads = true)
    (hf : ∀ part ∈ plan.entered, part.onlyReads = true → (f part).onlyReads = true) :
    (plan.mapParts f id id).onlyReads = true := by
  cases plan with
  | withCte => cases hscoping
  | project items child => exact hf child List.mem_cons_self hreads
  | aggregate grouping items child => exact hf child List.mem_cons_self hreads
  | window functions child partition order => exact hf child List.mem_cons_self hreads
  | expand projections output child => exact hf child List.mem_cons_self hreads
  | join left right type condition =>
    simp only [onlyReads, Bool.and_eq_true] at hreads
    simp only [mapParts, onlyReads, Bool.and_eq_true]
    refine ⟨hf left List.mem_cons_self hreads.1, hf right ?_ hreads.2⟩
    exact List.mem_cons_of_mem left List.mem_cons_self
  | cteDefinition definition =>
    obtain ⟨id, child⟩ := definition
    exact hf child List.mem_cons_self hreads
  | operator name children output =>
    rw [onlyReads, onlyReadAll_iff] at hreads
    rw [mapParts, onlyReads, onlyReadAll_iff, List.forall_mem_map]
    exact fun child hchild => hf child hchild (hreads child hchild)
  | commandResult output command => exact hreads
  | union | relation | localRelation | oneRow | view | cached | cteReference => rfl
  | _ => cases hreads

/-- The named queries in scope only read. -/
def CteScope.OnlyReads (scope : CteScope) : Prop := ∀ named ∈ scope, named.2.onlyReads = true

/-- What is put in the place of a reference only reads. -/
theorem ends_resolveReference {scope : CteScope} (hscope : scope.OnlyReads) (id : Int)
    (output : List Attribute) :
    (resolveReference scope id output).Ends (·.onlyReads = true) (fun _ => True) := by
  rw [resolveReference]
  split
  · exact Traced.ends_of_result_eq (Traced.result_note_bind _ _) (Traced.ends_pure rfl)
  · next body hlookup =>
    split
    · exact Traced.ends_fail trivial
    · obtain ⟨l₁, l₂, hsplit, -⟩ := List.lookup_eq_some_iff.1 hlookup
      have hmem : (id, body) ∈ scope := by simp [hsplit]
      exact Traced.ends_pure (hscope _ hmem)

/-- Writing references out keeps a plan one that only reads. -/
theorem Plan.onlyReads_inline {scope : CteScope} (hscope : scope.OnlyReads) (plan : Plan)
    (hreads : plan.onlyReads = true) :
    (plan.inline scope).Ends (·.onlyReads = true) (fun _ => True) := by
  induction plan using Plan.induction_on_parts generalizing scope with
  | h plan ih =>
    cases hscoping : plan.isScoping with
    | false =>
      rw [Plan.inline_eq scope hscoping]
      refine (Traced.ends_trivial _).bind fun _ _ => Traced.ends_pure ?_
      refine Plan.onlyReads_mapParts hscoping hreads fun part hpart hpartReads => ?_
      exact Plan.written_of_ends (ih part (Plan.mem_parts.2 (Or.inl hpart)) hscope hpartReads)
        hpartReads
    | true =>
      cases plan with
      | withCte definitions body =>
        simp only [Plan.onlyReads, Bool.and_eq_true, CteDefinition.onlyReadAll_iff] at hreads
        rw [Plan.inline]
        refine (CteDefinition.ends_extend (P := CteScope.OnlyReads)
          (fun definition hdefinition scope hscope => ?_) hscope).bind fun inner hinner => ?_
        · have hquery := ih definition.child (Plan.definition_mem_parts hdefinition) hscope
            (hreads.1 definition hdefinition)
          exact hquery.imp (fun _ hbody => List.forall_mem_cons.2 ⟨hbody, hscope⟩) fun _ h => h
        · exact ih body Plan.body_mem_parts hinner hreads.2
      | cteReference id output => exact ends_resolveReference hscope id output
      | _ => cases hscoping

namespace Lineage

open Traced

variable {settings : Settings} {below : Below} {keep : Attribute → Bool}
variable {plan : Plan} {request : LineageMap}

/-- One level answers a part of a request by a part of its answer where the plans below do. -/
theorem partOf_step
    (hbelow : ∀ {child : Plan} {inner : LineageMap}, child.onlyReads = true →
      OrderedMap.isEmpty (OrderedMap.restrict keep inner) = false →
      PartOf keep (below child inner) (below child (inner.restrict keep)))
    (hreads : plan.onlyReads = true) (hkept : (request.restrict keep).isEmpty = false) :
    PartOf keep (step settings below plan request)
      (step settings below plan (request.restrict keep)) := by
  have hchild : ∀ {child : Plan} {inner : LineageMap}, child.onlyReads = true →
      OrderedMap.isEmpty (OrderedMap.restrict keep inner) = false →
      PartOf keep (ofChildren below [child] inner)
        (ofChildren below [child] (inner.restrict keep)) := by
    intro child inner hchild hinner
    exact partOf_ofChildren fun c hc => hbelow (List.mem_singleton.1 hc ▸ hchild) hinner
  cases plan with
  | project items child =>
    exact partOf_bind _ fun selected _ => partOf_join hkept fun inner => hchild hreads
  | aggregate grouping items child =>
    exact partOf_bind _ fun selected _ => partOf_join hkept fun inner => hchild hreads
  | expand projections output child => exact partOf_join hkept fun inner => hchild hreads
  | window functions child partition order =>
    simp only [step, stepAt]
    rw [← windowRequest_restrict hkept]
    refine hchild hreads ?_
    rw [OrderedMap.isEmpty_restrict_of_keys_eq
      (keys_windowRequest (OrderedMap.isEmpty_of_restrict hkept))]
    exact hkept
  | join left right type condition =>
    simp only [Plan.onlyReads, Bool.and_eq_true] at hreads
    simp only [step, stepAt]
    split
    · refine partOf_ofChildren fun child hmem => hbelow ?_ hkept
      simp only [List.mem_cons, List.not_mem_nil, or_false] at hmem
      rcases hmem with rfl | rfl
      · exact hreads.1
      · exact hreads.2
    · exact hbelow hreads.1 hkept
  | union branches output =>
    -- the branches are asked for all, whatever part is asked of the union
    exact partOf_bind _ fun answers _ => partOf_join_self hkept
  | relation output table =>
    rw [step_relation, step_relation]
    exact partOf_ofRelation hkept output _
  | localRelation output rows => exact partOf_ofRelation hkept output _
  | oneRow =>
    simp only [step, stepAt, ofOneRow]
    rw [← OrderedMap.restrict_mapValues]
    exact partOf_pure
  | view name output body temporary =>
    simp only [step, stepAt]
    split
    · exact partOf_ofRelation hkept output _
    · exact partOf_bind _ fun lineage _ => partOf_ofRelationPlan hkept output lineage
  | cached output physical table =>
    simp only [step, stepAt]
    split
    · exact partOf_bind _ fun lineage _ => partOf_ofRelationPlan hkept output lineage
    · exact partOf_ofRelation hkept output _
  | cteReference id output => exact partOf_pure
  | cteDefinition definition =>
    cases definition
    exact partOf_bind _ fun _ _ => hchild hreads hkept
  | withCte definitions body =>
    refine partOf_bind _ fun inlined hinlined => hbelow ?_ hkept
    exact (Plan.onlyReads_inline (fun _ h => absurd h List.not_mem_nil) _ hreads).of_ok hinlined
  | operator name children output =>
    simp only [step, stepAt]
    split
    · exact partOf_pure
    · refine partOf_bind _ fun _ _ => partOf_ofChildren fun child hmem => hbelow ?_ hkept
      exact Plan.onlyReadAll_iff.1 hreads child hmem
  | commandResult output command => exact hbelow hreads hkept
  | _ => cases hreads

/-- A plan that only reads answers a part of a request by a part of its answer. -/
theorem partOf_extractWithin (n : Nat) : ∀ {plan : Plan} {request : LineageMap},
    plan.onlyReads = true → (request.restrict keep).isEmpty = false →
    PartOf keep (extractWithin settings n plan request)
      (extractWithin settings n plan (request.restrict keep)) := by
  induction n with
  | zero => exact fun _ _ => Or.inr rfl
  | succ n ih => exact fun hreads hkept => partOf_step ih hreads hkept

/-- A query whose columns all have names answers some of the columns of a request as it answers them
among all columns, in the same order, and fails for either where it fails for the other. -/
theorem extract_restrict (hreads : plan.onlyReads = true)
    (hnames : ∀ below, plan.Reaches settings below → below.NamesGiven)
    (hrequest : request.isNamed = true) (hkept : (request.restrict keep).isEmpty = false) :
    (plan.extract settings (request.restrict keep)).result =
      (plan.extract settings request).result.map (OrderedMap.restrict keep) := by
  have hnamed := extract_ne_nameless hnames hrequest
  rw [extract_eq] at hnamed
  rw [extract_eq, extract_eq]
  exact (partOf_extractWithin _ hreads hkept).resolve_left hnamed

/-- A named query over the table `t` beside the view `v` of the table `u`. -/
def namedBesideView : Plan :=
  .withCte [.mk 1 (.project [.aliased (.mk (.call "abs" [.column ⟨1, some "a", []⟩]) (some "c") 2)]
      (.relation [⟨1, some "a", []⟩] (some ⟨"t", none, none⟩)))]
    (.join (.cteReference 1 [⟨3, some "c", []⟩])
      (.view ⟨"v", none, none⟩ [⟨5, some "x", []⟩]
        (.relation [⟨4, some "x", []⟩] (some ⟨"u", none, none⟩)) false) .inner none)

/-- Its request for both columns. -/
def bothColumns : LineageMap := .identity [⟨3, some "c", []⟩, ⟨5, some "x", []⟩]

/-- Asked for `x` alone it answers for `x` what it answers beside `c`. -/
theorem extract_restrict_namedBesideView :
    (namedBesideView.extract .standard (bothColumns.restrict (·.id == 5))).result =
        (namedBesideView.extract .standard bothColumns).result.map (.restrict (·.id == 5)) ∧
      (namedBesideView.extract .standard bothColumns).result.isOk = true := by
  have hfits : namedBesideView.fits .standard 6 := by decide +kernel
  have hnames : ∀ below ∈ namedBesideView.reachedWithin .standard 6, below.NamesGiven := by
    decide +kernel
  have hreached : ∀ below, namedBesideView.Reaches .standard below → below.NamesGiven :=
    fun below h => hnames below (Plan.mem_reachedWithin_of_fits hfits h)
  refine ⟨?_, by decide +kernel⟩
  exact extract_restrict (by decide) hreached (by decide) (by decide)

end Lineage

end ColumnTrace
