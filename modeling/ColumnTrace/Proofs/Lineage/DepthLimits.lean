import ColumnTrace.Proofs.Lineage.RelatedTraces
import ColumnTrace.Proofs.Plans.Replacement

/-!
# Limits on the depth of plans

The limit on the depth of plans decides whether a plan is traced to its end, and nothing else: what
is found under one limit is found under every higher one, a trace that is cut off tells the depth it
reached, which is the first beyond the limit, and no trace of a plan is cut off from some limit on
(`extract_limits`).

For the last of these, a plan needs a number of levels that serves all settings and requests. A
`WITH` clause is traced in what it is written out to, which may be much larger than the clause, so
that writing out has to keep the property (`enoughFor_and_enoughWritten`).
-/

set_option autoImplicit false

namespace ColumnTrace

namespace Lineage

open Plan Traced

/-! ## The same plan under two limits -/

/-- Ending as before is kept step by step. -/
theorem sequential_extends : Sequential fun _ x y => Extends x y where
  self := fun _ => .refl _
  bind := Extends.bind

/-- Under settings that treat views alike, more levels change no answer. -/
theorem extends_of_limits {settings settings' : Settings}
    (hviews : settings.skipPersistedViews = settings'.skipPersistedViews) (n : Nat) :
    ∀ {k : Nat}, n ≤ k → ∀ plan request, Extends (extractWithin settings n plan request)
      (extractWithin settings' k plan request) := by
  induction n with
  | zero => exact fun _ plan request h => absurd ⟨_, settings.maxPlanDepth, rfl⟩ h
  | succ n ih =>
    intro k hk plan request
    obtain ⟨k, rfl⟩ : ∃ j, k = j + 1 := ⟨k - 1, by omega⟩
    have hbelow := ih (Nat.le_of_succ_le_succ hk)
    have hskips : settings.skips plan = settings'.skips plan := by
      cases plan <;> simp only [Settings.skips, hviews]
    cases plan with
    | withCte definitions body =>
      exact (Extends.refl _).bind fun inlined => hbelow inlined request
    | _ =>
      refine related_step sequential_extends (corresponds_self fun part _ => ?_)
        (fun _ _ h => Plan.noConfusion h) hskips
      exact ⟨rfl, hbelow part⟩

/-! ## How a trace may fail -/

section
variable {E : ExtractionError → Prop}

/-- A computation that did not run out of levels ends in no error of depth. -/
theorem ends_of_not_ranOut (hE : ∀ e, e.kind ≠ .depth → E e) {α : Type}
    {x : Traced ExtractionError α} (hx : ¬ RanOut x) : x.Ends (fun _ => True) E :=
  ends_iff.2 ⟨fun _ _ => trivial, fun e he => hE e fun hkind => hx (ranOut_iff.2 ⟨e, he, hkind⟩)⟩

/-- One level fails as the levels below do, and else for a cause other than depth. -/
theorem ends_of_parts (hE : ∀ e, e.kind ≠ .depth → E e) {settings : Settings} {below : Below}
    {plan : Plan} {parent : LineageMap}
    (hclause : ∀ definitions body, plan ≠ .withCte definitions body)
    (h : ∀ part ∈ plan.parts, ∀ request, (below part request).Ends (fun _ => True) E) :
    (step settings below plan parent).Ends (fun _ => True) E := by
  have hT : Sequential fun _ x _ => x.Ends (fun _ => True) E :=
    { self := ends_of_not_ranOut hE, bind := fun hx hf => hx.bind fun a _ => hf a }
  have hself :
      Corresponds (Related (fun _ x _ => x.Ends (fun _ => True) E) below below) plan plan :=
    corresponds_self fun part hpart => ⟨rfl, h part hpart⟩
  exact related_step hT hself hclause (rfl : settings.skips plan = _)

end

/-- A trace from a depth within the limit or right beyond it, which may go down as many levels as
the limit leaves, fails for depth at the first depth beyond the limit only. -/
theorem ends_at_limit (settings : Settings) (given : Nat) : ∀ {depth : Nat},
    depth ≤ settings.maxPlanDepth + 1 → settings.maxPlanDepth + 1 ≤ depth + given →
    ∀ plan request, (visit settings given depth plan request).Ends (fun _ => True)
      fun e =>
        e.kind = .depth → e = .tooDeep (settings.maxPlanDepth + 1) settings.maxPlanDepth := by
  have hE : ∀ e : ExtractionError, e.kind ≠ .depth → e.kind = .depth →
      e = .tooDeep (settings.maxPlanDepth + 1) settings.maxPlanDepth :=
    fun _ hkind h => absurd h hkind
  induction given with
  | zero =>
    intro depth hdepth hlevels plan request
    obtain rfl : depth = settings.maxPlanDepth + 1 := Nat.le_antisymm hdepth hlevels
    exact ends_fail fun _ => rfl
  | succ given ih =>
    intro depth hdepth hlevels plan request
    rw [visit]
    split
    · next hdeep =>
      obtain rfl : depth = settings.maxPlanDepth + 1 := Nat.le_antisymm hdepth hdeep
      exact ends_fail fun _ => rfl
    · next hwithin =>
      have hbelow : ∀ plan request, (visit settings given (depth + 1) plan request).Ends _ _ :=
        ih (by omega) (by omega)
      rw [stepAt_eq]
      cases plan with
      | withCte definitions body =>
        have hinline := ends_of_not_ranOut hE (not_ranOut_inline [] (.withCte definitions body))
        exact hinline.bind fun inlined _ => hbelow inlined request
      | _ => exact ends_of_parts hE (fun _ _ h => Plan.noConfusion h) fun part _ => hbelow part

/-! ## Levels that are enough -/

/-- So many levels are enough for the plan, whatever the settings and the request. -/
def EnoughFor (plan : Plan) (n : Nat) : Prop :=
  ∀ settings request,
    (extractWithin settings n plan request).Ends (fun _ => True) (·.kind ≠ .depth)

/-- More levels than enough are enough. -/
theorem EnoughFor.mono {plan : Plan} {n k : Nat} (h : EnoughFor plan n) (hk : n ≤ k) :
    EnoughFor plan k := by
  intro settings request
  rw [extends_of_le hk plan request (not_ranOut_of_ends (h settings request))]
  exact h settings request

/-- Some number of levels is enough for several plans at once. -/
theorem exists_enoughFor_all {plans : List Plan} (h : ∀ plan ∈ plans, ∃ n, EnoughFor plan n) :
    ∃ n, ∀ plan ∈ plans, EnoughFor plan n := by
  induction plans with
  | nil => exact ⟨0, fun plan hplan => absurd hplan List.not_mem_nil⟩
  | cons first rest ih =>
    obtain ⟨n, hfirst⟩ := h first List.mem_cons_self
    obtain ⟨k, hrest⟩ := ih fun plan hplan => h plan (List.mem_cons_of_mem first hplan)
    refine ⟨max n k, List.forall_mem_cons.2 ⟨hfirst.mono (le_max_left n k), fun plan hplan => ?_⟩⟩
    exact (hrest plan hplan).mono (le_max_right n k)

/-- One level more than for its parts is enough for a plan that is no clause. -/
theorem exists_enoughFor_of_parts {plan : Plan}
    (hclause : ∀ definitions body, plan ≠ .withCte definitions body)
    (h : ∀ part ∈ plan.parts, ∃ n, EnoughFor part n) : ∃ n, EnoughFor plan n := by
  obtain ⟨n, hn⟩ := exists_enoughFor_all h
  exact ⟨n + 1, fun settings request =>
    ends_of_parts (fun _ h => h) hclause fun part hpart => hn part hpart settings⟩

/-- Some number of levels is enough for what is put in the place of a reference. -/
theorem exists_enoughFor_referenceProjection (output : List Attribute) {body : Plan}
    (h : ∃ n, EnoughFor body n) : ∃ n, EnoughFor (referenceProjection output body) n := by
  refine exists_enoughFor_of_parts (fun _ _ h => Plan.noConfusion h) fun part hpart => ?_
  rcases mem_parts.1 hpart with hpart | hpart | hpart | hpart | hpart
  · rw [entered_referenceProjection, List.mem_singleton] at hpart
    exact hpart ▸ h
  · exact absurd hpart List.not_mem_nil
  · exact absurd hpart List.not_mem_nil
  · exact absurd hpart List.not_mem_nil
  · exact absurd hpart List.not_mem_nil

/-- For all queries in scope some number of levels is enough. -/
def EnoughInScope (scope : CteScope) : Prop := ∀ entry ∈ scope, ∃ n, EnoughFor entry.2 n

/-- For what the plan is written out to in such a scope, some number of levels is enough. -/
def EnoughWritten (plan : Plan) : Prop :=
  ∀ scope, EnoughInScope scope →
    (plan.inline scope).Ends (fun inlined => ∃ n, EnoughFor inlined n) fun _ => True

/-- Some number of levels is enough for what a plan is written out to, if this holds of its parts.
-/
theorem enoughWritten_of_parts {plan : Plan}
    (h : ∀ part ∈ plan.parts, (∃ n, EnoughFor part n) ∧ EnoughWritten part) :
    EnoughWritten plan := by
  intro scope hscope
  cases hscoping : plan.isScoping with
  | false =>
    rw [Plan.inline_eq scope hscoping]
    refine (ends_trivial _).bind fun _ _ => ends_pure (exists_enoughFor_of_parts ?_ ?_)
    -- no part that is written becomes a clause: it has the outline that it had
    · intro definitions body hwith
      have hkept := eq_of_outline isScoping_outline (plan.outline_mapParts (written scope) id id)
      rw [hwith, hscoping] at hkept
      cases hkept
    · intro part hpart
      simp only [mem_parts, entered_mapParts, bypassed_mapParts, aside_mapParts, stored_mapParts,
        clause_mapParts, List.map_id] at hpart
      rcases hpart with hpart | hpart
      · obtain ⟨query, hquery, rfl⟩ := List.mem_map.1 hpart
        obtain ⟨henough, hwritten⟩ := h query (mem_parts.2 (Or.inl hquery))
        exact written_of_ends (hwritten scope hscope) henough
      · exact (h part (mem_parts.2 (Or.inr hpart))).1
  | true =>
    cases plan with
    | withCte definitions body =>
      refine (CteDefinition.ends_extend (P := EnoughInScope)
        (fun definition hdefinition scope hscope => ?_) hscope).bind fun inner hinner => ?_
      · have hquery : EnoughWritten definition.child :=
          (h definition.child (definition_mem_parts hdefinition)).2
        exact (hquery scope hscope).imp (fun _ hbody => List.forall_mem_cons.2 ⟨hbody, hscope⟩)
          fun _ h => h
      · exact (h body body_mem_parts).2 inner hinner
    | cteReference id output =>
      rw [Plan.inline, resolveReference]
      split
      · refine ends_of_result_eq (result_note_bind _ _) (ends_pure ?_)
        exact exists_enoughFor_of_parts (fun _ _ h => Plan.noConfusion h) fun part hpart =>
          absurd hpart List.not_mem_nil
      · next body hlookup =>
        obtain ⟨before, after, hsplit, -⟩ := List.lookup_eq_some_iff.1 hlookup
        have hbody : ∃ n, EnoughFor body n := hscope (id, body) (by simp [hsplit])
        split
        · exact ends_fail trivial
        · exact ends_pure (exists_enoughFor_referenceProjection output hbody)
    | _ => cases hscoping

/-- For a clause that is written out to a plan for which some number of levels is enough, one more
is enough. -/
theorem exists_enoughFor_withCte {definitions : List CteDefinition} {body : Plan}
    (h : EnoughWritten (.withCte definitions body)) :
    ∃ n, EnoughFor (.withCte definitions body) n := by
  have hends := h [] fun entry hentry => absurd hentry List.not_mem_nil
  obtain ⟨n, hn⟩ : ∃ n, ∀ inlined,
      ((Plan.withCte definitions body).inline []).result = .ok inlined → EnoughFor inlined n := by
    cases hinline : ((Plan.withCte definitions body).inline []).result with
    | error e => exact ⟨0, fun inlined h => by cases h⟩
    | ok inlined =>
      obtain ⟨n, hn⟩ := hends.of_ok hinline
      exact ⟨n, fun other h => Except.ok.inj h ▸ hn⟩
  refine ⟨n + 1, fun settings request => ?_⟩
  have hinline := ends_of_not_ranOut (fun _ h => h)
    (not_ranOut_inline [] (.withCte definitions body))
  have hwritten := ends_iff.2 ⟨fun _ h => h, (ends_iff.1 hinline).2⟩
  exact hwritten.bind fun inlined hinlined => hn inlined hinlined settings request

/-- For every plan some number of levels is enough, and for what it is written out to as well. -/
theorem enoughFor_and_enoughWritten (plan : Plan) :
    (∃ n, EnoughFor plan n) ∧ EnoughWritten plan := by
  induction plan using induction_on_parts with
  | h plan ih =>
    have hwritten := enoughWritten_of_parts ih
    refine ⟨?_, hwritten⟩
    cases plan with
    | withCte definitions body => exact exists_enoughFor_withCte hwritten
    | _ =>
      exact exists_enoughFor_of_parts (fun _ _ h => Plan.noConfusion h) fun part hpart =>
        (ih part hpart).1

/-! ## Limits -/

/-- The limit only limits. A lineage, or a failure for a cause other than depth, is the same under
every higher limit; a failure for depth reports the first depth beyond the limit and the limit; and
from some limit on no failure is one for depth, whatever is asked and whether views are opened or
not. -/
theorem extract_limits (plan : Plan) :
    (∀ settings settings' : Settings,
      settings.skipPersistedViews = settings'.skipPersistedViews →
      settings.maxPlanDepth ≤ settings'.maxPlanDepth → ∀ request,
        (∀ m, (plan.extract settings request).result = .ok m →
          (plan.extract settings' request).result = .ok m) ∧
        ∀ e, (plan.extract settings request).result = .error e →
          (e.kind ≠ .depth → (plan.extract settings' request).result = .error e) ∧
          (e.kind = .depth → e = .tooDeep (settings.maxPlanDepth + 1) settings.maxPlanDepth ∧
            e.message = "plan depth " ++ Text.writeNat (settings.maxPlanDepth + 1) ++
              " exceeds the configured limit of " ++ Text.writeNat settings.maxPlanDepth)) ∧
    ∃ limit, ∀ settings : Settings, limit ≤ settings.maxPlanDepth → ∀ request e,
      (plan.extract settings request).result = .error e → e.kind ≠ .depth := by
  refine ⟨fun settings settings' hviews hlimits request => ?_, ?_⟩
  · have hextends := extends_of_limits hviews _ (Nat.succ_le_succ hlimits) plan request
    rw [← extract_eq, ← extract_eq] at hextends
    refine ⟨fun m hm => ?_, fun e he => ⟨fun hkind => ?_, fun hkind => ?_⟩⟩
    · rw [hextends.of_ok hm]
      exact hm
    · have hran : ¬ RanOut (plan.extract settings request) := by
        rw [ranOut_iff]
        rintro ⟨e', he', hkind'⟩
        obtain rfl := Except.error.inj (he.symm.trans he')
        exact hkind hkind'
      rw [hextends hran]
      exact he
    · have hends := ends_at_limit settings _ (Nat.zero_le _) (Nat.le_add_left _ 0) plan request
      obtain rfl := hends.of_error he hkind
      exact ⟨rfl, rfl⟩
  · obtain ⟨n, hn⟩ := (enoughFor_and_enoughWritten plan).1
    refine ⟨n, fun settings hlimit request e he => ?_⟩
    rw [extract_eq] at he
    exact (hn.mono (Nat.le_succ_of_le hlimit) settings request).of_error he

/-- `WITH q AS (SELECT a FROM t) SELECT b FROM q`, filtered. -/
def filteredClause : Plan :=
  .operator "Filter" [.withCte [.mk 1 (.relation [⟨1, some "a", []⟩] (some ⟨"t", none, none⟩))]
    (.cteReference 1 [⟨2, some "b", []⟩])] [⟨2, some "b", []⟩]

/-- The plan as it stands has three levels, and one more where its clause is written out: the
reference gives way to a projection over the table. -/
theorem extract_filteredClause :
    (filteredClause.extract ⟨false, 2, by decide⟩ ∅).result = .error (.tooDeep 3 2) ∧
      ∀ settings : Settings, settings.skipPersistedViews = false → 3 ≤ settings.maxPlanDepth →
        (filteredClause.extract settings ∅).result =
          .ok (.ofList [(⟨2, some "b", []⟩, .ofList [⟨1, some "a", ["t"]⟩])]) := by
  have hlimited := (extract_limits filteredClause).1 ⟨false, 3, by decide⟩
  refine ⟨by decide +kernel, fun settings hviews hlimit => ?_⟩
  exact (hlimited settings hviews.symm hlimit ∅).1 _ (by decide +kernel)

end Lineage

end ColumnTrace
