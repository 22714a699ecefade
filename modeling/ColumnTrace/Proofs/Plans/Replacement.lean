import ColumnTrace.Proofs.Inlining.Scopes

/-!
# Plans with replaced parts

A plan may give way to another one that is paired with it by a relation, at any number of places in
a plan and however deep (`Plan.Replaced`). If the relation keeps the columns of plans, so does
replacement. If plans that are paired are also written out to such plans, then replacing parts
before or after writing out comes to the same (`Plan.Replaced.inlinesAlike`).
-/

set_option autoImplicit false

namespace ColumnTrace

namespace Plan

/-! ## Replaced parts -/

/-- The second plan is the first with plans in it, at any places and however deep, that give way to
their partners in a relation. -/
inductive Replaced (B : Plan → Plan → Prop) : Plan → Plan → Prop
  | here {p q : Plan} (h : B p q) : Replaced B p q
  | under {p q : Plan} (houtline : p.outline = q.outline)
    (hparts : ∀ pair ∈ p.parts.zip q.parts, Replaced B pair.1 pair.2) : Replaced B p q
  | trans {p q r : Plan} (hpq : Replaced B p q) (hqr : Replaced B q r) : Replaced B p r

variable {B : Plan → Plan → Prop} {p q : Plan}

/-- A plan may have its parts replaced one by one. -/
theorem Replaced.of_corresponds (h : Corresponds (Replaced B) p q) : Replaced B p q :=
  have h := corresponds_iff.1 h
  .under h.1 h.2

/-- Nothing need be replaced. -/
theorem Replaced.refl (plan : Plan) : Replaced B plan plan := by
  induction plan using induction_on_parts with
  | h plan ih => exact .of_corresponds (corresponds_self ih)

/-- Induction over replacements: at the place itself, under an operator, and one after the other. -/
theorem Replaced.rec_on_parts {P : Plan → Plan → Prop} (here : ∀ p q, B p q → P p q)
    (under : ∀ p q, Corresponds (fun p q => Replaced B p q ∧ P p q) p q → P p q)
    (trans : ∀ p q r, Replaced B p q → Replaced B q r → P p q → P q r → P p r)
    (h : Replaced B p q) : P p q := by
  induction h with
  | here h => exact here _ _ h
  | under houtline hparts ih =>
    exact under _ _ (corresponds_iff.2 ⟨houtline, fun pair hpair => ⟨hparts pair hpair,
      ih pair hpair⟩⟩)
  | trans hpq hqr ihpq ihqr => exact trans _ _ _ hpq hqr ihpq ihqr

/-- Replacing plans by others with the same columns changes no columns. -/
theorem Replaced.output_eq (hB : ∀ p q, B p q → p.output = q.output) (h : Replaced B p q) :
    p.output = q.output := by
  refine h.rec_on_parts hB (fun p q h => ?_) fun p q r _ _ hpq hqr => hpq.trans hqr
  exact (h.imp fun _ _ h => h.2).output_eq

/-! ## Writing out plans with replaced parts -/

theorem isScoping_outline (plan : Plan) : plan.outline.isScoping = plan.isScoping := by
  cases plan <;> rfl

/-- The plan is a merge. -/
def isMerge : Plan → Bool
  | .merge .. => true
  | _ => false

theorem isMerge_outline (plan : Plan) : plan.outline.isMerge = plan.isMerge := by
  cases plan <;> rfl

/-- The parts that are visited are those that are entered, or the sides of a merge. -/
theorem visited_eq (plan : Plan) :
    plan.visited = if plan.isMerge then plan.bypassed else plan.entered := by
  cases plan <;> rfl

/-- Plans that correspond have their visited parts paired. -/
theorem Corresponds.visited {R : Plan → Plan → Prop} (h : Corresponds R p q) :
    List.Forall₂ R p.visited q.visited := by
  rw [visited_eq, visited_eq, eq_of_outline isMerge_outline h.outline]
  split
  · exact h.bypassed
  · exact h.entered

/-- The scopes know the same numbers, for queries of which the second are the first with replaced
parts. -/
def ReplacedScope (B : Plan → Plan → Prop) : CteScope → CteScope → Prop :=
  List.Forall₂ fun s t => s.1 = t.1 ∧ Replaced B s.2 t.2

/-- A number means partners in both scopes. -/
theorem ReplacedScope.lookup {s t : CteScope} (h : ReplacedScope B s t) (id : Int) :
    Option.Rel (Replaced B) (s.lookup id) (t.lookup id) := by
  induction h with
  | nil => exact .none
  | @cons first second rest rest' hfirst _ ih =>
    obtain ⟨number, body⟩ := first
    obtain ⟨_, body'⟩ := second
    obtain ⟨rfl, hbody⟩ := hfirst
    rw [List.lookup_cons, List.lookup_cons]
    cases id == number with
    | true => exact .some hbody
    | false => exact ih

/-- What is put in the place of a reference has its query replaced. -/
theorem replaced_referenceProjection (hB : ∀ p q, B p q → p.output = q.output)
    (output : List Attribute) (h : Replaced B p q) :
    Replaced B (referenceProjection output p) (referenceProjection output q) := by
  refine .of_corresponds ⟨?_, ?_, .nil, .nil, .nil, .nil⟩
  · rw [referenceProjection, referenceProjection, h.output_eq hB]
    rfl
  · rw [entered_referenceProjection, entered_referenceProjection]
    exact .cons h .nil

/-- A reference is written out to partners in both scopes. -/
theorem matches_resolveReference (hB : ∀ p q, B p q → p.output = q.output) {s t : CteScope}
    (h : ReplacedScope B s t) (id : Int) (output : List Attribute) :
    Traced.Matches (Replaced B) (resolveReference s id output) (resolveReference t id output) := by
  have hlookup := h.lookup id
  simp only [resolveReference]
  generalize s.lookup id = found at hlookup
  generalize t.lookup id = found' at hlookup
  cases hlookup with
  | none => exact Traced.matches_of_eq rfl fun plan _ => .refl plan
  | @some body body' hbody =>
    simp only [hbody.output_eq hB]
    split
    · exact .error
    · exact Traced.matches_pure (replaced_referenceProjection hB output hbody)

/-- Plans that are written out to partners leave partners. -/
theorem replaced_written {s t : CteScope} (h : Replaced B p q)
    (hmatches : Traced.Matches (Replaced B) (p.inline s) (q.inline t)) :
    Replaced B (p.written s) (q.written t) := by
  rw [written, written]
  generalize p.inline s = x at hmatches
  generalize q.inline t = y at hmatches
  cases hmatches with
  | ok hab => exact hab
  | error => exact h

/-- Writing out takes partners to partners, at a plan. -/
def InlinesAlike (B : Plan → Plan → Prop) (p q : Plan) : Prop :=
  ∀ s t, ReplacedScope B s t → Traced.Matches (Replaced B) (p.inline s) (q.inline t)

/-- A clause brings partners into both scopes. -/
theorem matches_extend {definitions definitions' : List CteDefinition}
    (h : List.Forall₂ (fun d d' => d.id = d'.id ∧ InlinesAlike B d.child d'.child)
      definitions definitions') : ∀ {s t : CteScope}, ReplacedScope B s t →
    Traced.Matches (ReplacedScope B) (CteDefinition.extend s definitions)
      (CteDefinition.extend t definitions') := by
  induction h with
  | nil => exact fun hscope => Traced.matches_pure hscope
  | @cons first second rest rest' hfirst _ ih =>
    intro s t hscope
    obtain ⟨number, query⟩ := first
    obtain ⟨_, query'⟩ := second
    obtain ⟨rfl, hquery⟩ := hfirst
    exact (hquery s t hscope).bind fun body body' _ _ hbody => ih (.cons ⟨rfl, hbody⟩ hscope)

/-- Clauses that correspond define the same numbers, and their queries and the plans under them are
paired. -/
theorem Corresponds.of_withCte {R : Plan → Plan → Prop}
    {definitions definitions' : List CteDefinition} {body body' : Plan}
    (h : Corresponds R (.withCte definitions body) (.withCte definitions' body')) :
    List.Forall₂ (fun d d' => d.id = d'.id ∧ R d.child d'.child) definitions definitions' ∧
      R body body' := by
  have houtline : definitions.map (CteDefinition.map fun _ => .oneRow) =
      definitions'.map (CteDefinition.map fun _ => .oneRow) := (Plan.withCte.inj h.outline).1
  have hlength : definitions.length = definitions'.length := by
    simpa using congrArg List.length houtline
  rw [← List.forall₂_eq_eq_eq, List.forall₂_map_left_iff, List.forall₂_map_right_iff] at houtline
  obtain ⟨hqueries, hbody⟩ := forall₂_of_append (by simpa using hlength) h.clause
  rw [List.forall₂_map_left_iff, List.forall₂_map_right_iff] at hqueries
  refine ⟨List.forall₂_iff_zip.2 ⟨hlength, fun hpair => ⟨?_, List.forall₂_zip hqueries hpair⟩⟩, ?_⟩
  · exact (CteDefinition.mk.inj (List.forall₂_zip houtline hpair)).1
  · cases hbody with
    | cons hbody _ => exact hbody

/-- Writing out takes partners to partners, if it does so in their parts. -/
theorem inlinesAlike_under (hB : ∀ p q, B p q → p.output = q.output)
    (h : Corresponds (fun p q => Replaced B p q ∧ InlinesAlike B p q) p q) :
    InlinesAlike B p q := by
  intro s t hscope
  cases hscoping : p.isScoping with
  | false =>
    have hscoping' : q.isScoping = false :=
      (eq_of_outline isScoping_outline h.outline).symm.trans hscoping
    rw [inline_eq s hscoping, inline_eq t hscoping']
    have hvisited := Traced.matches_mapM (h.visited.imp fun _ _ h => h.2 s t hscope)
    refine hvisited.bind fun _ _ _ _ _ => Traced.matches_pure (.of_corresponds ?_)
    have hreplaced := h.imp fun _ _ h => h.1
    refine ⟨?_, ?_, ?_, ?_, ?_, ?_⟩
    · rw [outline_mapParts, outline_mapParts, h.outline]
    · rw [entered_mapParts, entered_mapParts, List.forall₂_map_left_iff, List.forall₂_map_right_iff]
      exact h.entered.imp fun _ _ h => replaced_written h.1 (h.2 s t hscope)
    · simpa using hreplaced.bypassed
    · simpa using hreplaced.aside
    · simpa using hreplaced.stored
    · simpa using hreplaced.clause
  | true =>
    cases p with
    | withCte definitions body =>
      cases q with
      | withCte definitions' body' =>
        obtain ⟨hdefinitions, hbody⟩ := h.of_withCte
        have hextend := matches_extend (hdefinitions.imp fun _ _ h => ⟨h.1, h.2.2⟩) hscope
        exact hextend.bind fun s' t' _ _ hscope' => hbody.2 s' t' hscope'
      | _ => cases h.outline
    | cteReference id output =>
      cases q with
      | cteReference id' output' =>
        obtain ⟨rfl, rfl⟩ := Plan.cteReference.inj h.outline
        exact matches_resolveReference hB hscope id output
      | _ => cases h.outline
    | _ => cases hscoping

/-- A plan is written out alike in scopes that are alike. -/
theorem inlinesAlike_self (hB : ∀ p q, B p q → p.output = q.output) (plan : Plan) :
    InlinesAlike B plan plan := by
  induction plan using induction_on_parts with
  | h plan ih =>
    exact inlinesAlike_under hB (corresponds_self fun part hpart => ⟨.refl part, ih part hpart⟩)

/-- Writing out takes plans with replaced parts to such plans, where it does so in one scope for
the plans that are replaced. -/
theorem Replaced.inlinesAlike (hB : ∀ p q, B p q → p.output = q.output)
    (hinline : ∀ p q, B p q → ∀ scope : CteScope,
      Traced.Matches (Replaced B) (p.inline scope) (q.inline scope))
    (h : Replaced B p q) : InlinesAlike B p q := by
  have htrans : ∀ p q r, Replaced B p q → Replaced B q r → Replaced B p r :=
    fun _ _ _ hpq hqr => hpq.trans hqr
  have hself : ∀ scope : CteScope, ReplacedScope B scope scope := fun scope =>
    List.forall₂_same.2 fun entry _ => ⟨rfl, .refl entry.2⟩
  refine h.rec_on_parts (fun p q hpq s t hscope => ?_) (fun p q h => inlinesAlike_under hB h)
    fun p q r _ _ hpq hqr s t hscope => ?_
  · exact (hinline p q hpq s).trans htrans (inlinesAlike_self hB q s t hscope)
  · exact (hpq s s (hself s)).trans htrans (hqr s t hscope)

/-! ## Plans without clauses and references -/

/-- Neither a clause nor a reference stands anywhere in the plan. -/
def CteFree (plan : Plan) : Prop := Throughout parts (·.isScoping = false) plan

/-- Such a plan is written out as it is, in every scope. -/
theorem CteFree.inline_eq {plan : Plan} (h : plan.CteFree) (scope : CteScope) :
    plan.inline scope = pure plan := by
  induction h with
  | @mk plan hplan _ ih =>
    have hvisited : plan.visited.mapM (inline scope) = pure plan.visited :=
      Traced.mapM_eq_pure fun part hpart => ih part (plan.visited_subset_parts hpart)
    have hwritten : ∀ part ∈ plan.entered, part.written scope = id part := fun part hpart =>
      written_eq (congrArg Traced.result (ih part (mem_parts.2 (Or.inl hpart))))
    rw [Plan.inline_eq scope hplan, hvisited, pure_bind,
      mapParts_congr id hwritten (fun _ _ => rfl) fun _ _ => rfl, mapParts_id]

end Plan

end ColumnTrace
