import ColumnTrace.Proofs.Accounts
import ColumnTrace.Proofs.Lineage.Reference
import ColumnTrace.Proofs.Lineage.UnknownColumns

/-!
# Tracing agrees with where columns come from

A request that goes down a resolved query comes back with all that the query brings for its own
columns, and with what it hands back of the others (`Plan.AnswersRequests`); an empty request comes
back with all that the query brings for all its columns (`Plan.AnswersInFull`). The proof goes by
the levels of the plan. An operator with one child turns a request into one for its child, and what
the child brings for the columns that a column is computed from is what the operator brings for it
(`Plan.Passes`); a join puts two answers together; branches are traced in full and put side by side.
-/

set_option autoImplicit false

namespace ColumnTrace

namespace Plan

/-- The columns of a query are among the columns that it knows. -/
theorem id_mem_columnIds_of_mem_output {plan : Plan} (hquery : plan.isQuery = true)
    {a : Attribute} (ha : a ∈ plan.output) : a.id ∈ plan.columnIds := by
  match plan with
  | .project items child =>
    obtain ⟨item, hitem, rfl⟩ := List.mem_map.1 ha
    exact List.mem_append_left _ (List.mem_map_of_mem (f := (·.toAttribute.id)) hitem)
  | .aggregate grouping items child =>
    obtain ⟨item, hitem, rfl⟩ := List.mem_map.1 ha
    exact List.mem_append_left _ (List.mem_map_of_mem (f := (·.toAttribute.id)) hitem)
  | .window functions child partition order =>
    rcases List.mem_append.1 ha with hchild | hfunction
    · exact List.mem_append_right _ (List.mem_append_left _ (List.mem_map_of_mem hchild))
    · obtain ⟨f, hf, rfl⟩ := List.mem_map.1 hfunction
      exact List.mem_append_left _ (List.mem_map_of_mem (f := Alias.id) hf)
  | .expand projections output child => exact List.mem_append_left _ (List.mem_map_of_mem ha)
  | .join left right type condition =>
    simp only [Plan.isQuery, Bool.and_eq_true] at hquery
    rw [Plan.output] at ha
    rw [columnIds]
    split at ha
    · next hexposes =>
      rw [if_pos hexposes]
      rcases List.mem_append.1 ha with hleft | hright
      · exact List.mem_append_left _ (id_mem_columnIds_of_mem_output hquery.1 hleft)
      · exact List.mem_append_right _ (id_mem_columnIds_of_mem_output hquery.2 hright)
    · next hexposes =>
      rw [if_neg hexposes]
      exact id_mem_columnIds_of_mem_output hquery.1 ha
  | .union branches output =>
    have hne : output ≠ [] := List.ne_nil_of_mem ha
    rw [columnIds_union hne]
    exact List.mem_map_of_mem ha
  | .operator name [child] output => exact List.mem_append_left _ (List.mem_map_of_mem ha)
  | .relation .. | .localRelation .. | .view .. | .cached .. => exact List.mem_map_of_mem ha
  | .oneRow => cases ha

variable {settings : Settings} {source : Int → Attribute} {plan child : Plan} {n : Nat}
variable {a d e : Attribute}

/-- A plan knows the identities of its columns. -/
theorem WellFormed.id_mem_columnIds (h : plan.WellFormed settings source) (ha : a ∈ plan.output) :
    a.id ∈ plan.columnIds :=
  id_mem_columnIds_of_mem_output h.isQuery ha

/-- Columns of a plan with one identity are the same. -/
theorem WellFormed.eq_of_id_eq (h : plan.WellFormed settings source) {b : Attribute}
    (ha : a ∈ plan.output) (hb : b ∈ plan.output) (hid : a.id = b.id) : a = b :=
  List.inj_on_of_nodup_map h.nodup_ids ha hb hid

/-! ## What is asked and what is answered -/

/-- A query answers for a column: with what it brings, where the column is its own, and else with
what it hands back. -/
def Gives (settings : Settings) (plan : Plan) (d e : Attribute) : Prop :=
  (d ∈ plan.output ∧ plan.Brings settings true d e) ∨
    (d.id ∉ plan.columnIds ∧ plan.handedBack? settings d = some e)

/-- A query may be asked for a column by plain columns that are its own or unknown to it. A column
that the query knows is asked for as it is. -/
structure Askable (plan : Plan) (entry : Attribute × AttributeSet) : Prop where
  plain : ∀ d ∈ entry.2.attrs, d.isPlain = true
  own_or_unknown : ∀ d ∈ entry.2.attrs, d ∈ plan.output ∨ d.id ∉ plan.columnIds
  key : entry.1.id ∈ plan.columnIds → entry.2.attrs = [entry.1]

/-- Within so many levels the query answers every request that it may be asked. -/
def AnswersRequests (settings : Settings) (n : Nat) (plan : Plan) : Prop :=
  ∀ request : LineageMap, request.isEmpty = false →
    (∀ entry ∈ request.entries, plan.Askable entry) →
    ∃ m, (Lineage.extractWithin settings n plan request).result = .ok m ∧
      ∀ entry ∈ request.entries, AccountsFor (m.sourcesOf entry.1).attrs
        fun e => ∃ d ∈ entry.2.attrs, plan.Gives settings d e

/-- The answer has the columns of the query and accounts for all that it brings for them. -/
def AnsweredInFull (settings : Settings) (plan : Plan) (answer : LineageMap) : Prop :=
  answer.keys = plan.output ∧
    ∀ a ∈ plan.output, AccountsFor (answer.sourcesOf a).attrs (plan.Brings settings false a)

/-- Within so many levels the query answers for all its columns. -/
def AnswersInFull (settings : Settings) (n : Nat) (plan : Plan) : Prop :=
  ∃ m, (Lineage.extractWithin settings n plan ∅).result = .ok m ∧ plan.AnsweredInFull settings m

/-- A plan gives for its own column what it brings for it. -/
theorem gives_of_mem_output (hplan : plan.WellFormed settings source) (hd : d ∈ plan.output) :
    plan.Gives settings d e ↔ plan.Brings settings true d e := by
  have hknown := hplan.id_mem_columnIds hd
  exact ⟨fun h => h.elim And.right fun h => absurd hknown h.1, fun h => Or.inl ⟨hd, h⟩⟩

/-- A plan gives for a column that it does not know what it hands back of it. -/
theorem gives_of_unknown (hplan : plan.WellFormed settings source) (hd : d.id ∉ plan.columnIds) :
    plan.Gives settings d e ↔ plan.handedBack? settings d = some e :=
  ⟨fun h => h.elim (fun h => absurd (hplan.id_mem_columnIds h.1) hd) And.right,
    fun h => Or.inr ⟨hd, h⟩⟩

/-- What a plan gives under a qualifier is the source of its identity. -/
theorem Gives.eq_source (hplan : plan.Resolved settings source) (hplain : d.isPlain = true)
    (h : plan.Gives settings d e) (hqualified : e.qualifier ≠ []) : e = source e.id := by
  rcases h with ⟨-, hbrings⟩ | ⟨-, hback⟩
  · exact hbrings.eq_source hplan hqualified
  · rw [eq_of_handedBack?_of_isPlain hplain plan hback] at hqualified
    exact absurd (Attribute.qualifier_of_isPlain hplain) hqualified

/-- A plan may be asked for one of its columns as itself. -/
theorem askable_identity (hplan : plan.WellFormed settings source) (ha : a ∈ plan.output) :
    plan.Askable (a, .singleton a) where
  plain d hd := by
    rw [List.mem_singleton.1 hd]
    exact hplan.plain a ha
  own_or_unknown d hd := Or.inl (List.mem_singleton.1 hd ▸ ha)
  key _ := rfl

/-! ## Operators that turn a request into one for their child -/

/-- The operator asks its child for `refs d` where it is asked for `d`: for the columns that its own
columns are computed from, and for columns unknown to it as they are. -/
structure Passes (settings : Settings) (plan child : Plan) (refs : Attribute → List Attribute) :
    Prop where
  mem_tracedBelow : child ∈ plan.tracedBelow settings
  columnIds_subset : child.columnIds ⊆ plan.columnIds
  mem_output : ∀ d ∈ plan.output, ∀ r ∈ refs d, r ∈ child.output
  brings_iff : ∀ d ∈ plan.output, ∀ asked e, plan.Brings settings asked d e ↔
    ∃ r ∈ refs d, child.Brings settings true r e
  /-- An identity that the child knows is passed on as it is. -/
  known : ∀ d ∈ plan.output, d.id ∈ child.columnIds → refs d = [d]
  unknown : ∀ d, d.isPlain = true → d.id ∉ plan.columnIds →
    refs d = [d] ∧ plan.handedBack? settings d = child.handedBack? settings d

section
variable {refs : Attribute → List Attribute} {entry : Attribute × AttributeSet}

/-- What a request turns into are columns of the child, and columns that the plan does not know. -/
theorem Passes.mem_refs (hpasses : Passes settings plan child refs) (hentry : plan.Askable entry)
    {x : Attribute} (hx : x ∈ entry.2.attrs.flatMap refs) :
    (∃ d ∈ entry.2.attrs, d ∈ plan.output ∧ x ∈ refs d ∧ x ∈ child.output) ∨
      (x ∈ entry.2.attrs ∧ x.id ∉ plan.columnIds) := by
  obtain ⟨d, hd, hx⟩ := List.mem_flatMap.1 hx
  rcases hentry.own_or_unknown d hd with hown | hunknown
  · exact Or.inl ⟨d, hd, hown, hx, hpasses.mem_output d hown x hx⟩
  · rw [(hpasses.unknown d (hentry.plain d hd) hunknown).1, List.mem_singleton] at hx
    exact Or.inr ⟨hx ▸ hd, hx ▸ hunknown⟩

/-- Nothing that the child is asked gets lost. -/
theorem Passes.mem_ofList_iff (hpasses : Passes settings plan child refs)
    (hchild : child.WellFormed settings source) (hentry : plan.Askable entry) {x : Attribute} :
    x ∈ (AttributeSet.ofList (entry.2.attrs.flatMap refs)).attrs ↔
      x ∈ entry.2.attrs.flatMap refs := by
  refine AttributeSet.mem_ofList_iff ?_
  intro x hx y hy hid
  have hknown : ∀ {z : Attribute}, z ∈ child.output → z.id ∈ plan.columnIds :=
    fun hz => hpasses.columnIds_subset (hchild.id_mem_columnIds hz)
  rcases hpasses.mem_refs hentry hx with ⟨-, -, -, -, hx⟩ | ⟨hx, hxunknown⟩ <;>
    rcases hpasses.mem_refs hentry hy with ⟨-, -, -, -, hy⟩ | ⟨hy, hyunknown⟩
  · exact hchild.eq_of_id_eq hx hy hid
  · exact absurd (hid ▸ hknown hx) hyunknown
  · exact absurd (hid ▸ hknown hy) hxunknown
  · exact AttributeSet.eq_of_id_eq hx hy hid

/-- What a request turns into may be asked of the child. -/
theorem Passes.askable (hpasses : Passes settings plan child refs)
    (hchild : child.WellFormed settings source) (hentry : plan.Askable entry) :
    child.Askable (entry.1, .ofList (entry.2.attrs.flatMap refs)) where
  plain x hx := by
    rcases hpasses.mem_refs hentry (AttributeSet.mem_of_mem_ofList hx) with
      ⟨-, -, -, -, hx⟩ | ⟨hx, -⟩
    · exact hchild.plain x hx
    · exact hentry.plain x hx
  own_or_unknown x hx := by
    rcases hpasses.mem_refs hentry (AttributeSet.mem_of_mem_ofList hx) with
      ⟨-, -, -, -, hx⟩ | ⟨-, hunknown⟩
    · exact Or.inl hx
    · exact Or.inr fun hmem => hunknown (hpasses.columnIds_subset hmem)
  key hmem := by
    have hkey := hentry.key (hpasses.columnIds_subset hmem)
    have hself : entry.1 ∈ entry.2.attrs := hkey ▸ List.mem_singleton_self _
    have hown : entry.1 ∈ plan.output :=
      (hentry.own_or_unknown _ hself).resolve_right
        (not_not_intro (hpasses.columnIds_subset hmem))
    show (AttributeSet.ofList (entry.2.attrs.flatMap refs)).attrs = [entry.1]
    rw [hkey, List.flatMap_singleton, hpasses.known _ hown hmem]
    rfl

/-- What the child gives for what it is asked is what the operator gives for a column. -/
theorem Passes.gives_iff (hpasses : Passes settings plan child refs)
    (hplan : plan.WellFormed settings source) (hchild : child.WellFormed settings source)
    (hentry : plan.Askable entry) :
    (∃ x ∈ (AttributeSet.ofList (entry.2.attrs.flatMap refs)).attrs, child.Gives settings x e) ↔
      ∃ d ∈ entry.2.attrs, plan.Gives settings d e := by
  simp only [hpasses.mem_ofList_iff hchild hentry]
  constructor
  · rintro ⟨x, hx, hgives⟩
    rcases hpasses.mem_refs hentry hx with ⟨d, hd, hown, hx, hmem⟩ | ⟨hx, hunknown⟩
    · rw [gives_of_mem_output hchild hmem] at hgives
      refine ⟨d, hd, (gives_of_mem_output hplan hown).2 ?_⟩
      exact (hpasses.brings_iff d hown true e).2 ⟨x, hx, hgives⟩
    · rw [gives_of_unknown hchild fun hmem => hunknown (hpasses.columnIds_subset hmem)] at hgives
      refine ⟨x, hx, (gives_of_unknown hplan hunknown).2 ?_⟩
      rw [(hpasses.unknown x (hentry.plain x hx) hunknown).2, hgives]
  · rintro ⟨d, hd, hgives⟩
    rcases hentry.own_or_unknown d hd with hown | hunknown
    · rw [gives_of_mem_output hplan hown, hpasses.brings_iff d hown] at hgives
      obtain ⟨r, hr, hbrings⟩ := hgives
      exact ⟨r, List.mem_flatMap.2 ⟨d, hd, hr⟩,
        (gives_of_mem_output hchild (hpasses.mem_output d hown r hr)).2 hbrings⟩
    · obtain ⟨hrefs, hback⟩ := hpasses.unknown d (hentry.plain d hd) hunknown
      rw [gives_of_unknown hplan hunknown, hback] at hgives
      refine ⟨d, List.mem_flatMap.2 ⟨d, hd, hrefs ▸ List.mem_singleton_self d⟩, ?_⟩
      exact (gives_of_unknown hchild fun hmem =>
        hunknown (hpasses.columnIds_subset hmem)).2 hgives

end

/-- A request that an operator turns into one for its child is answered by the child. -/
theorem Passes.answered {refs : Attribute → List Attribute}
    (hpasses : Passes settings plan child refs) (hplan : plan.Resolved settings source)
    (hanswers : child.AnswersRequests settings n) {request inner : LineageMap}
    (hasked : request.isEmpty = false) (hkeys : inner.keys = request.keys)
    (hinner : ∀ entry ∈ request.entries,
      inner.sourcesOf entry.1 = .ofList (entry.2.attrs.flatMap refs))
    (haskable : ∀ entry ∈ request.entries, plan.Askable entry) :
    ∃ m, (Lineage.extractWithin settings n child inner).result = .ok m ∧ m.keys = request.keys ∧
      ∀ entry ∈ request.entries, AccountsFor (m.sourcesOf entry.1).attrs
        fun e => ∃ d ∈ entry.2.attrs, plan.Gives settings d e := by
  have hchild := (hplan.of_traced hpasses.mem_tracedBelow).wellFormed
  have hne : inner.isEmpty = false := (OrderedMap.isEmpty_eq_of_keys_eq hkeys).trans hasked
  have hentries : ∀ entry ∈ request.entries,
      (entry.1, AttributeSet.ofList (entry.2.attrs.flatMap refs)) ∈ inner.entries := by
    intro entry hentry
    rw [← hinner entry hentry]
    exact LineageMap.mem_entries_of_mem_keys (hkeys ▸ OrderedMap.key_mem_of_entry_mem hentry)
  have hback : ∀ found ∈ inner.entries, ∃ entry ∈ request.entries,
      found = (entry.1, AttributeSet.ofList (entry.2.attrs.flatMap refs)) := by
    intro found hfound
    have hmem : found.1 ∈ request.keys := hkeys ▸ OrderedMap.key_mem_of_entry_mem hfound
    obtain ⟨entry, hentry, heq⟩ := List.mem_map.1 hmem
    refine ⟨entry, hentry, Prod.ext heq.symm ?_⟩
    rw [← LineageMap.sourcesOf_of_mem hfound, ← heq, hinner entry hentry]
  obtain ⟨m, hm, haccounts⟩ := hanswers inner hne (by
    intro found hfound
    obtain ⟨entry, hentry, rfl⟩ := hback found hfound
    exact hpasses.askable hchild (haskable entry hentry))
  refine ⟨m, hm, (Lineage.keys_of_request n hchild.isQuery hne hm).trans hkeys, ?_⟩
  intro entry hentry
  exact (haccounts _ (hentries entry hentry)).congr fun e =>
    hpasses.gives_iff hplan.wellFormed hchild (haskable entry hentry)

end Plan

end ColumnTrace
