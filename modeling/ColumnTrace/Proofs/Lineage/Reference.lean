import ColumnTrace.Proofs.Lineage.PlainColumns

/-!
# Where the columns of a plan come from

`Plan.Draws` says where a column of a query comes from, read from below: a table's column is that
column under the table's name, and a column of an operator comes from wherever the columns come from
that it is computed from (`Plan.Feeds`). Tracing works the other way round: a request goes down the
plan and picks up the answer. The two part where a join sends the request for a column of one side
into the other, and the other side hands the column back (`Plan.Strays`).

`Plan.Resolved` gathers what holds of a plan whose names have been resolved: an identity stands for
one column, a column that is referred to is there, positions agree, and names are plain.
-/

set_option autoImplicit false

namespace ColumnTrace

namespace Plan

/-- A column of a plan is computed from a column of a plan below. -/
inductive Feeds (settings : Settings) : Plan → Attribute → Plan → Attribute → Prop
  /-- An entry of a select list refers to the column. -/
  | item {plan child : Plan} {items : List SelectItem} {item : SelectItem} {r : Attribute}
      (hlist : plan.selectList? = some (items, child)) (hitem : item ∈ items)
      (hr : r ∈ item.toExpr.attributes) : Feeds settings plan item.toAttribute child r
  /-- A projection of an expansion refers to the column at this place. -/
  | place {projections : List (List Expr)} {output : List Attribute} {child : Plan} {i : Nat}
      {a r : Attribute} {row : List Expr} {e : Expr} (ha : output[i]? = some a)
      (hrow : row ∈ projections) (he : row[i]? = some e) (hr : r ∈ e.attributes) :
      Feeds settings (.expand projections output child) a child r
  /-- A window function refers to the column. -/
  | function {functions : List Alias} {child : Plan} {partition order : List Expr} {f : Alias}
      {r : Attribute} (hf : f ∈ functions) (hr : r ∈ f.child.attributes) :
      Feeds settings (.window functions child partition order) f.toAttribute child r
  /-- Window functions leave the other columns as they are. -/
  | beside {functions : List Alias} {child : Plan} {partition order : List Expr} {a : Attribute}
      (ha : a ∈ child.output) : Feeds settings (.window functions child partition order) a child a
  | left {left right : Plan} {type : JoinType} {condition : Option Expr} {a : Attribute}
      (ha : a ∈ left.output) : Feeds settings (.join left right type condition) a left a
  | right {left right : Plan} {type : JoinType} {condition : Option Expr} {a : Attribute}
      (hexposes : type.exposesRight = true) (ha : a ∈ right.output) :
      Feeds settings (.join left right type condition) a right a
  /-- The column stands at this place in a branch. -/
  | branch {plan branch : Plan} {output : List Attribute} {branches : List Plan} {i : Nat}
      {a b : Attribute} (hbranches : plan.branches? settings = some (output, branches))
      (hbranch : branch ∈ branches) (ha : output[i]? = some a) (hb : branch.output[i]? = some b) :
      Feeds settings plan a branch b
  | same {name : String} {child : Plan} {output : List Attribute} {a : Attribute}
      (ha : a ∈ output) : Feeds settings (.operator name [child] output) a child a

/-- A column of a query comes from a column of a table. -/
inductive Draws (settings : Settings) : Plan → Attribute → Attribute → Prop
  | table {plan : Plan} {output : List Attribute} {qualifier : List String} {a : Attribute}
      (htable : plan.table? settings = some (output, qualifier)) (ha : a ∈ output) :
      Draws settings plan a (a.withQualifier qualifier)
  | step {plan below : Plan} {a r s : Attribute} (hfeeds : plan.Feeds settings a below r)
      (hdraws : Draws settings below r s) : Draws settings plan a s

/-- A column of one side of a join is handed back by the other side. -/
inductive HandsAcross (settings : Settings) : Plan → Attribute → Attribute → Prop
  | fromRight {left right : Plan} {type : JoinType} {condition : Option Expr} {a e : Attribute}
      (hexposes : type.exposesRight = true) (ha : a ∈ left.output)
      (hback : right.handedBack? settings a = some e) :
      HandsAcross settings (.join left right type condition) a e
  | fromLeft {left right : Plan} {type : JoinType} {condition : Option Expr} {a e : Attribute}
      (hexposes : type.exposesRight = true) (ha : a ∈ right.output)
      (hback : left.handedBack? settings a = some e) :
      HandsAcross settings (.join left right type condition) a e

/-- Whether the plans below are asked for certain columns, where the plan is asked or not. Joins and
unmodelled operators hand on what they get, branches are asked for all that they have, and any other
operator asks for what it needs. -/
def asksBelow (asked : Bool) : Plan → Bool
  | .join .. => asked
  | .operator .. => asked
  | .union .. => false
  | .view .. => false
  | .cached .. => false
  | _ => true

/-- A column is handed across a join on the way down from a column of a query. The flag says whether
the query is asked for certain columns. -/
inductive Strays (settings : Settings) : Bool → Plan → Attribute → Attribute → Prop
  | here {plan : Plan} {a e : Attribute} (hacross : plan.HandsAcross settings a e) :
      Strays settings true plan a e
  | step {asked : Bool} {plan below : Plan} {a r e : Attribute}
      (hfeeds : plan.Feeds settings a below r)
      (hstrays : Strays settings (plan.asksBelow asked) below r e) : Strays settings asked plan a e

/-- What tracing brings for a column of a query: all that it comes from, and what strays. -/
def Brings (settings : Settings) (asked : Bool) (plan : Plan) (a e : Attribute) : Prop :=
  plan.Draws settings a e ∨ plan.Strays settings asked a e

/-! ## Resolved plans -/

/-- What holds of one level of a resolved query. An identity belongs to one column, and `source`
tells for the columns of tables which: the tables of a plan agree on it. -/
structure WellFormed (settings : Settings) (source : Int → Attribute) (plan : Plan) : Prop where
  isQuery : plan.isQuery = true
  /-- The columns differ in their identities. -/
  nodup_ids : (plan.output.map Attribute.id).Nodup
  plain : ∀ a ∈ plan.output, a.isPlain = true
  /-- A table has a name, and its columns belong to it alone. -/
  table : ∀ output qualifier, plan.table? settings = some (output, qualifier) →
    qualifier ≠ [] ∧ ∀ a ∈ output, source a.id = a.withQualifier qualifier
  /-- A select list is not empty and refers to columns of the child; what it computes has a new
  identity, counts no rows, and takes nothing from subqueries. -/
  selectList : ∀ items child, plan.selectList? = some (items, child) →
    items ≠ [] ∧ (∀ item ∈ items, ∀ r ∈ item.toExpr.attributes, r ∈ child.output) ∧
      ∀ f, .aliased f ∈ items → f.id ∉ child.columnIds ∧ f.child.countsRows = false ∧
        (f.child.attributes = [] → f.child.subqueries = [])
  /-- Every projection of an expansion has an entry for every column and refers to columns of the
  child; where an identity of the child comes again, it is that column. -/
  expand : ∀ projections output child, plan = .expand projections output child →
    output ≠ [] ∧ projections ≠ [] ∧
      (∀ row ∈ projections, row.length = output.length ∧
        ∀ e ∈ row, ∀ r ∈ e.attributes, r ∈ child.output) ∧
      ∀ (i : Nat) (a : Attribute), output[i]? = some a → a.id ∈ child.columnIds →
        ∀ row ∈ projections, ∀ e : Expr, row[i]? = some e → e.attributes = [a]
  /-- Window functions have new identities and refer to columns of the child. -/
  window : ∀ functions child partition order, plan = .window functions child partition order →
    functions ≠ [] ∧
      ∀ f ∈ functions, f.id ∉ child.columnIds ∧ ∀ r ∈ f.child.attributes, r ∈ child.output
  /-- The sides of a join share no identity. -/
  join : ∀ left right type condition, plan = .join left right type condition →
    type.exposesRight = true → ∀ id ∈ left.columnIds, id ∉ right.columnIds
  /-- The branches have as many columns as the plan. -/
  branches : ∀ output branches, plan.branches? settings = some (output, branches) →
    output ≠ [] ∧ branches ≠ [] ∧ ∀ branch ∈ branches, branch.output.length = output.length
  /-- An unmodelled operator repeats the columns of its child. -/
  operator : ∀ name child output, plan = .operator name [child] output → output = child.output

/-- The plan is a resolved query on every level. -/
inductive Resolved (settings : Settings) (source : Int → Attribute) : Plan → Prop
  | mk {plan : Plan} (hplan : plan.WellFormed settings source)
      (hbelow : ∀ below ∈ plan.tracedBelow settings, Resolved settings source below) :
      Resolved settings source plan

/-! ## One step down -/

variable {settings : Settings} {source : Int → Attribute} {plan below : Plan} {asked : Bool}
variable {a r s e : Attribute} {output : List Attribute} {branches : List Plan}
variable {items : List SelectItem} {qualifier : List String}

/-- What feeds a column stands in a plan that is traced. -/
theorem Feeds.mem_tracedBelow (h : plan.Feeds settings a below r) :
    below ∈ plan.tracedBelow settings := by
  cases h with
  | item hlist => exact child_mem_tracedBelow hlist
  | left => exact left_mem_tracedBelow
  | right hexposes => exact right_mem_tracedBelow hexposes
  | branch hbranches hbranch =>
    rw [tracedBelow_of_branches hbranches]
    exact hbranch
  | _ => exact List.mem_cons_self

/-- A resolved query is well-formed on its first level. -/
theorem Resolved.wellFormed (h : plan.Resolved settings source) :
    plan.WellFormed settings source := by
  cases h with
  | mk hplan _ => exact hplan

/-- A resolved query is resolved wherever it is traced. -/
theorem Resolved.of_traced (h : plan.Resolved settings source)
    (hbelow : below ∈ plan.tracedBelow settings) : below.Resolved settings source := by
  cases h with
  | mk _ hall => exact hall below hbelow

/-- What a column comes from is the column that its identity belongs to, under its table's name. -/
theorem Draws.eq_source (hplan : plan.Resolved settings source) (h : plan.Draws settings a s) :
    s = source s.id ∧ s.qualifier ≠ [] := by
  induction h with
  | table htable ha =>
    obtain ⟨hqualifier, hsource⟩ := hplan.wellFormed.table _ _ htable
    exact ⟨(hsource _ ha).symm, hqualifier⟩
  | step hfeeds _ ih => exact ih (hplan.of_traced hfeeds.mem_tracedBelow)

/-- Only columns of a join are handed across. -/
theorem HandsAcross.mem_output (h : plan.HandsAcross settings a e) : a ∈ plan.output := by
  cases h with
  | fromRight hexposes ha =>
    rw [Plan.output, if_pos hexposes]
    exact List.mem_append_left _ ha
  | fromLeft hexposes ha =>
    rw [Plan.output, if_pos hexposes]
    exact List.mem_append_right _ ha

/-- A plain column that is handed across stays as it is. -/
theorem HandsAcross.eq_of_isPlain (hplain : a.isPlain = true)
    (h : plan.HandsAcross settings a e) : e = a := by
  cases h with
  | fromRight _ _ hback => exact eq_of_handedBack?_of_isPlain hplain _ hback
  | fromLeft _ _ hback => exact eq_of_handedBack?_of_isPlain hplain _ hback

/-- What strays is bare. -/
theorem Strays.isPlain (hplan : plan.Resolved settings source)
    (h : plan.Strays settings asked a e) : e.isPlain = true := by
  induction h with
  | here hacross =>
    have hplain := hplan.wellFormed.plain _ hacross.mem_output
    rw [hacross.eq_of_isPlain hplain]
    exact hplain
  | step hfeeds _ ih => exact ih (hplan.of_traced hfeeds.mem_tracedBelow)

/-- What arrives under a qualifier is the source of its identity. -/
theorem Brings.eq_source (hplan : plan.Resolved settings source)
    (h : plan.Brings settings asked a e) (hqualified : e.qualifier ≠ []) : e = source e.id := by
  rcases h with hdraws | hstrays
  · exact (hdraws.eq_source hplan).1
  · exact absurd (Attribute.qualifier_of_isPlain (hstrays.isPlain hplan)) hqualified

/-- What is brought comes from a table, from a plan below, or across a join. -/
theorem brings_iff : plan.Brings settings asked a e ↔
    (∃ output qualifier, plan.table? settings = some (output, qualifier) ∧ a ∈ output ∧
      e = a.withQualifier qualifier) ∨
    (∃ below r, plan.Feeds settings a below r ∧
      below.Brings settings (plan.asksBelow asked) r e) ∨
    (asked = true ∧ plan.HandsAcross settings a e) := by
  constructor
  · rintro (hdraws | hstrays)
    · cases hdraws with
      | table htable ha => exact Or.inl ⟨_, _, htable, ha, rfl⟩
      | step hfeeds hbelow => exact Or.inr (Or.inl ⟨_, _, hfeeds, Or.inl hbelow⟩)
    · cases hstrays with
      | here hacross => exact Or.inr (Or.inr ⟨rfl, hacross⟩)
      | step hfeeds hbelow => exact Or.inr (Or.inl ⟨_, _, hfeeds, Or.inr hbelow⟩)
  · rintro (⟨_, _, htable, ha, rfl⟩ | ⟨_, _, hfeeds, hbelow⟩ | ⟨rfl, hacross⟩)
    · exact Or.inl (.table htable ha)
    · exact hbelow.imp (.step hfeeds) (.step hfeeds)
    · exact Or.inr (.here hacross)

end Plan

end ColumnTrace
