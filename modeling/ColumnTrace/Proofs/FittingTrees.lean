import ColumnTrace.Proofs.Planner.Ensures
import ColumnTrace.Sql.Grouping
import ColumnTrace.Sql.Library

/-!
# Trees within bounds

What a reading takes out of a node has the properties that the node hands on to the nodes below it
(`Sql.Node.Passes`): the node that an argument is, the items that it lists, its relations, the
members of its grouping sets. A tree fits a list of names and a height if it names no other tables
and is no higher (`Sql.Node.Fits`), and what is below it then fits the next height. Every tree of a
library fits the names and the height of the library (`Sql.Library.fits_of_first`).
-/

set_option autoImplicit false

namespace ColumnTrace.Sql

variable {names : List String} {height : Nat} {n m : Node} {v : Value} {name : String}

/-! ## What stands directly below a node -/

namespace Node

/-- A node below another is an argument of it or stands in a list that is one. -/
theorem exists_mem_args_of_mem_children (h : m ∈ n.children) : ∃ arg ∈ n.args,
    arg.2 = .node m ∨ ∃ items, arg.2 = .list items ∧ Value.node m ∈ items := by
  obtain ⟨arg, harg, hm⟩ := List.mem_flatMap.1 h
  refine ⟨arg, harg, ?_⟩
  split at hm
  · next child hchild =>
    rw [hchild, List.mem_singleton.1 hm]
    exact .inl rfl
  · next items hitems =>
    obtain ⟨item, hitem, hnode⟩ := List.mem_filterMap.1 hm
    refine .inr ⟨items, hitems, ?_⟩
    cases item with
    | node inner =>
      rw [Value.node?, Option.some.injEq] at hnode
      rwa [hnode] at hitem
    | _ => cases hnode
  · cases hm

/-- An argument that is there is one of the arguments. -/
theorem exists_mem_args_of_arg (h : n.arg name = v) (hthere : v ≠ .null) :
    ∃ arg ∈ n.args, arg.2 = v := by
  unfold arg at h
  cases hlookup : n.args.lookup name with
  | none =>
    rw [hlookup] at h
    exact absurd h.symm hthere
  | some value =>
    rw [hlookup] at h
    obtain ⟨before, after, hargs, -⟩ := List.lookup_eq_some_iff.1 hlookup
    refine ⟨(name, value), ?_, h⟩
    rw [hargs]
    exact List.mem_append_right before List.mem_cons_self

/-- The node that an argument is stands directly below. -/
theorem mem_children_of_arg (h : (n.arg name).node? = some m) : m ∈ n.children := by
  have hnode : n.arg name = .node m := by
    cases harg : n.arg name with
    | node inner =>
      rw [harg] at h
      exact congrArg Value.node (Option.some.inj h)
    | _ =>
      rw [harg] at h
      cases h
  obtain ⟨arg, hmem, harg⟩ := exists_mem_args_of_arg hnode nofun
  refine List.mem_flatMap.2 ⟨arg, hmem, ?_⟩
  rw [harg]
  exact List.mem_singleton_self m

/-- The nodes that an argument lists stand directly below. -/
theorem mem_children_of_itemsOf {items : List Value} (h : n.itemsOf name = .ok items)
    (hv : v ∈ items) (hm : v.node? = some m) : m ∈ n.children := by
  have hitems : (n.arg name).items? = some items := by
    unfold itemsOf Value.items at h
    split at h
    · next found hfound => rw [hfound, Except.ok.inj h]
    · cases h
  have hlist : n.arg name = .list items := by
    unfold Value.items? at hitems
    split at hitems
    · next found hfound => rw [hfound, Option.some.inj hitems]
    · -- the characters of a text are no nodes
      obtain rfl := Option.some.inj hitems
      obtain ⟨c, -, rfl⟩ := List.mem_map.1 hv
      cases hm
    · split at hitems
      · cases hitems
      · obtain rfl := Option.some.inj hitems
        cases hv
  obtain ⟨arg, hmem, harg⟩ := exists_mem_args_of_arg hlist nofun
  refine List.mem_flatMap.2 ⟨arg, hmem, ?_⟩
  rw [harg]
  exact List.mem_filterMap.2 ⟨v, hv, hm⟩

end Node

/-- An item is no higher than its list. -/
theorem Value.height_le_itemsHeight {items : List Value} (h : v ∈ items) :
    v.height ≤ itemsHeight items := by
  induction items with
  | nil => cases h
  | cons item rest ih =>
    rw [itemsHeight]
    rcases List.mem_cons.1 h with rfl | h
    · exact Nat.le_max_left ..
    · exact Nat.le_trans (ih h) (Nat.le_max_right ..)

namespace Node

/-- An argument is no higher than the arguments together. -/
theorem height_le_argsHeight {args : List (String × Value)} {arg : String × Value}
    (h : arg ∈ args) : arg.2.height ≤ argsHeight args := by
  induction args with
  | nil => cases h
  | cons first rest ih =>
    rw [argsHeight]
    rcases List.mem_cons.1 h with rfl | h
    · exact Nat.le_max_left ..
    · exact Nat.le_trans (ih h) (Nat.le_max_right ..)

/-- A node is lower than the one above it. -/
theorem height_lt_of_mem_children (h : m ∈ n.children) : m.height < n.height := by
  obtain ⟨kind, args, facts⟩ := n
  obtain ⟨arg, hmem, harg⟩ := exists_mem_args_of_mem_children h
  have hargs : arg.2.height ≤ argsHeight args := height_le_argsHeight hmem
  rw [height]
  rcases harg with harg | ⟨items, harg, hitem⟩
  · rw [harg, Value.height] at hargs
    omega
  · have hitems : (Value.node m).height ≤ Value.itemsHeight items :=
      Value.height_le_itemsHeight hitem
    rw [harg, Value.height] at hargs
    rw [Value.height] at hitems
    omega

/-- What is reached from an item is reached from its list. -/
theorem subset_reachableItems {stop : Node → Bool} {items : List Value}
    (h : Value.node m ∈ items) : m.reachable stop ⊆ reachableItems stop items := by
  induction items with
  | nil => cases h
  | cons item rest ih =>
    rcases List.mem_cons.1 h with rfl | h
    · exact List.subset_append_left _ _
    · have hrest := ih h
      cases item with
      | node inner => exact List.subset_append_of_subset_right _ hrest
      | _ => exact hrest

/-- What is reached from a node below is reached from the arguments. -/
theorem subset_reachableArgs {stop : Node → Bool} {args : List (String × Value)}
    {arg : String × Value} (hmem : arg ∈ args)
    (h : arg.2 = .node m ∨ ∃ items, arg.2 = .list items ∧ Value.node m ∈ items) :
    m.reachable stop ⊆ reachableArgs stop args := by
  induction args with
  | nil => cases hmem
  | cons first rest ih =>
    obtain ⟨key, value⟩ := first
    rcases List.mem_cons.1 hmem with rfl | hmem
    · rcases h with rfl | ⟨items, rfl, hitem⟩
      · exact List.subset_append_left _ _
      · exact List.subset_append_of_subset_left _ (subset_reachableItems hitem)
    · have hrest := ih hmem
      cases value with
      | node inner => exact List.subset_append_of_subset_right _ hrest
      | list items => exact List.subset_append_of_subset_right _ hrest
      | _ => exact hrest

/-- The nodes of a part are nodes of the whole. -/
theorem preorder_subset_of_mem_children (h : m ∈ n.children) : m.preorder ⊆ n.preorder := by
  obtain ⟨kind, args, facts⟩ := n
  obtain ⟨arg, hmem, harg⟩ := exists_mem_args_of_mem_children h
  have hargs : m.preorder ⊆ reachableArgs (fun _ => false) args := subset_reachableArgs hmem harg
  rw [preorder, preorder, reachable, if_neg Bool.false_ne_true]
  exact List.subset_cons_of_subset _ hargs

end Node

/-! ## Nodes that a search reaches -/

namespace Node

variable {stop : Node → Bool}

/-- From a list the nodes are reached that its items reach, in order. -/
theorem reachableItems_eq (stop : Node → Bool) (items : List Value) :
    reachableItems stop items = (items.filterMap Value.node?).flatMap (·.reachable stop) := by
  induction items with
  | nil => rfl
  | cons item rest ih =>
    cases item with
    | node inner => simp [reachableItems, Value.node?, ih]
    | _ => exact ih

/-- From a node it is reached itself, and what the nodes below reach unless it stops the walk. -/
theorem reachable_eq (n : Node) (stop : Node → Bool) :
    n.reachable stop = n :: if stop n then [] else n.children.flatMap (·.reachable stop) := by
  obtain ⟨kind, args, facts⟩ := n
  have hargs : ∀ args : List (String × Value), reachableArgs stop args =
      (Node.mk kind args facts).children.flatMap (·.reachable stop) := by
    intro args
    induction args with
    | nil => rfl
    | cons arg rest ih =>
      obtain ⟨name, value⟩ := arg
      rw [children] at ih ⊢
      cases value <;> simp [Node.args, reachableArgs, reachableItems_eq, ih]
  rw [reachable, hargs]

theorem mem_reachable_self (n : Node) (stop : Node → Bool) : n ∈ n.reachable stop := by
  rw [reachable_eq]
  exact List.mem_cons_self

/-- Past a node that does not stop the walk, the nodes below it are walked. -/
theorem mem_reachable_iff (hstop : stop n = false) :
    m ∈ n.reachable stop ↔ m = n ∨ ∃ child ∈ n.children, m ∈ child.reachable stop := by
  rw [reachable_eq, hstop, if_neg Bool.false_ne_true, List.mem_cons, List.mem_flatMap]

/-- A tree has its root and the nodes of the trees below it. -/
theorem mem_preorder_iff : m ∈ n.preorder ↔ m = n ∨ ∃ child ∈ n.children, m ∈ child.preorder :=
  mem_reachable_iff rfl

/-- A walk that stops early reaches no more than one that does not. -/
theorem reachable_subset_preorder (height : Nat) : ∀ {n : Node}, n.height ≤ height →
    n.reachable stop ⊆ n.preorder := by
  induction height with
  | zero =>
    intro n hheight
    obtain ⟨kind, args, facts⟩ := n
    rw [Node.height] at hheight
    omega
  | succ height ih =>
    intro n hheight m hm
    rw [reachable_eq] at hm
    rw [mem_preorder_iff]
    rcases List.mem_cons.1 hm with rfl | hm
    · exact Or.inl rfl
    · split at hm
      · cases hm
      · obtain ⟨child, hchild, hm⟩ := List.mem_flatMap.1 hm
        have hlt := height_lt_of_mem_children hchild
        exact Or.inr ⟨child, hchild, ih (by omega) hm⟩

end Node

/-! ## Properties that pass down -/

/-- A value that is a node, where it is there, is a node. -/
theorem Value.eq_node_of_nodeIfThere (h : v.nodeIfThere = .ok (some n)) : v = .node n := by
  unfold nodeIfThere at h
  split at h
  · cases v with
    | node found => exact congrArg Value.node (Option.some.inj (Except.ok.inj h))
    | _ => cases h
  · cases h

/-- What a reading of every member of a list gives was read off a member. -/
theorem exists_of_mem_mapM {α β : Type} {f : α → Reading β} {xs : List α} {ys : List β}
    (h : xs.mapM f = .ok ys) {y : β} (hy : y ∈ ys) : ∃ x ∈ xs, f x = .ok y := by
  induction xs generalizing ys with
  | nil =>
    obtain rfl := Except.ok.inj h
    cases hy
  | cons x rest ih =>
    rw [List.mapM_cons] at h
    obtain ⟨first, hfirst, h⟩ := exists_of_bind_eq_ok h
    obtain ⟨others, hothers, h⟩ := exists_of_bind_eq_ok h
    obtain rfl := Except.ok.inj h
    rcases List.mem_cons.1 hy with rfl | hy
    · exact ⟨x, List.mem_cons_self, hfirst⟩
    · obtain ⟨z, hz, hread⟩ := ih hothers hy
      exact ⟨z, List.mem_cons_of_mem x hz, hread⟩

/-- The node that a value is has the property. -/
def Value.All (P : Node → Prop) (v : Value) : Prop := ∀ n, v.node? = some n → P n

section
variable {P : Node → Prop}

/-- The node that a value is read as has the property. -/
theorem Value.All.toNode (h : v.All P) (hn : v.toNode = .ok n) : P n := by
  cases v with
  | node inner =>
    apply h
    exact congrArg some (Except.ok.inj hn)
  | _ => cases hn

/-- The node that a value is read as, where there is one, has the property. -/
theorem Value.All.nodeIfThere (h : v.All P) (hn : v.nodeIfThere = .ok (some n)) : P n := by
  apply h
  rw [Value.eq_node_of_nodeIfThere hn, Value.node?]

theorem Value.all_null : Value.null.All P := fun _ h => nomatch h

/-- A node hands a property on to the nodes that stand directly below it. -/
def Node.Passes (P : Node → Prop) (n : Node) : Prop := ∀ m ∈ n.children, P m

namespace Node.Passes

/-- An argument fits one height less. -/
theorem arg (h : n.Passes P) (name : String) : (n.arg name).All P :=
  fun _ hm => h _ (mem_children_of_arg hm)

/-- The items of a list below the node have the property. -/
theorem items (h : n.Passes P) {items : List Value} (hitems : n.itemsOf name = .ok items) :
    ∀ v ∈ items, v.All P :=
  fun _ hv _ hm => h _ (mem_children_of_itemsOf hitems hv hm)

/-- The nodes of a kind that are listed below the node have the property. -/
theorem listed (h : n.Passes P) {kind : String} {nodes : List Node}
    (hnodes : n.listed kind = .ok nodes) : ∀ m ∈ nodes, P m := by
  intro m hm
  obtain ⟨items, hitems, hnodes⟩ := exists_of_bind_eq_ok hnodes
  obtain rfl := Except.ok.inj hnodes
  obtain ⟨item, hitem, hnode⟩ := List.mem_filterMap.1 (List.mem_of_mem_filter hm)
  exact h.items hitems item hitem m hnode

/-- The first argument that is given, of several, has the property. -/
theorem firstArg (h : n.Passes P) : ∀ args : List String, (n.firstArg args).All P
  | [] => Value.all_null
  | name :: rest => by
    rw [Node.firstArg]
    split
    · exact h.arg name
    · exact h.firstArg rest

end Node.Passes

/-! ### Grouping sets -/

/-- A choice from a list has members of the list only. -/
theorem mem_of_mem_choices {α : Type} {k : Nat} {xs choice : List α} (h : choice ∈ choices k xs)
    {a : α} (ha : a ∈ choice) : a ∈ xs := by
  induction xs generalizing k choice with
  | nil =>
    cases k with
    | zero =>
      obtain rfl := List.mem_singleton.1 h
      exact ha
    | succ k => cases h
  | cons x rest ih =>
    cases k with
    | zero =>
      obtain rfl := List.mem_singleton.1 h
      cases ha
    | succ k =>
      rcases List.mem_append.1 h with h | h
      · obtain ⟨others, hothers, rfl⟩ := List.mem_map.1 h
        rcases List.mem_cons.1 ha with rfl | ha
        · exact List.mem_cons_self
        · exact List.mem_cons_of_mem x (ih hothers ha)
      · exact List.mem_cons_of_mem x (ih h ha)

section
variable (hP : ∀ n, P n → n.Passes P)
include hP

/-- The members of a grouping set have the property. -/
theorem Value.All.setMembers (h : v.All P) {members : List Value}
    (hmembers : v.setMembers = .ok members) : ∀ w ∈ members, w.All P := by
  have hself : ∀ w ∈ [v], w.All P := fun w hw => List.mem_singleton.1 hw ▸ h
  unfold Value.setMembers at hmembers
  split at hmembers
  · next n =>
    have hn := hP n (h n rfl)
    split at hmembers
    · exact hn.items hmembers
    split at hmembers
    · obtain rfl := Except.ok.inj hmembers
      exact fun w hw => List.mem_singleton.1 hw ▸ hn.arg "this"
    · obtain rfl := Except.ok.inj hmembers
      exact hself
  · obtain rfl := Except.ok.inj hmembers
    exact hself

/-- The members of listed grouping sets have the property. -/
theorem Value.All.listedSets (h : v.All P) {sets : List (List Value)}
    (hsets : v.listedSets = .ok sets) : ∀ set ∈ sets, ∀ w ∈ set, w.All P := by
  have hself : ∀ w ∈ [v], w.All P := fun w hw => List.mem_singleton.1 hw ▸ h
  have hread : ∃ elements : List Value, (∀ w ∈ elements, w.All P) ∧
      elements.mapM Value.setMembers = .ok sets := by
    unfold Value.listedSets at hsets
    split at hsets
    · next n =>
      split at hsets
      · obtain ⟨elements, helements, hsets⟩ := exists_of_bind_eq_ok hsets
        exact ⟨elements, (hP n (h n rfl)).items helements, hsets⟩
      · exact ⟨_, hself, hsets⟩
    · exact ⟨_, hself, hsets⟩
  obtain ⟨elements, hall, hsets⟩ := hread
  intro set hset
  obtain ⟨element, helement, hmembers⟩ := exists_of_mem_mapM hsets hset
  exact (hall element helement).setMembers hP hmembers

/-- Rollups roll columns of a property beside columns of the property. -/
theorem all_of_rolledOf {items base : List Value} {rolled : List Rolled}
    (hitems : ∀ w ∈ items, w.All P) (hbase : ∀ w ∈ base, w.All P)
    (h : rolledOf items base = .ok rolled) : ∀ r ∈ rolled,
      (∀ w ∈ r.always, w.All P) ∧ ∀ w ∈ r.rolled, w.All P := by
  intro r hr
  obtain ⟨groups, hgroups, h⟩ := exists_of_bind_eq_ok h
  obtain rfl := Except.ok.inj h
  rcases List.mem_append.1 hr with hr | hr
  · obtain ⟨group, hgroup, hr⟩ := List.mem_flatten.1 hr
    obtain ⟨item, hitem, hread⟩ := exists_of_mem_mapM hgroups hgroup
    have hall : item.All P := hitems item (List.mem_of_mem_filter hitem)
    unfold rolledItem at hread
    split at hread
    · next n =>
      obtain ⟨columns, hcolumns, hread⟩ := exists_of_bind_eq_ok hread
      obtain rfl := Except.ok.inj hread
      obtain rfl := List.mem_singleton.1 hr
      by_cases hempty : columns.isEmpty = true
      · rw [if_pos hempty]
        exact ⟨fun _ hw => absurd hw List.not_mem_nil, hbase⟩
      · rw [if_neg hempty]
        exact ⟨hbase, (hP n (hall n rfl)).items hcolumns⟩
    · obtain rfl := Except.ok.inj hread
      split at hr
      · obtain rfl := List.mem_singleton.1 hr
        exact ⟨fun _ hw => absurd hw List.not_mem_nil, hbase⟩
      · cases hr
  · split at hr
    · cases hr
    · obtain rfl := List.mem_singleton.1 hr
      exact ⟨hbase, fun w hw => hitems w (List.mem_of_mem_filter hw)⟩

/-- The terms of grouping sets have what their query hands on. -/
theorem Node.Passes.groupingSets (h : n.Passes P) {sets : List (List Value)}
    (hsets : groupingSets n = .ok (some sets)) : ∀ set ∈ sets, ∀ w ∈ set, w.All P := by
  obtain ⟨group?, hgroup, hsets⟩ := exists_of_bind_eq_ok hsets
  cases group? with
  | none => cases Except.ok.inj hsets
  | some group =>
    have hgroup : group.Passes P := hP group ((h.arg "group").nodeIfThere hgroup)
    obtain ⟨base, hbase, hsets⟩ := exists_of_bind_eq_ok hsets
    obtain ⟨items, hitems, hsets⟩ := exists_of_bind_eq_ok hsets
    obtain ⟨listed, hlisted, hsets⟩ := exists_of_bind_eq_ok hsets
    obtain ⟨rollItems, hrollItems, hsets⟩ := exists_of_bind_eq_ok hsets
    obtain ⟨rollups, hrollups, hsets⟩ := exists_of_bind_eq_ok hsets
    obtain ⟨cubeItems, hcubeItems, hsets⟩ := exists_of_bind_eq_ok hsets
    obtain ⟨cubes, hcubes, hsets⟩ := exists_of_bind_eq_ok hsets
    have hbase := hgroup.items hbase
    have hrollups := all_of_rolledOf hP (hgroup.items hrollItems) hbase hrollups
    have hcubes := all_of_rolledOf hP (hgroup.items hcubeItems) hbase hcubes
    split at hsets
    · cases Except.ok.inj hsets
    obtain rfl := Option.some.inj (Except.ok.inj hsets)
    intro set hset
    rcases List.mem_append.1 hset with hset | hset
    · rcases List.mem_append.1 hset with hset | hset
      · obtain ⟨members, hmembers, rfl⟩ := List.mem_map.1 hset
        obtain ⟨sets, hsets, hmembers⟩ := List.mem_flatten.1 hmembers
        obtain ⟨item, hitem, hread⟩ := exists_of_mem_mapM hlisted hsets
        have hitem := hgroup.items hitems item hitem
        exact List.forall_mem_append.2 ⟨hbase, hitem.listedSets hP hread members hmembers⟩
      · obtain ⟨r, hr, hset⟩ := List.mem_flatMap.1 hset
        obtain ⟨prefixes, hprefixes, rfl⟩ := List.mem_map.1 hset
        obtain ⟨length, -, rfl⟩ := List.mem_map.1 hprefixes
        refine List.forall_mem_append.2 ⟨(hrollups r hr).1, fun w hw => ?_⟩
        exact (hrollups r hr).2 w (List.mem_of_mem_take hw)
    · obtain ⟨r, hr, hset⟩ := List.mem_flatMap.1 hset
      obtain ⟨choice, hchoice, rfl⟩ := List.mem_map.1 hset
      obtain ⟨length, -, hchoice⟩ := List.mem_flatMap.1 hchoice
      refine List.forall_mem_append.2 ⟨(hcubes r hr).1, fun w hw => ?_⟩
      exact (hcubes r hr).2 w (mem_of_mem_choices hchoice hw)

/-- The terms of a `GROUP BY` clause have the property. -/
theorem Node.Passes.groupExpressions (h : n.Passes P) {terms : List Value}
    (hterms : n.groupExpressions = .ok terms) : ∀ term ∈ terms, term.All P := by
  obtain ⟨group?, hgroup, hterms⟩ := exists_of_bind_eq_ok hterms
  cases group? with
  | none =>
    obtain rfl := Except.ok.inj hterms
    exact fun term hterm => absurd hterm List.not_mem_nil
  | some group => exact (hP group ((h.arg "group").nodeIfThere hgroup)).items hterms

/-- The relations of a `FROM` clause have what their query hands on. -/
theorem Node.Passes.relations (h : n.Passes P) {term : Value} {joins : List Value}
    {nodes : List Node} (hterm : n.fromTerm = .ok term) (hjoins : n.joins = .ok joins)
    (hnodes : joins.mapM Value.toNode = .ok nodes) :
    ∀ v ∈ term :: nodes.map (·.arg "this"), v.All P := by
  have hfirst : term.All P := by
    obtain ⟨clause?, hclause, hterm⟩ := exists_of_bind_eq_ok hterm
    cases clause? with
    | none =>
      obtain rfl := Except.ok.inj hterm
      exact Value.all_null
    | some clause =>
      obtain rfl := Except.ok.inj hterm
      exact (hP clause ((h.firstArg _).nodeIfThere hclause)).arg "this"
  intro v hv
  rcases List.mem_cons.1 hv with rfl | hv
  · exact hfirst
  obtain ⟨join, hjoin, rfl⟩ := List.mem_map.1 hv
  obtain ⟨item, hitem, hread⟩ := exists_of_mem_mapM hnodes hjoin
  exact (hP join ((h.items hjoins item hitem).toNode hread)).arg "this"

end

end

/-! ## Bounds -/

/-- The tree names tables of a list only, and is no higher than a height. -/
structure Node.Fits (names : List String) (height : Nat) (n : Node) : Prop where
  height_le : n.height ≤ height
  tables : ∀ table ∈ n.preorder, table.is "Table" = true → table.qualifiedName ∈ names

/-- The node that a value is fits. -/
def Value.Fits (names : List String) (height : Nat) (v : Value) : Prop :=
  ∀ n, v.node? = some n → n.Fits names height

theorem Value.Fits.toNode (h : v.Fits names height) (hn : v.toNode = .ok n) :
    n.Fits names height :=
  Value.All.toNode h hn

theorem Value.Fits.nodeIfThere (h : v.Fits names height) (hn : v.nodeIfThere = .ok (some n)) :
    n.Fits names height :=
  Value.All.nodeIfThere h hn

namespace Node.Fits

/-- A tree that fits a height fits a greater one. -/
theorem mono {more : Nat} (h : n.Fits names height) (hle : height ≤ more) : n.Fits names more :=
  ⟨Nat.le_trans h.height_le hle, h.tables⟩

/-- What is below a node fits one height less. -/
theorem child (h : n.Fits names (height + 1)) (hm : m ∈ n.children) : m.Fits names height := by
  have hlt : m.height < n.height := height_lt_of_mem_children hm
  have hle : n.height ≤ height + 1 := h.height_le
  refine ⟨by omega, fun table htable => ?_⟩
  exact h.tables table (preorder_subset_of_mem_children hm htable)

theorem passes (h : n.Fits names (height + 1)) : n.Passes (·.Fits names height) :=
  fun _ hm => h.child hm

/-- What stands below a node fits what the node fits. -/
theorem passes_of_le (n : Node) (h : n.Fits names height) : n.Passes (·.Fits names height) :=
  (h.mono (Nat.le_succ height)).passes

/-- No tree has the height zero. -/
theorem not_zero (h : n.Fits names 0) : False := by
  have hle : n.height ≤ 0 := h.height_le
  obtain ⟨kind, args, facts⟩ := n
  rw [Node.height] at hle
  omega

/-- A table of the tree has one of the names. -/
theorem qualifiedName_mem (h : n.Fits names height) (htable : n.is "Table" = true) :
    n.qualifiedName ∈ names :=
  h.tables n (mem_reachable_self n _) htable

theorem arg (h : n.Fits names (height + 1)) (name : String) :
    (n.arg name).Fits names height :=
  h.passes.arg name

/-- The items of a list fit one height less. -/
theorem items (h : n.Fits names (height + 1)) {items : List Value}
    (hitems : n.itemsOf name = .ok items) : ∀ v ∈ items, v.Fits names height :=
  h.passes.items hitems

/-- The nodes of a kind that are listed below fit one height less. -/
theorem listed (h : n.Fits names (height + 1)) {kind : String} {nodes : List Node}
    (hnodes : n.listed kind = .ok nodes) : ∀ m ∈ nodes, m.Fits names height :=
  h.passes.listed hnodes

/-- The first argument that is given fits one height less. -/
theorem firstArg (h : n.Fits names (height + 1)) (args : List String) :
    (n.firstArg args).Fits names height :=
  h.passes.firstArg args

/-- An argument fits where the node does. -/
theorem arg_of_le (h : n.Fits names height) (name : String) : (n.arg name).Fits names height :=
  (passes_of_le n h).arg name

/-- The items of a list fit where the node does. -/
theorem items_of_le (h : n.Fits names height) {items : List Value}
    (hitems : n.itemsOf name = .ok items) : ∀ v ∈ items, v.Fits names height :=
  (passes_of_le n h).items hitems

end Node.Fits

/-! ## The trees of a library -/

/-- The tables that a tree names. -/
def Node.tableNames (n : Node) : List String := (n.preorder.filter (·.is "Table")).map qualifiedName

/-- The tables that all statements of all texts name. -/
def Library.tableNames (library : Library) : List String := library.trees.flatMap Node.tableNames

/-- The greatest height among the statements of all texts. -/
def Library.treeHeight (library : Library) : Nat :=
  library.trees.foldr (fun tree height => max tree.height height) 0

theorem Node.length_tableNames (n : Node) : n.tableNames.length = n.tableCount := by
  rw [tableNames, tableCount, List.length_map, List.countP_eq_length_filter]

/-- A tree fits the names of its tables and its height. -/
theorem Node.fits_tableNames (n : Node) : n.Fits n.tableNames n.height := by
  refine ⟨Nat.le_refl _, fun table hmem htable => ?_⟩
  exact List.mem_map_of_mem (List.mem_filter.2 ⟨hmem, htable⟩)

/-- A tree that fits some names fits more of them. -/
theorem Node.Fits.names_mono {more : List String} (h : n.Fits names height)
    (hsubset : names ⊆ more) : n.Fits more height :=
  ⟨h.height_le, fun table hmem htable => hsubset (h.tables table hmem htable)⟩

namespace Library

variable {library : Library} {sql : String}

/-- A library has so many names of tables as it has tables. -/
theorem length_tableNames (library : Library) :
    library.tableNames.length = library.tableCount := by
  rw [tableNames, tableCount]
  induction library.trees with
  | nil => rfl
  | cons tree rest ih =>
    rw [List.flatMap_cons, List.length_append, ih, Node.length_tableNames, List.foldr_cons]

/-- The first statement of a text is a tree of the library. -/
theorem mem_trees_of_first (h : library.first sql = .ok n) : n ∈ library.trees := by
  unfold first at h
  split at h
  · next tree rest hlookup =>
    obtain rfl := Except.ok.inj h
    obtain ⟨before, after, hlibrary, -⟩ := List.lookup_eq_some_iff.1 hlookup
    refine List.mem_flatMap.2 ⟨(sql, .ok (some tree :: rest)), ?_, ?_⟩
    · rw [hlibrary]
      exact List.mem_append_right before List.mem_cons_self
    · exact List.mem_filterMap.2 ⟨some tree, List.mem_cons_self, rfl⟩
  all_goals cases h

/-- The first statement of a text fits the names and the height of its library. -/
theorem fits_of_first (h : library.first sql = .ok n) :
    n.Fits library.tableNames library.treeHeight := by
  have hmem := mem_trees_of_first h
  have hheight : n.height ≤ library.treeHeight := by
    rw [treeHeight]
    generalize library.trees = trees at hmem
    induction trees with
    | nil => cases hmem
    | cons tree rest ih =>
      rw [List.foldr_cons]
      rcases List.mem_cons.1 hmem with rfl | hmem
      · exact Nat.le_max_left ..
      · exact Nat.le_trans (ih hmem) (Nat.le_max_right ..)
  apply Node.Fits.mono _ hheight
  apply n.fits_tableNames.names_mono
  exact fun name hname => List.mem_flatMap.2 ⟨n, hmem, hname⟩

end Library

end ColumnTrace.Sql
