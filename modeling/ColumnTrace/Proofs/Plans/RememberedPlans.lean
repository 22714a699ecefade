import Mathlib.Data.List.Lex
import ColumnTrace.Lineage.Extract

/-!
# The plan that a stored result goes back to

The plan that a forest of physical nodes was made for is looked up from the top, row by row:
the first node of a row that remembers one ends the search, and a row without any gives way to the
row of all its children. The rows become fewer with every step (`height_rowBelow_lt`), so the search
comes to an end (`searchRows_of_height_le`), and it finds what the list of all levels begins with
(`findLink_eq_or`).

A node is told by its place, the numbers of the children on the way to it (`nodeAt`). A row lists
all nodes of one depth in the order of their places, and so does the row below it (`IsRow.below`).
So what is found is the plan of the topmost node that remembers one, and of the leftmost among the
topmost (`findLink_isTopmostLeftmost`).
-/

set_option autoImplicit false

namespace ColumnTrace

namespace PhysicalNode

/-! ## Row by row -/

/-- The row of nodes below a row of nodes. -/
def rowBelow (nodes : List PhysicalNode) : List PhysicalNode := nodes.flatMap children

/-- The number of rows. -/
def height (nodes : List PhysicalNode) : Nat := (linkLevelsOfAll nodes).length

/-- The search for so many rows: the first plan that is remembered in a row ends it, a row without
plans gives way to the row below. Without an answer the rows were not enough. -/
def searchRows : Nat → List PhysicalNode → Option (Option Plan)
  | _, [] => some none
  | 0, _ :: _ => none
  | rows + 1, node :: rest =>
    match (node :: rest).findSome? link with
    | some plan => some (some plan)
    | none => searchRows rows (rowBelow (node :: rest))

/-- The levels of two rows of nodes are laid over each other. -/
theorem linkLevelsOfAll_append (nodes more : List PhysicalNode) :
    linkLevelsOfAll (nodes ++ more) = overlay (linkLevelsOfAll nodes) (linkLevelsOfAll more) := by
  induction nodes with
  | nil => simp [linkLevelsOfAll]
  | cons node rest ih => rw [List.cons_append, linkLevelsOfAll, ih, linkLevelsOfAll, overlay_assoc]

/-- The levels of a forest are its first row and the levels of the row below. -/
theorem linkLevelsOfAll_eq_cons {nodes : List PhysicalNode} (h : nodes ≠ []) :
    linkLevelsOfAll nodes = nodes.filterMap link :: linkLevelsOfAll (rowBelow nodes) := by
  induction nodes with
  | nil => exact absurd rfl h
  | cons node rest ih =>
    obtain ⟨name, children, link⟩ := node
    have hbelow : rowBelow (.mk name children link :: rest) = children ++ rowBelow rest := rfl
    have hfirst : (PhysicalNode.mk name children link :: rest).filterMap PhysicalNode.link =
        link.toList ++ rest.filterMap PhysicalNode.link := by
      cases link <;> rfl
    rw [hbelow, hfirst, linkLevelsOfAll, linkLevels, linkLevelsOfAll_append]
    by_cases hrest : rest = []
    · subst hrest
      simp [linkLevelsOfAll, rowBelow]
    · rw [ih hrest, overlay]

/-- What is found in a forest is found in its first row or else in the row below. -/
theorem findLink_eq_or (nodes : List PhysicalNode) :
    findLink nodes = (nodes.findSome? link).or (findLink (rowBelow nodes)) := by
  by_cases h : nodes = []
  · subst h
    rfl
  · unfold findLink
    rw [linkLevelsOfAll_eq_cons h, List.flatten_cons, List.head?_append, List.head?_filterMap]

/-- A row of nodes is one row higher than the row below it. -/
theorem height_eq_succ {nodes : List PhysicalNode} (h : nodes ≠ []) :
    height nodes = height (rowBelow nodes) + 1 := by
  unfold height
  rw [linkLevelsOfAll_eq_cons h, List.length_cons]

/-- The search comes to an end within the number of rows. -/
theorem searchRows_of_height_le {rows : Nat} {nodes : List PhysicalNode}
    (h : height nodes ≤ rows) : searchRows rows nodes = some (findLink nodes) := by
  induction rows generalizing nodes with
  | zero =>
    cases nodes with
    | nil => rfl
    | cons node rest =>
      rw [height_eq_succ (List.cons_ne_nil node rest)] at h
      omega
  | succ rows ih =>
    cases nodes with
    | nil => rfl
    | cons node rest =>
      rw [height_eq_succ (List.cons_ne_nil node rest)] at h
      rw [findLink_eq_or, searchRows, ih (by omega)]
      cases (node :: rest).findSome? link <;> rfl

/-! ## Places -/

/-- The node at a place: the first number chooses one of the nodes, each other one a child. -/
def nodeAt : List PhysicalNode → List Nat → Option PhysicalNode
  | _, [] => none
  | nodes, [i] => nodes[i]?
  | nodes, i :: j :: path => nodes[i]?.bind fun node => nodeAt node.children (j :: path)

/-- The place is further up, or further left at the same depth. -/
def ComesBefore (path other : List Nat) : Prop :=
  path.length < other.length ∨ (path.length = other.length ∧ path < other)

/-- One step further from a place is a child of the node there. -/
theorem nodeAt_concat {path : List Nat} (h : path ≠ []) (nodes : List PhysicalNode) (i : Nat) :
    nodeAt nodes (path ++ [i]) = (nodeAt nodes path).bind fun node => node.children[i]? := by
  induction path generalizing nodes with
  | nil => exact absurd rfl h
  | cons j rest ih =>
    cases rest with
    | nil => rfl
    | cons k rest =>
      have hrest := ih (List.cons_ne_nil k rest)
      simp only [List.cons_append] at hrest
      simp only [List.cons_append, nodeAt, hrest, Option.bind_assoc]

/-- Places of one depth are in the order of the places above them. -/
theorem append_lt_append_of_lt {path other : List Nat} (hlength : path.length = other.length)
    (h : path < other) (i j : Nat) : path ++ [i] < other ++ [j] := by
  induction path generalizing other with
  | nil =>
    rw [List.eq_nil_of_length_eq_zero hlength.symm] at h
    exact absurd h (List.lt_irrefl [])
  | cons k rest ih =>
    cases other with
    | nil => cases hlength
    | cons l rest' =>
      rw [List.cons_append, List.cons_append, List.cons_lt_cons_iff]
      rcases List.cons_lt_cons_iff.1 h with hfirst | ⟨rfl, hrest⟩
      · exact Or.inl hfirst
      · exact Or.inr ⟨rfl, ih (Nat.succ.inj hlength) hrest⟩

/-! ## Rows of places -/

/-- The row lists all nodes of a depth with their places, from left to right. -/
structure IsRow (nodes : List PhysicalNode) (depth : Nat)
    (row : List (List Nat × PhysicalNode)) : Prop where
  mem_iff : ∀ path node, (path, node) ∈ row ↔ path.length = depth ∧ nodeAt nodes path = some node
  inOrder : row.Pairwise fun place other => place.1 < other.1

/-- Nodes side by side below a place. -/
def placed (path : List Nat) (nodes : List PhysicalNode) : List (List Nat × PhysicalNode) :=
  nodes.zipIdx.map fun entry => (path ++ [entry.2], entry.1)

/-- The nodes below those of a row, with their places. -/
def placedBelow (row : List (List Nat × PhysicalNode)) : List (List Nat × PhysicalNode) :=
  row.flatMap fun place => placed place.1 place.2.children

/-- A node stands at a place below if it is the one that the last number chooses. -/
theorem mem_placed_iff {path place : List Nat} {nodes : List PhysicalNode} {node : PhysicalNode} :
    (place, node) ∈ placed path nodes ↔ ∃ i, nodes[i]? = some node ∧ place = path ++ [i] := by
  unfold placed
  rw [List.mem_map]
  constructor
  · rintro ⟨⟨child, i⟩, hchild, heq⟩
    obtain ⟨rfl, rfl⟩ := Prod.mk.inj heq
    exact ⟨i, List.mk_mem_zipIdx_iff_getElem?.1 hchild, rfl⟩
  · rintro ⟨i, hi, rfl⟩
    exact ⟨(node, i), List.mk_mem_zipIdx_iff_getElem?.2 hi, rfl⟩

/-- Nodes side by side are placed from left to right. -/
theorem pairwise_placed (path : List Nat) (nodes : List PhysicalNode) :
    (placed path nodes).Pairwise fun place other => place.1 < other.1 := by
  unfold placed
  rw [List.pairwise_map]
  have hnumbers : nodes.zipIdx.Pairwise fun entry other => entry.2 < other.2 := by
    rw [← List.pairwise_map (f := Prod.snd), List.zipIdx_map_snd]
    exact List.pairwise_lt_range'
  exact hnumbers.imp fun h => List.append_left_lt (List.cons_lt_cons_iff.2 (Or.inl h))

/-- Placing nodes keeps them in order. -/
theorem map_snd_placed (path : List Nat) (nodes : List PhysicalNode) :
    (placed path nodes).map Prod.snd = nodes := by
  unfold placed
  rw [List.map_map]
  exact List.zipIdx_map_fst 0 nodes

/-- The nodes below a row are those that its nodes have below, in order. -/
theorem map_snd_placedBelow (row : List (List Nat × PhysicalNode)) :
    (placedBelow row).map Prod.snd = rowBelow (row.map Prod.snd) := by
  unfold placedBelow rowBelow
  rw [List.map_flatMap, List.flatMap_map]
  exact List.flatMap_congr fun place _ => map_snd_placed place.1 place.2.children

/-- The nodes of the forest are its first row. -/
theorem isRow_placed (nodes : List PhysicalNode) : IsRow nodes 1 (placed [] nodes) where
  mem_iff path node := by
    rw [mem_placed_iff]
    constructor
    · rintro ⟨i, hi, rfl⟩
      exact ⟨rfl, hi⟩
    · rintro ⟨hlength, hnode⟩
      obtain ⟨i, rfl⟩ := List.length_eq_one_iff.1 hlength
      exact ⟨i, hnode, rfl⟩
  inOrder := pairwise_placed [] nodes

namespace IsRow

variable {nodes : List PhysicalNode} {depth : Nat} {row : List (List Nat × PhysicalNode)}

/-- The row below a row of the forest is one, too. -/
theorem below (h : IsRow nodes (depth + 1) row) : IsRow nodes (depth + 2) (placedBelow row) where
  mem_iff path node := by
    unfold placedBelow
    rw [List.mem_flatMap]
    constructor
    · rintro ⟨⟨above, parent⟩, hparent, hchild⟩
      obtain ⟨i, hi, rfl⟩ := mem_placed_iff.1 hchild
      obtain ⟨hlength, hnode⟩ := (h.mem_iff above parent).1 hparent
      have hne : above ≠ [] := List.ne_nil_of_length_eq_add_one hlength
      refine ⟨by rw [List.length_append, hlength]; rfl, ?_⟩
      rw [nodeAt_concat hne, hnode]
      exact hi
    · rintro ⟨hlength, hnode⟩
      obtain ⟨above, i, rfl⟩ := (List.eq_nil_or_concat' path).resolve_left
        (List.ne_nil_of_length_eq_add_one hlength)
      have habove : above.length = depth + 1 := by simpa using hlength
      rw [nodeAt_concat (List.ne_nil_of_length_eq_add_one habove),
        Option.bind_eq_some_iff] at hnode
      obtain ⟨parent, hparent, hi⟩ := hnode
      exact ⟨(above, parent), (h.mem_iff above parent).2 ⟨habove, hparent⟩,
        mem_placed_iff.2 ⟨i, hi, rfl⟩⟩
  inOrder := by
    unfold placedBelow
    -- in order below each parent, and between the children of two parents in order
    rw [List.pairwise_flatMap]
    refine ⟨fun place _ => pairwise_placed place.1 place.2.children, ?_⟩
    refine List.Pairwise.imp_of_mem (fun {place other} hplace hother hlt => ?_) h.inOrder
    rintro ⟨path, child⟩ hchild ⟨path', child'⟩ hchild'
    obtain ⟨i, -, rfl⟩ := mem_placed_iff.1 hchild
    obtain ⟨j, -, rfl⟩ := mem_placed_iff.1 hchild'
    have hdepth := ((h.mem_iff place.1 place.2).1 hplace).1
    have hdepth' := ((h.mem_iff other.1 other.2).1 hother).1
    exact append_lt_append_of_lt (hdepth.trans hdepth'.symm) hlt i j

/-- Below a row without nodes there are none. -/
theorem nodeAt_eq_none (h : IsRow nodes (depth + 1) []) {path : List Nat}
    (hdepth : depth < path.length) : nodeAt nodes path = none := by
  have hrows : ∀ k, IsRow nodes (depth + k + 1) [] := by
    intro k
    induction k with
    | zero => exact h
    | succ k ih => exact ih.below
  obtain ⟨k, hk⟩ := Nat.exists_eq_add_of_lt hdepth
  rw [Option.eq_none_iff_forall_ne_some]
  intro node hnode
  exact List.not_mem_nil (((hrows k).mem_iff path node).2 ⟨hk, hnode⟩)

end IsRow

/-! ## The first plan -/

/-- The plan is that of a node before which no other node that remembers a plan comes. -/
def IsFirstPlan (nodes : List PhysicalNode) (plan : Plan) : Prop :=
  ∃ path node, nodeAt nodes path = some node ∧ node.link = some plan ∧
    ∀ path' node', nodeAt nodes path' = some node' → node'.link ≠ none → ¬ ComesBefore path' path

/-- The answer tells what the forest remembers: nothing, or its first plan. -/
def Answers (nodes : List PhysicalNode) : Option Plan → Prop
  | none => ∀ path node, nodeAt nodes path = some node → node.link = none
  | some plan => IsFirstPlan nodes plan

/-- The first node of a row that remembers a plan comes before all other nodes that remember one,
where those above the row remember none. -/
theorem isFirstPlan_of_findSome? {nodes : List PhysicalNode} {depth : Nat}
    {row : List (List Nat × PhysicalNode)} (hrow : IsRow nodes (depth + 1) row)
    (habove : ∀ path node, path.length ≤ depth → nodeAt nodes path = some node → node.link = none)
    {plan : Plan} (hfound : (row.map Prod.snd).findSome? link = some plan) :
    IsFirstPlan nodes plan := by
  rw [List.findSome?_map, List.findSome?_eq_some_iff] at hfound
  obtain ⟨before, ⟨path, node⟩, after, hsplit, hlink, hbefore⟩ := hfound
  obtain ⟨hlength, hnode⟩ := (hrow.mem_iff path node).1 (by simp [hsplit])
  refine ⟨path, node, hnode, hlink, fun path' node' hnode' hlink' hfirst => ?_⟩
  rcases hfirst with hshort | ⟨hsame, hlt⟩
  · exact hlink' (habove path' node' (by omega) hnode')
  · have hmem := (hrow.mem_iff path' node').2 ⟨hsame.trans hlength, hnode'⟩
    have horder := hrow.inOrder
    rw [hsplit] at hmem horder
    rcases List.mem_append.1 hmem with hleft | hright
    · exact hlink' (hbefore (path', node') hleft)
    · rcases List.mem_cons.1 hright with heq | hlater
      · rw [(Prod.mk.inj heq).1] at hlt
        exact List.lt_irrefl path hlt
      · have hgt : path < path' :=
          (List.pairwise_cons.1 (List.pairwise_append.1 horder).2.1).1 (path', node') hlater
        exact lt_asymm hlt hgt

/-- Where a row is reached without a plan above it, what is found from there on answers for the
whole forest. -/
theorem answers_of_isRow {nodes : List PhysicalNode} {depth : Nat}
    {row : List (List Nat × PhysicalNode)} (hrow : IsRow nodes (depth + 1) row)
    (habove : ∀ path node, path.length ≤ depth → nodeAt nodes path = some node → node.link = none) :
    Answers nodes (findLink (row.map Prod.snd)) := by
  -- on the rows that are left, since the forest stays and the row goes down in it
  induction hheight : height (row.map Prod.snd) using Nat.strongRecOn generalizing depth row with
  | _ rows ih =>
    by_cases hempty : row = []
    · subst hempty
      intro path node hnode
      by_cases hdepth : path.length ≤ depth
      · exact habove path node hdepth hnode
      · rw [hrow.nodeAt_eq_none (by omega)] at hnode
        cases hnode
    · rw [findLink_eq_or]
      cases hfound : (row.map Prod.snd).findSome? link with
      | some plan => exact isFirstPlan_of_findSome? hrow habove hfound
      | none =>
        have hfewer : height (rowBelow (row.map Prod.snd)) < rows := by
          have hrows : height (row.map Prod.snd) = height (rowBelow (row.map Prod.snd)) + 1 :=
            height_eq_succ (by simpa using hempty)
          omega
        rw [Option.none_or, ← map_snd_placedBelow]
        rw [← map_snd_placedBelow] at hfewer
        refine ih _ hfewer hrow.below (fun path node hdepth hnode => ?_) rfl
        rcases Nat.lt_or_eq_of_le hdepth with hshort | hlength
        · exact habove path node (by omega) hnode
        · have hmem := (hrow.mem_iff path node).2 ⟨hlength, hnode⟩
          exact List.findSome?_eq_none_iff.1 hfound node (List.mem_map_of_mem hmem)

/-- The search finds the first plan that is remembered. -/
theorem answers_findLink (nodes : List PhysicalNode) : Answers nodes (findLink nodes) := by
  have hfirst := answers_of_isRow (isRow_placed nodes) (fun path node hlength hnode => by
    rw [List.eq_nil_of_length_eq_zero (Nat.le_zero.1 hlength)] at hnode
    cases hnode)
  rwa [map_snd_placed] at hfirst

/-- No two nodes come before all others. -/
theorem IsFirstPlan.unique {nodes : List PhysicalNode} {plan plan' : Plan}
    (h : IsFirstPlan nodes plan) (h' : IsFirstPlan nodes plan') : plan = plan' := by
  obtain ⟨path, node, hnode, hlink, hfirst⟩ := h
  obtain ⟨path', node', hnode', hlink', hfirst'⟩ := h'
  have hbehind := hfirst path' node' hnode' (by simp [hlink'])
  have hahead := hfirst' path node hnode (by simp [hlink])
  have hpath : path = path' := by
    unfold ComesBefore at hbehind hahead
    have hlength : path.length = path'.length := by omega
    rcases lt_trichotomy path path' with hlt | heq | hgt
    · exact absurd (Or.inr ⟨hlength, hlt⟩) hahead
    · exact heq
    · exact absurd (Or.inr ⟨hlength.symm, hgt⟩) hbehind
  subst hpath
  obtain rfl := Option.some.inj (hnode.symm.trans hnode')
  exact Option.some.inj (hlink.symm.trans hlink')

/-- The search comes to an end. It finds nothing if and only if no node remembers a plan, and
otherwise the plan of the topmost node that remembers one, of the leftmost among the topmost. -/
theorem findLink_isTopmostLeftmost (nodes : List PhysicalNode) :
    (∃ rows, ∀ enough, rows ≤ enough → searchRows enough nodes = some (findLink nodes)) ∧
    (findLink nodes = none ↔
      ∀ path node, nodeAt nodes path = some node → node.link = none) ∧
    ∀ plan, findLink nodes = some plan ↔ IsFirstPlan nodes plan := by
  have hanswers := answers_findLink nodes
  refine ⟨⟨height nodes, fun _ => searchRows_of_height_le⟩, ⟨fun hnone => ?_, fun hnone => ?_⟩,
    fun plan => ⟨fun hplan => ?_, fun hplan => ?_⟩⟩
  · rwa [hnone] at hanswers
  · cases hfound : findLink nodes with
    | none => rfl
    | some plan =>
      rw [hfound] at hanswers
      obtain ⟨path, node, hnode, hlink, -⟩ := hanswers
      rw [hnone path node hnode] at hlink
      cases hlink
  · rwa [hplan] at hanswers
  · cases hfound : findLink nodes with
    | none =>
      rw [hfound] at hanswers
      obtain ⟨path, node, hnode, hlink, -⟩ := hplan
      rw [hanswers path node hnode] at hlink
      cases hlink
    | some found =>
      rw [hfound] at hanswers
      rw [hanswers.unique hplan]

/-- A plan at the left is left for one further up. -/
example : findLink [.mk "left" [.mk "below" [] (some (.relation [] none))] none,
    .mk "right" [] (some .oneRow)] = some .oneRow := rfl

end PhysicalNode

end ColumnTrace
