/-!
# Maps in order of insertion

`OrderedMap κ ν` keeps its entries in the order in which their keys first came in. The view of a map
is `entries`, a list of pairs in which no key stands twice. `insert` writes a key again at its old
place with the new value, `erase` closes the gap.
-/

set_option autoImplicit false

namespace ColumnTrace

universe u v w

variable {κ : Type u} {ν : Type v} {ω : Type w}

/-- The value is written at the key's place, or at the end where the key is new. -/
def assign [DecidableEq κ] (key : κ) (value : ν) : List (κ × ν) → List (κ × ν)
  | [] => [(key, value)]
  | entry :: rest =>
    if entry.1 = key then (entry.1, value) :: rest else entry :: assign key value rest

/-- The keys keep their order, and a new one comes last. -/
theorem map_fst_assign [DecidableEq κ] (key : κ) (value : ν) (entries : List (κ × ν)) :
    (assign key value entries).map Prod.fst =
      if key ∈ entries.map Prod.fst then entries.map Prod.fst
      else entries.map Prod.fst ++ [key] := by
  induction entries with
  | nil => simp [assign]
  | cons entry rest ih =>
    by_cases h : entry.1 = key
    · simp [assign, h]
    · by_cases hmem : key ∈ rest.map Prod.fst
      · rw [if_pos hmem] at ih
        rw [if_pos (by simp only [List.map_cons, List.mem_cons]; exact Or.inr hmem)]
        simp only [assign, if_neg h, List.map_cons, ih]
      · rw [if_neg hmem] at ih
        rw [if_neg (by
          simp only [List.map_cons, List.mem_cons, not_or]
          exact ⟨fun e => h e.symm, hmem⟩)]
        simp only [assign, if_neg h, List.map_cons, ih, List.cons_append]

/-- Keys stay distinct. -/
theorem nodup_map_fst_assign [DecidableEq κ] (key : κ) (value : ν) {entries : List (κ × ν)}
    (h : (entries.map Prod.fst).Nodup) : ((assign key value entries).map Prod.fst).Nodup := by
  rw [map_fst_assign]
  split
  · exact h
  · next hmem =>
    refine List.nodup_append.2 ⟨h, by simp, ?_⟩
    intro a ha b hb
    rw [List.mem_singleton] at hb
    exact fun hab => hmem (hb ▸ hab ▸ ha)

/-- The key has the value now, and every other key has what it had. -/
theorem lookup_assign [DecidableEq κ] (key other : κ) (value : ν) (entries : List (κ × ν)) :
    (assign key value entries).lookup other =
      if other = key then some value else entries.lookup other := by
  induction entries with
  | nil =>
    by_cases h : other = key
    · simp [assign, h]
    · simp [assign, List.lookup_cons, beq_eq_false_iff_ne.2 h, h]
  | cons entry rest ih =>
    obtain ⟨k, v⟩ := entry
    by_cases h : k = key
    · subst h
      by_cases ho : other = k
      · simp [assign, ho]
      · simp [assign, List.lookup_cons, beq_eq_false_iff_ne.2 ho, ho]
    · by_cases ho : other = k
      · subst ho
        simp [assign, h]
      · simp only [assign, if_neg h, List.lookup_cons, beq_eq_false_iff_ne.2 ho, ih]

/-- Entries in order of insertion; a key stands once. -/
structure OrderedMap (κ : Type u) (ν : Type v) where
  entries : List (κ × ν)
  nodup_keys : (entries.map Prod.fst).Nodup

namespace OrderedMap

@[ext]
theorem ext {m n : OrderedMap κ ν} (h : m.entries = n.entries) : m = n := by
  cases m; cases n; cases h; rfl

instance [DecidableEq κ] [DecidableEq ν] : DecidableEq (OrderedMap κ ν) := fun m n =>
  decidable_of_iff (m.entries = n.entries) ⟨ext, fun h => h ▸ rfl⟩

/-- The map without entries. -/
def empty : OrderedMap κ ν := ⟨[], by simp⟩

instance : Inhabited (OrderedMap κ ν) := ⟨empty⟩

instance : EmptyCollection (OrderedMap κ ν) := ⟨empty⟩

/-- The keys in order. -/
def keys (m : OrderedMap κ ν) : List κ := m.entries.map Prod.fst

/-- The values in the order of their keys. -/
def values (m : OrderedMap κ ν) : List ν := m.entries.map Prod.snd

/-- The number of entries. -/
def size (m : OrderedMap κ ν) : Nat := m.entries.length

/-- The map has no entry. -/
def isEmpty (m : OrderedMap κ ν) : Bool := m.entries.isEmpty

/-- The values are changed, each with a look at its key. -/
def mapValues (f : κ → ν → ω) (m : OrderedMap κ ν) : OrderedMap κ ω where
  entries := m.entries.map fun entry => (entry.1, f entry.1 entry.2)
  nodup_keys := by
    rw [List.map_map]
    exact m.nodup_keys

section
variable [DecidableEq κ]

/-- The value of a key. -/
def get? (m : OrderedMap κ ν) (key : κ) : Option ν := m.entries.lookup key

/-- The key has an entry. -/
def contains (m : OrderedMap κ ν) (key : κ) : Bool := (m.get? key).isSome

/-- The key has this value now; a key that was there keeps its place. -/
def insert (m : OrderedMap κ ν) (key : κ) (value : ν) : OrderedMap κ ν :=
  ⟨assign key value m.entries, nodup_map_fst_assign key value m.nodup_keys⟩

/-- The key has no entry now. -/
def erase (m : OrderedMap κ ν) (key : κ) : OrderedMap κ ν where
  entries := m.entries.filter fun entry => entry.1 ≠ key
  nodup_keys := m.nodup_keys.sublist (List.filter_sublist.map Prod.fst)

/-- All pairs are inserted one after the other. -/
def insertAll (m : OrderedMap κ ν) (pairs : List (κ × ν)) : OrderedMap κ ν :=
  pairs.foldl (fun m pair => m.insert pair.1 pair.2) m

/-- The map of a list of pairs: a key that comes twice keeps its first place and takes its last
value. -/
def ofList (pairs : List (κ × ν)) : OrderedMap κ ν := empty.insertAll pairs

/-- A key that is there keeps its place, and a new one comes last. -/
theorem keys_insert (m : OrderedMap κ ν) (key : κ) (value : ν) :
    (m.insert key value).keys = if key ∈ m.keys then m.keys else m.keys ++ [key] :=
  map_fst_assign key value m.entries

/-- The key has the value now, and every other key has what it had. -/
theorem get?_insert (m : OrderedMap κ ν) (key other : κ) (value : ν) :
    (m.insert key value).get? other = if other = key then some value else m.get? other :=
  lookup_assign key other value m.entries

end

@[simp]
theorem keys_mapValues (f : κ → ν → ω) (m : OrderedMap κ ν) : (m.mapValues f).keys = m.keys := by
  simp [keys, mapValues, List.map_map, Function.comp_def]

end OrderedMap

end ColumnTrace
