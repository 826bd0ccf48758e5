/-!
# Maps in insertion order

A table lists its columns, a registry its types and a record its fields in the order in
which they were first added. `OrderedMap α` is a list of entries with pairwise distinct
keys: `insert` gives a key that is present its new value **in its old place**, and puts a
new key at the end. `get?_insert` and `keys_insert` say this for the two views of a map,
the lookup function and the list of keys.
-/

namespace SchemaCatalog

universe u v

/-- A finite map from strings, listed in the order of first insertion. -/
structure OrderedMap (α : Type u) where
  /-- The entries in order. -/
  entries : List (String × α)
  /-- No key occurs twice. -/
  nodup_keys : (entries.map Prod.fst).Nodup
  deriving DecidableEq

namespace OrderedMap

variable {α : Type u}

/-- The map without entries. -/
def empty : OrderedMap α := ⟨[], List.nodup_nil⟩

instance : Inhabited (OrderedMap α) := ⟨empty⟩

instance : EmptyCollection (OrderedMap α) := ⟨empty⟩

instance [BEq α] : BEq (OrderedMap α) := ⟨fun m n => m.entries == n.entries⟩

/-- The keys in order. -/
def keys (m : OrderedMap α) : List String := m.entries.map Prod.fst

/-- The values in the order of their keys. -/
def values (m : OrderedMap α) : List α := m.entries.map Prod.snd

/-- The number of entries. -/
def size (m : OrderedMap α) : Nat := m.entries.length

/-- Whether there is no entry. -/
def isEmpty (m : OrderedMap α) : Bool := m.entries.isEmpty

/-- The value of a key. -/
def get? (m : OrderedMap α) (k : String) : Option α := m.entries.lookup k

/-- Whether a key has a value. -/
def contains (m : OrderedMap α) (k : String) : Bool := m.keys.contains k

/-! ### Insertion -/

/-- Sets the value of a key in a list of entries: the first entry of the key is replaced,
and a key without entry is added at the end. -/
def setEntry (k : String) (a : α) : List (String × α) → List (String × α)
  | [] => [(k, a)]
  | e :: es => if e.1 = k then (k, a) :: es else e :: setEntry k a es

theorem map_fst_setEntry_of_mem {k : String} {a : α} :
    ∀ {es : List (String × α)}, k ∈ es.map Prod.fst →
      (setEntry k a es).map Prod.fst = es.map Prod.fst
  | [], h => by simp at h
  | e :: es, h => by
    by_cases hk : e.1 = k
    · simp [setEntry, hk]
    · have hmem : k ∈ es.map Prod.fst := by
        rw [List.map_cons] at h
        rcases List.mem_cons.1 h with h' | h'
        · exact absurd h'.symm hk
        · exact h'
      simp [setEntry, hk, map_fst_setEntry_of_mem hmem]

theorem setEntry_of_not_mem {k : String} {a : α} :
    ∀ {es : List (String × α)}, k ∉ es.map Prod.fst → setEntry k a es = es ++ [(k, a)]
  | [], _ => rfl
  | e :: es, h => by
    have hk : e.1 ≠ k := fun hk => h (by simp [hk])
    have hmem : k ∉ es.map Prod.fst := fun hm => h (by
      rw [List.map_cons]; exact List.mem_cons_of_mem _ hm)
    rw [setEntry, if_neg hk, setEntry_of_not_mem hmem, List.cons_append]

theorem map_fst_setEntry_of_not_mem {k : String} {a : α} {es : List (String × α)}
    (h : k ∉ es.map Prod.fst) : (setEntry k a es).map Prod.fst = es.map Prod.fst ++ [k] := by
  rw [setEntry_of_not_mem h, List.map_append, List.map_singleton]

theorem nodup_map_fst_setEntry {k : String} {a : α} {es : List (String × α)}
    (h : (es.map Prod.fst).Nodup) : ((setEntry k a es).map Prod.fst).Nodup := by
  by_cases hk : k ∈ es.map Prod.fst
  · rwa [map_fst_setEntry_of_mem hk]
  · rw [map_fst_setEntry_of_not_mem hk]
    refine List.nodup_append.2 ⟨h, by simp, ?_⟩
    intro x hx y hy hxy
    rw [List.mem_singleton] at hy
    exact hk (hy ▸ hxy ▸ hx)

theorem lookup_setEntry (k j : String) (a : α) :
    ∀ es : List (String × α), (setEntry k a es).lookup j = if j = k then some a else es.lookup j
  | [] => by
    by_cases h : j = k
    · simp [setEntry, h]
    · simp [setEntry, h, List.lookup_cons, beq_eq_false_iff_ne.2 h]
  | (i, b) :: es => by
    by_cases hi : i = k
    · subst hi
      by_cases hj : j = i
      · simp [setEntry, hj]
      · simp [setEntry, hj, List.lookup_cons, beq_eq_false_iff_ne.2 hj]
    · by_cases hj : j = i
      · subst hj
        simp [setEntry, hi]
      · simp [setEntry, hi, List.lookup_cons, beq_eq_false_iff_ne.2 hj, lookup_setEntry k j a es]

/-- Sets the value of a key. -/
def insert (m : OrderedMap α) (k : String) (a : α) : OrderedMap α :=
  ⟨setEntry k a m.entries, nodup_map_fst_setEntry m.nodup_keys⟩

/-- The map of a list of entries, inserted from the left: a key that occurs again keeps its
first place and takes the last value. -/
def ofList (es : List (String × α)) : OrderedMap α :=
  es.foldl (fun m e => m.insert e.1 e.2) empty

theorem entries_foldl_insert :
    ∀ {m : OrderedMap α} {es : List (String × α)}, (m.keys ++ es.map Prod.fst).Nodup →
      (es.foldl (fun m e => m.insert e.1 e.2) m).entries = m.entries ++ es
  | m, [], _ => by simp
  | m, e :: es, h => by
    have hk : e.1 ∉ m.entries.map Prod.fst := fun hm =>
      (List.nodup_append.1 h).2.2 _ hm _ (by simp) rfl
    have hinsert : (m.insert e.1 e.2).entries = m.entries ++ [e] := setEntry_of_not_mem hk
    have hkeys : ((m.insert e.1 e.2).keys ++ es.map Prod.fst).Nodup := by
      simpa [keys, hinsert] using h
    rw [List.foldl_cons, entries_foldl_insert hkeys, hinsert, List.append_assoc,
      List.singleton_append]

/-- Entries with distinct keys are kept as they are. -/
theorem entries_ofList {es : List (String × α)} (h : (es.map Prod.fst).Nodup) :
    (ofList es).entries = es := by
  rw [ofList, entries_foldl_insert (by simpa [keys, empty] using h)]
  rfl

/-- **Lookup after insertion**: the inserted key has the new value, all others their old one. -/
theorem get?_insert (m : OrderedMap α) (k j : String) (a : α) :
    (m.insert k a).get? j = if j = k then some a else m.get? j :=
  lookup_setEntry k j a m.entries

/-- **Order after insertion**: a present key keeps its place, a new key comes last. -/
theorem keys_insert (m : OrderedMap α) (k : String) (a : α) :
    (m.insert k a).keys = if k ∈ m.keys then m.keys else m.keys ++ [k] := by
  unfold keys insert
  split
  · exact map_fst_setEntry_of_mem ‹_›
  · exact map_fst_setEntry_of_not_mem ‹_›

end OrderedMap

end SchemaCatalog
