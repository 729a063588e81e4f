/-!
# Finite tables

A table is an association list whose keys are pairwise distinct, in the order
in which the keys first arrived.  The colour table of a collection, the map
from engine values to vertices and the label index of the graph are tables.
The lookup after an insertion or an erasure is given by `get?_insert` and
`get?_erase`; everything else about tables follows from these two.
-/

namespace LiveHeap

structure Table (κ ν : Type) where
  entries : List (κ × ν)
  nodup : (entries.map Prod.fst).Nodup

namespace Table

variable {κ ν : Type} [DecidableEq κ]

def empty : Table κ ν := ⟨[], List.Pairwise.nil⟩

instance : Inhabited (Table κ ν) := ⟨empty⟩

def get? (t : Table κ ν) (k : κ) : Option ν := t.entries.lookup k

def contains (t : Table κ ν) (k : κ) : Bool := (t.get? k).isSome

def keys (t : Table κ ν) : List κ := t.entries.map Prod.fst

def size (t : Table κ ν) : Nat := t.entries.length

/-- A known key keeps its place and takes the new value; a new key goes last. -/
def upsert (k : κ) (v : ν) : List (κ × ν) → List (κ × ν)
  | [] => [(k, v)]
  | e :: es => if e.1 = k then (k, v) :: es else e :: upsert k v es

theorem mem_fst_upsert {k x : κ} {v : ν} {es : List (κ × ν)} :
    x ∈ (upsert k v es).map Prod.fst ↔ x = k ∨ x ∈ es.map Prod.fst := by
  induction es with
  | nil => simp [upsert]
  | cons e es ih =>
      by_cases h : e.1 = k
      · simp [upsert, h]
      · rw [upsert, if_neg h, List.map_cons, List.mem_cons, ih,
          List.map_cons, List.mem_cons]
        grind

theorem nodup_upsert {k : κ} {v : ν} {es : List (κ × ν)}
    (h : (es.map Prod.fst).Nodup) : ((upsert k v es).map Prod.fst).Nodup := by
  induction es with
  | nil => simp [upsert]
  | cons e es ih =>
      rw [List.map_cons, List.nodup_cons] at h
      by_cases hk : e.1 = k
      · rw [upsert, if_pos hk, List.map_cons, List.nodup_cons]
        exact ⟨hk ▸ h.1, h.2⟩
      · rw [upsert, if_neg hk, List.map_cons, List.nodup_cons, mem_fst_upsert]
        exact ⟨fun hx => hx.elim hk h.1, ih h.2⟩

theorem lookup_upsert {k x : κ} {v : ν} {es : List (κ × ν)} :
    (upsert k v es).lookup x = if x = k then some v else es.lookup x := by
  induction es with
  | nil =>
      rw [upsert, List.lookup_cons]
      by_cases h : x = k
      · simp [h]
      · simp [h, beq_eq_false_iff_ne.2 h]
  | cons e es ih =>
      by_cases hk : e.1 = k <;> by_cases hx : x = k <;> grind [upsert]

def insert (t : Table κ ν) (k : κ) (v : ν) : Table κ ν :=
  ⟨upsert k v t.entries, nodup_upsert t.nodup⟩

def erase (t : Table κ ν) (k : κ) : Table κ ν :=
  ⟨t.entries.filter (fun e => e.1 ≠ k),
    t.nodup.sublist (List.filter_sublist.map Prod.fst)⟩

/-- Later pairs win over earlier pairs with the same key. -/
def ofList (pairs : List (κ × ν)) : Table κ ν :=
  pairs.foldl (fun t e => t.insert e.1 e.2) empty

@[simp] theorem get?_empty (k : κ) : (empty : Table κ ν).get? k = none := rfl

theorem get?_insert (t : Table κ ν) (k x : κ) (v : ν) :
    (t.insert k v).get? x = if x = k then some v else t.get? x :=
  lookup_upsert

theorem lookup_filter_ne {k x : κ} {es : List (κ × ν)} :
    (es.filter (fun e => e.1 ≠ k)).lookup x =
      if x = k then none else es.lookup x := by
  induction es with
  | nil => simp
  | cons e es ih =>
      by_cases hk : e.1 = k <;> by_cases hx : x = k <;> grind

theorem get?_erase (t : Table κ ν) (k x : κ) :
    (t.erase k).get? x = if x = k then none else t.get? x :=
  lookup_filter_ne

theorem lookup_eq_some_iff_mem {es : List (κ × ν)}
    (h : (es.map Prod.fst).Nodup) {k : κ} {v : ν} :
    es.lookup k = some v ↔ (k, v) ∈ es := by
  induction es with
  | nil => simp
  | cons e es ih =>
      obtain ⟨l, w⟩ := e
      rw [List.map_cons, List.nodup_cons] at h
      have hmem : (l, v) ∉ es := fun he =>
        h.1 (List.mem_map.2 ⟨(l, v), he, rfl⟩)
      by_cases hk : k = l
      · subst hk
        simp [hmem, eq_comm]
      · simp [List.lookup_cons, beq_eq_false_iff_ne.2 hk, hk, ih h.2]

theorem get?_eq_some_iff (t : Table κ ν) {k : κ} {v : ν} :
    t.get? k = some v ↔ (k, v) ∈ t.entries :=
  lookup_eq_some_iff_mem t.nodup

theorem mem_keys_iff (t : Table κ ν) {k : κ} :
    k ∈ t.keys ↔ (t.get? k).isSome := by
  rw [Option.isSome_iff_exists, keys, List.mem_map]
  constructor
  · rintro ⟨e, he, rfl⟩
    exact ⟨e.2, (get?_eq_some_iff t).2 he⟩
  · rintro ⟨v, hv⟩
    exact ⟨(k, v), (get?_eq_some_iff t).1 hv, rfl⟩

end Table

end LiveHeap
