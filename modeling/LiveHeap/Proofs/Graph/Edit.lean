import LiveHeap.Proofs.Graph.WellFormed
import Mathlib.Logic.Relation

/-!
# Elementary changes

Every operation that leaves the stack alone is made of five elementary
changes, the constructors of `Edit`.  What each of them keeps is proved once,
and so holds of every sequence of changes (`Edits`).
-/

namespace LiveHeap.Graph

/-- The new contents of a slot stand for the same engine value, and a slot that
holds no value stays as it is. -/
structure Rewrites (g : Graph) (s s' : Slot) : Prop where
  id : s'.vertex.valueId? = s.vertex.valueId?
  structural : s.vertex.isValue = false → s' = s
  outcomes : ∀ outcomes, s'.vertex.outcomes? = some outcomes →
    ∀ w ∈ outcomes, g.HoldsValue w

namespace Rewrites

variable {g : Graph} {s s' : Slot}

theorem isValue (h : g.Rewrites s s') :
    s'.vertex.isValue = s.vertex.isValue := by
  rw [← Vertex.valueId?_isSome, h.id, Vertex.valueId?_isSome]

theorem vertex_iff (h : g.Rewrites s s') {x : Vertex}
    (hx : x.isValue = false) : s'.vertex = x ↔ s.vertex = x := by
  constructor
  · rintro rfl
    rw [h.isValue] at hx
    rw [h.structural hx]
  · rintro rfl
    rw [h.structural hx]

end Rewrites

section Modify

variable {g : Graph} {v : Handle} {f : Slot → Slot}

theorem slot?_modifySlot_eq_none {w : Handle} :
    (g.modifySlot v f).slot? w = none ↔ g.slot? w = none := by
  rw [slot?_modifySlot]
  split <;> simp

theorem slot?_modifySlot_of_some {w : Handle} {s : Slot}
    (hs : g.slot? w = some s) :
    (g.modifySlot v f).slot? w = some (if w = v then f s else s) := by
  rw [slot?_modifySlot, hs]
  split <;> rfl

/-- What is found in a slot after a change was there before, or is the new
contents of the changed slot. -/
theorem slot?_modifySlot_eq_some {w : Handle} {s' : Slot}
    (hs : (g.modifySlot v f).slot? w = some s') :
    ∃ s, g.slot? w = some s ∧ (s' = s ∨ w = v ∧ s' = f s) := by
  rw [slot?_modifySlot] at hs
  split at hs
  next hw =>
    obtain ⟨s, hold, rfl⟩ := Option.map_eq_some_iff.mp hs
    exact ⟨s, hold, Or.inr ⟨hw, rfl⟩⟩
  next => exact ⟨s', hs, Or.inl rfl⟩

variable (hf : ∀ s, g.slot? v = some s → g.Rewrites s (f s))

include hf

theorem valueAt?_modifySlot (w : Handle) :
    (g.modifySlot v f).valueAt? w = g.valueAt? w := by
  unfold valueAt? vertex?
  rw [slot?_modifySlot]
  split
  next hw =>
    subst hw
    cases hs : g.slot? w with
    | none => rfl
    | some s => simp [(hf s hs).id]
  next => rfl

theorem vertex?_modifySlot_iff (w : Handle) {x : Vertex}
    (hx : x.isValue = false) :
    (g.modifySlot v f).vertex? w = some x ↔ g.vertex? w = some x := by
  unfold vertex?
  rw [slot?_modifySlot]
  split
  next hw =>
    subst hw
    cases hs : g.slot? w with
    | none => simp
    | some s => simp [(hf s hs).vertex_iff hx]
  next => rfl

theorem Grows.modifySlot : g.Grows (g.modifySlot v f) where
  stackTop := rfl
  stackDepth := rfl
  structural w _ hx := vertex?_modifySlot_iff hf w hx
  valueAt w id hw := by rwa [valueAt?_modifySlot hf]

theorem ArenaSound.modifySlot (hg : g.ArenaSound) :
    (g.modifySlot v f).ArenaSound := by
  constructor
  · intro w
    rw [vertex?_modifySlot_iff hf w rfl]
    exact hg.root_iff w
  · intro w
    rw [vertex?_modifySlot_iff hf w rfl]
    exact hg.stack_iff w
  · exact hg.free_nodup
  · intro w
    rw [slot?_modifySlot_eq_none, mem_handles, slots_length_modifySlot,
      ← mem_handles]
    exact hg.mem_free_iff w
  · intro w s' hs' hvalue
    obtain ⟨s, hs, rfl | ⟨rfl, rfl⟩⟩ := slot?_modifySlot_eq_some hs'
    · exact hg.structural_flags w s' hs hvalue
    · have hsame := hf s hs
      rw [hsame.isValue] at hvalue
      rw [hsame.structural hvalue]
      exact hg.structural_flags w s hs hvalue
  · intro id w
    rw [valueAt?_modifySlot hf]
    exact hg.vertexFor?_iff id w

theorem ReferencesSound.modifySlot (hg : g.ReferencesSound)
    (hs : g.StackSound) : (g.modifySlot v f).ReferencesSound := by
  refine (Grows.modifySlot hf).referencesSound hs hg ?_ hg.global_value
  intro w outcomes hw u hu
  obtain ⟨x, hx, hout⟩ := Option.bind_eq_some_iff.mp hw
  obtain ⟨s', hs', rfl⟩ := vertex?_eq_some_iff.mp hx
  obtain ⟨s, hold, rfl | ⟨rfl, rfl⟩⟩ := slot?_modifySlot_eq_some hs'
  · refine hg.outcome_value w outcomes ?_ u hu
    rw [outcomes?, vertex?_of_slot? hold]
    exact hout
  · exact (hf s hold).outcomes outcomes hout u hu

theorem WellFormed.modifySlot (hg : g.WellFormed) :
    (g.modifySlot v f).WellFormed := by
  have hgrow := Grows.modifySlot hf
  exact {
    toArenaSound := hg.toArenaSound.modifySlot hf
    toStackSound := hgrow.stackSound hg.toStackSound
    toEdgesSound := hgrow.edgesSound hg.toStackSound hg.toEdgesSound rfl rfl
    toReferencesSound := hg.toReferencesSound.modifySlot hf hg.toStackSound
    idle := hg.idle }

end Modify

section Alloc

variable {g : Graph} {id : ValueId} {x : Vertex} {flags : Flags}

theorem vertex?_allocValue (w : Handle) :
    (g.allocValue id x flags).1.vertex? w =
      if w = ⟨g.slots.length⟩ then some x else g.vertex? w := by
  unfold vertex?
  rw [slot?_allocValue]
  split <;> rfl

theorem valueAt?_allocValue (hx : x.valueId? = some id) (w : Handle) :
    (g.allocValue id x flags).1.valueAt? w =
      if w = ⟨g.slots.length⟩ then some id else g.valueAt? w := by
  unfold valueAt?
  rw [vertex?_allocValue]
  split
  next => simp [hx]
  next => rfl

theorem vertex?_fresh (g : Graph) : g.vertex? ⟨g.slots.length⟩ = none := by
  simp [vertex?, slot?_fresh]

variable (hx : x.valueId? = some id)

include hx

theorem isValue_of_valueId? : x.isValue = true := by
  rw [← x.valueId?_isSome, hx]
  rfl

theorem vertex?_allocValue_iff (w : Handle) {y : Vertex}
    (hy : y.isValue = false) :
    (g.allocValue id x flags).1.vertex? w = some y ↔
      g.vertex? w = some y := by
  rw [vertex?_allocValue]
  split
  next hw =>
    subst hw
    have hne : x ≠ y := by
      rintro rfl
      rw [isValue_of_valueId? hx] at hy
      contradiction
    simp [vertex?_fresh, hne]
  next => rfl

theorem Grows.allocValue : g.Grows (g.allocValue id x flags).1 where
  stackTop := rfl
  stackDepth := rfl
  structural w _ hy := vertex?_allocValue_iff hx w hy
  valueAt w i hw := by
    rw [valueAt?_allocValue hx, if_neg]
    · exact hw
    · rintro rfl
      simp [valueAt?, vertex?_fresh] at hw

theorem ArenaSound.allocValue (hg : g.ArenaSound)
    (hnew : g.vertexFor? id = none) :
    (g.allocValue id x flags).1.ArenaSound := by
  have hlen : (g.allocValue id x flags).1.slots.length =
      g.slots.length + 1 := by
    simp [Graph.allocValue]
  constructor
  · intro w
    rw [vertex?_allocValue_iff hx w rfl]
    exact hg.root_iff w
  · intro w
    rw [vertex?_allocValue_iff hx w rfl]
    exact hg.stack_iff w
  · exact hg.free_nodup
  · intro w
    have hfree := hg.mem_free_iff w
    rw [slot?_allocValue, mem_handles, hlen]
    rw [mem_handles] at hfree
    refine hfree.trans ?_
    split
    next hw => simp [hw]
    next hw =>
      have hne : w.index ≠ g.slots.length := fun h => hw (by cases w; simp_all)
      exact and_congr_left fun _ => by omega
  · intro w s hs hvalue
    rw [slot?_allocValue] at hs
    split at hs
    next =>
      obtain rfl : _ = s := by simpa using hs
      rw [isValue_of_valueId? hx] at hvalue
      contradiction
    next => exact hg.structural_flags w s hs hvalue
  · intro i w
    have hget : (g.allocValue id x flags).1.vertexFor? i =
        if i = id then some ⟨g.slots.length⟩ else g.vertexFor? i :=
      Table.get?_insert _ _ _ _
    rw [hget, valueAt?_allocValue hx]
    -- The new value has no vertex yet, and the new place no value.
    have hfresh : g.valueAt? ⟨g.slots.length⟩ = none := by
      simp [valueAt?, vertex?_fresh]
    have hold := hg.vertexFor?_iff i w
    by_cases hi : i = id <;> by_cases hw : w = ⟨g.slots.length⟩
    · simp [hi, hw]
    · rw [if_pos hi, if_neg hw, ← hold, hi, hnew]
      simp [Ne.symm hw]
    · rw [if_neg hi, if_pos hw, hold, hw, hfresh]
      simp [Ne.symm hi]
    · rw [if_neg hi, if_neg hw]
      exact hold

theorem ReferencesSound.allocValue (hg : g.ReferencesSound)
    (hs : g.StackSound) (hleaf : x.outcomes?.getD [] = []) :
    (g.allocValue id x flags).1.ReferencesSound := by
  refine (Grows.allocValue hx).referencesSound hs hg ?_ hg.global_value
  intro w outcomes hw u hu
  rw [outcomes?, vertex?_allocValue] at hw
  split at hw
  next =>
    have hsome : x.outcomes? = some outcomes := by simpa using hw
    rw [hsome, Option.getD_some] at hleaf
    rw [hleaf] at hu
    simp at hu
  next => exact hg.outcome_value w outcomes hw u hu

theorem WellFormed.allocValue (hg : g.WellFormed)
    (hnew : g.vertexFor? id = none) (hleaf : x.outcomes?.getD [] = []) :
    (g.allocValue id x flags).1.WellFormed := by
  have hgrow : g.Grows (g.allocValue id x flags).1 := Grows.allocValue hx
  have hstack := hg.toStackSound
  exact {
    toArenaSound := hg.toArenaSound.allocValue hx hnew
    toStackSound := hgrow.stackSound hstack
    toEdgesSound := hgrow.edgesSound hstack hg.toEdgesSound rfl rfl
    toReferencesSound := hg.toReferencesSound.allocValue hx hstack hleaf
    idle := hg.idle }

end Alloc

/-- A change of the graph that leaves the stack alone. -/
inductive Edit : Graph → Graph → Prop
  | modify {g : Graph} {v : Handle} {f : Slot → Slot} :
      (∀ s, g.slot? v = some s → g.Rewrites s (f s)) →
      Edit g (g.modifySlot v f)
  | alloc {g : Graph} {id : ValueId} {x : Vertex} {flags : Flags} :
      g.vertexFor? id = none → x.valueId? = some id →
      x.outcomes?.getD [] = [] → Edit g (g.allocValue id x flags).1
  | install {g : Graph} {e : Edge} :
      e.label.isStructural = false → g.IsEnd e.source → g.IsEnd e.target →
      Edit g (g.install e)
  | retire {g : Graph} {s : Handle} {l : Label} : Edit g (g.retire s l)
  | note {g : Graph} (global : Option Handle)
      (bootstrapping changed mutated collectionDue : Bool)
      (collector : Collector) :
      (∀ v, global = some v → g.HoldsValue v) → collector.phase = .idle →
      Edit g { g with
        global, bootstrapping, changed, mutated, collectionDue, collector }

/-- Any number of changes one after the other. -/
abbrev Edits : Graph → Graph → Prop := Relation.ReflTransGen Edit

variable {g g' : Graph}

theorem Edit.grows (h : Edit g g') : g.Grows g' := by
  cases h with
  | modify hf => exact .modifySlot hf
  | alloc _ hx _ => exact .allocValue hx
  | install => exact .install g _
  | retire => exact .retire g _ _
  | note => exact .of_slots rfl rfl rfl

/-- New edges with a new index that agrees with them. -/
theorem WellFormed.rewire (hg : g.WellFormed)
    {index : Table (Handle × Label) Handle} {edges : List Edge}
    (hedges : EdgesSound { g with index, edges }) :
    WellFormed { g with index, edges } := by
  have hgrow : g.Grows { g with index, edges } := .of_slots rfl rfl rfl
  exact {
    toArenaSound := hg.toArenaSound.of_slots rfl rfl rfl
    toStackSound := hgrow.stackSound hg.toStackSound
    toEdgesSound := hedges
    toReferencesSound := hg.toReferencesSound.of_slots hg.toStackSound
      hgrow rfl hg.global_value
    idle := hg.idle }

theorem Edit.wellFormed (h : Edit g g') (hg : g.WellFormed) :
    g'.WellFormed := by
  have hgrow := h.grows
  cases h with
  | modify hf => exact hg.modifySlot hf
  | alloc hnew hx hleaf => exact hg.allocValue hx hnew hleaf
  | @install e hlabel hs ht =>
      have hedges := hg.toEdgesSound.install hg.toStackSound hlabel hs ht
      rw [install_eq] at hedges ⊢
      exact hg.rewire hedges
  | @retire s l =>
      have hedges := hg.toEdgesSound.retire hg.toStackSound s l
      rw [retire_eq] at hedges ⊢
      exact hg.rewire hedges
  | note _ _ _ _ _ _ hglobal hidle =>
      exact {
        toArenaSound := hg.toArenaSound.of_slots rfl rfl rfl
        toStackSound := hgrow.stackSound hg.toStackSound
        toEdgesSound :=
          hgrow.edgesSound hg.toStackSound hg.toEdgesSound rfl rfl
        toReferencesSound := hg.toReferencesSound.of_slots hg.toStackSound
          hgrow rfl hglobal
        idle := hidle }

theorem Edits.grows (h : g.Edits g') : g.Grows g' := by
  induction h with
  | refl => exact .refl g
  | tail _ hlast ih => exact ih.trans hlast.grows

theorem Edits.wellFormed (h : g.Edits g') (hg : g.WellFormed) :
    g'.WellFormed := by
  induction h with
  | refl => exact hg
  | tail _ hlast ih => exact hlast.wellFormed ih

/-- No sequence of changes touches the stack. -/
theorem Edits.frames_eq (h : g.Edits g') (hg : g.WellFormed) :
    g'.frames = g.frames := h.grows.frames_eq hg.toStackSound

end LiveHeap.Graph
