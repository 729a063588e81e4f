import LiveHeap.Graph.View
import LiveHeap.Proofs.Graph.Run

/-!
# Changes and snapshots

While its flag is down, a graph shows what was shown last.  An operation that
changes what a snapshot shows raises the flag, with one exception: a root scope
that was never mentioned before is registered without a word.
-/

namespace LiveHeap.Graph

variable {g g' g'' : Graph}

/-! ## Snapshots -/

theorem snapshot_congr (hlength : g'.slots.length = g.slots.length)
    (hlive : ∀ v, g'.isLive v = g.isLive v)
    (hvertex : ∀ v, g'.vertex? v = g.vertex? v)
    (hedges : g'.edges = g.edges) : g'.snapshot = g.snapshot := by
  have hsame : g'.isLive = g.isLive := funext hlive
  have hseen : g'.seenVertex? = g.seenVertex? := by
    funext v
    unfold seenVertex? label?
    rw [hvertex]
  unfold snapshot liveVertices handles
  rw [hlength, hsame, hseen, hedges]

theorem snapshot_of_slots (hslots : g'.slots = g.slots)
    (hedges : g'.edges = g.edges) : g'.snapshot = g.snapshot := by
  apply snapshot_congr
  · rw [hslots]
  · intro v
    apply isLive_congr
    rw [slot?, slot?, hslots]
  · intro v
    unfold vertex? slot?
    rw [hslots]
  · exact hedges

theorem snapshot_setBuiltin (g : Graph) (v : Handle) :
    (g.setBuiltin v).snapshot = g.snapshot := by
  have hslot : ∀ w, (g.setBuiltin v).slot? w =
      if w = v then (g.slot? w).map fun s =>
        { s with flags := { s.flags with builtin := true } }
      else g.slot? w := fun w => slot?_modifySlot g v w _
  apply snapshot_congr
  · exact slots_length_modifySlot g v _
  · intro w
    unfold isLive
    rw [hslot]
    by_cases hw : w = v <;> cases g.slot? w <;> simp [hw]
  · intro w
    unfold vertex?
    rw [hslot]
    by_cases hw : w = v <;> cases g.slot? w <;> simp [hw]
  · rfl

section Registered

variable (g) (id : ValueId) (x : Vertex) (flags : Flags)

theorem handles_allocValue :
    (g.allocValue id x flags).1.handles = g.handles ++ [⟨g.slots.length⟩] := by
  simp [handles, allocValue, List.range_succ]

theorem slot?_allocValue_of_mem {v : Handle} (hv : v ∈ g.handles) :
    (g.allocValue id x flags).1.slot? v = g.slot? v := by
  rw [slot?_allocValue, if_neg]
  rintro rfl
  exact absurd (mem_handles.mp hv) (Nat.lt_irrefl _)

theorem slot?_allocValue_self :
    (g.allocValue id x flags).1.slot? ⟨g.slots.length⟩ = some ⟨x, flags⟩ := by
  rw [slot?_allocValue, if_pos rfl]

theorem liveVertices_allocValue :
    (g.allocValue id x flags).1.liveVertices =
      g.liveVertices ++ if flags.live then [⟨g.slots.length⟩] else [] := by
  have hold : g.handles.filter (g.allocValue id x flags).1.isLive =
      g.liveVertices := by
    apply List.filter_congr
    intro v hv
    exact isLive_congr (slot?_allocValue_of_mem g id x flags hv)
  have hnew : (g.allocValue id x flags).1.isLive ⟨g.slots.length⟩ =
      flags.live := isLive_of_slot? (slot?_allocValue_self g id x flags)
  have hall : (g.allocValue id x flags).1.liveVertices =
      (g.allocValue id x flags).1.handles.filter
        (g.allocValue id x flags).1.isLive := rfl
  rw [hall, handles_allocValue, List.filter_append, hold, List.filter_singleton,
    hnew, Bool.cond_eq_ite]

/-- A new value stands at the end of the snapshot, if it is live. -/
theorem snapshot_allocValue :
    (g.allocValue id x flags).1.snapshot =
      { g.snapshot with
        vertices := g.snapshot.vertices ++
          if flags.live then [⟨⟨g.slots.length⟩, x.label⟩] else [] } := by
  have hold : g.liveVertices.filterMap (g.allocValue id x flags).1.seenVertex? =
      g.liveVertices.filterMap g.seenVertex? := by
    apply List.filterMap_congr
    intro v hv
    have hmem : v ∈ g.handles := List.mem_of_mem_filter hv
    unfold seenVertex? label? vertex?
    rw [slot?_allocValue_of_mem g id x flags hmem]
  have hnew : (g.allocValue id x flags).1.seenVertex? ⟨g.slots.length⟩ =
      some ⟨⟨g.slots.length⟩, x.label⟩ := by
    unfold seenVertex? label? vertex?
    rw [slot?_allocValue_self]
    rfl
  unfold snapshot
  rw [liveVertices_allocValue, List.filterMap_append, hold]
  cases flags.live <;> simp [hnew] <;> rfl

end Registered

/-! ## What the flag tells -/

/-- If the flag is down afterwards, it was down before, and a snapshot shows
the same as before. -/
def Noticed (g g' : Graph) : Prop :=
  g'.changed = false → g.changed = false ∧ g'.snapshot = g.snapshot

namespace Noticed

theorem refl (g : Graph) : g.Noticed g := fun h => ⟨h, rfl⟩

theorem trans (h : g.Noticed g') (h' : g'.Noticed g'') : g.Noticed g'' := by
  intro hlast
  have ⟨hmiddle, hsame'⟩ := h' hlast
  have ⟨hfirst, hsame⟩ := h hmiddle
  exact ⟨hfirst, hsame'.trans hsame⟩

theorem of_changed (h : g'.changed = true) : g.Noticed g' := by
  intro hdown
  rw [h] at hdown
  contradiction

theorem of_slots (hslots : g'.slots = g.slots) (hedges : g'.edges = g.edges)
    (hchanged : g'.changed = g.changed) : g.Noticed g' :=
  fun h => ⟨hchanged.symm.trans h, snapshot_of_slots hslots hedges⟩

end Noticed

theorem noticed_registerBuiltin (g : Graph) (id : ValueId) :
    g.Noticed (g.registerBuiltin id) := by
  unfold registerBuiltin
  cases g.vertexFor? id with
  | some v => exact fun h => ⟨h, snapshot_setBuiltin g v⟩
  | none =>
      intro h
      refine ⟨h, ?_⟩
      rw [snapshot_allocValue]
      simp

theorem noticed_registerBuiltins (g : Graph) (ids : List ValueId) :
    g.Noticed (g.registerBuiltins ids) := by
  apply List.foldlRecOn ids registerBuiltin (.refl g)
  intro g' hnoticed id _
  exact hnoticed.trans (noticed_registerBuiltin g' id)

/-- A collection that removes something raises the flag. -/
theorem WellFormed.noticed_collect (hg : g.WellFormed) :
    g.Noticed g.collect.1 := by
  have heq := (collect_released hg.idle).1
  cases hremoved : g.collect.2 with
  | nil =>
      rw [hremoved] at heq
      rw [heq]
      exact .of_slots rfl rfl (Bool.or_false _)
  | cons v vs =>
      apply Noticed.of_changed
      rw [heq, hremoved]
      exact Bool.or_true _

theorem noticed_pop (g : Graph) (id : ValueId) :
    g.Noticed (g.apply (.event (.pop id))) := by
  rcases g.apply_pop id with hsame | ⟨f, _, heq⟩
  · rw [hsame]
    exact .refl g
  · rw [heq]
    exact .of_changed rfl

theorem noticed_event (g : Graph) (e : Event) :
    g.Noticed (g.apply (.event e)) := by
  cases e with
  | create value => exact .of_changed rfl
  | push id => exact .of_changed rfl
  | pop id => exact noticed_pop g id
  | link source target label => exact .of_changed rfl
  | unlink source target label => exact .of_changed rfl
  | callBoundary => exact .of_slots rfl rfl rfl

/-! ## The root scope -/

/-- What a snapshot shows more when the value becomes the root scope. -/
def silentlyShown (g : Graph) (id : ValueId) : List SeenVertex :=
  if g.vertexFor? id = none ∧ g.bootstrapping = false then
    [⟨⟨g.slots.length⟩, Vertex.label (.plain (.unannounced id))⟩]
  else []

theorem changed_resolve (g : Graph) (id : ValueId) :
    (g.resolve id).1.changed = g.changed := by
  unfold resolve
  cases g.vertexFor? id <;> rfl

theorem changed_setGlobal (g : Graph) (id : Option ValueId) :
    (g.setGlobal id).changed = g.changed := by
  cases id with
  | none => rfl
  | some id => exact changed_resolve g id

theorem snapshot_setGlobal (g : Graph) (id : ValueId) :
    (g.setGlobal (some id)).snapshot =
      { g.snapshot with
        vertices := g.snapshot.vertices ++ g.silentlyShown id } := by
  have hscope : (g.setGlobal (some id)).snapshot = (g.resolve id).1.snapshot :=
    snapshot_of_slots rfl rfl
  rw [hscope]
  unfold resolve silentlyShown
  cases hknown : g.vertexFor? id with
  | some v => simp
  | none =>
      rw [snapshot_allocValue]
      unfold registrationFlags
      cases hphase : g.bootstrapping <;> simp

/-! ## Runs -/

/-- The snapshot taken last, and the vertices that the root scope has added to
it silently. -/
structure Shown where
  snapshot : Snapshot
  silent : List SeenVertex

namespace Shown

/-- Before the first snapshot, the one of a new graph counts as taken. -/
def start : Shown := ⟨new.snapshot, []⟩

def after (s : Shown) (g : Graph) : Operation → Shown
  | .takeSnapshot => ⟨g.takeSnapshot.2, []⟩
  | .setGlobal (some id) => { s with silent := s.silent ++ g.silentlyShown id }
  | _ => s

def afterAll (s : Shown) (g : Graph) : List Operation → Shown
  | [] => s
  | op :: ops => (s.after g op).afterAll (g.apply op) ops

/-- What a snapshot shows while the flag is down. -/
def expected (s : Shown) : Snapshot :=
  { s.snapshot with vertices := s.snapshot.vertices ++ s.silent }

theorem expected_eq_iff (s : Shown) :
    s.expected = s.snapshot ↔ s.silent = [] := by
  unfold expected
  constructor
  · intro hsame
    have hvertices := congrArg Snapshot.vertices hsame
    exact List.append_right_eq_self.mp hvertices
  · intro hsilent
    rw [hsilent, List.append_nil]

end Shown

/-- While the flag is down, a snapshot shows what is expected. -/
def Unchanged (g : Graph) (s : Shown) : Prop :=
  g.changed = false → g.snapshot = s.expected

theorem Unchanged.noticed {s : Shown} (h : g.Unchanged s)
    (hnoticed : g.Noticed g') : g'.Unchanged s := by
  intro hdown
  have ⟨hbefore, hsame⟩ := hnoticed hdown
  exact hsame.trans (h hbefore)

theorem Unchanged.apply {s : Shown} (h : g.Unchanged s) (hg : g.WellFormed)
    (op : Operation) : (g.apply op).Unchanged (s.after g op) := by
  cases op with
  | event e => exact h.noticed (noticed_event g e)
  | beginBootstrap => exact h.noticed (.of_slots rfl rfl rfl)
  | endBootstrap => exact h.noticed (.of_slots rfl rfl rfl)
  | registerBuiltins ids => exact h.noticed (noticed_registerBuiltins g ids)
  | setGlobal id =>
      cases id with
      | none => exact h.noticed (.of_slots rfl rfl rfl)
      | some id =>
          intro hdown
          have hbefore : g.changed = false :=
            (changed_setGlobal g (some id)).symm.trans hdown
          have hsnapshot := snapshot_setGlobal g id
          rw [h hbefore] at hsnapshot
          rw [Graph.apply, hsnapshot]
          simp [Shown.expected, Shown.after]
  | collect => exact h.noticed hg.noticed_collect
  | takeSnapshot =>
      intro _
      have hsame : g.takeSnapshot.1.snapshot = g.snapshot :=
        snapshot_of_slots rfl rfl
      rw [Graph.apply, hsame]
      simp [Shown.expected, Shown.after, takeSnapshot]

theorem Unchanged.run {s : Shown} (h : g.Unchanged s) (hg : g.WellFormed)
    (ops : List Operation) : (g.run ops).Unchanged (s.afterAll g ops) := by
  unfold Graph.run
  induction ops generalizing g s with
  | nil => exact h
  | cons op ops ih => exact ih (h.apply hg op) (hg.apply op)

theorem unchanged_run_new (ops : List Operation) :
    (new.run ops).Unchanged (Shown.start.afterAll new ops) := by
  apply Unchanged.run
  · intro _
    simp [Shown.expected, Shown.start]
  · exact wellFormed_new

end LiveHeap.Graph
