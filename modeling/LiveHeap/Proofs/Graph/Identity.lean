import LiveHeap.Proofs.Graph.Run

/-!
# Places and identities

The table of values pairs the known values with the places that hold a value,
one to one, and a value that has a place keeps it for good.  The sentinels and
the frames on the stack are always live, never builtins and never collected.
-/

namespace LiveHeap.Graph

variable {g : Graph}

/-! ## Structural vertices -/

theorem ArenaSound.flags_of_structural (hg : g.ArenaSound) {v : Handle}
    {x : Vertex} (hx : g.vertex? v = some x) (hvalue : x.isValue = false) :
    g.isLive v = true ∧ g.isBuiltin v = false := by
  obtain ⟨s, hs, rfl⟩ := vertex?_eq_some_iff.mp hx
  have hflags := hg.structural_flags v s hs hvalue
  simp [isLive, isBuiltin, hs, hflags]

/-- What a collection answers are values. -/
theorem WellFormed.holdsValue_of_mem_collect (hg : g.WellFormed) {v : Handle}
    (hv : v ∈ g.collect.2) : g.HoldsValue v :=
  holdsValue_of_isCollectable ((collect_released hg.idle).2.2 v hv)

theorem WellFormed.structural_kept (hg : g.WellFormed) {v : Handle}
    {x : Vertex} (hx : g.vertex? v = some x) (hvalue : x.isValue = false) :
    g.isLive v = true ∧ g.isBuiltin v = false ∧ v ∉ g.collect.2 := by
  obtain ⟨hlive, hbuiltin⟩ := hg.flags_of_structural hx hvalue
  refine ⟨hlive, hbuiltin, fun hmem => ?_⟩
  obtain ⟨y, hy, hyvalue⟩ := hg.holdsValue_of_mem_collect hmem
  rw [hx] at hy
  rw [← Option.some.inj hy, hvalue] at hyvalue
  contradiction

/-- The root, the stack sentinel and the frames on the stack. -/
def IsStructural (g : Graph) (v : Handle) : Prop :=
  v = root ∨ v = stack ∨ v ∈ g.frames.map Prod.fst

theorem WellFormed.vertex?_of_isStructural (hg : g.WellFormed) {v : Handle}
    (hv : g.IsStructural v) :
    ∃ x, g.vertex? v = some x ∧ x.isValue = false := by
  rcases hv with rfl | rfl | hframe
  · exact ⟨.root, (hg.root_iff root).mpr rfl, rfl⟩
  · exact ⟨.stack, (hg.stack_iff stack).mpr rfl, rfl⟩
  · obtain ⟨⟨v, f⟩, hmem, rfl⟩ := List.mem_map.mp hframe
    exact ⟨.frame f, (hg.mem_frames_iff v f).mp hmem, rfl⟩

/-! ## Values -/

theorem valueAt?_eq_some_iff {v : Handle} {id : ValueId} :
    g.valueAt? v = some id ↔
      ∃ x about, g.vertex? v = some x ∧ x.profile? = some about ∧
        about.id = id := by
  unfold valueAt?
  rw [Option.bind_eq_some_iff]
  constructor
  · rintro ⟨x, hx, hid⟩
    obtain ⟨about, habout, rfl⟩ := Option.map_eq_some_iff.mp hid
    exact ⟨x, about, hx, habout, rfl⟩
  · rintro ⟨x, about, hx, habout, rfl⟩
    exact ⟨x, hx, by rw [Vertex.valueId?, habout]; rfl⟩

theorem WellFormed.holdsValue_iff_known (hg : g.WellFormed) {v : Handle} :
    g.HoldsValue v ↔ ∃ id, g.vertexFor? id = some v := by
  rw [holdsValue_iff]
  exact exists_congr fun id => (hg.vertexFor?_iff id v).symm

/-- No operation takes a value from its place. -/
theorem WellFormed.valueAt?_apply (hg : g.WellFormed) (op : Operation)
    {v : Handle} {id : ValueId} (hv : g.valueAt? v = some id) :
    (g.apply op).valueAt? v = some id := by
  rcases op.kind with ⟨i, rfl⟩ | ⟨i, rfl⟩ | ⟨hpush, hpop⟩
  · obtain ⟨g', w, hedits, _, heq⟩ := apply_push hg i
    have hold := hedits.grows.valueAt v id hv
    rw [← (hedits.wellFormed hg).valueAt?_pushFrame w v] at hold
    rw [heq]
    exact hold
  · rcases g.apply_pop i with hsame | ⟨f, htop, heq⟩
    · rw [hsame]
      exact hv
    · rw [heq, valueAt?_popFrame htop]
      exact hv
  · exact (edits_apply hg op hpush hpop).grows.valueAt v id hv

theorem WellFormed.valueAt?_run (hg : g.WellFormed) (ops : List Operation)
    {v : Handle} {id : ValueId} (hv : g.valueAt? v = some id) :
    (g.run ops).valueAt? v = some id := by
  unfold Graph.run
  induction ops generalizing g with
  | nil => exact hv
  | cons op ops ih => exact ih (hg.apply op) (hg.valueAt?_apply op hv)

/-- In every graph that operations make, places and identities are sound:
the sentinels have their places, the free list holds exactly the empty places,
each frame is on the stack, and the table of values is one to one onto the
places of values.  Sentinels and frames stay out of every collection, and a
known value keeps its place whatever happens later. -/
theorem places_and_identities_sound (ops : List Operation) :
    let g := new.run ops
    (g.vertex? ⟨0⟩ = some .root ∧ g.vertex? ⟨1⟩ = some .stack) ∧
    (g.freeSlots.Nodup ∧
      ∀ v, v ∈ g.freeSlots ↔ v ∈ g.handles ∧ g.slot? v = none) ∧
    (∀ v f, g.vertex? v = some (.frame f) ↔ (v, f) ∈ g.frames) ∧
    (∀ v, g.HoldsValue v ↔ ∃ id, g.vertexFor? id = some v) ∧
    (∀ id id' v, g.vertexFor? id = some v → g.vertexFor? id' = some v →
      id = id') ∧
    (∀ v, g.IsStructural v →
      g.isLive v = true ∧ g.isBuiltin v = false ∧ v ∉ g.collect.2) ∧
    ∀ id v, g.vertexFor? id = some v → ∀ later,
      (g.run later).vertexFor? id = some v ∧
        ∃ x about, (g.run later).vertex? v = some x ∧
          x.profile? = some about ∧ about.id = id := by
  intro g
  have hg : g.WellFormed := wellFormed_run_new ops
  refine ⟨⟨(hg.root_iff root).mpr rfl, (hg.stack_iff stack).mpr rfl⟩,
    ⟨hg.free_nodup, hg.mem_free_iff⟩,
    fun v f => (hg.mem_frames_iff v f).symm,
    fun v => hg.holdsValue_iff_known, ?_, ?_, ?_⟩
  · intro id id' v hid hid'
    rw [hg.vertexFor?_iff] at hid hid'
    rw [hid] at hid'
    exact Option.some.inj hid'
  · intro v hv
    obtain ⟨x, hx, hvalue⟩ := hg.vertex?_of_isStructural hv
    exact hg.structural_kept hx hvalue
  · intro id v hid later
    have hlater := hg.valueAt?_run later ((hg.vertexFor?_iff id v).mp hid)
    exact ⟨((hg.run later).vertexFor?_iff id v).mpr hlater,
      valueAt?_eq_some_iff.mp hlater⟩

end LiveHeap.Graph
