import LiveHeap.Proofs.Graph.Identity

/-!
# The stack as a list

The frames of a graph are a list that pushes and pops work on at its head and
that no other operation changes.  A new frame takes a place that nothing in the
graph refers to.  Operations whose pushes and pops are balanced give the list
back.
-/

namespace LiveHeap.Graph

variable {g g' : Graph}

/-! ## Places in use -/

theorem Chain.vertex?_head {v : Handle} {frames : List (Handle × Frame)}
    (h : g.Chain v frames) : ∃ x, g.vertex? v = some x := by
  cases h with
  | bottom hstack => exact ⟨.stack, hstack⟩
  | frame hv _ => exact ⟨_, hv⟩

theorem Chain.vertex?_parent {v : Handle} {frames : List (Handle × Frame)}
    (h : g.Chain v frames) {w : Handle} {f : Frame} (hmem : (w, f) ∈ frames) :
    ∃ x, g.vertex? f.parent = some x := by
  induction h with
  | bottom => simp at hmem
  | frame _ hrest ih =>
      rcases List.mem_cons.mp hmem with heq | htail
      · obtain ⟨rfl, rfl⟩ := Prod.mk.inj heq
        exact hrest.vertex?_head
      · exact ih htail

/-- Both ends of an edge are places that hold a vertex. -/
theorem WellFormed.vertex?_of_mem_edges (hg : g.WellFormed) {e : Edge}
    (he : e ∈ g.edges) :
    (∃ x, g.vertex? e.source = some x) ∧
      ∃ x, g.vertex? e.target = some x := by
  rcases (hg.mem_edges_iff e).mp he with hindexed | ⟨v, f, hmem, rfl | rfl⟩
  · obtain ⟨_, hs, ht⟩ := hg.index_ends _ _ _ hindexed
    exact ⟨hg.vertex?_of_isEnd hs, hg.vertex?_of_isEnd ht⟩
  · exact ⟨⟨_, (hg.mem_frames_iff v f).mp hmem⟩,
      hg.chain.vertex?_parent hmem⟩
  · obtain ⟨x, hx, _⟩ := hg.frame_value v f hmem
    exact ⟨⟨_, (hg.mem_frames_iff v f).mp hmem⟩, x, hx⟩

theorem Grows.vertex?_eq_none (h : g.Grows g') {v : Handle}
    (hv : g'.vertex? v = none) : g.vertex? v = none := by
  by_contra hsome
  obtain ⟨x, hx⟩ := Option.ne_none_iff_exists'.mp hsome
  cases hvalue : x.isValue with
  | true =>
      obtain ⟨y, hy, _⟩ := h.holdsValue ⟨x, hx, hvalue⟩
      rw [hv] at hy
      simp at hy
  | false =>
      rw [← h.structural v x hvalue, hv] at hx
      simp at hx

/-- The place is not live and on no edge. -/
def Unused (g : Graph) (v : Handle) : Prop :=
  g.isLive v = false ∧ ∀ e ∈ g.edges, e.source ≠ v ∧ e.target ≠ v

theorem WellFormed.unused_of_vertex? (hg : g.WellFormed) {v : Handle}
    (hv : g.vertex? v = none) : g.Unused v := by
  have hslot : g.slot? v = none := by simpa [vertex?] using hv
  refine ⟨by simp [isLive, hslot], fun e he => ?_⟩
  obtain ⟨⟨x, hx⟩, y, hy⟩ := hg.vertex?_of_mem_edges he
  constructor
  · rintro rfl
    rw [hv] at hx
    simp at hx
  · rintro rfl
    rw [hv] at hy
    simp at hy

/-! ## One operation on the list -/

theorem frames_apply_push (hg : g.WellFormed) (id : ValueId) :
    ∃ w v, g.Unused w ∧
      (g.apply (.event (.push id))).vertexFor? id = some v ∧
      (g.apply (.event (.push id))).frames =
        (w, ⟨g.stackTop, v⟩) :: g.frames := by
  obtain ⟨g', v, hedits, hv, heq⟩ := apply_push hg id
  have hg' := hedits.wellFormed hg
  refine ⟨g'.nextFrame, v, ?_, ?_, ?_⟩
  · exact hg.unused_of_vertex?
      (hedits.grows.vertex?_eq_none hg'.vertex?_nextFrame)
  · rw [heq, ← hv]
    unfold markChanged
    rw [pushFrame_eq]
    rfl
  · have hpushed := hg'.pushFrame
      (holdsValue_of_valueAt? (hg'.valueAt?_of_vertexFor? hv))
    rw [heq, (edits_markChanged hpushed).frames_eq hpushed,
      frames_pushFrame hg'.toArenaSound hg'.toStackSound,
      hedits.frames_eq hg, hedits.grows.stackTop]

theorem deliver_pop_nil (hg : g.WellFormed) (hframes : g.frames = [])
    (id : ValueId) : g.deliver (.pop id) = .error .stackUnderflow := by
  have htop := hg.top_of_nil hframes
  simp [deliver, pop, htop]

theorem deliver_pop_cons (hg : g.WellFormed) {top : Handle × Frame}
    {rest : List (Handle × Frame)} (hframes : g.frames = top :: rest)
    (id : ValueId) :
    ∃ g', g.deliver (.pop id) = .ok g' ∧ g'.frames = rest := by
  obtain ⟨v, f⟩ := top
  obtain ⟨_, htop, _⟩ := hg.top_of_cons hframes
  refine ⟨g.popFrame f, pop_eq_popFrame htop, ?_⟩
  rw [frames_popFrame htop hg.toStackSound, hframes, List.tail_cons]

theorem frames_apply_pop (hg : g.WellFormed) (id : ValueId) :
    (g.apply (.event (.pop id))).frames = g.frames.tail := by
  cases hframes : g.frames with
  | nil =>
      have hrefused := deliver_pop_nil hg hframes id
      simp [apply, hrefused, hframes]
  | cons top rest =>
      obtain ⟨g', hpop, hrest⟩ := deliver_pop_cons hg hframes id
      simp [apply, hpop, hrest]

theorem frames_apply_other (hg : g.WellFormed) {op : Operation}
    (hpush : op.isPush = false) (hpop : op.isPop = false) :
    (g.apply op).frames = g.frames :=
  (edits_apply hg op hpush hpop).frames_eq hg

/-! ## Balanced runs -/

namespace Operation

/-- No stretch from the start pops more than it pushes, and the whole list pops
as much as it pushes. -/
structure Balanced (ops : List Operation) : Prop where
  never_below : ∀ n ≤ ops.length,
    (ops.take n).countP isPop ≤ (ops.take n).countP isPush
  level : ops.countP isPop = ops.countP isPush

instance (ops : List Operation) : Decidable (Balanced ops) :=
  decidable_of_iff
    ((∀ n ≤ ops.length,
        (ops.take n).countP isPop ≤ (ops.take n).countP isPush) ∧
      ops.countP isPop = ops.countP isPush)
    ⟨fun h => ⟨h.1, h.2⟩, fun h => ⟨h.never_below, h.level⟩⟩

end Operation

open Operation

/-- One operation that finds a frame above the base, or pops none, leaves the
base and counts in the frames above it. -/
theorem frames_apply_above (hg : g.WellFormed)
    {top base : List (Handle × Frame)} (hframes : g.frames = top ++ base)
    (op : Operation)
    (habove : [op].countP isPop ≤ top.length + [op].countP isPush) :
    ∃ top', (g.apply op).frames = top' ++ base ∧
      top'.length + [op].countP isPop =
        top.length + [op].countP isPush := by
  rcases op.kind with ⟨id, rfl⟩ | ⟨id, rfl⟩ | ⟨hpush, hpop⟩
  · obtain ⟨w, v, _, _, hpushed⟩ := frames_apply_push hg id
    refine ⟨(w, ⟨g.stackTop, v⟩) :: top, ?_, rfl⟩
    rw [hpushed, hframes, List.cons_append]
  · have hpopped := frames_apply_pop hg id
    cases top with
    | nil => simp [isPop, isPush] at habove
    | cons e top =>
        refine ⟨top, ?_, rfl⟩
        rw [hpopped, hframes, List.cons_append, List.tail_cons]
  · have hsame := frames_apply_other hg hpush hpop
    exact ⟨top, hsame.trans hframes, by simp [hpush, hpop]⟩

/-- As long as the pops do not reach below some frames on top, the frames below
these stay, and the number of frames above counts pushes and pops. -/
theorem frames_run_above (hg : g.WellFormed) {top base : List (Handle × Frame)}
    (hframes : g.frames = top ++ base) (ops : List Operation)
    (habove : ∀ n ≤ ops.length,
      (ops.take n).countP isPop ≤ top.length + (ops.take n).countP isPush) :
    ∃ top', (g.run ops).frames = top' ++ base ∧
      top'.length + ops.countP isPop = top.length + ops.countP isPush := by
  induction ops generalizing g top with
  | nil => exact ⟨top, hframes, rfl⟩
  | cons op ops ih =>
      have hrest : ∀ n ≤ ops.length,
          (ops.take n).countP isPop + [op].countP isPop ≤
            top.length + ((ops.take n).countP isPush + [op].countP isPush) := by
        intro n hn
        have h := habove (n + 1) (Nat.succ_le_succ hn)
        rw [List.take_succ_cons, ← List.singleton_append, List.countP_append,
          List.countP_append] at h
        omega
      have hfirst : [op].countP isPop ≤ top.length + [op].countP isPush := by
        simpa using hrest 0 (Nat.zero_le _)
      obtain ⟨top₁, htop₁, hlength⟩ := frames_apply_above hg hframes op hfirst
      have hnext : ∀ n ≤ ops.length, (ops.take n).countP isPop ≤
          top₁.length + (ops.take n).countP isPush := by
        intro n hn
        have := hrest n hn
        omega
      obtain ⟨top', hend, hcount⟩ := ih (hg.apply op) htop₁ hnext
      refine ⟨top', hend, ?_⟩
      rw [← List.singleton_append, List.countP_append, List.countP_append]
      omega

theorem frames_run_balanced (hg : g.WellFormed) {ops : List Operation}
    (hops : Balanced ops) : (g.run ops).frames = g.frames := by
  have hstart : g.frames = [] ++ g.frames := (List.nil_append _).symm
  obtain ⟨top, hend, hcount⟩ := frames_run_above hg hstart ops
    fun n hn => by simpa using hops.never_below n hn
  have hnil : top = [] := by
    rw [hops.level, List.length_nil] at hcount
    exact List.length_eq_zero_iff.mp (by omega)
  rw [hend, hnil, List.nil_append]

example : Balanced [.event (.push ⟨1⟩), .collect, .event (.push ⟨2⟩),
    .event (.pop ⟨2⟩), .event (.pop ⟨2⟩)] := by
  decide

/-- In every graph that operations make, the frames are a chain of distinct
places that ends at the sentinel.  A push puts one frame in an unused place on
the list, a pop takes the head off or is refused if there is none, and nothing
else changes the list. -/
theorem stack_refines_list (ops : List Operation) :
    let g := new.run ops
    (g.Chain g.stackTop g.frames ∧ (g.frames.map Prod.fst).Nodup ∧
      (∀ limit, g.stackDepth ≤ limit →
        g.framesFrom limit g.stackTop = g.frames) ∧
      g.frames.length = g.stackDepth ∧
      (g.frames.head?.map Prod.fst).getD stack = g.stackTop) ∧
    (∀ id, ∃ g' w v, g.deliver (.push id) = .ok g' ∧
      g'.vertexFor? id = some v ∧
      g'.frames = (w, ⟨g.stackTop, v⟩) :: g.frames ∧
      g.isLive w = false ∧ ∀ e ∈ g.edges, e.source ≠ w ∧ e.target ≠ w) ∧
    (∀ id, (∃ g', g.deliver (.pop id) = .ok g') ↔ g.frames ≠ []) ∧
    (∀ id g', g.deliver (.pop id) = .ok g' → g'.frames = g.frames.tail) ∧
    (∀ id, g.frames = [] → g.deliver (.pop id) = .error .stackUnderflow ∧
      g.apply (.event (.pop id)) = g) ∧
    (∀ op : Operation, op.isPush = false → op.isPop = false →
      (g.apply op).frames = g.frames) ∧
    ∀ later, Balanced later → (g.run later).frames = g.frames := by
  intro g
  have hg : g.WellFormed := wellFormed_run_new ops
  refine ⟨⟨hg.chain, hg.chain.nodup, ?_, hg.depth.symm, hg.chain.head⟩,
    ?_, ?_, ?_, ?_, ?_, ?_⟩
  · intro limit hlimit
    exact hg.chain.framesFrom_eq (hg.depth ▸ hlimit)
  · intro id
    obtain ⟨w, v, hunused, hv, hframes⟩ := frames_apply_push hg id
    exact ⟨g.push id, w, v, rfl, hv, hframes, hunused.1, hunused.2⟩
  · intro id
    cases hframes : g.frames with
    | nil => simp [deliver_pop_nil hg hframes id]
    | cons top rest =>
        obtain ⟨g', hpop, _⟩ := deliver_pop_cons hg hframes id
        simp [hpop]
  · intro id g' hpop
    have htail := frames_apply_pop hg id
    simpa [apply, hpop] using htail
  · intro id hframes
    have hrefused := deliver_pop_nil hg hframes id
    exact ⟨hrefused, by simp [apply, hrefused]⟩
  · exact fun op hpush hpop => frames_apply_other hg hpush hpop
  · exact fun later hlater => frames_run_balanced hg hlater

end LiveHeap.Graph
