import LiveHeap.Proofs.Collection.Cycle
import LiveHeap.Collection.Operation
import Mathlib.Data.Set.Card

/-!
# Exactness of a full cycle

`CycleOn` says which vertices a cycle marks and releases.  This file adds what
the cycle writes down while it goes: the order of tracing, the shades and the
statistics.  The vertices traced so far are the traced vertices of the scene
that are marked and no longer wait, so an empty queue means that each of them
was traced, and none of them twice.
-/

namespace LiveHeap

namespace Table

variable {κ ν : Type} [DecidableEq κ]

theorem encard_contains (t : Table κ ν) :
    {k | t.contains k = true}.encard = t.size := by
  have hkeys : {k | t.contains k = true} = (t.keys.toFinset : Set κ) := by
    ext k
    rw [Set.mem_ofPred_eq, Finset.mem_coe, List.mem_toFinset, t.mem_keys_iff,
      contains]
  have hnodup : t.keys.Nodup := t.nodup
  rw [hkeys, Set.encard_coe_eq_coe_finsetCard,
    List.toFinset_card_of_nodup hnodup, keys, List.length_map, size]

end Table

namespace Marks

/-- The gray vertices are the waiting ones, and none of them waits twice. -/
structure Consistent (m : Marks) : Prop where
  nodup : m.queue.Nodup
  gray_iff : ∀ v, m.shades.get? v = some .gray ↔ v ∈ m.queue

theorem consistent_empty : empty.Consistent := by
  constructor
  · exact List.nodup_nil
  · simp [empty]

theorem Consistent.isMarked {m : Marks} (hm : m.Consistent) {v : Handle}
    (hv : v ∈ m.queue) : m.isMarked v = true := by
  have hgray := (hm.gray_iff v).mpr hv
  rw [Marks.isMarked, Table.contains, hgray]
  rfl

theorem Consistent.not_mem_queue {m : Marks} (hm : m.Consistent) {v : Handle}
    (hv : ¬ m.isMarked v = true) : v ∉ m.queue :=
  fun hwait => hv (hm.isMarked hwait)

theorem Consistent.visit {m : Marks} (hm : m.Consistent) (v : Handle) :
    (m.visit v).Consistent := by
  by_cases hv : m.isMarked v = true
  · rw [Marks.visit, if_pos hv]
    exact hm
  · have hnew := hm.not_mem_queue hv
    rw [Marks.visit, if_neg hv]
    constructor
    · simp only [List.nodup_append', List.nodup_singleton,
        List.disjoint_singleton]
      exact ⟨hm.nodup, trivial, hnew⟩
    · intro w
      simp only [Table.get?_insert, List.mem_append, List.mem_singleton]
      by_cases hw : w = v
      · simp [hw]
      · simp [hw, hm.gray_iff w]

theorem Consistent.pin {m : Marks} (hm : m.Consistent) (v : Handle) :
    (m.pin v).Consistent := by
  by_cases hv : m.isMarked v = true
  · rw [Marks.pin, if_pos hv]
    exact hm
  · have hnew := hm.not_mem_queue hv
    rw [Marks.pin, if_neg hv]
    constructor
    · exact hm.nodup
    · intro w
      simp only [Table.get?_insert]
      by_cases hw : w = v
      · simp [hw, hnew]
      · simp [hw, hm.gray_iff w]

theorem Consistent.pop {m m' : Marks} {v : Handle} (hm : m.Consistent)
    (hpop : m.pop = some (v, m')) : m'.Consistent ∧ v ∉ m'.queue := by
  unfold Marks.pop at hpop
  cases hqueue : m.queue with
  | nil => simp [hqueue] at hpop
  | cons u waiting =>
      have hnodup := hm.nodup
      rw [hqueue, List.nodup_cons] at hnodup
      simp only [hqueue, Option.some.injEq, Prod.mk.injEq] at hpop
      obtain ⟨rfl, rfl⟩ := hpop
      refine ⟨⟨hnodup.2, ?_⟩, hnodup.1⟩
      intro w
      have hgray := hm.gray_iff w
      rw [hqueue, List.mem_cons] at hgray
      simp only [Table.get?_insert]
      by_cases hw : w = u
      · simp [hw, hnodup.1]
      · simp [hw, hgray]

theorem Consistent.visitAll {m : Marks} (hm : m.Consistent)
    (vs : List Handle) : (m.visitAll vs).Consistent := by
  unfold Marks.visitAll
  induction vs generalizing m with
  | nil => exact hm
  | cons v vs ih => exact ih (hm.visit v)

theorem Consistent.scanRoots {m : Marks} (hm : m.Consistent)
    (calls : List RootCall) : (calls.foldl Bench.scanRoot m).Consistent := by
  induction calls generalizing m with
  | nil => exact hm
  | cons call calls ih =>
      cases call with
      | visit v => exact ih (hm.visit v)
      | pin v => exact ih (hm.pin v)

/-- With nothing left to wait, a mark is a black one. -/
theorem Consistent.color_eq {m : Marks} (hm : m.Consistent)
    (hqueue : m.queue = []) (v : Handle) :
    m.color v = if m.isMarked v = true then .black else .white := by
  have hgray := hm.gray_iff v
  rw [hqueue] at hgray
  unfold Marks.color Marks.isMarked Table.contains
  cases hv : m.shades.get? v with
  | none => rfl
  | some shade =>
      cases shade with
      | gray => simp [hv] at hgray
      | black => rfl

end Marks

/-! ## The order of tracing -/

/-- The list holds, each of them once, the traced vertices that are marked and
do not wait any more. -/
structure TracedOnce (s : Scene) (m : Marks) (traced : List Handle) :
    Prop where
  consistent : m.Consistent
  nodup : traced.Nodup
  mem_iff : ∀ v, v ∈ traced ↔
    s.Traced v ∧ m.isMarked v = true ∧ v ∉ m.queue

theorem TracedOnce.scanRoots (s : Scene) :
    TracedOnce s (s.roots.foldl Bench.scanRoot Marks.empty) [] := by
  have hmarking := Marking.scanRoots s
  constructor
  · exact Marks.consistent_empty.scanRoots s.roots
  · exact List.nodup_nil
  · -- A vertex that is traced and marked by the roots waits.
    intro v
    constructor
    · exact fun hv => absurd hv List.not_mem_nil
    · intro hv
      exfalso
      apply hv.2.2
      rw [Bench.mem_queue_scanRoots]
      refine Or.inr ⟨Marks.isMarked_empty v, ?_⟩
      have hcalls := (Bench.isMarked_scanRoots Marks.empty s.roots v).mp hv.2.1
      rw [Marks.isMarked_empty] at hcalls
      cases hv.1 with
      | root hfirst => exact hfirst
      | child _ _ hpin =>
          have hvisit : .visit v ∈ s.roots := by
            simpa [show RootCall.pin v ∉ s.roots from hpin] using hcalls
          exact firstVisit_of_not_pin hvisit hpin

theorem TracedOnce.traceNext {s : Scene} {m m' : Marks} {v : Handle}
    {traced : List Handle} (ht : TracedOnce s m traced) (hm : Marking s m)
    (hpop : m.pop = some (v, m')) :
    TracedOnce s (m'.visitAll (s.childrenOf v)) (traced ++ [v]) := by
  have hqueue := (Marks.pop_eq_some hpop).1
  have hmarked := (Marks.pop_eq_some hpop).2
  have hpopped := ht.consistent.pop hpop
  have hwait : v ∈ m.queue := by
    rw [hqueue]
    exact List.mem_cons_self ..
  have htraced : s.Traced v := hm.waiting v hwait
  constructor
  · exact hpopped.1.visitAll (s.childrenOf v)
  · have hnew : v ∉ traced := fun hv => ((ht.mem_iff v).mp hv).2.2 hwait
    rw [List.nodup_append', List.disjoint_singleton]
    exact ⟨ht.nodup, List.nodup_singleton v, hnew⟩
  · intro w
    have hold : w ∈ m.queue ↔ w = v ∨ w ∈ m'.queue := by
      rw [hqueue, List.mem_cons]
    rw [List.mem_append, List.mem_singleton, ht.mem_iff, hold,
      Marks.isMarked_visitAll, Marks.mem_queue_visitAll, hmarked]
    by_cases hw : w = v
    · subst hw
      have hself : m'.isMarked w = true := (hmarked w).mpr (Or.inl rfl)
      simp [htraced, hpopped.2, hself]
    · have hsame : m'.isMarked w = true ↔ m.isMarked w = true := by
        simp [hmarked, hw]
      rw [← Bool.not_eq_true, hsame]
      tauto

theorem TracedOnce.trace {s : Scene} (limit : Nat) {m : Marks}
    {traced : List Handle} (ht : TracedOnce s m traced) (hm : Marking s m)
    (before : List Handle) :
    ∃ traced', (Bench.trace s limit m (before ++ traced)).2.1 =
        before ++ traced' ∧
      TracedOnce s (Bench.trace s limit m (before ++ traced)).1 traced' := by
  induction limit generalizing m traced with
  | zero => exact ⟨traced, rfl, ht⟩
  | succ limit ih =>
      cases hpop : m.pop with
      | none =>
          simp only [Bench.trace, hpop]
          exact ⟨traced, rfl, ht⟩
      | some next =>
          have hnext := ht.traceNext hm hpop
          have hrest := ih hnext (hm.traceNext hpop)
          simp only [Bench.trace, hpop, List.append_assoc]
          exact hrest

namespace Bench

/-! ## The books of a cycle -/

/-- What a cycle on a scene has written down since it began on a bench: the
traced vertices, and once it is over, that it was one more cycle and its
statistics. -/
structure BooksOn (s : Scene) (start b : Bench) : Prop where
  traced : ∃ traced, b.traced = start.traced ++ traced ∧
    TracedOnce s b.collector.marks traced
  cycles : b.collector.cycles =
    start.collector.cycles + if b.collector.phase = .idle then 1 else 0
  stats : b.collector.phase = .idle → b.collector.lastStats =
    { marked := b.collector.marks.shades.size
      swept := b.collector.removed.length
      maxGray := b.collector.marks.highWater }

theorem booksOn_start (b : Bench) (hidle : b.collector.phase = .idle) :
    BooksOn b.scene b b.start := by
  have hstart : b.start =
      { b with
        collector :=
          { b.collector with
            marks := b.scene.roots.foldl scanRoot Marks.empty
            phase := .marking
            removed := [] } } := by
    simp [start, Collector.inProgress, hidle]
  rw [hstart]
  constructor
  · exact ⟨[], (List.append_nil _).symm, .scanRoots b.scene⟩
  · simp
  · simp

theorem BooksOn.markStep {s : Scene} {log : List Handle} {start b : Bench}
    (hb : BooksOn s start b) (hcycle : CycleOn s log b)
    (hphase : b.collector.phase = .marking) : BooksOn s start b.markStep := by
  have hscene : b.scene = s := by
    rw [hcycle.scene, hcycle.unswept hphase, Scene.release_nil]
  have hcycles := hb.cycles
  simp only [hphase, reduceCtorEq, if_false] at hcycles
  obtain ⟨traced, htraced, honce⟩ := hb.traced
  have htrace := honce.trace Collector.stepSize hcycle.marking start.traced
  rw [← hscene, ← htraced] at htrace
  rw [← hscene]
  unfold Bench.markStep
  simp only
  split
  next =>
    constructor
    · exact htrace
    · simpa using hcycles
    · simp
  next =>
    constructor
    · exact htrace
    · simpa [hphase] using hcycles
    · simp [hphase]

theorem BooksOn.sweepStep {s : Scene} {start b : Bench}
    (hb : BooksOn s start b) (hphase : b.collector.phase = .sweeping) :
    BooksOn s start b.sweepStep := by
  have hcycles := hb.cycles
  simp only [hphase, reduceCtorEq, if_false] at hcycles
  unfold Bench.sweepStep
  simp only
  split
  next =>
    constructor
    · exact hb.traced
    · simpa [finishSweep] using hcycles
    · simp [finishSweep]
  next =>
    constructor
    · exact hb.traced
    · simpa [hphase] using hcycles
    · simp [hphase]

theorem BooksOn.step {s : Scene} {log : List Handle} {start b : Bench}
    (hb : BooksOn s start b) (hcycle : CycleOn s log b) :
    BooksOn s start b.step.1 := by
  unfold Bench.step
  cases hphase : b.collector.phase with
  | idle => exact hb
  | rootScanning => exact absurd hphase hcycle.scanned
  | marking => exact hb.markStep hcycle hphase
  | sweeping => exact hb.sweepStep hphase

theorem BooksOn.finish {s : Scene} {log : List Handle} {start b : Bench}
    (hb : BooksOn s start b) (hcycle : CycleOn s log b) :
    BooksOn s start b.finish.1 := by
  induction b using Bench.finish.induct with
  | case1 b hmore ih =>
      rw [Bench.finish, dif_pos hmore]
      exact ih (hb.step hcycle) hcycle.step
  | case2 b hover =>
      rw [Bench.finish, dif_neg hover]
      exact hb.step hcycle

/-! ## The whole cycle -/

open scoped Classical in
/-- What a full collection of the scene on a bench leaves behind, and what it
answers. -/
structure ExactCycle (b after : Bench) (answer : List Handle) : Prop where
  /-- Each traced vertex of the scene is traced once, and no other vertex. -/
  traced : ∃ traced, after.traced = b.traced ++ traced ∧ traced.Nodup ∧
    ∀ v, v ∈ traced ↔ b.scene.Traced v
  black : ∀ v, b.scene.Kept v → after.collector.color v = .black
  white : ∀ v, ¬ b.scene.Kept v → after.collector.color v = .white
  answer_eq : answer = b.scene.live.filter fun v => ¬ b.scene.Kept v
  ascending : answer.Pairwise (· < ·)
  released : after.released = b.released ++ answer
  scene : after.scene = b.scene.release answer
  idle : after.collector.phase = .idle
  drained : after.collector.marks.queue = []
  cycles : after.collector.cycles = b.collector.cycles + 1
  marked : {v | b.scene.Kept v}.encard = after.collector.lastStats.marked
  swept : after.collector.lastStats.swept = answer.length

/-- Whatever an idle collector did before, a full collection is exact. -/
theorem full_cycle_exact (b : Bench) (hidle : b.collector.phase = .idle) :
    ExactCycle b b.collect.1 b.collect.2 := by
  classical
  have hcycle := (cycleOn_start b hidle).finish.1
  have hend := (cycleOn_start b hidle).finish.2
  have hbooks := (booksOn_start b hidle).finish (cycleOn_start b hidle)
  have hqueue := hcycle.drained (by simp [hend])
  have hmarked := hcycle.marking.isMarked_iff hqueue
  have hstats := hbooks.stats hend
  obtain ⟨traced, htraced, honce⟩ := hbooks.traced
  have hremoved : b.collect.2 =
      b.scene.live.filter fun v => ¬ b.scene.Kept v := by
    have hwhites : b.collect.2 =
        b.start.finish.1.collector.marks.whites b.scene.live :=
      hcycle.finished hend
    rw [hwhites, Marks.whites]
    apply List.filter_congr
    intro v _
    rw [Bool.eq_iff_iff, decide_eq_true_eq, ← hmarked v]
    simp
  constructor
  · refine ⟨traced, htraced, honce.nodup, fun v => ?_⟩
    rw [honce.mem_iff, hqueue, hmarked]
    simp only [List.not_mem_nil, not_false_eq_true, and_true]
    exact and_iff_left_of_imp Or.inl
  · intro v hv
    have hcolor := honce.consistent.color_eq hqueue v
    rwa [if_pos ((hmarked v).mpr hv)] at hcolor
  · intro v hv
    have hcolor := honce.consistent.color_eq hqueue v
    rwa [if_neg (fun h => hv ((hmarked v).mp h))] at hcolor
  · exact hremoved
  · rw [hremoved]
    exact Handle.Ascending.pairwise
  · exact hcycle.released
  · exact hcycle.scene
  · exact hend
  · exact hqueue
  · have hcycles := hbooks.cycles
    rwa [if_pos hend] at hcycles
  · have hkept : {v | b.scene.Kept v} =
        {v | b.start.finish.1.collector.marks.shades.contains v = true} := by
      ext v
      exact (hmarked v).symm
    have hsize : b.collect.1.collector.lastStats.marked =
        b.start.finish.1.collector.marks.shades.size := by
      change b.start.finish.1.collector.lastStats.marked = _
      rw [hstats]
    rw [hkept, Table.encard_contains, hsize]
  · change b.start.finish.1.collector.lastStats.swept = _
    rw [hstats]
    rfl

/-- A collector that swept one scene and then gets other roots: a cycle of
children, a vertex visited before it is pinned and one pinned before it is
visited. -/
def usedBench : Bench :=
  let scene : Scene :=
    { roots := [.visit ⟨1⟩]
      children := .ofList [(⟨1⟩, [⟨2⟩]), (⟨2⟩, [⟨1⟩, ⟨4⟩]), (⟨3⟩, [⟨5⟩])]
      live := [⟨1⟩, ⟨2⟩, ⟨3⟩, ⟨4⟩, ⟨5⟩]
      ascending := ⟨by decide⟩ }
  (new scene).run
    [.start, .step, .step,
      .setRoots [.visit ⟨2⟩, .pin ⟨2⟩, .pin ⟨3⟩, .visit ⟨3⟩], .addLive ⟨5⟩]

theorem full_cycle_exact_usedBench :
    usedBench.collector.phase = .idle ∧
      ExactCycle usedBench usedBench.collect.1 usedBench.collect.2 :=
  ⟨by decide, full_cycle_exact usedBench (by decide)⟩

end Bench

end LiveHeap
