import LiveHeap.Proofs.Collection.Marking

/-!
# A whole collection cycle

`Bench.CycleOn` is the invariant of a cycle on a scene that only the releases
of the cycle change: it covers marking, sweeping and the state that the last
step leaves.  Every step keeps it, so a whole cycle marks the kept vertices of
the scene and releases the live vertices that are not kept.
-/

namespace LiveHeap

/-- The vertices of a list that have no mark. -/
def Marks.whites (m : Marks) (vs : List Handle) : List Handle :=
  vs.filter fun v => !m.isMarked v

theorem Marks.mem_whites {m : Marks} {vs : List Handle} {v : Handle} :
    v ∈ m.whites vs ↔ v ∈ vs ∧ ¬ m.isMarked v = true := by
  simp [whites]

/-- Whites of a longer stretch are those of the stretch and of the window
behind it. -/
theorem Marks.whites_take_append (m : Marks) (vs : List Handle) {i j : Nat}
    (hij : i ≤ j) :
    m.whites (vs.take i) ++ m.whites ((vs.take j).drop i) =
      m.whites (vs.take j) := by
  have htake : vs.take i = (vs.take j).take i := by
    rw [List.take_take, Nat.min_eq_left hij]
  rw [htake]
  unfold whites
  rw [← List.filter_append, List.take_append_drop]

theorem Scene.release_nil (s : Scene) : s.release [] = s := by
  simp [Scene.release]

theorem Scene.release_release (s : Scene) (vs ws : List Handle) :
    (s.release vs).release ws = s.release (vs ++ ws) := by
  simp only [Scene.release, List.filter_filter, Scene.mk.injEq, true_and]
  refine List.filter_congr fun v _ => ?_
  simp [Bool.and_comm]

namespace Bench

/-- What holds throughout a cycle that began on a scene with some vertices
already logged as released. -/
structure CycleOn (s : Scene) (log : List Handle) (b : Bench) : Prop where
  marking : Marking s b.collector.marks
  scene : b.scene = s.release b.collector.removed
  released : b.released = log ++ b.collector.removed
  scanned : b.collector.phase ≠ .rootScanning
  unswept : b.collector.phase = .marking → b.collector.removed = []
  drained : b.collector.phase ≠ .marking → b.collector.marks.queue = []
  candidates : b.collector.phase = .sweeping → b.collector.candidates = s.live
  cursor : b.collector.phase = .sweeping → b.collector.cursor ≤ s.live.length
  swept : b.collector.phase = .sweeping →
    b.collector.removed =
      b.collector.marks.whites (s.live.take b.collector.cursor)
  finished : b.collector.phase = .idle →
    b.collector.removed = b.collector.marks.whites s.live

theorem cycleOn_start (b : Bench) (hidle : b.collector.phase = .idle) :
    CycleOn b.scene b.released b.start := by
  have hstart : b.start =
      { b with
        collector :=
          { b.collector with
            marks := b.scene.roots.foldl scanRoot Marks.empty
            phase := .marking
            removed := [] } } := by
    simp [start, Collector.inProgress, hidle]
  rw [hstart]
  constructor <;>
    simp [Marking.scanRoots, Scene.release_nil]

theorem CycleOn.markStep {s : Scene} {log : List Handle} {b : Bench}
    (hb : CycleOn s log b) (hphase : b.collector.phase = .marking) :
    CycleOn s log b.markStep := by
  have hremoved := hb.unswept hphase
  obtain rfl : b.scene = s := by
    rw [hb.scene, hremoved, Scene.release_nil]
  have hmarking :=
    hb.marking.trace rfl Collector.stepSize b.traced
  have hreleased : b.released = log := by
    simpa [hremoved] using hb.released
  unfold Bench.markStep
  simp only
  split
  next hdrained =>
    have hqueue := queue_of_drained b.scene Collector.stepSize
      b.collector.marks b.traced hdrained
    constructor <;>
      simp [hmarking, hremoved, hreleased, Scene.release_nil, hqueue,
        Marks.whites]
  next =>
    constructor <;>
      simp [hmarking, hremoved, hreleased, Scene.release_nil, hphase]

theorem CycleOn.sweepStep {s : Scene} {log : List Handle} {b : Bench}
    (hb : CycleOn s log b) (hphase : b.collector.phase = .sweeping) :
    CycleOn s log b.sweepStep := by
  have hcandidates := hb.candidates hphase
  have hqueue := hb.drained (by simp [hphase])
  have hcursor := hb.cursor hphase
  obtain ⟨stop, hstop⟩ : ∃ stop, stop =
      min (b.collector.cursor + Collector.stepSize) s.live.length := ⟨_, rfl⟩
  have hle : b.collector.cursor ≤ stop := by omega
  have hbound : stop ≤ s.live.length := by omega
  obtain ⟨white, hwhite⟩ : ∃ white, white =
      b.collector.marks.whites
        ((s.live.take stop).drop b.collector.cursor) := ⟨_, rfl⟩
  have hremoved : b.collector.removed ++ white =
      b.collector.marks.whites (s.live.take stop) := by
    rw [hb.swept hphase, hwhite, Marks.whites_take_append _ _ hle]
  have hscene : b.scene.release white =
      s.release (b.collector.removed ++ white) := by
    rw [hb.scene, Scene.release_release]
  have hreleased : b.released ++ white =
      log ++ (b.collector.removed ++ white) := by
    rw [hb.released, List.append_assoc]
  have hfilter : List.filter (fun v => !b.collector.isMarked v)
      ((s.live.take stop).drop b.collector.cursor) = white := hwhite.symm
  unfold Bench.sweepStep
  simp only [hcandidates, ← hstop, hfilter]
  split
  next hend =>
    have hall : b.collector.removed ++ white =
        b.collector.marks.whites s.live := by
      rw [hremoved, hend, List.take_length]
    constructor <;>
      simp [finishSweep, hb.marking, hqueue, hscene, hreleased, hall]
  next =>
    constructor <;>
      simp [hb.marking, hqueue, hscene, hreleased, hphase, hremoved, hbound]

theorem CycleOn.step {s : Scene} {log : List Handle} {b : Bench}
    (hb : CycleOn s log b) : CycleOn s log b.step.1 := by
  unfold Bench.step
  cases hphase : b.collector.phase with
  | idle => exact hb
  | rootScanning => exact absurd hphase hb.scanned
  | marking => exact hb.markStep hphase
  | sweeping => exact hb.sweepStep hphase

/-- A step that says that the cycle is over leaves the collector idle. -/
theorem idle_of_step {b : Bench} (hover : ¬ b.step.2 = true) :
    b.step.1.collector.phase = .idle := by
  unfold Bench.step at hover ⊢
  cases hphase : b.collector.phase with
  | idle => simpa using hphase
  | rootScanning => simp [hphase] at hover
  | marking => simp [hphase] at hover
  | sweeping =>
      simp only [hphase, Collector.inProgress, bne_iff_ne, ne_eq,
        not_not] at hover
      exact hover

theorem CycleOn.finish {s : Scene} {log : List Handle} {b : Bench}
    (hb : CycleOn s log b) :
    CycleOn s log b.finish.1 ∧ b.finish.1.collector.phase = .idle := by
  induction b using Bench.finish.induct with
  | case1 b hmore ih =>
      rw [Bench.finish, dif_pos hmore]
      exact ih hb.step
  | case2 b hover =>
      rw [Bench.finish, dif_neg hover]
      exact ⟨hb.step, idle_of_step hover⟩

/-- What a whole cycle of an idle collector does: it ends idle, the marks are
those of the kept vertices, and the live vertices without a mark are handed
over in their order and released. -/
theorem collect_of_idle (b : Bench) (hidle : b.collector.phase = .idle) :
    b.collect.1.collector.phase = .idle ∧
      (∀ v, b.collect.1.collector.isMarked v = true ↔ b.scene.Kept v) ∧
      b.collect.2 = b.collect.1.collector.marks.whites b.scene.live ∧
      b.collect.1.released = b.released ++ b.collect.2 := by
  obtain ⟨hcycle, hend⟩ := (cycleOn_start b hidle).finish
  refine ⟨hend, ?_, hcycle.finished hend, hcycle.released⟩
  exact hcycle.marking.isMarked_iff (hcycle.drained (by simp [hend]))

/-! ## Between cycles -/

/-- A collector that is not in a cycle has nothing left to sweep. -/
def Cleared (b : Bench) : Prop :=
  b.collector.phase = .idle →
    b.collector.candidates = [] ∧ b.collector.cursor = 0

theorem Cleared.step {b : Bench} (hb : b.Cleared) : b.step.1.Cleared := by
  unfold Bench.step
  cases hphase : b.collector.phase with
  | idle => exact hb
  | rootScanning => exact fun hidle => nomatch hidle
  | marking =>
      intro hidle
      unfold markStep at hidle
      simp only at hidle
      split at hidle
      · contradiction
      · rw [hphase] at hidle
        contradiction
  | sweeping =>
      intro hidle
      simp only [sweepStep] at hidle ⊢
      split
      next => exact ⟨rfl, rfl⟩
      next hmore =>
        rw [if_neg hmore, hphase] at hidle
        contradiction

theorem Cleared.finish {b : Bench} (hb : b.Cleared) : b.finish.1.Cleared := by
  induction b using Bench.finish.induct with
  | case1 b hmore ih =>
      rw [Bench.finish, dif_pos hmore]
      exact ih hb.step
  | case2 b hover =>
      rw [Bench.finish, dif_neg hover]
      exact hb.step

end Bench

/-- A new collector but for the shades that the last cycle left, the length of
its longest queue, and the books of all cycles. -/
def Collector.AtRest (c : Collector) : Prop :=
  c = { Collector.new with
    marks := { c.marks with queue := [] }
    lastStats := c.lastStats
    cycles := c.cycles }

/-- Collectors at rest that keep the same books start the same cycle: the marks
of the last one have no part in it. -/
theorem Collector.AtRest.start_eq {c c' : Collector} (h : c.AtRest)
    (h' : c'.AtRest) (b : Bench) :
    Bench.start
        { b with
          collector :=
            { c' with lastStats := c.lastStats, cycles := c.cycles } } =
      Bench.start { b with collector := c } := by
  rw [h, h']
  rfl

theorem Bench.atRest_collect (b : Bench) (hidle : b.collector.phase = .idle) :
    b.collect.1.collector.AtRest := by
  have hstart : b.start.collector.phase = .marking := by
    simp [start, Collector.inProgress, hidle]
  have hcleared : b.start.Cleared := by
    intro hphase
    rw [hstart] at hphase
    contradiction
  obtain ⟨hcycle, hend⟩ := (cycleOn_start b hidle).finish
  have hqueue := hcycle.drained (by simp [hend])
  obtain ⟨hcandidates, hcursor⟩ := hcleared.finish hend
  have hmarks : b.start.finish.1.collector.marks =
      { b.start.finish.1.collector.marks with queue := [] } := by
    rw [← hqueue]
  unfold Collector.AtRest collect takeRemoved
  simp only
  rw [hend, hcandidates, hcursor, ← hmarks]
  rfl

end LiveHeap
