import LiveHeap.Collection.Marks
import LiveHeap.Collection.Scene

/-!
# The mark and sweep collector

A cycle scans the roots, traces gray vertices until none is left, and then
releases every candidate that stayed white.  Marking and sweeping go in steps
of a hundred vertices, so that a host can do other work in between.  Between
cycles the collector keeps the marks and the released vertices of the last
one.

A collector works on a bench, together with the scene and a log of what was
traced and released.  `finish` ends because every step that leaves the cycle
running makes `Bench.rank` smaller.
-/

namespace LiveHeap

inductive Phase where
  | idle
  | rootScanning
  | marking
  | sweeping
  deriving DecidableEq, Inhabited

structure CycleStats where
  /-- How many vertices had a shade when the cycle ended. -/
  marked : Nat
  /-- How many released vertices the collector held when the cycle ended. -/
  swept : Nat
  /-- The length of the gray queue when it was longest. -/
  maxGray : Nat
  deriving DecidableEq, Inhabited

structure Collector where
  marks : Marks
  phase : Phase
  /-- The candidates of the sweep, and how many of them were looked at. -/
  candidates : List Handle
  cursor : Nat
  /-- Released vertices that nobody has taken yet. -/
  removed : List Handle
  lastStats : CycleStats
  cycles : Nat
  deriving Inhabited

namespace Collector

def new : Collector where
  marks := Marks.empty
  phase := .idle
  candidates := []
  cursor := 0
  removed := []
  lastStats := ⟨0, 0, 0⟩
  cycles := 0

/-- Vertices that one step traces, or looks at in a sweep, at most. -/
def stepSize : Nat := 100

def inProgress (c : Collector) : Bool := c.phase != .idle

def isMarked (c : Collector) (v : Handle) : Bool := c.marks.isMarked v

def color (c : Collector) (v : Handle) : Color := c.marks.color v

def pending (c : Collector) : Nat := c.marks.queue.length

end Collector

/-- A collector at work on a scene, with the vertices it traced and released
since the log was last cleared, in order. -/
structure Bench where
  collector : Collector
  scene : Scene
  traced : List Handle
  released : List Handle
  deriving Inhabited

namespace Bench

def new (scene : Scene) : Bench := ⟨Collector.new, scene, [], []⟩

def clearLog (b : Bench) : Bench := { b with traced := [], released := [] }

def scanRoot (m : Marks) : RootCall → Marks
  | .visit v => m.visit v
  | .pin v => m.pin v

def start (b : Bench) : Bench :=
  if b.collector.inProgress then b
  else
    { b with
      collector :=
        { b.collector with
          marks := b.scene.roots.foldl scanRoot Marks.empty
          phase := .marking
          removed := [] } }

/-- Traces up to a number of gray vertices.  The flag tells whether the queue
was found empty before the number was used up. -/
def trace (scene : Scene) : Nat → Marks → List Handle →
    Marks × List Handle × Bool
  | 0, m, traced => (m, traced, false)
  | limit + 1, m, traced =>
      match m.pop with
      | none => (m, traced, true)
      | some (v, m) =>
          trace scene limit (m.visitAll (scene.childrenOf v)) (traced ++ [v])

/-- One step of marking.  When no gray vertex is left, the vertices live at
this moment become the candidates of the sweep. -/
def markStep (b : Bench) : Bench :=
  let (marks, traced, drained) :=
    trace b.scene Collector.stepSize b.collector.marks b.traced
  let collector := { b.collector with marks }
  let collector :=
    if drained then
      { collector with
        phase := .sweeping, candidates := b.scene.live, cursor := 0 }
    else collector
  { b with collector, traced }

def finishSweep (c : Collector) : Collector :=
  { c with
    lastStats :=
      { marked := c.marks.shades.size
        swept := c.removed.length
        maxGray := c.marks.highWater }
    cycles := c.cycles + 1
    phase := .idle
    candidates := []
    cursor := 0 }

/-- One step of sweeping: of the next candidates the white ones are released.
The step that reaches the last candidate ends the cycle. -/
def sweepStep (b : Bench) : Bench :=
  let c := b.collector
  let stop := min (c.cursor + Collector.stepSize) c.candidates.length
  let window := (c.candidates.take stop).drop c.cursor
  let white := window.filter (fun v => !c.isMarked v)
  let c := { c with cursor := stop, removed := c.removed ++ white }
  { b with
    collector := if stop = c.candidates.length then finishSweep c else c
    scene := b.scene.release white
    released := b.released ++ white }

/-- Advances the cycle by one step.  The answer is whether it still runs. -/
def step (b : Bench) : Bench × Bool :=
  match b.collector.phase with
  | .idle => (b, false)
  | .rootScanning =>
      ({ b with collector := { b.collector with phase := .marking } }, true)
  | .marking => (b.markStep, true)
  | .sweeping =>
      let b := b.sweepStep
      (b, b.collector.inProgress)

/-- How far a cycle is from its end: the white and gray vertices left to
trace, and the candidates left to look at. -/
def rank (b : Bench) : Nat :=
  let work := b.collector.marks.unmarkedIn b.scene.allChildren +
    b.collector.marks.queue.length
  match b.collector.phase with
  | .rootScanning => work + b.scene.live.length + 3
  | .marking => work + b.scene.live.length + 2
  | .sweeping => b.collector.candidates.length - b.collector.cursor + 1
  | .idle => 0

theorem work_trace_le (scene : Scene) (limit : Nat) (m : Marks)
    (traced : List Handle) :
    (trace scene limit m traced).2.2 = true ∨
      (trace scene limit m traced).1.unmarkedIn scene.allChildren +
          (trace scene limit m traced).1.queue.length + limit ≤
        m.unmarkedIn scene.allChildren + m.queue.length := by
  induction limit generalizing m traced with
  | zero => exact Or.inr (Nat.le_refl _)
  | succ limit ih =>
      cases hq : m.queue with
      | nil =>
          refine Or.inl ?_
          simp [trace, Marks.pop, hq]
      | cons v waiting =>
          have hpop : m.pop =
              some (v, { m with
                shades := m.shades.insert v .black, queue := waiting }) := by
            simp [Marks.pop, hq]
          rw [trace, hpop]
          refine (ih _ (traced ++ [v])).imp id fun h => ?_
          have hv := Marks.work_visitAll_le
            { m with shades := m.shades.insert v .black, queue := waiting }
            (scene.childrenOf_subset v)
          have hm : Marks.unmarkedIn
              { m with shades := m.shades.insert v .black, queue := waiting }
              scene.allChildren ≤ m.unmarkedIn scene.allChildren := by
            refine List.countP_mono_left fun w _ => ?_
            rw [Marks.isMarked, Marks.isMarked_insert]
            simp
          simp only [List.length_cons] at *
          omega

theorem rank_step_lt (b : Bench) (h : b.step.2 = true) :
    b.step.1.rank < b.rank := by
  unfold step at h ⊢
  cases hp : b.collector.phase with
  | idle => simp [hp] at h
  | rootScanning =>
      simp only [rank, hp]
      omega
  | marking =>
      have hpos : 0 < Collector.stepSize := by decide
      have hw := work_trace_le b.scene Collector.stepSize b.collector.marks
        b.traced
      simp only [rank, markStep, hp]
      by_cases hd : (trace b.scene Collector.stepSize b.collector.marks
          b.traced).2.2 = true
      · rw [if_pos hd]
        simp only
        omega
      · rw [if_neg hd]
        simp only
        have hw := hw.resolve_left hd
        omega
  | sweeping =>
      have hpos : 0 < Collector.stepSize := by decide
      simp only [hp, sweepStep] at h ⊢
      split at h
      · simp [finishSweep, Collector.inProgress] at h
      · rename_i hne
        rw [if_neg hne]
        simp only [rank, hp]
        omega

/-- Steps until the cycle has ended.  The answer is the number of steps. -/
def finish (b : Bench) : Bench × Nat :=
  if h : b.step.2 = true then
    let r := finish b.step.1
    (r.1, r.2 + 1)
  else (b.step.1, 1)
termination_by b.rank
decreasing_by exact rank_step_lt b h

/-- Hands over the vertices released since the last hand-over. -/
def takeRemoved (b : Bench) : Bench × List Handle :=
  ({ b with collector := { b.collector with removed := [] } },
    b.collector.removed)

/-- Runs a whole cycle, or the rest of the one under way. -/
def collect (b : Bench) : Bench × List Handle :=
  b.start.finish.1.takeRemoved

end Bench

end LiveHeap
