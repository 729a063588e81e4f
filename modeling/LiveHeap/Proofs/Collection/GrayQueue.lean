import LiveHeap.Proofs.Collection.Counting
import LiveHeap.Proofs.Collection.FullCycle
import Mathlib.Order.Bounds.Basic

/-!
# The gray queue and the colours

Whatever a host calls and however it changes the scene in between, the gray
vertices are those that wait, and nothing waits but while a cycle marks.  A
sweep has looked at each candidate before its cursor, and one of them that has
no colour was released in this cycle.

The statistics of a cycle tell the length of the queue when it was longest.  The
queue changes with each visit and whenever a vertex is taken off, so `moments`
lists the marks after each single touch of them.
-/

namespace LiveHeap

namespace Marks

theorem color_eq_gray_iff (m : Marks) (v : Handle) :
    m.color v = .gray ↔ m.shades.get? v = some .gray := by
  unfold color
  rcases m.shades.get? v with _ | _ | _ <;> simp

theorem color_ne_white_iff (m : Marks) (v : Handle) :
    m.color v ≠ .white ↔ m.isMarked v = true := by
  unfold color isMarked Table.contains
  rcases m.shades.get? v with _ | _ | _ <;> simp

/-! ## Touch by touch -/

/-- The marks come from the first to the second by visiting, pinning and taking
off the queue one vertex at a time.  The list has the marks after each touch. -/
inductive Passes : Marks → List Marks → Marks → Prop
  | none (m : Marks) : Passes m [] m
  | visit {m after : Marks} {v : Handle} {moments : List Marks} :
      Passes (m.visit v) moments after →
      Passes m (m.visit v :: moments) after
  | pin {m after : Marks} {v : Handle} {moments : List Marks} :
      Passes (m.pin v) moments after → Passes m (m.pin v :: moments) after
  | pop {m m' after : Marks} {v : Handle} {moments : List Marks} :
      m.pop = some (v, m') → Passes m' moments after →
      Passes m (m' :: moments) after

theorem Passes.trans {m m' m'' : Marks} {moments moments' : List Marks}
    (h : m.Passes moments m') (h' : m'.Passes moments' m'') :
    m.Passes (moments ++ moments') m'' := by
  induction h with
  | none => exact h'
  | visit _ ih => exact .visit (ih h')
  | pin _ ih => exact .pin (ih h')
  | pop hpop _ ih => exact .pop hpop (ih h')

/-- The marks are one of some moments, and know how long the queue was when it
was longest. -/
structure Crest (moments : List Marks) (m : Marks) : Prop where
  mem : m ∈ moments
  highest : IsGreatest {n | ∃ k ∈ moments, k.queue.length = n} m.highWater

theorem crest_empty : Crest [empty] empty where
  mem := List.mem_singleton_self empty
  highest := by
    constructor
    · exact ⟨empty, List.mem_singleton_self empty, rfl⟩
    · rintro n ⟨k, hk, rfl⟩
      rw [List.mem_singleton.mp hk]
      exact Nat.le_refl 0

namespace Crest

variable {moments : List Marks} {m m' : Marks}

theorem length_le (h : Crest moments m) : m.queue.length ≤ m.highWater :=
  h.highest.2 ⟨m, h.mem, rfl⟩

theorem touch (h : Crest moments m)
    (hwater : m'.highWater = max m.highWater m'.queue.length) :
    Crest (moments ++ [m']) m' where
  mem := List.mem_append_right _ (List.mem_singleton_self m')
  highest := by
    have hsplit : {n | ∃ k ∈ moments ++ [m'], k.queue.length = n} =
        insert m'.queue.length {n | ∃ k ∈ moments, k.queue.length = n} := by
      ext n
      simp [or_and_right, exists_or, or_comm, eq_comm]
    rw [hsplit, hwater, max_comm]
    exact h.highest.insert _

/-- A touch that makes the queue no longer leaves the mark of high water. -/
theorem touch_of_le (h : Crest moments m)
    (hlength : m'.queue.length ≤ m.queue.length)
    (hsame : m'.highWater = m.highWater) : Crest (moments ++ [m']) m' := by
  apply h.touch
  rw [hsame, max_eq_left]
  exact hlength.trans h.length_le

theorem visit (h : Crest moments m) (v : Handle) :
    Crest (moments ++ [m.visit v]) (m.visit v) := by
  unfold Marks.visit
  split
  next => exact h.touch_of_le (Nat.le_refl _) rfl
  next =>
    apply h.touch
    rw [List.length_append, List.length_singleton]

theorem pin (h : Crest moments m) (v : Handle) :
    Crest (moments ++ [m.pin v]) (m.pin v) := by
  unfold Marks.pin
  split
  next => exact h.touch_of_le (Nat.le_refl _) rfl
  next => exact h.touch_of_le (Nat.le_refl _) rfl

theorem pop (h : Crest moments m) {v : Handle} (hpop : m.pop = some (v, m')) :
    Crest (moments ++ [m']) m' := by
  unfold Marks.pop at hpop
  cases hqueue : m.queue with
  | nil => simp [hqueue] at hpop
  | cons w waiting =>
      simp only [hqueue, Option.some.injEq, Prod.mk.injEq] at hpop
      obtain ⟨-, rfl⟩ := hpop
      refine h.touch_of_le ?_ rfl
      rw [hqueue]
      exact Nat.le_succ _

theorem passes {later : List Marks} (h : Crest moments m)
    (hpasses : m.Passes later m') : Crest (moments ++ later) m' := by
  induction hpasses generalizing moments with
  | none => rwa [List.append_nil]
  | visit _ ih =>
      rw [List.append_cons]
      exact ih (h.visit _)
  | pin _ ih =>
      rw [List.append_cons]
      exact ih (h.pin _)
  | pop hpop _ ih =>
      rw [List.append_cons]
      exact ih (h.pop hpop)

end Crest

/-- The marks after each of some visits. -/
def visitMoments (m : Marks) : List Handle → List Marks
  | [] => []
  | v :: vs => m.visit v :: visitMoments (m.visit v) vs

theorem passes_visitAll (m : Marks) (vs : List Handle) :
    m.Passes (m.visitMoments vs) (m.visitAll vs) := by
  induction vs generalizing m with
  | nil => exact .none m
  | cons v vs ih => exact .visit (ih (m.visit v))

/-- The marks after each call of a root script. -/
def scanMoments (m : Marks) : List RootCall → List Marks
  | [] => []
  | call :: calls =>
      Bench.scanRoot m call :: scanMoments (Bench.scanRoot m call) calls

theorem passes_scanRoots (m : Marks) (calls : List RootCall) :
    m.Passes (m.scanMoments calls) (calls.foldl Bench.scanRoot m) := by
  induction calls generalizing m with
  | nil => exact .none m
  | cons call calls ih =>
      cases call with
      | visit v => exact .visit (ih (m.visit v))
      | pin v => exact .pin (ih (m.pin v))

end Marks

namespace Bench

/-! ## The moments of a history -/

/-- The marks after each touch of tracing up to a number of gray vertices. -/
def traceMoments (scene : Scene) : Nat → Marks → List Marks
  | 0, _ => []
  | limit + 1, m =>
      match m.pop with
      | none => []
      | some (v, m) =>
          m :: m.visitMoments (scene.childrenOf v) ++
            traceMoments scene limit (m.visitAll (scene.childrenOf v))

/-- A start drops the old marks before it scans the roots. -/
def startMoments (b : Bench) : List Marks :=
  if b.collector.inProgress then []
  else Marks.empty :: Marks.empty.scanMoments b.scene.roots

def stepMoments (b : Bench) : List Marks :=
  if b.collector.phase = .marking then
    traceMoments b.scene Collector.stepSize b.collector.marks
  else []

def finishMoments (b : Bench) : List Marks :=
  if _h : b.step.2 = true then b.stepMoments ++ finishMoments b.step.1
  else b.stepMoments
termination_by b.rank
decreasing_by exact rank_step_lt b _h

/-- The marks after each touch of them in a move. -/
def momentsOf (b : Bench) : Move → List Marks
  | .call .start => b.startMoments
  | .call .step => b.stepMoments
  | .call .finish => b.finishMoments
  | .call .collect => b.startMoments ++ b.start.finishMoments
  | _ => []

def moments (b : Bench) : List Move → List Marks
  | [] => []
  | m :: moves => b.momentsOf m ++ (b.move m).moments moves

theorem moments_concat (b : Bench) (moves : List Move) (m : Move) :
    b.moments (moves ++ [m]) =
      b.moments moves ++ (b.moveAll moves).momentsOf m := by
  induction moves generalizing b with
  | nil => simp [moments, moveAll]
  | cons first moves ih =>
      have hrest := ih (b.move first)
      rw [List.cons_append, moments, hrest, moments, List.append_assoc]
      rfl

theorem passes_trace (scene : Scene) (limit : Nat) (m : Marks)
    (traced : List Handle) :
    m.Passes (traceMoments scene limit m) (trace scene limit m traced).1 := by
  induction limit generalizing m traced with
  | zero => exact .none m
  | succ limit ih =>
      cases hpop : m.pop with
      | none =>
          simp only [traceMoments, trace, hpop]
          exact .none m
      | some next =>
          simp only [traceMoments, trace, hpop]
          have hrest := ih (next.2.visitAll (scene.childrenOf next.1))
            (traced ++ [next.1])
          have hvisits := next.2.passes_visitAll (scene.childrenOf next.1)
          exact .pop hpop (hvisits.trans hrest)

theorem marks_markStep (b : Bench) :
    b.markStep.collector.marks =
      (trace b.scene Collector.stepSize b.collector.marks b.traced).1 := by
  unfold markStep
  simp only
  split <;> rfl

theorem marks_sweepStep (b : Bench) :
    b.sweepStep.collector.marks = b.collector.marks := by
  unfold sweepStep
  simp only
  split <;> rfl

theorem passes_step (b : Bench) :
    b.collector.marks.Passes b.stepMoments b.step.1.collector.marks := by
  unfold step stepMoments
  cases b.collector.phase with
  | idle => exact .none _
  | rootScanning => exact .none _
  | marking =>
      rw [if_pos rfl]
      simp only [marks_markStep]
      exact passes_trace _ _ _ _
  | sweeping =>
      simp only [marks_sweepStep]
      exact .none _

/-! ## Every state of a collector -/

end Bench

/-- What holds of a collector between any two operations. -/
structure Collector.Coherent (c : Collector) : Prop where
  consistent : c.marks.Consistent
  drained : c.phase ≠ .marking → c.marks.queue = []
  scanned : c.phase ≠ .rootScanning
  cursor : c.phase = .sweeping → c.cursor ≤ c.candidates.length
  recorded : c.phase = .idle → c.lastStats.maxGray = c.marks.highWater

theorem Collector.coherent_new : Collector.new.Coherent where
  consistent := Marks.consistent_empty
  drained _ := rfl
  scanned := nofun
  cursor := nofun
  recorded _ := rfl

theorem Marks.Consistent.trace {m : Marks} (hm : m.Consistent) (scene : Scene)
    (limit : Nat) (traced : List Handle) :
    (Bench.trace scene limit m traced).1.Consistent := by
  induction limit generalizing m traced with
  | zero => exact hm
  | succ limit ih =>
      cases hpop : m.pop with
      | none => simpa only [Bench.trace, hpop] using hm
      | some next =>
          simp only [Bench.trace, hpop]
          exact ih ((hm.pop hpop).1.visitAll _) (traced ++ [next.1])

namespace Collector.Coherent

open Bench

variable {b : Bench} (h : b.collector.Coherent)

include h

theorem start : b.start.collector.Coherent := by
  unfold Bench.start
  split
  next => exact h
  next =>
    exact ⟨Marks.consistent_empty.scanRoots b.scene.roots, nofun, nofun, nofun,
      nofun⟩

theorem markStep (hphase : b.collector.phase = .marking) :
    b.markStep.collector.Coherent := by
  have hconsistent := h.consistent.trace b.scene Collector.stepSize b.traced
  have hqueue := queue_of_drained b.scene Collector.stepSize b.collector.marks
    b.traced
  unfold Bench.markStep
  simp only
  split
  next hend =>
    exact ⟨hconsistent, fun _ => hqueue hend, nofun, fun _ => Nat.zero_le _,
      nofun⟩
  next =>
    refine ⟨hconsistent, fun hnot => absurd hphase hnot, h.scanned, ?_, ?_⟩
    all_goals
      intro hother
      rw [hphase] at hother
      contradiction

theorem sweepStep (hphase : b.collector.phase = .sweeping) :
    b.sweepStep.collector.Coherent := by
  have hqueue := h.drained (by simp [hphase])
  unfold Bench.sweepStep
  simp only
  split
  next => exact ⟨h.consistent, fun _ => hqueue, nofun, nofun, fun _ => rfl⟩
  next =>
    refine ⟨h.consistent, fun _ => hqueue, h.scanned,
      fun _ => Nat.min_le_right _ _, fun hidle => ?_⟩
    rw [hphase] at hidle
    contradiction

theorem step : b.step.1.collector.Coherent := by
  unfold Bench.step
  cases hphase : b.collector.phase with
  | idle => exact h
  | rootScanning => exact absurd hphase h.scanned
  | marking => exact h.markStep hphase
  | sweeping => exact h.sweepStep hphase

theorem finish : b.finish.1.collector.Coherent := by
  induction b using Bench.finish.induct with
  | case1 b hmore ih =>
      rw [Bench.finish, dif_pos hmore]
      exact ih h.step
  | case2 b hover =>
      rw [Bench.finish, dif_neg hover]
      exact h.step

theorem takeRemoved : b.takeRemoved.1.collector.Coherent :=
  ⟨h.consistent, h.drained, h.scanned, h.cursor, h.recorded⟩

theorem move (m : Move) : (b.move m).collector.Coherent := by
  rcases b.move_cases m with
    ⟨_, hm | hm | hm | ⟨scene, hm⟩⟩ | ⟨_, hm⟩ | hm <;> rw [hm]
  · exact h.start
  · exact h.step
  · exact h.finish
  · exact h
  · exact h.takeRemoved
  · exact h.start.finish.takeRemoved

theorem moveAll (moves : List Move) : (b.moveAll moves).collector.Coherent := by
  induction moves generalizing b with
  | nil => exact h
  | cons m moves ih => exact ih (h.move m)

end Collector.Coherent

namespace Bench

/-! ## One cycle -/

/-- What holds of a cycle under way, with the vertices that were released before
it began and the moments of it so far. -/
structure Underway (log : List Handle) (moments : List Marks) (b : Bench) :
    Prop where
  passes : ∃ later, moments = Marks.empty :: later ∧
    Marks.empty.Passes later b.collector.marks
  swept : ∃ released, b.released = log ++ released ∧
    (b.collector.phase = .sweeping →
      ∀ v ∈ b.collector.candidates.take b.collector.cursor,
        b.collector.isMarked v = true ∨ v ∈ released)

theorem underway_start {b : Bench} (hidle : b.collector.phase = .idle) :
    Underway b.released b.startMoments b.start := by
  have hnot : ¬ b.collector.inProgress = true := by simp [inProgress_iff, hidle]
  rw [start, startMoments, if_neg hnot, if_neg hnot]
  constructor
  · exact ⟨_, rfl, Marks.empty.passes_scanRoots b.scene.roots⟩
  · refine ⟨[], (List.append_nil _).symm, ?_⟩
    intro hsweeping
    contradiction

namespace Underway

variable {log : List Handle} {moments : List Marks} {b : Bench}

theorem sweepStep_swept (h : Underway log moments b)
    (hphase : b.collector.phase = .sweeping) :
    ∃ released, b.sweepStep.released = log ++ released ∧
      (b.sweepStep.collector.phase = .sweeping →
        ∀ v ∈ b.sweepStep.collector.candidates.take
            b.sweepStep.collector.cursor,
          b.sweepStep.collector.isMarked v = true ∨ v ∈ released) := by
  obtain ⟨released, hreleased, hswept⟩ := h.swept
  unfold sweepStep
  simp only [hreleased, List.append_assoc]
  refine ⟨_, rfl, ?_⟩
  split
  next => exact nofun
  next =>
    intro _ v hv
    -- The candidate was looked at before, or it is one of the window.
    rw [← List.take_append_drop b.collector.cursor (List.take _ _),
      List.mem_append, List.take_take, Nat.min_comm, ← List.take_take] at hv
    rcases hv with hold | hwindow
    · exact (hswept hphase v (List.mem_of_mem_take hold)).imp id
        (List.mem_append_left _)
    · by_cases hmarked : b.collector.isMarked v = true
      · exact Or.inl hmarked
      · right
        apply List.mem_append_right
        rw [List.mem_filter]
        exact ⟨hwindow, by simp [hmarked]⟩

theorem step (h : Underway log moments b) :
    Underway log (moments ++ b.stepMoments) b.step.1 where
  passes := by
    obtain ⟨later, hmoments, hpasses⟩ := h.passes
    refine ⟨later ++ b.stepMoments, ?_, hpasses.trans b.passes_step⟩
    rw [hmoments, List.cons_append]
  swept := by
    unfold Bench.step
    cases hphase : b.collector.phase with
    | idle => exact h.swept
    | rootScanning =>
        obtain ⟨released, hreleased, _⟩ := h.swept
        exact ⟨released, hreleased, nofun⟩
    | marking =>
        obtain ⟨released, hreleased, _⟩ := h.swept
        refine ⟨released, hreleased, ?_⟩
        unfold markStep
        simp only
        split
        next => simp
        next =>
          intro hsweeping
          rw [hphase] at hsweeping
          contradiction
    | sweeping => exact h.sweepStep_swept hphase

theorem finish (h : Underway log moments b) :
    Underway log (moments ++ b.finishMoments) b.finish.1 := by
  induction b using Bench.finish.induct generalizing moments with
  | case1 b hmore ih =>
      rw [Bench.finish, dif_pos hmore, finishMoments, dif_pos hmore,
        ← List.append_assoc]
      exact ih h.step
  | case2 b hover =>
      rw [Bench.finish, dif_neg hover, finishMoments, dif_neg hover]
      exact h.step

theorem move (h : Underway log moments b)
    (hrunning : b.collector.inProgress = true) (m : Move) :
    Underway log (moments ++ b.momentsOf m) (b.move m) := by
  have hquiet : Underway log (moments ++ []) b := by rwa [List.append_nil]
  have hnone : b.startMoments = [] := if_pos hrunning
  have hsame := start_of_inProgress hrunning
  cases m with
  | change scene => exact ⟨hquiet.passes, hquiet.swept⟩
  | call op =>
      cases op with
      | start =>
          change Underway log (moments ++ b.startMoments) b.start
          rwa [hnone, hsame]
      | step => exact h.step
      | finish => exact h.finish
      | collect =>
          have hend : Underway log
              (moments ++ (b.startMoments ++ b.start.finishMoments))
              b.start.finish.1 := by
            rw [hnone, hsame]
            exact h.finish
          exact ⟨hend.passes, hend.swept⟩
      | takeRemoved => exact ⟨hquiet.passes, hquiet.swept⟩
      | addLive v => exact ⟨hquiet.passes, hquiet.swept⟩
      | setChildren v children => exact ⟨hquiet.passes, hquiet.swept⟩
      | setRoots roots => exact ⟨hquiet.passes, hquiet.swept⟩

end Underway

theorem eq_start_of_idle {b : Bench} (hidle : b.collector.phase = .idle)
    {m : Move} (hrunning : (b.move m).collector.inProgress = true) :
    m = .call .start := by
  rw [inProgress_iff] at hrunning
  cases m with
  | change scene => exact absurd hidle hrunning
  | call op =>
      cases op with
      | start => rfl
      | step =>
          refine absurd ?_ hrunning
          change b.step.1.collector.phase = .idle
          rwa [step_of_idle hidle]
      | finish => exact absurd b.phase_finish hrunning
      | collect => exact absurd b.start.phase_finish hrunning
      | takeRemoved => exact absurd hidle hrunning
      | addLive v => exact absurd hidle hrunning
      | setChildren v children => exact absurd hidle hrunning
      | setRoots roots => exact absurd hidle hrunning

/-- A cycle that is about to start counts as started. -/
theorem underway_moveAll {b : Bench} (hidle : b.collector.phase = .idle)
    {during : List Move} (hruns : b.RunsThrough during) :
    Underway b.released
      (b.moments during ++ (b.moveAll during).startMoments)
      (b.moveAll during).start := by
  induction during using List.reverseRecOn with
  | nil => exact underway_start hidle
  | append_singleton during m ih =>
      have hbefore : b.RunsThrough during := fun part hpart =>
        hruns part (hpart.trans (List.prefix_append during [m]))
      have hunderway := ih hbefore
      have hstill := hruns (during ++ [m]) (List.prefix_refl _) (by simp)
      have hnone : (b.moveAll (during ++ [m])).startMoments = [] :=
        if_pos hstill
      rw [hnone, List.append_nil, start_of_inProgress hstill, moments_concat]
      rw [moveAll_concat] at hstill ⊢
      by_cases hfirst : (b.moveAll during).collector.phase = .idle
      · rw [eq_start_of_idle hfirst hstill]
        exact hunderway
      · have hrunning := inProgress_iff.mpr hfirst
        have hold : (b.moveAll during).startMoments = [] := if_pos hrunning
        rw [start_of_inProgress hrunning, hold, List.append_nil] at hunderway
        exact hunderway.move hrunning m

/-- A move that completes a cycle leaves the collector idle, and it is a whole
collection if the collector was idle before. -/
theorem completes_cases {b : Bench} {last : Move}
    (hcompleted : (b.move last).collector.cycles = b.collector.cycles + 1) :
    (b.move last).collector.phase = .idle ∧
      (b.collector.inProgress = true ∨ last = .call .collect) := by
  have hchanged : (b.move last).collector.cycles ≠ b.collector.cycles := by
    rw [hcompleted]
    exact Nat.succ_ne_self _
  have hrunning (hidle : b.collector.phase = .idle → b.move last = b) :
      b.collector.inProgress = true := by
    rw [inProgress_iff]
    exact fun hphase => hchanged (by rw [hidle hphase])
  cases last with
  | change scene => exact absurd rfl hchanged
  | call op =>
      cases op with
      | start => exact absurd b.cycles_start hchanged
      | step =>
          refine ⟨phase_step_of_cycles hchanged, Or.inl (hrunning ?_)⟩
          exact fun hidle => congrArg Prod.fst (step_of_idle hidle)
      | finish =>
          refine ⟨b.phase_finish, Or.inl (hrunning ?_)⟩
          exact fun hidle => congrArg Prod.fst (finish_of_idle hidle)
      | collect => exact ⟨b.start.phase_finish, Or.inr rfl⟩
      | takeRemoved => exact absurd rfl hchanged
      | addLive v => exact absurd rfl hchanged
      | setChildren v children => exact absurd rfl hchanged
      | setRoots roots => exact absurd rfl hchanged

theorem Underway.completed {log : List Handle} {moments : List Marks}
    {b : Bench} (h : Underway log (moments ++ b.startMoments) b.start)
    {last : Move}
    (hcompleted : (b.move last).collector.cycles = b.collector.cycles + 1) :
    Underway log (moments ++ b.momentsOf last) (b.move last) := by
  rcases (completes_cases hcompleted).2 with hrunning | rfl
  · have hnone : b.startMoments = [] := if_pos hrunning
    rw [hnone, List.append_nil, start_of_inProgress hrunning] at h
    exact h.move hrunning last
  · have hend := h.finish
    rw [List.append_assoc] at hend
    exact ⟨hend.passes, hend.swept⟩

/-! ## Every history -/

/-- The statistics of a completed cycle against its moments, which lead touch by
touch from no marks to the marks that it leaves. -/
structure KnowsMaximum (began : Bench) (moves : List Move) (ended : Bench) :
    Prop where
  passes : ∃ later, began.moments moves = Marks.empty :: later ∧
    Marks.empty.Passes later ended.collector.marks
  maxGray : IsGreatest
    {n | ∃ m ∈ began.moments moves, m.queue.length = n}
    ended.collector.lastStats.maxGray

/-- The gray queue, the colours, the cursor of the sweep and the statistics
after some moves. -/
structure QueueAgrees (b : Bench) (moves : List Move) : Prop where
  nodup : (b.moveAll moves).collector.marks.queue.Nodup
  mem_queue_iff : ∀ v, v ∈ (b.moveAll moves).collector.marks.queue ↔
    (b.moveAll moves).collector.color v = .gray
  drained : (b.moveAll moves).collector.phase = .sweeping ∨
    (b.moveAll moves).collector.phase = .idle →
      (b.moveAll moves).collector.marks.queue = []
  scanned : (b.moveAll moves).collector.phase ≠ .rootScanning
  cursor : (b.moveAll moves).collector.phase = .sweeping →
    (b.moveAll moves).collector.cursor ≤
      (b.moveAll moves).collector.candidates.length
  /-- What is released since the cycle under way began. -/
  swept : (b.moveAll moves).collector.phase = .sweeping →
    ∃ before during released, moves = before ++ during ∧
      (b.moveAll before).collector.phase = .idle ∧
      (b.moveAll before).RunsThrough during ∧
      (b.moveAll moves).released = (b.moveAll before).released ++ released ∧
      ∀ v ∈ (b.moveAll moves).collector.candidates.take
          (b.moveAll moves).collector.cursor,
        (b.moveAll moves).collector.color v ≠ .white ∨ v ∈ released
  maxGray : ∀ last, (b.moveAll (moves ++ [last])).collector.cycles =
      (b.moveAll moves).collector.cycles + 1 →
    ∃ before during, moves = before ++ during ∧
      (b.moveAll before).IsCycle during last ∧
      (b.moveAll before).KnowsMaximum (during ++ [last])
        (b.moveAll (moves ++ [last]))

theorem Underway.knowsMaximum {log : List Handle} {moves : List Move}
    {began ended : Bench} (h : Underway log (began.moments moves) ended)
    (hended : ended.collector.Coherent)
    (hidle : ended.collector.phase = .idle) :
    began.KnowsMaximum moves ended := by
  obtain ⟨later, hmoments, hpasses⟩ := h.passes
  refine ⟨⟨later, hmoments, hpasses⟩, ?_⟩
  rw [hended.recorded hidle, hmoments]
  exact (Marks.crest_empty.passes hpasses).highest

/-- In every state that the calls of a host and its changes of the scene lead
to, the gray vertices are those that wait, each of them once. -/
theorem queue_agrees_with_colors (scene : Scene) (moves : List Move) :
    (new scene).QueueAgrees moves := by
  have hcoherent := Collector.coherent_new.moveAll (b := new scene)
  have hnow := hcoherent moves
  obtain ⟨before, during, hmoves, hidle, hruns⟩ :=
    exists_runsThrough (b := new scene) rfl moves
  have hunderway := underway_moveAll hidle hruns
  have hduring : (new scene).moveAll moves =
      ((new scene).moveAll before).moveAll during := by
    rw [hmoves]
    exact List.foldl_append ..
  rw [← hduring] at hunderway
  constructor
  · exact hnow.consistent.nodup
  · intro v
    rw [← hnow.consistent.gray_iff]
    exact (Marks.color_eq_gray_iff _ v).symm
  · rintro (hphase | hphase) <;> exact hnow.drained (by simp [hphase])
  · exact hnow.scanned
  · exact hnow.cursor
  · intro hphase
    have hrunning : ((new scene).moveAll moves).collector.inProgress = true :=
      inProgress_iff.mpr (by simp [hphase])
    rw [start_of_inProgress hrunning] at hunderway
    obtain ⟨released, hreleased, hswept⟩ := hunderway.swept
    refine ⟨before, during, released, hmoves, hidle, hruns, hreleased, ?_⟩
    intro v hv
    exact (hswept hphase v hv).imp (Marks.color_ne_white_iff _ v).mpr id
  · intro last hcompleted
    have hlast := hcoherent (moves ++ [last])
    rw [moveAll_concat] at hcompleted hlast ⊢
    have hend := hunderway.completed hcompleted
    have hidleAgain := (completes_cases hcompleted).1
    refine ⟨before, during, hmoves, ⟨hidle, hruns, ?_⟩, ?_⟩
    · rw [moveAll_concat, ← hduring]
      exact hcompleted
    · rw [hduring, ← moments_concat, ← hduring] at hend
      exact hend.knowsMaximum hlast hidleAgain

end Bench

end LiveHeap
