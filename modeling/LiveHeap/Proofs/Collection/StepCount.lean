import LiveHeap.Proofs.Collection.Drift
import LiveHeap.Proofs.Collection.Suspension
import Mathlib.Algebra.Order.Floor.Div

/-!
# How many steps a cycle takes

A marking step that uses up its hundred vertices does not look whether one is
left, so another step follows it and finds the queue empty.  A sweeping step
looks at a hundred candidates and ends the cycle if these were the last ones; a
sweep of no candidates takes a step as well.  From these two rules follows the
number of steps that finishing a cycle takes.
-/

namespace LiveHeap.Bench

/-- The bench after a number of steps. -/
def afterSteps (b : Bench) : Nat → Bench
  | 0 => b
  | n + 1 => b.step.1.afterSteps n

/-! ## Finishing is stepping -/

theorem finish_of_step {b : Bench} (hmore : b.step.2 = true) :
    b.finish = (b.step.1.finish.1, b.step.1.finish.2 + 1) := by
  rw [finish.eq_1 b, dif_pos hmore]

theorem finish_eq_afterSteps (b : Bench) :
    b.finish.1 = b.afterSteps b.finish.2 := by
  induction b using finish.induct with
  | case1 b hmore ih =>
      rw [finish_of_step hmore]
      exact ih
  | case2 b hover =>
      rw [finish, dif_neg hover]
      rfl

theorem finish_pos (b : Bench) : 0 < b.finish.2 := by
  rw [finish]
  split <;> exact Nat.succ_pos _

/-- All steps but the last one say that the cycle still runs. -/
theorem flag_afterSteps (b : Bench) {k : Nat} (hk : k < b.finish.2) :
    (b.afterSteps k).step.2 = decide (k + 1 < b.finish.2) := by
  induction b using finish.induct generalizing k with
  | case1 b hmore ih =>
      rw [finish_of_step hmore] at hk ⊢
      cases k with
      | zero =>
          rw [afterSteps, hmore]
          simpa using b.step.1.finish_pos
      | succ k =>
          have hrest := ih (Nat.lt_of_succ_lt_succ hk)
          simpa [afterSteps] using hrest
  | case2 b hover =>
      have hcount : b.finish.2 = 1 := by rw [finish, dif_neg hover]
      obtain rfl : k = 0 := by omega
      rw [hcount, afterSteps]
      simpa using hover

/-- Steps after which the cycle still runs are part of finishing it. -/
theorem finish_of_flags {b : Bench} {n : Nat}
    (hmore : ∀ k < n, (b.afterSteps k).step.2 = true) :
    b.finish = ((b.afterSteps n).finish.1,
      n + (b.afterSteps n).finish.2) := by
  induction n generalizing b with
  | zero => exact Prod.ext rfl (Nat.zero_add _).symm
  | succ n ih =>
      have hfirst : b.step.2 = true := hmore 0 (Nat.succ_pos n)
      have hrest := ih (b := b.step.1) fun k hk =>
        hmore (k + 1) (Nat.succ_lt_succ hk)
      rw [finish_of_step hfirst, hrest, afterSteps]
      exact Prod.ext rfl (Nat.add_right_comm _ _ 1)

/-! ## Marking -/

/-- Tracing that is not the last uses up its limit, and the last does not. -/
theorem length_trace (scene : Scene) (limit : Nat) (m : Marks)
    (traced : List Handle) :
    if (trace scene limit m traced).2.2 then
      (trace scene limit m traced).2.1.length < traced.length + limit ∧
        traced.length ≤ (trace scene limit m traced).2.1.length
    else
      (trace scene limit m traced).2.1.length = traced.length + limit := by
  induction limit generalizing m traced with
  | zero => simp [trace]
  | succ limit ih =>
      cases hpop : m.pop with
      | none => simp [trace, hpop]
      | some next =>
          have hrest := ih (next.2.visitAll (scene.childrenOf next.1))
            (traced ++ [next.1])
          simp only [trace, hpop]
          rw [List.length_append, List.length_singleton] at hrest
          split
          next hend =>
            rw [if_pos hend] at hrest
            omega
          next hend =>
            rw [if_neg hend] at hrest
            omega

/-- A marking step either goes on, with a hundred vertices more that are traced,
or turns to the sweep, with fewer. -/
theorem markStep_cases {b : Bench} (hphase : b.collector.phase = .marking) :
    b.markStep.scene = b.scene ∧
      (b.markStep.collector.phase = .marking ∧
          b.markStep.traced.length = b.traced.length + 100 ∨
        b.markStep.collector.phase = .sweeping ∧
          b.traced.length ≤ b.markStep.traced.length ∧
          b.markStep.traced.length < b.traced.length + 100) := by
  have hlength := length_trace b.scene Collector.stepSize b.collector.marks
    b.traced
  unfold markStep
  refine ⟨rfl, ?_⟩
  simp only
  split
  next hend =>
    rw [if_pos hend] at hlength
    exact Or.inr ⟨rfl, hlength.2, hlength.1⟩
  next hend =>
    rw [if_neg hend] at hlength
    exact Or.inl ⟨hphase, hlength⟩

/-- From some moment of the marking on, a number of steps go on with it, each
tracing a hundred vertices, and the step behind them turns to the sweep. -/
structure TurnsAfter (b : Bench) (full : Nat) : Prop where
  marking : ∀ k ≤ full, (b.afterSteps k).collector.phase = .marking
  sweeping : (b.afterSteps (full + 1)).collector.phase = .sweeping
  candidates : (b.afterSteps (full + 1)).collector.candidates = b.scene.live
  cursor : (b.afterSteps (full + 1)).collector.cursor = 0
  atLeast : b.traced.length + 100 * full ≤
    (b.afterSteps (full + 1)).traced.length
  lessThan : (b.afterSteps (full + 1)).traced.length <
    b.traced.length + 100 * (full + 1)

section Marking

variable {b : Bench} (hphase : b.collector.phase = .marking)

include hphase

theorem step_of_marking : b.step = (b.markStep, true) := by
  rw [step, hphase]

theorem afterSteps_of_marking (k : Nat) :
    b.afterSteps (k + 1) = b.markStep.afterSteps k := by
  rw [afterSteps, step_of_marking hphase]

/-- The step that turns to the sweep. -/
theorem turnsAfter_zero (hturned : b.markStep.collector.phase = .sweeping)
    (hlower : b.traced.length ≤ b.markStep.traced.length)
    (hupper : b.markStep.traced.length < b.traced.length + 100) :
    b.TurnsAfter 0 := by
  obtain ⟨hcandidates, hcursor⟩ := markStep_of_sweeping hturned hphase
  have hafter : b.afterSteps (0 + 1) = b.markStep :=
    afterSteps_of_marking hphase 0
  constructor
  · intro k hk
    obtain rfl : k = 0 := by omega
    exact hphase
  · rwa [hafter]
  · rwa [hafter]
  · rwa [hafter]
  · rwa [hafter]
  · rwa [hafter]

/-- A step that goes on with the marking. -/
theorem TurnsAfter.step {full : Nat} (hrest : b.markStep.TurnsAfter full)
    (hscene : b.markStep.scene = b.scene)
    (hlength : b.markStep.traced.length = b.traced.length + 100) :
    b.TurnsAfter (full + 1) := by
  have hafter := afterSteps_of_marking hphase
  have hlower := hrest.atLeast
  have hupper := hrest.lessThan
  constructor
  · intro k hk
    cases k with
    | zero => exact hphase
    | succ k =>
        rw [hafter]
        exact hrest.marking k (Nat.le_of_succ_le_succ hk)
  · rw [hafter]
    exact hrest.sweeping
  · rw [hafter, ← hscene]
    exact hrest.candidates
  · rw [hafter]
    exact hrest.cursor
  · rw [hafter]
    omega
  · rw [hafter]
    omega

theorem exists_turnsAfter : ∃ full, b.TurnsAfter full := by
  induction b using finish.induct with
  | case1 b hmore ih =>
      rw [step_of_marking hphase] at ih
      obtain ⟨hscene, ⟨hstill, hlength⟩ | ⟨hturned, hlower, hupper⟩⟩ :=
        markStep_cases hphase
      · obtain ⟨full, hrest⟩ := ih hstill
        exact ⟨full + 1, hrest.step hphase hscene hlength⟩
      · exact ⟨0, turnsAfter_zero hphase hturned hlower hupper⟩
  | case2 b hover => exact absurd (by rw [step_of_marking hphase]) hover

end Marking

/-- The steps of the marking are part of finishing the cycle. -/
theorem TurnsAfter.finish_eq {b : Bench} {full : Nat}
    (hturn : b.TurnsAfter full) :
    b.finish = ((b.afterSteps (full + 1)).finish.1,
      full + 1 + (b.afterSteps (full + 1)).finish.2) :=
  finish_of_flags fun k hk => by
    rw [step_of_marking (hturn.marking k (Nat.le_of_lt_succ hk))]

/-! ## Sweeping -/

/-- A sweeping step traces nothing.  It ends the cycle if it has come to the last
candidate, and else a hundred candidates more were looked at. -/
theorem sweepStep_cases {b : Bench} (hphase : b.collector.phase = .sweeping)
    (hcursor : b.collector.cursor ≤ b.collector.candidates.length) :
    b.sweepStep.traced = b.traced ∧
      (b.sweepStep.collector.phase = .idle ∧
          b.collector.candidates.length ≤ b.collector.cursor + 100 ∨
        b.sweepStep.collector.phase = .sweeping ∧
          b.sweepStep.collector.candidates = b.collector.candidates ∧
          b.sweepStep.collector.cursor = b.collector.cursor + 100 ∧
          b.collector.cursor + 100 < b.collector.candidates.length) := by
  have hsize : Collector.stepSize = 100 := rfl
  unfold sweepStep
  refine ⟨rfl, ?_⟩
  simp only
  split
  next hend =>
    refine Or.inl ⟨rfl, ?_⟩
    omega
  next hend =>
    refine Or.inr ⟨hphase, rfl, ?_, ?_⟩
    · change min _ _ = _
      omega
    · omega

/-- What is left of a sweep takes a step for every hundred candidates, and one
step if there are none. -/
theorem finish_of_sweeping {b : Bench} (hphase : b.collector.phase = .sweeping)
    (hcursor : b.collector.cursor ≤ b.collector.candidates.length) :
    b.finish.1.traced = b.traced ∧
      b.finish.2 = max 1
        ((b.collector.candidates.length - b.collector.cursor) ⌈/⌉ 100) := by
  rw [Nat.ceilDiv_eq_add_pred_div]
  induction b using finish.induct with
  | case1 b hmore ih =>
      have hstep : b.step.1 = b.sweepStep := by rw [step, hphase]
      obtain ⟨htraced, ⟨hidle, _⟩ | ⟨hstill, hcandidates, hnext, hless⟩⟩ :=
        sweepStep_cases hphase hcursor
      · rw [step_flag, hstep, Collector.inProgress, hidle] at hmore
        contradiction
      · rw [finish, dif_pos hmore]
        rw [hstep] at ih ⊢
        have hrest := ih hstill (by rw [hcandidates, hnext]; omega)
        rw [hcandidates, hnext, htraced] at hrest
        refine ⟨hrest.1, ?_⟩
        simp only
        rw [hrest.2]
        omega
  | case2 b hover =>
      have hstep : b.step.1 = b.sweepStep := by rw [step, hphase]
      obtain ⟨htraced, ⟨_, hlast⟩ | ⟨hstill, _⟩⟩ :=
        sweepStep_cases hphase hcursor
      · rw [finish, dif_neg hover, hstep]
        refine ⟨htraced, ?_⟩
        simp only
        omega
      · rw [step_flag, hstep, Collector.inProgress, hstill] at hover
        contradiction

/-! ## The whole cycle -/

/-- How a cycle on a bench goes when it is finished right after its start: what
it traces, what it looks at in the sweep, and how many steps it takes. -/
structure TakesSteps (b : Bench) (traced candidates : List Handle) (n : Nat) :
    Prop where
  count : n = traced.length / 100 + 1 + max 1 (candidates.length ⌈/⌉ 100)
  finish_eq : b.start.finish = (b.start.afterSteps n, n)
  flag : ∀ k < n, (b.start.afterSteps k).step.2 = decide (k + 1 < n)
  idle : (b.start.afterSteps n).collector.phase = .idle
  marking : ∀ k ≤ traced.length / 100,
    (b.start.afterSteps k).collector.phase = .marking
  sweeping : (b.start.afterSteps (traced.length / 100 + 1)).collector.phase =
    .sweeping
  candidates_eq :
    (b.start.afterSteps (traced.length / 100 + 1)).collector.candidates =
      candidates
  traced_eq : (b.start.afterSteps n).traced = b.traced ++ traced
  nodup : traced.Nodup
  mem_traced : ∀ v, v ∈ traced ↔ b.scene.Traced v

/-- Finishing a cycle that an idle collector has just started takes a step for
every full hundred of traced vertices, one more that finds none left, and then a
step for every hundred candidates begun, but at least one.  Every step but the
last says that the cycle still runs, and the last leaves the collector idle. -/
theorem finish_step_count (b : Bench) (hidle : b.collector.phase = .idle) :
    ∃ traced n, b.TakesSteps traced b.scene.live n := by
  have hcycle := cycleOn_start b hidle
  have hnot : ¬ b.collector.inProgress = true := by
    simp [Collector.inProgress, hidle]
  have hphase : b.start.collector.phase = .marking := by
    rw [start, if_neg hnot]
  have hscene : b.start.scene = b.scene := by
    rw [start, if_neg hnot]
  have hlog : b.start.traced = b.traced := by
    rw [start, if_neg hnot]
  obtain ⟨hdone, hend⟩ := hcycle.finish
  obtain ⟨traced, htraced, honce⟩ :=
    ((booksOn_start b hidle).finish hcycle).traced
  have hqueue := hdone.drained (by simp [hend])
  have hmem : ∀ v, v ∈ traced ↔ b.scene.Traced v := by
    intro v
    rw [honce.mem_iff, hqueue, hdone.marking.isMarked_iff hqueue]
    simp only [List.not_mem_nil, not_false_eq_true, and_true]
    exact and_iff_left_of_imp Or.inl
  obtain ⟨full, hturn⟩ := exists_turnsAfter hphase
  obtain ⟨hswept, hcount⟩ := finish_of_sweeping hturn.sweeping
    (by rw [hturn.cursor]; exact Nat.zero_le _)
  have hfull : full = traced.length / 100 := by
    have hlength := congrArg List.length htraced
    rw [hturn.finish_eq, hswept, List.length_append] at hlength
    have hlower := hturn.atLeast
    have hupper := hturn.lessThan
    rw [hlog] at hlower hupper
    omega
  have hfinish := b.start.finish_eq_afterSteps
  refine ⟨traced, b.start.finish.2, ?_, Prod.ext hfinish rfl,
    fun k => flag_afterSteps _, ?_, ?_, ?_, ?_, ?_, honce.nodup, hmem⟩
  · rw [hturn.finish_eq, hcount, hturn.cursor, hturn.candidates, hscene, hfull]
    rfl
  · rw [← hfinish]
    exact hend
  · exact hfull ▸ hturn.marking
  · exact hfull ▸ hturn.sweeping
  · rw [← hfull, hturn.candidates, hscene]
  · rw [← hfinish]
    exact htraced

/-- A hundred traced vertices in a ring, and three hundred candidates. -/
def fullRing : Bench :=
  new ⟨[.visit ⟨0⟩],
    .ofList ((List.range 100).map fun i => (⟨i⟩, [⟨(i + 1) % 100⟩])),
    (List.range 300).map Handle.mk⟩

/-- The second step finds nothing to trace, and the fifth, which comes to the
last candidate, is the last one. -/
theorem finish_step_count_fullRing :
    fullRing.collector.phase = .idle ∧
      ∃ traced, fullRing.TakesSteps traced fullRing.scene.live 5 ∧
        traced.length = 100 ∧ fullRing.scene.live.length = 300 := by
  have hidle : fullRing.collector.phase = .idle := rfl
  have hlive : fullRing.scene.live.length = 300 := by
    simp [fullRing, new]
  obtain ⟨hstill, hturned, hlog⟩ :
      (fullRing.start.afterSteps 1).collector.phase = .marking ∧
      (fullRing.start.afterSteps 2).collector.phase = .sweeping ∧
      (fullRing.start.afterSteps 5).traced.length = 100 := by
    decide +kernel
  obtain ⟨traced, n, hsteps⟩ := finish_step_count fullRing hidle
  have hfull : traced.length / 100 = 1 := by
    rcases Nat.lt_trichotomy (traced.length / 100) 1 with hless | hone | hmore
    · have hearly := hsteps.sweeping
      rw [Nat.lt_one_iff.mp hless, Nat.zero_add, hstill] at hearly
      exact Phase.noConfusion hearly
    · exact hone
    · have hlate := hsteps.marking 2 hmore
      rw [hturned] at hlate
      exact Phase.noConfusion hlate
  obtain rfl : n = 5 := by
    rw [hsteps.count, hfull, hlive]
    rfl
  refine ⟨hidle, traced, hsteps, ?_, hlive⟩
  rw [hsteps.traced_eq] at hlog
  exact hlog

end LiveHeap.Bench
