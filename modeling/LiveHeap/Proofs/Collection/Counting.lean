import LiveHeap.Proofs.Collection.Suspension

/-!
# What a cycle counts as swept

The statistics of a cycle count the released vertices that the collector holds
when the cycle ends.  It hands over what it holds whenever it is asked to, also
between two steps of a sweep.  So a cycle counts the vertices released since the
last hand-over in it, and these are all that it released exactly if none were
handed over before its end.
-/

namespace LiveHeap.Bench

/-- What happens to a bench: an operation, or any change of the scene. -/
inductive Move where
  | call (op : Operation)
  | change (scene : Scene)

def move (b : Bench) : Move → Bench
  | .call op => (b.perform op).1
  | .change scene => { b with scene }

def moveAll (b : Bench) (moves : List Move) : Bench := moves.foldl move b

def handedOverBy (b : Bench) : Move → List Handle
  | .call op => (b.perform op).2.handedOver
  | .change _ => []

/-- The vertices that some moves hand over, in order. -/
def handedOver (b : Bench) : List Move → List Handle
  | [] => []
  | m :: moves => b.handedOverBy m ++ (b.move m).handedOver moves

theorem moveAll_concat (b : Bench) (moves : List Move) (m : Move) :
    b.moveAll (moves ++ [m]) = (b.moveAll moves).move m := by
  rw [moveAll, List.foldl_append]
  rfl

theorem handedOver_concat (b : Bench) (moves : List Move) (m : Move) :
    b.handedOver (moves ++ [m]) =
      b.handedOver moves ++ (b.moveAll moves).handedOverBy m := by
  induction moves generalizing b with
  | nil => simp [handedOver, moveAll]
  | cons first moves ih =>
      have hrest := ih (b.move first)
      rw [List.cons_append, handedOver, hrest, handedOver, List.append_assoc]
      rfl

/-- All that a move can do: take the cycle further, change the scene, hand over
what was released, or run a cycle to its end and hand over. -/
theorem move_cases (b : Bench) (m : Move) :
    b.handedOverBy m = [] ∧
        (b.move m = b.start ∨ b.move m = b.step.1 ∨ b.move m = b.finish.1 ∨
          ∃ scene, b.move m = { b with scene }) ∨
      b.handedOverBy m = b.takeRemoved.2 ∧ b.move m = b.takeRemoved.1 ∨
      b.move m = b.start.finish.1.takeRemoved.1 := by
  cases m with
  | change scene => exact Or.inl ⟨rfl, by simp [move]⟩
  | call op =>
      cases op with
      | start => exact Or.inl ⟨rfl, Or.inl rfl⟩
      | step => exact Or.inl ⟨rfl, Or.inr (Or.inl rfl)⟩
      | finish => exact Or.inl ⟨rfl, Or.inr (Or.inr (Or.inl rfl))⟩
      | collect => exact Or.inr (Or.inr rfl)
      | takeRemoved => exact Or.inr (Or.inl ⟨rfl, rfl⟩)
      | addLive v => exact Or.inl ⟨rfl, Or.inr (Or.inr (Or.inr ⟨_, rfl⟩))⟩
      | setChildren v children =>
          exact Or.inl ⟨rfl, Or.inr (Or.inr (Or.inr ⟨_, rfl⟩))⟩
      | setRoots roots =>
          exact Or.inl ⟨rfl, Or.inr (Or.inr (Or.inr ⟨_, rfl⟩))⟩

/-! ## Cycles in a history -/

/-- The collector runs after each of the moves. -/
def RunsThrough (b : Bench) (during : List Move) : Prop :=
  ∀ part, part <+: during → part ≠ [] →
    (b.moveAll part).collector.inProgress = true

/-- The moves are one cycle: it begins on an idle collector, runs from then on,
and the last move completes it. -/
structure IsCycle (b : Bench) (during : List Move) (last : Move) : Prop where
  idle : b.collector.phase = .idle
  running : b.RunsThrough during
  completed : (b.moveAll (during ++ [last])).collector.cycles =
    (b.moveAll during).collector.cycles + 1

theorem inProgress_iff {b : Bench} :
    b.collector.inProgress = true ↔ b.collector.phase ≠ .idle := by
  simp [Collector.inProgress]

theorem RunsThrough.concat {b : Bench} {during : List Move}
    (h : b.RunsThrough during) {m : Move}
    (hrunning : (b.moveAll (during ++ [m])).collector.inProgress = true) :
    b.RunsThrough (during ++ [m]) := by
  intro part hpart hne
  rcases List.prefix_concat_iff.mp hpart with rfl | hearlier
  · exact hrunning
  · exact h part hearlier hne

/-- Every history goes back to a last moment at which the collector was
idle. -/
theorem exists_runsThrough {b : Bench} (hidle : b.collector.phase = .idle)
    (moves : List Move) :
    ∃ before during, moves = before ++ during ∧
      (b.moveAll before).collector.phase = .idle ∧
      (b.moveAll before).RunsThrough during := by
  induction moves using List.reverseRecOn with
  | nil => exact ⟨[], [], rfl, hidle, fun part hpart hne =>
      absurd (List.prefix_nil.mp hpart) hne⟩
  | append_singleton moves m ih =>
      by_cases hend : (b.moveAll (moves ++ [m])).collector.phase = .idle
      · exact ⟨moves ++ [m], [], (List.append_nil _).symm, hend,
          fun part hpart hne => absurd (List.prefix_nil.mp hpart) hne⟩
      · obtain ⟨before, during, rfl, hbefore, hruns⟩ := ih
        refine ⟨before, during ++ [m], List.append_assoc .., hbefore, ?_⟩
        apply hruns.concat
        rw [List.append_assoc] at hend
        have hsame : (b.moveAll before).moveAll (during ++ [m]) =
            b.moveAll (before ++ (during ++ [m])) :=
          (List.foldl_append ..).symm
        rw [hsame, inProgress_iff]
        exact hend

/-! ## Idle collectors -/

section Idle

variable {b : Bench} (hidle : b.collector.phase = .idle)

include hidle

theorem step_of_idle : b.step = (b, false) := by
  rw [step, hidle]

theorem finish_of_idle : b.finish = (b, 1) := by
  rw [finish, dif_neg (by simp [step_of_idle hidle]), step_of_idle hidle]

end Idle

theorem phase_finish (b : Bench) : b.finish.1.collector.phase = .idle := by
  induction b using finish.induct with
  | case1 b hmore ih =>
      rw [finish, dif_pos hmore]
      exact ih
  | case2 b hover =>
      rw [finish, dif_neg hover]
      exact idle_of_step hover

theorem cycles_start (b : Bench) :
    b.start.collector.cycles = b.collector.cycles := by
  unfold start
  split <;> rfl

/-- Only a start takes an idle collector into a cycle. -/
theorem move_of_idle {b : Bench} (hidle : b.collector.phase = .idle) {m : Move}
    (hrunning : (b.move m).collector.inProgress = true) :
    b.move m = b.start ∧ b.handedOverBy m = [] := by
  rw [inProgress_iff] at hrunning
  rcases b.move_cases m with ⟨hnone, hm | hm | hm | ⟨scene, hm⟩⟩ | ⟨_, hm⟩ | hm
  · exact ⟨hm, hnone⟩
  · rw [hm, step_of_idle hidle] at hrunning
    exact absurd hidle hrunning
  · rw [hm] at hrunning
    exact absurd b.phase_finish hrunning
  · rw [hm] at hrunning
    exact absurd hidle hrunning
  · rw [hm] at hrunning
    exact absurd hidle hrunning
  · rw [hm] at hrunning
    exact absurd b.start.phase_finish hrunning

/-- A step that completes a cycle leaves the collector idle. -/
theorem phase_step_of_cycles {b : Bench}
    (hcycles : b.step.1.collector.cycles ≠ b.collector.cycles) :
    b.step.1.collector.phase = .idle := by
  apply idle_of_step
  intro hmore
  apply hcycles
  unfold step at hmore ⊢
  cases hphase : b.collector.phase with
  | idle => rfl
  | rootScanning => rfl
  | marking =>
      unfold markStep
      simp only
      split <;> rfl
  | sweeping =>
      simp only [hphase, sweepStep] at hmore ⊢
      split
      next hend =>
        rw [if_pos hend] at hmore
        contradiction
      next => rfl

/-! ## What the collector holds -/

/-- The log of released vertices ends with those that the collector holds, and
at the end of a cycle they are counted. -/
structure Tallied (log : List Handle) (b : Bench) : Prop where
  released : b.released = log ++ b.collector.removed
  swept : b.collector.phase = .idle →
    b.collector.lastStats.swept = b.collector.removed.length

theorem tallied_start {b : Bench} (hidle : b.collector.phase = .idle) :
    Tallied b.released b.start := by
  have hnot : ¬ b.collector.inProgress = true := by simp [inProgress_iff, hidle]
  rw [start, if_neg hnot]
  constructor
  · exact (List.append_nil _).symm
  · intro hphase
    cases hphase

namespace Tallied

variable {log : List Handle} {b : Bench}

theorem step (h : Tallied log b) : Tallied log b.step.1 := by
  unfold Bench.step
  cases hphase : b.collector.phase with
  | idle => exact h
  | rootScanning => exact ⟨h.released, nofun⟩
  | marking =>
      unfold markStep
      simp only
      split
      next => exact ⟨h.released, nofun⟩
      next =>
        refine ⟨h.released, fun hidle => ?_⟩
        rw [hphase] at hidle
        contradiction
  | sweeping =>
      simp only [sweepStep, h.released, List.append_assoc]
      split
      next => exact ⟨rfl, fun _ => rfl⟩
      next =>
        refine ⟨rfl, fun hidle => ?_⟩
        rw [hphase] at hidle
        contradiction

theorem finish (h : Tallied log b) : Tallied log b.finish.1 := by
  induction b using Bench.finish.induct with
  | case1 b hmore ih =>
      rw [Bench.finish, dif_pos hmore]
      exact ih h.step
  | case2 b hover =>
      rw [Bench.finish, dif_neg hover]
      exact h.step

/-- A hand-over moves what the collector holds to what was handed over. -/
theorem takeRemoved (h : Tallied log b)
    (hrunning : b.collector.inProgress = true) :
    Tallied (log ++ b.takeRemoved.2) b.takeRemoved.1 := by
  constructor
  · exact h.released.trans (List.append_nil _).symm
  · exact fun hidle => absurd hidle (inProgress_iff.mp hrunning)

theorem move (h : Tallied log b) (hrunning : b.collector.inProgress = true)
    {m : Move} (hstill : (b.move m).collector.inProgress = true) :
    Tallied (log ++ b.handedOverBy m) (b.move m) := by
  rcases b.move_cases m with
    ⟨hnone, hm | hm | hm | ⟨scene, hm⟩⟩ | ⟨htaken, hm⟩ | hm
  · rwa [hnone, List.append_nil, hm, start_of_inProgress hrunning]
  · rw [hnone, List.append_nil, hm]
    exact h.step
  · rw [hnone, List.append_nil, hm]
    exact h.finish
  · rw [hnone, List.append_nil, hm]
    exact ⟨h.released, h.swept⟩
  · rw [htaken, hm]
    exact h.takeRemoved hrunning
  · rw [hm] at hstill
    exact absurd b.start.phase_finish (inProgress_iff.mp hstill)

end Tallied

/-- All through a cycle, what it released is what was handed over in it and what
the collector holds.  A cycle that is about to start has released nothing. -/
theorem tallied_moveAll {b : Bench} (hidle : b.collector.phase = .idle)
    {during : List Move} (hruns : b.RunsThrough during) :
    Tallied (b.released ++ b.handedOver during) (b.moveAll during).start := by
  induction during using List.reverseRecOn with
  | nil =>
      rw [handedOver, List.append_nil]
      exact tallied_start hidle
  | append_singleton during m ih =>
      have hbefore : b.RunsThrough during := fun part hpart =>
        hruns part (hpart.trans (List.prefix_append during [m]))
      have htallied := ih hbefore
      have hstill := hruns (during ++ [m]) (List.prefix_refl _) (by simp)
      rw [start_of_inProgress hstill]
      rw [moveAll_concat] at hstill ⊢
      rw [handedOver_concat, ← List.append_assoc]
      by_cases hfirst : (b.moveAll during).collector.phase = .idle
      · obtain ⟨hstart, hnone⟩ := move_of_idle hfirst hstill
        rw [hstart, hnone, List.append_nil]
        exact htallied
      · have hrunning := inProgress_iff.mpr hfirst
        rw [start_of_inProgress hrunning] at htallied
        exact htallied.move hrunning hstill

/-- The move that completes a cycle counts what was released since the last
hand-over. -/
theorem Tallied.completed {log : List Handle} {b : Bench}
    (h : Tallied log b.start) {last : Move}
    (hcompleted : (b.move last).collector.cycles = b.collector.cycles + 1) :
    ∃ left, (b.move last).released = log ++ left ∧
      (b.move last).collector.lastStats.swept = left.length := by
  have hchanged : (b.move last).collector.cycles ≠ b.collector.cycles := by
    rw [hcompleted]
    exact Nat.succ_ne_self _
  have hrunning : ¬ b.collector.phase = .idle → Tallied log b := by
    intro hphase
    rwa [start_of_inProgress (inProgress_iff.mpr hphase)] at h
  rcases b.move_cases last with
    ⟨_, hm | hm | hm | ⟨scene, hm⟩⟩ | ⟨_, hm⟩ | hm <;> rw [hm] at hchanged ⊢
  · exact absurd b.cycles_start hchanged
  · have hstep := (hrunning fun hidle =>
      hchanged (by rw [step_of_idle hidle])).step
    exact ⟨_, hstep.released, hstep.swept (phase_step_of_cycles hchanged)⟩
  · have hfinish := (hrunning fun hidle =>
      hchanged (by rw [finish_of_idle hidle])).finish
    exact ⟨_, hfinish.released, hfinish.swept b.phase_finish⟩
  · exact absurd rfl hchanged
  · exact absurd rfl hchanged
  · exact ⟨_, h.finish.released, h.finish.swept b.start.phase_finish⟩

/-- What the statistics of a cycle count: of the vertices released since it
began, those that are left when the others were handed over. -/
structure Counts (began : Bench) (during : List Move) (ended : Bench)
    (left : List Handle) : Prop where
  released : ended.released =
    began.released ++ (began.handedOver during ++ left)
  swept : ended.collector.lastStats.swept = left.length
  all_iff : ended.collector.lastStats.swept =
      ended.released.length - began.released.length ↔
    began.handedOver during = []

/-- Whenever a move completes a cycle, there is the moment at which the cycle
began.  The vertices released since then are those that were handed over in the
meantime, followed by those that the statistics count.  So the statistics count
all of them exactly if none were handed over. -/
theorem swept_counts_what_is_left (b : Bench)
    (hidle : b.collector.phase = .idle) (moves : List Move) (last : Move)
    (hcompleted : (b.moveAll (moves ++ [last])).collector.cycles =
      (b.moveAll moves).collector.cycles + 1) :
    ∃ before during left, moves = before ++ during ∧
      (b.moveAll before).IsCycle during last ∧
      (b.moveAll before).Counts during (b.moveAll (moves ++ [last])) left := by
  obtain ⟨before, during, rfl, hbefore, hruns⟩ :=
    exists_runsThrough hidle moves
  have hduring : b.moveAll (before ++ during) =
      (b.moveAll before).moveAll during := List.foldl_append ..
  rw [moveAll_concat, hduring] at hcompleted ⊢
  obtain ⟨left, hreleased, hswept⟩ :=
    (tallied_moveAll hbefore hruns).completed hcompleted
  rw [List.append_assoc] at hreleased
  refine ⟨before, during, left, rfl, ⟨hbefore, hruns, ?_⟩,
    ⟨hreleased, hswept, ?_⟩⟩
  · rw [moveAll_concat]
    exact hcompleted
  · rw [hswept, hreleased, ← List.length_eq_zero_iff]
    simp only [List.length_append]
    omega

/-- Nothing is reached, and there is one candidate more than one step of the
sweep looks at. -/
def longLitter : Bench :=
  new ⟨[], Table.empty, (List.range 101).map Handle.mk⟩

/-- The vertices of the first step of the sweep are taken before the second
one. -/
def drainedSweep : List Move :=
  [.call .start, .call .step, .call .step, .call .takeRemoved]

theorem drainedSweep_counts_one :
    let ended := longLitter.moveAll (drainedSweep ++ [.call .step])
    longLitter.collector.phase = .idle ∧
      ended.collector.cycles =
        (longLitter.moveAll drainedSweep).collector.cycles + 1 ∧
      ∃ before during left, drainedSweep = before ++ during ∧
        (longLitter.moveAll before).IsCycle during (.call .step) ∧
        (longLitter.moveAll before).Counts during ended left ∧
        left.length = 1 := by
  intro ended
  have hidle : longLitter.collector.phase = .idle := rfl
  obtain ⟨hcompleted, hone⟩ : ended.collector.cycles =
        (longLitter.moveAll drainedSweep).collector.cycles + 1 ∧
      ended.collector.lastStats.swept = 1 := by
    decide +kernel
  obtain ⟨before, during, left, hmoves, hcycle, hcounts⟩ :=
    swept_counts_what_is_left longLitter hidle drainedSweep (.call .step)
      hcompleted
  exact ⟨hidle, hcompleted, before, during, left, hmoves, hcycle, hcounts,
    hcounts.swept.symm.trans hone⟩

/-- A cycle can release a hundred and one vertices and count one. -/
theorem drained_sweep_undercounts :
    ¬ ∀ b during last, IsCycle b during last →
      (b.moveAll (during ++ [last])).collector.lastStats.swept =
        (b.moveAll (during ++ [last])).released.length -
          b.released.length := by
  intro hall
  obtain ⟨hruns, hcompleted, hcounts⟩ :
      (∀ part ∈ drainedSweep.inits, part.isEmpty = false →
        (longLitter.moveAll part).collector.inProgress = true) ∧
      ((longLitter.moveAll (drainedSweep ++ [.call .step])).collector.cycles =
        (longLitter.moveAll drainedSweep).collector.cycles + 1) ∧
      ¬ (longLitter.moveAll
          (drainedSweep ++ [.call .step])).collector.lastStats.swept =
        (longLitter.moveAll (drainedSweep ++ [.call .step])).released.length -
          longLitter.released.length := by
    decide +kernel
  refine hcounts (hall longLitter drainedSweep (.call .step)
    ⟨rfl, fun part hpart hne => ?_, hcompleted⟩)
  exact hruns part ((List.mem_inits _ _).mpr hpart) (by simpa using hne)

end LiveHeap.Bench
