import LiveHeap.Proofs.Collection.Cycle
import LiveHeap.Collection.Operation

/-!
# Cycles in pieces

A host may run a cycle step by step, ask for another start in between and take
the released vertices whenever it likes.  Nothing in a cycle reads the released
vertices but the statistics at its end, so the cycle goes on as if they had
stayed with the collector: `undrained` puts them back.  The colours can be read
at any time, for reading them does nothing.
-/

namespace LiveHeap.Bench

/-- The operations that a cycle under way can be interrupted by, and the step
that takes it further. -/
def Operation.resumes : Operation → Bool
  | .start | .step | .takeRemoved => true
  | _ => false

/-- The answers to a list of operations, in order. -/
def answers (b : Bench) : List Operation → List Answer
  | [] => []
  | op :: ops => (b.perform op).2 :: answers (b.perform op).1 ops

def Answer.handedOver : Answer → List Handle
  | .vertices vs => vs
  | _ => []

/-! ## Vertices put back -/

/-- The bench as it would be if some vertices had stayed with the collector,
which so far counted another number of released vertices. -/
def undrained (b : Bench) (taken : List Handle) (swept : Nat) : Bench :=
  { b with
    collector :=
      { b.collector with
        removed := taken ++ b.collector.removed
        lastStats := { b.collector.lastStats with swept } } }

theorem undrained_takeRemoved (b : Bench) (taken : List Handle) (swept : Nat) :
    b.takeRemoved.1.undrained (taken ++ b.takeRemoved.2) swept =
      b.undrained taken swept := by
  unfold undrained takeRemoved
  simp only [List.append_nil]

section Steps

variable (b : Bench) (taken : List Handle) (swept : Nat)

theorem markStep_undrained :
    (b.undrained taken swept).markStep = b.markStep.undrained taken swept := by
  unfold markStep undrained
  simp only
  split <;> rfl

/-- The step that ends the sweep counts the released vertices that the
collector holds, so the count may be another one. -/
theorem sweepStep_undrained :
    (b.undrained taken swept).sweepStep =
      b.sweepStep.undrained taken
        (b.undrained taken swept).sweepStep.collector.lastStats.swept := by
  unfold sweepStep undrained Collector.isMarked
  by_cases hend : min (b.collector.cursor + Collector.stepSize)
      b.collector.candidates.length = b.collector.candidates.length
  · simp only [if_pos hend, finishSweep, List.append_assoc]
  · simp only [if_neg hend, List.append_assoc]

theorem step_undrained :
    ∃ swept', (b.undrained taken swept).step =
      (b.step.1.undrained taken swept', b.step.2) := by
  have hphase : (b.undrained taken swept).collector.phase =
      b.collector.phase := rfl
  unfold step
  rw [hphase]
  cases b.collector.phase with
  | idle => exact ⟨swept, rfl⟩
  | rootScanning => exact ⟨swept, rfl⟩
  | marking =>
      rw [markStep_undrained]
      exact ⟨swept, rfl⟩
  | sweeping =>
      rw [sweepStep_undrained]
      exact ⟨_, rfl⟩

theorem finish_undrained :
    ∃ swept', (b.undrained taken swept).finish =
      (b.finish.1.undrained taken swept', b.finish.2) := by
  induction b using finish.induct generalizing swept with
  | case1 b hmore ih =>
      obtain ⟨swept₁, hstep⟩ := b.step_undrained taken swept
      obtain ⟨swept₂, hrest⟩ := ih swept₁
      have hmore' : (b.undrained taken swept).step.2 = true := by rwa [hstep]
      refine ⟨swept₂, ?_⟩
      rw [finish, dif_pos hmore', hstep, hrest, finish.eq_1 b, dif_pos hmore]
  | case2 b hover =>
      obtain ⟨swept₁, hstep⟩ := b.step_undrained taken swept
      have hover' : ¬ (b.undrained taken swept).step.2 = true := by rwa [hstep]
      refine ⟨swept₁, ?_⟩
      rw [finish, dif_neg hover', hstep, finish.eq_1 b, dif_neg hover]

end Steps

/-! ## One interruption -/

theorem start_of_inProgress {b : Bench}
    (hrunning : b.collector.inProgress = true) : b.start = b := by
  rw [start, if_pos hrunning]

theorem inProgress_start (b : Bench) :
    b.start.collector.inProgress = true := by
  unfold start
  split
  next hrunning => exact hrunning
  next => rfl

/-- A step says that the cycle still runs exactly if it does. -/
theorem step_flag (b : Bench) : b.step.2 = b.step.1.collector.inProgress := by
  unfold step
  cases hphase : b.collector.phase with
  | idle => simp [Collector.inProgress, hphase]
  | rootScanning => rfl
  | marking =>
      unfold markStep
      simp only
      split
      next => rfl
      next => simp [Collector.inProgress, hphase]
  | sweeping => rfl

theorem finish_of_more {b : Bench} (hmore : b.step.2 = true) :
    b.step.1.finish.1 = b.finish.1 := by
  rw [finish.eq_1 b, dif_pos hmore]

theorem finish_of_over {b : Bench} (hover : b.step.2 = false) :
    b.finish.1 = b.step.1 := by
  have hnot : ¬ b.step.2 = true := by simp [hover]
  rw [finish, dif_neg hnot]

/-- The cycle runs, and with the taken vertices put back it comes to the given
end. -/
structure Leads (taken : List Handle) (b ended : Bench) : Prop where
  running : b.collector.inProgress = true
  ends : ∃ swept, (b.undrained taken swept).finish.1 = ended

theorem leads_start (b : Bench) : b.start.Leads [] b.start.finish.1 where
  running := b.inProgress_start
  ends := ⟨b.start.collector.lastStats.swept, rfl⟩

theorem Leads.perform {taken : List Handle} {b ended : Bench}
    (h : b.Leads taken ended) {op : Operation} (hop : op.resumes = true)
    (hgoes : (b.perform op).2 ≠ .flag false) :
    (b.perform op).1.Leads (taken ++ (b.perform op).2.handedOver) ended := by
  obtain ⟨swept, hends⟩ := h.ends
  cases op with
  | start =>
      have hsame : (b.perform .start).1 = b := start_of_inProgress h.running
      have hnone : taken ++ (b.perform .start).2.handedOver = taken :=
        List.append_nil taken
      rwa [hsame, hnone]
  | step =>
      have hmore : b.step.2 = true := by
        have hflag : (b.perform .step).2 = .flag b.step.2 := rfl
        rw [hflag] at hgoes
        simpa using hgoes
      obtain ⟨swept', hstep⟩ := b.step_undrained taken swept
      have hmore' : (b.undrained taken swept).step.2 = true := by rwa [hstep]
      have hrest := finish_of_more hmore'
      rw [hstep, hends] at hrest
      have hnone : taken ++ (b.perform .step).2.handedOver = taken :=
        List.append_nil taken
      rw [hnone]
      exact ⟨b.step_flag.symm.trans hmore, swept', hrest⟩
  | takeRemoved =>
      refine ⟨h.running, swept, ?_⟩
      rw [← hends, ← undrained_takeRemoved b taken swept]
      rfl
  | finish => contradiction
  | collect => contradiction
  | addLive v => contradiction
  | setChildren v children => contradiction
  | setRoots roots => contradiction

theorem Leads.run {taken : List Handle} {b ended : Bench}
    (h : b.Leads taken ended) {ops : List Operation}
    (hops : ∀ op ∈ ops, op.resumes = true)
    (hgoes : .flag false ∉ b.answers ops) :
    (b.run ops).Leads
      (taken ++ (b.answers ops).flatMap Answer.handedOver) ended := by
  induction ops generalizing b taken with
  | nil =>
      rw [answers, List.flatMap_nil, List.append_nil]
      exact h
  | cons op ops ih =>
      rw [answers, List.mem_cons, not_or] at hgoes
      have hfirst := h.perform (hops op List.mem_cons_self) (Ne.symm hgoes.1)
      have hrest := ih hfirst
        (fun op' hop' => hops op' (List.mem_cons_of_mem op hop')) hgoes.2
      rw [answers, List.flatMap_cons, ← List.append_assoc]
      exact hrest

/-! ## The whole cycle -/

/-- The last step of a cycle ends it as finishing it does. -/
theorem perform_last {b : Bench} {last : Operation}
    (hlast : last = .finish ∨
      last = .step ∧ (b.perform last).2 = .flag false) :
    (b.perform last).1 = b.finish.1 := by
  rcases hlast with rfl | ⟨rfl, hover⟩
  · rfl
  · have hflag : b.step.2 = false := Answer.flag.inj hover
    exact (finish_of_over hflag).symm

/-- Two cycles come to the same, but for the count of released vertices in the
statistics. -/
structure SameOutcome (ended whole : Bench) (handedOver answer : List Handle) :
    Prop where
  live : ended.scene.live = whole.scene.live
  color : ∀ v, ended.collector.color v = whole.collector.color v
  traced : ended.traced = whole.traced
  released : ended.released = whole.released
  cycles : ended.collector.cycles = whole.collector.cycles
  marked : ended.collector.lastStats.marked = whole.collector.lastStats.marked
  maxGray :
    ended.collector.lastStats.maxGray = whole.collector.lastStats.maxGray
  handedOver : handedOver = answer

/-- A cycle that is started and then interrupted in any way, until a step says
that it is over or until it is finished, comes to what one full collection on
the same bench comes to.  The vertices taken on the way and those left at the
end are, in this order, the answer of the full collection. -/
theorem suspended_cycle_agrees (b : Bench) (ops : List Operation)
    (hops : ∀ op ∈ ops, op.resumes = true)
    (hgoes : .flag false ∉ b.start.answers ops) (last : Operation)
    (hlast : last = .finish ∨ last = .step ∧
      ((b.start.run ops).perform last).2 = .flag false) :
    let ended := ((b.start.run ops).perform last).1
    let taken := (b.start.answers ops).flatMap Answer.handedOver
    SameOutcome ended b.collect.1 (taken ++ ended.takeRemoved.2)
      b.collect.2 := by
  intro ended taken
  obtain ⟨swept, hends⟩ := (b.leads_start.run hops hgoes).ends
  obtain ⟨swept', hfinish⟩ := (b.start.run ops).finish_undrained taken swept
  have hended : ended = (b.start.run ops).finish.1 := perform_last hlast
  rw [List.nil_append, hfinish, ← hended] at hends
  have hwhole : b.collect = b.start.finish.1.takeRemoved := rfl
  rw [hwhole, ← hends]
  constructor <;> intros <;> rfl

/-- Two traced vertices, one pinned vertex, and more candidates than one step
of the sweep looks at. -/
def longSweep : Bench :=
  new ⟨[.pin ⟨3⟩, .visit ⟨1⟩], .ofList [(⟨1⟩, [⟨2⟩]), (⟨2⟩, [⟨1⟩])],
    (List.range 120).map Handle.mk⟩

/-- The sweep is under way when the first released vertices are taken. -/
theorem longSweep_agrees :
    let ops := [.step, .step, .takeRemoved, .start]
    let ended := ((longSweep.start.run ops).perform .step).1
    let taken := (longSweep.start.answers ops).flatMap Answer.handedOver
    (∀ op ∈ ops, op.resumes = true) ∧
      .flag false ∉ longSweep.start.answers ops ∧
      ((longSweep.start.run ops).perform .step).2 = .flag false ∧
      taken.length = 97 ∧ ended.takeRemoved.2.length = 20 ∧
      SameOutcome ended longSweep.collect.1 (taken ++ ended.takeRemoved.2)
        longSweep.collect.2 := by
  intro ops ended taken
  have hops : ∀ op ∈ ops, op.resumes = true := by
    simp [ops, Operation.resumes]
  have hgoes : .flag false ∉ longSweep.start.answers ops := by decide +kernel
  have hover : ((longSweep.start.run ops).perform .step).2 = .flag false := by
    decide +kernel
  refine ⟨hops, hgoes, hover, by decide +kernel, by decide +kernel, ?_⟩
  exact suspended_cycle_agrees longSweep ops hops hgoes .step
    (Or.inr ⟨rfl, hover⟩)

end LiveHeap.Bench
