import LiveHeap.Proofs.Graph.Changes
import LiveHeap.Proofs.Graph.Flags
import LiveHeap.Proofs.Session.Lockstep
import LiveHeap.Session.Stream

/-!
# The cadence of emissions

Emitting a snapshot takes the flag of changes down, and nothing in a session
reads this flag.  So two streams over one session stay in step whatever their
intervals and clocks are: they differ in when they emit, not in what there is
to see.
-/

namespace LiveHeap

namespace Graph.Reflagged

variable {g g' g'' : Graph}

theorem symm (h : g.Reflagged g') : g'.Reflagged g := by
  rcases h with ⟨changed, rfl⟩
  exact ⟨g.changed, rfl⟩

theorem trans (h : g.Reflagged g') (h' : g'.Reflagged g'') :
    g.Reflagged g'' := by
  rcases h with ⟨_, rfl⟩
  rcases h' with ⟨changed, rfl⟩
  exact ⟨changed, rfl⟩

theorem eq (h : g.Reflagged g') : g' = { g with changed := g'.changed } := by
  rcases h with ⟨changed, rfl⟩
  rfl

theorem snapshot (h : g.Reflagged g') : g'.snapshot = g.snapshot := by
  rcases h with ⟨changed, rfl⟩
  exact snapshot_of_slots rfl rfl

theorem finalSnapshot (h : g.Reflagged g') :
    g'.finalSnapshot = g.finalSnapshot := by
  have hsnapshot := h.snapshot
  rcases h with ⟨changed, rfl⟩
  unfold Graph.finalSnapshot
  rw [hsnapshot]
  rfl

end Graph.Reflagged

theorem lockstep_reflagged : Lockstep Graph.Reflagged :=
  fun h e => h.observe e

theorem collectsAlike_reflagged : CollectsAlike Graph.Reflagged where
  pending h := by
    rcases h with ⟨changed, rfl⟩
    rfl
  collect h := h.collect.state

/-- The session goes on, and the stream emits what there is to see, or
nothing. -/
def Tick.GoesOn (shown : Snapshot) (r : Tick) : Prop :=
  r = .pending ∨ r = .snapshot shown

/-- No snapshot follows, for the session or the stream is over. -/
def Tick.isLast : Tick → Bool
  | finished _ | failed _ | closed => true
  | pending | snapshot _ => false

/-- The answers of two streams in step: both go on, or both end alike. -/
def Tick.Agree (shown : Snapshot) (r r' : Tick) : Prop :=
  r.GoesOn shown ∧ r'.GoesOn shown ∨ r' = r ∧ r.isLast = true

namespace Stream

def after (s : Stream) (clock : Nat → Nat) : Nat → Stream
  | 0 => s
  | count + 1 => ((s.after clock count).tick (clock count)).1

/-- Two streams that nobody stopped, over sessions that differ in the flag of
changes alone. -/
structure InStep (s s' : Stream) : Prop where
  stepper : s.stepper.Alike Graph.Reflagged s'.stepper
  closed : s'.closed = s.closed
  running : s.stopRequested = false
  running' : s'.stopRequested = false

variable {s s' : Stream}

theorem tick_of_closed (hclosed : s.closed = true) (now : Nat) :
    s.tick now = (s, .closed) := by
  rw [tick, if_pos hclosed]

theorem tick_of_running (hopen : ¬ s.closed = true)
    (hrunning : s.stopRequested = false) (now : Nat) :
    s.tick now =
      match s.stepper.runBatch with
      | (stepper, .yielded) => emitIfDue { s with stepper } now
      | (stepper, .done) =>
          ({ s with stepper, closed := true, emitted := s.emitted + 1 },
            .finished stepper.observer.finalSnapshot)
      | (stepper, .failed e) =>
          ({ s with stepper, closed := true }, .failed e) := by
  have hgoes : ¬ s.stopRequested = true := by simp [hrunning]
  rw [tick, if_neg hopen, if_neg hgoes]
  rcases s.stepper.runBatch with ⟨stepper, _ | _ | e⟩ <;> rfl

/-- What an emission leaves alone: all but the flag of the graph. -/
structure Emits (s : Stream) (t : Stream × Tick) : Prop where
  graph : s.graph.Reflagged t.1.graph
  stepper : t.1.stepper = { s.stepper with observer := t.1.graph }
  closed : t.1.closed = s.closed
  stopRequested : t.1.stopRequested = s.stopRequested
  answer : t.2.GoesOn t.1.graph.snapshot

theorem emits_emitIfDue (s : Stream) (now : Nat) :
    s.Emits (s.emitIfDue now) := by
  unfold emitIfDue
  split
  · have hgraph : s.graph.Reflagged s.graph.takeSnapshot.1 := ⟨false, rfl⟩
    refine ⟨hgraph, rfl, rfl, rfl, Or.inr ?_⟩
    exact congrArg Tick.snapshot hgraph.snapshot.symm
  · exact ⟨⟨s.graph.changed, rfl⟩, rfl, rfl, rfl, Or.inl rfl⟩

namespace InStep

/-- Two emissions keep two streams in step, also if only one stream emits. -/
theorem emit (h : s.InStep s') {t t' : Stream × Tick} (ht : s.Emits t)
    (ht' : s'.Emits t') :
    t.1.InStep t'.1 ∧ Tick.Agree t.1.graph.snapshot t.2 t'.2 := by
  have hgraph : t.1.graph.Reflagged t'.1.graph :=
    ht.graph.symm.trans (h.stepper.observer.trans ht'.graph)
  have hrest := h.stepper.rest
  constructor
  · constructor
    · constructor
      · exact hgraph
      · rw [ht'.stepper, ht.stepper, hrest]
    · rw [ht'.closed, ht.closed, h.closed]
    · rw [ht.stopRequested, h.running]
    · rw [ht'.stopRequested, h.running']
  · have hanswer' := ht'.answer
    rw [hgraph.snapshot] at hanswer'
    exact Or.inl ⟨ht.answer, hanswer'⟩

theorem tick (h : s.InStep s') (now now' : Nat) :
    (s.tick now).1.InStep (s'.tick now').1 ∧
      Tick.Agree (s.tick now).1.graph.snapshot (s.tick now).2
        (s'.tick now').2 := by
  have hbatch := h.stepper.runBatch lockstep_reflagged
    collectsAlike_reflagged
  by_cases hclosed : s.closed = true
  · rw [tick_of_closed hclosed, tick_of_closed (h.closed.trans hclosed)]
    exact ⟨h, Or.inr ⟨rfl, rfl⟩⟩
  · have hclosed' : ¬ s'.closed = true := by rwa [h.closed]
    rw [tick_of_running hclosed h.running,
      tick_of_running hclosed' h.running']
    generalize s.stepper.runBatch = ran at hbatch ⊢
    generalize s'.stepper.runBatch = ran' at hbatch ⊢
    rcases ran with ⟨stepper, batch⟩
    rcases ran' with ⟨stepper', batch'⟩
    have hstepper := hbatch.1
    obtain rfl : batch = batch' := hbatch.2
    have hstep : InStep { s with stepper } { s' with stepper := stepper' } :=
      ⟨hstepper, h.closed, h.running, h.running'⟩
    cases batch with
    | yielded =>
        exact hstep.emit (emits_emitIfDue _ now) (emits_emitIfDue _ now')
    | done =>
        refine ⟨⟨hstepper, rfl, h.running, h.running'⟩, Or.inr ⟨?_, rfl⟩⟩
        exact congrArg Tick.finished hstepper.observer.finalSnapshot
    | failed e =>
        exact ⟨⟨hstepper, rfl, h.running, h.running'⟩, Or.inr ⟨rfl, rfl⟩⟩

theorem after (h : s.InStep s') (clock clock' : Nat → Nat) (count : Nat) :
    (s.after clock count).InStep (s'.after clock' count) := by
  induction count with
  | zero => exact h
  | succ count ih => exact (ih.tick _ _).1

end InStep

theorem inStep_new (engine : Engine) (source : String) (options : Options)
    (interval interval' : Nat) :
    (new engine source (options.withSnapshotInterval interval)).InStep
      (new engine source (options.withSnapshotInterval interval')) :=
  ⟨⟨⟨_, rfl⟩, rfl⟩, rfl, rfl, rfl⟩

end Stream

theorem Tick.GoesOn.isLast {shown : Snapshot} {r : Tick}
    (h : r.GoesOn shown) : r.isLast = false := by
  rcases h with hr | hr
  · rw [hr]
    rfl
  · rw [hr]
    rfl

theorem Tick.Agree.eq_last_iff {shown : Snapshot} {r r' last : Tick}
    (h : r.Agree shown r') (hlast : last.isLast = true) :
    r' = last ↔ r = last := by
  rcases h with ⟨hr, hr'⟩ | ⟨hsame, _⟩
  · constructor
    · intro heq
      rw [← heq, hr'.isLast] at hlast
      contradiction
    · intro heq
      rw [← heq, hr.isLast] at hlast
      contradiction
  · rw [hsame]

/-- Two streams over one session, with any two intervals and any two clocks.
After the same number of ticks their sessions differ in the flag of changes at
most.  In the next tick both go on, each with a snapshot of what there is to see
or without one, or both end alike; so the last item is the same and comes at the
same tick. -/
theorem emission_leaves_session_alone (engine : Engine) (source : String)
    (options : Options) (interval interval' : Nat) (clock clock' : Nat → Nat)
    (count : Nat) :
    let s := (Stream.new engine source
      (options.withSnapshotInterval interval)).after clock count
    let s' := (Stream.new engine source
      (options.withSnapshotInterval interval')).after clock' count
    let t := s.tick (clock count)
    let t' := s'.tick (clock' count)
    s'.stepper =
        { s.stepper with
          observer := { s.graph with changed := s'.graph.changed } } ∧
      (t.2.GoesOn t.1.graph.snapshot ∧ t'.2.GoesOn t.1.graph.snapshot ∨
        t'.2 = t.2 ∧ t.2.isLast = true) ∧
      (∀ x, t'.2 = .finished x ↔ t.2 = .finished x) ∧
      ∀ e, t'.2 = .failed e ↔ t.2 = .failed e := by
  intro s s' t t'
  have hstep : s.InStep s' :=
    (Stream.inStep_new engine source options interval interval').after
      clock clock' count
  have hagree : Tick.Agree t.1.graph.snapshot t.2 t'.2 :=
    (hstep.tick (clock count) (clock' count)).2
  have hgraph : s'.graph = { s.graph with changed := s'.graph.changed } :=
    hstep.stepper.observer.eq
  refine ⟨?_, hagree, fun x => ?_, fun e => ?_⟩
  · rw [← hgraph]
    exact hstep.stepper.rest
  · exact hagree.eq_last_iff rfl
  · exact hagree.eq_last_iff rfl

end LiveHeap
