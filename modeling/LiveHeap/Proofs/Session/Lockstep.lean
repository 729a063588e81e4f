import LiveHeap.Proofs.Graph.Congruence
import LiveHeap.Proofs.Session.Playback

/-!
# Observers in lockstep

A relation that every event keeps, with the same refusals on both sides, is
kept by whole playbacks.  Two steppers with such observers then run in
lockstep, batch by batch.  If collections keep the relation on one side alone,
then the size of the batches has no part in what a session comes to.
-/

namespace LiveHeap

variable {σ : Type} [Observer σ] {r : σ → σ → Prop} {o o' : σ}

/-- The relation outlives every event, which both observers answer alike. -/
def Lockstep (r : σ → σ → Prop) : Prop :=
  ∀ {o o'}, r o o' → ∀ e,
    SameAnswer r (Observer.deliver o e) (Observer.deliver o' e)

/-- Playbacks of one length with the same error, and related observers. -/
structure Played.Alike (r : σ → σ → Prop) (p q : Played σ) : Prop where
  observer : r p.observer q.observer
  count : p.count = q.count
  failed : p.failed = q.failed

namespace Lockstep

variable (h : Lockstep r)

include h

theorem entry (hr : r o o') (entry : Entry) :
    SameAnswer r (entry.playBack o) (entry.playBack o') := by
  cases entry with
  | report e =>
      have hstep := h hr e
      constructor
      · exact hstep.state
      · exact congrArg (Option.map EngineError.graph) hstep.answer
  | throw message => exact ⟨hr, rfl⟩

theorem playBack (hr : r o o') (entries : List Entry) :
    SameAnswer r (LiveHeap.playBack o entries)
      (LiveHeap.playBack o' entries) := by
  induction entries generalizing o o' with
  | nil => exact ⟨hr, rfl⟩
  | cons entry entries ih =>
      have hfirst := h.entry hr entry
      unfold LiveHeap.playBack
      cases hx : entry.playBack o with
      | mk o₁ failed =>
          cases hy : entry.playBack o' with
          | mk o₁' failed' =>
              rw [hx, hy] at hfirst
              obtain rfl : failed = failed' := hfirst.answer
              cases failed with
              | none => exact ih hfirst.state
              | some e => exact hfirst

theorem playSteps (hr : r o o') (steps : List (List Entry)) :
    (LiveHeap.playSteps o steps).Alike r (LiveHeap.playSteps o' steps) := by
  induction steps generalizing o o' with
  | nil => exact ⟨hr, rfl, rfl⟩
  | cons entries steps ih =>
      have hfirst := h.playBack hr entries
      cases hx : LiveHeap.playBack o entries with
      | mk o₁ failed =>
          cases hy : LiveHeap.playBack o' entries with
          | mk o₁' failed' =>
              rw [hx, hy] at hfirst
              obtain rfl : failed = failed' := hfirst.answer
              cases failed with
              | none =>
                  have hrest := ih hfirst.state
                  rw [playSteps_moved hx, playSteps_moved hy]
                  constructor
                  · exact hrest.observer
                  · exact congrArg Nat.succ hrest.count
                  · exact hrest.failed
              | some e =>
                  rw [playSteps_failed hx, playSteps_failed hy]
                  exact ⟨hfirst.state, rfl, rfl⟩

end Lockstep

/-! ## Batches in lockstep -/

/-- Both collect at the same time, and the relation outlives it. -/
structure CollectsAlike (r : σ → σ → Prop) : Prop where
  pending : ∀ {o o'}, r o o' →
    Observer.collectionPending o = Observer.collectionPending o'
  collect : ∀ {o o'}, r o o' → r (Observer.collect o) (Observer.collect o')

/-- The second stepper is the first one with a related observer. -/
structure Stepper.Alike (r : σ → σ → Prop) (s s' : Stepper σ) : Prop where
  observer : r s.observer s'.observer
  rest : s' = { s with observer := s'.observer }

namespace Stepper.Alike

variable {s s' : Stepper σ}

theorem collectAtBoundary (hs : s.Alike r s') (hc : CollectsAlike r) :
    s.collectAtBoundary.Alike r s'.collectAtBoundary := by
  have hrest := hs.rest
  have hpending := hc.pending hs.observer
  have hgarbage : s'.collectGarbage = s.collectGarbage := by rw [hrest]
  unfold Stepper.collectAtBoundary
  rw [hgarbage, ← hpending]
  split
  · constructor
    · exact hc.collect hs.observer
    · rw [hrest]
  · exact hs

theorem runMachine (hs : s.Alike r s') (h : Lockstep r)
    (hc : CollectsAlike r) (m : Machine) :
    (s.runMachine m).1.Alike r (s'.runMachine m).1 ∧
      (s.runMachine m).2 = (s'.runMachine m).2 := by
  have hrest := hs.rest
  have hsize : s'.batchSize = s.batchSize := by rw [hrest]
  have hplayed := h.playSteps hs.observer (m.pending.take s.batchSize)
  generalize hp : playSteps s.observer (m.pending.take s.batchSize) = p
    at hplayed
  generalize hq : playSteps s'.observer (m.pending.take s.batchSize) = q
    at hplayed
  rw [← hsize] at hq
  have hmoved : (s.played m p).Alike r (s'.played m q) := by
    constructor
    · exact hplayed.observer
    · unfold Stepper.played
      rw [hrest, hplayed.count]
  cases hfailed : p.failed with
  | some e =>
      rw [runMachine_of_failed hp hfailed,
        runMachine_of_failed hq (hplayed.failed.symm.trans hfailed),
        hplayed.count]
      refine ⟨⟨hmoved.observer, ?_⟩, rfl⟩
      rw [hmoved.rest]
  | none =>
      have hfailed' := hplayed.failed.symm.trans hfailed
      have hend := hmoved.collectAtBoundary hc
      rcases Nat.lt_or_ge m.remaining s.batchSize with hshort | hfull
      · rw [runMachine_of_short hp hfailed hshort,
          runMachine_of_short hq hfailed' (hsize ▸ hshort)]
        refine ⟨⟨hend.observer, ?_⟩, rfl⟩
        rw [ended, ended, hend.rest]
      · rw [runMachine_of_full hp hfailed hfull,
          runMachine_of_full hq hfailed' (hsize ▸ hfull)]
        refine ⟨⟨hend.observer, ?_⟩, rfl⟩
        rw [yielding, yielding, hend.rest, hrest]

theorem runBatch (hs : s.Alike r s') (h : Lockstep r)
    (hc : CollectsAlike r) :
    s.runBatch.1.Alike r s'.runBatch.1 ∧ s.runBatch.2 = s'.runBatch.2 := by
  have hstatus : s'.status = s.status := by rw [hs.rest]
  have hsession : s'.session = s.session := by rw [hs.rest]
  by_cases hdone : s.status = .done
  · unfold Stepper.runBatch
    rw [hstatus, if_pos hdone, if_pos hdone]
    exact ⟨hs, rfl⟩
  · cases hopen : s.session with
    | error e =>
        unfold Stepper.runBatch
        rw [hstatus, if_neg hdone, if_neg hdone, hsession, hopen]
        exact ⟨hs, rfl⟩
    | ok m =>
        rw [runBatch_of_ok hopen hdone,
          runBatch_of_ok (hsession.trans hopen) (hstatus ▸ hdone)]
        exact hs.runMachine h hc m

end Stepper.Alike

/-! ## Whole sessions -/

/-- What a session answers in the end. -/
def Machine.answer (m : Machine) (p : Played σ) : Except SessionError Unit :=
  match p.failed with
  | none => .ok ()
  | some e => .error (m.failure p.count e)

omit [Observer σ] in
theorem Machine.answer_skip (m : Machine) {p : Played σ}
    (hplayed : p.failed = none) (next : σ → Played σ) :
    (m.skip p.count).answer (next p.observer) = m.answer (p.andThen next) := by
  unfold answer Played.andThen
  simp only [hplayed, failure_skip]

/-- How a session ends that plays back all pending steps of its machine. -/
structure Stepper.Ends (r : σ → σ → Prop) (s : Stepper σ) (m : Machine)
    (p : Played σ) (ended : Stepper σ × Except SessionError Unit) : Prop where
  observer : r ended.1.observer p.observer
  steps : ended.1.steps = s.steps + p.count
  answer : ended.2 = m.answer p

namespace Stepper

variable {s s' : Stepper σ}

theorem runToCompletion_of_yielded (hbatch : s.runBatch = (s', .yielded)) :
    s.runToCompletion = s'.runToCompletion := by
  rw [runToCompletion]
  split
  next heq => rw [(Prod.mk.inj (hbatch.symm.trans heq)).1]
  next heq => cases hbatch.symm.trans heq
  next heq => cases hbatch.symm.trans heq

theorem runToCompletion_of_done (hbatch : s.runBatch = (s', .done)) :
    s.runToCompletion = (s', .ok ()) := by
  rw [runToCompletion]
  split
  next heq => cases hbatch.symm.trans heq
  next heq => rw [(Prod.mk.inj (hbatch.symm.trans heq)).1]
  next heq => cases hbatch.symm.trans heq

theorem runToCompletion_of_failed {e : SessionError}
    (hbatch : s.runBatch = (s', .failed e)) :
    s.runToCompletion = (s', .error e) := by
  rw [runToCompletion]
  split
  next heq => cases hbatch.symm.trans heq
  next heq => cases hbatch.symm.trans heq
  next heq => cases hbatch.symm.trans heq; rfl

theorem runToCompletion_of_error {e : SessionError}
    (hs : s.session = .error e) (hstatus : s.status = .error) :
    s.runToCompletion = (s, .error e) := by
  have hrunning : s.status ≠ .done := by
    rw [hstatus]
    exact Status.noConfusion
  apply runToCompletion_of_failed
  rw [runBatch, if_neg hrunning, hs]

/-- A session that does not open is over from the start. -/
theorem new_of_error {engine : Engine} {source : String} {e : SessionError}
    (hopen : engine.openSession source o = (.error e, o')) (options : Options) :
    (new engine source o options).session = .error e ∧
      (new engine source o options).observer = o' ∧
      (new engine source o options).status = .error ∧
      (new engine source o options).runToCompletion =
        (new engine source o options, .error e) := by
  have hsession : (new engine source o options).session = .error e :=
    congrArg Prod.fst hopen
  have hstatus : (new engine source o options).status = .error := by
    unfold new
    rw [hopen]
  exact ⟨hsession, congrArg Prod.snd hopen, hstatus,
    runToCompletion_of_error hsession hstatus⟩

theorem observer_collectAtBoundary (hr : r s.observer o)
    (hcollect : s.collectGarbage = true →
      ∀ o₁ o₂, r o₁ o₂ → r (Observer.collect o₁) o₂) :
    r s.collectAtBoundary.observer o := by
  unfold collectAtBoundary
  split
  next hdue => exact hcollect (Bool.and_eq_true_iff.mp hdue).1 _ _ hr
  next => exact hr

section Ends

variable {m : Machine} {p q : Played σ}

theorem ends_of_failed {e : EngineError}
    (hp : playSteps s.observer (m.pending.take s.batchSize) = p)
    (hbatch : s.runBatch = s.runMachine m) (hplayed : p.Alike r q)
    (hfailed : p.failed = some e) : s.Ends r m q s.runToCompletion := by
  rw [runMachine_of_failed hp hfailed] at hbatch
  rw [runToCompletion_of_failed hbatch]
  constructor
  · exact hplayed.observer
  · exact congrArg (s.steps + ·) hplayed.count
  · have hfailed' := hplayed.failed.symm.trans hfailed
    rw [Machine.answer, hfailed', hplayed.count]

theorem ends_of_short
    (hp : playSteps s.observer (m.pending.take s.batchSize) = p)
    (hbatch : s.runBatch = s.runMachine m) (hplayed : p.Alike r q)
    (hfailed : p.failed = none) (hshort : m.remaining < s.batchSize)
    (hboundary : r (s.ended m p).observer q.observer) :
    s.Ends r m q s.runToCompletion := by
  rw [runMachine_of_short hp hfailed hshort] at hbatch
  rw [runToCompletion_of_done hbatch]
  constructor
  · exact hboundary
  · rw [ended_eq]
    exact congrArg (s.steps + ·) hplayed.count
  · have hfailed' := hplayed.failed.symm.trans hfailed
    rw [Machine.answer, hfailed']

theorem ends_of_full {next : σ → Played σ}
    (hp : playSteps s.observer (m.pending.take s.batchSize) = p)
    (hbatch : s.runBatch = s.runMachine m) (hplayed : p.Alike r q)
    (hfailed : p.failed = none) (hfull : s.batchSize ≤ m.remaining)
    (hrest : (s.yielding m p).Ends r (m.skip p.count) (next q.observer)
      (s.yielding m p).runToCompletion) :
    s.Ends r m (q.andThen next) s.runToCompletion := by
  have hfailed' := hplayed.failed.symm.trans hfailed
  have hthen : q.andThen next =
      { next q.observer with
        count := q.count + (next q.observer).count } := by
    unfold Played.andThen
    rw [hfailed']
  have hsteps := hrest.steps
  rw [runMachine_of_full hp hfailed hfull] at hbatch
  rw [runToCompletion_of_yielded hbatch]
  constructor
  · rw [hthen]
    exact hrest.observer
  · rw [hsteps, yielding_eq, hthen, hplayed.count]
    exact Nat.add_assoc ..
  · rw [hrest.answer, hplayed.count, Machine.answer_skip m hfailed']

end Ends

end Stepper

/-- Wherever the batches end, the session ends as one long playback does, with
the observer related to that of the playback. -/
theorem Lockstep.ends (h : Lockstep r) {s : Stepper σ} {m : Machine}
    (hs : s.session = .ok m) (hrunning : s.status ≠ .done)
    (hr : r s.observer o)
    (hcollect : s.collectGarbage = true →
      ∀ o₁ o₂, r o₁ o₂ → r (Observer.collect o₁) o₂) :
    s.Ends r m (LiveHeap.playSteps o m.pending) s.runToCompletion := by
  -- A full batch leaves fewer steps to play back, and at its end the observer
  -- is still related, whether a collection ran or not.
  induction hleft : m.remaining using Nat.strongRecOn
    generalizing s m o with
  | ind left ih =>
      have hplayed := h.playSteps hr (m.pending.take s.batchSize)
      have hsplit := playSteps_append o (m.pending.take s.batchSize)
        (m.pending.drop s.batchSize)
      rw [List.take_append_drop] at hsplit
      have hbatch := Stepper.runBatch_of_ok hs hrunning
      generalize hp : LiveHeap.playSteps s.observer
        (m.pending.take s.batchSize) = p at hplayed
      generalize hq : LiveHeap.playSteps o
        (m.pending.take s.batchSize) = q at hplayed hsplit
      cases hfailed : p.failed with
      | some e =>
          have hall : LiveHeap.playSteps o m.pending = q := by
            have hfailed' := hplayed.failed.symm.trans hfailed
            rw [hsplit, Played.andThen, hfailed']
          rw [hall]
          exact Stepper.ends_of_failed hp hbatch hplayed hfailed
      | none =>
          have hboundary : r (s.played m p).collectAtBoundary.observer
              q.observer :=
            Stepper.observer_collectAtBoundary hplayed.observer hcollect
          rcases Nat.lt_or_ge m.remaining s.batchSize with hshort | hfull
          · have hall : LiveHeap.playSteps o m.pending = q := by
              rw [← hq, List.take_of_length_le]
              rw [m.length_pending]
              exact Nat.le_of_lt hshort
            rw [hall]
            exact Stepper.ends_of_short hp hbatch hplayed hfailed hshort
              hboundary
          · have hcount : p.count = s.batchSize := by
              have hlength := count_playSteps (hp ▸ hfailed)
              rw [hp, List.length_take, m.length_pending] at hlength
              omega
            have hless : (m.skip p.count).remaining < left := by
              have hpos := s.batchSize_pos
              simp only [Machine.skip, Machine.remaining] at hleft hfull ⊢
              omega
            have hrest : (s.yielding m p).Ends r (m.skip p.count)
                (LiveHeap.playSteps q.observer (m.skip p.count).pending)
                (s.yielding m p).runToCompletion := by
              apply ih _ hless
              · rw [Stepper.yielding_eq]
              · rw [Stepper.yielding_eq]
                exact Status.noConfusion
              · exact hboundary
              · rw [Stepper.yielding_eq]
                exact hcollect
              · rfl
            rw [Machine.pending_skip, hcount] at hrest
            rw [hsplit]
            exact Stepper.ends_of_full hp hbatch hplayed hfailed hfull
              (by rwa [hcount])

end LiveHeap
