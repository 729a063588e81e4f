import LiveHeap.Session.Stepper

/-!
# Playing steps back

Within a limit a machine plays back the steps that are pending, up to the first
one that fails (`Machine.run_eq`).  So a batch is a stretch of one long
playback, and two batches in a row are one batch of both lengths.
-/

namespace LiveHeap

variable {σ : Type} [Observer σ]

theorem playBack_append (o : σ) (entries later : List Entry) :
    playBack o (entries ++ later) =
      match playBack o entries with
      | (o, none) => playBack o later
      | (o, some e) => (o, some e) := by
  induction entries generalizing o with
  | nil => rfl
  | cons entry entries ih =>
      simp only [List.cons_append, playBack]
      split
      next o' _ => exact ih o'
      next => rfl

section Report

variable {o : σ} {e : Event}

theorem playBack_report (haccepted : (Observer.deliver o e).2 = none)
    (entries : List Entry) :
    playBack o (.report e :: entries) =
      playBack (Observer.deliver o e).1 entries := by
  simp [playBack, Entry.playBack, haccepted]

theorem playBack_refused {err : GraphError}
    (hrefused : (Observer.deliver o e).2 = some err) (entries : List Entry) :
    playBack o (.report e :: entries) =
      ((Observer.deliver o e).1, some (.graph err)) := by
  simp [playBack, Entry.playBack, hrefused]

end Report

/-- What came of playing steps back: the observer, how many steps were played
to their end, and the error that stopped the playback. -/
structure Played (σ : Type) where
  observer : σ
  count : Nat
  failed : Option EngineError

/-- Goes on from where a playback ended, unless it was stopped. -/
def Played.andThen (p : Played σ) (next : σ → Played σ) : Played σ :=
  match p.failed with
  | none => { next p.observer with count := p.count + (next p.observer).count }
  | some _ => p

def playSteps (o : σ) : List (List Entry) → Played σ
  | [] => ⟨o, 0, none⟩
  | entries :: steps =>
      match playBack o entries with
      | (o, none) =>
          let rest := playSteps o steps
          { rest with count := rest.count + 1 }
      | (o, some e) => ⟨o, 0, some e⟩

section Steps

variable {o o' : σ} {entries : List Entry} {e : EngineError}

theorem playSteps_moved (hplayed : playBack o entries = (o', none))
    (steps : List (List Entry)) :
    playSteps o (entries :: steps) =
      { playSteps o' steps with count := (playSteps o' steps).count + 1 } := by
  rw [playSteps, hplayed]

theorem playSteps_failed (hplayed : playBack o entries = (o', some e))
    (steps : List (List Entry)) :
    playSteps o (entries :: steps) = ⟨o', 0, some e⟩ := by
  rw [playSteps, hplayed]

end Steps

theorem count_playSteps {o : σ} {steps : List (List Entry)}
    (hplayed : (playSteps o steps).failed = none) :
    (playSteps o steps).count = steps.length := by
  induction steps generalizing o with
  | nil => rfl
  | cons entries steps ih =>
      cases hfirst : playBack o entries with
      | mk o' failed =>
          cases failed with
          | none =>
              rw [playSteps_moved hfirst] at hplayed ⊢
              exact congrArg Nat.succ (ih hplayed)
          | some e =>
              rw [playSteps_failed hfirst] at hplayed
              contradiction

theorem playBack_flatten (o : σ) (steps : List (List Entry)) :
    playBack o steps.flatten =
      ((playSteps o steps).observer, (playSteps o steps).failed) := by
  induction steps generalizing o with
  | nil => rfl
  | cons entries steps ih =>
      rw [List.flatten_cons, playBack_append]
      cases hfirst : playBack o entries with
      | mk o' failed =>
          cases failed with
          | none =>
              rw [playSteps_moved hfirst]
              exact ih o'
          | some e => rw [playSteps_failed hfirst]

theorem playSteps_append (o : σ) (steps later : List (List Entry)) :
    playSteps o (steps ++ later) =
      (playSteps o steps).andThen fun o => playSteps o later := by
  induction steps generalizing o with
  | nil => simp [playSteps, Played.andThen]
  | cons entries steps ih =>
      rw [List.cons_append]
      cases hfirst : playBack o entries with
      | mk o' failed =>
          cases failed with
          | none =>
              rw [playSteps_moved hfirst, playSteps_moved hfirst, ih o']
              unfold Played.andThen
              cases hrest : (playSteps o' steps).failed with
              | none => simp [Nat.add_right_comm]
              | some e => simp [hrest]
          | some e =>
              rw [playSteps_failed hfirst, playSteps_failed hfirst]
              rfl

namespace Machine

/-- The steps that were not played back yet. -/
def pending (m : Machine) : List (List Entry) := m.steps.drop m.position

def skip (m : Machine) (count : Nat) : Machine :=
  { m with position := m.position + count }

theorem length_pending (m : Machine) : m.pending.length = m.remaining :=
  List.length_drop

theorem pending_skip (m : Machine) (count : Nat) :
    (m.skip count).pending = m.pending.drop count := by
  unfold pending skip
  rw [List.drop_drop]

theorem skip_skip (m : Machine) (count later : Nat) :
    (m.skip count).skip later = m.skip (count + later) := by
  simp [skip, Nat.add_assoc]

theorem advance_of_nil {m : Machine} (o : σ) (hpending : m.pending = []) :
    m.advance o = (m, o, .exhausted) := by
  have hnone : m.steps[m.position]? = none := by
    rw [List.getElem?_eq_none_iff]
    exact List.drop_eq_nil_iff.mp hpending
  unfold advance
  rw [hnone]

theorem advance_of_cons {m : Machine} (o : σ) {entries : List Entry}
    {later : List (List Entry)} (hpending : m.pending = entries :: later) :
    m.advance o =
      match playBack o entries with
      | (o, none) => (m.skip 1, o, .moved)
      | (o, some e) => (m, o, .failed (m.engine.raise e)) := by
  have hnext : m.steps[m.position]? = some entries := by
    have hhead := congrArg List.head? hpending
    rw [pending, List.head?_drop] at hhead
    exact hhead
  unfold advance
  rw [hnext]
  rfl

def stretch (m : Machine) (limit : Nat) (p : Played σ) : Stretch σ where
  machine := m.skip p.count
  observer := p.observer
  steps := p.count
  ending :=
    match p.failed with
    | some e => .failed (m.engine.raise e)
    | none => if limit ≤ m.remaining then .full else .exhausted

theorem run_moved {m : Machine} {o o' : σ}
    (hmoved : m.advance o = (m.skip 1, o', .moved)) (limit : Nat) :
    m.run (limit + 1) o =
      { (m.skip 1).run limit o' with
        steps := ((m.skip 1).run limit o').steps + 1 } := by
  rw [run, hmoved]

theorem run_eq (limit : Nat) (m : Machine) (o : σ) :
    m.run limit o =
      m.stretch limit (playSteps o (m.pending.take limit)) := by
  induction limit generalizing m o with
  | zero => simp [run, stretch, playSteps, skip]
  | succ limit ih =>
      have hlength := m.length_pending
      cases hpending : m.pending with
      | nil =>
          rw [hpending, List.length_nil] at hlength
          rw [run, advance_of_nil o hpending]
          simp [stretch, playSteps, skip, ← hlength]
      | cons entries later =>
          rw [hpending, List.length_cons] at hlength
          have hlater : (m.skip 1).pending = later := by
            rw [pending_skip, hpending]
            rfl
          have hleft : (m.skip 1).remaining = later.length := by
            rw [← length_pending, hlater]
          have hadvance := advance_of_cons o hpending
          rw [List.take_succ_cons]
          cases hfirst : playBack o entries with
          | mk o' failed =>
              rw [hfirst] at hadvance
              cases failed with
              | none =>
                  rw [run_moved hadvance, playSteps_moved hfirst, ih, hlater]
                  simp only [stretch, skip_skip, hleft, ← hlength,
                    Nat.add_le_add_iff_right, Nat.add_comm 1]
                  rfl
              | some e =>
                  rw [run, hadvance, playSteps_failed hfirst]
                  rfl

/-- The error of a session whose playback was stopped by an error. -/
def failure (m : Machine) (count : Nat) (e : EngineError) : SessionError :=
  .ofStep (m.skip count).stackInfo (m.engine.raise e)

theorem failure_skip (m : Machine) (count later : Nat) (e : EngineError) :
    (m.skip count).failure later e = m.failure (count + later) e := by
  unfold failure
  rw [skip_skip]
  rfl

end Machine

/-! ## Batches -/

namespace Stepper

/-- The stepper when steps were played back, before the end of the batch. -/
def played (s : Stepper σ) (m : Machine) (p : Played σ) : Stepper σ :=
  { s with
    session := .ok (m.skip p.count)
    observer := p.observer
    status := .stepping
    steps := s.steps + p.count }

/-- The stepper at the end of a batch after which it goes on. -/
def yielding (s : Stepper σ) (m : Machine) (p : Played σ) : Stepper σ :=
  { (s.played m p).collectAtBoundary with yields := s.yields + 1 }

def ended (s : Stepper σ) (m : Machine) (p : Played σ) : Stepper σ :=
  { (s.played m p).collectAtBoundary with status := .done }

theorem collectAtBoundary_eq (s : Stepper σ) :
    s.collectAtBoundary =
      { s with observer := s.collectAtBoundary.observer } := by
  unfold collectAtBoundary
  split <;> rfl

theorem yielding_eq (s : Stepper σ) (m : Machine) (p : Played σ) :
    s.yielding m p =
      { s with
        session := .ok (m.skip p.count)
        observer := (s.played m p).collectAtBoundary.observer
        status := .stepping
        steps := s.steps + p.count
        yields := s.yields + 1 } := by
  rw [yielding, collectAtBoundary_eq]
  rfl

theorem ended_eq (s : Stepper σ) (m : Machine) (p : Played σ) :
    s.ended m p =
      { s with
        session := .ok (m.skip p.count)
        observer := (s.played m p).collectAtBoundary.observer
        status := .done
        steps := s.steps + p.count } := by
  rw [ended, collectAtBoundary_eq]
  rfl

theorem runBatch_of_ok {s : Stepper σ} {m : Machine} (hs : s.session = .ok m)
    (hrunning : s.status ≠ .done) : s.runBatch = s.runMachine m := by
  rw [runBatch, if_neg hrunning, hs]

section RunMachine

variable {s : Stepper σ} {m : Machine} {p : Played σ}
  (hp : playSteps s.observer (m.pending.take s.batchSize) = p)

include hp

theorem runMachine_of_failed {e : EngineError} (hfailed : p.failed = some e) :
    s.runMachine m =
      ({ s.played m p with
          session := .error (m.failure p.count e), status := .error },
        .failed (m.failure p.count e)) := by
  rw [runMachine, Machine.run_eq, hp]
  simp only [Machine.stretch, hfailed]
  rfl

theorem runMachine_of_full (hplayed : p.failed = none)
    (hfull : s.batchSize ≤ m.remaining) :
    s.runMachine m = (s.yielding m p, .yielded) := by
  rw [runMachine, Machine.run_eq, hp]
  simp only [Machine.stretch, hplayed, if_pos hfull]
  rfl

theorem runMachine_of_short (hplayed : p.failed = none)
    (hshort : m.remaining < s.batchSize) :
    s.runMachine m = (s.ended m p, .done) := by
  rw [runMachine, Machine.run_eq, hp]
  simp only [Machine.stretch, hplayed, if_neg (Nat.not_le_of_lt hshort)]
  rfl

end RunMachine

end Stepper

end LiveHeap
