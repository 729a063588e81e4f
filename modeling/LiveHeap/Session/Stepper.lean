import LiveHeap.Options
import LiveHeap.Session.Engine

/-!
# The stepper

A stepper drives a machine in batches of bounded size, so that a host can do
other work between two batches.  At the end of every batch a collection runs
if the observer asks for one.  A session that has ended, by running out of
steps or by an error, stays ended, and every further batch says so again.
-/

namespace LiveHeap

variable {σ : Type} [Observer σ]

inductive Ending where
  | full
  | exhausted
  | failed (error : EngineError)
  deriving DecidableEq

structure Stretch (σ : Type) where
  machine : Machine
  observer : σ
  steps : Nat
  ending : Ending

def Machine.run : Nat → Machine → σ → Stretch σ
  | 0, m, o => ⟨m, o, 0, .full⟩
  | limit + 1, m, o =>
      match m.advance o with
      | (m, o, .moved) =>
          let rest := run limit m o
          { rest with steps := rest.steps + 1 }
      | (m, o, .exhausted) => ⟨m, o, 0, .exhausted⟩
      | (m, o, .failed e) => ⟨m, o, 0, .failed e⟩

theorem Machine.remaining_run_le (limit : Nat) (m : Machine) (o : σ) :
    (m.run limit o).machine.remaining ≤ m.remaining := by
  induction limit generalizing m o with
  | zero => exact Nat.le_refl _
  | succ limit ih =>
      have hlt := remaining_advance_lt (m := m) (o := o)
      have hsame : (m.advance o).2.2 ≠ .moved → (m.advance o).1 = m := by
        unfold advance
        split
        · simp
        · split <;> simp
      unfold run
      cases ha : m.advance o with
      | mk m' r =>
          obtain ⟨o', a⟩ := r
          rw [ha] at hlt hsame
          cases a with
          | moved => exact Nat.le_trans (ih m' o') (Nat.le_of_lt (hlt rfl))
          | exhausted => exact Nat.le_of_eq (congrArg remaining (hsame nofun))
          | failed e => exact Nat.le_of_eq (congrArg remaining (hsame nofun))

theorem Machine.remaining_run_lt {limit : Nat} {m : Machine} {o : σ}
    (hpos : 0 < limit) (h : (m.run limit o).ending = .full) :
    (m.run limit o).machine.remaining < m.remaining := by
  cases limit with
  | zero => exact absurd hpos (Nat.lt_irrefl 0)
  | succ limit =>
      have hlt := remaining_advance_lt (m := m) (o := o)
      unfold run at h ⊢
      cases ha : m.advance o with
      | mk m' r =>
          obtain ⟨o', a⟩ := r
          rw [ha] at hlt
          cases a with
          | moved =>
              exact Nat.lt_of_le_of_lt (remaining_run_le limit m' o') (hlt rfl)
          | exhausted => simp [ha] at h
          | failed e => simp [ha] at h

inductive Status where
  | ready
  | stepping
  | done
  /-- Reading the program, building the machine or a step failed. -/
  | error
  deriving DecidableEq, Inhabited

def Status.isTerminal : Status → Bool
  | done | error => true
  | ready | stepping => false

inductive Batch where
  /-- All steps of the batch were taken, and more may follow. -/
  | yielded
  | done
  | failed (error : SessionError)
  deriving DecidableEq

structure Stepper (σ : Type) where
  /-- The machine, or the error that ended the session. -/
  session : Except SessionError Machine
  observer : σ
  status : Status
  batchSize : Nat
  batchSize_pos : 0 < batchSize
  collectGarbage : Bool
  steps : Nat
  yields : Nat

/-- Reads a program and builds its machine, with the observer in the bootstrap
meanwhile.  A failure leaves the bootstrap without builtins. -/
def Engine.openSession (engine : Engine) (source : String) (o : σ) :
    Except SessionError Machine × σ :=
  match engine.parse source with
  | .error e => (.error (.parse e), o)
  | .ok program =>
      match engine.construct program (Observer.enterBootstrap o) with
      | (o, .error e) =>
          (.error e.toSession, Observer.leaveBootstrap o [] none)
      | (o, .ok m) => (.ok m, Observer.leaveBootstrap o m.builtins m.global)

/-- An error of a step, with the place of the machine if it has none yet. -/
def SessionError.ofStep (stackInfo : String) : EngineError → SessionError
  | .graph e => .internal e
  | .execution e =>
      if e.stackInfo.isNone && !stackInfo.isEmpty then
        .execution { e with stackInfo := some stackInfo }
      else .execution e

namespace Stepper

/-- Opens a session.  A failure shows in the status and in the first batch. -/
def new (engine : Engine) (source : String) (o : σ) (options : Options) :
    Stepper σ :=
  let (session, observer) := engine.openSession source o
  { session
    observer
    status :=
      match session with
      | .ok _ => .ready
      | .error _ => .error
    batchSize := max options.batchSize 1
    batchSize_pos := Nat.lt_of_lt_of_le Nat.one_pos (Nat.le_max_right _ _)
    collectGarbage := options.collectGarbage
    steps := 0
    yields := 0 }

/-- A stepper that only follows the control flow. -/
def flow (engine : Engine) (source : String) (options : Options) :
    Stepper Blind :=
  new engine source {} options

/-- A stepper that keeps a new object graph. -/
def instrumented (engine : Engine) (source : String) (options : Options) :
    Stepper Graph :=
  new engine source Graph.new options

def error? (s : Stepper σ) : Option SessionError :=
  match s.session with
  | .ok _ => none
  | .error e => some e

/-- The end of a batch: collects if that is allowed and the observer asks. -/
def collectAtBoundary (s : Stepper σ) : Stepper σ :=
  if s.collectGarbage && Observer.collectionPending s.observer then
    { s with observer := Observer.collect s.observer }
  else s

def runMachine (s : Stepper σ) (m : Machine) : Stepper σ × Batch :=
  let r := m.run s.batchSize s.observer
  let s :=
    { s with
      session := .ok r.machine
      observer := r.observer
      status := .stepping
      steps := s.steps + r.steps }
  match r.ending with
  | .failed e =>
      let e := SessionError.ofStep r.machine.stackInfo e
      ({ s with session := .error e, status := .error }, .failed e)
  | .exhausted => ({ s.collectAtBoundary with status := .done }, .done)
  | .full =>
      ({ s.collectAtBoundary with yields := s.yields + 1 }, .yielded)

/-- Runs one batch, or tells again how the session ended. -/
def runBatch (s : Stepper σ) : Stepper σ × Batch :=
  if s.status = .done then (s, .done)
  else
    match s.session with
    | .error e => (s, .failed e)
    | .ok m => s.runMachine m

def remaining (s : Stepper σ) : Nat :=
  match s.session with
  | .ok m => m.remaining
  | .error _ => 0

theorem session_collectAtBoundary (s : Stepper σ) :
    s.collectAtBoundary.session = s.session := by
  unfold collectAtBoundary
  split <;> rfl

theorem remaining_runBatch_lt {s : Stepper σ} (h : s.runBatch.2 = .yielded) :
    s.runBatch.1.remaining < s.remaining := by
  unfold runBatch at h ⊢
  split at h
  · cases h
  · rename_i hd
    rw [if_neg hd]
    cases hs : s.session with
    | error e => simp [hs] at h
    | ok m =>
        simp only [hs, runMachine] at h ⊢
        cases he : (m.run s.batchSize s.observer).ending with
        | failed e => simp [he] at h
        | exhausted => simp [he] at h
        | full =>
            simp only [remaining, session_collectAtBoundary, hs]
            exact Machine.remaining_run_lt s.batchSize_pos he

def runToCompletion (s : Stepper σ) : Stepper σ × Except SessionError Unit :=
  match _h : s.runBatch with
  | (s', .yielded) => runToCompletion s'
  | (s', .done) => (s', .ok ())
  | (s', .failed e) => (s', .error e)
termination_by s.remaining
decreasing_by
  have hlt := remaining_runBatch_lt (s := s) (by rw [_h])
  rwa [_h] at hlt

/-- The number of steps played back, or the error that ended the session. -/
def output (s : Stepper σ) : Except SessionError Nat :=
  match s.session with
  | .ok m => .ok m.finish
  | .error e => .error e

end Stepper

end LiveHeap
