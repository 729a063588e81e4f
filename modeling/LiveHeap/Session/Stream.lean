import LiveHeap.Session.Stepper
import LiveHeap.Graph.View

/-!
# Snapshot streams

A stream resumes a session for one batch at a time.  While the session runs it
emits a snapshot when the graph has changed and the last emission is long
enough ago.  The session ends with one last item, the final snapshot or the
error, unless the stream is stopped before.  The clock is read by the caller,
who hands the reading to every operation that needs it.
-/

namespace LiveHeap

inductive Tick where
  | pending
  | snapshot (s : Snapshot)
  /-- The final snapshot; nothing follows. -/
  | finished (s : Snapshot)
  | failed (error : SessionError)
  /-- The stream has ended or was stopped. -/
  | closed
  deriving DecidableEq

structure Stream where
  stepper : Stepper Graph
  interval : Nat
  /-- The reading of the clock at the last emission. -/
  lastEmit : Option Nat
  stopRequested : Bool
  closed : Bool
  /-- How many snapshots were emitted, the final one included. -/
  emitted : Nat

namespace Stream

def new (engine : Engine) (source : String) (options : Options) : Stream where
  stepper := Stepper.instrumented engine source options
  interval := options.snapshotInterval
  lastEmit := none
  stopRequested := false
  closed := false
  emitted := 0

def graph (s : Stream) : Graph := s.stepper.observer

def stop (s : Stream) : Stream := { s with stopRequested := true }

/-- Whether the last emission is long enough ago.  A clock that went back
counts as no time passed. -/
def isDue (s : Stream) (now : Nat) : Bool :=
  match s.lastEmit with
  | none => true
  | some last => decide (s.interval ≤ now - last)

/-- Emits a snapshot if the graph has changed and the time has come. -/
def emitIfDue (s : Stream) (now : Nat) : Stream × Tick :=
  if s.graph.changed && s.isDue now then
    let (graph, snapshot) := s.graph.takeSnapshot
    ({ s with
        stepper := { s.stepper with observer := graph }
        lastEmit := some now
        emitted := s.emitted + 1 },
      .snapshot snapshot)
  else (s, .pending)

def tick (s : Stream) (now : Nat) : Stream × Tick :=
  if s.closed then (s, .closed)
  else if s.stopRequested then ({ s with closed := true }, .closed)
  else
    let (stepper, batch) := s.stepper.runBatch
    let s := { s with stepper }
    match batch with
    | .yielded => s.emitIfDue now
    | .done =>
        ({ s with closed := true, emitted := s.emitted + 1 },
          .finished s.graph.finalSnapshot)
    | .failed e => ({ s with closed := true }, .failed e)

def rank (s : Stream) : Nat :=
  if s.closed then 0 else s.stepper.remaining + 1

theorem rank_emitIfDue (s : Stream) (now : Nat) :
    (s.emitIfDue now).1.rank = s.rank := by
  unfold emitIfDue
  split <;> rfl

theorem rank_tick_lt {s : Stream} {n : Nat} (h : (s.tick n).2 ≠ .closed) :
    (s.tick n).1.rank < s.rank := by
  unfold tick at h ⊢
  by_cases hc : s.closed = true
  · simp [hc] at h
  · by_cases hr : s.stopRequested = true
    · simp [hc, hr] at h
    · rw [if_neg hc, if_neg hr]
      have hlt := Stepper.remaining_runBatch_lt (s := s.stepper)
      cases hb : s.stepper.runBatch with
      | mk stepper batch =>
          rw [hb] at hlt
          cases batch with
          | yielded =>
              have hlt := hlt rfl
              rw [rank_emitIfDue]
              simp only [rank, hc, Bool.false_eq_true, if_false]
              exact Nat.succ_lt_succ hlt
          | done => simp [rank, hc]
          | failed e => simp [rank, hc]

/-- Ticks until an item is emitted or the stream has ended. -/
def next (s : Stream) (now : Nat) :
    Stream × Option (Except SessionError Snapshot) :=
  match _h : s.tick now with
  | (s', .pending) => next s' now
  | (s', .snapshot snapshot) => (s', some (.ok snapshot))
  | (s', .finished snapshot) => (s', some (.ok snapshot))
  | (s', .failed e) => (s', some (.error e))
  | (s', .closed) => (s', none)
termination_by s.rank
decreasing_by
  have hlt := rank_tick_lt (s := s) (n := now) (by rw [_h]; nofun)
  rwa [_h] at hlt

theorem rank_next_lt {s : Stream} {n : Nat} (h : (s.next n).2 ≠ none) :
    (s.next n).1.rank < s.rank := by
  fun_induction next s n with
  | case1 s s' ht ih =>
      have hlt := rank_tick_lt (s := s) (n := n) (by rw [ht]; nofun)
      rw [ht] at hlt
      exact Nat.lt_trans (ih h) hlt
  | case2 s s' _ ht =>
      have hlt := rank_tick_lt (s := s) (n := n) (by rw [ht]; nofun)
      rwa [ht] at hlt
  | case3 s s' _ ht =>
      have hlt := rank_tick_lt (s := s) (n := n) (by rw [ht]; nofun)
      rwa [ht] at hlt
  | case4 s s' _ ht =>
      have hlt := rank_tick_lt (s := s) (n := n) (by rw [ht]; nofun)
      rwa [ht] at hlt
  | case5 s s' ht => exact absurd rfl h

/-- All items up to the end of the stream, with the clock moving on after each
item.  The answer also has the last reading of the clock. -/
def drain (s : Stream) (now pace : Nat) :
    Stream × List (Except SessionError Snapshot) × Nat :=
  match _h : s.next now with
  | (s', none) => (s', [], now)
  | (s', some item) =>
      let (s', items, now) := drain s' (now + pace) pace
      (s', item :: items, now)
termination_by s.rank
decreasing_by
  have hlt := rank_next_lt (s := s) (n := now) (by rw [_h]; nofun)
  rwa [_h] at hlt

end Stream

end LiveHeap
