import LiveHeap.Session.Stream

/-!
# Streams with a clock of their own

A stream together with a clock that moves only when it is told to, and all
operations on the pair as values.  Statements about every history of a stream
speak about lists of operations.
-/

namespace LiveHeap

structure TimedStream where
  stream : Stream
  now : Nat

namespace TimedStream

def new (engine : Engine) (source : String) (options : Options) :
    TimedStream :=
  ⟨Stream.new engine source options, 0⟩

def advance (t : TimedStream) (millis : Nat) : TimedStream :=
  { t with now := t.now + millis }

def set (t : TimedStream) (millis : Nat) : TimedStream :=
  { t with now := millis }

def stop (t : TimedStream) : TimedStream := { t with stream := t.stream.stop }

def tick (t : TimedStream) : TimedStream × Tick :=
  let (stream, tick) := t.stream.tick t.now
  ({ t with stream }, tick)

def next (t : TimedStream) :
    TimedStream × Option (Except SessionError Snapshot) :=
  let (stream, item) := t.stream.next t.now
  ({ t with stream }, item)

/-- All items up to the end; the clock moves on after each. -/
def drain (t : TimedStream) (pace : Nat) :
    TimedStream × List (Except SessionError Snapshot) :=
  let (stream, items, now) := t.stream.drain t.now pace
  (⟨stream, now⟩, items)

/-- A number of ticks, each with the reading of the clock at its time; the
clock moves on after each. -/
def ticks (t : TimedStream) (pace : Nat) :
    Nat → TimedStream × List (Nat × Tick)
  | 0 => (t, [])
  | count + 1 =>
      let (t', tick) := t.tick
      let (t'', rest) := (t'.advance pace).ticks pace count
      (t'', (t.now, tick) :: rest)

inductive Operation where
  | tick
  | next
  | stop
  | advance (millis : Nat)
  | set (millis : Nat)
  deriving DecidableEq

inductive Answer where
  | nothing
  | tick (t : Tick)
  | item (i : Option (Except SessionError Snapshot))

def perform (t : TimedStream) : Operation → TimedStream × Answer
  | .tick => let (t, r) := t.tick; (t, .tick r)
  | .next => let (t, r) := t.next; (t, .item r)
  | .stop => (t.stop, .nothing)
  | .advance millis => (t.advance millis, .nothing)
  | .set millis => (t.set millis, .nothing)

/-- The answers to a list of operations, in order, and what is left. -/
def run (t : TimedStream) : List Operation → TimedStream × List Answer
  | [] => (t, [])
  | op :: ops =>
      let (t, a) := t.perform op
      let (t, as) := t.run ops
      (t, a :: as)

end TimedStream

end LiveHeap
