import LiveHeap.Proofs.Session.Cadence
import LiveHeap.Proofs.Session.Emission

/-!
# The protocol of a stream

All answers of a stream, in order, are a word: ticks that go on, then perhaps
one that ends the stream, and behind it nothing but closed ones.  A request for
the next item is answered by ticks as well, of which all but the last are
pending.  The flags and the counter of the stream are read off the word, and a
stop leaves the session alone from then on.
-/

namespace LiveHeap

namespace Tick

/-- The tick counts as an emission. -/
def isEmission : Tick → Bool
  | snapshot _ | finished _ => true
  | pending | failed _ | closed => false

/-- What the tick answers to who waits for an item. -/
def item? : Tick → Option (Except SessionError Snapshot)
  | snapshot s | finished s => some (.ok s)
  | failed e => some (.error e)
  | pending | closed => none

/-- Ticks that go on, then perhaps one that is the last, and behind it nothing
but closed ones. -/
def IsWord (word : List Tick) : Prop :=
  ∃ going ended, word = going ++ ended ∧ (∀ r ∈ going, r.isLast = false) ∧
    (ended = [] ∨ ∃ last count, last.isLast = true ∧
      ended = last :: List.replicate count closed)

end Tick

theorem Graph.WellFormed.seenVertex?_root {g : Graph} (hg : g.WellFormed) :
    g.seenVertex? root = some ⟨root, "Root"⟩ := by
  have hroot := (hg.root_iff root).mpr rfl
  unfold seenVertex? label?
  rw [hroot]
  rfl

/-! ## One tick -/

namespace Stream

/-- What a tick does to the counters of a stream, and what it shows. -/
structure Accounts (s : Stream) (t : Stream × Tick) : Prop where
  stopRequested : t.1.stopRequested = s.stopRequested
  closed : t.1.closed = t.2.isLast
  emitted : t.1.emitted = s.emitted + [t.2].countP Tick.isEmission
  unfinished : ∀ x, t.2 = .snapshot x → x.builtins = none ∧ x.root = none
  final : ∀ x, t.2 = .finished x → x = t.1.graph.finalSnapshot

theorem accounts_emitIfDue {s : Stream} (hopen : s.closed = false)
    (now : Nat) : s.Accounts (s.emitIfDue now) := by
  unfold emitIfDue
  split
  next =>
    constructor
    · rfl
    · exact hopen
    · rfl
    · intro x hx
      rw [← Tick.snapshot.inj hx]
      exact ⟨rfl, rfl⟩
    · exact fun x hx => Tick.noConfusion hx
  next =>
    constructor
    · rfl
    · exact hopen
    · rfl
    · exact fun x hx => Tick.noConfusion hx
    · exact fun x hx => Tick.noConfusion hx

theorem accounts_tick (s : Stream) (now : Nat) : s.Accounts (s.tick now) := by
  unfold tick
  split
  next hclosed => exact ⟨rfl, hclosed, rfl, nofun, nofun⟩
  next hopen =>
    split
    next => exact ⟨rfl, rfl, rfl, nofun, nofun⟩
    next =>
      rcases s.stepper.runBatch with ⟨stepper, _ | _ | e⟩
      · have hstill : ({ s with stepper } : Stream).closed = false := by
          simpa using hopen
        have h := accounts_emitIfDue hstill now
        exact ⟨h.stopRequested, h.closed, h.emitted, h.unfinished, h.final⟩
      · constructor
        · rfl
        · rfl
        · rfl
        · exact nofun
        · exact fun x hx => (Tick.finished.inj hx).symm
      · exact ⟨rfl, rfl, rfl, nofun, nofun⟩

/-- The word so far fits the stream. -/
structure Obeys (s : Stream) (word : List Tick) : Prop where
  wellFormed : s.graph.WellFormed
  going : s.closed = false → ∀ r ∈ word, r.isLast = false
  ended : s.closed = true → ∃ going last count,
    word = going ++ last :: List.replicate count .closed ∧
      (∀ r ∈ going, r.isLast = false) ∧ last.isLast = true
  emitted : s.emitted = word.countP Tick.isEmission
  unfinished : ∀ x, .snapshot x ∈ word → x.builtins = none ∧ x.root = none
  final : ∀ x, .finished x ∈ word → x = s.graph.finalSnapshot

namespace Obeys

variable {s : Stream} {word : List Tick}

/-- A tick of a closed stream changes nothing and is closed. -/
theorem tick_of_closed (h : s.Obeys word) (hclosed : s.closed = true)
    (now : Nat) :
    (s.tick now).1.Obeys (word ++ [(s.tick now).2]) := by
  rw [Stream.tick_of_closed hclosed]
  constructor
  · exact h.wellFormed
  · intro hopen
    rw [hclosed] at hopen
    contradiction
  · intro _
    rcases h.ended hclosed with ⟨going, last, count, hword, hgoing, hlast⟩
    refine ⟨going, last, count + 1, ?_, hgoing, hlast⟩
    rw [hword, List.append_assoc, List.cons_append, List.replicate_succ']
  · simpa [Tick.isEmission] using h.emitted
  · simpa using h.unfinished
  · simpa using h.final

theorem tick_of_open (h : s.Obeys word) (hopen : s.closed = false)
    (now : Nat) :
    (s.tick now).1.Obeys (word ++ [(s.tick now).2]) := by
  have hgoing := h.going hopen
  have haccounts := s.accounts_tick now
  constructor
  · exact (s.follows_tick h.wellFormed now).wellFormed
  · intro hstill r hr
    rcases List.mem_append.mp hr with hold | hnew
    · exact hgoing r hold
    · rw [List.mem_singleton.mp hnew, ← haccounts.closed]
      exact hstill
  · intro hover
    exact ⟨word, (s.tick now).2, 0, rfl, hgoing,
      haccounts.closed.symm.trans hover⟩
  · rw [haccounts.emitted, h.emitted, List.countP_append]
  · intro x hx
    rcases List.mem_append.mp hx with hold | hnew
    · exact h.unfinished x hold
    · exact haccounts.unfinished x (List.mem_singleton.mp hnew).symm
  · -- An open stream has shown no final snapshot before.
    intro x hx
    rcases List.mem_append.mp hx with hold | hnew
    · exact Bool.noConfusion (hgoing _ hold)
    · exact haccounts.final x (List.mem_singleton.mp hnew).symm

theorem tick (h : s.Obeys word) (now : Nat) :
    (s.tick now).1.Obeys (word ++ [(s.tick now).2]) := by
  cases hclosed : s.closed with
  | true => exact h.tick_of_closed hclosed now
  | false => exact h.tick_of_open hclosed now

theorem stop (h : s.Obeys word) : s.stop.Obeys word :=
  ⟨h.wellFormed, h.going, h.ended, h.emitted, h.unfinished, h.final⟩

theorem isWord (h : s.Obeys word) : Tick.IsWord word := by
  cases hclosed : s.closed with
  | false =>
      exact ⟨word, [], (List.append_nil word).symm, h.going hclosed,
        Or.inl rfl⟩
  | true =>
      rcases h.ended hclosed with ⟨going, last, count, hword, hgoing, hlast⟩
      exact ⟨going, _, hword, hgoing, Or.inr ⟨last, count, hlast, rfl⟩⟩

theorem closed_iff (h : s.Obeys word) :
    s.closed = true ↔ ∃ r ∈ word, r.isLast = true := by
  constructor
  · intro hclosed
    rcases h.ended hclosed with ⟨going, last, count, hword, _, hlast⟩
    refine ⟨last, ?_, hlast⟩
    rw [hword]
    exact List.mem_append_right going List.mem_cons_self
  · rintro ⟨r, hr, hlast⟩
    by_contra hopen
    rw [h.going (by simpa using hopen) r hr] at hlast
    contradiction

end Obeys

/-- The stream was stopped or is closed, so no further batch will run. -/
structure Halted (stepper : Stepper Graph) (s : Stream) (word : List Tick) :
    Prop where
  stepper : s.stepper = stepper
  halted : s.stopRequested = true ∨ s.closed = true
  closed : ∀ r ∈ word, r = .closed

theorem tick_of_halted {s : Stream}
    (h : s.stopRequested = true ∨ s.closed = true) (now : Nat) :
    s.tick now = ({ s with closed := true }, .closed) := by
  by_cases hclosed : s.closed = true
  · rw [Stream.tick_of_closed hclosed, ← hclosed]
  · rw [Stream.tick, if_neg hclosed, if_pos (h.resolve_right hclosed)]

theorem Halted.tick {stepper : Stepper Graph} {s : Stream} {word : List Tick}
    (h : Halted stepper s word) (now : Nat) :
    Halted stepper (s.tick now).1 (word ++ [(s.tick now).2]) := by
  rw [tick_of_halted h.halted]
  refine ⟨h.stepper, Or.inr rfl, fun r hr => ?_⟩
  rcases List.mem_append.mp hr with hold | hnew
  · exact h.closed r hold
  · exact List.mem_singleton.mp hnew

theorem Halted.stop {stepper : Stepper Graph} {s : Stream} {word : List Tick}
    (h : Halted stepper s word) : Halted stepper s.stop word :=
  ⟨h.stepper, Or.inl rfl, h.closed⟩

/-! ## One request for an item -/

/-- The ticks that answer a request for the next item, in order. -/
def ticksOfNext (s : Stream) (now : Nat) : List Tick :=
  if _h : (s.tick now).2 = .pending then
    .pending :: ticksOfNext (s.tick now).1 now
  else [(s.tick now).2]
termination_by s.rank
decreasing_by exact rank_tick_lt (by rw [_h]; nofun)

theorem next_of_pending {s : Stream} {now : Nat}
    (hpending : (s.tick now).2 = .pending) :
    s.next now = (s.tick now).1.next now := by
  rw [next]
  split <;> simp_all

theorem next_of_answer {s : Stream} {now : Nat}
    (hanswer : (s.tick now).2 ≠ .pending) :
    s.next now = ((s.tick now).1, (s.tick now).2.item?) := by
  rw [next]
  split <;> simp_all [Tick.item?]

theorem closed_of_next {s : Stream} {now : Nat}
    (hnone : (s.next now).2 = none) : (s.next now).1.closed = true := by
  induction s using ticksOfNext.induct now with
  | case1 s hpending ih =>
      rw [next_of_pending hpending] at hnone ⊢
      exact ih hnone
  | case2 s hanswer =>
      rw [next_of_answer hanswer] at hnone ⊢
      rw [(s.accounts_tick now).closed]
      cases hr : (s.tick now).2 <;> simp_all [Tick.item?, Tick.isLast]

/-- What every tick keeps is kept by a request. -/
theorem next_keeps {p : Stream → List Tick → Prop} {now : Nat}
    (htick : ∀ s word, p s word →
      p (s.tick now).1 (word ++ [(s.tick now).2]))
    {s : Stream} {word : List Tick} (h : p s word) :
    p (s.next now).1 (word ++ s.ticksOfNext now) := by
  induction s using ticksOfNext.induct now generalizing word with
  | case1 s hpending ih =>
      have hfirst := htick s word h
      rw [hpending] at hfirst
      rw [next_of_pending hpending, ticksOfNext, dif_pos hpending,
        List.append_cons]
      exact ih hfirst
  | case2 s hanswer =>
      rw [next_of_answer hanswer, ticksOfNext, dif_neg hanswer]
      exact htick s word h

end Stream

namespace TimedStream

def ticksOf (t : TimedStream) : Operation → List Tick
  | .tick => [t.tick.2]
  | .next => t.stream.ticksOfNext t.now
  | .stop | .advance _ | .set _ => []

/-- The answers of all ticks, those of requests included. -/
def word (t : TimedStream) : List Operation → List Tick
  | [] => []
  | op :: ops => t.ticksOf op ++ (t.perform op).1.word ops

/-- A request for an item is a number of ticks, all of them pending but the
last one, which is the answer. -/
def RequestsByTicks (t : TimedStream) : Prop :=
  ∃ count last, last ≠ .pending ∧
    t.ticksOf .next = List.replicate count .pending ++ [last] ∧
    t.ticks 0 (count + 1) =
      (t.next.1, (t.ticksOf .next).map fun r => (t.now, r)) ∧
    t.next.2 = last.item? ∧ (t.next.2 = none ↔ last = .closed)

/-- Whatever is asked from now on, every tick is closed, every request is
answered by no item, and no batch runs. -/
def IsOver (t : TimedStream) : Prop :=
  ∀ later, (∀ r ∈ t.word later, r = .closed) ∧
    (t.run later).1.next.2 = none ∧
    (t.run later).1.stream.stepper = t.stream.stepper

theorem requestsByTicks (t : TimedStream) : t.RequestsByTicks := by
  obtain ⟨s, now⟩ := t
  induction s using Stream.ticksOfNext.induct now with
  | case1 s hpending ih =>
      rcases ih with ⟨count, last, hlast, hticks, hrun, hitem, hclosed⟩
      have hnext : next ⟨s, now⟩ = next ⟨(s.tick now).1, now⟩ := by
        unfold next
        rw [Stream.next_of_pending hpending]
      have hmore : ticksOf ⟨s, now⟩ .next =
          .pending :: ticksOf ⟨(s.tick now).1, now⟩ .next := by
        unfold ticksOf
        rw [Stream.ticksOfNext, dif_pos hpending]
      refine ⟨count + 1, last, hlast, ?_, ?_, ?_, ?_⟩
      · rw [hmore, hticks]
        rfl
      · have hfirst : ticks ⟨s, now⟩ 0 (count + 1 + 1) =
            ((ticks ⟨(s.tick now).1, now⟩ 0 (count + 1)).1,
              (now, (s.tick now).2) ::
                (ticks ⟨(s.tick now).1, now⟩ 0 (count + 1)).2) := rfl
        rw [hfirst, hrun, hnext, hmore, hpending]
        rfl
      · rw [hnext]
        exact hitem
      · rw [hnext]
        exact hclosed
  | case2 s hanswer =>
      have hnext : next ⟨s, now⟩ = (⟨(s.tick now).1, now⟩,
          (s.tick now).2.item?) := by
        unfold next
        rw [Stream.next_of_answer hanswer]
      have hone : ticksOf ⟨s, now⟩ .next = [(s.tick now).2] := by
        unfold ticksOf
        rw [Stream.ticksOfNext, dif_neg hanswer]
      refine ⟨0, (s.tick now).2, hanswer, hone, ?_, ?_, ?_⟩
      · rw [hnext, hone]
        rfl
      · rw [hnext]
      · rw [hnext]
        cases hr : (s.tick now).2 <;> simp_all [Tick.item?]

theorem perform_keeps {p : Stream → List Tick → Prop}
    (htick : ∀ s word now, p s word →
      p (s.tick now).1 (word ++ [(s.tick now).2]))
    (hstop : ∀ s word, p s word → p s.stop word)
    {t : TimedStream} {word : List Tick} (h : p t.stream word)
    (op : Operation) :
    p (t.perform op).1.stream (word ++ t.ticksOf op) := by
  cases op with
  | tick => exact htick t.stream word t.now h
  | next => exact Stream.next_keeps (fun s w => htick s w t.now) h
  | stop =>
      rw [ticksOf, List.append_nil]
      exact hstop t.stream word h
  | advance millis =>
      rw [ticksOf, List.append_nil]
      exact h
  | set millis =>
      rw [ticksOf, List.append_nil]
      exact h

/-- What every tick and every stop keep is kept by every run. -/
theorem run_keeps {p : Stream → List Tick → Prop}
    (htick : ∀ s word now, p s word →
      p (s.tick now).1 (word ++ [(s.tick now).2]))
    (hstop : ∀ s word, p s word → p s.stop word)
    {t : TimedStream} {word : List Tick} (h : p t.stream word)
    (ops : List Operation) :
    p (t.run ops).1.stream (word ++ t.word ops) := by
  induction ops generalizing t word with
  | nil =>
      rw [TimedStream.word, List.append_nil]
      exact h
  | cons op ops ih =>
      have hrun : (t.run (op :: ops)).1 = ((t.perform op).1.run ops).1 := rfl
      rw [hrun, TimedStream.word, ← List.append_assoc]
      exact ih (perform_keeps htick hstop h op)

theorem next_of_halted {t : TimedStream}
    (h : t.stream.stopRequested = true ∨ t.stream.closed = true) :
    t.next.2 = none := by
  have htick := Stream.tick_of_halted h t.now
  have hanswer : (t.stream.tick t.now).2 ≠ .pending := by
    rw [htick]
    exact Tick.noConfusion
  unfold next
  rw [Stream.next_of_answer hanswer, htick]
  rfl

theorem isOver_of_halted {t : TimedStream}
    (h : t.stream.stopRequested = true ∨ t.stream.closed = true) :
    t.IsOver := by
  intro later
  have hstart : Stream.Halted t.stream.stepper t.stream [] :=
    ⟨rfl, h, nofun⟩
  have hend := run_keeps (fun _ _ now h => h.tick now) (fun _ _ h => h.stop)
    hstart later
  rw [List.nil_append] at hend
  exact ⟨hend.closed, next_of_halted hend.halted, hend.stepper⟩

theorem stopRequested_run {t : TimedStream} {ops : List Operation}
    (hstop : .stop ∈ ops) : (t.run ops).1.stream.stopRequested = true := by
  induction ops generalizing t with
  | nil => simp at hstop
  | cons op ops ih =>
      rcases List.mem_cons.mp hstop with rfl | hlater
      · have hstopped : (t.perform .stop).1.stream.stopRequested = true := rfl
        have hkept := @run_keeps (fun s _ => s.stopRequested = true)
          (fun s _ now h => (s.accounts_tick now).stopRequested.trans h)
          (fun _ _ _ => rfl) _ [] hstopped ops
        exact hkept
      · exact ih hlater

end TimedStream

/-- A stream over any session, whatever is asked of it.  All its ticks make a
word; only the last snapshot tells the builtins and the root, and it is the
final snapshot of the graph; the counter counts the snapshots, and the stream
is closed from the first tick on that is a last one.  When it was stopped, it
is over.  A request for an item is a run of ticks, and when one is answered by
no item, for its tick is closed, the stream is over as well. -/
theorem stream_keeps_protocol (engine : Engine) (source : String)
    (options : Options) (ops : List TimedStream.Operation) :
    let start := TimedStream.new engine source options
    let t := (start.run ops).1
    let word := start.word ops
    Tick.IsWord word ∧
    (∀ x, .snapshot x ∈ word → x.builtins = none ∧ x.root = none) ∧
    (∀ x, .finished x ∈ word → x = t.stream.graph.finalSnapshot ∧
      x.builtins.isSome = true ∧ x.root = some ⟨Graph.root, "Root"⟩) ∧
    t.stream.emitted = word.countP Tick.isEmission ∧
    (t.stream.closed = true ↔ ∃ r ∈ word, r.isLast = true) ∧
    (.stop ∈ ops → t.IsOver) ∧
    t.RequestsByTicks ∧
    (t.next.2 = none → t.next.1.IsOver) := by
  intro start t word
  have hstart : start.stream.Obeys [] :=
    ⟨(openSession_shows engine source).1, nofun, nofun, rfl, nofun, nofun⟩
  have hend : t.stream.Obeys word :=
    TimedStream.run_keeps (fun _ _ now h => h.tick now)
      (fun _ _ h => h.stop) hstart ops
  refine ⟨hend.isWord, hend.unfinished, fun x hx => ?_, hend.emitted,
    hend.closed_iff, fun hstop => ?_, t.requestsByTicks, fun hnone => ?_⟩
  · obtain rfl := hend.final x hx
    exact ⟨rfl, rfl, hend.wellFormed.seenVertex?_root⟩
  · exact TimedStream.isOver_of_halted
      (Or.inl (TimedStream.stopRequested_run hstop))
  · exact TimedStream.isOver_of_halted
      (Or.inr (Stream.closed_of_next hnone))

end LiveHeap
