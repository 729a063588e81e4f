import LiveHeap.Proofs.Session.Protocol

/-!
# The spacing of emissions

A stream remembers the reading of its clock at the last emission, whatever ticks
without one come after it.  So two emissions in a row are at least the interval
apart, and this alone bounds how many of them fit into a span of time: if the
interval is positive, the readings at the emissions ascend even where the clock
goes back.  A tick that has something new to show when the interval is over
shows it.
-/

namespace LiveHeap

/-! ## Readings that keep a distance -/

/-- From each reading to the next one, at least the interval passes.  A clock
that went back counts as no time passed. -/
def Spaced (interval : Nat) (readings : List Nat) : Prop :=
  readings.IsChain fun t t' => interval ≤ t' - t

namespace Spaced

variable {interval : Nat} {readings : List Nat}

theorem concat (h : Spaced interval readings) {now : Nat}
    (hlast : ∀ last, readings.getLast? = some last → interval ≤ now - last) :
    Spaced interval (readings ++ [now]) := by
  refine List.isChain_append.mpr ⟨h, List.isChain_singleton now, ?_⟩
  intro last hmem now' hnow
  obtain rfl : now = now' := by simpa using hnow
  exact hlast last hmem

/-- Readings at a positive distance ascend. -/
theorem pairwise (h : Spaced interval readings) (hpos : 0 < interval) :
    readings.Pairwise fun t t' => t + interval ≤ t' := by
  have hchain : readings.IsChain fun t t' => t + interval ≤ t' :=
    h.imp fun t t' hle => by omega
  have htrans : IsTrans Nat fun t t' => t + interval ≤ t' :=
    ⟨fun _ _ _ hab hbc => by omega⟩
  exact hchain.pairwise

end Spaced

/-- Ascending readings between two bounds: each of them but the first takes up
an interval of its own. -/
theorem span_of_pairwise {interval first last : Nat} {readings : List Nat}
    (hspaced : readings.Pairwise fun t t' => t + interval ≤ t')
    (hwithin : ∀ t ∈ readings, first ≤ t ∧ t ≤ last) (hne : readings ≠ []) :
    first + (readings.length - 1) * interval ≤ last := by
  induction readings generalizing first with
  | nil => contradiction
  | cons t rest ih =>
      have ⟨hfirst, hlast⟩ := hwithin t List.mem_cons_self
      obtain ⟨hnext, hrest⟩ := List.pairwise_cons.mp hspaced
      by_cases hend : rest = []
      · simp only [hend, List.length_singleton, Nat.sub_self, Nat.zero_mul]
        omega
      · have hlater : ∀ t' ∈ rest, first + interval ≤ t' ∧ t' ≤ last := by
          intro t' ht'
          have hgap := hnext t' ht'
          have hbound := (hwithin t' (List.mem_cons_of_mem t ht')).2
          omega
        have hspan := ih hrest hlater hend
        obtain ⟨count, hcount⟩ :=
          Nat.exists_eq_succ_of_ne_zero (List.length_pos_iff.mpr hend).ne'
        simp only [List.length_cons, hcount, Nat.succ_sub_one] at hspan ⊢
        rw [Nat.succ_mul]
        omega

/-- As many readings at a positive distance fit into a span as the interval fits
into it, and one more. -/
theorem Spaced.length_within_le {interval : Nat} {readings : List Nat}
    (h : Spaced interval readings) (hpos : 0 < interval) (first span : Nat) :
    (readings.filter fun t => first ≤ t ∧ t ≤ first + span).length ≤
      span / interval + 1 := by
  by_cases hne : (readings.filter fun t => first ≤ t ∧ t ≤ first + span) = []
  · rw [hne]
    exact Nat.zero_le _
  · have hspan := span_of_pairwise ((h.pairwise hpos).filter _)
      (fun t ht => by simpa using (List.mem_filter.mp ht).2) hne
    have hfits := (Nat.le_div_iff_mul_le hpos).mpr
      (Nat.le_of_add_le_add_left hspan)
    omega

/-! ## The last emission -/

namespace Stream

/-- The stream remembers the last of its emissions, and they keep its
interval. -/
structure Paced (interval : Nat) (s : Stream) (emissions : List Nat) :
    Prop where
  interval_eq : s.interval = interval
  lastEmit : s.lastEmit = emissions.getLast?
  spaced : Spaced interval emissions

/-- The reading of the clock, if the tick is an emission. -/
def emittedAt (now : Nat) (r : Tick) : List Nat :=
  if r.snapshot?.isSome then [now] else []

theorem isDue_iff {s : Stream} {now : Nat} :
    s.isDue now = true ↔
      ∀ last, s.lastEmit = some last → s.interval ≤ now - last := by
  unfold isDue
  cases s.lastEmit <;> simp

variable {interval : Nat} {s : Stream} {emissions : List Nat}

/-- Nothing but an emission touches what the stream remembers of it. -/
theorem Paced.silent (h : s.Paced interval emissions) {s' : Stream}
    (hinterval : s'.interval = s.interval) (hlast : s'.lastEmit = s.lastEmit) :
    s'.Paced interval (emissions ++ []) := by
  rw [List.append_nil]
  exact ⟨hinterval.trans h.interval_eq, hlast.trans h.lastEmit, h.spaced⟩

theorem Paced.emitIfDue (h : s.Paced interval emissions) (now : Nat) :
    (s.emitIfDue now).1.Paced interval
      (emissions ++ emittedAt now (s.emitIfDue now).2) := by
  unfold Stream.emitIfDue
  split
  next hdue =>
    rw [Bool.and_eq_true, isDue_iff, h.lastEmit, h.interval_eq] at hdue
    constructor
    · exact h.interval_eq
    · exact (List.getLast?_concat ..).symm
    · exact h.spaced.concat hdue.2
  next => exact h.silent rfl rfl

theorem Paced.tick (h : s.Paced interval emissions) (now : Nat) :
    (s.tick now).1.Paced interval
      (emissions ++ emittedAt now (s.tick now).2) := by
  unfold Stream.tick
  split
  next => exact h.silent rfl rfl
  next =>
    split
    next => exact h.silent rfl rfl
    next =>
      have hran : ∀ stepper, ({ s with stepper } : Stream).Paced interval
          emissions := fun _ => ⟨h.interval_eq, h.lastEmit, h.spaced⟩
      rcases s.stepper.runBatch with ⟨stepper, _ | _ | e⟩
      · exact (hran stepper).emitIfDue now
      · exact h.silent rfl rfl
      · exact h.silent rfl rfl

end Stream

namespace TimedStream

/-- All ticks, those of requests included, each with the reading of the clock at
its time. -/
def timeline (t : TimedStream) : List Operation → List (Nat × Tick)
  | [] => []
  | op :: ops =>
      (t.ticksOf op).map (Prod.mk t.now) ++ (t.perform op).1.timeline ops

/-- The readings of the clock at the snapshots after which the session went
on. -/
def emissions (t : TimedStream) (ops : List Operation) : List Nat :=
  (t.timeline ops).flatMap fun e => Stream.emittedAt e.1 e.2

theorem paced_perform {interval : Nat} {t : TimedStream}
    {emissions : List Nat} (h : t.stream.Paced interval emissions)
    (op : Operation) :
    (t.perform op).1.stream.Paced interval
      (emissions ++ (t.ticksOf op).flatMap (Stream.emittedAt t.now)) := by
  cases op with
  | tick =>
      rw [ticksOf, List.flatMap_singleton]
      exact h.tick t.now
  | next =>
      have htick : ∀ (s : Stream) (word : List Tick),
          s.Paced interval
            (emissions ++ word.flatMap (Stream.emittedAt t.now)) →
          (s.tick t.now).1.Paced interval (emissions ++
            (word ++ [(s.tick t.now).2]).flatMap
              (Stream.emittedAt t.now)) := by
        intro s word hs
        rw [List.flatMap_append, List.flatMap_singleton, ← List.append_assoc]
        exact hs.tick t.now
      have hnone := h.silent rfl rfl
      exact @Stream.next_keeps _ _ htick t.stream [] hnone
  | stop => exact h.silent rfl rfl
  | advance millis => exact h.silent rfl rfl
  | set millis => exact h.silent rfl rfl

theorem paced_run {interval : Nat} {t : TimedStream} {before : List Nat}
    (h : t.stream.Paced interval before) (ops : List Operation) :
    (t.run ops).1.stream.Paced interval (before ++ t.emissions ops) := by
  induction ops generalizing t before with
  | nil => exact h.silent rfl rfl
  | cons op ops ih =>
      have hfirst := paced_perform h op
      have hrest := ih hfirst
      have hemissions : t.emissions (op :: ops) =
          (t.ticksOf op).flatMap (Stream.emittedAt t.now) ++
            (t.perform op).1.emissions ops := by
        simp [emissions, timeline, List.flatMap_append, List.flatMap_map]
      rw [hemissions, ← List.append_assoc]
      exact hrest

/-- The next tick runs a batch that yields, the graph has changed by then, and
the last of the emissions, if there was one, is long enough ago. -/
structure HasToShow (t : TimedStream) (interval : Nat) (emissions : List Nat) :
    Prop where
  opened : t.stream.closed = false
  running : t.stream.stopRequested = false
  yields : t.stream.stepper.runBatch.2 = .yielded
  changed : t.stream.stepper.runBatch.1.observer.changed = true
  waited : ∀ last, emissions.getLast? = some last → interval ≤ t.now - last

/-- A tick that has something to show shows it and takes the flag down. -/
theorem HasToShow.tick {interval : Nat} {t : TimedStream}
    {emissions : List Nat} (hp : t.stream.Paced interval emissions)
    (h : t.HasToShow interval emissions) :
    t.tick.2 = .snapshot t.stream.stepper.runBatch.1.observer.snapshot ∧
      t.tick.1.stream.graph.changed = false := by
  have hopen : ¬ t.stream.closed = true := by simp [h.opened]
  have hdue : t.stream.isDue t.now = true := by
    rw [Stream.isDue_iff, hp.lastEmit, hp.interval_eq]
    exact h.waited
  have htick := Stream.tick_of_running hopen h.running t.now
  have hyields := h.yields
  have hchanged := h.changed
  unfold TimedStream.tick
  rw [htick]
  generalize t.stream.stepper.runBatch = ran at hyields hchanged ⊢
  obtain ⟨stepper, batch⟩ := ran
  obtain rfl : batch = .yielded := hyields
  have hshow : (({ t.stream with stepper } : Stream).graph.changed &&
      Stream.isDue { t.stream with stepper } t.now) = true :=
    Bool.and_eq_true_iff.mpr ⟨hchanged, hdue⟩
  simp only [Stream.emitIfDue, if_pos hshow]
  exact ⟨rfl, rfl⟩

/-- Only a tick that has something to show is an emission. -/
theorem hasToShow_of_tick {interval : Nat} {t : TimedStream}
    {emissions : List Nat} (hp : t.stream.Paced interval emissions)
    {x : Snapshot} (hx : t.tick.2 = .snapshot x) :
    t.HasToShow interval emissions := by
  have hopen : ¬ t.stream.closed = true := by
    intro hclosed
    rw [TimedStream.tick, Stream.tick_of_closed hclosed] at hx
    cases hx
  have hrunning : ¬ t.stream.stopRequested = true := by
    intro hstop
    rw [TimedStream.tick, Stream.tick_of_halted (Or.inl hstop)] at hx
    cases hx
  rw [Bool.not_eq_true] at hrunning
  unfold TimedStream.tick at hx
  rw [Stream.tick_of_running hopen hrunning t.now] at hx
  cases hran : t.stream.stepper.runBatch with
  | mk stepper batch =>
      rw [hran] at hx
      cases batch with
      | yielded =>
          simp only [Stream.emitIfDue] at hx
          split at hx
          next hshow =>
            rw [Bool.and_eq_true, Stream.isDue_iff] at hshow
            constructor
            · simpa using hopen
            · exact hrunning
            · rw [hran]
            · rw [hran]
              exact hshow.1
            · rw [← hp.lastEmit, ← hp.interval_eq]
              exact hshow.2
          next => cases hx
      | done => cases hx
      | failed e => cases hx

end TimedStream

/-- A stream over any session, whatever is asked of it, with a clock that may go
back.  Two emissions in a row are at least the interval apart.  If the interval
is positive, a window of time that is shorter has at most one emission in it, and
a span has as many as intervals fit into it, and one more.  The next tick is an
emission exactly if its batch yields, the graph has changed, and the last
emission is at least the interval ago or there was none; then it shows the graph
and takes the flag down. -/
theorem emissions_keep_interval (engine : Engine) (source : String)
    (options : Options) (ops : List TimedStream.Operation) :
    let start := TimedStream.new engine source options
    let t := (start.run ops).1
    let emissions := start.emissions ops
    let interval := options.snapshotInterval
    (∀ before t₁ t₂ after, emissions = before ++ t₁ :: t₂ :: after →
      interval ≤ t₂ - t₁) ∧
    (0 < interval → ∀ first width,
      let within := emissions.filter fun now =>
        first ≤ now ∧ now ≤ first + width
      (width < interval → within.length ≤ 1) ∧
        within.length ≤ width / interval + 1) ∧
    ((∃ x, t.tick.2 = .snapshot x) ↔ t.HasToShow interval emissions) ∧
    (t.HasToShow interval emissions →
      t.tick.2 = .snapshot t.stream.stepper.runBatch.1.observer.snapshot ∧
        t.tick.1.stream.graph.changed = false) := by
  intro start t emissions interval
  have hstart : start.stream.Paced interval [] :=
    ⟨rfl, rfl, List.isChain_nil⟩
  have hpaced : t.stream.Paced interval emissions :=
    TimedStream.paced_run hstart ops
  have hshow : t.HasToShow interval emissions →
      t.tick.2 = .snapshot t.stream.stepper.runBatch.1.observer.snapshot ∧
        t.tick.1.stream.graph.changed = false := fun h => h.tick hpaced
  refine ⟨?_, ?_, ?_, hshow⟩
  · intro before t₁ t₂ after hemissions
    have hspaced := hpaced.spaced
    rw [hemissions] at hspaced
    exact (List.isChain_cons_cons.mp
      (List.isChain_append.mp hspaced).2.1).1
  · intro hpos first width within
    have hcount := hpaced.spaced.length_within_le hpos first width
    refine ⟨fun hshort => ?_, hcount⟩
    rw [Nat.div_eq_of_lt hshort] at hcount
    exact hcount
  · constructor
    · rintro ⟨x, hx⟩
      exact TimedStream.hasToShow_of_tick hpaced hx
    · exact fun h => ⟨_, (hshow h).1⟩

end LiveHeap
