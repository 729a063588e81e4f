import LiveHeap.Proofs.Collection.FullCycle

/-!
# Cycles on a scene that changes

Between two steps of a cycle the host may give the scene other roots, other
children and new live vertices.  Nothing tells the collector, so a vertex can
be missed although it is a child of a marked one.  What the collector does
promise is that a path which stays in place while it marks is marked to its
end: a vertex that is marked and no longer waits was traced, or was pinned by
the root scan before it was visited, and a traced vertex has marked the
children that it had at that moment.
-/

namespace LiveHeap

/-- A vertex is pinned by a root script before the script visits it, if the
script visits it at all. -/
def FirstPin (calls : List RootCall) (v : Handle) : Prop :=
  ∃ before after, calls = before ++ .pin v :: after ∧ .visit v ∉ before

theorem FirstPin.mem {calls : List RootCall} {v : Handle}
    (hfirst : FirstPin calls v) : .pin v ∈ calls := by
  obtain ⟨before, after, rfl, _⟩ := hfirst
  simp

theorem firstPin_visit_cons {calls : List RootCall} {v w : Handle} :
    FirstPin (.visit w :: calls) v ↔ v ≠ w ∧ FirstPin calls v := by
  constructor
  · rintro ⟨before, after, hcalls, hvisit⟩
    cases before with
    | nil => simp at hcalls
    | cons call before =>
        obtain ⟨rfl, hrest⟩ := List.cons.inj hcalls
        rw [List.mem_cons, not_or] at hvisit
        exact ⟨by simpa using hvisit.1, before, after, hrest, hvisit.2⟩
  · rintro ⟨hne, before, after, rfl, hvisit⟩
    exact ⟨.visit w :: before, after, rfl, by simpa [hne] using hvisit⟩

theorem firstPin_pin_cons {calls : List RootCall} {v w : Handle} :
    FirstPin (.pin w :: calls) v ↔ v = w ∨ FirstPin calls v := by
  constructor
  · rintro ⟨before, after, hcalls, hvisit⟩
    cases before with
    | nil =>
        left
        simpa using (List.cons.inj hcalls).1.symm
    | cons call before =>
        right
        refine ⟨before, after, (List.cons.inj hcalls).2, ?_⟩
        exact fun hmem => hvisit (List.mem_cons_of_mem call hmem)
  · rintro (rfl | ⟨before, after, rfl, hvisit⟩)
    · exact ⟨[], calls, rfl, List.not_mem_nil⟩
    · exact ⟨.pin w :: before, after, rfl, by simpa using hvisit⟩

/-- Of the vertices that a script names, those are visited first that are not
pinned first. -/
theorem firstVisit_iff_not_firstPin {calls : List RootCall} {v : Handle}
    (hnamed : .visit v ∈ calls ∨ .pin v ∈ calls) :
    FirstVisit calls v ↔ ¬ FirstPin calls v := by
  induction calls with
  | nil => simp at hnamed
  | cons call calls ih =>
      cases call with
      | visit w =>
          rw [firstVisit_visit_cons, firstPin_visit_cons]
          by_cases hw : v = w
          · simp [hw]
          · have hrest : .visit v ∈ calls ∨ .pin v ∈ calls := by
              simpa [hw] using hnamed
            simp [hw, ih hrest]
      | pin w =>
          rw [firstVisit_pin_cons, firstPin_pin_cons]
          by_cases hw : v = w
          · simp [hw]
          · have hrest : .visit v ∈ calls ∨ .pin v ∈ calls := by
              simpa [hw] using hnamed
            simp [hw, ih hrest]

theorem FirstVisit.not_firstPin {calls : List RootCall} {v : Handle}
    (hfirst : FirstVisit calls v) : ¬ FirstPin calls v :=
  (firstVisit_iff_not_firstPin (Or.inl hfirst.mem)).mp hfirst

/-! ## Marking with a relation that stays -/

/-- What holds of the marks and the traced vertices while `Stays` relates
vertices to children that they keep.  The scene itself has no part in it. -/
structure Steadfast (roots : List RootCall) (Stays : Handle → Handle → Prop)
    (m : Marks) (traced : List Handle) : Prop where
  consistent : m.Consistent
  nodup : traced.Nodup
  done : ∀ v ∈ traced, m.isMarked v = true ∧ v ∉ m.queue
  root : ∀ v, FirstVisit roots v → m.isMarked v = true
  closed : ∀ v w, m.isMarked v = true → v ∉ m.queue → ¬ FirstPin roots v →
    Stays v w → m.isMarked w = true

theorem Steadfast.scanRoots (roots : List RootCall)
    (Stays : Handle → Handle → Prop) :
    Steadfast roots Stays (roots.foldl Bench.scanRoot Marks.empty) [] := by
  constructor
  · exact Marks.consistent_empty.scanRoots roots
  · exact List.nodup_nil
  · simp
  · intro v hfirst
    rw [Bench.isMarked_scanRoots]
    exact Or.inl hfirst.mem
  · -- A marked vertex that is not pinned first was visited first, so it waits.
    intro v w hmarked hwait hpin _
    exfalso
    apply hwait
    rw [Bench.isMarked_scanRoots, Marks.isMarked_empty] at hmarked
    have hnamed : .visit v ∈ roots ∨ .pin v ∈ roots := by simpa using hmarked
    rw [Bench.mem_queue_scanRoots]
    exact Or.inr ⟨Marks.isMarked_empty v,
      (firstVisit_iff_not_firstPin hnamed).mpr hpin⟩

theorem Steadfast.traceNext {roots : List RootCall}
    {Stays : Handle → Handle → Prop} {m m' : Marks} {v : Handle}
    {traced children : List Handle} (hm : Steadfast roots Stays m traced)
    (hpop : m.pop = some (v, m')) (hstays : ∀ w, Stays v w → w ∈ children) :
    Steadfast roots Stays (m'.visitAll children) (traced ++ [v]) := by
  obtain ⟨hqueue, hmarked⟩ := Marks.pop_eq_some hpop
  obtain ⟨hconsistent, hgone⟩ := hm.consistent.pop hpop
  have hwait : v ∈ m.queue := by simp [hqueue]
  have hself : m'.isMarked v = true := (hmarked v).mpr (Or.inl rfl)
  have hkept : ∀ w, m'.isMarked w = true →
      (m'.visitAll children).isMarked w = true := by
    intro w hw
    exact (Marks.isMarked_visitAll m' children w).mpr (Or.inr hw)
  -- A vertex that is marked already does not start to wait.
  have hstill : ∀ w, m'.isMarked w = true →
      (w ∈ (m'.visitAll children).queue ↔ w ∈ m'.queue) := by
    intro w hw
    simp [Marks.mem_queue_visitAll, hw]
  constructor
  · exact hconsistent.visitAll children
  · have hnew : v ∉ traced := fun hv => (hm.done v hv).2 hwait
    rw [List.nodup_append', List.disjoint_singleton]
    exact ⟨hm.nodup, List.nodup_singleton v, hnew⟩
  · intro w hw
    rw [List.mem_append, List.mem_singleton] at hw
    rcases hw with hw | rfl
    · obtain ⟨hmark, hnot⟩ := hm.done w hw
      have hmark' : m'.isMarked w = true := (hmarked w).mpr (Or.inr hmark)
      rw [hstill w hmark']
      rw [hqueue, List.mem_cons, not_or] at hnot
      exact ⟨hkept w hmark', hnot.2⟩
    · rw [hstill w hself]
      exact ⟨hkept w hself, hgone⟩
  · exact fun w hfirst => hkept w ((hmarked w).mpr (Or.inr (hm.root w hfirst)))
  · intro u w hu hnot hpin hstay
    by_cases huv : u = v
    · subst huv
      exact (Marks.isMarked_visitAll m' children w).mpr
        (Or.inl (hstays w hstay))
    · -- A vertex marked in this very step would be waiting.
      have hu' : m'.isMarked u = true := by
        by_contra hwhite
        apply hnot
        rw [Bool.not_eq_true] at hwhite
        have hchild : u ∈ children := by
          have hor := (Marks.isMarked_visitAll m' children u).mp hu
          simpa [hwhite] using hor
        exact Marks.mem_queue_visitAll.mpr (Or.inr ⟨hchild, hwhite⟩)
      have hold : m.isMarked u = true := ((hmarked u).mp hu').resolve_left huv
      have hbefore : u ∉ m.queue := by
        rw [hqueue, List.mem_cons, not_or]
        exact ⟨huv, fun hin => hnot ((hstill u hu').mpr hin)⟩
      exact hkept w
        ((hmarked w).mpr (Or.inr (hm.closed u w hold hbefore hpin hstay)))

theorem Steadfast.trace {roots : List RootCall}
    {Stays : Handle → Handle → Prop} {scene : Scene}
    (hstays : ∀ v w, Stays v w → w ∈ scene.childrenOf v) (limit : Nat)
    {m : Marks} {traced : List Handle} (hm : Steadfast roots Stays m traced)
    (before : List Handle) :
    ∃ traced', (Bench.trace scene limit m (before ++ traced)).2.1 =
        before ++ traced' ∧
      Steadfast roots Stays
        (Bench.trace scene limit m (before ++ traced)).1 traced' := by
  induction limit generalizing m traced with
  | zero => exact ⟨traced, rfl, hm⟩
  | succ limit ih =>
      cases hpop : m.pop with
      | none =>
          simp only [Bench.trace, hpop]
          exact ⟨traced, rfl, hm⟩
      | some next =>
          have hrest := ih (hm.traceNext hpop (hstays next.1))
          simp only [Bench.trace, hpop, List.append_assoc]
          exact hrest

/-- Once nothing waits, a path that stayed is marked to its end. -/
theorem Steadfast.isMarked_path {roots : List RootCall}
    {Stays : Handle → Handle → Prop} {m : Marks} {traced : List Handle}
    (hm : Steadfast roots Stays m traced) (hqueue : m.queue = [])
    {path : Nat → Handle} {k : Nat} (hroot : FirstVisit roots (path 0))
    (hstays : ∀ i < k, Stays (path i) (path (i + 1)))
    (hpin : ∀ i, 0 < i → i < k → ¬ FirstPin roots (path i)) :
    m.isMarked (path k) = true := by
  induction k with
  | zero => exact hm.root _ hroot
  | succ k ih =>
      have hmarked := ih (fun i hi => hstays i (by omega))
        (fun i hpos hi => hpin i hpos (by omega))
      have hfree : ¬ FirstPin roots (path k) := by
        cases k with
        | zero => exact hroot.not_firstPin
        | succ k => exact hpin (k + 1) (by omega) (by omega)
      exact hm.closed _ _ hmarked (by simp [hqueue]) hfree
        (hstays k (by omega))

namespace Bench

/-! ## Moments of a cycle -/

/-- A step, a hand-over of released vertices, or a change of the scene. -/
def Operation.drifts : Operation → Bool
  | .step | .takeRemoved | .addLive _ | .setChildren _ _ | .setRoots _ => true
  | _ => false

theorem run_concat (b : Bench) (ops : List Operation) (op : Operation) :
    b.run (ops ++ [op]) = ((b.run ops).perform op).1 := by
  rw [run, List.foldl_append]
  rfl

/-- From the start of a cycle until the sweep begins, one vertex is a child of
another at every moment. -/
def StaysChild (b : Bench) (ops : List Operation) (v w : Handle) : Prop :=
  ∀ before, before <+: ops →
    (b.start.run before).collector.phase = .marking →
    w ∈ (b.start.run before).scene.childrenOf v

/-- The step that follows some of the operations ends the marking. -/
structure SweepBegins (b : Bench) (ops before : List Operation) : Prop where
  within : before ++ [.step] <+: ops
  marking : (b.start.run before).collector.phase = .marking
  sweeping : (b.start.run (before ++ [.step])).collector.phase = .sweeping

theorem SweepBegins.mono {b : Bench} {ops before : List Operation}
    (hb : SweepBegins b ops before) {more : List Operation}
    (hmore : ops <+: more) : SweepBegins b more before :=
  ⟨hb.within.trans hmore, hb.marking, hb.sweeping⟩

theorem SweepBegins.before_prefix {b : Bench} {ops before : List Operation}
    (hb : SweepBegins b ops before) : before <+: ops :=
  (List.prefix_append before [.step]).trans hb.within

/-- The bench right after the step that ends the marking. -/
def turn (b : Bench) (before : List Operation) : Bench :=
  b.start.run (before ++ [.step])

theorem SweepBegins.turn_eq {b : Bench} {ops before : List Operation}
    (hturn : SweepBegins b ops before) :
    b.turn before = (b.start.run before).markStep := by
  rw [turn, run_concat]
  change (b.start.run before).step.1 = _
  rw [step, hturn.marking]

theorem phase_markStep {b : Bench} (hphase : b.collector.phase = .marking) :
    b.markStep.collector.phase = .marking ∨
      b.markStep.collector.phase = .sweeping := by
  unfold markStep
  simp only
  split
  next => exact Or.inr rfl
  next => exact Or.inl hphase

/-- Only a step leads out of the marking, and it leads into the sweep. -/
theorem phase_perform {b : Bench} (hphase : b.collector.phase = .marking)
    {op : Operation} (hop : op.drifts = true) :
    (b.perform op).1.collector.phase = .marking ∨
      op = .step ∧ (b.perform op).1.collector.phase = .sweeping := by
  cases op with
  | step =>
      have hstep : (b.perform .step).1 = b.markStep := by
        change b.step.1 = _
        rw [step, hphase]
      rw [hstep]
      exact (phase_markStep hphase).imp id fun hsweeping => ⟨rfl, hsweeping⟩
  | takeRemoved => exact Or.inl hphase
  | addLive v => exact Or.inl hphase
  | setChildren v ws => exact Or.inl hphase
  | setRoots roots => exact Or.inl hphase
  | start => contradiction
  | finish => contradiction
  | collect => contradiction

/-- The step that finds the gray queue empty takes the live vertices as the
candidates of the sweep. -/
theorem markStep_of_sweeping {b : Bench}
    (hsweeping : b.markStep.collector.phase = .sweeping)
    (hphase : b.collector.phase = .marking) :
    b.markStep.collector.candidates = b.scene.live ∧
      b.markStep.collector.cursor = 0 := by
  unfold markStep at hsweeping ⊢
  simp only at hsweeping ⊢
  split
  next => exact ⟨rfl, rfl⟩
  next hend =>
    rw [if_neg hend, hphase] at hsweeping
    contradiction

/-- At the turn the sweep has all live vertices before it. -/
theorem SweepBegins.unswept {b : Bench} {ops before : List Operation}
    (hturn : SweepBegins b ops before) :
    (b.turn before).collector.candidates =
        (b.start.run before).scene.live ∧
      (b.turn before).collector.cursor = 0 := by
  have hsweeping : (b.turn before).collector.phase = .sweeping :=
    hturn.sweeping
  rw [hturn.turn_eq] at hsweeping ⊢
  exact markStep_of_sweeping hsweeping hturn.marking

/-! ## The two halves of a cycle -/

/-- A bench at some moment of a cycle that was started on `b`. -/
structure Adrift (b : Bench) (Stays : Handle → Handle → Prop) (cur : Bench) :
    Prop where
  traced : ∃ traced, cur.traced = b.traced ++ traced ∧
    Steadfast b.scene.roots Stays cur.collector.marks traced
  scanned : cur.collector.phase ≠ .rootScanning
  drained : cur.collector.phase ≠ .marking → cur.collector.marks.queue = []
  unswept : cur.collector.phase = .marking → cur.released = b.released

theorem adrift_start (b : Bench) (hidle : b.collector.phase = .idle)
    (Stays : Handle → Handle → Prop) : Adrift b Stays b.start := by
  have hstart : b.start =
      { b with
        collector :=
          { b.collector with
            marks := b.scene.roots.foldl scanRoot Marks.empty
            phase := .marking
            removed := [] } } := by
    simp [start, Collector.inProgress, hidle]
  rw [hstart]
  constructor
  · exact ⟨[], (List.append_nil _).symm, .scanRoots b.scene.roots Stays⟩
  · simp
  · simp
  · simp

theorem Adrift.markStep {b cur : Bench} {Stays : Handle → Handle → Prop}
    (h : Adrift b Stays cur) (hphase : cur.collector.phase = .marking)
    (hstays : ∀ v w, Stays v w → w ∈ cur.scene.childrenOf v) :
    Adrift b Stays cur.markStep := by
  obtain ⟨traced, htraced, hm⟩ := h.traced
  have htrace := hm.trace hstays Collector.stepSize b.traced
  rw [← htraced] at htrace
  have hdrained := queue_of_drained cur.scene Collector.stepSize
    cur.collector.marks cur.traced
  unfold Bench.markStep
  simp only
  split
  next hend =>
    constructor
    · exact htrace
    · simp
    · exact fun _ => hdrained hend
    · simp
  next =>
    constructor
    · exact htrace
    · simp [hphase]
    · simp [hphase]
    · exact fun _ => h.unswept hphase

theorem Adrift.sweepStep {b cur : Bench} {Stays : Handle → Handle → Prop}
    (h : Adrift b Stays cur) (hphase : cur.collector.phase = .sweeping) :
    Adrift b Stays cur.sweepStep := by
  have hqueue := h.drained (by simp [hphase])
  unfold Bench.sweepStep
  simp only
  split
  next =>
    constructor
    · exact h.traced
    · simp [finishSweep]
    · exact fun _ => hqueue
    · simp [finishSweep]
  next =>
    constructor
    · exact h.traced
    · simp [hphase]
    · exact fun _ => hqueue
    · simp [hphase]

theorem Adrift.perform {b cur : Bench} {Stays : Handle → Handle → Prop}
    (h : Adrift b Stays cur) {op : Operation} (hop : op.drifts = true)
    (hstays : cur.collector.phase = .marking →
      ∀ v w, Stays v w → w ∈ cur.scene.childrenOf v) :
    Adrift b Stays (cur.perform op).1 := by
  cases op with
  | step =>
      change Adrift b Stays cur.step.1
      unfold Bench.step
      cases hphase : cur.collector.phase with
      | idle => exact h
      | rootScanning => exact absurd hphase h.scanned
      | marking => exact h.markStep hphase (hstays hphase)
      | sweeping => exact h.sweepStep hphase
  | takeRemoved => exact ⟨h.traced, h.scanned, h.drained, h.unswept⟩
  | addLive v => exact ⟨h.traced, h.scanned, h.drained, h.unswept⟩
  | setChildren v ws => exact ⟨h.traced, h.scanned, h.drained, h.unswept⟩
  | setRoots roots => exact ⟨h.traced, h.scanned, h.drained, h.unswept⟩
  | start => contradiction
  | finish => contradiction
  | collect => contradiction

/-- What a sweep has done since it began on the bench `turn`: it went through
some of the candidates and released the white ones. -/
structure SweptSince (turn cur : Bench) : Prop where
  phase : cur.collector.phase = .sweeping ∨ cur.collector.phase = .idle
  marks : cur.collector.marks = turn.collector.marks
  candidates : cur.collector.phase = .sweeping →
    cur.collector.candidates = turn.collector.candidates
  released : ∃ n ≤ turn.collector.candidates.length,
    cur.released = turn.released ++
        turn.collector.marks.whites (turn.collector.candidates.take n) ∧
      (cur.collector.phase = .sweeping → cur.collector.cursor = n)

theorem sweptSince_self {turn : Bench}
    (hphase : turn.collector.phase = .sweeping)
    (hcursor : turn.collector.cursor = 0) : SweptSince turn turn := by
  constructor
  · exact Or.inl hphase
  · rfl
  · exact fun _ => rfl
  · exact ⟨0, Nat.zero_le _, by simp [Marks.whites], fun _ => hcursor⟩

theorem SweptSince.sweepStep {turn cur : Bench} (h : SweptSince turn cur)
    (hphase : cur.collector.phase = .sweeping) :
    SweptSince turn cur.sweepStep := by
  obtain ⟨n, hn, hreleased, hcursor⟩ := h.released
  obtain ⟨stop, hstop⟩ : ∃ stop, stop = min (n + Collector.stepSize)
      turn.collector.candidates.length := ⟨_, rfl⟩
  have hle : n ≤ stop := by omega
  have hbound : stop ≤ turn.collector.candidates.length := by omega
  have hwhite : List.filter (fun v => !cur.collector.isMarked v)
      ((turn.collector.candidates.take stop).drop n) =
        turn.collector.marks.whites
          ((turn.collector.candidates.take stop).drop n) := by
    unfold Collector.isMarked
    rw [h.marks]
    rfl
  have hmore : cur.released ++
      turn.collector.marks.whites
        ((turn.collector.candidates.take stop).drop n) =
      turn.released ++
        turn.collector.marks.whites (turn.collector.candidates.take stop) := by
    rw [hreleased, List.append_assoc, Marks.whites_take_append _ _ hle]
  unfold Bench.sweepStep
  simp only [h.candidates hphase, hcursor hphase, ← hstop, hwhite]
  split
  next =>
    constructor
    · exact Or.inr rfl
    · exact h.marks
    · simp [finishSweep]
    · exact ⟨stop, hbound, hmore, by simp [finishSweep]⟩
  next =>
    constructor
    · exact Or.inl hphase
    · exact h.marks
    · exact fun _ => rfl
    · exact ⟨stop, hbound, hmore, fun _ => rfl⟩

theorem SweptSince.perform {turn cur : Bench} (h : SweptSince turn cur)
    {op : Operation} (hop : op.drifts = true) :
    SweptSince turn (cur.perform op).1 := by
  cases op with
  | step =>
      change SweptSince turn cur.step.1
      unfold Bench.step
      rcases h.phase with hphase | hphase
      · rw [hphase]
        exact h.sweepStep hphase
      · rw [hphase]
        exact h
  | takeRemoved => exact ⟨h.phase, h.marks, h.candidates, h.released⟩
  | addLive v => exact ⟨h.phase, h.marks, h.candidates, h.released⟩
  | setChildren v ws => exact ⟨h.phase, h.marks, h.candidates, h.released⟩
  | setRoots roots => exact ⟨h.phase, h.marks, h.candidates, h.released⟩
  | start => contradiction
  | finish => contradiction
  | collect => contradiction

/-! ## Runs -/

theorem adrift_run {b : Bench} (hidle : b.collector.phase = .idle)
    {all ops : List Operation} (hall : ops <+: all)
    (hops : ∀ op ∈ ops, op.drifts = true) :
    Adrift b (StaysChild b all) (b.start.run ops) := by
  induction ops using List.reverseRecOn with
  | nil => exact adrift_start b hidle _
  | append_singleton ops op ih =>
      have hprefix : ops <+: all := (List.prefix_append ops [op]).trans hall
      have hrest := ih hprefix fun o ho => hops o (List.mem_append_left _ ho)
      rw [run_concat]
      refine hrest.perform (hops op (by simp)) fun hphase v w hstay => ?_
      exact hstay ops hprefix hphase

/-- A sweep that begins in a run goes on as a sweep of the marks and the
candidates that it began with. -/
theorem sweptSince_run {b : Bench} {ops before : List Operation}
    (hops : ∀ op ∈ ops, op.drifts = true) (hturn : SweepBegins b ops before) :
    SweptSince (b.turn before) (b.start.run ops) := by
  induction ops using List.reverseRecOn with
  | nil => simpa using hturn.within
  | append_singleton ops op ih =>
      rcases List.prefix_concat_iff.mp hturn.within with heq | hwithin
      · rw [← heq]
        exact sweptSince_self hturn.sweeping hturn.unswept.2
      · have hrest := ih (fun o ho => hops o (List.mem_append_left _ ho))
          ⟨hwithin, hturn.marking, hturn.sweeping⟩
        rw [run_concat b.start ops op]
        exact hrest.perform (hops op (by simp))

/-- A cycle that is no longer marking has begun its sweep. -/
theorem exists_sweepBegins {b : Bench} (hidle : b.collector.phase = .idle)
    {ops : List Operation} (hops : ∀ op ∈ ops, op.drifts = true)
    (hphase : (b.start.run ops).collector.phase ≠ .marking) :
    ∃ before, SweepBegins b ops before := by
  induction ops using List.reverseRecOn with
  | nil =>
      exfalso
      apply hphase
      simp [run, start, Collector.inProgress, hidle]
  | append_singleton ops op ih =>
      have hrest : ∀ o ∈ ops, o.drifts = true :=
        fun o ho => hops o (List.mem_append_left _ ho)
      by_cases hmarking : (b.start.run ops).collector.phase = .marking
      · rw [run_concat] at hphase
        rcases phase_perform hmarking (hops op (by simp)) with
          hstill | ⟨rfl, hsweeping⟩
        · exact absurd hstill hphase
        · rw [← run_concat] at hsweeping
          exact ⟨ops, List.prefix_rfl, hmarking, hsweeping⟩
      · obtain ⟨before, hturn⟩ := ih hrest hmarking
        exact ⟨before, hturn.mono (List.prefix_append ops [op])⟩

/-! ## The whole cycle -/

theorem isMarked_turn {b : Bench} (hidle : b.collector.phase = .idle)
    {ops before : List Operation} (hops : ∀ op ∈ ops, op.drifts = true)
    (hturn : SweepBegins b ops before) {path : Nat → Handle} {k : Nat}
    (hroot : FirstVisit b.scene.roots (path 0))
    (hstays : ∀ i < k, StaysChild b ops (path i) (path (i + 1)))
    (hpin : ∀ i, 0 < i → i < k → ¬ FirstPin b.scene.roots (path i)) :
    (b.turn before).collector.isMarked (path k) = true := by
  have hadrift := adrift_run hidle hturn.within
    fun o ho => hops o (hturn.within.subset ho)
  obtain ⟨traced, _, hm⟩ := hadrift.traced
  have hqueue := hadrift.drained (by simp [hturn.sweeping])
  exact hm.isMarked_path hqueue hroot hstays hpin

theorem released_of_turn {b : Bench} (hidle : b.collector.phase = .idle)
    {ops before : List Operation} (hops : ∀ op ∈ ops, op.drifts = true)
    (hturn : SweepBegins b ops before) :
    ∃ n, (b.start.run ops).released = b.released ++
      (b.turn before).collector.marks.whites
        ((b.turn before).collector.candidates.take n) := by
  have hadrift := adrift_run hidle hturn.before_prefix
    fun o ho => hops o (hturn.before_prefix.subset ho)
  have hunswept : (b.turn before).released = b.released := by
    rw [hturn.turn_eq]
    exact hadrift.unswept hturn.marking
  obtain ⟨n, _, hreleased, _⟩ := (sweptSince_run hops hturn).released
  rw [hunswept] at hreleased
  exact ⟨n, hreleased⟩

/-- What a cycle does that was started on a bench and went through some
operations, in terms of the vertices that it traced and released. -/
structure DriftingCycle (b : Bench) (ops : List Operation)
    (traced released : List Handle) : Prop where
  traced_eq : (b.start.run ops).traced = b.traced ++ traced
  released_eq : (b.start.run ops).released = b.released ++ released
  traced_nodup : traced.Nodup
  released_nodup : released.Nodup
  /-- Nothing is released before the sweep begins, and then only what is a
  candidate without a mark at that moment. -/
  released_white : ∀ v ∈ released, (∃ before, SweepBegins b ops before) ∧
    ∀ before, SweepBegins b ops before →
      v ∈ (b.turn before).collector.candidates ∧
      (b.turn before).collector.isMarked v = false
  /-- A path from a visited root that stays in place while the cycle marks is
  marked to its end when the sweep begins, and its end is kept. -/
  path_kept : ∀ (path : Nat → Handle) (k : Nat),
    FirstVisit b.scene.roots (path 0) →
    (∀ i < k, StaysChild b ops (path i) (path (i + 1))) →
    (∀ i, 0 < i → i < k → ¬ FirstPin b.scene.roots (path i)) →
    (∀ before, SweepBegins b ops before →
      (b.turn before).collector.isMarked (path k) = true) ∧
    path k ∉ released

/-- Whatever happens to the scene between the steps of a cycle, paths that
stay in place survive it, no vertex is traced twice, and only white candidates
are released, each of them once. -/
theorem stable_paths_survive (b : Bench) (hidle : b.collector.phase = .idle)
    (ops : List Operation) (hops : ∀ op ∈ ops, op.drifts = true) :
    ∃ traced released, DriftingCycle b ops traced released := by
  have hadrift := adrift_run hidle List.prefix_rfl hops
  obtain ⟨traced, htraced, hm⟩ := hadrift.traced
  obtain ⟨released, hreleased, hbegun⟩ : ∃ released,
      (b.start.run ops).released = b.released ++ released ∧
        (released ≠ [] → ∃ before, SweepBegins b ops before) := by
    by_cases hphase : (b.start.run ops).collector.phase = .marking
    · refine ⟨[], ?_, by simp⟩
      rw [hadrift.unswept hphase, List.append_nil]
    · obtain ⟨before, hturn⟩ := exists_sweepBegins hidle hops hphase
      obtain ⟨n, hn⟩ := released_of_turn hidle hops hturn
      exact ⟨_, hn, fun _ => ⟨before, hturn⟩⟩
  have hwhites : ∀ before, SweepBegins b ops before → ∃ n, released =
      (b.turn before).collector.marks.whites
        ((b.turn before).collector.candidates.take n) := by
    intro before hturn
    obtain ⟨n, hn⟩ := released_of_turn hidle hops hturn
    rw [hreleased] at hn
    exact ⟨n, List.append_cancel_left hn⟩
  have hwhite : ∀ v ∈ released, ∀ before, SweepBegins b ops before →
      v ∈ (b.turn before).collector.candidates ∧
        (b.turn before).collector.isMarked v = false := by
    intro v hv before hturn
    obtain ⟨n, hn⟩ := hwhites before hturn
    rw [hn, Marks.mem_whites, Bool.not_eq_true] at hv
    exact ⟨List.mem_of_mem_take hv.1, hv.2⟩
  refine ⟨traced, released, htraced, hreleased, hm.nodup, ?_, ?_, ?_⟩
  · by_cases hnil : released = []
    · simp [hnil]
    obtain ⟨before, hturn⟩ := hbegun hnil
    obtain ⟨n, hn⟩ := hwhites before hturn
    have hcandidates : (b.turn before).collector.candidates.Nodup := by
      rw [hturn.unswept.1]
      exact Handle.Ascending.nodup inferInstance
    rw [hn]
    exact (hcandidates.sublist (List.take_sublist n _)).filter _
  · exact fun v hv => ⟨hbegun (List.ne_nil_of_mem hv), hwhite v hv⟩
  · intro path k hroot hstays hpin
    have hmarked : ∀ before, SweepBegins b ops before →
        (b.turn before).collector.isMarked (path k) = true :=
      fun before hturn => isMarked_turn hidle hops hturn hroot hstays hpin
    refine ⟨hmarked, fun hv => ?_⟩
    obtain ⟨before, hturn⟩ := hbegun (List.ne_nil_of_mem hv)
    have hnot := (hwhite _ hv before hturn).2
    rw [hmarked before hturn] at hnot
    contradiction

/-- The path from 1 over 2 to 3 stays in place.  Behind 1 wait so many other
roots that the first step stops before it comes to 2, and the host moves what
it can in between. -/
def longPath : Bench :=
  new ⟨.visit ⟨1⟩ :: .pin ⟨4⟩ :: (List.range 99).map fun i => .visit ⟨10 + i⟩,
    .ofList [(⟨1⟩, [⟨2⟩]), (⟨2⟩, [⟨3⟩]), (⟨10⟩, [⟨6⟩]), (⟨20⟩, [⟨7⟩])],
    (List.range 8).map Handle.mk⟩

def longPathOps : List Operation :=
  [.setChildren ⟨10⟩ [⟨1⟩], .step, .setRoots [.pin ⟨2⟩], .addLive ⟨8⟩, .step,
    .setChildren ⟨2⟩ [], .step]

theorem stable_paths_survive_longPath :
    longPath.collector.phase = .idle ∧
      (∀ op ∈ longPathOps, op.drifts = true) ∧
      FirstVisit longPath.scene.roots ⟨1⟩ ∧
      StaysChild longPath longPathOps ⟨1⟩ ⟨2⟩ ∧
      StaysChild longPath longPathOps ⟨2⟩ ⟨3⟩ ∧
      ¬ FirstPin longPath.scene.roots ⟨2⟩ ∧
      SweepBegins longPath longPathOps (longPathOps.take 4) ∧
      ∃ traced released,
        DriftingCycle longPath longPathOps traced released ∧
        released = [⟨0⟩, ⟨5⟩, ⟨6⟩, ⟨8⟩] ∧ traced.length = 103 ∧
        ⟨3⟩ ∉ released := by
  have hidle : longPath.collector.phase = .idle := rfl
  have hops : ∀ op ∈ longPathOps, op.drifts = true := by decide
  have hroot : FirstVisit longPath.scene.roots ⟨1⟩ :=
    ⟨[], _, rfl, List.not_mem_nil⟩
  have hpin : ¬ FirstPin longPath.scene.roots ⟨2⟩ := by
    intro h
    exact absurd h.mem (by decide)
  obtain ⟨hchildren, hphases, hlog⟩ : (∀ before ∈ longPathOps.inits,
      (longPath.start.run before).collector.phase = .marking →
        ⟨2⟩ ∈ (longPath.start.run before).scene.childrenOf ⟨1⟩ ∧
        ⟨3⟩ ∈ (longPath.start.run before).scene.childrenOf ⟨2⟩) ∧
      ((longPath.start.run (longPathOps.take 4)).collector.phase = .marking ∧
        (longPath.start.run (longPathOps.take 4 ++ [.step])).collector.phase =
          .sweeping) ∧
      (longPath.start.run longPathOps).released = [⟨0⟩, ⟨5⟩, ⟨6⟩, ⟨8⟩] ∧
      (longPath.start.run longPathOps).traced.length = 103 := by
    decide +kernel
  have hstays : StaysChild longPath longPathOps ⟨1⟩ ⟨2⟩ ∧
      StaysChild longPath longPathOps ⟨2⟩ ⟨3⟩ := by
    constructor <;> intro before hwithin hphase
    · exact (hchildren before ((List.mem_inits _ _).mpr hwithin) hphase).1
    · exact (hchildren before ((List.mem_inits _ _).mpr hwithin) hphase).2
  have hturn : SweepBegins longPath longPathOps (longPathOps.take 4) :=
    ⟨⟨[.setChildren ⟨2⟩ [], .step], rfl⟩, hphases.1, hphases.2⟩
  obtain ⟨traced, released, hcycle⟩ :=
    stable_paths_survive longPath hidle longPathOps hops
  rw [hcycle.released_eq, hcycle.traced_eq] at hlog
  have hkept := hcycle.path_kept (fun i => ⟨i + 1⟩) 2 hroot
    (fun i hi => by interval_cases i; exacts [hstays.1, hstays.2])
    (fun i hpos hi => by interval_cases i; exact hpin)
  exact ⟨hidle, hops, hroot, hstays.1, hstays.2, hpin, hturn, traced, released,
    hcycle, hlog.1, hlog.2, hkept.2⟩

end Bench

end LiveHeap
