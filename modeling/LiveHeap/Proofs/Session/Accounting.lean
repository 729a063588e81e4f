import LiveHeap.Proofs.Session.Lockstep
import LiveHeap.Proofs.Session.Offence

/-!
# Batches accounted for

Where a session ends is known from the entries of its trace (`Trace.EndsAt`).
Of the steps before that place every full group is a batch that yields, and the
batch behind them ends the session: it runs out of steps, or it comes to the
step that offends.  From then on nothing changes any more.
-/

namespace LiveHeap

/-- The batch that ends a session, by what the session answers. -/
def Batch.closing : Except SessionError Unit → Batch
  | .ok () => .done
  | .error e => .failed e

/-- Where a playback of the steps ends: how many of them are played to their
end, which entries are told, and what the session answers. -/
inductive Trace.EndsAt (stacked : Bool) (t : Trace) :
    Nat → List Entry → Except SessionError Unit → Prop
  | all (sound : Sound stacked t.bootstrap t.steps.flatten) :
      EndsAt stacked t t.steps.length t.steps.flatten (.ok ())
  | offence {done rest : List (List Entry)} {step before : List Entry}
      {entry : Entry} (split : t.steps = done ++ step :: rest)
      (sound : Sound stacked t.bootstrap done.flatten)
      (first : FirstOffence stacked (t.bootstrap ++ done.flatten) step before
        entry) :
      EndsAt stacked t done.length (done.flatten ++ before)
        (.error (t.machine.failure done.length entry.error))

namespace Trace

variable {stacked : Bool} {t : Trace} {count : Nat} {told : List Entry}
  {result : Except SessionError Unit}

theorem exists_endsAt_of_split {done rest : List (List Entry)}
    (hsplit : t.steps = done ++ rest)
    (hsound : Sound stacked t.bootstrap done.flatten) :
    ∃ count told result, t.EndsAt stacked count told result := by
  induction rest generalizing done with
  | nil =>
      rw [List.append_nil] at hsplit
      rw [← hsplit] at hsound
      exact ⟨_, _, _, .all hsound⟩
  | cons step rest ih =>
      rcases sound_or_offence stacked (t.bootstrap ++ done.flatten) step
        with hstep | ⟨before, entry, hfirst⟩
      · have hmore : t.steps = (done ++ [step]) ++ rest := by
          rw [hsplit, List.append_cons]
        apply ih hmore
        rw [List.flatten_concat]
        exact sound_append.mpr ⟨hsound, hstep⟩
      · exact ⟨_, _, _, .offence hsplit hsound hfirst⟩

theorem exists_endsAt (stacked : Bool) (t : Trace) :
    ∃ count told result, t.EndsAt stacked count told result :=
  exists_endsAt_of_split (List.nil_append _).symm (sound_nil stacked _)

namespace EndsAt

theorem le (h : t.EndsAt stacked count told result) :
    count ≤ t.steps.length := by
  cases h with
  | all hsound => exact Nat.le_refl _
  | offence hsplit hsound hfirst =>
      rw [hsplit, List.length_append]
      exact Nat.le_add_right _ _

theorem sound_take (h : t.EndsAt stacked count told result) {position : Nat}
    (hposition : position ≤ count) :
    Sound stacked t.bootstrap (t.steps.take position).flatten := by
  have hall : Sound stacked t.bootstrap (t.steps.take count).flatten := by
    cases h with
    | all hsound => rwa [List.take_length]
    | offence hsplit hsound hfirst => rwa [hsplit, List.take_left]
  have hsplit : t.steps.take count =
      t.steps.take position ++ (t.steps.drop position).take
        (count - position) := by
    rw [← List.take_add, Nat.add_sub_cancel' hposition]
  rw [hsplit, List.flatten_append, sound_append] at hall
  exact hall.1

end EndsAt

end Trace

/-- A window that begins before an element and ends behind it. -/
theorem window_eq {α : Type} {before : List α} {start size : Nat}
    (hstart : start ≤ before.length) (hend : before.length < start + size)
    (x : α) (later : List α) :
    ∃ others, ((before ++ x :: later).drop start).take size =
      before.drop start ++ x :: others := by
  have hroom : size - (before.drop start).length =
      start + size - before.length - 1 + 1 := by
    rw [List.length_drop]
    omega
  have hshort : (before.drop start).length ≤ size := by
    rw [List.length_drop]
    omega
  rw [List.drop_append_of_le_length hstart, List.take_append,
    List.take_of_length_le hshort, hroom, List.take_succ_cons]
  exact ⟨_, rfl⟩

namespace Stepper

variable {σ : Type} [Observer σ] {t : Trace} {stacked : Bool}
  {r : List Entry → σ → Prop} {size m : Nat} {collectGarbage : Bool}
  {count : Nat} {told : List Entry} {result : Except SessionError Unit}
  {s : Stepper σ}

/-- A session that replays a trace, when a number of batches have yielded. -/
structure OnCourse (t : Trace) (r : List Entry → σ → Prop) (size : Nat)
    (collectGarbage : Bool) (count : Nat) (s : Stepper σ) : Prop where
  settled : s.Settled size collectGarbage
  session : s.session = .ok (t.machine.skip (count * size))
  running : s.status ≠ .done
  observer : r (t.steps.take (count * size)).flatten s.observer
  steps : s.steps = count * size
  yields : s.yields = count

/-- A session that is over, and says so again with every batch. -/
structure Over (count yields : Nat) (result : Except SessionError Unit)
    (s : Stepper σ) : Prop where
  steps : s.steps = count
  yields : s.yields = yields
  terminal : s.status.isTerminal = true
  again : s.runBatch = (s, .closing result)
  output : s.error? = none → s.output = .ok count

/-- Relations that a collection outlives, if collections are allowed. -/
def OutlivesCollection (r : List Entry → σ → Prop) (collectGarbage : Bool) :
    Prop :=
  collectGarbage = true → ∀ told o, r told o → r told (Observer.collect o)

theorem OutlivesCollection.atBoundary
    (h : OutlivesCollection r s.collectGarbage) (ho : r told s.observer) :
    r told s.collectAtBoundary.observer := by
  unfold collectAtBoundary
  split
  next hdue => exact h (Bool.and_eq_true_iff.mp hdue).1 told _ ho
  next => exact ho

/-! ## One batch -/

namespace OnCourse

variable (h : s.OnCourse t r size collectGarbage count)
  (hforesees : Foresees stacked t.bootstrap r)

include h hforesees

theorem playSteps_sound (hcollect : OutlivesCollection r collectGarbage)
    (hle : count * size ≤ t.steps.length)
    (hsound : Sound stacked t.bootstrap
      (t.steps.take ((count + 1) * size)).flatten) :
    ∃ p, playSteps s.observer ((t.machine.skip (count * size)).pending.take
        s.batchSize) = p ∧
      p.failed = none ∧
      count * size + p.count = min ((count + 1) * size) t.steps.length ∧
      r (t.steps.take ((count + 1) * size)).flatten
        (s.played (t.machine.skip (count * size))
          p).collectAtBoundary.observer := by
  have hsplit : t.steps.take ((count + 1) * size) =
      t.steps.take (count * size) ++
        (t.steps.drop (count * size)).take size := by
    rw [Nat.add_one_mul, List.take_add]
  rw [hsplit, List.flatten_append, sound_append] at hsound
  have ⟨hnone, hlength, htold⟩ := hforesees.playSteps h.observer hsound.2
  rw [← List.flatten_append, ← hsplit] at htold
  refine ⟨_, rfl, ?_⟩
  rw [Trace.pending_skip, h.settled.batchSize]
  refine ⟨hnone, ?_, ?_⟩
  · rw [hlength, List.length_take, List.length_drop, Nat.add_one_mul]
    omega
  · apply OutlivesCollection.atBoundary
    · exact h.settled.collectGarbage.symm ▸ hcollect
    · exact htold

theorem runBatch_of_full (hcollect : OutlivesCollection r collectGarbage)
    (hfull : (count + 1) * size ≤ t.steps.length)
    (hsound : Sound stacked t.bootstrap
      (t.steps.take ((count + 1) * size)).flatten) :
    s.runBatch.2 = .yielded ∧
      s.runBatch.1.OnCourse t r size collectGarbage (count + 1) := by
  have hsettled := h.settled.runBatch
  have hgroup := Nat.add_one_mul count size
  rcases h.playSteps_sound hforesees hcollect (by omega) hsound
    with ⟨p, hp, hnone, hcount, hboundary⟩
  rw [Nat.min_eq_left hfull] at hcount
  have hleft : s.batchSize ≤ (t.machine.skip (count * size)).remaining := by
    rw [Trace.remaining_skip, h.settled.batchSize]
    omega
  rw [runBatch_of_ok h.session h.running, runMachine_of_full hp hnone hleft,
    yielding_eq] at hsettled ⊢
  refine ⟨rfl, hsettled, ?_, nofun, hboundary, ?_, ?_⟩
  · rw [Machine.skip_skip, hcount]
  · rw [h.steps, hcount]
  · rw [h.yields]

theorem runBatch_of_short (hcollect : OutlivesCollection r collectGarbage)
    (hle : count * size ≤ t.steps.length)
    (hshort : t.steps.length < (count + 1) * size)
    (hsound : Sound stacked t.bootstrap t.steps.flatten) :
    s.runBatch.2 = .done ∧ r t.steps.flatten s.runBatch.1.observer ∧
      s.runBatch.1.Over t.steps.length count (.ok ()) := by
  have hgroup := Nat.add_one_mul count size
  have hall : t.steps.take ((count + 1) * size) = t.steps :=
    List.take_of_length_le (Nat.le_of_lt hshort)
  rcases h.playSteps_sound hforesees hcollect hle (by rwa [hall])
    with ⟨p, hp, hnone, hcount, hboundary⟩
  rw [Nat.min_eq_right (Nat.le_of_lt hshort)] at hcount
  rw [hall] at hboundary
  have hleft : (t.machine.skip (count * size)).remaining < s.batchSize := by
    rw [Trace.remaining_skip, h.settled.batchSize]
    omega
  rw [runBatch_of_ok h.session h.running, runMachine_of_short hp hnone hleft,
    ended_eq]
  refine ⟨rfl, hboundary, ?_⟩
  constructor
  · rw [h.steps, hcount]
  · exact h.yields
  · rfl
  · rw [runBatch, if_pos rfl]
    rfl
  · intro _
    simp only [output, Machine.skip_skip, hcount]
    exact congrArg Except.ok (Nat.zero_add _)

section Offence

variable {done rest : List (List Entry)} {step before : List Entry}
  {entry : Entry} (hsteps : t.steps = done ++ step :: rest)
  (hle : count * size ≤ done.length)
  (hlt : done.length < (count + 1) * size)
  (hsound : Sound stacked t.bootstrap done.flatten)
  (hfirst : FirstOffence stacked (t.bootstrap ++ done.flatten) step before
    entry)

include hsteps hle hlt hsound hfirst

/-- The offending step may stand anywhere in its batch.  The steps of the batch
before it are played back and counted. -/
theorem playSteps_stopped :
    ∃ p, playSteps s.observer ((t.machine.skip (count * size)).pending.take
        s.batchSize) = p ∧
      p.failed = some entry.error ∧
      count * size + p.count = done.length ∧
      r (done.flatten ++ before) p.observer := by
  have hbefore : t.steps.take (count * size) = done.take (count * size) := by
    rw [hsteps, List.take_append_of_le_length hle]
  have hsplit : (done.take (count * size)).flatten ++
      (done.drop (count * size)).flatten = done.flatten := by
    rw [← List.flatten_append, List.take_append_drop]
  rw [Nat.add_one_mul] at hlt
  rcases window_eq hle hlt step rest with ⟨others, hbatch⟩
  rw [← hsteps] at hbatch
  have hstart := h.observer
  rw [hbefore] at hstart
  rw [← hsplit, sound_append] at hsound
  rw [← hsplit] at hfirst
  have ⟨hfailed, hcount, htold⟩ := hforesees.playSteps_offence hstart hsound.2
    hfirst others
  rw [← List.append_assoc, hsplit] at htold
  refine ⟨_, rfl, ?_⟩
  rw [Trace.pending_skip, h.settled.batchSize, hbatch]
  refine ⟨hfailed, ?_, htold⟩
  rw [hcount, List.length_drop]
  omega

theorem runBatch_of_offence :
    s.runBatch.2 = .failed (t.machine.failure done.length entry.error) ∧
      r (done.flatten ++ before) s.runBatch.1.observer ∧
      s.runBatch.1.Over done.length count
        (.error (t.machine.failure done.length entry.error)) := by
  rcases h.playSteps_stopped hforesees hsteps hle hlt hsound hfirst
    with ⟨p, hp, hfailed, hcount, htold⟩
  rw [runBatch_of_ok h.session h.running, runMachine_of_failed hp hfailed,
    Machine.failure_skip, hcount]
  refine ⟨rfl, htold, ?_⟩
  constructor
  · exact (congrArg (· + p.count) h.steps).trans hcount
  · exact h.yields
  · rfl
  · rfl
  · nofun

end Offence

/-- The batch behind the full groups ends the session. -/
theorem runBatch_ends (hcollect : OutlivesCollection r collectGarbage)
    (hends : t.EndsAt stacked m told result) (hcount : count = m / size) :
    s.runBatch.2 = .closing result ∧ r told s.runBatch.1.observer ∧
      s.runBatch.1.Over m count result := by
  have hpos : 0 < size := by
    rw [← h.settled.batchSize]
    exact s.batchSize_pos
  have hle : count * size ≤ m := by
    rw [hcount]
    exact Nat.div_mul_le_self m size
  have hlt : m < (count + 1) * size := by
    rw [← Nat.div_lt_iff_lt_mul hpos, hcount]
    exact Nat.lt_succ_self _
  cases hends with
  | all hsound => exact h.runBatch_of_short hforesees hcollect hle hlt hsound
  | offence hsteps hsound hfirst =>
      exact h.runBatch_of_offence hforesees hsteps hle hlt hsound hfirst

end OnCourse

/-! ## Whole sessions -/

/-- All batches of a session that plays some steps to their end. -/
structure Accounts (s : Stepper σ) (size count : Nat)
    (result : Except SessionError Unit) : Prop where
  yielded : ∀ k < count / size, (s.batches k).runBatch.2 = .yielded
  before : ∀ k ≤ count / size, (s.batches k).steps = k * size ∧
    (s.batches k).yields = k ∧ (s.batches k).output = .ok (k * size)
  closing : ∀ k ≥ count / size, (s.batches k).runBatch.2 = .closing result
  after : ∀ k > count / size, (s.batches k).Over count (count / size) result
  still : ∀ k > count / size, s.batches k = s.batches (count / size + 1)
  completion : s.runToCompletion = (s.batches (count / size + 1), result)

theorem batches_of_over {yields : Nat}
    (hover : (s.batches count).Over m yields result) {later : Nat}
    (hlater : count ≤ later) : s.batches later = s.batches count := by
  induction later, hlater using Nat.le_induction with
  | base => rfl
  | succ later _ ih => rw [batches, ih, hover.again]

theorem batches_succ (s : Stepper σ) (count : Nat) :
    s.batches (count + 1) = s.runBatch.1.batches count := by
  induction count with
  | zero => rfl
  | succ count ih => rw [batches, ih]; rfl

theorem runToCompletion_of_batches
    (hyielded : ∀ k < count, (s.batches k).runBatch.2 = .yielded)
    (hclosing : (s.batches count).runBatch.2 = .closing result) :
    s.runToCompletion = (s.batches (count + 1), result) := by
  induction count generalizing s with
  | zero =>
      rcases result with e | ⟨⟩
      · exact runToCompletion_of_failed (Prod.ext rfl hclosing)
      · exact runToCompletion_of_done (Prod.ext rfl hclosing)
  | succ count ih =>
      have hfirst : s.runBatch.2 = .yielded := hyielded 0 (Nat.succ_pos count)
      rw [runToCompletion_of_yielded (Prod.ext rfl hfirst),
        batches_succ s (count + 1)]
      apply ih
      · intro k hk
        rw [← batches_succ]
        exact hyielded (k + 1) (Nat.succ_lt_succ hk)
      · rwa [← batches_succ]

namespace OnCourse

variable (h : s.OnCourse t r size collectGarbage 0)
  (hforesees : Foresees stacked t.bootstrap r)
  (hcollect : OutlivesCollection r collectGarbage)
  (hends : t.EndsAt stacked m told result)

include h hforesees hcollect hends

theorem batches (hcount : count ≤ m / size) :
    (s.batches count).OnCourse t r size collectGarbage count ∧
      ∀ k < count, (s.batches k).runBatch.2 = .yielded := by
  have hle : ∀ k ≤ m / size, k * size ≤ m := fun k hk =>
    (Nat.mul_le_mul_right size hk).trans (Nat.div_mul_le_self m size)
  induction count with
  | zero => exact ⟨h, nofun⟩
  | succ count ih =>
      have ⟨hcourse, hyielded⟩ := ih (Nat.le_of_succ_le hcount)
      have ⟨hbatch, hnext⟩ := hcourse.runBatch_of_full hforesees hcollect
        ((hle _ hcount).trans hends.le) (hends.sound_take (hle _ hcount))
      refine ⟨hnext, fun k hk => ?_⟩
      rcases Nat.lt_succ_iff_lt_or_eq.mp hk with hlt | rfl
      · exact hyielded k hlt
      · exact hbatch

theorem accounts :
    s.Accounts size m result ∧
      r told (s.batches (m / size + 1)).observer := by
  have hcourse : ∀ k ≤ m / size,
      (s.batches k).OnCourse t r size collectGarbage k ∧
        ∀ j < k, (s.batches j).runBatch.2 = .yielded :=
    fun k hk => h.batches hforesees hcollect hends hk
  have ⟨hclosing, htold, hover⟩ := (hcourse _ (Nat.le_refl _)).1.runBatch_ends
    hforesees hcollect hends rfl
  have hstill : ∀ k > m / size, s.batches k = s.batches (m / size + 1) :=
    fun k hk => batches_of_over hover hk
  refine ⟨?_, htold⟩
  constructor
  · exact (hcourse _ (Nat.le_refl _)).2
  · intro k hk
    have hk := (hcourse k hk).1
    refine ⟨hk.steps, hk.yields, ?_⟩
    rw [output, hk.session]
    exact congrArg Except.ok (Nat.zero_add _)
  · intro k hk
    rcases Nat.eq_or_lt_of_le hk with rfl | hlt
    · exact hclosing
    · rw [hstill k hlt]
      exact congrArg Prod.snd hover.again
  · intro k hk
    rw [hstill k hk]
    exact hover
  · exact hstill
  · exact runToCompletion_of_batches (hcourse _ (Nat.le_refl _)).2 hclosing

end OnCourse

/-! ## The opening -/

section New

variable {source : String} (hparse : Trace.parse source = .ok t) (o : σ)
  (options : Options)

include hparse

theorem error?_new :
    (new .replay source o options).error? =
      (playBack (Observer.enterBootstrap o) t.bootstrap).2.map fun e =>
        (Engine.replay.raise e).toSession := by
  have hopen := openSession_replay hparse o
  unfold new
  rw [hopen]
  rcases playBack (Observer.enterBootstrap o) t.bootstrap with ⟨o', _ | e⟩ <;>
    rfl

theorem onCourse_new (hok : (new .replay source o options).error? = none)
    (hopened : ∀ o',
      playBack (Observer.enterBootstrap o) t.bootstrap = (o', none) →
        r [] (Observer.leaveBootstrap o' t.builtins t.global)) :
    (new .replay source o options).OnCourse t r (max options.batchSize 1)
      options.collectGarbage 0 := by
  have hopen := openSession_replay hparse o
  rw [error?_new hparse, Option.map_eq_none_iff] at hok
  unfold new
  rcases hplayed : playBack (Observer.enterBootstrap o) t.bootstrap
    with ⟨o', failed⟩
  obtain rfl : failed = none := by rwa [hplayed] at hok
  rw [hplayed] at hopen
  rw [hopen]
  refine ⟨⟨rfl, rfl, nofun⟩, ?_, nofun, ?_, ?_, rfl⟩
  · simp [Machine.skip]
  · rw [Nat.zero_mul, List.take_zero]
    exact hopened o' hplayed
  · exact (Nat.zero_mul _).symm

end New

end Stepper

namespace Graph

variable {g : Graph} {told : List Entry} {t : Trace}

theorem frames_leaveBootstrap (hg : g.WellFormed) (builtins : List ValueId)
    (global : Option ValueId) :
    (g.leaveBootstrap builtins global).frames = g.frames := by
  have hended : (g.apply .endBootstrap).frames = g.frames :=
    frames_apply_other hg rfl rfl
  have hregistered : ((g.apply .endBootstrap).apply
      (.registerBuiltins builtins)).frames = (g.apply .endBootstrap).frames :=
    frames_apply_other (hg.apply _) rfl rfl
  have hglobal : (((g.apply .endBootstrap).apply
      (.registerBuiltins builtins)).apply (.setGlobal global)).frames = _ :=
    frames_apply_other ((hg.apply _).apply _) rfl rfl
  exact hglobal.trans (hregistered.trans hended)

theorem told_beginBootstrap :
    Told [.beginBootstrap] [] false [] new.beginBootstrap :=
  ⟨⟨[.beginBootstrap], rfl, rfl, fun _ => rfl⟩, rfl⟩

/-- What a graph was told in its bootstrap.  No collection runs meanwhile. -/
theorem told_of_playBack {entries : List Entry}
    (hplayed : playBack new.beginBootstrap entries = (g, none)) :
    Sound true [] entries ∧ Told [.beginBootstrap] [] false entries g := by
  have hforesees := foresees_told [.beginBootstrap] [] false
  have hnew := told_beginBootstrap
  rcases sound_or_offence true [] entries with hsound | ⟨before, entry, hfirst⟩
  · have htold := (hforesees.playBack hnew hsound).2
    rw [hplayed] at htold
    exact ⟨hsound, htold⟩
  · have hfailed := (hforesees.playBack_offence hnew hfirst).1
    rw [hplayed] at hfailed
    contradiction

theorem Told.leaveBootstrap (h : Told [.beginBootstrap] [] false t.bootstrap g)
    (collects : Bool) :
    Told t.opening t.bootstrap collects []
      (g.leaveBootstrap t.builtins t.global) := by
  have hframes := frames_leaveBootstrap h.wellFormed t.builtins t.global
  have hlevel := h.level
  rcases h.made with ⟨ops, hmade, hops, hall⟩
  have hopening : t.opening =
      ops ++ [.endBootstrap, .registerBuiltins t.builtins,
        .setGlobal t.global] := by
    rw [hall rfl]
    rfl
  constructor
  · refine ⟨t.opening, ?_, ?_, fun _ => (List.append_nil _).symm⟩
    · rw [hopening, hmade]
      unfold Graph.run
      rw [List.foldl_append]
      rfl
    · rw [hopening, List.filter_append, hops, hall rfl]
      exact (List.append_nil _).symm
  · unfold Level at hlevel ⊢
    rwa [hframes, List.append_nil]

end Graph

namespace Stepper

variable {source : String} {t : Trace} (hparse : Trace.parse source = .ok t)
  (options : Options)

include hparse

theorem onCourse_flow
    (hok : (flow .replay source options).error? = none) :
    (flow .replay source options).OnCourse t (fun _ _ => True)
      (max options.batchSize 1) options.collectGarbage 0 :=
  onCourse_new hparse Blind.mk options hok fun _ _ => trivial

theorem onCourse_instrumented
    (hok : (instrumented .replay source options).error? = none) :
    (instrumented .replay source options).OnCourse t
      (Graph.Told t.opening t.bootstrap options.collectGarbage)
      (max options.batchSize 1) options.collectGarbage 0 := by
  apply onCourse_new hparse Graph.new options hok
  intro g hplayed
  exact (Graph.told_of_playBack hplayed).2.leaveBootstrap options.collectGarbage

end Stepper

theorem Graph.Told.outlivesCollection (opening : List Operation)
    (base : List Entry) (collectGarbage : Bool) :
    Stepper.OutlivesCollection (Graph.Told opening base collectGarbage)
      collectGarbage := by
  rintro rfl told g htold
  exact htold.collect

/-- A session that opens well comes to the end that its entries foretell, and
yields once for every full group of steps before it. -/
theorem batches_accounted {source : String} {t : Trace}
    (hparse : Trace.parse source = .ok t) (options : Options) :
    (∀ stacked, ∃ count told result, t.EndsAt stacked count told result) ∧
    (∀ count told result, t.EndsAt false count told result →
      (Stepper.flow .replay source options).error? = none →
      (Stepper.flow .replay source options).Accounts
        (max options.batchSize 1) count result) ∧
    (∀ count told result, t.EndsAt true count told result →
      (Stepper.instrumented .replay source options).error? = none →
      (Stepper.instrumented .replay source options).Accounts
        (max options.batchSize 1) count result) := by
  refine ⟨fun stacked => t.exists_endsAt stacked, ?_, ?_⟩
  · intro count told result hends hok
    have hcourse := Stepper.onCourse_flow hparse options hok
    exact (hcourse.accounts (foresees_blind t.bootstrap)
      (fun _ _ _ _ => trivial) hends).1
  · intro count told result hends hok
    have hcourse := Stepper.onCourse_instrumented hparse options hok
    exact (hcourse.accounts (Graph.foresees_told _ _ _)
      (Graph.Told.outlivesCollection _ _ _) hends).1

/-- Four steps, of which the third pops from an empty stack. -/
def underflowSource : String :=
  "\x7b\"steps\":[[" ++
    "\x7b\"op\":\"push\",\"value\":5\x7d],[" ++
    "\x7b\"op\":\"pop\",\"value\":5\x7d],[" ++
    "\x7b\"op\":\"pop\",\"value\":5\x7d],[" ++
    "\x7b\"op\":\"push\",\"value\":5\x7d]]\x7d"

def underflowTrace : Trace where
  bootstrap := []
  steps :=
    [[.report (.push ⟨5⟩)], [.report (.pop ⟨5⟩)], [.report (.pop ⟨5⟩)],
      [.report (.push ⟨5⟩)]]
  builtins := []
  global := none

theorem parse_underflowSource :
    Trace.parse underflowSource = .ok underflowTrace := by cbv

def pairwise : Options := Options.default.withBatchSize 2

/-- The third step ends the session of who keeps a stack, as the first step of
its second batch.  Who keeps none plays all four steps back, and needs a third
batch to find that none is left. -/
theorem underflow_accounted :
    (Stepper.flow .replay underflowSource pairwise).error? = none ∧
    (Stepper.flow .replay underflowSource pairwise).Accounts 2 4 (.ok ()) ∧
    (Stepper.instrumented .replay underflowSource pairwise).error? = none ∧
    (Stepper.instrumented .replay underflowSource pairwise).Accounts 2 2
      (.error (.internal .stackUnderflow)) := by
  have hall : underflowTrace.EndsAt false 4 underflowTrace.steps.flatten
      (.ok ()) := .all (by decide)
  have hsound : Sound true underflowTrace.bootstrap
      (underflowTrace.steps.take 2).flatten := by decide
  have hfirst : FirstOffence true
      ([] ++ (underflowTrace.steps.take 2).flatten) [.report (.pop ⟨5⟩)] []
      (.report (.pop ⟨5⟩)) :=
    ⟨⟨[], rfl⟩, by decide, by decide⟩
  have hoffence : underflowTrace.EndsAt true 2
      ((underflowTrace.steps.take 2).flatten ++ [])
      (.error (.internal .stackUnderflow)) :=
    .offence rfl hsound hfirst
  have hflow : (Stepper.flow .replay underflowSource pairwise).error? = none :=
    Stepper.error?_new parse_underflowSource Blind.mk pairwise
  have hgraph :
      (Stepper.instrumented .replay underflowSource pairwise).error? = none :=
    Stepper.error?_new parse_underflowSource Graph.new pairwise
  have haccounts := batches_accounted parse_underflowSource pairwise
  exact ⟨hflow, haccounts.2.1 _ _ _ hall hflow, hgraph,
    haccounts.2.2 _ _ _ hoffence hgraph⟩

end LiveHeap
