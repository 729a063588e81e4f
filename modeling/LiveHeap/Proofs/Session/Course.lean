import LiveHeap.Proofs.Session.Outcome

/-!
# The course of a session

What a host sees of a session, and what its batches answer, is told by its
course: how many steps are played to their end, and what the session answers
then.  The entries of a trace foretell one course for observers who keep a
stack and one for observers who keep none.
-/

namespace LiveHeap

/-- What a host can ask of a stepper between two batches. -/
structure Face where
  status : Status
  error? : Option SessionError
  steps : Nat
  yields : Nat
  output : Except SessionError Nat

/-- A session that goes on, when a number of batches were run. -/
def Face.underway (size batches : Nat) : Face where
  status := if batches = 0 then .ready else .stepping
  error? := none
  steps := batches * size
  yields := batches
  output := .ok (batches * size)

/-- A session that is over. -/
def Face.over (steps yields : Nat) : Except SessionError Unit → Face
  | .ok () => ⟨.done, none, steps, yields, .ok steps⟩
  | .error e => ⟨.error, some e, steps, yields, .error e⟩

/-- What becomes of a session, whatever the size of its batches. -/
inductive Course where
  | unopened (error : SessionError)
  /-- A number of steps is played to the end, and then the session answers. -/
  | opened (count : Nat) (result : Except SessionError Unit)

namespace Course

/-- What a host sees when a number of batches were run. -/
def face (size : Nat) : Course → Nat → Face
  | unopened e, _ => .over 0 0 (.error e)
  | opened count result, batches =>
      if batches ≤ count / size then .underway size batches
      else .over count (count / size) result

/-- What the batch behind a number of batches answers. -/
def answer (size : Nat) : Course → Nat → Batch
  | unopened e, _ => .failed e
  | opened count result, batches =>
      if batches < count / size then .yielded else .closing result

end Course

/-- The status of a stepper whose last batch gave this answer. -/
def Batch.status : Batch → Status
  | yielded => .stepping
  | done => .done
  | failed _ => .error

def Batch.error? : Batch → Option SessionError
  | failed e => some e
  | yielded | done => none

namespace Stepper

variable {σ τ : Type} [Observer σ] [Observer τ] {s : Stepper σ}
  {s' : Stepper τ} {size count : Nat} {result : Except SessionError Unit}

def face (s : Stepper σ) : Face where
  status := s.status
  error? := s.error?
  steps := s.steps
  yields := s.yields
  output := s.output

structure Takes (course : Course) (size : Nat) (s : Stepper σ) : Prop where
  face : ∀ k, (s.batches k).face = course.face size k
  answer : ∀ k, (s.batches k).runBatch.2 = course.answer size k

/-- For a number of batches a host cannot tell two sessions apart. -/
structure AgreeFor (count : Nat) (s : Stepper σ) (s' : Stepper τ) : Prop where
  face : ∀ k ≤ count, (s.batches k).face = (s'.batches k).face
  answer : ∀ k < count, (s.batches k).runBatch.2 = (s'.batches k).runBatch.2

omit [Observer σ] in
theorem session_of_output {n : Nat} (houtput : s.output = .ok n) :
    ∃ m, s.session = .ok m := by
  unfold output at houtput
  cases hsession : s.session with
  | ok m => exact ⟨m, rfl⟩
  | error e =>
      rw [hsession] at houtput
      contradiction

omit [Observer σ] in
theorem output_of_error? {e : SessionError} (herror : s.error? = some e) :
    s.output = .error e := by
  unfold error? at herror
  unfold output
  cases hsession : s.session with
  | ok m =>
      rw [hsession] at herror
      contradiction
  | error e' =>
      rw [hsession] at herror
      obtain rfl : e' = e := Option.some.inj herror
      rfl

/-- A stepper shows what its last batch answered. -/
theorem shows_runBatch {m : Machine} (hsession : s.session = .ok m) :
    s.runBatch.1.status = s.runBatch.2.status ∧
      s.runBatch.1.error? = s.runBatch.2.error? := by
  by_cases hdone : s.status = .done
  · rw [runBatch, if_pos hdone]
    refine ⟨hdone, ?_⟩
    rw [error?, hsession]
    rfl
  · rw [runBatch_of_ok hsession hdone]
    generalize hp : playSteps s.observer (m.pending.take s.batchSize) = p
    cases hfailed : p.failed with
    | some e =>
        rw [runMachine_of_failed hp hfailed]
        exact ⟨rfl, rfl⟩
    | none =>
        rcases Nat.lt_or_ge m.remaining s.batchSize with hshort | hfull
        · rw [runMachine_of_short hp hfailed hshort, ended_eq]
          exact ⟨rfl, rfl⟩
        · rw [runMachine_of_full hp hfailed hfull, yielding_eq]
          exact ⟨rfl, rfl⟩

namespace Accounts

variable (h : s.Accounts size count result)

include h

theorem face_before (hready : s.status = .ready) {k : Nat}
    (hk : k ≤ count / size) :
    (s.batches k).face = .underway size k := by
  have ⟨hsteps, hyields, houtput⟩ := h.before k hk
  have herror : (s.batches k).error? = none := by
    rcases session_of_output houtput with ⟨m, hsession⟩
    rw [error?, hsession]
  have hstatus : (s.batches k).status =
      if k = 0 then .ready else .stepping := by
    cases k with
    | zero => exact hready
    | succ k =>
        rcases session_of_output (h.before k (Nat.le_of_succ_le hk)).2.2
          with ⟨m, hsession⟩
        have hshown := (shows_runBatch hsession).1
        rw [h.yielded k hk] at hshown
        exact hshown
  rw [face, hstatus, herror, hsteps, hyields, houtput]
  rfl

theorem face_after {k : Nat} (hk : count / size < k) :
    (s.batches k).face = .over count (count / size) result := by
  have hover := h.after k hk
  rcases session_of_output (h.before _ (Nat.le_refl _)).2.2 with ⟨m, hsession⟩
  have ⟨hstatus, herror⟩ := shows_runBatch hsession
  rw [h.closing _ (Nat.le_refl _)] at hstatus herror
  have hstill : (s.batches (count / size)).runBatch.1 = s.batches k :=
    (h.still k hk).symm
  rw [hstill] at hstatus herror
  rw [face, hstatus, herror, hover.steps, hover.yields]
  rcases result with e | ⟨⟩
  · rw [output_of_error? herror]
    rfl
  · rw [hover.output herror]
    rfl

theorem takes (hready : s.status = .ready) :
    s.Takes (.opened count result) size := by
  constructor
  · intro k
    by_cases hk : k ≤ count / size
    · exact (h.face_before hready hk).trans (if_pos hk).symm
    · have hlater := Nat.lt_of_not_le hk
      exact (h.face_after hlater).trans (if_neg hk).symm
  · intro k
    by_cases hk : k < count / size
    · exact (h.yielded k hk).trans (if_pos hk).symm
    · have hlater := Nat.le_of_not_lt hk
      exact (h.closing k hlater).trans (if_neg hk).symm

end Accounts

theorem takes_of_unopened {e : SessionError} (hsession : s.session = .error e)
    (hstatus : s.status = .error) (hsteps : s.steps = 0)
    (hyields : s.yields = 0) (size : Nat) : s.Takes (.unopened e) size := by
  have hrunning : s.status ≠ .done := by
    rw [hstatus]
    exact Status.noConfusion
  have hbatch : s.runBatch = (s, .failed e) := by
    rw [runBatch, if_neg hrunning, hsession]
  have hstill : ∀ k, s.batches k = s := by
    intro k
    induction k with
    | zero => rfl
    | succ k ih => rw [batches, ih, hbatch]
  constructor
  · intro k
    rw [hstill, face, error?, output, hsession, hstatus, hsteps, hyields]
    rfl
  · intro k
    rw [hstill, hbatch]
    rfl

namespace Takes

theorem agree {course : Course} (h : s.Takes course size)
    (h' : s'.Takes course size) (count : Nat) : s.AgreeFor count s' := by
  constructor
  · intro k _
    rw [h.face, h'.face]
  · intro k _
    rw [h.answer, h'.answer]

/-- Sessions that both go on are the same to a host, wherever they end. -/
theorem agreeFor {m m' batches : Nat} {result' : Except SessionError Unit}
    (h : s.Takes (.opened m result) size)
    (h' : s'.Takes (.opened m' result') size)
    (hbatches : batches ≤ m / size) (hbatches' : batches ≤ m' / size) :
    s.AgreeFor batches s' := by
  constructor
  · intro k hk
    rw [h.face, h'.face]
    exact (if_pos (hk.trans hbatches)).trans
      (if_pos (hk.trans hbatches')).symm
  · intro k hk
    rw [h.answer, h'.answer]
    exact (if_pos (hk.trans_le hbatches)).trans
      (if_pos (hk.trans_le hbatches')).symm

end Takes

end Stepper

/-! ## Courses of a trace -/

/-- The course of a session that replays the trace, with an observer who keeps
a stack or with one who does not. -/
inductive Trace.Foretells (stacked : Bool) (t : Trace) : Course → Prop
  | unopened {before : List Entry} {entry : Entry}
      (first : FirstOffence stacked [] t.bootstrap before entry) :
      Foretells stacked t (.unopened (entry.verdict none))
  | opened {count : Nat} {told : List Entry}
      {result : Except SessionError Unit}
      (sound : Sound stacked [] t.bootstrap)
      (ends : t.EndsAt stacked count told result) :
      Foretells stacked t (.opened count result)

theorem Trace.exists_foretells (stacked : Bool) (t : Trace) :
    ∃ course, t.Foretells stacked course := by
  rcases sound_or_offence stacked [] t.bootstrap
    with hsound | ⟨before, entry, hfirst⟩
  · rcases t.exists_endsAt stacked with ⟨count, told, result, hends⟩
    exact ⟨_, .opened hsound hends⟩
  · exact ⟨_, .unopened hfirst⟩

namespace Stepper

section New

variable {σ : Type} [Observer σ] {t : Trace} {stacked : Bool} {o : σ}
  {booted : List Entry → σ → Prop} {source : String}
  (hparse : Trace.parse source = .ok t) (options : Options)

theorem status_new_of_ok
    (hok : (new .replay source o options).error? = none) :
    (new .replay source o options).status = .ready := by
  unfold new at hok ⊢
  rcases hopen : Engine.replay.openSession source o with ⟨e | m, o'⟩
  · rw [hopen] at hok
    contradiction
  · rfl

theorem takes_new_of_error {e : SessionError} {o' : σ}
    (hopen : Engine.replay.openSession source o = (.error e, o')) (size : Nat) :
    (new .replay source o options).Takes (.unopened e) size := by
  obtain ⟨hsession, _, hstatus, _⟩ := new_of_error hopen options
  exact takes_of_unopened hsession hstatus rfl rfl size

theorem takes_unread {e : ParseError} (hparse : Trace.parse source = .error e)
    (o : σ) (size : Nat) :
    (new .replay source o options).Takes (.unopened (.parse e)) size := by
  have hopen : Engine.replay.openSession source o = (.error (.parse e), o) := by
    have hread : Engine.replay.parse source = .error e := hparse
    rw [Engine.openSession, hread]
  exact takes_new_of_error options hopen size

include hparse

/-- If the bootstrap is foreseen, and behind it the accounts are, then so is
the course. -/
theorem takes_new (hforesees : Foresees stacked [] booted)
    (hstart : booted [] (Observer.enterBootstrap o)) {size : Nat}
    (haccounts : (new .replay source o options).error? = none →
      ∀ count told result, t.EndsAt stacked count told result →
        (new .replay source o options).Accounts size count result)
    {course : Course} (hforetells : t.Foretells stacked course) :
    (new .replay source o options).Takes course size := by
  cases hforetells with
  | unopened hfirst =>
      have hfailed := (hforesees.playBack_offence hstart hfirst).1
      have hopen := openSession_replay hparse o
      rcases hplayed : playBack (Observer.enterBootstrap o) t.bootstrap
        with ⟨o', failed⟩
      rw [hplayed] at hopen hfailed
      obtain rfl := hfailed
      simp only [toSession_error] at hopen
      exact takes_new_of_error options hopen size
  | opened hsound hends =>
      have hbooted := (hforesees.playBack hstart hsound).1
      have hok : (new .replay source o options).error? = none :=
        (error?_new hparse o options).trans (Option.map_eq_none_iff.mpr hbooted)
      exact (haccounts hok _ _ _ hends).takes (status_new_of_ok options hok)

end New

section Courses

variable {source : String} {t : Trace} (hparse : Trace.parse source = .ok t)
  (options : Options) {course : Course}

include hparse

theorem takes_flow (hforetells : t.Foretells false course) :
    (flow .replay source options).Takes course (max options.batchSize 1) := by
  apply takes_new hparse options (foresees_blind []) trivial _ hforetells
  intro hok count told result hends
  have hcourse := onCourse_flow hparse options hok
  exact (hcourse.accounts (foresees_blind _) (fun _ _ _ _ => trivial) hends).1

theorem takes_instrumented (hforetells : t.Foretells true course) :
    (instrumented .replay source options).Takes course
      (max options.batchSize 1) := by
  have hforesees := Graph.foresees_told [.beginBootstrap] [] false
  apply takes_new hparse options hforesees Graph.told_beginBootstrap _
    hforetells
  intro hok count told result hends
  have hcourse := onCourse_instrumented hparse options hok
  exact (hcourse.accounts (Graph.foresees_told _ _ _)
    (Graph.Told.outlivesCollection _ _ _) hends).1

end Courses

end Stepper

end LiveHeap
