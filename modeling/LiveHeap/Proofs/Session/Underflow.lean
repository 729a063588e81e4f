import LiveHeap.Proofs.Session.Course

/-!
# Until the stack runs empty

The courses of a session with a graph and of one that only follows the control
flow differ where a pop finds the stack empty.  To a host the two are the same
up to the batch of that pop.  There the graph ends its session, and who keeps no
stack goes on as if the pop were not there.
-/

namespace LiveHeap

/-- The first pop that finds the stack empty, and the entries before it, of
which none throws. -/
structure Trace.Underflow (t : Trace) (before : List Entry) (pop : Entry) :
    Prop where
  first : FirstOffence true [] (t.bootstrap ++ t.steps.flatten) before pop
  isPop : pop.isPop = true

namespace Entry

def isThrow : Entry → Bool
  | throw _ => true
  | report _ => false

variable {entry : Entry} {before : List Entry}

theorem offends_unstacked_eq (before : List Entry) (entry : Entry) :
    entry.offends false before = entry.isThrow := by
  rcases entry with e | message
  · cases e <;> rfl
  · rfl

theorem verdict_of_isPop (hpop : entry.isPop = true) (info : Option String) :
    entry.verdict info = .internal .stackUnderflow := by
  cases entry with
  | report e => rfl
  | throw message => cases hpop

theorem offends_of_unstacked (h : entry.offends false before = true) :
    entry.offends true before = true := by
  rcases entry with e | message
  · cases e <;> cases h
  · rfl

theorem offends_unstacked (h : entry.offends true before = true)
    (hpop : entry.isPop = false) : entry.offends false before = true := by
  rcases entry with e | message
  · cases e with
    | pop id => cases hpop
    | _ => cases h
  · rfl

end Entry

section Unstacked

variable {base entries before : List Entry} {entry : Entry}

theorem Sound.unstacked (h : Sound true base entries) :
    Sound false base entries := by
  intro before entry after hsplit
  rw [Bool.eq_false_iff]
  intro hoffends
  have hsound := h before entry after hsplit
  rw [Entry.offends_of_unstacked hoffends] at hsound
  contradiction

theorem FirstOffence.unstacked (h : FirstOffence true base entries before entry)
    (hpop : entry.isPop = false) :
    FirstOffence false base entries before entry :=
  ⟨h.split, h.sound.unstacked, Entry.offends_unstacked h.offends hpop⟩

theorem FirstOffence.append {stacked : Bool}
    (h : FirstOffence stacked base entries before entry)
    (later : List Entry) :
    FirstOffence stacked base (entries ++ later) before entry := by
  rcases h.split with ⟨after, rfl⟩
  refine ⟨⟨after ++ later, ?_⟩, h.sound, h.offends⟩
  rw [List.append_assoc]
  rfl

theorem FirstOffence.not_before {stacked : Bool} {before' : List Entry}
    (h : FirstOffence stacked base entries before entry)
    (hsound : Sound stacked base before') (later : List Entry) :
    before' ≠ before ++ entry :: later := by
  intro hsplit
  have hentry := hsound before entry later hsplit
  rw [h.offends] at hentry
  contradiction

theorem FirstOffence.unique {stacked : Bool} {before' : List Entry}
    {entry' : Entry} (h : FirstOffence stacked base entries before entry)
    (h' : FirstOffence stacked base entries before' entry') :
    entry' = entry := by
  rcases h.split with ⟨after, hsplit⟩
  rcases h'.split with ⟨after', hsplit'⟩
  rw [hsplit] at hsplit'
  rcases List.append_eq_append_iff.mp hsplit' with
    ⟨part, hbefore, hrest⟩ | ⟨part, hbefore, hrest⟩
  · cases part with
    | nil => exact (List.cons.inj hrest).1.symm
    | cons first part =>
        obtain ⟨rfl, -⟩ := List.cons.inj hrest
        exact absurd hbefore (h.not_before h'.sound part)
  · cases part with
    | nil => exact (List.cons.inj hrest).1
    | cons first part =>
        obtain ⟨rfl, -⟩ := List.cons.inj hrest
        exact absurd hbefore (h'.not_before h.sound part)

/-- What an observer without a stack minds. -/
def throws (entries : List Entry) : List Entry := entries.filter Entry.isThrow

theorem sound_unstacked_iff :
    Sound false base entries ↔ throws entries = [] := by
  constructor
  · intro h
    apply List.filter_eq_nil_iff.mpr
    intro entry hentry
    rcases List.append_of_mem hentry with ⟨before, after, hsplit⟩
    have hsound := h before entry after hsplit
    rw [← Entry.offends_unstacked_eq (base ++ before), hsound]
    exact Bool.false_ne_true
  · intro h before entry after hsplit
    have hentry : entry ∈ entries := by
      rw [hsplit]
      exact List.mem_append_cons_self
    rw [Entry.offends_unstacked_eq]
    exact Bool.eq_false_iff.mpr (List.filter_eq_nil_iff.mp h entry hentry)

theorem FirstOffence.throws_eq
    (h : FirstOffence false base entries before entry) :
    ∃ later, throws entries = entry :: later := by
  rcases h.split with ⟨after, rfl⟩
  have hbefore : before.filter Entry.isThrow = [] :=
    sound_unstacked_iff.mp h.sound
  have hentry := h.offends
  rw [Entry.offends_unstacked_eq] at hentry
  refine ⟨throws after, ?_⟩
  rw [throws, List.filter_append, hbefore, List.filter_cons_of_pos hentry]
  rfl

/-- Who keeps no stack cannot tell apart steps that throw the same. -/
theorem FirstOffence.of_throws {base' entries' : List Entry}
    (h : FirstOffence false base entries before entry)
    (hsame : throws entries' = throws entries) :
    ∃ before', FirstOffence false base' entries' before' entry := by
  rcases h.throws_eq with ⟨later, hthrows⟩
  rw [hthrows] at hsame
  rcases sound_or_offence false base' entries'
    with hsound | ⟨before', entry', hfirst⟩
  · rw [sound_unstacked_iff.mp hsound] at hsame
    contradiction
  · rcases hfirst.throws_eq with ⟨later', hthrows'⟩
    rw [hthrows'] at hsame
    obtain rfl : entry' = entry := (List.cons.inj hsame).1
    exact ⟨before', hfirst⟩

end Unstacked

namespace Trace

variable {t : Trace} {before part : List Entry} {pop : Entry}
  {done : List (List Entry)} {course : Course} {count : Nat}
  {told : List Entry} {result : Except SessionError Unit}

theorem EndsAt.unstacked (h : t.EndsAt true count told result)
    (hsound : Sound true [] t.bootstrap)
    (hnone : ∀ before pop, ¬ t.Underflow before pop) :
    t.EndsAt false count told result := by
  cases h with
  | all hall => exact .all hall.unstacked
  | @offence done rest step part entry hsteps hdone hfirst =>
      refine .offence hsteps hdone.unstacked (hfirst.unstacked ?_)
      rw [Bool.eq_false_iff]
      intro hpop
      rcases hfirst.split with ⟨after, rfl⟩
      refine hnone (t.bootstrap ++ done.flatten ++ part) entry
        ⟨⟨⟨after ++ rest.flatten, ?_⟩, ?_, hfirst.offends⟩, hpop⟩
      · simp [hsteps]
      · exact sound_append.mpr
          ⟨sound_append.mpr ⟨hsound, hdone⟩, hfirst.sound⟩

/-- Without an underflow nothing but a throw offends, with a stack or without
one. -/
theorem Foretells.unstacked (h : t.Foretells true course)
    (hnone : ∀ before pop, ¬ t.Underflow before pop) :
    t.Foretells false course := by
  cases h with
  | unopened hfirst =>
      refine .unopened (hfirst.unstacked ?_)
      rw [Bool.eq_false_iff]
      exact fun hpop => hnone _ _ ⟨hfirst.append _, hpop⟩
  | opened hsound hends =>
      exact .opened hsound.unstacked (hends.unstacked hsound hnone)

/-- An observer without a stack cannot tell apart traces that throw the same. -/
theorem EndsAt.of_throws {t' : Trace} (h : t.EndsAt false count told result)
    (hsame : t'.steps.map throws = t.steps.map throws) :
    ∃ told', t'.EndsAt false count told' result := by
  have hlength : t'.steps.length = t.steps.length := by
    simpa using congrArg List.length hsame
  cases h with
  | all hall =>
      have hall' : throws t'.steps.flatten = [] := by
        have hnone := sound_unstacked_iff.mp hall
        unfold throws at hsame hnone ⊢
        rwa [List.filter_flatten, hsame, ← List.filter_flatten]
      rw [← hlength]
      exact ⟨_, .all (sound_unstacked_iff.mpr hall')⟩
  | @offence done rest step before entry hsteps hdone hfirst =>
      rw [hsteps, List.map_append, List.map_cons] at hsame
      obtain ⟨done', later, hsteps', hdone', hlater⟩ :=
        List.map_eq_append_iff.mp hsame
      obtain ⟨step', rest', rfl, hstep, -⟩ := List.map_eq_cons_iff.mp hlater
      have hquiet : throws done'.flatten = [] := by
        have hnone := sound_unstacked_iff.mp hdone
        unfold throws at hdone' hnone ⊢
        rwa [List.filter_flatten, hdone', ← List.filter_flatten]
      have hcount : done'.length = done.length := by
        simpa using congrArg List.length hdone'
      obtain ⟨before', hfirst'⟩ : ∃ before', FirstOffence false
          (t'.bootstrap ++ done'.flatten) step' before' entry :=
        hfirst.of_throws hstep
      have hends := EndsAt.offence hsteps' (sound_unstacked_iff.mpr hquiet)
        hfirst'
      rw [failure_error, hcount, hlength, ← failure_error] at hends
      exact ⟨_, hends⟩

/-- The trace without one of the entries of a step. -/
def without (t : Trace) (step position : Nat) : Trace :=
  { t with steps := t.steps.modify step (·.eraseIdx position) }

theorem StandsInStep.exists_steps_without
    (hstands : t.StandsInStep before pop done part) : ∃ after rest,
    t.steps = done ++ (part ++ pop :: after) :: rest ∧
      (t.without done.length part.length).steps =
        done ++ (part ++ after) :: rest := by
  rcases hstands.step with ⟨after, rest, hsteps⟩
  have herased : (part ++ pop :: after).eraseIdx part.length =
      part ++ after := by
    rw [List.eraseIdx_append_of_length_le (Nat.le_refl _), Nat.sub_self,
      List.eraseIdx_cons_zero]
  have hmodified : (done ++ (part ++ pop :: after) :: rest).modify
      (done.length + 0) (·.eraseIdx part.length) =
        done ++ (part ++ pop :: after).eraseIdx part.length :: rest :=
    List.modifyTailIdx_add _ 0 done _
  refine ⟨after, rest, hsteps, ?_⟩
  rw [without, hsteps, ← herased]
  exact hmodified

namespace Underflow

variable (h : t.Underflow before pop)

include h

theorem level : before.countP Entry.isPop = before.countP Entry.isPush := by
  have hoffends := h.first.offends
  have hpop := h.isPop
  cases pop with
  | throw message => cases hpop
  | report e =>
      cases e with
      | pop id => simpa [Entry.offends] using hoffends
      | _ => cases hpop

theorem foretells_of_bootstrap (hstands : t.StandsInBootstrap before pop) :
    t.Foretells true (.unopened (.internal .stackUnderflow)) := by
  rw [← Entry.verdict_of_isPop h.isPop none]
  exact .unopened ⟨hstands, h.first.sound, h.first.offends⟩

section Step

variable (hstands : t.StandsInStep before pop done part)

include hstands

theorem sound_bootstrap : Sound true [] t.bootstrap := by
  have hsound := h.first.sound
  rw [hstands.before] at hsound
  exact (sound_append.mp hsound).1

theorem endsAt : t.EndsAt true done.length (done.flatten ++ part)
    (.error (.internal .stackUnderflow)) := by
  have hsound := h.first.sound
  have hoffends := h.first.offends
  rcases hstands.step with ⟨after, rest, hsteps⟩
  rw [hstands.before] at hsound hoffends
  have ⟨hdone, hpart⟩ := sound_append.mp (sound_append.mp hsound).2
  have hfirst : FirstOffence true (t.bootstrap ++ done.flatten)
      (part ++ pop :: after) part pop := by
    refine ⟨⟨after, rfl⟩, hpart, ?_⟩
    rwa [List.append_assoc]
  have hends := EndsAt.offence hsteps hdone hfirst
  rwa [failure_error, Entry.verdict_of_isPop h.isPop] at hends

/-- Who keeps no stack plays at least the steps before the underflow. -/
theorem le_of_endsAt (hends : t.EndsAt false count told result) :
    done.length ≤ count := by
  have hquiet : Sound false t.bootstrap done.flatten := by
    have hsound := h.first.sound
    rw [hstands.before] at hsound
    exact (sound_append.mp (sound_append.mp hsound).2).1.unstacked
  rcases hstands.step with ⟨after, rest, hsteps⟩
  cases hends with
  | all hall =>
      rw [hsteps, List.length_append]
      exact Nat.le_add_right _ _
  | @offence done' _ step _ entry hsteps' _ hfirst =>
      -- Otherwise the step that throws is one of those before the underflow.
      by_contra hearly
      have hstep : step ∈ done := by
        have hthere : t.steps[done'.length]? = some step := by simp [hsteps']
        rw [hsteps, List.getElem?_append_left (Nat.lt_of_not_le hearly)]
          at hthere
        exact List.mem_of_getElem? hthere
      have hentry : entry ∈ done.flatten := by
        rcases hfirst.split with ⟨after, rfl⟩
        exact List.mem_flatten_of_mem hstep List.mem_append_cons_self
      have hthrow := hfirst.offends
      rw [Entry.offends_unstacked_eq] at hthrow
      exact List.filter_eq_nil_iff.mp (sound_unstacked_iff.mp hquiet) entry
        hentry hthrow

theorem throws_without :
    (t.without done.length part.length).steps.map throws =
      t.steps.map throws := by
  have hpop : pop.isThrow = false := by
    cases pop with
    | report e => rfl
    | throw message => cases h.isPop
  rcases hstands.exists_steps_without with ⟨after, rest, hsteps, hwithout⟩
  simp [hsteps, hwithout, throws, hpop]

/-- To an observer without a stack the pop is no event. -/
theorem exists_endsAt_without (hends : t.EndsAt false count told result) :
    ∃ told', (t.without done.length part.length).EndsAt false count told'
      result :=
  hends.of_throws (h.throws_without hstands)

end Step

end Underflow

end Trace

namespace Stepper

variable {source : String} {t : Trace} {before part : List Entry}
  {pop : Entry} {done : List (List Entry)}

/-- The stepper with a machine that is about to play back the trace. -/
def playing {σ : Type} (s : Stepper σ) (t : Trace) : Stepper σ :=
  { s with session := .ok t.machine }

/-- The batch behind a number of batches fails, for the stack is empty. -/
structure StopsUnderflowing (batches : Nat) (s : Stepper Graph) : Prop where
  answer : (s.batches batches).runBatch.2 = .failed (.internal .stackUnderflow)
  status : (s.batches (batches + 1)).status = .error
  error : (s.batches (batches + 1)).error? = some (.internal .stackUnderflow)
  depth : (s.batches (batches + 1)).observer.stackDepth = 0

theorem OnCourse.playing {σ : Type} [Observer σ] {s : Stepper σ}
    {r r' : List Entry → σ → Prop} {size : Nat} {collectGarbage : Bool}
    (h : s.OnCourse t r size collectGarbage 0) (hr : r' [] s.observer)
    (t' : Trace) :
    (s.playing t').OnCourse t' r' size collectGarbage 0 := by
  have hclosed : s.status ≠ .error := by
    intro hstatus
    rcases h.settled.closed hstatus with ⟨e, he⟩
    rw [h.session] at he
    contradiction
  constructor
  · exact ⟨h.settled.batchSize, h.settled.collectGarbage,
      fun hstatus => absurd hstatus hclosed⟩
  · rw [Nat.zero_mul]
    rfl
  · exact h.running
  · rwa [Nat.zero_mul, List.take_zero]
  · exact h.steps
  · exact h.yields

variable (hparse : Trace.parse source = .ok t) (options : Options)

include hparse

theorem agreeFor_of_no_underflow
    (hnone : ∀ before pop, ¬ t.Underflow before pop) (count : Nat) :
    (flow .replay source options).AgreeFor count
      (instrumented .replay source options) := by
  rcases t.exists_foretells true with ⟨course, hforetells⟩
  have hflow := takes_flow hparse options (hforetells.unstacked hnone)
  exact hflow.agree (takes_instrumented hparse options hforetells) count

section Underflow

variable (h : t.Underflow before pop)

include h

theorem underflows_in_bootstrap (hstands : t.StandsInBootstrap before pop) :
    (instrumented .replay source options).status = .error ∧
      (instrumented .replay source options).error? =
        some (.internal .stackUnderflow) := by
  have htakes := takes_instrumented hparse options
    (h.foretells_of_bootstrap hstands)
  have hface := htakes.face 0
  exact ⟨congrArg Face.status hface, congrArg Face.error? hface⟩

variable (hstands : t.StandsInStep before pop done part)

include hstands

theorem stopsUnderflowing_instrumented :
    (instrumented .replay source options).StopsUnderflowing
      (done.length / max options.batchSize 1) := by
  have hbootstrap := h.sound_bootstrap hstands
  have hends := h.endsAt hstands
  have htakes := takes_instrumented hparse options (.opened hbootstrap hends)
  have hok : (instrumented .replay source options).error? = none :=
    congrArg Face.error? (htakes.face 0)
  have hcourse := onCourse_instrumented hparse options hok
  have ⟨haccounts, htold⟩ := hcourse.accounts (Graph.foresees_told _ _ _)
    (Graph.Told.outlivesCollection _ _ _) hends
  have hface := haccounts.face_after (Nat.lt_succ_self _)
  constructor
  · exact haccounts.closing _ (Nat.le_refl _)
  · exact congrArg Face.status hface
  · exact congrArg Face.error? hface
  · have hlevel := htold.level
    unfold Graph.Level at hlevel
    rw [← hstands.before, h.level, Nat.add_eq_right] at hlevel
    rw [htold.wellFormed.depth, hlevel]

theorem flow_of_underflow :
    (flow .replay source options).AgreeFor
        (done.length / max options.batchSize 1)
        (instrumented .replay source options) ∧
      ∀ count, (flow .replay source options).AgreeFor count
        ((flow .replay source options).playing
          (t.without done.length part.length)) := by
  have hbootstrap := h.sound_bootstrap hstands
  rcases t.exists_endsAt false with ⟨m, told, result, hends⟩
  have hflow := takes_flow hparse options (.opened hbootstrap.unstacked hends)
  have hgraph := takes_instrumented hparse options
    (.opened hbootstrap (h.endsAt hstands))
  constructor
  · exact hflow.agreeFor hgraph
      (Nat.div_le_div_right (h.le_of_endsAt hstands hends)) (Nat.le_refl _)
  · intro count
    have hok : (flow .replay source options).error? = none :=
      congrArg Face.error? (hflow.face 0)
    have hready : (flow .replay source options).status = .ready :=
      congrArg Face.status (hflow.face 0)
    rcases h.exists_endsAt_without hstands hends with ⟨told', hends'⟩
    have hcourse : ((flow .replay source options).playing
        (t.without done.length part.length)).OnCourse
          (t.without done.length part.length) (fun _ _ => True)
          (max options.batchSize 1) options.collectGarbage 0 :=
      (onCourse_flow hparse options hok).playing trivial _
    have haccounts := (hcourse.accounts (foresees_blind _)
      (fun _ _ _ _ => trivial) hends').1
    exact hflow.agree (haccounts.takes hready) count

end Underflow

end Stepper

/-- A host cannot tell an observer without a stack from a graph, until a pop
finds the stack of the graph empty.  Then the batch of that pop fails, and who
keeps no stack goes on as if there were no such pop. -/
theorem steppers_agree_until_underflow (source : String) (options : Options) :
    let flow := Stepper.flow .replay source options
    let graph := Stepper.instrumented .replay source options
    let size := max options.batchSize 1
    (∀ e, Trace.parse source = .error e → ∀ count, flow.AgreeFor count graph) ∧
    (∀ t, Trace.parse source = .ok t →
      ((∀ before pop, ¬ t.Underflow before pop) →
        ∀ count, flow.AgreeFor count graph) ∧
      (∀ before pop, t.Underflow before pop →
        (t.StandsInBootstrap before pop ∨
          ∃ done part, t.StandsInStep before pop done part) ∧
        (t.StandsInBootstrap before pop →
          graph.status = .error ∧
            graph.error? = some (.internal .stackUnderflow)) ∧
        (∀ done part, t.StandsInStep before pop done part →
          flow.AgreeFor (done.length / size) graph ∧
          graph.StopsUnderflowing (done.length / size) ∧
          ∀ count, flow.AgreeFor count
            (flow.playing (t.without done.length part.length))))) := by
  intro flow graph size
  constructor
  · intro e hparse count
    have hflow := Stepper.takes_unread options hparse Blind.mk size
    exact hflow.agree (Stepper.takes_unread options hparse Graph.new size) count
  · intro t hparse
    refine ⟨Stepper.agreeFor_of_no_underflow hparse options, ?_⟩
    intro before pop h
    rcases h.first.split with ⟨after, hsplit⟩
    refine ⟨Trace.standsInBootstrap_or_standsInStep hsplit,
      Stepper.underflows_in_bootstrap hparse options h, ?_⟩
    intro done part hstands
    have hflow := Stepper.flow_of_underflow hparse options h hstands
    have hgraph := Stepper.stopsUnderflowing_instrumented hparse options h
      hstands
    exact ⟨hflow.1, hgraph, hflow.2⟩

/-- A bootstrap that pops from an empty stack. -/
def emptyBootstrapSource : String :=
  "\x7b\"bootstrap\":[" ++
    "\x7b\"op\":\"pop\",\"value\":5\x7d],\"steps\":[[]]\x7d"

def emptyBootstrapTrace : Trace where
  bootstrap := [.report (.pop ⟨5⟩)]
  steps := [[]]
  builtins := []
  global := none

theorem parse_emptyBootstrapSource :
    Trace.parse emptyBootstrapSource = .ok emptyBootstrapTrace := by cbv

/-- A session that is interrupted is the same with a stack and without one.  Of
four steps the third underflows, which stands in the second pair. -/
theorem underflow_parts_steppers :
    (∀ count, (Stepper.flow .replay interruptedSource stepwise).AgreeFor count
      (Stepper.instrumented .replay interruptedSource stepwise)) ∧
    (let flow := Stepper.flow .replay underflowSource pairwise
      let graph := Stepper.instrumented .replay underflowSource pairwise
      flow.AgreeFor 1 graph ∧ graph.StopsUnderflowing 1 ∧
        ∀ count, flow.AgreeFor count
          (flow.playing (underflowTrace.without 2 0))) ∧
    (Stepper.instrumented .replay emptyBootstrapSource pairwise).error? =
      some (.internal .stackUnderflow) := by
  have hinterrupted : FirstOffence true [] (interruptedTrace.bootstrap ++
      interruptedTrace.steps.flatten)
      [.report (.create (.primitive ⟨5⟩)), .report .callBoundary,
        .report (.push ⟨5⟩)]
      (.throw "stop") := ⟨⟨[], rfl⟩, by decide, rfl⟩
  have hthird : underflowTrace.Underflow
      [.report (.push ⟨5⟩), .report (.pop ⟨5⟩)] (.report (.pop ⟨5⟩)) :=
    ⟨⟨⟨[.report (.push ⟨5⟩)], rfl⟩, by decide, rfl⟩, rfl⟩
  have hempty : emptyBootstrapTrace.Underflow [] (.report (.pop ⟨5⟩)) :=
    ⟨⟨⟨[], rfl⟩, by decide, rfl⟩, rfl⟩
  refine ⟨?_, ?_, ?_⟩
  · apply ((steppers_agree_until_underflow interruptedSource stepwise).2 _
      parse_interruptedSource).1
    intro before pop hunderflow
    obtain rfl := hinterrupted.unique hunderflow.first
    cases hunderflow.isPop
  · exact (((steppers_agree_until_underflow underflowSource pairwise).2 _
      parse_underflowSource).2 _ _ hthird).2.2
        (underflowTrace.steps.take 2) [] ⟨⟨[], _, rfl⟩, rfl⟩
  · exact ((((steppers_agree_until_underflow emptyBootstrapSource pairwise).2 _
      parse_emptyBootstrapSource).2 _ _ hempty).2.1 ⟨[], rfl⟩).2

end LiveHeap
