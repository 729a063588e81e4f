import LiveHeap.Proofs.Session.Accounting

/-!
# The first offence decides

Read the entries of the bootstrap and then those of all steps.  If none of them
offends, then the session is played out, and its stack is as high as the pushes
and pops make it.  Otherwise the first one that offends is what the session
answers with, and its graph was told the entries before it and no other.
-/

namespace LiveHeap

/-- The error of a session for an entry that offends, with the place of the
machine if it has one by then. -/
def Entry.verdict (info : Option String) : Entry → SessionError
  | throw message => .execution ⟨message, info⟩
  | report _ => .internal .stackUnderflow

/-- The bootstrap has no place of its own. -/
theorem toSession_error (entry : Entry) :
    (Engine.replay.raise entry.error).toSession = entry.verdict none := by
  cases entry <;> rfl

/-- Behind the bootstrap the machine says where it stands. -/
theorem failure_error (t : Trace) (count : Nat) (entry : Entry) :
    t.machine.failure count entry.error =
      entry.verdict (some ("replay step " ++ toString count ++ " of " ++
        toString t.steps.length)) := by
  have hplace : (t.machine.skip count).stackInfo =
      "replay step " ++ toString count ++ " of " ++
        toString t.steps.length := by
    simp [Machine.skip, Trace.machine, Machine.stackInfo, Engine.replay]
  unfold Machine.failure
  rw [hplace]
  cases entry with
  | report e => rfl
  | throw message =>
      have hraised : t.machine.engine.raise (Entry.throw message).error =
          .execution ⟨message, none⟩ := rfl
      simp [hraised, SessionError.ofStep, Entry.verdict]

namespace Trace

variable {t : Trace} {before after : List Entry} {entry : Entry}

/-- An entry of the bootstrap, with the entries before it. -/
def StandsInBootstrap (t : Trace) (before : List Entry) (entry : Entry) :
    Prop :=
  ∃ after, t.bootstrap = before ++ entry :: after

/-- An entry of a step, with the steps before its own, the entries of its own
step before it, and all entries before it. -/
structure StandsInStep (t : Trace) (before : List Entry) (entry : Entry)
    (done : List (List Entry)) (part : List Entry) : Prop where
  step : ∃ after rest, t.steps = done ++ (part ++ entry :: after) :: rest
  before : before = t.bootstrap ++ (done.flatten ++ part)

theorem standsInStep_of_flatten {told : List Entry}
    (hsplit : t.steps.flatten = told ++ entry :: after) :
    ∃ done part, t.StandsInStep (t.bootstrap ++ told) entry done part := by
  rcases List.flatten_eq_append_iff.mp hsplit with
    ⟨done, steps, hsteps, rfl, hlater⟩ |
      ⟨done, part, first, others, rest, hsteps, rfl, hlater⟩
  · -- The entry is the first one of its step, which empty steps may precede.
    rcases List.flatten_eq_cons_iff.mp hlater.symm with
      ⟨empty, others, rest, rfl, hempty, -⟩
    have hnone : empty.flatten = [] := List.flatten_eq_nil_iff.mpr hempty
    refine ⟨done ++ empty, [], ⟨others, rest, ?_⟩, ?_⟩
    · rw [hsteps, List.append_assoc]
      rfl
    · rw [List.flatten_append, hnone, List.append_nil, List.append_nil]
  · obtain ⟨rfl, -⟩ := List.cons.inj hlater
    exact ⟨done, part, ⟨others, rest, hsteps⟩, rfl⟩

theorem standsInBootstrap_or_standsInStep
    (hsplit : t.bootstrap ++ t.steps.flatten = before ++ entry :: after) :
    t.StandsInBootstrap before entry ∨
      ∃ done part, t.StandsInStep before entry done part := by
  rcases List.append_eq_append_iff.mp hsplit with
    ⟨told, rfl, hlater⟩ | ⟨rest, hbootstrap, hrest⟩
  · exact Or.inr (standsInStep_of_flatten hlater)
  · cases rest with
    | nil =>
        have htold : ∃ done part, t.StandsInStep (t.bootstrap ++ []) entry done
            part := standsInStep_of_flatten hrest.symm
        rw [List.append_nil] at hbootstrap htold
        exact Or.inr (hbootstrap ▸ htold)
    | cons first rest =>
        obtain ⟨rfl, -⟩ := List.cons.inj hrest
        exact Or.inl ⟨rest, hbootstrap⟩

end Trace

namespace Stepper

variable {source : String} {t : Trace} {before : List Entry} {entry : Entry}

/-- A session without a program. -/
structure Unread (e : ParseError) (s : Stepper Graph) : Prop where
  graph : ∀ count, (s.batches count).observer = Graph.new
  batch : ∀ count, (s.batches count).runBatch.2 = .failed (.parse e)
  answer : s.runToCompletion.2 = .error (.parse e)

/-- A session that comes to the end of its program. -/
structure PlaysOut (t : Trace) (collectGarbage : Bool) (s : Stepper Graph) :
    Prop where
  answer : s.runToCompletion.2 = .ok ()
  steps : s.runToCompletion.1.steps = t.steps.length
  graph : Graph.Told t.opening t.bootstrap collectGarbage t.steps.flatten
    s.runToCompletion.1.observer
  depth : s.runToCompletion.1.observer.stackDepth +
      (t.bootstrap ++ t.steps.flatten).countP Entry.isPop =
    (t.bootstrap ++ t.steps.flatten).countP Entry.isPush

/-- A session that does not get through its bootstrap.  The graph leaves it,
without builtins and without a root scope. -/
structure StopsInBootstrap (before : List Entry) (entry : Entry)
    (s : Stepper Graph) : Prop where
  answer : s.runToCompletion = (s, .error (entry.verdict none))
  status : s.status = .error
  steps : s.steps = 0
  graph : s.observer = Graph.new.run
    (.beginBootstrap :: operations before ++ [.endBootstrap, .setGlobal none])
  outside : s.observer.bootstrapping = false
  global : s.observer.global = none

/-- A session that is stopped in one of its steps. -/
structure StopsInStep (t : Trace) (collectGarbage : Bool)
    (done : List (List Entry)) (part : List Entry) (entry : Entry)
    (s : Stepper Graph) : Prop where
  answer : s.runToCompletion.2 = .error (entry.verdict
    (some ("replay step " ++ toString done.length ++ " of " ++
      toString t.steps.length)))
  steps : s.runToCompletion.1.steps = done.length
  graph : Graph.Told t.opening t.bootstrap collectGarbage
    (done.flatten ++ part) s.runToCompletion.1.observer

theorem unread_instrumented {e : ParseError}
    (hparse : Trace.parse source = .error e) (options : Options) :
    (instrumented .replay source options).Unread e := by
  have hopen : Engine.replay.openSession source Graph.new =
      (.error (.parse e), Graph.new) := by
    have hread : Engine.replay.parse source = .error e := hparse
    rw [Engine.openSession, hread]
  obtain ⟨hsession, hgraph, hstatus, hanswer⟩ := new_of_error hopen options
  have hbatch : (instrumented .replay source options).runBatch =
      (instrumented .replay source options, .failed (.parse e)) := by
    unfold instrumented
    rw [runBatch, hstatus, hsession]
    rfl
  have hstill : ∀ count,
      (instrumented .replay source options).batches count =
        instrumented .replay source options := by
    intro count
    induction count with
    | zero => rfl
    | succ count ih => rw [batches, ih, hbatch]
  constructor
  · intro count
    rw [hstill]
    exact hgraph
  · intro count
    rw [hstill, hbatch]
  · exact congrArg Prod.snd hanswer

section Parsed

variable (hparse : Trace.parse source = .ok t) (options : Options)

include hparse

theorem stopsInBootstrap_instrumented
    (hfirst : FirstOffence true [] t.bootstrap before entry) :
    (instrumented .replay source options).StopsInBootstrap before entry := by
  have hforesees := Graph.foresees_told [.beginBootstrap] [] false
  have ⟨hfailed, htold⟩ := hforesees.playBack_offence
    Graph.told_beginBootstrap hfirst
  have hopen := openSession_replay hparse Graph.new
  rcases hplayed : playBack (Observer.enterBootstrap Graph.new) t.bootstrap
    with ⟨g, failed⟩
  have hbooted : playBack Graph.new.beginBootstrap t.bootstrap =
      (g, failed) := hplayed
  rw [hbooted] at hfailed htold
  obtain rfl : failed = some entry.error := hfailed
  rw [hplayed] at hopen
  simp only [toSession_error] at hopen
  obtain ⟨_, hgraph, hstatus, hanswer⟩ := new_of_error hopen options
  have hleft : (instrumented .replay source options).observer =
      g.leaveBootstrap [] none := hgraph
  rcases htold.made with ⟨ops, hmade, _, hall⟩
  obtain rfl : g = Graph.new.run ops := hmade
  constructor
  · exact hanswer
  · exact hstatus
  · rfl
  · have hops : ops = .beginBootstrap :: operations before := hall rfl
    rw [hleft, hops]
    unfold Graph.run
    rw [List.foldl_append]
    rfl
  · rw [hleft]
    rfl
  · rw [hleft]
    rfl

/-- A bootstrap in which nothing offends opens the session, which then comes to
the end that the steps foretell. -/
theorem runToCompletion_instrumented {count : Nat} {told : List Entry}
    {result : Except SessionError Unit} (hsound : Sound true [] t.bootstrap)
    (hends : t.EndsAt true count told result) :
    (instrumented .replay source options).runToCompletion.2 = result ∧
    (instrumented .replay source options).runToCompletion.1.steps = count ∧
    Graph.Told t.opening t.bootstrap options.collectGarbage told
      (instrumented .replay source options).runToCompletion.1.observer := by
  have hforesees := Graph.foresees_told [.beginBootstrap] [] false
  have hbooted := (hforesees.playBack Graph.told_beginBootstrap hsound).1
  have hok : (instrumented .replay source options).error? = none :=
    (error?_new hparse Graph.new options).trans
      (Option.map_eq_none_iff.mpr hbooted)
  have hcourse := onCourse_instrumented hparse options hok
  have ⟨haccounts, htold⟩ := hcourse.accounts (Graph.foresees_told _ _ _)
    (Graph.Told.outlivesCollection _ _ _) hends
  rw [haccounts.completion]
  exact ⟨rfl, (haccounts.after _ (Nat.lt_succ_self _)).steps, htold⟩

theorem playsOut_instrumented
    (hsound : Sound true [] (t.bootstrap ++ t.steps.flatten)) :
    (instrumented .replay source options).PlaysOut t
      options.collectGarbage := by
  have hparts := sound_append.mp hsound
  rw [List.nil_append] at hparts
  have ⟨hanswer, hsteps, htold⟩ :=
    runToCompletion_instrumented hparse options hparts.1 (.all hparts.2)
  have hlevel := htold.level
  constructor
  · exact hanswer
  · exact hsteps
  · exact htold
  · rw [htold.wellFormed.depth]
    exact hlevel

theorem stopsInStep_instrumented {done : List (List Entry)}
    {part : List Entry} (hstands : t.StandsInStep before entry done part)
    (hsound : Sound true [] before)
    (hoffends : entry.offends true before = true) :
    (instrumented .replay source options).StopsInStep t
      options.collectGarbage done part entry := by
  rcases hstands.step with ⟨after, rest, hsteps⟩
  rw [hstands.before] at hsound hoffends
  have ⟨hbootstrap, hlater⟩ := sound_append.mp hsound
  have ⟨hdone, hpart⟩ := sound_append.mp hlater
  have hfirst : FirstOffence true (t.bootstrap ++ done.flatten)
      (part ++ entry :: after) part entry := by
    refine ⟨⟨after, rfl⟩, hpart, ?_⟩
    rwa [List.append_assoc]
  have ⟨hanswer, hcount, htold⟩ := runToCompletion_instrumented hparse options
    hbootstrap (.offence hsteps hdone hfirst)
  rw [failure_error] at hanswer
  exact ⟨hanswer, hcount, htold⟩

end Parsed

end Stepper

/-- The answer of a session that replays a trace, and what its graph was told,
are read off from the entries of the trace. -/
theorem first_offence_decides (source : String) (options : Options) :
    let s := Stepper.instrumented .replay source options
    (∀ e, Trace.parse source = .error e → s.Unread e) ∧
    (∀ t, Trace.parse source = .ok t →
      (Sound true [] (t.bootstrap ++ t.steps.flatten) →
        s.PlaysOut t options.collectGarbage) ∧
      (Sound true [] (t.bootstrap ++ t.steps.flatten) ∨ ∃ before entry,
        FirstOffence true [] (t.bootstrap ++ t.steps.flatten) before entry) ∧
      (∀ before entry,
        FirstOffence true [] (t.bootstrap ++ t.steps.flatten) before entry →
        (t.StandsInBootstrap before entry ∨
          ∃ done part, t.StandsInStep before entry done part) ∧
        (t.StandsInBootstrap before entry → s.StopsInBootstrap before entry) ∧
        (∀ done part, t.StandsInStep before entry done part →
          s.StopsInStep t options.collectGarbage done part entry))) := by
  intro s
  refine ⟨fun e hparse => Stepper.unread_instrumented hparse options, ?_⟩
  intro t hparse
  refine ⟨Stepper.playsOut_instrumented hparse options,
    sound_or_offence true [] _, ?_⟩
  intro before entry hfirst
  rcases hfirst.split with ⟨after, hsplit⟩
  refine ⟨Trace.standsInBootstrap_or_standsInStep hsplit, ?_, ?_⟩
  · intro hstands
    have hbootstrap : FirstOffence true [] t.bootstrap before entry :=
      ⟨hstands, hfirst.sound, hfirst.offends⟩
    exact Stepper.stopsInBootstrap_instrumented hparse options hbootstrap
  · intro done part hstands
    exact Stepper.stopsInStep_instrumented hparse options hstands hfirst.sound
      hfirst.offends

/-- A bootstrap that is interrupted after a push. -/
def brokenBootstrapSource : String :=
  "\x7b\"bootstrap\":[" ++
    "\x7b\"op\":\"push\",\"value\":5\x7d," ++
    "\x7b\"op\":\"throw\",\"message\":\"stop\"\x7d]," ++
    "\"builtins\":[7],\"global\":5,\"steps\":[[]]\x7d"

def brokenBootstrapTrace : Trace where
  bootstrap := [.report (.push ⟨5⟩), .throw "stop"]
  steps := [[]]
  builtins := [⟨7⟩]
  global := some ⟨5⟩

theorem parse_brokenBootstrapSource :
    Trace.parse brokenBootstrapSource = .ok brokenBootstrapTrace := by cbv

theorem parse_empty : Trace.parse "" =
    .error ⟨Json.Diagnosis.text ⟨.endInValue, 1, 0⟩, 1, 0⟩ := by
  have hread : Trace.diagnose "" = .error ⟨.endInValue, 1, 0⟩ := by cbv
  rw [Trace.parse, hread]

/-- One error after a push, in the bootstrap and in the second of two steps. -/
theorem interruptions_decide :
    (Stepper.instrumented .replay "" stepwise).Unread
      ⟨Json.Diagnosis.text ⟨.endInValue, 1, 0⟩, 1, 0⟩ ∧
    (Stepper.instrumented .replay brokenBootstrapSource
      stepwise).StopsInBootstrap [.report (.push ⟨5⟩)] (.throw "stop") ∧
    (Stepper.instrumented .replay interruptedSource
      stepwise).StopsInStep interruptedTrace true
        (interruptedTrace.steps.take 1) [.report (.push ⟨5⟩)]
        (.throw "stop") := by
  have hunread := first_offence_decides "" stepwise
  have hbroken := (first_offence_decides brokenBootstrapSource stepwise).2
    brokenBootstrapTrace parse_brokenBootstrapSource
  have hinterrupted := (first_offence_decides interruptedSource stepwise).2
    interruptedTrace parse_interruptedSource
  have hbootstrap : FirstOffence true [] (brokenBootstrapTrace.bootstrap ++
      brokenBootstrapTrace.steps.flatten) [.report (.push ⟨5⟩)]
      (.throw "stop") := ⟨⟨[], rfl⟩, by decide, rfl⟩
  have hstep : FirstOffence true [] (interruptedTrace.bootstrap ++
      interruptedTrace.steps.flatten)
      [.report (.create (.primitive ⟨5⟩)), .report .callBoundary,
        .report (.push ⟨5⟩)]
      (.throw "stop") := ⟨⟨[], rfl⟩, by decide, rfl⟩
  refine ⟨hunread.1 _ parse_empty, ?_, ?_⟩
  · exact (hbroken.2.2 _ _ hbootstrap).2.1 ⟨[], rfl⟩
  · exact (hinterrupted.2.2 _ _ hstep).2.2 _ _ ⟨⟨[], [], rfl⟩, rfl⟩

end LiveHeap
