import LiveHeap.Proofs.Graph.Core
import LiveHeap.Proofs.Session.Emission
import LiveHeap.Proofs.Session.Lockstep
import LiveHeap.Proofs.Session.Schedule

/-!
# What the settings have a part in

The settings of a session decide where its batches end and whether collections
run there.  A collection leaves the core of the graph alone, and events take no
notice of anything else.  So a session comes to the same whatever its settings
are, but for what is live and what the collector keeps of its last cycle.
-/

namespace LiveHeap

namespace Graph

variable {g g' : Graph}

/-- A sound graph whose collector is between two cycles. -/
structure AtRest (g : Graph) : Prop where
  wellFormed : g.WellFormed
  collector : g.collector.AtRest

theorem AtRest.observe (h : g.AtRest) (e : Event) : (g.observe e).1.AtRest where
  wellFormed := by
    rw [observe_fst]
    exact h.wellFormed.apply (.event e)
  collector := by
    rw [collector_observe]
    exact h.collector

theorem AtRest.collect (h : g.AtRest) : g.collect.1.AtRest where
  wellFormed := h.wellFormed.apply .collect
  collector := Bench.atRest_collect _ h.wellFormed.idle

theorem kept_atRest : Kept AtRest where
  deliver _ e h := h.observe e
  collect _ h := h.collect

theorem atRest_openSession (engine : Engine) (source : String) :
    (engine.openSession source new).2.AtRest := by
  apply kept_atRest.openSession
  · exact ⟨wellFormed_new, rfl⟩
  · exact ⟨wellFormed_new.apply .beginBootstrap, rfl⟩
  · intro g h builtins global
    constructor
    · exact h.wellFormed.leaveBootstrap builtins global
    · have hsame := collector_leaveBootstrap g builtins global
      exact hsame ▸ h.collector

/-- The first graph is at rest, and the second one has the same core. -/
structure Shadows (g g' : Graph) : Prop where
  atRest : g.AtRest
  core : g'.core = g.core

theorem lockstep_shadows : Lockstep Shadows := by
  intro g g' h e
  have hstep := core_observe h.core e
  constructor
  · exact ⟨h.atRest.observe e, hstep.state⟩
  · exact hstep.answer

/-- A collection on one side alone is not noticed. -/
theorem Shadows.collect (h : g.Shadows g') : g.collect.1.Shadows g' where
  atRest := h.atRest.collect
  core := h.core.trans h.atRest.wellFormed.core_collect.symm

theorem lockstep_eq : Lockstep (@Eq Graph) := by
  intro g g' h e
  rw [h]
  exact ⟨rfl, rfl⟩

end Graph

/-! ## Sessions played back at one go -/

structure Conclusion where
  graph : Graph
  steps : Nat
  answer : Except SessionError Unit

/-- What a source comes to without batches and collections. -/
def Engine.conclusion (engine : Engine) (source : String) : Conclusion :=
  match engine.openSession source Graph.new with
  | (.error e, g) => ⟨g, 0, .error e⟩
  | (.ok m, g) =>
      let p := playSteps g m.pending
      ⟨p.observer, p.count, m.answer p⟩

/-- The session came to the conclusion, with a related graph. -/
structure Conclusion.Reached (x : Conclusion) (r : Graph → Graph → Prop)
    (run : Stepper Graph × Except SessionError Unit) : Prop where
  graph : r run.1.observer x.graph
  steps : run.1.steps = x.steps
  answer : run.2 = x.answer

theorem Engine.conclusion_reached (engine : Engine) (source : String)
    (options : Options) {r : Graph → Graph → Prop} (h : Lockstep r)
    (hopened : ∀ g : Graph, g.AtRest → r g g)
    (hcollect : options.collectGarbage = true →
      ∀ g g' : Graph, r g g' → r g.collect.1 g') :
    (engine.conclusion source).Reached r
      (Stepper.instrumented engine source options).runToCompletion := by
  let s := Stepper.instrumented engine source options
  have hsession : s.session = (engine.openSession source Graph.new).1 := rfl
  have hobserver : s.observer = (engine.openSession source Graph.new).2 := rfl
  have hr := hopened _ (Graph.atRest_openSession engine source)
  rw [← hobserver] at hr
  unfold conclusion
  rcases hopen : engine.openSession source Graph.new with ⟨e | m, g⟩
  · have hanswer := (Stepper.new_of_error hopen options).2.2.2
    rw [hopen] at hsession hobserver
    rw [Stepper.instrumented, hanswer]
    exact ⟨hobserver ▸ hr, rfl, rfl⟩
  · have hrunning : s.status ≠ .done := by
      simp [s, Stepper.instrumented, Stepper.new, hopen]
    rw [hopen] at hsession hobserver
    have hends := h.ends hsession hrunning hr hcollect
    rw [hobserver] at hends
    constructor
    · exact hends.observer
    · exact hends.steps.trans (Nat.zero_add _)
    · exact hends.answer

theorem Engine.observer_of_uncollected (engine : Engine) (source : String)
    {options : Options} (hnever : options.collectGarbage = false) :
    (Stepper.instrumented engine source options).runToCompletion.1.observer =
      (engine.conclusion source).graph := by
  have hend := engine.conclusion_reached source options Graph.lockstep_eq
    (fun _ _ => rfl) (fun hgarbage => by simp [hnever] at hgarbage)
  exact hend.graph

/-- Two sessions over one source, with any two settings, run to their ends.
They answer the same after as many steps, and their graphs differ in what is
live at most, but for the counters and the shades that the collectors keep.
Without collections the graphs are the same. -/
theorem settings_decide_liveness_only (engine : Engine) (source : String)
    (options options' : Options) :
    let run := (Stepper.instrumented engine source options).runToCompletion
    let run' := (Stepper.instrumented engine source options').runToCompletion
    run'.2 = run.2 ∧
      run'.1.steps = run.1.steps ∧
      run.1.observer.DiffersInLiveness run'.1.observer ∧
      (options.collectGarbage = false → options'.collectGarbage = false →
        run'.1.observer = run.1.observer) := by
  intro run run'
  have hreached : ∀ options : Options, (engine.conclusion source).Reached
      Graph.Shadows
      (Stepper.instrumented engine source options).runToCompletion := by
    intro options
    apply engine.conclusion_reached source options Graph.lockstep_shadows
    · exact fun g hg => ⟨hg, rfl⟩
    · exact fun _ g g' h => h.collect
  have hrun : (engine.conclusion source).Reached Graph.Shadows run :=
    hreached options
  have hrun' : (engine.conclusion source).Reached Graph.Shadows run' :=
    hreached options'
  refine ⟨?_, ?_, ?_, ?_⟩
  · exact hrun'.answer.trans hrun.answer.symm
  · exact hrun'.steps.trans hrun.steps.symm
  · have hcore : run'.1.observer.core = run.1.observer.core :=
      hrun'.graph.core.symm.trans hrun.graph.core
    have hrest := hrun.graph.atRest
    have hrest' := hrun'.graph.atRest
    exact Graph.differsInLiveness_of_core hcore hrest.wellFormed
      hrest'.wellFormed hrest.collector hrest'.collector
  · intro hnever hnever'
    have hsame := engine.observer_of_uncollected source hnever
    have hsame' := engine.observer_of_uncollected source hnever'
    exact hsame'.trans hsame.symm

/-- A value that no one refers to, and a call boundary behind it. -/
def strayValueSource : String :=
  "\x7b\"steps\":[[" ++
    "\x7b\"op\":\"create\",\"value\":\x7b\"id\":5\x7d\x7d],[" ++
    "\x7b\"op\":\"call_boundary\"\x7d]]\x7d"

def strayValueTrace : Trace where
  bootstrap := []
  steps := [[.report (.create (.primitive ⟨5⟩))], [.report .callBoundary]]
  builtins := []
  global := none

theorem parse_strayValueSource :
    Trace.parse strayValueSource = .ok strayValueTrace := by cbv

def collected (batchSize : Nat) : Options :=
  Options.default.withBatchSize batchSize

def uncollected (batchSize : Nat) : Options :=
  (collected batchSize).withCollectGarbage false

def strayValueRun (options : Options) :
    Stepper Graph × Except SessionError Unit :=
  (Stepper.instrumented .replay strayValueSource options).runToCompletion

/-- The value with no one to refer to it, before any collection. -/
def strayValueGraph : Graph :=
  Graph.new.run
    [.beginBootstrap, .endBootstrap, .registerBuiltins [], .setGlobal none,
      .event (.create (.primitive ⟨5⟩)), .event .callBoundary]

theorem observer_strayValueRun (batchSize : Nat) :
    (strayValueRun (uncollected batchSize)).1.observer = strayValueGraph := by
  have hnever : (uncollected batchSize).collectGarbage = false := rfl
  have hend := Engine.replay.observer_of_uncollected strayValueSource hnever
  unfold Engine.conclusion at hend
  rw [Stepper.openSession_replay parse_strayValueSource] at hend
  exact hend

/-- The session as it opens, before its only batch. -/
def strayValueStepper : Stepper Graph where
  session := .ok strayValueTrace.machine
  observer := Graph.new.beginBootstrap.leaveBootstrap [] none
  status := .ready
  batchSize := 7
  batchSize_pos := by decide
  collectGarbage := true
  steps := 0
  yields := 0

theorem instrumented_strayValueSource :
    Stepper.instrumented .replay strayValueSource (collected 7) =
      strayValueStepper := by
  unfold Stepper.instrumented Stepper.new
  rw [Stepper.openSession_replay parse_strayValueSource]
  rfl

theorem strayValueRun_collected :
    (strayValueRun (collected 7)).1.observer = strayValueGraph.collect.1 ∧
      (strayValueRun (collected 7)).1.steps = 2 ∧
      (strayValueRun (collected 7)).2 = .ok () := by
  have hbatch : strayValueStepper.runBatch =
      (strayValueStepper.runBatch.1, .done) := rfl
  unfold strayValueRun
  rw [instrumented_strayValueSource, Stepper.runToCompletion_of_done hbatch]
  exact ⟨rfl, rfl, rfl⟩

/-- A collection that ran shows in the colours that the collector keeps, not
only in its counters: without collections there are none. -/
theorem colors_tell_of_collection :
    let g := (strayValueRun (uncollected 1)).1.observer
    let g' := (strayValueRun (collected 7)).1.observer
    g.collector.color Graph.root = .white ∧
      g'.collector.color Graph.root = .black ∧
      g' ≠
        { g with
          slots := g'.slots
          changed := g'.changed
          mutated := g'.mutated
          collectionDue := g'.collectionDue
          collector :=
            { g.collector with
              marks :=
                { g.collector.marks with
                  highWater := g'.collector.marks.highWater }
              lastStats := g'.collector.lastStats
              cycles := g'.collector.cycles } } := by
  intro g g'
  have hg : g = strayValueGraph := observer_strayValueRun 1
  have hg' : g' = strayValueGraph.collect.1 := strayValueRun_collected.1
  have hwhite : g.collector.color Graph.root = .white := by
    rw [hg]
    decide +kernel
  have hblack : g'.collector.color Graph.root = .black := by
    rw [hg']
    decide +kernel
  refine ⟨hwhite, hblack, fun hsame => ?_⟩
  have hshades : g'.collector.marks.shades = g.collector.marks.shades := by
    rw [hsame]
  have hcolor : g'.collector.color Graph.root =
      g.collector.color Graph.root := by
    unfold Collector.color Marks.color
    rw [hshades]
  rw [hwhite, hblack] at hcolor
  contradiction

theorem settings_decide_strayValue :
    (uncollected 1).collectGarbage = false ∧
      (uncollected 7).collectGarbage = false ∧
      (strayValueRun (uncollected 7)).1.observer =
        (strayValueRun (uncollected 1)).1.observer ∧
      (strayValueRun (uncollected 1)).2 = .ok () ∧
      (strayValueRun (uncollected 1)).1.steps = 2 ∧
      (strayValueRun (uncollected 1)).1.observer.DiffersInLiveness
        (strayValueRun (collected 7)).1.observer ∧
      (strayValueRun (uncollected 1)).1.observer.isLive ⟨2⟩ = true ∧
      (strayValueRun (collected 7)).1.observer.isLive ⟨2⟩ = false := by
  obtain ⟨_, _, _, hsame⟩ := settings_decide_liveness_only .replay
    strayValueSource (uncollected 1) (uncollected 7)
  obtain ⟨hanswer, hsteps, hdiffers, _⟩ := settings_decide_liveness_only
    .replay strayValueSource (uncollected 1) (collected 7)
  obtain ⟨hgraph, hcount, hok⟩ := strayValueRun_collected
  refine ⟨rfl, rfl, hsame rfl rfl, hanswer.symm.trans hok,
    hsteps.symm.trans hcount, hdiffers, ?_, ?_⟩
  · rw [observer_strayValueRun]
    decide +kernel
  · rw [hgraph]
    decide +kernel

end LiveHeap
