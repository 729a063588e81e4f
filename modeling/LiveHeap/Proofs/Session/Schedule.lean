import LiveHeap.Proofs.Graph.Flags
import LiveHeap.Proofs.Session.Kept
import LiveHeap.Proofs.Session.Playback
import Mathlib

/-!
# The schedule of collections

A session that plays a trace back does the same to its graph as a list of
operations known beforehand: the opening, then the steps of the trace in groups
of the size of a batch, with a collection behind a group if the operations since
the last collection call for one.  The two flags of the graph recount these
operations (`Recounts`), which is why the stepper, who sees the flags only,
keeps to the schedule.
-/

namespace LiveHeap

namespace Graph

namespace Operation

def isCollection : Operation → Bool
  | collect => true
  | _ => false

def isCallBoundary : Operation → Bool
  | event e => e.isCallBoundary
  | _ => false

def isMutation : Operation → Bool
  | event e => e.isMutation
  | _ => false

end Operation

/-- The operations behind the last collection, or all if there was none. -/
def sinceCollection (ops : List Operation) : List Operation :=
  ops.rtakeWhile fun op => !op.isCollection

/-- A collection is called for when a call boundary and a change were
delivered since the last one. -/
def callsForCollection (ops : List Operation) : Bool :=
  (sinceCollection ops).any Operation.isMutation &&
    (sinceCollection ops).any Operation.isCallBoundary

end Graph

open LiveHeap.Graph (Operation)

def Entry.operation? : Entry → Option Operation
  | report e => some (.event e)
  | throw _ => none

/-- The operations of entries of which none raises an error. -/
def operations (entries : List Entry) : List Operation :=
  entries.filterMap Entry.operation?

namespace Trace

def opening (t : Trace) : List Operation :=
  .beginBootstrap :: operations t.bootstrap ++
    [.endBootstrap, .registerBuiltins t.builtins, .setGlobal t.global]

/-- The steps in groups of one size.  The last group has the steps that are
left over, and is empty if none are. -/
def groups (t : Trace) (size : Nat) : List (List (List Entry)) :=
  (List.range (t.steps.length / size + 1)).map fun i =>
    (t.steps.drop (i * size)).take size

/-- The operations when one more group is done, with the collection that these
operations call for. -/
def endGroup (collectGarbage : Bool) (ops : List Operation)
    (group : List (List Entry)) : List Operation :=
  let ops := ops ++ operations group.flatten
  if collectGarbage && Graph.callsForCollection ops then ops ++ [.collect]
  else ops

def schedule (t : Trace) (size : Nat) (collectGarbage : Bool) (count : Nat) :
    List Operation :=
  ((t.groups size).take count).foldl (endGroup collectGarbage) t.opening

def machine (t : Trace) : Machine :=
  ⟨.replay, t.steps, 0, t.builtins, t.global⟩

theorem pending_skip (t : Trace) (position : Nat) :
    (t.machine.skip position).pending = t.steps.drop position :=
  t.machine.pending_skip position

theorem remaining_skip (t : Trace) (position : Nat) :
    (t.machine.skip position).remaining = t.steps.length - position := by
  rw [← Machine.length_pending, pending_skip, List.length_drop]

end Trace

/-! ## Operations recounted by the flags -/

namespace Graph

/-- The graph is made by the operations, and its flags tell what was delivered
since the last collection. -/
structure Recounts (g : Graph) (ops : List Operation) : Prop where
  graph : g = new.run ops
  mutated : g.mutated = (sinceCollection ops).any Operation.isMutation
  due : g.collectionDue = (sinceCollection ops).any Operation.isCallBoundary

theorem sinceCollection_concat {op : Operation} (hop : op.isCollection = false)
    (ops : List Operation) :
    sinceCollection (ops ++ [op]) = sinceCollection ops ++ [op] := by
  apply List.rtakeWhile_concat_pos
  rw [hop]
  rfl

variable {g g' : Graph} {ops : List Operation}

namespace Recounts

theorem pending (h : g.Recounts ops) :
    g.collectionPending = callsForCollection ops := by
  unfold collectionPending callsForCollection
  rw [h.mutated, h.due]

theorem concat (h : g.Recounts ops) {op : Operation}
    (hop : op.isCollection = false)
    (hmutated : (g.apply op).mutated = (g.mutated || op.isMutation))
    (hdue : (g.apply op).collectionDue =
      (g.collectionDue || op.isCallBoundary)) :
    (g.apply op).Recounts (ops ++ [op]) := by
  constructor
  · rw [run_concat, h.graph]
  · rw [hmutated, h.mutated, sinceCollection_concat hop]
    simp
  · rw [hdue, h.due, sinceCollection_concat hop]
    simp

/-- An operation of the opening, which leaves both flags alone. -/
theorem quiet (h : g.Recounts ops) (op : Operation)
    (hop : op.isCollection = false) (hevent : ∀ e, op ≠ .event e)
    (hmutated : (g.apply op).mutated = g.mutated)
    (hdue : (g.apply op).collectionDue = g.collectionDue) :
    (g.apply op).Recounts (ops ++ [op]) := by
  apply h.concat hop
  · rw [hmutated]
    cases op <;> simp_all [Operation.isMutation]
  · rw [hdue]
    cases op <;> simp_all [Operation.isCallBoundary]

theorem observe (h : g.Recounts ops) {e : Event}
    (haccepted : (g.observe e).2 = none) :
    (g.observe e).1.Recounts (ops ++ [.event e]) := by
  have hmutated := mutated_observe g e haccepted
  have hdue := collectionDue_observe g e
  rw [observe_fst] at hmutated hdue ⊢
  exact h.concat rfl hmutated hdue

theorem collect (h : g.Recounts ops) :
    g.collect.1.Recounts (ops ++ [.collect]) := by
  have hnone : sinceCollection (ops ++ [.collect]) = [] := by
    apply List.rtakeWhile_concat_neg
    exact Bool.false_ne_true
  constructor
  · rw [run_concat, h.graph]
    rfl
  · rw [hnone]
    rfl
  · rw [hnone]
    rfl

theorem playBack (h : g.Recounts ops) (entries : List Entry)
    (hplayed : LiveHeap.playBack g entries = (g', none)) :
    g'.Recounts (ops ++ operations entries) := by
  induction entries generalizing g ops with
  | nil =>
      obtain rfl : g = g' := congrArg Prod.fst hplayed
      rwa [operations, List.filterMap_nil, List.append_nil]
  | cons entry entries ih =>
      cases entry with
      | throw message => cases congrArg Prod.snd hplayed
      | report e =>
          cases haccepted : (g.observe e).2 with
          | some err =>
              rw [playBack_refused haccepted] at hplayed
              cases congrArg Prod.snd hplayed
          | none =>
              rw [playBack_report haccepted] at hplayed
              have hrest := ih (h.observe haccepted) hplayed
              rwa [List.append_assoc] at hrest

end Recounts

theorem observe_of_refused {e : Event} {err : GraphError}
    (hrefused : (g.observe e).2 = some err) : (g.observe e).1 = g := by
  unfold observe at hrefused ⊢
  cases hdelivered : g.deliver e with
  | ok g' => simp [hdelivered] at hrefused
  | error err => rfl

/-- A playback that fails has delivered the entries before the failure. -/
theorem playBack_of_failed {entries : List Entry} {err : EngineError}
    (hplayed : LiveHeap.playBack g entries = (g', some err)) :
    ∃ played, played <+: entries ∧ g' = g.run (operations played) := by
  induction entries generalizing g with
  | nil => cases congrArg Prod.snd hplayed
  | cons entry entries ih =>
      cases entry with
      | throw message =>
          have hsame : g = g' := congrArg Prod.fst hplayed
          exact ⟨[], List.nil_prefix, hsame.symm⟩
      | report e =>
          cases haccepted : (g.observe e).2 with
          | some err =>
              rw [playBack_refused haccepted] at hplayed
              have hsame : (g.observe e).1 = g' := congrArg Prod.fst hplayed
              rw [observe_of_refused haccepted] at hsame
              exact ⟨[], List.nil_prefix, hsame.symm⟩
          | none =>
              rw [playBack_report haccepted] at hplayed
              rcases ih hplayed with ⟨played, hprefix, hrun⟩
              have hfirst : (Observer.deliver g e).1 = g.apply (.event e) :=
                observe_fst g e
              rw [hfirst] at hrun
              refine ⟨.report e :: played, ?_, hrun⟩
              exact (List.prefix_cons_inj _).mpr hprefix

theorem Recounts.leaveBootstrap (h : g.Recounts ops) (builtins : List ValueId)
    (global : Option ValueId) :
    (g.leaveBootstrap builtins global).Recounts
      (ops ++
        [.endBootstrap, .registerBuiltins builtins, .setGlobal global]) := by
  have hended := h.quiet .endBootstrap rfl nofun rfl rfl
  have hflags := registerBuiltins_keeps g.endBootstrap builtins
  have hbuiltins := hended.quiet (.registerBuiltins builtins) rfl nofun
    hflags.1 hflags.2.1
  have hflags' := setGlobal_keeps
    (g.endBootstrap.registerBuiltins builtins) global
  have hglobal := hbuiltins.quiet (.setGlobal global) rfl nofun
    hflags'.1 hflags'.2.1
  rw [List.append_assoc, List.append_assoc] at hglobal
  exact hglobal

theorem recounts_beginBootstrap :
    new.beginBootstrap.Recounts [.beginBootstrap] := ⟨rfl, rfl, rfl⟩

end Graph

/-! ## Batches on schedule -/

namespace Trace

variable (t : Trace) {size count : Nat} (collectGarbage : Bool)

theorem schedule_succ (hcount : count ≤ t.steps.length / size) :
    t.schedule size collectGarbage (count + 1) =
      endGroup collectGarbage (t.schedule size collectGarbage count)
        ((t.steps.drop (count * size)).take size) := by
  have hgroup : (t.groups size)[count]? =
      some ((t.steps.drop (count * size)).take size) := by
    unfold groups
    rw [List.getElem?_map, List.getElem?_range (by omega)]
    rfl
  unfold schedule
  rw [List.take_add_one, hgroup, Option.toList_some, List.foldl_concat]

theorem schedule_of_done (hcount : t.steps.length / size < count) :
    t.schedule size collectGarbage (count + 1) =
      t.schedule size collectGarbage count := by
  have hlength : (t.groups size).length = t.steps.length / size + 1 := by
    simp [groups]
  unfold schedule
  rw [List.take_of_length_le (by omega), List.take_of_length_le (by omega)]

end Trace

namespace Stepper

variable {σ : Type} [Observer σ]

def batches (s : Stepper σ) : Nat → Stepper σ
  | 0 => s
  | count + 1 => (s.batches count).runBatch.1

theorem runBatch_of_done {s : Stepper σ} (hdone : s.status = .done) :
    s.runBatch.1 = s := by
  rw [runBatch, if_pos hdone]

theorem runBatch_of_error {s : Stepper σ} {e : SessionError}
    (hs : s.session = .error e) : s.runBatch.1 = s := by
  unfold runBatch
  split
  · rfl
  · rw [hs]

theorem session_of_failed {s : Stepper σ} {e : SessionError}
    (hfailed : s.runBatch.2 = .failed e) :
    s.runBatch.1.session = .error e := by
  by_cases hdone : s.status = .done
  · rw [runBatch, if_pos hdone] at hfailed
    contradiction
  · cases hs : s.session with
    | error e' =>
        simp only [runBatch, if_neg hdone, hs] at hfailed ⊢
        rw [Batch.failed.inj hfailed]
    | ok m =>
        rw [runBatch_of_ok hs hdone] at hfailed ⊢
        generalize hp : playSteps s.observer (m.pending.take s.batchSize) = p
        cases hplayed : p.failed with
        | some err =>
            rw [runMachine_of_failed hp hplayed] at hfailed ⊢
            rw [Batch.failed.inj hfailed]
        | none =>
            rcases Nat.lt_or_ge m.remaining s.batchSize with hshort | hfull
            · rw [runMachine_of_short hp hplayed hshort] at hfailed
              contradiction
            · rw [runMachine_of_full hp hplayed hfull] at hfailed
              contradiction

variable {t : Trace} {count : Nat} {s : Stepper Graph}

/-- The state of a session that replays a trace and has not failed. -/
structure OnSchedule (t : Trace) (count : Nat) (s : Stepper Graph) :
    Prop where
  session : s.session =
    .ok (t.machine.skip (min (count * s.batchSize) t.steps.length))
  graph : s.observer.Recounts (t.schedule s.batchSize s.collectGarbage count)
  done_iff : s.status = .done ↔ t.steps.length / s.batchSize < count

theorem recounts_collectAtBoundary {ops : List Operation}
    {group : List (List Entry)}
    (hgraph : s.observer.Recounts (ops ++ operations group.flatten)) :
    s.collectAtBoundary.observer.Recounts
      (Trace.endGroup s.collectGarbage ops group) := by
  unfold collectAtBoundary Trace.endGroup
  have hpending : Observer.collectionPending s.observer =
      Graph.callsForCollection (ops ++ operations group.flatten) :=
    hgraph.pending
  rw [hpending]
  simp only
  split
  · exact hgraph.collect
  · exact hgraph

namespace OnSchedule

theorem of_done (h : s.OnSchedule t count) (hdone : s.status = .done) :
    s.OnSchedule t (count + 1) := by
  have hlast := h.done_iff.mp hdone
  have hpast : t.steps.length ≤ count * s.batchSize :=
    Nat.le_of_lt ((Nat.div_lt_iff_lt_mul s.batchSize_pos).mp hlast)
  constructor
  · rw [h.session, Nat.min_eq_right hpast, Nat.min_eq_right]
    exact Nat.le_trans hpast (Nat.mul_le_mul_right _ (Nat.le_succ count))
  · rw [t.schedule_of_done _ hlast]
    exact h.graph
  · exact ⟨fun _ => Nat.lt_succ_of_lt hlast, fun _ => hdone⟩

theorem group_eq (h : s.OnSchedule t count) (hrunning : s.status ≠ .done) :
    count * s.batchSize ≤ t.steps.length ∧
      s.session = .ok (t.machine.skip (count * s.batchSize)) := by
  have hcount : count ≤ t.steps.length / s.batchSize :=
    Nat.le_of_not_lt fun hlast => hrunning (h.done_iff.mpr hlast)
  have hle : count * s.batchSize ≤ t.steps.length :=
    (Nat.le_div_iff_mul_le s.batchSize_pos).mp hcount
  have hsession := h.session
  rw [Nat.min_eq_left hle] at hsession
  exact ⟨hle, hsession⟩

section Batch

variable (h : s.OnSchedule t count) (hrunning : s.status ≠ .done)
  {p : Played Graph}
  (hp : playSteps s.observer
    ((t.steps.drop (count * s.batchSize)).take s.batchSize) = p)

include h hrunning hp

theorem of_played (hplayed : p.failed = none) :
    s.runBatch.1.OnSchedule t (count + 1) := by
  have ⟨hle, hsession⟩ := h.group_eq hrunning
  have hbatch := runBatch_of_ok hsession hrunning
  have hpending := t.pending_skip (count * s.batchSize)
  have hleft := t.remaining_skip (count * s.batchSize)
  have hposition : (t.machine.skip (count * s.batchSize)).skip p.count =
      t.machine.skip (min ((count + 1) * s.batchSize) t.steps.length) := by
    have hlength := count_playSteps (hp ▸ hplayed)
    rw [hp, List.length_take, List.length_drop] at hlength
    rw [Machine.skip_skip, hlength, Nat.succ_mul]
    congr 1
    omega
  have hdelivered := playBack_flatten s.observer
    ((t.steps.drop (count * s.batchSize)).take s.batchSize)
  rw [hp, hplayed] at hdelivered
  have hgraph := h.graph.playBack _ hdelivered
  have hnext := recounts_collectAtBoundary
    (s := s.played (t.machine.skip (count * s.batchSize)) p) hgraph
  have hschedule := t.schedule_succ s.collectGarbage
    ((Nat.le_div_iff_mul_le s.batchSize_pos).mpr hle)
  -- The group is shorter than a batch exactly if it is the last one.
  have hlast : t.steps.length / s.batchSize < count + 1 ↔
      t.steps.length - count * s.batchSize < s.batchSize := by
    rw [Nat.div_lt_iff_lt_mul s.batchSize_pos, Nat.succ_mul]
    omega
  rw [← hpending] at hp
  rcases Nat.lt_or_ge (t.steps.length - count * s.batchSize) s.batchSize
    with hshort | hfull
  · rw [hbatch, runMachine_of_short hp hplayed (hleft ▸ hshort), ended_eq]
    constructor
    · rw [hposition]
    · rw [hschedule]
      exact hnext
    · exact ⟨fun _ => hlast.mpr hshort, fun _ => rfl⟩
  · rw [hbatch, runMachine_of_full hp hplayed (hleft ▸ hfull), yielding_eq]
    constructor
    · rw [hposition]
    · rw [hschedule]
      exact hnext
    · exact ⟨nofun, fun h => absurd (hlast.mp h) (Nat.not_lt_of_le hfull)⟩

/-- A batch that fails collects nothing. -/
theorem of_failed {err : EngineError} (hfailed : p.failed = some err) :
    (∃ e, s.runBatch.1.session = .error e) ∧
      ∃ played, played <+: ((t.steps.drop (count * s.batchSize)).take
          s.batchSize).flatten ∧
        s.runBatch.1.observer = s.observer.run (operations played) := by
  have ⟨_, hsession⟩ := h.group_eq hrunning
  have hpending := t.pending_skip (count * s.batchSize)
  have hplayed := playBack_flatten s.observer
    ((t.steps.drop (count * s.batchSize)).take s.batchSize)
  rw [hp, hfailed] at hplayed
  rw [← hpending] at hp
  rw [runBatch_of_ok hsession hrunning, runMachine_of_failed hp hfailed]
  exact ⟨⟨_, rfl⟩, Graph.playBack_of_failed hplayed⟩

end Batch

end OnSchedule

theorem OnSchedule.runBatch (h : s.OnSchedule t count)
    (hok : s.runBatch.1.error? = none) :
    s.runBatch.1.OnSchedule t (count + 1) := by
  by_cases hdone : s.status = .done
  · rw [runBatch_of_done hdone]
    exact h.of_done hdone
  · generalize hp : playSteps s.observer
      ((t.steps.drop (count * s.batchSize)).take s.batchSize) = p
    cases hfailed : p.failed with
    | none => exact h.of_played hdone hp hfailed
    | some err =>
        rcases h.of_failed hdone hp hfailed with ⟨⟨e, he⟩, _⟩
        simp [error?, he] at hok

theorem error?_of_runBatch (hok : s.runBatch.1.error? = none) :
    s.error? = none := by
  unfold error? at hok ⊢
  cases hs : s.session with
  | ok m => rfl
  | error e =>
      rw [runBatch_of_error hs, hs] at hok
      exact hok

theorem error?_of_batches (count : Nat)
    (hok : (s.batches count).error? = none) : s.error? = none := by
  induction count with
  | zero => exact hok
  | succ count ih => exact ih (error?_of_runBatch hok)

theorem batches_onSchedule (h : s.OnSchedule t 0) (count : Nat)
    (hok : (s.batches count).error? = none) :
    (s.batches count).OnSchedule t count := by
  induction count with
  | zero => exact h
  | succ count ih => exact (ih (error?_of_runBatch hok)).runBatch hok

/-- A stepper of given settings, whose session is closed if it shows an
error. -/
structure Settled (size : Nat) (collectGarbage : Bool) (s : Stepper σ) :
    Prop where
  batchSize : s.batchSize = size
  collectGarbage : s.collectGarbage = collectGarbage
  closed : s.status = .error → ∃ e, s.session = .error e

section Settled

variable {size : Nat} {collectGarbage : Bool} {s : Stepper σ}

theorem Settled.runMachine (h : s.Settled size collectGarbage) (m : Machine) :
    (s.runMachine m).1.Settled size collectGarbage := by
  generalize hp : playSteps s.observer (m.pending.take s.batchSize) = p
  cases hfailed : p.failed with
  | some e =>
      rw [runMachine_of_failed hp hfailed]
      exact ⟨h.batchSize, h.collectGarbage, fun _ => ⟨_, rfl⟩⟩
  | none =>
      rcases Nat.lt_or_ge m.remaining s.batchSize with hshort | hfull
      · rw [runMachine_of_short hp hfailed hshort, ended_eq]
        exact ⟨h.batchSize, h.collectGarbage, nofun⟩
      · rw [runMachine_of_full hp hfailed hfull, yielding_eq]
        exact ⟨h.batchSize, h.collectGarbage, nofun⟩

theorem Settled.runBatch (h : s.Settled size collectGarbage) :
    s.runBatch.1.Settled size collectGarbage := by
  unfold Stepper.runBatch
  split
  · exact h
  · cases s.session with
    | error e => exact h
    | ok m => exact h.runMachine m

theorem Settled.batches (h : s.Settled size collectGarbage) (count : Nat) :
    (s.batches count).Settled size collectGarbage := by
  induction count with
  | zero => exact h
  | succ count ih => exact ih.runBatch

theorem Settled.runBatch_of_isTerminal (h : s.Settled size collectGarbage)
    (hover : s.status.isTerminal = true) : s.runBatch.1 = s := by
  cases hstatus : s.status with
  | ready => simp [hstatus, Status.isTerminal] at hover
  | stepping => simp [hstatus, Status.isTerminal] at hover
  | done => exact runBatch_of_done hstatus
  | error =>
      rcases h.closed hstatus with ⟨e, he⟩
      exact runBatch_of_error he

end Settled

theorem settled_instrumented (engine : Engine) (source : String)
    (options : Options) :
    (instrumented engine source options).Settled (max options.batchSize 1)
      options.collectGarbage := by
  constructor
  · rfl
  · rfl
  · intro hstatus
    unfold instrumented new at hstatus ⊢
    rcases hopen : engine.openSession source Graph.new with ⟨session, g⟩
    rw [hopen] at hstatus
    cases session with
    | ok m => cases hstatus
    | error e => exact ⟨e, rfl⟩

theorem openSession_replay {source : String}
    (hparse : Trace.parse source = .ok t) (o : σ) :
    Engine.replay.openSession source o =
      match playBack (Observer.enterBootstrap o) t.bootstrap with
      | (o, some e) =>
          (.error (Engine.replay.raise e).toSession,
            Observer.leaveBootstrap o [] none)
      | (o, none) =>
          (.ok t.machine, Observer.leaveBootstrap o t.builtins t.global) := by
  have hread : Engine.replay.parse source = .ok t := hparse
  unfold Engine.openSession Engine.construct
  rw [hread]
  simp only
  rcases playBack (Observer.enterBootstrap o) t.bootstrap with ⟨o', _ | e⟩ <;>
    rfl

theorem onSchedule_instrumented {source : String} {options : Options}
    (hparse : Trace.parse source = .ok t)
    (hok : (instrumented .replay source options).error? = none) :
    (instrumented .replay source options).OnSchedule t 0 := by
  have hopen := openSession_replay hparse Graph.new
  unfold instrumented new at hok ⊢
  rcases hplayed : playBack (Observer.enterBootstrap Graph.new) t.bootstrap
    with ⟨g, _ | e⟩
  · rw [hplayed] at hopen
    have hgraph := Graph.recounts_beginBootstrap.playBack _ hplayed
    rw [hopen]
    constructor
    · simp [Machine.skip]
    · exact hgraph.leaveBootstrap t.builtins t.global
    · simp
  · rw [hplayed] at hopen
    rw [hopen] at hok
    cases hok

end Stepper

/-- While nothing fails, the graph of a session is made by the schedule of its
trace.  A batch that fails has delivered the entries before the failure and
collects nothing, and when the session is over a batch does nothing. -/
theorem batches_follow_schedule (source : String) (options : Options)
    (count : Nat) :
    let s := (Stepper.instrumented .replay source options).batches count
    let size := max options.batchSize 1
    (∀ t, Trace.parse source = .ok t → s.error? = none →
      s.observer =
        Graph.new.run (t.schedule size options.collectGarbage count)) ∧
    (∀ t e, Trace.parse source = .ok t → s.error? = none →
      s.runBatch.2 = .failed e →
      ∃ played, played <+: ((t.steps.drop (count * size)).take size).flatten ∧
        s.runBatch.1.observer = s.observer.run (operations played)) ∧
    (s.status.isTerminal = true → s.runBatch.1 = s) := by
  intro s size
  have hsettled : s.Settled size options.collectGarbage :=
    (Stepper.settled_instrumented .replay source options).batches count
  have hschedule : ∀ t, Trace.parse source = .ok t → s.error? = none →
      s.OnSchedule t count := by
    intro t hparse hok
    apply Stepper.batches_onSchedule _ count hok
    exact Stepper.onSchedule_instrumented hparse
      (Stepper.error?_of_batches count hok)
  refine ⟨?_, ?_, hsettled.runBatch_of_isTerminal⟩
  · intro t hparse hok
    have hgraph := (hschedule t hparse hok).graph.graph
    rwa [hsettled.batchSize, hsettled.collectGarbage] at hgraph
  · intro t e hparse hok hfailed
    have hs := hschedule t hparse hok
    have hclosed := Stepper.session_of_failed hfailed
    by_cases hdone : s.status = .done
    · rw [Stepper.runBatch, if_pos hdone] at hfailed
      contradiction
    · generalize hp : playSteps s.observer
        ((t.steps.drop (count * s.batchSize)).take s.batchSize) = p
      cases hplayed : p.failed with
      | none =>
          rw [(hs.of_played hdone hp hplayed).session] at hclosed
          contradiction
      | some err =>
          have hdelivered := (hs.of_failed hdone hp hplayed).2
          rwa [hsettled.batchSize] at hdelivered

/-- Two steps, the second of which is interrupted after a push. -/
def interruptedSource : String :=
  "\x7b\"steps\":[[" ++
    "\x7b\"op\":\"create\",\"value\":\x7b\"id\":5\x7d\x7d," ++
    "\x7b\"op\":\"call_boundary\"\x7d],[" ++
    "\x7b\"op\":\"push\",\"value\":5\x7d," ++
    "\x7b\"op\":\"throw\",\"message\":\"stop\"\x7d]]\x7d"

def interruptedTrace : Trace where
  bootstrap := []
  steps :=
    [[.report (.create (.primitive ⟨5⟩)), .report .callBoundary],
      [.report (.push ⟨5⟩), .throw "stop"]]
  builtins := []
  global := none

theorem parse_interruptedSource :
    Trace.parse interruptedSource = .ok interruptedTrace := by cbv

def stepwise : Options := Options.default.withBatchSize 1

def interruptedAfter (count : Nat) : Stepper Graph :=
  (Stepper.instrumented .replay interruptedSource stepwise).batches count

theorem interruptedAfter_eq (count : Nat) :
    interruptedAfter count =
      Stepper.batches
        { session := .ok interruptedTrace.machine
          observer := Graph.new.beginBootstrap.leaveBootstrap [] none
          status := .ready
          batchSize := 1
          batchSize_pos := Nat.one_pos
          collectGarbage := true
          steps := 0
          yields := 0 } count := by
  unfold interruptedAfter Stepper.instrumented Stepper.new
  rw [Stepper.openSession_replay parse_interruptedSource]
  rfl

/-- The first batch ends with a collection, the second one fails, and the third
does nothing. -/
theorem interrupted_follows_schedule :
    (interruptedAfter 1).error? = none ∧
    (interruptedAfter 1).observer = Graph.new.run
      [.beginBootstrap, .endBootstrap, .registerBuiltins [], .setGlobal none,
        .event (.create (.primitive ⟨5⟩)), .event .callBoundary, .collect] ∧
    (interruptedAfter 1).runBatch.2 =
      .failed (.execution ⟨"stop", some "replay step 1 of 2"⟩) ∧
    (∃ played, played <+: [.report (.push ⟨5⟩), .throw "stop"] ∧
      (interruptedAfter 1).runBatch.1.observer =
        (interruptedAfter 1).observer.run (operations played)) ∧
    (interruptedAfter 2).status.isTerminal = true ∧
    (interruptedAfter 2).runBatch.1 = interruptedAfter 2 := by
  have hok : (interruptedAfter 1).error? = none := by
    rw [interruptedAfter_eq]
    rfl
  have hfailed : (interruptedAfter 1).runBatch.2 =
      .failed (.execution ⟨"stop", some "replay step 1 of 2"⟩) := by
    rw [interruptedAfter_eq]
    rfl
  have hover : (interruptedAfter 2).status.isTerminal = true := by
    rw [interruptedAfter_eq]
    rfl
  have hschedule : interruptedTrace.schedule 1 true 1 =
      [.beginBootstrap, .endBootstrap, .registerBuiltins [], .setGlobal none,
        .event (.create (.primitive ⟨5⟩)), .event .callBoundary, .collect] :=
    rfl
  have hgroup : ((interruptedTrace.steps.drop (1 * 1)).take 1).flatten =
      [.report (.push ⟨5⟩), .throw "stop"] := rfl
  have hsize : max stepwise.batchSize 1 = 1 := rfl
  have hfirst := batches_follow_schedule interruptedSource stepwise 1
  have hsecond := batches_follow_schedule interruptedSource stepwise 2
  have hgraph := hfirst.1 interruptedTrace parse_interruptedSource hok
  have hplayed := hfirst.2.1 interruptedTrace _ parse_interruptedSource hok
    hfailed
  rw [hsize, hgroup] at hplayed
  rw [← hschedule]
  unfold interruptedAfter at hok hfailed hover ⊢
  exact ⟨hok, hgraph, hfailed, hplayed, hover, hsecond.2.2 hover⟩

end LiveHeap
