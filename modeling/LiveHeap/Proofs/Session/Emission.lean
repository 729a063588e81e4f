import LiveHeap.Proofs.Graph.Changes
import LiveHeap.Proofs.Session.Kept
import LiveHeap.Session.Timed

/-!
# What a stream holds back

A stream emits nothing while the flag of its graph is down.  Then the graph
shows what the stream emitted last.  Before the first emission it shows what the
session opened with, which is a new graph, or a new graph and the root scope.
-/

namespace LiveHeap

/-! ## Sessions -/

theorem kept_noticed (g : Graph) :
    Kept fun g' : Graph => g'.WellFormed ∧ g.Noticed g' := by
  apply Graph.kept_of_apply
  · intro g' e ⟨hg', hnoticed⟩
    exact ⟨hg'.apply (.event e), hnoticed.trans (g'.noticed_event e)⟩
  · intro g' ⟨hg', hnoticed⟩
    exact ⟨hg'.apply .collect, hnoticed.trans hg'.noticed_collect⟩

/-- The second graph shows what the first one shows, or one vertex more, which
is its root scope. -/
def Graph.ShowsScope (g g' : Graph) : Prop :=
  g'.snapshot = g.snapshot ∨
    ∃ x : SeenVertex, g'.global = some x.id ∧
      g'.snapshot =
        { g.snapshot with vertices := g.snapshot.vertices ++ [x] }

theorem Graph.ShowsScope.of_snapshot {g₁ g₂ g' : Graph}
    (hsame : g₁.snapshot = g₂.snapshot) (h : g₁.ShowsScope g') :
    g₂.ShowsScope g' := by
  unfold ShowsScope
  rw [← hsame]
  exact h

theorem Graph.showsScope_setGlobal (g : Graph) (id : Option ValueId) :
    g.ShowsScope (g.setGlobal id) := by
  cases id with
  | none => exact Or.inl (snapshot_of_slots rfl rfl)
  | some id =>
      have hsnapshot := snapshot_setGlobal g id
      unfold silentlyShown at hsnapshot
      by_cases hsilent : g.vertexFor? id = none ∧ g.bootstrapping = false
      · rw [if_pos hsilent] at hsnapshot
        refine Or.inr ⟨_, ?_, hsnapshot⟩
        unfold setGlobal resolve
        simp [hsilent.1, allocValue]
      · rw [if_neg hsilent, List.append_nil] at hsnapshot
        exact Or.inl hsnapshot

theorem Graph.WellFormed.leaveBootstrap {g : Graph} (hg : g.WellFormed)
    (builtins : List ValueId) (global : Option ValueId) :
    (g.leaveBootstrap builtins global).WellFormed :=
  ((hg.apply .endBootstrap).apply (.registerBuiltins builtins)).apply
    (.setGlobal global)

theorem Graph.showsScope_leaveBootstrap (g : Graph) (builtins : List ValueId)
    (global : Option ValueId)
    (hdown : (g.leaveBootstrap builtins global).changed = false) :
    g.changed = false ∧ g.ShowsScope (g.leaveBootstrap builtins global) := by
  have hphase : g.Noticed g.endBootstrap := .of_slots rfl rfl rfl
  have hbuiltins := hphase.trans (noticed_registerBuiltins _ builtins)
  have hbefore : (g.endBootstrap.registerBuiltins builtins).changed = false :=
    (changed_setGlobal _ global).symm.trans hdown
  have ⟨hfirst, hsame⟩ := hbuiltins hbefore
  have hscope := showsScope_setGlobal
    (g.endBootstrap.registerBuiltins builtins) global
  exact ⟨hfirst, hscope.of_snapshot hsame⟩

/-- Leaving the bootstrap raises no flag, and may add the root scope. -/
theorem leaveBootstrap_shows {g : Graph}
    (hg : g.WellFormed ∧ Graph.new.Noticed g) (builtins : List ValueId)
    (global : Option ValueId) :
    let g' := g.leaveBootstrap builtins global
    g'.WellFormed ∧ (g'.changed = false → Graph.new.ShowsScope g') := by
  intro g'
  refine ⟨hg.1.leaveBootstrap builtins global, fun hdown => ?_⟩
  have ⟨hbefore, hscope⟩ := g.showsScope_leaveBootstrap builtins global hdown
  exact hscope.of_snapshot (hg.2 hbefore).2

theorem openSession_shows (engine : Engine) (source : String) :
    let g := (engine.openSession source Graph.new).2
    g.WellFormed ∧ (g.changed = false → Graph.new.ShowsScope g) := by
  have hbegin : Graph.new.beginBootstrap.WellFormed ∧
      Graph.new.Noticed Graph.new.beginBootstrap :=
    ⟨Graph.wellFormed_new.apply .beginBootstrap, .of_slots rfl rfl rfl⟩
  apply (kept_noticed Graph.new).openSession (q := fun g : Graph =>
    g.WellFormed ∧ (g.changed = false → Graph.new.ShowsScope g)) _ hbegin
  · exact fun _ hbooted => leaveBootstrap_shows hbooted
  · exact ⟨Graph.wellFormed_new, fun _ => Or.inl rfl⟩

/-! ## Streams -/

/-- The second graph shows the snapshot that was emitted on the way.  If none
was, what changed can be told from the flag. -/
structure Follows (g g' : Graph) (emitted : Option Snapshot) : Prop where
  wellFormed : g'.WellFormed
  shown : ∀ s, emitted = some s → g'.snapshot = s
  noticed : emitted = none → g.Noticed g'

variable {g g' g'' : Graph} {emitted : Option Snapshot}

theorem Follows.silent (hg' : g'.WellFormed) (h : g.Noticed g') :
    Follows g g' none where
  wellFormed := hg'
  shown s hs := absurd hs.symm (Option.some_ne_none s)
  noticed _ := h

theorem Follows.trans (h : Follows g g' none)
    (h' : Follows g' g'' emitted) : Follows g g'' emitted :=
  ⟨h'.wellFormed, h'.shown,
    fun hnone => (h.noticed rfl).trans (h'.noticed hnone)⟩

/-- The snapshot of a tick after which the session goes on. -/
def Tick.snapshot? : Tick → Option Snapshot
  | .snapshot s => some s
  | _ => none

namespace Stream

theorem follows_runBatch {s : Stream} (hg : s.graph.WellFormed) :
    Follows s.graph s.stepper.runBatch.1.observer none := by
  have hkept := (kept_noticed s.graph).runBatch (s := s.stepper)
    ⟨hg, .refl s.graph⟩
  exact .silent hkept.1 hkept.2

theorem follows_emitIfDue {s : Stream} (hg : s.graph.WellFormed) (now : Nat) :
    Follows s.graph (s.emitIfDue now).1.graph
      (s.emitIfDue now).2.snapshot? := by
  unfold emitIfDue
  split
  next =>
    constructor
    · exact hg.apply .takeSnapshot
    · intro snapshot hsnapshot
      rw [← Option.some.inj hsnapshot]
      exact Graph.snapshot_of_slots rfl rfl
    · intro hnone
      exact absurd hnone (Option.some_ne_none _)
  next => exact .silent hg (.refl _)

theorem follows_tick {s : Stream} (hg : s.graph.WellFormed) (now : Nat) :
    Follows s.graph (s.tick now).1.graph (s.tick now).2.snapshot? := by
  have hbatch := follows_runBatch hg
  unfold tick
  split
  next => exact .silent hg (.refl _)
  next =>
    split
    next => exact .silent hg (.refl _)
    next =>
      cases hrun : s.stepper.runBatch with
      | mk stepper batch =>
          rw [hrun] at hbatch
          cases batch with
          | yielded =>
              apply hbatch.trans
              exact follows_emitIfDue (s := { s with stepper })
                hbatch.wellFormed now
          | done => exact hbatch
          | failed e => exact hbatch

theorem isFinal_of_finished {s : Stream} {now : Nat} {x : Snapshot}
    (hx : (s.tick now).2 = .finished x) : x.isFinal = true := by
  unfold tick at hx
  split at hx
  next => simp at hx
  next =>
    split at hx
    next => simp at hx
    next =>
      cases hrun : s.stepper.runBatch with
      | mk stepper batch =>
          rw [hrun] at hx
          cases batch with
          | yielded =>
              simp only [emitIfDue] at hx
              split at hx <;> simp at hx
          | done =>
              obtain rfl := Tick.finished.inj hx
              rfl
          | failed e => simp at hx

end Stream

/-- The snapshot of an item after which more may follow. -/
def itemSnapshot? : Option (Except SessionError Snapshot) → Option Snapshot
  | some (.ok s) => if s.isFinal then none else some s
  | _ => none

theorem Stream.follows_next {s : Stream} (hg : s.graph.WellFormed)
    (now : Nat) :
    Follows s.graph (s.next now).1.graph (itemSnapshot? (s.next now).2) := by
  fun_induction Stream.next s now with
  | case1 s s' htick ih =>
      have hfirst := s.follows_tick hg now
      rw [htick] at hfirst
      exact hfirst.trans (ih hfirst.wellFormed)
  | case2 s s' snapshot htick =>
      have hfirst := s.follows_tick hg now
      rw [htick] at hfirst
      have hshown : s'.graph.snapshot = snapshot := hfirst.shown snapshot rfl
      have hmore : snapshot.isFinal = false := hshown ▸ rfl
      simpa [itemSnapshot?, hmore, Tick.snapshot?] using hfirst
  | case3 s s' snapshot htick =>
      have hfirst := s.follows_tick hg now
      have hlast := s.isFinal_of_finished (by rw [htick])
      rw [htick] at hfirst
      simpa [itemSnapshot?, hlast, Tick.snapshot?] using hfirst
  | case4 s s' e htick =>
      have hfirst := s.follows_tick hg now
      rw [htick] at hfirst
      exact hfirst
  | case5 s s' htick =>
      have hfirst := s.follows_tick hg now
      rw [htick] at hfirst
      exact hfirst

namespace TimedStream

/-- The snapshot of an answer after which more may follow. -/
def Answer.snapshot? : Answer → Option Snapshot
  | .nothing => none
  | .tick t => t.snapshot?
  | .item i => itemSnapshot? i

theorem follows_perform {t : TimedStream} (hg : t.stream.graph.WellFormed)
    (op : Operation) :
    Follows t.stream.graph (t.perform op).1.stream.graph
      (t.perform op).2.snapshot? := by
  cases op with
  | tick => exact t.stream.follows_tick hg t.now
  | next => exact t.stream.follows_next hg t.now
  | stop => exact .silent hg (.refl _)
  | advance millis => exact .silent hg (.refl _)
  | set millis => exact .silent hg (.refl _)

/-- The last snapshot among the answers, or what was seen before. -/
def lastSeen (before : Snapshot) (answers : List Answer) : Snapshot :=
  (answers.filterMap Answer.snapshot?).getLast?.getD before

theorem lastSeen_cons (before : Snapshot) (answer : Answer)
    (answers : List Answer) :
    lastSeen before (answer :: answers) =
      lastSeen (answer.snapshot?.getD before) answers := by
  unfold lastSeen
  rw [List.filterMap_cons]
  cases answer.snapshot? with
  | none => rfl
  | some s => simp [List.getLast?_cons]

theorem run_shows (t : TimedStream) (before : Snapshot)
    (hg : t.stream.graph.WellFormed)
    (hbefore : t.stream.graph.changed = false →
      t.stream.graph.snapshot = before)
    (ops : List Operation) :
    (t.run ops).1.stream.graph.changed = false →
      (t.run ops).1.stream.graph.snapshot =
        lastSeen before (t.run ops).2 := by
  induction ops generalizing t before with
  | nil => exact hbefore
  | cons op ops ih =>
      have hstep := t.follows_perform hg op
      have hseen : (t.perform op).1.stream.graph.changed = false →
          (t.perform op).1.stream.graph.snapshot =
            (t.perform op).2.snapshot?.getD before := by
        intro hdown
        cases hemitted : (t.perform op).2.snapshot? with
        | none =>
            have ⟨hold, hsame⟩ := hstep.noticed hemitted hdown
            exact hsame.trans (hbefore hold)
        | some s => exact hstep.shown s hemitted
      have hrest := ih (t.perform op).1 _ hstep.wellFormed hseen
      have hrun : t.run (op :: ops) = (((t.perform op).1.run ops).1,
          (t.perform op).2 :: ((t.perform op).1.run ops).2) := rfl
      rw [hrun, lastSeen_cons]
      exact hrest

end TimedStream

/-- While its flag is down, a graph shows the snapshot taken last and the root
scopes that were registered silently since then, so it shows just that snapshot
if and only if there are none.  While the flag of its graph is down, a stream
holds nothing back that was not emitted before, except for what its session
opened with, and that is nothing or the root scope. -/
theorem flag_down_shows_expected (ops : List Graph.Operation)
    (engine : Engine) (source : String) (options : Options)
    (requests : List TimedStream.Operation) :
    let g := Graph.new.run ops
    let shown := Graph.Shown.start.afterAll Graph.new ops
    let opened := (Stream.new engine source options).graph
    let (t, answers) := (TimedStream.new engine source options).run requests
    (g.changed = false →
      g.snapshot = shown.expected ∧
        (g.snapshot = shown.snapshot ↔ shown.silent = [])) ∧
    (opened.changed = false → Graph.new.ShowsScope opened) ∧
    (t.stream.graph.changed = false →
      t.stream.graph.snapshot =
        TimedStream.lastSeen opened.snapshot answers) := by
  intro g shown opened
  have ⟨hopened, hscope⟩ := openSession_shows engine source
  have hstream := TimedStream.run_shows
    (TimedStream.new engine source options) opened.snapshot hopened
    (fun _ => rfl) requests
  refine ⟨fun hdown => ?_, hscope, hstream⟩
  have hexpected := Graph.unchanged_run_new ops hdown
  refine ⟨hexpected, ?_⟩
  rw [hexpected]
  exact shown.expected_eq_iff

/-- A root scope that nothing mentioned before is shown, and the flag stays
down. -/
theorem silent_root_scope :
    ¬ ∀ ops, (Graph.new.run ops).changed = false →
      (Graph.new.run ops).snapshot =
        (Graph.Shown.start.afterAll Graph.new ops).snapshot := by
  intro hall
  have hscope := hall [.setGlobal (some ⟨5⟩)] rfl
  exact absurd hscope (by decide)

end LiveHeap
