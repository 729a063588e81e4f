import LiveHeap.Proofs.Graph.Congruence
import LiveHeap.Proofs.Graph.Walk

/-!
# The flags of a graph

Nothing reads the flag of changes but the host that asks for it.  Two graphs
that differ in this flag alone go on to differ in it alone, through events,
collections and snapshots.  The other two flags tell what happened since the
last collection: whether an event changed the graph, and whether a call
boundary was reported.
-/

namespace LiveHeap

namespace Event

def isCallBoundary : Event → Bool
  | callBoundary => true
  | _ => false

/-- Whether the event is about values and not about the program's calls. -/
def isMutation : Event → Bool
  | create _ | push _ | pop _ | link .. | unlink .. => true
  | callBoundary => false

theorem isCallBoundary_eq_false {e : Event} (he : e ≠ callBoundary) :
    e.isCallBoundary = false := by
  cases e with
  | callBoundary => exact absurd rfl he
  | _ => rfl

end Event

namespace Graph

/-- The second graph is the first one with some flag of changes. -/
def Reflagged (g g' : Graph) : Prop := ∃ changed, g' = { g with changed }

variable {g g' : Graph}

/-! ## Surfacing -/

theorem revealPending_reflagged (g : Graph) (pending : List Handle)
    (changed : Bool) :
    revealPending { g with changed } pending =
      { g.revealPending pending with changed } := by
  induction g, pending using revealPending.induct with
  | case1 g => rw [revealPending, revealPending]
  | case2 g v pending hhidden g' ih =>
      have hsame : isHidden { g with changed } v = true := hhidden
      rw [revealPending, dif_pos hsame, revealPending, dif_pos hhidden]
      exact ih
  | case3 g v pending hseen ih =>
      have hsame : ¬ isHidden { g with changed } v = true := hseen
      rw [revealPending, dif_neg hsame, revealPending, dif_neg hseen]
      exact ih

theorem surface_keeps (g : Graph) (v : Handle) :
    (g.surface v).collectionDue = g.collectionDue ∧
      (g.surface v).collector = g.collector := by
  apply revealPending_keeps (p := fun g' =>
    g'.collectionDue = g.collectionDue ∧ g'.collector = g.collector)
  · exact fun _ _ _ hsame => hsame
  · exact ⟨rfl, rfl⟩

theorem pushFrame_reflagged (g : Graph) (value : Handle) (changed : Bool) :
    pushFrame { g with changed } value =
      { g.pushFrame value with changed } := by
  cases g with
  | mk slots freeSlots => cases freeSlots <;> rfl

theorem pushFrame_keeps (g : Graph) (value : Handle) :
    (g.pushFrame value).collectionDue = g.collectionDue ∧
      (g.pushFrame value).collector = g.collector := by
  rw [pushFrame_eq]
  exact ⟨rfl, rfl⟩

theorem Reflagged.alike (h : g.Reflagged g') : g.Alike g' := by
  rcases h with ⟨changed, rfl⟩
  exact ⟨rfl, fun _ => rfl, fun _ => rfl, rfl, rfl, rfl, rfl, rfl⟩

/-- Events but call boundaries keep the flag of due collections and the
collector, and take no notice of the flag of changes. -/
theorem congruence_reflagged (due : Bool) (c : Collector) :
    Congruence fun g g' =>
      g.Reflagged g' ∧ g.collectionDue = due ∧ g.collector = c where
  alike h := h.1.alike
  setVertex := by
    rintro g _ ⟨⟨changed, rfl⟩, hkept⟩ v x
    exact ⟨⟨changed, rfl⟩, hkept⟩
  setOutcomes := by
    rintro g _ ⟨⟨changed, rfl⟩, hkept⟩ v outcomes
    exact ⟨⟨changed, rfl⟩, hkept⟩
  allocValue := by
    rintro g _ ⟨⟨changed, rfl⟩, hkept⟩ id x flags
    exact ⟨⟨changed, rfl⟩, hkept⟩
  rewire := by
    rintro g _ ⟨⟨changed, rfl⟩, hkept⟩ index edges
    exact ⟨⟨changed, rfl⟩, hkept⟩
  surface := by
    rintro g _ ⟨⟨changed, rfl⟩, hdue, hcollector⟩ v
    have ⟨hsame, hsame'⟩ := surface_keeps g v
    refine ⟨⟨changed, ?_⟩, hsame.trans hdue, hsame'.trans hcollector⟩
    exact revealPending_reflagged (g.setLive v true) _ changed
  pushFrame := by
    rintro g _ ⟨⟨changed, rfl⟩, hdue, hcollector⟩ value
    have ⟨hsame, hsame'⟩ := pushFrame_keeps g value
    exact ⟨⟨changed, pushFrame_reflagged g value changed⟩, hsame.trans hdue,
      hsame'.trans hcollector⟩
  popFrame := by
    rintro g _ ⟨⟨changed, rfl⟩, hkept⟩ f
    exact ⟨⟨true, rfl⟩, hkept⟩
  markChanged := by
    rintro g _ ⟨⟨changed, rfl⟩, hkept⟩
    exact ⟨⟨true, rfl⟩, hkept⟩

/-! ## Events -/

theorem Reflagged.observe_of_ne (h : g.Reflagged g') {e : Event}
    (he : e ≠ .callBoundary) :
    SameAnswer (fun g₁ g₂ => g₁.Reflagged g₂ ∧
        g₁.collectionDue = g.collectionDue ∧ g₁.collector = g.collector)
      (g.observe e) (g'.observe e) :=
  (congruence_reflagged _ _).observe ⟨h, rfl, rfl⟩ he

theorem Reflagged.refl (g : Graph) : g.Reflagged g := ⟨g.changed, rfl⟩

theorem Reflagged.observe (h : g.Reflagged g') (e : Event) :
    SameAnswer Reflagged (g.observe e) (g'.observe e) := by
  by_cases he : e = .callBoundary
  · rcases h with ⟨changed, rfl⟩
    rw [he]
    exact ⟨⟨changed, rfl⟩, rfl⟩
  · have hstep := h.observe_of_ne he
    exact ⟨hstep.state.1, hstep.answer⟩

theorem collectionDue_observe (g : Graph) (e : Event) :
    (g.observe e).1.collectionDue = (g.collectionDue || e.isCallBoundary) := by
  by_cases he : e = .callBoundary
  · rw [he]
    exact (Bool.or_true _).symm
  · have hstep := (Reflagged.refl g).observe_of_ne he
    rw [hstep.state.2.1, Event.isCallBoundary_eq_false he, Bool.or_false]

theorem collector_observe (g : Graph) (e : Event) :
    (g.observe e).1.collector = g.collector := by
  by_cases he : e = .callBoundary
  · rw [he]
    rfl
  · exact ((Reflagged.refl g).observe_of_ne he).state.2.2

/-- An event that was not refused and is about values counts as a change. -/
theorem mutated_observe (g : Graph) (e : Event)
    (haccepted : (g.observe e).2 = none) :
    (g.observe e).1.mutated = (g.mutated || e.isMutation) := by
  cases e with
  | create value => exact (Bool.or_true _).symm
  | push id => exact (Bool.or_true _).symm
  | pop id =>
      by_cases htop : ∃ f, g.vertex? g.stackTop = some (.frame f)
      · rcases htop with ⟨f, hf⟩
        rw [observe_pop_of_frame hf]
        exact (Bool.or_true _).symm
      · rw [observe_pop_refused htop] at haccepted
        contradiction
  | link source target label => exact (Bool.or_true _).symm
  | unlink source target label => exact (Bool.or_true _).symm
  | callBoundary => exact (Bool.or_false _).symm

/-! ## The end of the bootstrap -/

theorem registerBuiltins_keeps (g : Graph) (ids : List ValueId) :
    (g.registerBuiltins ids).mutated = g.mutated ∧
      (g.registerBuiltins ids).collectionDue = g.collectionDue ∧
      (g.registerBuiltins ids).collector = g.collector := by
  apply List.foldlRecOn ids registerBuiltin (motive := fun g' =>
    g'.mutated = g.mutated ∧ g'.collectionDue = g.collectionDue ∧
      g'.collector = g.collector)
  · exact ⟨rfl, rfl, rfl⟩
  · intro g' hsame id _
    unfold registerBuiltin
    cases g'.vertexFor? id <;> exact hsame

theorem setGlobal_keeps (g : Graph) (id : Option ValueId) :
    (g.setGlobal id).mutated = g.mutated ∧
      (g.setGlobal id).collectionDue = g.collectionDue ∧
      (g.setGlobal id).collector = g.collector := by
  cases id with
  | none => exact ⟨rfl, rfl, rfl⟩
  | some id =>
      simp only [setGlobal, resolve]
      cases g.vertexFor? id <;> exact ⟨rfl, rfl, rfl⟩

theorem collector_leaveBootstrap (g : Graph) (builtins : List ValueId)
    (global : Option ValueId) :
    (g.leaveBootstrap builtins global).collector = g.collector := by
  have hglobal := setGlobal_keeps
    (g.endBootstrap.registerBuiltins builtins) global
  have hbuiltins := registerBuiltins_keeps g.endBootstrap builtins
  exact hglobal.2.2.trans hbuiltins.2.2

/-! ## Collections -/

theorem framesFrom_congr (hvertex : ∀ v, g'.vertex? v = g.vertex? v)
    (limit : Nat) (v : Handle) :
    g'.framesFrom limit v = g.framesFrom limit v := by
  induction limit generalizing v with
  | zero => rfl
  | succ limit ih =>
      unfold framesFrom
      rw [hvertex]
      split
      next f _ => rw [ih]
      next => rfl

theorem leavesOf_congr (hout : ∀ v, g'.outcomes? v = g.outcomes? v)
    (pending expanded : List Handle) :
    g'.leavesOf pending expanded = g.leavesOf pending expanded := by
  induction pending, expanded using leavesOf.induct g with
  | case1 expanded => rw [leavesOf, leavesOf]
  | case2 v pending expanded hv ih =>
      rw [leavesOf_of_mem hv, leavesOf_of_mem hv, ih]
  | case3 v pending expanded hv outcomes ho ih =>
      rw [leavesOf_of_union hv ho, leavesOf_of_union hv ((hout v).trans ho), ih]
  | case4 v pending expanded hv ho ih =>
      rw [leavesOf_of_leaf hv ho, leavesOf_of_leaf hv ((hout v).trans ho), ih]

/-- What a collection knows of a graph. -/
theorem scene_congr (hslots : g'.slots = g.slots) (hindex : g'.index = g.index)
    (htop : g'.stackTop = g.stackTop) (hglobal : g'.global = g.global) :
    g'.scene = g.scene := by
  have hslot : g'.slot? = g.slot? := by
    funext v
    unfold slot?
    rw [hslots]
  have hvertex : g'.vertex? = g.vertex? := by
    funext v
    unfold vertex?
    rw [hslot]
  have hleaves : g'.leaves = g.leaves := by
    funext v
    apply leavesOf_congr
    intro w
    unfold outcomes?
    rw [hvertex]
  have hframes : g'.frames = g.frames := by
    unfold frames
    rw [hslots, htop]
    exact framesFrom_congr (fun v => congrFun hvertex v) _ _
  have hwalk : g'.walkFrom = g.walkFrom := by
    funext v
    unfold walkFrom namedChildren
    rw [hvertex, hleaves, hindex]
  have hhandles : g'.handles = g.handles := by
    unfold handles
    rw [hslots]
  have hcollectable : g'.isCollectable = g.isCollectable := by
    funext v
    unfold isCollectable
    rw [hslot]
  unfold scene rootCalls walkTable
  simp only [hframes, hglobal, hwalk, hhandles, hcollectable]

theorem release_reflagged (g : Graph) (vs : List Handle) (changed : Bool) :
    release { g with changed } vs = { g.release vs with changed } := by
  unfold release
  induction vs generalizing g with
  | nil => rfl
  | cons v vs ih => exact ih (g.setLive v false)

theorem Reflagged.collect (h : g.Reflagged g') :
    SameAnswer Reflagged g.collect g'.collect := by
  rcases h with ⟨changed, rfl⟩
  have hscene : scene { g with changed } = g.scene :=
    scene_congr rfl rfl rfl rfl
  have hrelease := release_reflagged g
    (Bench.collect ⟨g.collector, g.scene, [], []⟩).1.released changed
  unfold Graph.release at hrelease
  unfold Graph.collect
  simp only
  rw [hscene, hrelease]
  exact ⟨⟨_, rfl⟩, rfl⟩

end Graph

end LiveHeap
