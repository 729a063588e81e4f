import LiveHeap.Proofs.Graph.Core

/-!
# Where an event opens a path

A collection walks further than before because a frame or an edge came in, or
because values were announced.  Announcements apart, an event brings in one
frame or one edge, with a value at its end that the event names.  So whatever
the walk reaches for the first time it reaches from such a value on.
-/

namespace LiveHeap.Graph

/-- The vertices that a push or a link names. -/
def namedEnds (g : Graph) : Event → List Handle
  | .push id => [(g.resolve id).2]
  | .link source target _ =>
      [(g.resolveEnd source).2, ((g.resolveEnd source).1.resolveEnd target).2]
  | _ => []

/-- What a walk that visits the first vertex visits from there on. -/
inductive Below (g : Graph) (v : Handle) : Handle → Prop
  | here : g.Below v v
  | outcome {u w leaf : Handle} {outcomes : List Handle} :
      g.Below v u → g.outcomes? u = some outcomes → w ∈ outcomes →
      g.Leaf w leaf → g.Below v leaf
  | child {u w leaf : Handle} {x : Vertex} {name : String} :
      g.Below v u → g.vertex? u = some x → x.isEnumerable = true →
      g.outgoing? u (.property name) = some w → g.Leaf w leaf → g.Below v leaf

/-- In the second graph there is nothing more to walk over than in the first
one, but for frames and edges that lead to one of the ends. -/
structure OpensAt (g g' : Graph) (ends : List Handle) : Prop where
  outcomes? : ∀ v, g'.outcomes? v = g.outcomes? v
  enumerable : ∀ v x, g'.vertex? v = some x → x.isEnumerable = true →
    g.vertex? v = some x
  global : g'.global = g.global
  frame : ∀ v f, g'.vertex? v = some (.frame f) →
    g.vertex? v = some (.frame f) ∨ f.value ∈ ends
  child : ∀ v name w, g'.outgoing? v (.property name) = some w →
    g.outgoing? v (.property name) = some w ∨ w ∈ ends

variable {g g' g'' : Graph} {ends : List Handle}

theorem Below.of_leaf {v leaf : Handle} (hleaf : g.Leaf v leaf) :
    g.Below v leaf := by
  cases hleaf with
  | here => exact .here
  | through hsome hw hleaf => exact .outcome .here hsome hw hleaf

namespace OpensAt

theorem walked (h : g.OpensAt g' ends) (hg : g.StackSound)
    (hg' : g'.StackSound) {w : Handle} (hw : g'.Walked w) :
    g.Walked w ∨ ∃ v ∈ ends, g'.Below v w := by
  have hleaf : ∀ {v leaf : Handle}, g'.Leaf v leaf → g.Leaf v leaf :=
    Leaf.of_outcomes? fun v => (h.outcomes? v).symm
  induction hw with
  | root => exact Or.inl .root
  | global hglobal => exact Or.inl (.global (h.global.symm.trans hglobal))
  | frame hmem =>
      rcases h.frame _ _ ((hg'.mem_frames_iff _ _).mp hmem) with hold | hend
      · exact Or.inl (.frame ((hg.mem_frames_iff _ _).mpr hold))
      · exact Or.inr ⟨_, hend, .here⟩
  | outcome _ hsome hw hfound ih =>
      rcases ih with hold | ⟨v, hv, hbelow⟩
      · rw [h.outcomes?] at hsome
        exact Or.inl (.outcome hold hsome hw (hleaf hfound))
      · exact Or.inr ⟨v, hv, .outcome hbelow hsome hw hfound⟩
  | child _ hx henum hw hfound ih =>
      rcases ih with hold | ⟨v, hv, hbelow⟩
      · rcases h.child _ _ _ hw with hsame | hend
        · have hx' := h.enumerable _ _ hx henum
          exact Or.inl (.child hold hx' henum hsame (hleaf hfound))
        · exact Or.inr ⟨_, hend, .of_leaf hfound⟩
      · exact Or.inr ⟨v, hv, .child hbelow hx henum hw hfound⟩

theorem trans (h : g.OpensAt g' ends) (h' : g'.OpensAt g'' ends) :
    g.OpensAt g'' ends where
  outcomes? v := (h'.outcomes? v).trans (h.outcomes? v)
  enumerable v x hx henum := h.enumerable v x (h'.enumerable v x hx henum) henum
  global := h'.global.trans h.global
  frame v f hf := by
    rcases h'.frame v f hf with hold | hend
    · exact h.frame v f hold
    · exact Or.inr hend
  child v name w hw := by
    rcases h'.child v name w hw with hold | hend
    · exact h.child v name w hold
    · exact Or.inr hend

/-- Nothing changes but what is live and what the flags and the collector
tell. -/
theorem of_core (h : g'.core = g.core) : g.OpensAt g' ends := by
  have hsame := alike_of_core h
  constructor
  · intro v
    rw [Graph.outcomes?, Graph.outcomes?, hsame.vertex?]
  · intro v x hx _
    exact (hsame.vertex? v).symm.trans hx
  · have hglobal := congrArg Graph.global h
    exact hglobal
  · intro v f hf
    exact Or.inl ((hsame.vertex? v).symm.trans hf)
  · intro v name w hw
    exact Or.inl ((hsame.outgoing? v _).symm.trans hw)

/-- A vertex that leads nowhere takes an empty place. -/
theorem fill {v : Handle} {x : Vertex} (hempty : g.vertex? v = none)
    (hvertex : ∀ w, g'.vertex? w = if w = v then some x else g.vertex? w)
    (hout : x.outcomes? = none) (henum : x.isEnumerable = false)
    (hframe : ∀ f, x = .frame f → f.value ∈ ends)
    (hglobal : g'.global = g.global) (hindex : g'.index = g.index) :
    g.OpensAt g' ends := by
  constructor
  · intro w
    unfold Graph.outcomes?
    rw [hvertex]
    split
    next hw => simp [hw, hempty, hout]
    next => rfl
  · intro w y hy henum'
    rw [hvertex] at hy
    split at hy
    next =>
      obtain rfl := Option.some.inj hy
      rw [henum] at henum'
      contradiction
    next => exact hy
  · exact hglobal
  · intro w f hf
    rw [hvertex] at hf
    split at hf
    next => exact Or.inr (hframe f (Option.some.inj hf))
    next => exact Or.inl hf
  · intro w name u hu
    rw [outgoing?, hindex] at hu
    exact Or.inl hu

theorem rewire {index : Table (Handle × Label) Handle} {edges : List Edge}
    (hchild : ∀ v name w, index.get? (v, .property name) = some w →
      g.outgoing? v (.property name) = some w ∨ w ∈ ends) :
    g.OpensAt { g with index, edges } ends :=
  ⟨fun _ => rfl, fun _ _ hx _ => hx, rfl, fun _ _ hf => Or.inl hf, hchild⟩

theorem refl (g : Graph) (ends : List Handle) : g.OpensAt g ends := of_core rfl

theorem retire (g : Graph) (s : Handle) (l : Label) (ends : List Handle) :
    g.OpensAt (g.retire s l) ends := by
  have hout := g.outgoing?_retire s l
  rw [retire_eq]
  apply rewire
  intro v name w hw
  have hold := (hout v (.property name)).symm.trans hw
  split at hold
  · contradiction
  · exact Or.inl hold

theorem install (g : Graph) {e : Edge} (he : e.target ∈ ends) :
    g.OpensAt (g.install e) ends := by
  have hout := g.outgoing?_install e
  rw [install_eq]
  apply rewire
  intro v name w hw
  have hold := (hout v (.property name)).symm.trans hw
  split at hold
  · exact Or.inr (Option.some.inj hold ▸ he)
  · exact Or.inl hold

theorem resolve (g : Graph) (id : ValueId) (ends : List Handle) :
    g.OpensAt (g.resolve id).1 ends := by
  unfold Graph.resolve
  cases g.vertexFor? id with
  | some v => exact refl g ends
  | none =>
      exact fill (vertex?_fresh g) vertex?_allocValue rfl rfl nofun rfl rfl

theorem resolveEnd (g : Graph) (id : Option ValueId) (ends : List Handle) :
    g.OpensAt (g.resolveEnd id).1 ends := by
  cases id with
  | none => exact refl g ends
  | some id => exact resolve g id ends

theorem surface (g : Graph) (v : Handle) (ends : List Handle) :
    g.OpensAt (g.surface v) ends := of_core (core_surface g v)

theorem pushFrame (hg : g.ArenaSound) {value : Handle} (hvalue : value ∈ ends) :
    g.OpensAt (g.pushFrame value) ends := by
  have hvertex := hg.vertex?_pushFrame value
  rw [pushFrame_eq] at hvertex ⊢
  apply fill hg.vertex?_nextFrame hvertex rfl rfl _ rfl rfl
  intro f hf
  obtain rfl := Vertex.frame.inj hf
  exact hvalue

theorem popFrame {f : Frame} (htop : g.vertex? g.stackTop = some (.frame f))
    (ends : List Handle) : g.OpensAt (g.popFrame f) ends := by
  have hvertex := vertex?_popFrame htop
  have hold : ∀ v x, (g.popFrame f).vertex? v = some x →
      g.vertex? v = some x := by
    intro v x hx
    rw [hvertex] at hx
    split at hx
    · contradiction
    · exact hx
  constructor
  · intro v
    unfold Graph.outcomes?
    rw [hvertex]
    split
    next hv =>
      rw [hv, htop]
      rfl
    next => rfl
  · exact fun v x hx _ => hold v x hx
  · rfl
  · exact fun v f' hf => Or.inl (hold v _ hf)
  · exact fun _ _ _ hw => Or.inl hw

end OpensAt

/-! ## Events -/

theorem opensAt_push (hg : g.WellFormed) (id : ValueId) :
    g.OpensAt (g.push id) [(g.resolve id).2] := by
  have hsurfaced := (hg.resolve id).surfacePushed (g.resolve id).2
  have hsurface : (g.resolve id).1.OpensAt
      ((g.resolve id).1.surfacePushed (g.resolve id).2)
      [(g.resolve id).2] := by
    unfold surfacePushed
    split
    · exact .surface _ _ _
    · exact .refl _ _
  have hframe : OpensAt _ _ [(g.resolve id).2] := .pushFrame
    hsurfaced.toArenaSound (List.mem_singleton_self (g.resolve id).2)
  exact (((OpensAt.resolve g id _).trans hsurface).trans hframe).trans
    (.of_core rfl)

theorem opensAt_link (source target : Option ValueId) (label : String) :
    g.OpensAt (g.link source target label)
      (g.namedEnds (.link source target label)) := by
  let s := (g.resolveEnd source).2
  let t := ((g.resolveEnd source).1.resolveEnd target).2
  let ends := ((g.resolveEnd source).1.resolveEnd target).1
  have hends : g.OpensAt ends [s, t] := (OpensAt.resolveEnd g source _).trans
    (.resolveEnd (g.resolveEnd source).1 target _)
  have hsurface : ends.OpensAt (ends.surfaceLinked s t) [s, t] := by
    unfold surfaceLinked
    split
    · exact (OpensAt.surface ends s _).trans (.surface _ t _)
    · exact .refl _ _
  have hinstall : (ends.surfaceLinked s t).OpensAt
      ((ends.surfaceLinked s t).install ⟨s, t, .property label⟩) [s, t] :=
    .install _ (by simp)
  exact ((hends.trans hsurface).trans hinstall).trans (.of_core rfl)

theorem opensAt_unlink (source target : Option ValueId) (label : String)
    (ends : List Handle) : g.OpensAt (g.unlink source target label) ends := by
  have hends := (OpensAt.resolveEnd g source ends).trans
    (.resolveEnd (g.resolveEnd source).1 target ends)
  have hretire := OpensAt.retire
    ((g.resolveEnd source).1.resolveEnd target).1 (g.resolveEnd source).2
    (.property label) ends
  exact (hends.trans hretire).trans (.of_core rfl)

theorem WellFormed.opensAt_event (hg : g.WellFormed) {e : Event}
    (he : ∀ value, e ≠ .create value) :
    g.OpensAt (g.apply (.event e)) (g.namedEnds e) := by
  cases e with
  | create value => exact absurd rfl (he value)
  | push id => exact opensAt_push hg id
  | pop id =>
      rcases g.apply_pop id with hsame | ⟨f, htop, heq⟩
      · rw [hsame]
        exact .refl g _
      · rw [heq]
        exact .popFrame htop _
  | link source target label => exact opensAt_link source target label
  | unlink source target label => exact opensAt_unlink source target label _
  | callBoundary => exact .of_core rfl

/-- Whatever the walk reaches for the first time after an event, it reaches
from a value on that the event names. -/
theorem WellFormed.below_of_newly_walked (hg : g.WellFormed) {e : Event}
    (he : ∀ value, e ≠ .create value) {w : Handle}
    (hw : (g.apply (.event e)).Walked w) (hold : ¬ g.Walked w) :
    ∃ v ∈ g.namedEnds e, (g.apply (.event e)).Below v w := by
  have hg' := hg.apply (.event e)
  have hopen := hg.opensAt_event he
  exact (hopen.walked hg.toStackSound hg'.toStackSound hw).resolve_left hold

end LiveHeap.Graph
