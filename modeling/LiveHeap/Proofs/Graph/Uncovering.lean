import LiveHeap.Proofs.Graph.Properties

/-!
# How far surfacing goes

An event that surfaces a vertex goes on from it through the index, but only
through builtins that were hidden until then.  It stops at a vertex that is live
already or that is no builtin, whatever lies behind that vertex.  So a builtin
that the index leads to is live afterwards exactly if it was live before, or if
hidden builtins alone lead to it from a surfaced vertex.
-/

namespace LiveHeap.Graph

/-- The vertices that an event surfaces. -/
def surfacedBy (g : Graph) : Event → List Handle
  | .push id =>
      let (g, v) := g.resolve id
      if !g.bootstrapping && g.isBuiltin v then [v] else []
  | .link source target _ =>
      let (g, s) := g.resolveEnd source
      let (g, t) := g.resolveEnd target
      if g.linkSurfaces s t then [s, t] else []
  | _ => []

/-- Property and maybe edges of the index lead from the first vertex to the
second one. -/
def LeadsTo (g : Graph) : Handle → Handle → Prop :=
  Relation.ReflTransGen fun v w => w ∈ g.successors v

variable {g g' g'' : Graph} {u v w : Handle} {pending : List Handle}

/-! ## Only hidden builtins are passed through -/

theorem Uncovers.of_show (h : (g.setLive v true).Uncovers w u) :
    g.Uncovers w u := by
  apply Relation.ReflTransGen.mono _ _ _ h
  intro a b hstep
  have hhidden := (isHidden_show g v b).mp hstep.2
  exact ⟨hstep.1, hhidden.1⟩

/-- What revealing makes live was pending, or hidden builtins alone led to it
from something pending. -/
theorem uncovered_of_isLive_revealPending
    (hlive : (g.revealPending pending).isLive w = true) :
    g.isLive w = true ∨
      ∃ v ∈ pending, g.isHidden v = true ∧ g.Uncovers v w := by
  induction g, pending using revealPending.induct with
  | case1 g =>
      rw [revealPending] at hlive
      exact Or.inl hlive
  | case2 g v pending hhidden g' ih =>
      rw [revealPending, dif_pos hhidden] at hlive
      rcases ih hlive with hshown | ⟨u, hmem, hu, hpath⟩
      · have hv := slot?_ne_none_of_isHidden hhidden
        rcases (isLive_show_iff hv).mp hshown with hold | hw
        · exact Or.inl hold
        · right
          rw [hw]
          exact ⟨v, List.mem_cons_self, hhidden, .refl⟩
      · have hold : g.isHidden u = true := ((isHidden_show g v u).mp hu).1
        right
        rcases List.mem_append.mp hmem with hnext | hlater
        · exact ⟨v, List.mem_cons_self, hhidden,
            .head ⟨hnext, hold⟩ hpath.of_show⟩
        · exact ⟨u, List.mem_cons_of_mem v hlater, hold, hpath.of_show⟩
  | case3 g v pending hseen ih =>
      rw [revealPending, dif_neg hseen] at hlive
      rcases ih hlive with hold | ⟨u, hmem, hu, hpath⟩
      · exact Or.inl hold
      · exact Or.inr ⟨u, List.mem_cons_of_mem v hmem, hu, hpath⟩

theorem isLive_surface_iff (hv : g.slot? v ≠ none) :
    (g.surface v).isLive w = true ↔
      g.isLive w = true ∨ g.Uncovers v w := by
  constructor
  · intro hlive
    rcases uncovered_of_isLive_revealPending hlive with
      hshown | ⟨u, hmem, hu, hpath⟩
    · rcases (isLive_show_iff hv).mp hshown with hold | hw
      · exact Or.inl hold
      · rw [hw]
        exact Or.inr .refl
    · have hold : g.isHidden u = true := ((isHidden_show g v u).mp hu).1
      exact Or.inr (.head ⟨hmem, hold⟩ hpath.of_show)
  · intro h
    rcases h with hold | hpath
    · exact isLive_surface_of_live hold v
    · exact (surfaced_surface hv).live_of_uncovers rfl hpath

theorem Uncovers.of_surface (h : (g.surface u).Uncovers v w) :
    g.Uncovers v w := by
  apply Relation.ReflTransGen.mono _ _ _ h
  intro a b hstep
  have hhidden := isHidden_iff.mp hstep.2
  constructor
  · rw [← successors_surface g u a]
    exact hstep.1
  · rw [isHidden_iff, ← isBuiltin_surface g u b, Bool.eq_false_iff]
    refine ⟨hhidden.1, fun hlive => ?_⟩
    rw [isLive_surface_of_live hlive u] at hhidden
    exact Bool.noConfusion hhidden.2

theorem isLive_surface_pair_iff {s t : Handle} (hs : g.slot? s ≠ none)
    (ht : g.slot? t ≠ none) :
    ((g.surface s).surface t).isLive w = true ↔
      g.isLive w = true ∨ ∃ u ∈ [s, t], g.Uncovers u w := by
  have ht' : (g.surface s).slot? t ≠ none :=
    fun hnone => ht ((slot?_surface_eq_none g s t).mp hnone)
  constructor
  · rw [isLive_surface_iff ht', isLive_surface_iff hs]
    rintro ((hold | hsource) | htarget)
    · exact Or.inl hold
    · exact Or.inr ⟨s, by simp, hsource⟩
    · exact Or.inr ⟨t, by simp, htarget.of_surface⟩
  · rintro (hold | ⟨u, hu, hpath⟩)
    · exact isLive_surface_of_live (isLive_surface_of_live hold s) t
    · have hend : u = s ∨ u = t := by simpa using hu
      exact (surfaced_pair hs ht).live_of_uncovers hend hpath

/-! ## Mentioning a value -/

/-- Only empty places are filled, and the index stays. -/
structure Fills (g g' : Graph) : Prop where
  slot : ∀ v, g.slot? v ≠ none → g'.slot? v = g.slot? v
  index : g'.index = g.index

namespace Fills

theorem refl (g : Graph) : g.Fills g := ⟨fun _ _ => rfl, rfl⟩

theorem trans (h : g.Fills g') (h' : g'.Fills g'') : g.Fills g'' where
  slot v hv := by
    have hsame := h.slot v hv
    have hv' : g'.slot? v ≠ none := by rwa [hsame]
    exact (h'.slot v hv').trans hsame
  index := h'.index.trans h.index

theorem resolve (g : Graph) (id : ValueId) : g.Fills (g.resolve id).1 := by
  unfold Graph.resolve
  cases g.vertexFor? id with
  | some v => exact refl g
  | none =>
      constructor
      · intro v hv
        rw [slot?_allocValue, if_neg]
        intro hfresh
        rw [hfresh, slot?_fresh] at hv
        contradiction
      · rfl

theorem resolveEnd (g : Graph) (id : Option ValueId) :
    g.Fills (g.resolveEnd id).1 := by
  cases id with
  | none => exact refl g
  | some id => exact resolve g id

end Fills

theorem WellFormed.slot?_of_mem_successors (hg : g.WellFormed)
    (hw : w ∈ g.successors v) : g.slot? w ≠ none := by
  have ⟨l, hout⟩ := mem_successors.mp hw
  exact hg.slot?_ne_none_of_isEnd (hg.index_ends v l w hout).2.2

theorem WellFormed.slot?_of_leadsTo (hg : g.WellFormed)
    (hpath : g.LeadsTo v w) : w = v ∨ g.slot? w ≠ none := by
  cases hpath with
  | refl => exact Or.inl rfl
  | tail _ hlast => exact Or.inr (hg.slot?_of_mem_successors hlast)

/-- The index leads to old places only, so that a new value uncovers no
more. -/
theorem Fills.uncovers_iff (h : g.Fills g') (hg : g.WellFormed) :
    g'.Uncovers v w ↔ g.Uncovers v w := by
  have hstep : g'.RevealStep = g.RevealStep := by
    funext a b
    have hsucc : g'.successors a = g.successors a := by
      rw [successors, h.index]
      rfl
    unfold RevealStep
    rw [hsucc, eq_iff_iff, and_congr_right_iff]
    intro hb
    have hslot := h.slot b (hg.slot?_of_mem_successors hb)
    unfold isHidden
    rw [isBuiltin_congr hslot, isLive_congr hslot]
  unfold Uncovers
  rw [hstep]

/-! ## Events -/

/-- The second graph is the first one with the named values registered.  A
builtin is live in the third one exactly if it was live in the second one or is
uncovered there. -/
structure Uncovered (g h g' : Graph) (surfaced : List Handle) : Prop where
  fills : g.Fills h
  builtin : ∀ w, g'.isBuiltin w = h.isBuiltin w
  live : ∀ w, h.isBuiltin w = true → (g'.isLive w = true ↔
    h.isLive w = true ∨ ∃ u ∈ surfaced, h.Uncovers u w)

theorem WellFormed.uncovered_push (hg : g.WellFormed) {id : ValueId}
    (hv : v ∈ g.surfacedBy (.push id)) :
    g.Uncovered (g.resolve id).1 (g.push id) (g.surfacedBy (.push id)) := by
  let h := (g.resolve id).1
  let x := (g.resolve id).2
  have hsurfaces : (!h.bootstrapping && h.isBuiltin x) = true := by
    by_contra hno
    simp [surfacedBy, h, x, hno] at hv
  have hlist : g.surfacedBy (.push id) = [x] := if_pos hsurfaces
  have hpush : g.push id = ((h.surface x).pushFrame x).markChanged := by
    have hsame : h.surfacePushed x = h.surface x := if_pos hsurfaces
    rw [← hsame]
    rfl
  have hh : h.WellFormed := hg.resolve id
  have hx : h.slot? x ≠ none := (holdsValue_resolve hg id).slot?_ne_none
  have hsurface := (edits_surface hh x).wellFormed hh
  have hframe := keepsBuiltins_pushFrame hsurface.toArenaSound x
  rw [hlist, hpush]
  constructor
  · exact .resolve g id
  · intro w
    exact (hframe.builtin w).trans (isBuiltin_surface h x w)
  · intro w hw
    have hbuiltin := (isBuiltin_surface h x w).trans hw
    have hlive := hframe.live w hbuiltin
    change ((h.surface x).pushFrame x).isLive w = true ↔
      h.isLive w = true ∨ ∃ u ∈ [x], h.Uncovers u w
    rw [hlive, isLive_surface_iff hx]
    simp

theorem WellFormed.uncovered_link (hg : g.WellFormed)
    {source target : Option ValueId} {label : String}
    (hv : v ∈ g.surfacedBy (.link source target label)) :
    g.Uncovered ((g.resolveEnd source).1.resolveEnd target).1
      (g.link source target label)
      (g.surfacedBy (.link source target label)) := by
  let s := (g.resolveEnd source).2
  let t := ((g.resolveEnd source).1.resolveEnd target).2
  let h := ((g.resolveEnd source).1.resolveEnd target).1
  have hsurfaces : h.linkSurfaces s t = true := by
    by_contra hno
    simp [surfacedBy, h, s, t, hno] at hv
  have hlist : g.surfacedBy (.link source target label) = [s, t] :=
    if_pos hsurfaces
  have hslots : (g.link source target label).slots =
      ((h.surface s).surface t).slots := by
    have hsame : h.surfaceLinked s t = (h.surface s).surface t :=
      if_pos hsurfaces
    rw [← hsame]
    exact slots_link g source target label
  have hslot : ∀ w, (g.link source target label).slot? w =
      ((h.surface s).surface t).slot? w := by
    intro w
    rw [slot?, slot?, hslots]
  have hfirst := edits_resolveEnd hg source
  have hg₁ := hfirst.1.wellFormed hg
  have hsecond := edits_resolveEnd hg₁ target
  have hh : h.WellFormed := hsecond.1.wellFormed hg₁
  have hs : h.slot? s ≠ none :=
    hh.slot?_ne_none_of_isEnd (hsecond.1.grows.isEnd hfirst.2)
  have ht : h.slot? t ≠ none := hh.slot?_ne_none_of_isEnd hsecond.2
  rw [hlist]
  constructor
  · exact (Fills.resolveEnd g source).trans (.resolveEnd _ target)
  · intro w
    rw [isBuiltin_congr (hslot w), isBuiltin_surface, isBuiltin_surface]
  · intro w _
    rw [isLive_congr (hslot w), isLive_surface_pair_iff hs ht]

theorem WellFormed.uncovered_event (hg : g.WellFormed) {e : Event}
    (hv : v ∈ g.surfacedBy e) :
    ∃ h, g.Uncovered h (g.apply (.event e)) (g.surfacedBy e) := by
  cases e with
  | push id => exact ⟨_, hg.uncovered_push hv⟩
  | link source target label => exact ⟨_, hg.uncovered_link hv⟩
  | _ => exact nomatch hv

/-- Every builtin that the index led to from the vertex is live afterwards. -/
def BringsAll (g g' : Graph) (v : Handle) : Prop :=
  ∀ w, g.LeadsTo v w → g'.isBuiltin w = true → g'.isLive w = true

section Event

variable {e : Event} (hg : g.WellFormed) (hv : v ∈ g.surfacedBy e)

include hg hv

theorem WellFormed.isLive_event_iff (hpath : g.LeadsTo v w)
    (hw : (g.apply (.event e)).isBuiltin w = true) :
    (g.apply (.event e)).isLive w = true ↔
      g.isLive w = true ∨ ∃ u ∈ g.surfacedBy e, g.Uncovers u w := by
  obtain ⟨h, hevent⟩ := hg.uncovered_event hv
  rw [hevent.builtin] at hw
  rw [hevent.live w hw]
  simp only [hevent.fills.uncovers_iff hg]
  rcases hg.slot?_of_leadsTo hpath with heq | hslot
  · -- The vertex may be a new one, but then it is itself surfaced.
    have huncovered : ∃ u ∈ g.surfacedBy e, g.Uncovers u w :=
      ⟨v, hv, heq ▸ .refl⟩
    simp [huncovered]
  · rw [isLive_congr (hevent.fills.slot w hslot)]

theorem WellFormed.bringsAll_iff :
    g.BringsAll (g.apply (.event e)) v ↔
      ∀ w, g.LeadsTo v w → g.isHidden w = true →
        ∃ u ∈ g.surfacedBy e, g.Uncovers u w := by
  obtain ⟨h, hevent⟩ := hg.uncovered_event hv
  constructor
  · intro hall w hpath hw
    have hhidden := isHidden_iff.mp hw
    have hslot := hevent.fills.slot w (slot?_ne_none_of_isHidden hw)
    have hbuiltin : (g.apply (.event e)).isBuiltin w = true := by
      rw [hevent.builtin, isBuiltin_congr hslot]
      exact hhidden.1
    have hlive := hall w hpath hbuiltin
    rw [hg.isLive_event_iff hv hpath hbuiltin, hhidden.2] at hlive
    simpa using hlive
  · intro hall w hpath hw
    rw [hg.isLive_event_iff hv hpath hw]
    rcases hg.slot?_of_leadsTo hpath with heq | hslot
    · exact Or.inr ⟨v, hv, heq ▸ .refl⟩
    · by_cases hlive : g.isLive w = true
      · exact Or.inl hlive
      · have hsame := isBuiltin_congr (hevent.fills.slot w hslot)
        rw [hevent.builtin, hsame] at hw
        have hhidden := isHidden_iff.mpr ⟨hw, Bool.eq_false_iff.mpr hlive⟩
        exact Or.inr (hall w hpath hhidden)

end Event

/-- After an event that surfaces vertices, a builtin that the index led to from
one of them is live exactly if it was live before or hidden builtins alone lead
to it from a surfaced vertex.  So nothing is left behind exactly if that is how
the index leads to every hidden builtin. -/
theorem surfacing_passes_hidden_builtins (ops : List Operation) (e : Event) :
    let g := new.run ops
    let g' := g.apply (.event e)
    ∀ v ∈ g.surfacedBy e,
      (∀ w, g.LeadsTo v w → g'.isBuiltin w = true →
        (g'.isLive w = true ↔
          g.isLive w = true ∨ ∃ u ∈ g.surfacedBy e, g.Uncovers u w)) ∧
      (g.BringsAll g' v ↔
        ∀ w, g.LeadsTo v w → g.isHidden w = true →
          ∃ u ∈ g.surfacedBy e, g.Uncovers u w) := by
  intro g g' v hv
  have hg : g.WellFormed := wellFormed_run_new ops
  constructor
  · intro w hpath hw
    exact hg.isLive_event_iff hv hpath hw
  · exact hg.bringsAll_iff hv

/-- A push of the first one of two builtins brings both to light. -/
theorem pushed_chain_comes_to_light :
    ⟨2⟩ ∈ (new.run twoBuiltins).surfacedBy (.push ⟨1⟩) ∧
    (new.run twoBuiltins).isHidden ⟨3⟩ = true ∧
    ((new.run twoBuiltins).apply (.event (.push ⟨1⟩))).isLive ⟨3⟩ = true := by
  have hfirst : ⟨2⟩ ∈ (new.run twoBuiltins).surfacedBy (.push ⟨1⟩) := by
    decide +kernel
  have hhidden : (new.run twoBuiltins).isHidden ⟨3⟩ = true := by
    decide +kernel
  have hnext : ⟨3⟩ ∈ (new.run twoBuiltins).successors ⟨2⟩ := by
    decide +kernel
  have hafter := (surfacing_passes_hidden_builtins twoBuiltins (.push ⟨1⟩) ⟨2⟩
    hfirst).1 ⟨3⟩ (.single hnext) (by decide +kernel)
  have huncovered : (new.run twoBuiltins).Uncovers ⟨2⟩ ⟨3⟩ :=
    .single ⟨hnext, hhidden⟩
  exact ⟨hfirst, hhidden, hafter.mpr (Or.inr ⟨⟨2⟩, hfirst, huncovered⟩)⟩

/-- Three builtins in a chain, of which the root names the second one. -/
def namedHalfway : List Operation :=
  [.beginBootstrap, .event (.link none (some ⟨2⟩) "b"),
    .event (.link (some ⟨2⟩) (some ⟨3⟩) "c"),
    .event (.link (some ⟨1⟩) (some ⟨2⟩) "a"), .endBootstrap]

/-- A push of the first one stops at the second one, which is live, and leaves
the third one hidden. -/
theorem third_of_chain_stays_hidden :
    ¬ ∀ (ops : List Operation) (e : Event), ∀ v ∈ (new.run ops).surfacedBy e,
      (new.run ops).BringsAll ((new.run ops).apply (.event e)) v := by
  intro hall
  have hfirst : ⟨4⟩ ∈ (new.run namedHalfway).surfacedBy (.push ⟨1⟩) := by
    decide +kernel
  have hsecond : ⟨2⟩ ∈ (new.run namedHalfway).successors ⟨4⟩ := by
    decide +kernel
  have hthird : ⟨3⟩ ∈ (new.run namedHalfway).successors ⟨2⟩ := by
    decide +kernel
  have hpath : (new.run namedHalfway).LeadsTo ⟨4⟩ ⟨3⟩ :=
    .tail (.single hsecond) hthird
  have hlive := hall namedHalfway (.push ⟨1⟩) ⟨4⟩ hfirst ⟨3⟩ hpath
    (by decide +kernel)
  have hhidden : ((new.run namedHalfway).apply
      (.event (.push ⟨1⟩))).isLive ⟨3⟩ = false := by
    decide +kernel
  rw [hhidden] at hlive
  contradiction

end LiveHeap.Graph
