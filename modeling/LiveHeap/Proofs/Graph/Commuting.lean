import LiveHeap.Proofs.Graph.SurfacingLoop

/-!
# Links that commute

Outside the bootstrap, a link between known ends lights what hidden builtins
alone lead to from its ends, if one of them is a builtin.  The edge that it
installs leads a later link no further: if its target is a builtin, the target
is live by then.  What the first link has lit the second one does not pass
through again, but then all that lies behind is lit as well.  So two such links
light the union of what each of them would light alone, in either order.
-/

namespace LiveHeap

theorem Table.perm_of_get? {κ ν : Type} [DecidableEq κ] {t t' : Table κ ν}
    (hget : ∀ k, t'.get? k = t.get? k) : t'.entries.Perm t.entries := by
  have hnodup : ∀ t : Table κ ν, t.entries.Nodup :=
    fun t => List.Nodup.of_map Prod.fst t.nodup
  apply (List.perm_ext_iff_of_nodup (hnodup t') (hnodup t)).mpr
  intro e
  rw [← t'.get?_eq_some_iff, hget, t.get?_eq_some_iff]

namespace Graph

/-- The second graph is the first one, but that the edges and the entries of the
label index may stand in another order. -/
structure SameGraph (g g' : Graph) : Prop where
  rest : g' = { g with edges := g'.edges, index := g'.index }
  edges : g'.edges.Perm g.edges
  index : g'.index.entries.Perm g.index.entries

/-- The event links two known ends under a label that the source has no edge
under, and this is the edge it installs. -/
inductive FreshLink (g : Graph) : Event → Edge → Prop
  | mk {source target : Option ValueId} {label : String} {s t : Handle} :
      g.endOf? source = some s → g.endOf? target = some t →
      g.outgoing? s (.property label) = none →
      FreshLink g (.link source target label) ⟨s, t, .property label⟩

/-- Both orders of the events are taken, and lead to the same graph. -/
def Commutes (g : Graph) (e e' : Event) : Prop :=
  ∃ g₁ g₂, (g.deliver e).bind (fun h => h.deliver e') = .ok g₁ ∧
    (g.deliver e').bind (fun h => h.deliver e) = .ok g₂ ∧ g₁.SameGraph g₂

/-- A link that installs the edge lights the vertex. -/
def Lights (g : Graph) (k : Edge) (w : Handle) : Prop :=
  g.linkSurfaces k.source k.target = true ∧
    ∃ u ∈ [k.source, k.target], g.Uncovers u w

variable {g g' : Graph} {e e' : Event} {k k' : Edge} {u v w : Handle}

/-! ## One link -/

theorem resolveEnd_of_known {id : Option ValueId} (hv : g.endOf? id = some v) :
    g.resolveEnd id = (g, v) := by
  cases id with
  | none => exact congrArg (Prod.mk g) (Option.some.inj hv)
  | some id =>
      change g.vertexFor? id = some v at hv
      rw [resolveEnd, resolve, hv]

theorem relit_surfaceLinked (g : Graph) (s t : Handle) :
    g.Relit (g.surfaceLinked s t) := by
  unfold surfaceLinked
  split
  · exact (Relit.surface g s).trans (.surface _ t)
  · exact .refl g

/-- What a link between known ends makes of the graph. -/
structure Linked (g : Graph) (k : Edge) (g' : Graph) : Prop where
  rest : g' =
    { g with
      slots := g'.slots
      edges := g.edges.insert k
      index := g.index.insert (k.source, k.label) k.target
      changed := true
      mutated := true }
  slots : g'.slots = (g.surfaceLinked k.source k.target).slots

theorem FreshLink.linked (he : g.FreshLink e k) :
    g.Linked k (g.apply (.event e)) := by
  cases he with
  | @mk source target label s t hs ht hnew =>
      let h := g.surfaceLinked s t
      have hlink : g.link source target label =
          (h.install ⟨s, t, .property label⟩).markChanged := by
        unfold link
        rw [resolveEnd_of_known hs]
        dsimp only
        rw [resolveEnd_of_known ht]
      have hrest : h = { g with slots := h.slots } :=
        (relit_surfaceLinked g s t).rest
      have hretire : h.retire s (.property label) = h := by
        have hnone : h.outgoing? s (.property label) = none := by
          rw [hrest]
          exact hnew
        rw [retire, hnone]
      have hinstall : h.install ⟨s, t, .property label⟩ =
          { h with
            index := h.index.insert (s, .property label) t
            edges := h.edges.insert ⟨s, t, .property label⟩ } := by
        unfold install
        rw [hretire]
      change g.Linked _ (g.link source target label)
      rw [hlink, hinstall]
      constructor
      · rw [hrest]
        rfl
      · rfl

namespace Linked

theorem dim (h : g.Linked k g') : dimSlots g'.slots = dimSlots g.slots := by
  rw [h.slots]
  exact (relit_surfaceLinked g k.source k.target).dim

theorem isBuiltin (h : g.Linked k g') (v : Handle) :
    g'.isBuiltin v = g.isBuiltin v := by
  have hslot : g'.slot? v = (g.surfaceLinked k.source k.target).slot? v := by
    rw [slot?, slot?, h.slots]
  rw [isBuiltin_congr hslot, isBuiltin_surfaceLinked]

theorem linkSurfaces (h : g.Linked k g') (s t : Handle) :
    g'.linkSurfaces s t = g.linkSurfaces s t := by
  have hphase : g'.bootstrapping = g.bootstrapping := by
    rw [h.rest]
  unfold Graph.linkSurfaces
  rw [hphase, h.isBuiltin, h.isBuiltin]

theorem outgoing? (h : g.Linked k g') (v : Handle) (l : Label) :
    g'.outgoing? v l =
      if (v, l) = (k.source, k.label) then some k.target
      else g.outgoing? v l := by
  rw [h.rest]
  exact Table.get?_insert _ _ _ _

theorem isLive_iff (h : g.Linked k g') (hs : g.slot? k.source ≠ none)
    (ht : g.slot? k.target ≠ none) :
    g'.isLive w = true ↔ g.isLive w = true ∨ g.Lights k w := by
  have hslot : g'.slot? w = (g.surfaceLinked k.source k.target).slot? w := by
    rw [slot?, slot?, h.slots]
  rw [isLive_congr hslot]
  exact isLive_surfaceLinked_iff hs ht

end Linked

/-! ## What a second link lights -/

theorem Lights.step (hlit : g.Lights k v) (hstep : g.RevealStep v w) :
    g.Lights k w := by
  have ⟨hsurfaces, u, hu, hpath⟩ := hlit
  exact ⟨hsurfaces, u, hu, hpath.tail hstep⟩

section SecondLink

variable (h : g.Linked k g') (hs : g.slot? k.source ≠ none)
  (ht : g.slot? k.target ≠ none)

include h hs ht

theorem Linked.isHidden_iff :
    g'.isHidden w = true ↔ g.isHidden w = true ∧ ¬ g.Lights k w := by
  have hdark : g'.isLive w = false ↔ g.isLive w = false ∧ ¬ g.Lights k w := by
    rw [← Bool.not_eq_true, h.isLive_iff hs ht, not_or, Bool.not_eq_true]
  rw [Graph.isHidden_iff, Graph.isHidden_iff, h.isBuiltin, hdark, and_assoc]

variable (hphase : g.bootstrapping = false)

include hphase

/-- A hidden builtin at the end of the new edge is lit with the edge. -/
theorem Linked.not_isHidden_target : g'.isHidden k.target = false := by
  rw [← Bool.not_eq_true, h.isHidden_iff hs ht, not_and_not_right]
  intro hhidden
  have hbuiltin := (Graph.isHidden_iff.mp hhidden).1
  have hsurfaces : g.linkSurfaces k.source k.target = true := by
    simp [Graph.linkSurfaces, hphase, hbuiltin]
  exact ⟨hsurfaces, k.target, by simp, .refl⟩

/-- There are no new ways to go on, and the old ways end at what is lit. -/
theorem Linked.revealStep_iff (hnew : g.outgoing? k.source k.label = none) :
    g'.RevealStep v w ↔ g.RevealStep v w ∧ ¬ g.Lights k w := by
  unfold RevealStep
  rw [mem_successors, mem_successors, h.isHidden_iff hs ht, and_assoc]
  constructor
  · intro ⟨⟨l, hl⟩, hhidden⟩
    rw [h.outgoing?] at hl
    split at hl
    next =>
      have hshown := h.not_isHidden_target hs ht hphase
      rw [Option.some.inj hl, ← Bool.not_eq_true, h.isHidden_iff hs ht]
        at hshown
      exact absurd hhidden hshown
    next => exact ⟨⟨l, hl⟩, hhidden⟩
  · intro ⟨⟨l, hl⟩, hhidden⟩
    have hother : (v, l) ≠ (k.source, k.label) := by
      intro heq
      rw [(Prod.mk.inj heq).1, (Prod.mk.inj heq).2, hnew] at hl
      contradiction
    have hkept : g'.outgoing? v l = some w := by
      rw [h.outgoing?, if_neg hother, hl]
    exact ⟨⟨l, hkept⟩, hhidden⟩

variable (hnew : g.outgoing? k.source k.label = none)

include hnew

theorem Linked.uncovers_of_uncovers (hpath : g'.Uncovers u w) :
    g.Uncovers u w := by
  apply Relation.ReflTransGen.mono _ _ _ hpath
  intro a b hstep
  exact ((h.revealStep_iff hs ht hphase hnew).mp hstep).1

/-- A way that a second link cannot take to its end is blocked by a vertex that
the first link lit, and the first link went on from there. -/
theorem Linked.uncovers_or_lights (hpath : g.Uncovers u w) :
    g'.Uncovers u w ∨ g.Lights k w := by
  induction hpath with
  | refl => exact Or.inl .refl
  | @tail a b _ hstep ih =>
      rcases ih with hpath | hlit
      · by_cases hlit : g.Lights k b
        · exact Or.inr hlit
        · have hstep' : g'.RevealStep a b :=
            (h.revealStep_iff hs ht hphase hnew).mpr ⟨hstep, hlit⟩
          exact Or.inl (hpath.tail hstep')
      · exact Or.inr (hlit.step hstep)

theorem Linked.lights_or_lights_iff :
    g.Lights k w ∨ g'.Lights k' w ↔ g.Lights k w ∨ g.Lights k' w := by
  unfold Lights
  rw [h.linkSurfaces]
  constructor
  · rintro (hfirst | ⟨hsurfaces, u, hu, hpath⟩)
    · exact Or.inl hfirst
    · have hold := h.uncovers_of_uncovers hs ht hphase hnew hpath
      exact Or.inr ⟨hsurfaces, u, hu, hold⟩
  · rintro (hfirst | ⟨hsurfaces, u, hu, hpath⟩)
    · exact Or.inl hfirst
    · rcases h.uncovers_or_lights hs ht hphase hnew hpath with hrest | hlit
      · exact Or.inr ⟨hsurfaces, u, hu, hrest⟩
      · exact Or.inl hlit

end SecondLink

/-! ## Two links -/

theorem Linked.rest_pair {h : Graph} (hfirst : g.Linked k h)
    (hsecond : h.Linked k' g') : g' =
      { g with
        slots := g'.slots
        edges := (g.edges.insert k).insert k'
        index := (g.index.insert (k.source, k.label) k.target).insert
          (k'.source, k'.label) k'.target
        changed := true
        mutated := true } := by
  have hrest := hsecond.rest
  rw [hfirst.rest] at hrest
  exact hrest

theorem FreshLink.ends (he : g.FreshLink e k) (hg : g.WellFormed) :
    g.slot? k.source ≠ none ∧ g.slot? k.target ≠ none ∧
      g.outgoing? k.source k.label = none := by
  cases he with
  | mk hs ht hnew =>
      have hend : ∀ {id v}, g.endOf? id = some v → g.slot? v ≠ none :=
        fun hv => hg.slot?_ne_none_of_isEnd (hg.isEnd_iff.mpr ⟨_, hv⟩)
      exact ⟨hend hs, hend ht, hnew⟩

/-- A fresh link stays one when another edge comes in. -/
theorem FreshLink.after (he : g.FreshLink e k) (hg : g.WellFormed)
    (he' : g.FreshLink e' k')
    (hkeys : (k.source, k.label) ≠ (k'.source, k'.label)) :
    (g.apply (.event e')).FreshLink e k := by
  have hlinked := he'.linked
  cases he with
  | mk hs ht hnew =>
      apply FreshLink.mk
      · exact hg.endOf?_apply _ hs
      · exact hg.endOf?_apply _ ht
      · rw [hlinked.outgoing?, if_neg hkeys, hnew]

theorem FreshLink.deliver (he : g.FreshLink e k) :
    g.deliver e = .ok (g.apply (.event e)) := by
  cases he with
  | mk => rfl

section TwoLinks

variable (hg : g.WellFormed) (hphase : g.bootstrapping = false)
  (he : g.FreshLink e k) (he' : g.FreshLink e' k')
  (hkeys : (k.source, k.label) ≠ (k'.source, k'.label))

include hg hphase he he' hkeys

theorem FreshLink.isLive_pair_iff :
    ((g.apply (.event e)).apply (.event e')).isLive w = true ↔
      g.isLive w = true ∨ g.Lights k w ∨ g.Lights k' w := by
  have ⟨hs, ht, hnew⟩ := he.ends hg
  have hsecond := he'.after hg he hkeys.symm
  have ⟨hs', ht', _⟩ := hsecond.ends (hg.apply (.event e))
  rw [hsecond.linked.isLive_iff hs' ht', he.linked.isLive_iff hs ht, or_assoc,
    he.linked.lights_or_lights_iff hs ht hphase hnew]

theorem FreshLink.sameGraph_pair :
    ((g.apply (.event e)).apply (.event e')).SameGraph
      ((g.apply (.event e')).apply (.event e)) := by
  have hfirst := he.linked
  have hsecond := (he'.after hg he hkeys.symm).linked
  have hfirst' := he'.linked
  have hsecond' := (he.after hg he' hkeys).linked
  let g₁ := (g.apply (.event e)).apply (.event e')
  let g₂ := (g.apply (.event e')).apply (.event e)
  have hslots : g₂.slots = g₁.slots := by
    apply slots_eq_of_dim
    · rw [hsecond'.dim, hfirst'.dim, hsecond.dim, hfirst.dim]
    · intro v
      rw [Bool.eq_iff_iff, isLive_pair_iff hg hphase he he' hkeys,
        isLive_pair_iff hg hphase he' he hkeys.symm,
        or_comm (a := g.Lights k' v)]
  have h₁ := hfirst.rest_pair hsecond
  have h₂ := hfirst'.rest_pair hsecond'
  constructor
  · rw [h₁, h₂, hslots]
  · rw [h₁, h₂]
    exact List.perm_insert_swap _ _ _
  · rw [h₁, h₂]
    apply Table.perm_of_get?
    intro key
    simp only [Table.get?_insert]
    by_cases hkey : key = (k.source, k.label)
    · rw [if_pos hkey, if_neg (hkey ▸ hkeys), if_pos hkey]
    · rw [if_neg hkey, if_neg hkey]

end TwoLinks

/-- Outside the bootstrap, two links between known ends, under different labels
or from different sources that have no edges under them, may come in either
order: they lead to the same graph. -/
theorem fresh_links_commute (ops : List Operation) {e e' : Event} {k k' : Edge}
    (hphase : (new.run ops).bootstrapping = false)
    (he : (new.run ops).FreshLink e k) (he' : (new.run ops).FreshLink e' k')
    (hkeys : (k.source, k.label) ≠ (k'.source, k'.label)) :
    (new.run ops).Commutes e e' := by
  have hg : (new.run ops).WellFormed := wellFormed_run_new ops
  have hafter := he'.after hg he hkeys.symm
  have hafter' := he.after hg he' hkeys
  have hsame := FreshLink.sameGraph_pair hg hphase he he' hkeys
  refine ⟨_, _, ?_, ?_, hsame⟩
  · rw [he.deliver]
    exact hafter.deliver
  · rw [he'.deliver]
    exact hafter'.deliver

/-- Of two hidden builtins the second one gets an edge back to the first one,
which the root is linked to.  Either link brings both to light. -/
theorem links_of_hidden_cycle_commute :
    (new.run twoBuiltins).Commutes linkFirst
      (.link (some ⟨2⟩) (some ⟨1⟩) "back") := by
  have hfirst : (new.run twoBuiltins).FreshLink linkFirst
      ⟨root, ⟨2⟩, .property "first"⟩ :=
    .mk rfl (by decide +kernel) (by decide +kernel)
  have hback : (new.run twoBuiltins).FreshLink
      (.link (some ⟨2⟩) (some ⟨1⟩) "back") ⟨⟨3⟩, ⟨2⟩, .property "back"⟩ :=
    .mk (by decide +kernel) (by decide +kernel) (by decide +kernel)
  exact fresh_links_commute twoBuiltins rfl hfirst hback (by decide)

end Graph

end LiveHeap
