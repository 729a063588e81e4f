import LiveHeap.Proofs.Graph.Identity

/-!
# Announced values

A union is registered in three moves: its old maybe edges are retired, its
outcomes are registered and linked one by one, and the outcome list is stored
at the end.  All of that touches the places of the values that the announced
value mentions, and no other place.
-/

namespace LiveHeap

namespace Value

mutual

/-- The ids that a value mentions, a union before its outcomes. -/
def ids : Value → List ValueId
  | .plain about => [about.id]
  | .union about outcomes => about.id :: idsOf outcomes

def idsOf : List Value → List ValueId
  | [] => []
  | value :: values => value.ids ++ idsOf values

end

end Value

namespace Graph

/-- The outcomes of a union, and none for any other vertex. -/
def outcomesAt (g : Graph) (v : Handle) : List Handle :=
  (g.outcomes? v).getD []

/-- The slot of the place and the edges that leave it stay as they are. -/
structure Untouched (g g' : Graph) (v : Handle) : Prop where
  slot : g'.slot? v = g.slot? v
  outgoing : ∀ l, g'.outgoing? v l = g.outgoing? v l

variable {g g' g'' : Graph}

namespace Untouched

variable {v : Handle}

theorem refl (g : Graph) (v : Handle) : g.Untouched g v :=
  ⟨rfl, fun _ => rfl⟩

theorem trans (h : g.Untouched g' v) (h' : g'.Untouched g'' v) :
    g.Untouched g'' v where
  slot := h'.slot.trans h.slot
  outgoing l := (h'.outgoing l).trans (h.outgoing l)

theorem vertex?_eq (h : g.Untouched g' v) : g'.vertex? v = g.vertex? v := by
  rw [vertex?, vertex?, h.slot]

theorem modifySlot {w : Handle} {f : Slot → Slot} (hne : v ≠ w) :
    g.Untouched (g.modifySlot w f) v := by
  constructor
  · rw [slot?_modifySlot, if_neg hne]
  · exact fun l => rfl

theorem install {e : Edge} (hne : v ≠ e.source) :
    g.Untouched (g.install e) v := by
  constructor
  · rw [install_eq]
    rfl
  · intro l
    rw [outgoing?_install, if_neg]
    exact fun hkey => hne (Prod.mk.inj hkey).1

end Untouched

/-! ## Retiring the old outcomes -/

theorem slots_retireOutcomes (g : Graph) (v : Handle) :
    (g.retireOutcomes v).slots = g.slots := by
  apply List.foldlRecOn (motive := fun g' : Graph => g'.slots = g.slots)
  · rfl
  · intro g' hslots i _
    rw [retire_eq]
    exact hslots

theorem outgoing?_retireOutcomes (g : Graph) (v s : Handle) (l : Label) :
    (g.retireOutcomes v).outgoing? s l =
      if ∃ i < (g.outcomesAt v).length, (s, l) = (v, .maybe i) then none
      else g.outgoing? s l := by
  have hpositions : ∀ (g : Graph) (positions : List Nat),
      (positions.foldl (fun g i => g.retire v (.maybe i)) g).outgoing? s l =
        if ∃ i ∈ positions, (s, l) = (v, .maybe i) then none
        else g.outgoing? s l := by
    intro g positions
    induction positions generalizing g with
    | nil => simp
    | cons i positions ih =>
        rw [List.foldl_cons, ih, outgoing?_retire]
        by_cases hi : (s, l) = (v, .maybe i)
        · simp [hi]
        · rw [if_neg hi]
          simp only [List.exists_mem_cons_iff, hi, false_or]
  have hall := hpositions g (List.range (g.outcomesAt v).length)
  simp only [List.mem_range] at hall
  exact hall

theorem untouched_retireOutcomes {v w : Handle} (hne : v ≠ w) :
    g.Untouched (g.retireOutcomes w) v := by
  constructor
  · rw [slot?, slot?, slots_retireOutcomes]
  · intro l
    rw [outgoing?_retireOutcomes, if_neg]
    rintro ⟨_, _, hkey⟩
    exact hne (Prod.mk.inj hkey).1

/-! ## One announcement -/

theorem WellFormed.eq_of_valueAt? (hg : g.WellFormed) {v w : Handle}
    {id : ValueId} (hv : g.valueAt? v = some id)
    (hw : g.valueAt? w = some id) : v = w := by
  have hforV := (hg.vertexFor?_iff id v).mpr hv
  have hforW := (hg.vertexFor?_iff id w).mpr hw
  exact Option.some.inj (hforV.symm.trans hforW)

theorem valueAt?_announce (hg : g.WellFormed) {id : ValueId} {x : Vertex}
    (hx : x.valueId? = some id) (hleaf : x.outcomes?.getD [] = []) :
    (g.announce id x).1.valueAt? (g.announce id x).2 = some id := by
  have hgrows := (edits_announce hg hx hleaf).1.grows
  unfold announce at hgrows ⊢
  cases hknown : g.vertexFor? id with
  | some v =>
      simp only [hknown] at hgrows
      exact hgrows.valueAt v id (hg.valueAt?_of_vertexFor? hknown)
  | none =>
      simp only
      rw [valueAt?_allocValue hx]
      exact if_pos rfl

theorem untouched_announce (g : Graph) (id : ValueId) (x : Vertex)
    {v : Handle} (hne : v ≠ (g.announce id x).2) :
    g.Untouched (g.announce id x).1 v := by
  unfold announce at hne ⊢
  cases hknown : g.vertexFor? id with
  | some w =>
      simp only [hknown] at hne
      exact (untouched_retireOutcomes hne).trans (.modifySlot hne)
  | none =>
      simp only [hknown] at hne
      constructor
      · rw [slot?_allocValue]
        exact if_neg hne
      · exact fun l => rfl

/-! ## A value with its outcomes -/

mutual

/-- Registering a value leaves every place alone that does not hold one of the
values it mentions. -/
theorem untouched_register {g : Graph} (hg : g.WellFormed) {v : Handle} :
    (value : Value) →
      (∀ id ∈ value.ids, (g.register value).1.valueAt? v ≠ some id) →
      g.Untouched (g.register value).1 v
  | .plain about, hv => by
      rw [register] at hv ⊢
      apply untouched_announce
      rintro rfl
      exact hv about.id (by simp [Value.ids]) (valueAt?_announce hg rfl rfl)
  | .union about outcomes, hv => by
      have hannounce := edits_announce (x := .union about []) hg rfl rfl
      have hg₁ := hannounce.1.wellFormed hg
      have houtcomes := edits_registerOutcomes hg₁ hannounce.2 0 outcomes
      have hg₂ := houtcomes.1.wellFormed hg₁
      have hset := edits_setOutcomes
        (v := (g.announce about.id (.union about [])).2) hg₂ houtcomes.2
      rw [register] at hv ⊢
      have hne : v ≠ (g.announce about.id (.union about [])).2 := by
        rintro rfl
        have hheld := valueAt?_announce (x := .union about []) hg rfl rfl
        have hheld₂ := houtcomes.1.grows.valueAt _ _ hheld
        exact hv about.id (by simp [Value.ids])
          (hset.grows.valueAt _ _ hheld₂)
      have hfirst := untouched_announce g about.id (.union about []) hne
      have hrest := untouched_registerOutcomes hg₁ hannounce.2 hne 0 outcomes
        fun id hid heq => hv id (by simp [Value.ids, hid])
          (hset.grows.valueAt v id heq)
      exact (hfirst.trans hrest).trans (.modifySlot hne)

theorem untouched_registerOutcomes {g : Graph} (hg : g.WellFormed)
    {v union : Handle} (hunion : g.HoldsValue union) (hne : v ≠ union)
    (position : Nat) :
    (outcomes : List Value) →
      (∀ id ∈ Value.idsOf outcomes,
        (g.registerOutcomes union position outcomes).1.valueAt? v ≠
          some id) →
      g.Untouched (g.registerOutcomes union position outcomes).1 v
  | [], _ => by
      rw [registerOutcomes]
      exact .refl g v
  | outcome :: outcomes, hv => by
      have hlink := edits_linkOutcome hg hunion position outcome
      have hg₂ := hlink.wellFormed hg
      have hunion₂ := hlink.grows.holdsValue hunion
      have hlater := (grows_linkOutcome g union position outcome).trans
        (edits_registerOutcomes hg₂ hunion₂ (position + 1) outcomes).1.grows
      rw [registerOutcomes_cons] at hv ⊢
      have hfirst := untouched_register hg (v := v) outcome
        fun id hid heq => hv id (by simp [Value.idsOf, hid])
          (hlater.valueAt v id heq)
      have htail := untouched_registerOutcomes hg₂ hunion₂ hne (position + 1)
        outcomes fun id hid => hv id (by simp [Value.idsOf, hid])
      exact (hfirst.trans (.install hne)).trans htail

end

end Graph

end LiveHeap
