import LiveHeap.Proofs.Graph.Announce

/-!
# Outcomes beside maybe edges

As long as no union is announced within itself, the registration of its
outcomes leaves a union alone, and ends with one maybe edge for each outcome.
No other operation changes an outcome list or a maybe edge.
-/

namespace LiveHeap

namespace Value

mutual

/-- A union with the id mentions the id again among its outcomes. -/
def Recurs (id : ValueId) : Value → Prop
  | .plain _ => False
  | .union about outcomes =>
      about.id = id ∧ id ∈ idsOf outcomes ∨ AnyRecurs id outcomes

def AnyRecurs (id : ValueId) : List Value → Prop
  | [] => False
  | value :: values => value.Recurs id ∨ AnyRecurs id values

end

end Value

namespace Graph

/-- The maybe edges of the vertex lead to its outcomes, position by
position. -/
def MaybesAgree (g : Graph) (v : Handle) : Prop :=
  ∀ i, g.outgoing? v (.maybe i) = (g.outcomesAt v)[i]?

/-- The outcome list of the place and its maybe edges stay as they are. -/
structure SameOutcomes (g g' : Graph) (v : Handle) : Prop where
  outcomes : g'.outcomesAt v = g.outcomesAt v
  maybes : ∀ i, g'.outgoing? v (.maybe i) = g.outgoing? v (.maybe i)

variable {g g' g'' : Graph}

namespace SameOutcomes

variable {v : Handle}

theorem refl (g : Graph) (v : Handle) : g.SameOutcomes g v :=
  ⟨rfl, fun _ => rfl⟩

theorem trans (h : g.SameOutcomes g' v) (h' : g'.SameOutcomes g'' v) :
    g.SameOutcomes g'' v where
  outcomes := h'.outcomes.trans h.outcomes
  maybes i := (h'.maybes i).trans (h.maybes i)

theorem agree (h : g.SameOutcomes g' v) (hg : g.MaybesAgree v) :
    g'.MaybesAgree v := by
  intro i
  rw [h.maybes, h.outcomes]
  exact hg i

theorem of_slots (hslots : g'.slots = g.slots)
    (hmaybes : ∀ i, g'.outgoing? v (.maybe i) = g.outgoing? v (.maybe i)) :
    g.SameOutcomes g' v := by
  constructor
  · simp [outcomesAt, outcomes?, vertex?, slot?, hslots]
  · exact hmaybes

theorem of_index (hindex : g'.index = g.index)
    (hslot : (g'.slot? v).bind (fun s => s.vertex.outcomes?) =
      (g.slot? v).bind (fun s => s.vertex.outcomes?)) :
    g.SameOutcomes g' v := by
  constructor
  · simp only [outcomesAt, outcomes?, vertex?, Option.bind_map,
      Function.comp_def, hslot]
  · intro i
    rw [outgoing?, outgoing?, hindex]

end SameOutcomes

theorem Untouched.sameOutcomes {v : Handle} (h : g.Untouched g' v) :
    g.SameOutcomes g' v where
  outcomes := by rw [outcomesAt, outcomes?, h.vertex?_eq]; rfl
  maybes i := h.outgoing (.maybe i)

/-! ## The writers of the graph -/

theorem sameOutcomes_modifySlot {v w : Handle} {f : Slot → Slot}
    (hf : w = v → ∀ s, (f s).vertex.outcomes? = s.vertex.outcomes?) :
    g.SameOutcomes (g.modifySlot v f) w := by
  apply SameOutcomes.of_index
  · rfl
  · rw [slot?_modifySlot]
    by_cases hw : w = v
    · rw [if_pos hw, Option.bind_map]
      exact congrArg _ (funext (hf hw))
    · rw [if_neg hw]

theorem sameOutcomes_setLive (g : Graph) (v w : Handle) (live : Bool) :
    g.SameOutcomes (g.setLive v live) w :=
  sameOutcomes_modifySlot fun _ _ => rfl

theorem sameOutcomes_allocValue {id : ValueId} {x : Vertex} {flags : Flags}
    (hleaf : x.outcomes?.getD [] = []) (v : Handle) :
    g.SameOutcomes (g.allocValue id x flags).1 v := by
  constructor
  · unfold outcomesAt outcomes?
    rw [vertex?_allocValue]
    by_cases hv : v = ⟨g.slots.length⟩
    · rw [if_pos hv, hv, vertex?_fresh]
      exact hleaf
    · rw [if_neg hv]
  · exact fun i => rfl

theorem sameOutcomes_install {e : Edge} {v : Handle}
    (he : e.source = v → e.label.isProperty = true) :
    g.SameOutcomes (g.install e) v := by
  apply SameOutcomes.of_slots
  · rw [install_eq]
  · intro i
    rw [outgoing?_install, if_neg]
    intro hkey
    obtain ⟨hsource, hlabel⟩ := Prod.mk.inj hkey
    have hproperty := he hsource.symm
    rw [← hlabel] at hproperty
    contradiction

theorem sameOutcomes_retire {s v : Handle} {l : Label}
    (hl : s = v → l.isProperty = true) :
    g.SameOutcomes (g.retire s l) v := by
  apply SameOutcomes.of_slots
  · rw [retire_eq]
  · intro i
    rw [outgoing?_retire, if_neg]
    intro hkey
    obtain ⟨hsource, hlabel⟩ := Prod.mk.inj hkey
    have hproperty := hl hsource.symm
    rw [← hlabel] at hproperty
    contradiction

/-! ## Operations that announce nothing -/

theorem sameOutcomes_revealPending (g : Graph) (pending : List Handle)
    (v : Handle) : g.SameOutcomes (g.revealPending pending) v := by
  apply revealPending_keeps (p := fun g' => g.SameOutcomes g' v)
  · exact fun g' w _ hsame => hsame.trans (sameOutcomes_setLive g' w v true)
  · exact .refl g v

theorem sameOutcomes_surface (g : Graph) (w v : Handle) :
    g.SameOutcomes (g.surface w) v :=
  (sameOutcomes_setLive g w v true).trans (sameOutcomes_revealPending _ _ v)

theorem sameOutcomes_resolve (g : Graph) (id : ValueId) (v : Handle) :
    g.SameOutcomes (g.resolve id).1 v := by
  unfold resolve
  cases g.vertexFor? id with
  | some w => exact .refl g v
  | none => exact sameOutcomes_allocValue rfl v

theorem sameOutcomes_resolveEnd (g : Graph) (id : Option ValueId)
    (v : Handle) : g.SameOutcomes (g.resolveEnd id).1 v := by
  cases id with
  | none => exact .refl g v
  | some id => exact sameOutcomes_resolve g id v

theorem sameOutcomes_pushFrame (hg : g.ArenaSound) (value v : Handle) :
    g.SameOutcomes (g.pushFrame value) v := by
  apply SameOutcomes.of_index
  · rw [pushFrame_eq]
  · rw [hg.slot?_pushFrame]
    by_cases hv : v = g.nextFrame
    · rw [if_pos hv, hv, hg.slot?_nextFrame]
      rfl
    · rw [if_neg hv]

theorem sameOutcomes_popFrame {f : Frame}
    (htop : g.vertex? g.stackTop = some (.frame f)) (v : Handle) :
    g.SameOutcomes (g.popFrame f) v := by
  obtain ⟨s, hs, hframe⟩ := vertex?_eq_some_iff.mp htop
  apply SameOutcomes.of_index
  · rfl
  · rw [slot?_popFrame htop]
    by_cases hv : v = g.stackTop
    · rw [if_pos hv, hv, hs, Option.bind_some, hframe]
      rfl
    · rw [if_neg hv]

theorem sameOutcomes_registerBuiltin (g : Graph) (id : ValueId) (v : Handle) :
    g.SameOutcomes (g.registerBuiltin id) v := by
  unfold registerBuiltin
  cases g.vertexFor? id with
  | some w => exact sameOutcomes_modifySlot fun _ _ => rfl
  | none => exact sameOutcomes_allocValue rfl v

theorem sameOutcomes_registerBuiltins (g : Graph) (ids : List ValueId)
    (v : Handle) : g.SameOutcomes (g.registerBuiltins ids) v := by
  apply List.foldlRecOn (motive := fun g' : Graph => g.SameOutcomes g' v)
  · exact .refl g v
  · exact fun g' hsame id _ =>
      hsame.trans (sameOutcomes_registerBuiltin g' id v)

theorem sameOutcomes_release (g : Graph) (vs : List Handle) (v : Handle) :
    g.SameOutcomes (g.release vs) v := by
  apply List.foldlRecOn (motive := fun g' : Graph => g.SameOutcomes g' v)
  · exact .refl g v
  · exact fun g' hsame w _ => hsame.trans (sameOutcomes_setLive g' w v false)

theorem sameOutcomes_push (hg : g.WellFormed) (id : ValueId) (v : Handle) :
    g.SameOutcomes (g.push id) v := by
  have hresolve := sameOutcomes_resolve g id v
  have hg₂ := (hg.resolve id).surfacePushed (g.resolve id).2
  have hsurface : (g.resolve id).1.SameOutcomes
      ((g.resolve id).1.surfacePushed (g.resolve id).2) v := by
    unfold surfacePushed
    split
    · exact sameOutcomes_surface _ _ v
    · exact .refl _ v
  have hframe := sameOutcomes_pushFrame hg₂.toArenaSound (g.resolve id).2 v
  have hmark : (((g.resolve id).1.surfacePushed (g.resolve id).2).pushFrame
      (g.resolve id).2).SameOutcomes (g.push id) v := .of_index rfl rfl
  exact ((hresolve.trans hsurface).trans hframe).trans hmark

theorem sameOutcomes_link (g : Graph) (source target : Option ValueId)
    (label : String) (v : Handle) :
    g.SameOutcomes (g.link source target label) v := by
  have hsource := sameOutcomes_resolveEnd g source v
  have htarget := sameOutcomes_resolveEnd (g.resolveEnd source).1 target v
  have hsurface : ∀ (g : Graph) s t,
      g.SameOutcomes (g.surfaceLinked s t) v := by
    intro g s t
    unfold surfaceLinked
    split
    · exact (sameOutcomes_surface g s v).trans (sameOutcomes_surface _ t v)
    · exact .refl g v
  have hinstall : ∀ (g : Graph) s t,
      g.SameOutcomes (g.install ⟨s, t, .property label⟩).markChanged v :=
    fun g s t => (sameOutcomes_install fun _ => rfl).trans (.of_index rfl rfl)
  exact ((hsource.trans htarget).trans (hsurface _ _ _)).trans
    (hinstall _ _ _)

theorem sameOutcomes_unlink (g : Graph) (source target : Option ValueId)
    (label : String) (v : Handle) :
    g.SameOutcomes (g.unlink source target label) v := by
  have hsource := sameOutcomes_resolveEnd g source v
  have htarget := sameOutcomes_resolveEnd (g.resolveEnd source).1 target v
  have hretire : ∀ (g : Graph) s,
      g.SameOutcomes (g.retire s (.property label)).markChanged v :=
    fun g s => (sameOutcomes_retire fun _ => rfl).trans (.of_index rfl rfl)
  exact (hsource.trans htarget).trans (hretire _ _)

/-- Only an announced value changes outcomes and maybe edges. -/
theorem sameOutcomes_apply (hg : g.WellFormed) {op : Operation}
    (hop : ∀ value, op ≠ .event (.create value)) (v : Handle) :
    g.SameOutcomes (g.apply op) v := by
  cases op with
  | event e =>
      cases e with
      | create value => exact absurd rfl (hop value)
      | push id => exact sameOutcomes_push hg id v
      | pop id =>
          rcases g.apply_pop id with hsame | ⟨f, htop, hpop⟩
          · rw [hsame]
            exact .refl g v
          · rw [hpop]
            exact sameOutcomes_popFrame htop v
      | link source target label => exact sameOutcomes_link g _ _ label v
      | unlink source target label => exact sameOutcomes_unlink g _ _ label v
      | callBoundary => exact .of_index rfl rfl
  | beginBootstrap => exact .of_index rfl rfl
  | endBootstrap => exact .of_index rfl rfl
  | registerBuiltins ids => exact sameOutcomes_registerBuiltins g ids v
  | setGlobal id =>
      cases id with
      | none => exact .of_index rfl rfl
      | some id =>
          exact (sameOutcomes_resolve g id v).trans (.of_index rfl rfl)
  | collect =>
      have hrelease := sameOutcomes_release g g.collect.2 v
      have hrest : (g.release g.collect.2).SameOutcomes g.collect.1 v := by
        rw [(collect_released hg.idle).1]
        exact .of_index rfl rfl
      exact hrelease.trans hrest
  | takeSnapshot => exact .of_index rfl rfl

/-! ## Announcing a value -/

/-- An announced vertex starts anew, without maybe edges. -/
theorem announced_anew (hg : g.WellFormed) (id : ValueId) (x : Vertex)
    (hagree : g.MaybesAgree (g.announce id x).2) :
    (g.announce id x).1.vertex? (g.announce id x).2 = some x ∧
      ∀ i, (g.announce id x).1.outgoing? (g.announce id x).2 (.maybe i) =
        none := by
  unfold announce at hagree ⊢
  cases hknown : g.vertexFor? id with
  | some v =>
      simp only [hknown] at hagree ⊢
      constructor
      · obtain ⟨y, hy, _⟩ := holdsValue_of_valueAt?
          (hg.valueAt?_of_vertexFor? hknown)
        obtain ⟨s, hs, _⟩ := vertex?_eq_some_iff.mp hy
        have hkept : (g.retireOutcomes v).slot? v = some s := by
          rw [slot?, slots_retireOutcomes]
          exact hs
        rw [vertex?, setVertex, slot?_modifySlot, if_pos rfl, hkept]
        rfl
      · intro i
        have hretired := outgoing?_retireOutcomes g v v (.maybe i)
        have hout : ((g.retireOutcomes v).setVertex v x).outgoing? v
            (.maybe i) = (g.retireOutcomes v).outgoing? v (.maybe i) := rfl
        rw [hout, hretired, hagree i]
        by_cases hi : i < (g.outcomesAt v).length
        · rw [if_pos ⟨i, hi, rfl⟩]
        · rw [List.getElem?_eq_none (Nat.le_of_not_lt hi)]
          exact ite_self none
  | none =>
      simp only [hknown] at hagree ⊢
      constructor
      · rw [vertex?_allocValue]
        exact if_pos rfl
      · intro i
        have hfresh : g.outcomesAt ⟨g.slots.length⟩ = [] := by
          simp [outcomesAt, outcomes?, vertex?_fresh]
        have hnone := hagree i
        simp only [allocValue, hfresh, List.getElem?_nil] at hnone
        exact hnone

/-- The outcomes of a union that they do not mention are linked in their
order, from a position on. -/
theorem outgoing?_registerOutcomes (hg : g.WellFormed) {union : Handle}
    (hunion : g.HoldsValue union) (position : Nat) (outcomes : List Value)
    (hids : ∀ id ∈ Value.idsOf outcomes,
      (g.registerOutcomes union position outcomes).1.valueAt? union ≠ some id)
    (hnone : ∀ i ≥ position, g.outgoing? union (.maybe i) = none) (i : Nat) :
    (g.registerOutcomes union position outcomes).1.slot? union =
        g.slot? union ∧
      (g.registerOutcomes union position outcomes).1.outgoing? union
          (.maybe i) =
        if i < position then g.outgoing? union (.maybe i)
        else (g.registerOutcomes union position outcomes).2[i - position]? := by
  induction outcomes generalizing g position with
  | nil =>
      rw [registerOutcomes]
      refine ⟨rfl, ?_⟩
      split
      next => rfl
      next hi => exact hnone i (Nat.le_of_not_lt hi)
  | cons outcome outcomes ih =>
      have hlink := edits_linkOutcome hg hunion position outcome
      have hg₂ := hlink.wellFormed hg
      have hunion₂ := hlink.grows.holdsValue hunion
      have hlater := (grows_linkOutcome g union position outcome).trans
        (edits_registerOutcomes hg₂ hunion₂ (position + 1) outcomes).1.grows
      rw [registerOutcomes_cons] at hids ⊢
      have huntouched := untouched_register hg (v := union) outcome
        fun id hid heq => hids id (by simp [Value.idsOf, hid])
          (hlater.valueAt _ id heq)
      have hslot : (g.linkOutcome union position outcome).slot? union =
          g.slot? union := by
        rw [linkOutcome, install_eq]
        exact huntouched.slot
      have hout : ∀ j,
          (g.linkOutcome union position outcome).outgoing? union (.maybe j) =
            if j = position then some (g.register outcome).2
            else g.outgoing? union (.maybe j) := by
        intro j
        rw [linkOutcome, outgoing?_install, huntouched.outgoing]
        simp
      have htail := ih hg₂ hunion₂ (position + 1)
        (fun id hid => hids id (by simp [Value.idsOf, hid])) (by
          intro j hj
          rw [hout, if_neg (by omega)]
          exact hnone j (by omega))
      constructor
      · exact htail.1.trans hslot
      · rw [htail.2, hout]
        -- Before, at and behind the position of the first outcome.
        rcases Nat.lt_trichotomy i position with hi | rfl | hi
        · rw [if_pos (by omega), if_neg (by omega), if_pos hi]
        · simp
        · have hsub : i - position = (i - (position + 1)) + 1 := by omega
          rw [if_neg (by omega), if_neg (by omega), hsub,
            List.getElem?_cons_succ]

/-- The maybe edges agree with the outcomes wherever a value stands whose id
is in question, and wherever none stands. -/
def AgreesFor (g : Graph) (p : ValueId → Prop) : Prop :=
  ∀ v, (∀ id, g.valueAt? v = some id → p id) → g.MaybesAgree v

theorem AgreesFor.announce {p : ValueId → Prop} (hagree : g.AgreesFor p)
    (hg : g.WellFormed) {id : ValueId} {x : Vertex}
    (hx : x.valueId? = some id) (hleaf : x.outcomes?.getD [] = []) :
    (g.announce id x).1.AgreesFor p := by
  intro v hv
  have hgrows := (edits_announce hg hx hleaf).1.grows
  have hold : g.MaybesAgree v :=
    hagree v fun i hi => hv i (hgrows.valueAt v i hi)
  by_cases hne : v = (g.announce id x).2
  · subst hne
    have hanew := announced_anew hg id x hold
    intro i
    rw [hanew.2, outcomesAt, outcomes?, hanew.1, Option.bind_some, hleaf]
    rfl
  · exact (untouched_announce g id x hne).sameOutcomes.agree hold

theorem outcomesAt_setOutcomes {v : Handle} {about : Profile}
    {old : List Handle} (hunion : g.vertex? v = some (.union about old))
    (outcomes : List Handle) :
    (g.setOutcomes v outcomes).outcomesAt v = outcomes := by
  obtain ⟨s, hs, hvertex⟩ := vertex?_eq_some_iff.mp hunion
  unfold setOutcomes outcomesAt outcomes? vertex?
  rw [slot?_modifySlot, if_pos rfl, hs]
  simp [hvertex, Vertex.outcomes?]

/-- The outcome list is stored when all outcomes are linked. -/
theorem AgreesFor.store {p : ValueId → Prop} {union : Handle}
    {about : Profile} {outcomes : List Value} (hg : g.WellFormed)
    (hunion : g.valueAt? union = some about.id)
    (hanew : p about.id → g.vertex? union = some (.union about []) ∧
      ∀ i, g.outgoing? union (.maybe i) = none)
    (hfresh : p about.id → about.id ∉ Value.idsOf outcomes)
    (hrest : (g.registerOutcomes union 0 outcomes).1.AgreesFor
      fun id => p id ∧ id ≠ about.id) :
    ((g.registerOutcomes union 0 outcomes).1.setOutcomes union
      (g.registerOutcomes union 0 outcomes).2).AgreesFor p := by
  have hvalue := holdsValue_of_valueAt? hunion
  have houtcomes := edits_registerOutcomes hg hvalue 0 outcomes
  have hg₂ := houtcomes.1.wellFormed hg
  have hunion₂ := houtcomes.1.grows.valueAt _ _ hunion
  have hset := (edits_setOutcomes (v := union) hg₂ houtcomes.2).grows
  intro v hv
  by_cases hne : v = union
  · subst hne
    have hp := hv about.id (hset.valueAt _ _ hunion₂)
    have hlinked := outgoing?_registerOutcomes hg hvalue 0 outcomes
      (fun id hid heq => by
        rw [hunion₂] at heq
        exact hfresh hp (Option.some.inj heq ▸ hid))
      (fun j _ => (hanew hp).2 j)
    have hvertex : (g.registerOutcomes v 0 outcomes).1.vertex? v =
        some (.union about []) := by
      rw [vertex?, (hlinked 0).1]
      exact (hanew hp).1
    intro i
    have hout := (hlinked i).2
    rw [if_neg (Nat.not_lt_zero i)] at hout
    rw [outcomesAt_setOutcomes hvertex]
    exact hout
  · have hother := hrest v fun id hid => by
      have hlater := hset.valueAt v id hid
      refine ⟨hv id hlater, ?_⟩
      rintro rfl
      exact hne (hg₂.eq_of_valueAt? hid hunion₂)
    exact (Untouched.modifySlot hne).sameOutcomes.agree hother

mutual

/-- Registration keeps the agreement for ids that recur in no union. -/
theorem agreesFor_register {g : Graph} (hg : g.WellFormed)
    {p : ValueId → Prop} (hagree : g.AgreesFor p) :
    (value : Value) → (∀ id, p id → ¬ value.Recurs id) →
      (g.register value).1.AgreesFor p
  | .plain about, _ => by
      rw [register]
      exact hagree.announce hg rfl rfl
  | .union about outcomes, hp => by
      have hannounce := edits_announce (x := .union about []) hg rfl rfl
      have hg₁ := hannounce.1.wellFormed hg
      have hagree₁ := hagree.announce (x := .union about []) hg rfl rfl
      have hheld := valueAt?_announce (x := .union about []) hg rfl rfl
      have hanew : p about.id → _ := fun hid =>
        announced_anew hg about.id (.union about [])
          (hagree _ fun i hi => by
            have hsame := hannounce.1.grows.valueAt _ i hi
            rw [hheld] at hsame
            rwa [← Option.some.inj hsame])
      -- While its outcomes are registered, the union itself need not agree.
      have hrest := agreesFor_registerOutcomes
        (p := fun id => p id ∧ id ≠ about.id) hg₁ hheld
        (fun v hv => hagree₁ v fun id hid => (hv id hid).1)
        (fun h => h.2 rfl) 0 outcomes
        (fun id hid hrecurs => hp id hid.1 (Or.inr hrecurs))
      rw [register]
      exact AgreesFor.store hg₁ hheld hanew
        (fun hid hmem => hp about.id hid (Or.inl ⟨rfl, hmem⟩)) hrest

theorem agreesFor_registerOutcomes {g : Graph} (hg : g.WellFormed)
    {p : ValueId → Prop} {union : Handle} {unionId : ValueId}
    (hunion : g.valueAt? union = some unionId) (hagree : g.AgreesFor p)
    (hunionId : ¬ p unionId) (position : Nat) :
    (outcomes : List Value) → (∀ id, p id → ¬ Value.AnyRecurs id outcomes) →
      (g.registerOutcomes union position outcomes).1.AgreesFor p
  | [], _ => by
      rw [registerOutcomes]
      exact hagree
  | outcome :: outcomes, hp => by
      have hlink := edits_linkOutcome hg
        (holdsValue_of_valueAt? hunion) position outcome
      have hunion₂ := hlink.grows.valueAt _ _ hunion
      have hagree₁ := agreesFor_register hg hagree outcome
        fun id hid hrecurs => hp id hid (Or.inl hrecurs)
      have hagree₂ : (g.linkOutcome union position outcome).AgreesFor p := by
        intro v hv
        have hne : union ≠ v := by
          rintro rfl
          exact hunionId (hv unionId hunion₂)
        have hold := hagree₁ v fun id hid =>
          hv id ((grows_linkOutcome g union position outcome).valueAt v id hid)
        exact (sameOutcomes_install fun h => absurd h hne).agree hold
      rw [registerOutcomes_cons]
      exact agreesFor_registerOutcomes (hlink.wellFormed hg) hunion₂ hagree₂
        hunionId (position + 1) outcomes
        fun id hid hrecurs => hp id hid (Or.inr hrecurs)

end

/-! ## Runs -/

theorem AgreesFor.apply {p : ValueId → Prop} (hagree : g.AgreesFor p)
    (hg : g.WellFormed) (op : Operation)
    (hop : ∀ value, op = .event (.create value) →
      ∀ id, p id → ¬ value.Recurs id) : (g.apply op).AgreesFor p := by
  by_cases hcreate : ∃ value, op = .event (.create value)
  · obtain ⟨value, rfl⟩ := hcreate
    exact agreesFor_register hg hagree value (hop value rfl)
  · have hother : ∀ value, op ≠ .event (.create value) :=
      fun value heq => hcreate ⟨value, heq⟩
    intro v hv
    have hold := hagree v fun id hid => hv id (hg.valueAt?_apply op hid)
    exact (sameOutcomes_apply hg hother v).agree hold

theorem AgreesFor.run {p : ValueId → Prop} (hagree : g.AgreesFor p)
    (hg : g.WellFormed) (ops : List Operation)
    (hops : ∀ value, .event (.create value) ∈ ops →
      ∀ id, p id → ¬ value.Recurs id) : (g.run ops).AgreesFor p := by
  unfold Graph.run
  induction ops generalizing g with
  | nil => exact hagree
  | cons op ops ih =>
      have hfirst := hagree.apply hg op fun value heq =>
        hops value (heq ▸ List.mem_cons_self ..)
      exact ih hfirst (hg.apply op) fun value hmem =>
        hops value (List.mem_cons_of_mem op hmem)

theorem agreesFor_new (p : ValueId → Prop) : new.AgreesFor p := by
  intro v _ i
  rw [outcomesAt, outcomes?_new]
  rfl

theorem maybesAgree_iff {v : Handle} :
    g.MaybesAgree v ↔
      ∀ (i : Nat) (t : Handle), g.outgoing? v (.maybe i) = some t ↔
        ∃ about outcomes, g.vertex? v = some (.union about outcomes) ∧
          outcomes[i]? = some t := by
  have hunion : ∀ (i : Nat) (t : Handle), (g.outcomesAt v)[i]? = some t ↔
      ∃ about outcomes, g.vertex? v = some (.union about outcomes) ∧
        outcomes[i]? = some t := by
    intro i t
    unfold outcomesAt outcomes?
    cases g.vertex? v with
    | none => simp
    | some x => cases x <;> simp [Vertex.outcomes?]
  simp only [← hunion]
  constructor
  · intro h i t
    rw [h i]
  · exact fun h i => Option.ext (h i)

/-- In every graph that operations make, the maybe edges of a vertex lead to
the outcomes of a union position by position, and there are no others, unless
the run announced the value of the vertex within its own outcomes. -/
theorem maybes_agree_unless_recurring (ops : List Operation) (v : Handle)
    (hcalm : ∀ id, (new.run ops).valueAt? v = some id →
      ∀ value, .event (.create value) ∈ ops → ¬ value.Recurs id) :
    ∀ i t, (new.run ops).outgoing? v (.maybe i) = some t ↔
      ∃ about outcomes,
        (new.run ops).vertex? v = some (.union about outcomes) ∧
          outcomes[i]? = some t := by
  have hagree := (agreesFor_new fun id =>
    ∀ value, .event (.create value) ∈ ops → ¬ value.Recurs id).run
      wellFormed_new ops fun value hmem id hid => hid value hmem
  exact maybesAgree_iff.mp (hagree v hcalm)

/-- A union with two outcomes, one of them a union that mentions the other
outcome again; then the outer union is announced with one outcome only. -/
def shrinkingUnion : List Operation :=
  [.event (.create (.either ⟨10⟩
      [.primitive ⟨11⟩, .either ⟨12⟩ [.object ⟨11⟩, .primitive ⟨11⟩]])),
    .event (.push ⟨10⟩),
    .event (.create (.either ⟨10⟩ [.object ⟨13⟩]))]

theorem not_recurs_shrinkingUnion (id : ValueId) (value : Value)
    (hmem : .event (.create value) ∈ shrinkingUnion) : ¬ value.Recurs id := by
  simp only [shrinkingUnion, List.mem_cons, List.not_mem_nil, or_false,
    Operation.event.injEq, Event.create.injEq, reduceCtorEq, false_or] at hmem
  rcases hmem with rfl | rfl
  · simp only [Value.either, Value.primitive, Value.object, Value.Recurs,
      Value.AnyRecurs, or_false, false_or]
    rintro (⟨rfl, hmem⟩ | ⟨rfl, hmem⟩)
    · exact absurd hmem (by decide)
    · exact absurd hmem (by decide)
  · simp only [Value.either, Value.object, Value.Recurs, Value.AnyRecurs,
      or_false]
    rintro ⟨rfl, hmem⟩
    exact absurd hmem (by decide)

theorem maybes_agree_shrinkingUnion :
    (∀ id, (new.run shrinkingUnion).valueAt? ⟨2⟩ = some id →
      ∀ value, .event (.create value) ∈ shrinkingUnion →
        ¬ value.Recurs id) ∧
    ∀ i t, (new.run shrinkingUnion).outgoing? ⟨2⟩ (.maybe i) = some t ↔
      ∃ about outcomes,
        (new.run shrinkingUnion).vertex? ⟨2⟩ = some (.union about outcomes) ∧
          outcomes[i]? = some t :=
  ⟨fun id _ => not_recurs_shrinkingUnion id,
    maybes_agree_unless_recurring shrinkingUnion ⟨2⟩
      fun id _ => not_recurs_shrinkingUnion id⟩

/-- A union announced within itself: the inner announcement writes over the
first maybe edge of the outer one, whose outcome list is stored all the same. -/
def recurringUnion : List Operation :=
  [.event (.create (.either ⟨10⟩
    [.primitive ⟨11⟩, .either ⟨10⟩ [.primitive ⟨12⟩, .primitive ⟨13⟩]]))]

theorem recurring_union_disagrees :
    ¬ ∀ i t, (new.run recurringUnion).outgoing? ⟨2⟩ (.maybe i) = some t ↔
      ∃ about outcomes,
        (new.run recurringUnion).vertex? ⟨2⟩ = some (.union about outcomes) ∧
          outcomes[i]? = some t := by
  rw [← maybesAgree_iff]
  intro hagree
  exact absurd (hagree 0) (by decide)

end Graph

end LiveHeap
