import LiveHeap.Proofs.Graph.Opening

/-!
# What comes to light with a named builtin

Surfacing goes from vertex to vertex through hidden builtins.  When it ends
there is no way left to go on: whatever hidden builtin the index led to from a
surfaced vertex is live.  Outside the bootstrap a push or a link surfaces what
it names if there is a builtin among that.  No other event changes which
builtins are live.
-/

namespace LiveHeap.Graph

/-- The index leads from the first vertex to the second one, which is a hidden
builtin. -/
def RevealStep (g : Graph) (v w : Handle) : Prop :=
  w ∈ g.successors v ∧ g.isHidden w = true

/-- Hidden builtins alone lead from the first vertex to the second one, which is
one of them unless it is the first vertex itself. -/
def Uncovers (g : Graph) : Handle → Handle → Prop :=
  Relation.ReflTransGen g.RevealStep

variable {g g' g'' : Graph} {v w : Handle} {pending : List Handle}

/-! ## Surfacing comes to an end -/

theorem isHidden_iff :
    g.isHidden v = true ↔ g.isBuiltin v = true ∧ g.isLive v = false := by
  unfold isHidden
  rw [Bool.and_eq_true, Bool.not_eq_true']

theorem isHidden_show (g : Graph) (v w : Handle) :
    (g.setLive v true).isHidden w = true ↔ g.isHidden w = true ∧ w ≠ v := by
  rw [isHidden_iff, isHidden_iff, isBuiltin_setLive, isLive_setLive]
  by_cases hw : w = v
  · cases hs : g.slot? v with
    | none => simp [hw, isBuiltin_of_empty hs]
    | some s => simp [hw]
  · simp [hw]

theorem isLive_show_iff (hv : g.slot? v ≠ none) :
    (g.setLive v true).isLive w = true ↔ g.isLive w = true ∨ w = v := by
  rw [isLive_setLive]
  by_cases hw : w = v
  · simpa [hw] using Option.isSome_iff_ne_none.mpr hv
  · simp [hw]

theorem isLive_show_of_live (hw : g.isLive w = true) (v : Handle) :
    (g.setLive v true).isLive w = true := by
  rw [isLive_setLive]
  split
  next heq =>
    cases hs : g.slot? v with
    | none => simp [isLive, heq, hs] at hw
    | some s => rfl
  next => exact hw

theorem isLive_revealPending_of_live (hw : g.isLive w = true)
    (pending : List Handle) : (g.revealPending pending).isLive w = true := by
  apply revealPending_keeps (p := fun g' => g'.isLive w = true)
  · exact fun g' v _ hlive => isLive_show_of_live hlive v
  · exact hw

theorem isLive_surface_of_live (hw : g.isLive w = true) (v : Handle) :
    (g.surface v).isLive w = true :=
  isLive_revealPending_of_live (isLive_show_of_live hw v) _

/-- The shown vertices are live in the second graph, and nothing stays hidden
there that a shown vertex, or a builtin that came to light, led to. -/
structure Surfaced (g g' : Graph) (shown : Handle → Prop) : Prop where
  live : ∀ v, shown v → g'.isLive v = true
  closed : ∀ v w, shown v ∨ g.isHidden v = true → g'.isLive v = true →
    g.RevealStep v w → g'.isLive w = true

theorem Surfaced.mono {shown shown' : Handle → Prop}
    (h : g.Surfaced g' shown) (hless : ∀ v, shown' v → shown v) :
    g.Surfaced g' shown' where
  live v hv := h.live v (hless v hv)
  closed v w hv := h.closed v w (hv.imp (hless v) id)

theorem slot?_ne_none_of_isHidden (hv : g.isHidden v = true) :
    g.slot? v ≠ none := by
  intro hs
  have hbuiltin := (isHidden_iff.mp hv).1
  rw [isBuiltin_of_empty hs] at hbuiltin
  contradiction

/-- One vertex is shown, and the vertices it leads to become pending. -/
theorem Surfaced.of_show (hv : g.slot? v ≠ none)
    (h : Surfaced (g.setLive v true)
      ((g.setLive v true).revealPending
        ((g.setLive v true).successors v ++ pending))
      fun w => w ∈ (g.setLive v true).successors v ++ pending ∧
        (g.setLive v true).isHidden w = true) :
    g.Surfaced
      ((g.setLive v true).revealPending
        ((g.setLive v true).successors v ++ pending))
      fun w => w = v ∨ w ∈ pending ∧ g.isHidden w = true := by
  have hfirst : (g.setLive v true).isLive v = true :=
    (isLive_show_iff hv).mpr (Or.inr rfl)
  have hself := isLive_revealPending_of_live hfirst
    ((g.setLive v true).successors v ++ pending)
  constructor
  · rintro w (rfl | ⟨hmem, hhidden⟩)
    · exact hself
    · by_cases hw : w = v
      · rwa [hw]
      · exact h.live w ⟨List.mem_append_right _ hmem,
          (isHidden_show g v w).mpr ⟨hhidden, hw⟩⟩
  · intro u w hu hlive hstep
    by_cases hw : w = v
    · rwa [hw]
    · have hhidden := (isHidden_show g v w).mpr ⟨hstep.2, hw⟩
      by_cases huv : u = v
      · rw [huv] at hstep
        exact h.live w ⟨List.mem_append_left _ hstep.1, hhidden⟩
      · have hu' : g.isHidden u = true := by
          rcases hu with (heq | hpending) | hold
          · exact absurd heq huv
          · exact hpending.2
          · exact hold
        exact h.closed u w
          (Or.inr ((isHidden_show g v u).mpr ⟨hu', huv⟩)) hlive
          ⟨hstep.1, hhidden⟩

theorem surfaced_revealPending (g : Graph) (pending : List Handle) :
    g.Surfaced (g.revealPending pending) fun w =>
      w ∈ pending ∧ g.isHidden w = true := by
  induction g, pending using revealPending.induct with
  | case1 g =>
      -- Nothing came to light, so there is nothing to go on from.
      rw [revealPending]
      constructor
      · exact fun v hv => absurd hv.1 List.not_mem_nil
      · intro v w hv hlive hstep
        rcases hv with hv | hv
        · exact absurd hv.1 List.not_mem_nil
        · rw [(isHidden_iff.mp hv).2] at hlive
          contradiction
  | case2 g v pending hhidden g' ih =>
      have hshown := Surfaced.of_show (slot?_ne_none_of_isHidden hhidden) ih
      rw [revealPending, dif_pos hhidden]
      apply hshown.mono
      rintro w ⟨hmem, hw⟩
      rcases List.mem_cons.mp hmem with heq | hmem
      · exact Or.inl heq
      · exact Or.inr ⟨hmem, hw⟩
  | case3 g v pending hseen ih =>
      rw [revealPending, dif_neg hseen]
      apply ih.mono
      rintro w ⟨hmem, hw⟩
      rcases List.mem_cons.mp hmem with rfl | hmem
      · exact absurd hw hseen
      · exact ⟨hmem, hw⟩

theorem surfaced_surface (hv : g.slot? v ≠ none) :
    g.Surfaced (g.surface v) (· = v) := by
  have hreveal := surfaced_revealPending (g.setLive v true)
    ((g.setLive v true).successors v ++ [])
  have hshown := Surfaced.of_show hv hreveal
  rw [List.append_nil] at hshown
  exact hshown.mono fun w hw => Or.inl hw

theorem Surfaced.live_of_uncovers {shown : Handle → Prop}
    (h : g.Surfaced g' shown) (hv : shown v) (hpath : g.Uncovers v w) :
    g'.isLive w = true := by
  have hall : (shown w ∨ g.isHidden w = true) ∧ g'.isLive w = true := by
    induction hpath with
    | refl => exact ⟨Or.inl hv, h.live v hv⟩
    | tail _ hstep ih =>
        exact ⟨Or.inr hstep.2, h.closed _ _ ih.1 ih.2 hstep⟩
  exact hall.2

theorem successors_surface (g : Graph) (v w : Handle) :
    (g.surface v).successors w = g.successors w := by
  have hsame := alike_of_core (core_surface g v)
  unfold successors
  rw [hsame.index]

/-- Two vertices that are surfaced one after the other.  What the first one
brought to light does not count as hidden for the second one, but then nothing
hidden is left behind it. -/
theorem surfaced_pair {s t : Handle} (hs : g.slot? s ≠ none)
    (ht : g.slot? t ≠ none) :
    g.Surfaced ((g.surface s).surface t) fun v => v = s ∨ v = t := by
  have hsource := surfaced_surface hs
  have htarget := surfaced_surface (g := g.surface s) (v := t)
    fun hnone => ht ((slot?_surface_eq_none g s t).mp hnone)
  constructor
  · rintro v (rfl | rfl)
    · exact isLive_surface_of_live (hsource.live v rfl) t
    · exact htarget.live v rfl
  · intro u w hu hlive hstep
    by_cases hfirst : (g.surface s).isLive w = true
    · exact isLive_surface_of_live hfirst t
    · have hhidden : ∀ v, (g.surface s).isLive v ≠ true →
          g.isHidden v = true → (g.surface s).isHidden v = true := by
        intro v hdark hv
        rw [isHidden_iff, isBuiltin_surface, Bool.eq_false_iff]
        exact ⟨(isHidden_iff.mp hv).1, hdark⟩
      have hstep' : (g.surface s).RevealStep u w := by
        refine ⟨?_, hhidden w hfirst hstep.2⟩
        rw [successors_surface]
        exact hstep.1
      by_cases huv : u = t
      · exact htarget.closed u w (Or.inl huv) hlive hstep'
      · have hu' : u = s ∨ g.isHidden u = true := by
          rcases hu with (heq | heq) | hold
          · exact Or.inl heq
          · exact absurd heq huv
          · exact Or.inr hold
        -- A live vertex here would have brought the next one to light.
        have hdark : (g.surface s).isLive u ≠ true :=
          fun hshown => hfirst (hsource.closed u w hu' hshown hstep)
        have hold : g.isHidden u = true := by
          rcases hu' with heq | hold
          · exact absurd (heq ▸ hsource.live s rfl) hdark
          · exact hold
        exact htarget.closed u w (Or.inr (hhidden u hdark hold)) hlive hstep'

/-! ## Changes that leave the builtins alone -/

/-- The same vertices are builtins, and each of them is live or hidden as
before. -/
structure KeepsBuiltins (g g' : Graph) : Prop where
  builtin : ∀ v, g'.isBuiltin v = g.isBuiltin v
  live : ∀ v, g.isBuiltin v = true → g'.isLive v = g.isLive v
  bootstrapping : g'.bootstrapping = g.bootstrapping

namespace KeepsBuiltins

theorem of_slots (hslots : g'.slots = g.slots)
    (hphase : g'.bootstrapping = g.bootstrapping) : g.KeepsBuiltins g' := by
  have hslot : ∀ v, g'.slot? v = g.slot? v := by
    intro v
    rw [slot?, slot?, hslots]
  exact ⟨fun v => isBuiltin_congr (hslot v), fun v _ => isLive_congr (hslot v),
    hphase⟩

theorem refl (g : Graph) : g.KeepsBuiltins g := of_slots rfl rfl

theorem trans (h : g.KeepsBuiltins g') (h' : g'.KeepsBuiltins g'') :
    g.KeepsBuiltins g'' where
  builtin v := (h'.builtin v).trans (h.builtin v)
  live v hv := (h'.live v ((h.builtin v).trans hv)).trans (h.live v hv)
  bootstrapping := h'.bootstrapping.trans h.bootstrapping

theorem modifySlot {f : Slot → Slot} (hflags : ∀ s, (f s).flags = s.flags)
    (g : Graph) (v : Handle) : g.KeepsBuiltins (g.modifySlot v f) := by
  constructor
  · intro w
    unfold isBuiltin
    rw [slot?_modifySlot]
    by_cases hw : w = v <;> cases g.slot? w <;> simp [hw, hflags]
  · intro w _
    unfold isLive
    rw [slot?_modifySlot]
    by_cases hw : w = v <;> cases g.slot? w <;> simp [hw, hflags]
  · rfl

/-- A place that holds no builtin gets a vertex that is none, or gets empty. -/
theorem put {o : Option Slot} (hold : g.isBuiltin v = false)
    (hslot : ∀ w, g'.slot? w = if w = v then o else g.slot? w)
    (hnew : ∀ s, o = some s → s.flags.builtin = false)
    (hphase : g'.bootstrapping = g.bootstrapping) : g.KeepsBuiltins g' := by
  have hother : ∀ w, w ≠ v → g'.slot? w = g.slot? w := by
    intro w hw
    rw [hslot, if_neg hw]
  constructor
  · intro w
    by_cases hw : w = v
    · have hput : g'.slot? w = o := by
        rw [hslot, if_pos hw]
      rw [hw] at hput ⊢
      rw [hold]
      cases ho : o with
      | none => exact isBuiltin_of_empty (hput.trans ho)
      | some s =>
          rw [isBuiltin_of_slot? (hput.trans ho)]
          exact hnew s ho
    · exact isBuiltin_congr (hother w hw)
  · intro w hw
    by_cases heq : w = v
    · rw [heq, hold] at hw
      contradiction
    · exact isLive_congr (hother w heq)
  · exact hphase

theorem uncovers (h : g.KeepsBuiltins g') (hindex : g'.index = g.index)
    (hpath : g.Uncovers v w) : g'.Uncovers v w := by
  refine Relation.ReflTransGen.mono ?_ _ _ hpath
  intro a b hstep
  constructor
  · rw [successors, hindex]
    exact hstep.1
  · have hb := isHidden_iff.mp hstep.2
    rw [isHidden_iff, h.builtin, h.live b hb.1]
    exact hb

end KeepsBuiltins

theorem keptByRegistration_keepsBuiltins (hphase : g.bootstrapping = false) :
    KeptByRegistration g.KeepsBuiltins where
  rewire h _ _ := h.trans (.of_slots rfl rfl)
  setVertex h _ _ := by
    apply h.trans
    apply KeepsBuiltins.modifySlot
    exact fun _ => rfl
  setOutcomes h _ _ := by
    apply h.trans
    apply KeepsBuiltins.modifySlot
    intro s
    split <;> rfl
  allocValue {g'} h id x := by
    have hflags : g'.registrationFlags = ⟨true, false⟩ := by
      unfold registrationFlags
      simp [h.bootstrapping, hphase]
    refine h.trans (.put ?_ (slot?_allocValue g' id x _) ?_ rfl)
    · exact isBuiltin_of_empty (slot?_fresh g')
    · intro s hs
      obtain rfl := Option.some.inj hs
      rw [hflags]

theorem keepsBuiltins_pushFrame (hg : g.ArenaSound) (value : Handle) :
    g.KeepsBuiltins (g.pushFrame value) := by
  have hphase : (g.pushFrame value).bootstrapping = g.bootstrapping := by
    rw [pushFrame_eq]
  apply KeepsBuiltins.put _ (hg.slot?_pushFrame value) _ hphase
  · exact isBuiltin_of_empty hg.slot?_nextFrame
  · intro s hs
    obtain rfl := Option.some.inj hs
    rfl

theorem keepsBuiltins_popFrame (hg : g.ArenaSound) {f : Frame}
    (htop : g.vertex? g.stackTop = some (.frame f)) :
    g.KeepsBuiltins (g.popFrame f) := by
  obtain ⟨s, hs, hframe⟩ := vertex?_eq_some_iff.mp htop
  have hflags : s.flags = ⟨true, false⟩ := by
    apply hg.structural_flags _ s hs
    rw [hframe]
    rfl
  apply KeepsBuiltins.put _ (slot?_popFrame htop) nofun rfl
  rw [isBuiltin_of_slot? hs, hflags]

/-! ## Events outside the bootstrap -/

/-- There is a builtin among what the event names. -/
def NamesBuiltin (g : Graph) (e : Event) : Prop :=
  ∃ v ∈ g.namedEnds e, g.isBuiltin v = true

theorem namesBuiltin_push_iff {id : ValueId} :
    g.NamesBuiltin (.push id) ↔ g.isBuiltin (g.resolve id).2 = true := by
  simp [NamesBuiltin, namedEnds]

theorem index_resolve (g : Graph) (id : ValueId) :
    (g.resolve id).1.index = g.index := by
  unfold resolve
  cases g.vertexFor? id <;> rfl

theorem index_resolveEnd (g : Graph) (id : Option ValueId) :
    (g.resolveEnd id).1.index = g.index := by
  cases id with
  | none => rfl
  | some id => exact index_resolve g id

theorem WellFormed.slot?_ne_none_of_isEnd (hg : g.WellFormed)
    (hv : g.IsEnd v) : g.slot? v ≠ none := by
  intro hs
  obtain ⟨x, hx⟩ := hg.vertex?_of_isEnd hv
  rw [vertex?, hs] at hx
  contradiction

theorem isLive_pushFrame_of_live (hg : g.ArenaSound) (value : Handle)
    (hw : g.isLive w = true) : (g.pushFrame value).isLive w = true := by
  unfold isLive
  rw [hg.slot?_pushFrame]
  by_cases hframe : w = g.nextFrame
  · rw [if_pos hframe]
  · rwa [if_neg hframe]

section Event

variable (hg : g.WellFormed) (hphase : g.bootstrapping = false)

include hphase

theorem keepsBuiltins_resolve (id : ValueId) :
    g.KeepsBuiltins (g.resolve id).1 :=
  (keptByRegistration_keepsBuiltins hphase).resolve (.refl g) id

theorem keepsBuiltins_ends (source target : Option ValueId) :
    g.KeepsBuiltins ((g.resolveEnd source).1.resolveEnd target).1 := by
  have hkept := keptByRegistration_keepsBuiltins hphase
  exact hkept.resolveEnd (hkept.resolveEnd (.refl g) source) target

theorem linkSurfaces_iff (source target : Option ValueId) (label : String) :
    let ends := (g.resolveEnd source).1.resolveEnd target
    ends.1.linkSurfaces (g.resolveEnd source).2 ends.2 = true ↔
      g.NamesBuiltin (.link source target label) := by
  intro ends
  have hkept := keepsBuiltins_ends hphase source target
  unfold linkSurfaces NamesBuiltin namedEnds
  rw [hkept.bootstrapping, hkept.builtin, hkept.builtin, hphase]
  simp [ends]

theorem keepsBuiltins_link {source target : Option ValueId} {label : String}
    (hunnamed : ¬ g.NamesBuiltin (.link source target label)) :
    g.KeepsBuiltins (g.link source target label) := by
  let s := (g.resolveEnd source).2
  let t := ((g.resolveEnd source).1.resolveEnd target).2
  let ends := ((g.resolveEnd source).1.resolveEnd target).1
  have hends : g.KeepsBuiltins ends := keepsBuiltins_ends hphase source target
  have hsame : ends.surfaceLinked s t = ends := by
    unfold surfaceLinked
    exact if_neg (mt (linkSurfaces_iff hphase source target label).mp hunnamed)
  have hinstall := (keptByRegistration_keepsBuiltins hphase).install hends
    ⟨s, t, .property label⟩
  rw [← hsame] at hinstall
  exact hinstall.trans (.of_slots rfl rfl)

include hg

theorem keepsBuiltins_push {id : ValueId}
    (hunnamed : ¬ g.NamesBuiltin (.push id)) :
    g.KeepsBuiltins (g.push id) := by
  have hresolve := keepsBuiltins_resolve hphase id
  have hsame : (g.resolve id).1.surfacePushed (g.resolve id).2 =
      (g.resolve id).1 := by
    unfold surfacePushed
    rw [hresolve.builtin, if_neg]
    intro hbuiltin
    exact hunnamed
      (namesBuiltin_push_iff.mpr (Bool.and_eq_true_iff.mp hbuiltin).2)
  have hframe := keepsBuiltins_pushFrame (hg.resolve id).toArenaSound
    (g.resolve id).2
  unfold push
  simp only [hsame]
  exact (hresolve.trans hframe).trans (.of_slots rfl rfl)

/-- An event that names no builtin surfaces nothing. -/
theorem keepsBuiltins_event {e : Event} (hunnamed : ¬ g.NamesBuiltin e) :
    g.KeepsBuiltins (g.apply (.event e)) := by
  have hkept := keptByRegistration_keepsBuiltins hphase
  cases e with
  | create value =>
      exact (hkept.register (.refl g) value).trans (.of_slots rfl rfl)
  | push id => exact keepsBuiltins_push hg hphase hunnamed
  | pop id =>
      rcases g.apply_pop id with hsame | ⟨f, htop, heq⟩
      · rw [hsame]
        exact .refl g
      · rw [heq]
        exact keepsBuiltins_popFrame hg.toArenaSound htop
  | link source target label =>
      exact keepsBuiltins_link hphase hunnamed
  | unlink source target label =>
      have hretire := hkept.retire (keepsBuiltins_ends hphase source target)
        (g.resolveEnd source).2 (.property label)
      exact hretire.trans (.of_slots rfl rfl)
  | callBoundary => exact .of_slots rfl rfl

theorem live_of_push {id : ValueId} (hnamed : g.NamesBuiltin (.push id))
    (hpath : g.Uncovers (g.resolve id).2 w) : (g.push id).isLive w = true := by
  have hresolve := keepsBuiltins_resolve hphase id
  have hsurface : (g.resolve id).1.surfacePushed (g.resolve id).2 =
      (g.resolve id).1.surface (g.resolve id).2 := by
    unfold surfacePushed
    rw [hresolve.builtin, hresolve.bootstrapping,
      namesBuiltin_push_iff.mp hnamed, hphase]
    rfl
  have hshown := surfaced_surface (holdsValue_resolve hg id).slot?_ne_none
  have hlive := hshown.live_of_uncovers rfl
    (hresolve.uncovers (index_resolve g id) hpath)
  rw [← hsurface] at hlive
  have hsurfaced := (hg.resolve id).surfacePushed (g.resolve id).2
  have hframe := isLive_pushFrame_of_live hsurfaced.toArenaSound
    (g.resolve id).2 hlive
  exact hframe

theorem live_of_link {source target : Option ValueId} {label : String}
    (hnamed : g.NamesBuiltin (.link source target label))
    (hv : v ∈ g.namedEnds (.link source target label))
    (hpath : g.Uncovers v w) :
    (g.link source target label).isLive w = true := by
  let s := (g.resolveEnd source).2
  let t := ((g.resolveEnd source).1.resolveEnd target).2
  let ends := ((g.resolveEnd source).1.resolveEnd target).1
  have hends : g.KeepsBuiltins ends := keepsBuiltins_ends hphase source target
  have hfirst := edits_resolveEnd hg source
  have hg₁ := hfirst.1.wellFormed hg
  have hsecond := edits_resolveEnd hg₁ target
  have hg₂ := hsecond.1.wellFormed hg₁
  have hs : ends.slot? s ≠ none :=
    hg₂.slot?_ne_none_of_isEnd (hsecond.1.grows.isEnd hfirst.2)
  have ht : ends.slot? t ≠ none := hg₂.slot?_ne_none_of_isEnd hsecond.2
  have hindex : ends.index = g.index :=
    (index_resolveEnd _ target).trans (index_resolveEnd g source)
  have hsurface : ends.surfaceLinked s t = (ends.surface s).surface t := by
    unfold surfaceLinked
    exact if_pos ((linkSurfaces_iff hphase source target label).mpr hnamed)
  have hend : v = s ∨ v = t := by simpa [namedEnds] using hv
  have hlive := (surfaced_pair hs ht).live_of_uncovers hend
    (hends.uncovers hindex hpath)
  have hslots : (g.link source target label).slots =
      (ends.surfaceLinked s t).slots := slots_link g source target label
  rw [← hsurface] at hlive
  unfold isLive slot? at hlive ⊢
  rwa [hslots]

/-- An event that names a builtin brings all to light that what it names
uncovers. -/
theorem live_of_named {e : Event} (hnamed : g.NamesBuiltin e)
    (hv : v ∈ g.namedEnds e) (hpath : g.Uncovers v w) :
    (g.apply (.event e)).isLive w = true := by
  cases e with
  | push id =>
      obtain rfl := List.mem_singleton.mp hv
      exact live_of_push hg hphase hnamed hpath
  | link source target label => exact live_of_link hg hphase hnamed hv hpath
  | _ => exact nomatch hv

end Event

/-- Outside the bootstrap, an event other than an announcement opens paths from
the values on that it names, and from nowhere else.  If it names a builtin, then
whatever the values it names uncover is live afterwards.  If it names none, then
every builtin is live or hidden as before, also one that the walk reaches for
the first time. -/
theorem builtins_surface_when_named (ops : List Operation) (e : Event)
    (hphase : (new.run ops).bootstrapping = false) :
    let g := new.run ops
    let g' := g.apply (.event e)
    ((∀ value, e ≠ .create value) → ∀ w, g'.Walked w → ¬ g.Walked w →
      ∃ v ∈ g.namedEnds e, g'.Below v w) ∧
    (g.NamesBuiltin e → ∀ v ∈ g.namedEnds e, ∀ w, g.Uncovers v w →
      g'.isLive w = true) ∧
    (¬ g.NamesBuiltin e → ∀ w, g'.isBuiltin w = true →
      g'.isLive w = g.isLive w) := by
  intro g g'
  have hg : g.WellFormed := wellFormed_run_new ops
  refine ⟨?_, ?_, ?_⟩
  · intro he w hw hold
    exact hg.below_of_newly_walked he hw hold
  · intro hnamed v hv w hpath
    exact live_of_named hg hphase hnamed hv hpath
  · intro hunnamed w hw
    have hkept : g.KeepsBuiltins g' := keepsBuiltins_event hg hphase hunnamed
    rw [hkept.builtin] at hw
    exact hkept.live w hw

/-- Two builtins, of which the first one leads to the second one. -/
def twoBuiltins : List Operation :=
  [.beginBootstrap, .event (.create (.object ⟨1⟩)),
    .event (.create (.object ⟨2⟩)),
    .event (.link (some ⟨1⟩) (some ⟨2⟩) "next"), .endBootstrap]

def linkFirst : Event := .link none (some ⟨1⟩) "first"

/-- A link to the first one brings both to light. -/
theorem two_builtins_surface :
    (new.run twoBuiltins).bootstrapping = false ∧
    (new.run twoBuiltins).isHidden ⟨3⟩ = true ∧
    ((new.run twoBuiltins).apply (.event linkFirst)).isLive ⟨3⟩ = true := by
  have hphase : (new.run twoBuiltins).bootstrapping = false := rfl
  have hhidden : (new.run twoBuiltins).isHidden ⟨3⟩ = true := by
    decide +kernel
  have hfirst : ⟨2⟩ ∈ (new.run twoBuiltins).namedEnds linkFirst := by
    decide +kernel
  have hnamed : (new.run twoBuiltins).NamesBuiltin linkFirst :=
    ⟨⟨2⟩, hfirst, by decide +kernel⟩
  have hstep : (new.run twoBuiltins).RevealStep ⟨2⟩ ⟨3⟩ :=
    ⟨by decide +kernel, hhidden⟩
  have hall := builtins_surface_when_named twoBuiltins linkFirst hphase
  exact ⟨hphase, hhidden, hall.2.1 hnamed ⟨2⟩ hfirst ⟨3⟩ (.single hstep)⟩

/-- A union outside the bootstrap with a hidden builtin among its outcomes. -/
def unionOfBuiltin : List Operation :=
  [.beginBootstrap, .event (.create (.object ⟨1⟩)), .endBootstrap,
    .event (.create (.either ⟨10⟩ [.object ⟨1⟩]))]

def unionPushed : Graph :=
  (new.run unionOfBuiltin).apply (.event (.push ⟨10⟩))

theorem walked_unionOfBuiltin (hv : (new.run unionOfBuiltin).Walked v) :
    v = root := by
  have hglobal : (new.run unionOfBuiltin).global = none := by decide +kernel
  have hframes : (new.run unionOfBuiltin).frames = [] := by decide +kernel
  have hroot : (new.run unionOfBuiltin).outcomes? root = none := by
    decide +kernel
  have hchildren : (new.run unionOfBuiltin).namedChildren root = [] := by
    decide +kernel
  induction hv with
  | root => rfl
  | global h => simp [hglobal] at h
  | frame h => simp [hframes] at h
  | outcome _ h _ _ ih => simp [ih, hroot] at h
  | child _ _ _ h _ ih =>
      have hmem := mem_namedChildren.mpr ⟨_, h⟩
      simp [ih, hchildren] at hmem

theorem walked_unionPushed : unionPushed.Walked ⟨2⟩ := by
  have hframe : (⟨4⟩, ⟨stack, ⟨3⟩⟩) ∈ unionPushed.frames := by decide +kernel
  have hout : unionPushed.outcomes? ⟨3⟩ = some [⟨2⟩] := by decide +kernel
  have hleaf : unionPushed.Leaf ⟨2⟩ ⟨2⟩ := .here (by decide +kernel)
  exact .outcome (.frame hframe) hout (List.mem_singleton_self _) hleaf

/-- A push of the union opens a path to the builtin, which stays hidden. -/
theorem builtin_behind_union_stays_hidden :
    ¬ ∀ (ops : List Operation) (e : Event),
      (new.run ops).bootstrapping = false → ∀ v,
        ((new.run ops).apply (.event e)).Walked v → ¬ (new.run ops).Walked v →
        ((new.run ops).apply (.event e)).isBuiltin v = true →
        ((new.run ops).apply (.event e)).isLive v = true := by
  intro hall
  have hnew : ¬ (new.run unionOfBuiltin).Walked ⟨2⟩ := by
    intro hwalked
    have heq := walked_unionOfBuiltin hwalked
    contradiction
  have hbuiltin : unionPushed.isBuiltin ⟨2⟩ = true := by decide +kernel
  have hlive : unionPushed.isLive ⟨2⟩ = true :=
    hall unionOfBuiltin (.push ⟨10⟩) rfl ⟨2⟩ walked_unionPushed hnew hbuiltin
  have hhidden : unionPushed.isLive ⟨2⟩ = false := by decide +kernel
  rw [hhidden] at hlive
  contradiction

end LiveHeap.Graph
