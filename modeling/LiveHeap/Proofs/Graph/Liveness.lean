import LiveHeap.Proofs.Graph.Announce
import LiveHeap.Proofs.Graph.Collect
import LiveHeap.Proofs.Graph.Registration

/-!
# Values that lost their liveness

A value that is no builtin is live when it is registered, and only a collection
takes it out of the live set.  Pushing it or linking it afterwards does not put
it back, except for a link that surfaces both its ends.  So the values that are
not live are those that a collection swept and no such link restored.
-/

namespace LiveHeap.Graph

variable {g g' g'' : Graph}

/-! ## Changes that hide no value -/

/-- Values that are no builtins stay as they are, live or not, and new ones are
live. -/
structure KeepsLiveness (g g' : Graph) : Prop where
  slot : ∀ v, g'.slot? v = none → g.slot? v = none
  builtin : ∀ v, g.isBuiltin v = true → g'.isBuiltin v = true
  live : ∀ v, g'.isBuiltin v = false → g'.slot? v ≠ none →
    (g'.isLive v = true ↔ g.isLive v = true ∨ g.slot? v = none)

namespace KeepsLiveness

theorem of_slots (hslots : g'.slots = g.slots) : g.KeepsLiveness g' := by
  have hslot : ∀ v, g'.slot? v = g.slot? v := by
    intro v
    rw [slot?, slot?, hslots]
  constructor
  · intro v hs
    rwa [← hslot v]
  · intro v hv
    rwa [isBuiltin_congr (hslot v)]
  · intro v _ hs
    rw [hslot v] at hs
    simp [isLive_congr (hslot v), hs]

theorem refl (g : Graph) : g.KeepsLiveness g := of_slots rfl

theorem retire (g : Graph) (v : Handle) (l : Label) :
    g.KeepsLiveness (g.retire v l) := by
  apply of_slots
  rw [retire_eq]

theorem not_builtin (h : g.KeepsLiveness g') {v : Handle}
    (hb : g'.isBuiltin v = false) : g.isBuiltin v = false := by
  by_contra hold
  rw [h.builtin v (by simpa using hold)] at hb
  contradiction

theorem trans (h : g.KeepsLiveness g') (h' : g'.KeepsLiveness g'') :
    g.KeepsLiveness g'' where
  slot v hs := h.slot v (h'.slot v hs)
  builtin v hv := h'.builtin v (h.builtin v hv)
  live v hv hs := by
    rw [h'.live v hv hs]
    by_cases hs' : g'.slot? v = none
    · simp [hs', h.slot v hs']
    · simp [hs', h.live v (h'.not_builtin hv) hs']

/-- A change of the flags that keeps liveness, or that concerns a builtin. -/
theorem modifySlot {v : Handle} {f : Slot → Slot}
    (hbuiltin : ∀ s, s.flags.builtin = true → (f s).flags.builtin = true)
    (hlive : ∀ s, g.slot? v = some s → (f s).flags.builtin = false →
      (f s).flags.live = s.flags.live) :
    g.KeepsLiveness (g.modifySlot v f) := by
  constructor
  · exact fun w => slot?_modifySlot_eq_none.mp
  · intro w hw
    cases hs : g.slot? w with
    | none =>
        rw [isBuiltin_of_empty hs] at hw
        contradiction
    | some s =>
        rw [isBuiltin_of_slot? hs] at hw
        rw [isBuiltin_of_slot? (slot?_modifySlot_of_some hs)]
        split
        · exact hbuiltin s hw
        · exact hw
  · intro w hw hne
    cases hs : g.slot? w with
    | none => exact absurd (slot?_modifySlot_eq_none.mpr hs) hne
    | some s =>
        have hnew := slot?_modifySlot_of_some (v := v) (f := f) hs
        have hsame : (if w = v then f s else s).flags.live = s.flags.live := by
          rw [isBuiltin_of_slot? hnew] at hw
          by_cases heq : w = v
          · rw [if_pos heq] at hw ⊢
            exact hlive s (heq ▸ hs) hw
          · rw [if_neg heq]
        rw [isLive_of_slot? hnew, hsame, isLive_of_slot? hs]
        simp

/-- An empty place is taken. -/
theorem fill {w : Handle} {s : Slot} (hempty : g.slot? w = none)
    (hslot : ∀ v, g'.slot? v = if v = w then some s else g.slot? v)
    (hflags : s.flags.builtin = false → s.flags.live = true) :
    g.KeepsLiveness g' := by
  have hnew : g'.slot? w = some s := by
    rw [hslot, if_pos rfl]
  have hother : ∀ v, v ≠ w → g'.slot? v = g.slot? v := by
    intro v hv
    rw [hslot, if_neg hv]
  constructor
  · intro v hs
    by_cases hv : v = w
    · rw [hv, hempty]
    · rwa [hother v hv] at hs
  · intro v hb
    by_cases hv : v = w
    · rw [hv, isBuiltin_of_empty hempty] at hb
      contradiction
    · rwa [isBuiltin_congr (hother v hv)]
  · intro v hb hs
    by_cases hv : v = w
    · subst hv
      rw [isBuiltin_of_slot? hnew] at hb
      simp [isLive_of_slot? hnew, hflags hb, hempty]
    · rw [hother v hv] at hs
      rw [isLive_congr (hother v hv)]
      simp [hs]

theorem allocValue {id : ValueId} {x : Vertex} {flags : Flags}
    (hflags : flags.builtin = false → flags.live = true) :
    g.KeepsLiveness (g.allocValue id x flags).1 :=
  .fill (slot?_fresh g) (slot?_allocValue g id x flags) hflags

end KeepsLiveness

theorem live_of_registrationFlags (g : Graph)
    (hb : g.registrationFlags.builtin = false) :
    g.registrationFlags.live = true := by
  unfold registrationFlags at hb ⊢
  split at hb
  · contradiction
  · rename_i hphase
    rw [if_neg hphase]

theorem keepsLiveness_setOutcomes (g : Graph) (v : Handle)
    (outcomes : List Handle) :
    g.KeepsLiveness (g.setOutcomes v outcomes) := by
  apply KeepsLiveness.modifySlot
  · intro s hs
    split <;> exact hs
  · intro s _ _
    split <;> rfl

theorem keptByRegistration_keepsLiveness (g : Graph) :
    KeptByRegistration g.KeepsLiveness where
  rewire h _ _ := h.trans (.of_slots rfl)
  setVertex h _ _ := h.trans (.modifySlot (fun _ h => h) fun _ _ _ => rfl)
  setOutcomes h v outcomes := h.trans (keepsLiveness_setOutcomes _ v outcomes)
  allocValue h _ _ := h.trans (.allocValue (live_of_registrationFlags _))

theorem keepsLiveness_register (g : Graph) (value : Value) :
    g.KeepsLiveness (g.register value).1 :=
  (keptByRegistration_keepsLiveness g).register (.refl g) value

theorem keepsLiveness_resolve (g : Graph) (id : ValueId) :
    g.KeepsLiveness (g.resolve id).1 :=
  (keptByRegistration_keepsLiveness g).resolve (.refl g) id

theorem keepsLiveness_resolveEnd (g : Graph) (id : Option ValueId) :
    g.KeepsLiveness (g.resolveEnd id).1 :=
  (keptByRegistration_keepsLiveness g).resolveEnd (.refl g) id

theorem keepsLiveness_registerBuiltin (g : Graph) (id : ValueId) :
    g.KeepsLiveness (g.registerBuiltin id) := by
  unfold registerBuiltin
  cases g.vertexFor? id with
  | some v =>
      apply KeepsLiveness.modifySlot
      · exact fun _ _ => rfl
      · exact fun _ _ hb => absurd hb (by simp)
  | none => exact .allocValue (by simp)

theorem keepsLiveness_registerBuiltins (g : Graph) (ids : List ValueId) :
    g.KeepsLiveness (g.registerBuiltins ids) := by
  apply List.foldlRecOn ids registerBuiltin (.refl g)
  intro g' hkeeps id _
  exact hkeeps.trans (keepsLiveness_registerBuiltin g' id)

/-! ## Surfacing -/

theorem isBuiltin_setLive (g : Graph) (v w : Handle) (live : Bool) :
    (g.setLive v live).isBuiltin w = g.isBuiltin w := by
  unfold isBuiltin
  rw [slot?_setLive]
  by_cases hw : w = v <;> cases g.slot? w <;> simp [hw]

theorem keepsLiveness_show {v : Handle} (hv : g.isBuiltin v = true) :
    g.KeepsLiveness (g.setLive v true) := by
  apply KeepsLiveness.modifySlot
  · exact fun _ h => h
  · intro s hs hb
    rw [isBuiltin_of_slot? hs] at hv
    rw [hv] at hb
    contradiction

theorem keepsLiveness_revealPending (g : Graph) (pending : List Handle) :
    g.KeepsLiveness (g.revealPending pending) := by
  apply revealPending_keeps (p := g.KeepsLiveness)
  · intro g' v hhidden hkeeps
    have hbuiltin : g'.isBuiltin v = true := (Bool.and_eq_true_iff.mp hhidden).1
    exact hkeeps.trans (keepsLiveness_show hbuiltin)
  · exact .refl g

theorem isBuiltin_revealPending (g : Graph) (pending : List Handle)
    (v : Handle) : (g.revealPending pending).isBuiltin v = g.isBuiltin v := by
  apply revealPending_keeps (p := fun g' => g'.isBuiltin v = g.isBuiltin v)
  · exact fun g' w _ hsame => (isBuiltin_setLive g' w v true).trans hsame
  · rfl

theorem slot?_revealPending_eq_none (g : Graph) (pending : List Handle)
    (v : Handle) :
    (g.revealPending pending).slot? v = none ↔ g.slot? v = none := by
  apply revealPending_keeps
    (p := fun g' => g'.slot? v = none ↔ g.slot? v = none)
  · exact fun g' w _ hsame => slot?_modifySlot_eq_none.trans hsame
  · rfl

theorem isBuiltin_surface (g : Graph) (w v : Handle) :
    (g.surface w).isBuiltin v = g.isBuiltin v :=
  (isBuiltin_revealPending _ _ v).trans (isBuiltin_setLive g w v true)

theorem keepsLiveness_surfacePushed (g : Graph) (v : Handle) :
    g.KeepsLiveness (g.surfacePushed v) := by
  unfold surfacePushed
  split
  next h =>
    have hbuiltin : g.isBuiltin v = true := (Bool.and_eq_true_iff.mp h).2
    exact (keepsLiveness_show hbuiltin).trans
      (keepsLiveness_revealPending _ _)
  next => exact .refl g

theorem slot?_surface_eq_none (g : Graph) (w v : Handle) :
    (g.surface w).slot? v = none ↔ g.slot? v = none :=
  (slot?_revealPending_eq_none _ _ v).trans slot?_modifySlot_eq_none

/-- Surfacing a vertex shows that vertex, and of all others only builtins. -/
theorem isLive_surface {v w : Handle} (hv : g.isBuiltin v = false)
    (hs : g.slot? v ≠ none) :
    (g.surface w).isLive v = true ↔ g.isLive v = true ∨ v = w := by
  have hreveal := keepsLiveness_revealPending (g.setLive w true)
    ((g.setLive w true).successors w)
  have hsurfaced : (g.surface w).slot? v ≠ none :=
    fun h => hs ((slot?_surface_eq_none g w v).mp h)
  have hshown : (g.setLive w true).slot? v ≠ none :=
    fun h => hs (slot?_modifySlot_eq_none.mp h)
  have hbuiltin : (g.surface w).isBuiltin v = false := by
    rw [isBuiltin_surface, hv]
  have hlive : (g.surface w).isLive v = true ↔
      (g.setLive w true).isLive v = true :=
    (hreveal.live v hbuiltin hsurfaced).trans (or_iff_left hshown)
  rw [hlive, isLive_setLive]
  by_cases hw : v = w
  · rw [← hw]
    simpa using Option.ne_none_iff_isSome.mp hs
  · simp [hw]

theorem isBuiltin_surfaceLinked (g : Graph) (source target v : Handle) :
    (g.surfaceLinked source target).isBuiltin v = g.isBuiltin v := by
  unfold surfaceLinked
  split
  · rw [isBuiltin_surface, isBuiltin_surface]
  · rfl

theorem slot?_surfaceLinked_eq_none (g : Graph) (source target v : Handle) :
    (g.surfaceLinked source target).slot? v = none ↔ g.slot? v = none := by
  unfold surfaceLinked
  split
  · rw [slot?_surface_eq_none, slot?_surface_eq_none]
  · rfl

theorem isLive_surfaceLinked {v : Handle} (hv : g.isBuiltin v = false)
    (hs : g.slot? v ≠ none) (source target : Handle) :
    (g.surfaceLinked source target).isLive v = true ↔
      g.isLive v = true ∨
        g.linkSurfaces source target = true ∧ (v = source ∨ v = target) := by
  unfold surfaceLinked
  split
  next h =>
    have hbuiltin : (g.surface source).isBuiltin v = false := by
      rw [isBuiltin_surface, hv]
    have hslot : (g.surface source).slot? v ≠ none :=
      fun hnone => hs ((slot?_surface_eq_none g source v).mp hnone)
    rw [isLive_surface hbuiltin hslot, isLive_surface hv hs, or_assoc]
    simp [h]
  next h => simp [h]

/-! ## One operation -/

theorem keepsLiveness_pushFrame (hg : g.ArenaSound) (value : Handle) :
    g.KeepsLiveness (g.pushFrame value) :=
  .fill hg.slot?_nextFrame (hg.slot?_pushFrame value) fun _ => rfl

theorem keepsLiveness_push (hg : g.WellFormed) (id : ValueId) :
    g.KeepsLiveness (g.push id) := by
  have hsurfaced := (hg.resolve id).surfacePushed (g.resolve id).2
  have hfirst := (keepsLiveness_resolve g id).trans
    (keepsLiveness_surfacePushed (g.resolve id).1 (g.resolve id).2)
  have hframe := keepsLiveness_pushFrame hsurfaced.toArenaSound
    (g.resolve id).2
  exact (hfirst.trans hframe).trans (.of_slots rfl)

theorem keepsLiveness_unlink (g : Graph) (source target : Option ValueId)
    (label : String) : g.KeepsLiveness (g.unlink source target label) := by
  have hends := (keepsLiveness_resolveEnd g source).trans
    (keepsLiveness_resolveEnd (g.resolveEnd source).1 target)
  have hretire := KeepsLiveness.retire
    ((g.resolveEnd source).1.resolveEnd target).1 (g.resolveEnd source).2
    (.property label)
  exact (hends.trans hretire).trans (.of_slots rfl)

theorem keepsLiveness_setGlobal (g : Graph) (id : Option ValueId) :
    g.KeepsLiveness (g.setGlobal id) := by
  cases id with
  | none => exact .of_slots rfl
  | some id => exact (keepsLiveness_resolve g id).trans (.of_slots rfl)

/-- The operation is a link that surfaces its ends, and the vertex is one of
them. -/
def Restores (g : Graph) (v : Handle) : Operation → Prop
  | .event (.link source target _) =>
      let (g, s) := g.resolveEnd source
      let (g, t) := g.resolveEnd target
      g.linkSurfaces s t = true ∧ (v = s ∨ v = t)
  | _ => False

/-- What an operation does to a vertex that is no builtin afterwards: it was
none before, and it is live if it was live, if it is new or if the operation
restores it. -/
structure LiveStep (g g' : Graph) (v : Handle) (restored : Prop) : Prop where
  builtin : g.isBuiltin v = false
  live : g'.isLive v = true ↔
    g.isLive v = true ∨ g.slot? v = none ∨ restored

section Step

variable {v : Handle}

theorem KeepsLiveness.liveStep (h : g.KeepsLiveness g')
    (hs : g'.slot? v ≠ none) (hb : g'.isBuiltin v = false) :
    g.LiveStep g' v False := by
  constructor
  · exact h.not_builtin hb
  · rw [or_false]
    exact h.live v hb hs

theorem liveStep_of_slots (hslots : g'.slots = g.slots)
    (hs : g'.slot? v ≠ none) (hb : g'.isBuiltin v = false) :
    g.LiveStep g' v False := (KeepsLiveness.of_slots hslots).liveStep hs hb

/-- Installing the edge changes no slot. -/
theorem slots_link (g : Graph) (source target : Option ValueId)
    (label : String) :
    let ends := (g.resolveEnd source).1.resolveEnd target
    (g.link source target label).slots =
      (ends.1.surfaceLinked (g.resolveEnd source).2 ends.2).slots := by
  intro ends
  have hinstall :
      ((ends.1.surfaceLinked (g.resolveEnd source).2 ends.2).install
        ⟨(g.resolveEnd source).2, ends.2, .property label⟩).slots =
      (ends.1.surfaceLinked (g.resolveEnd source).2 ends.2).slots := by
    rw [install_eq]
  exact hinstall

theorem liveStep_link (source target : Option ValueId) (label : String)
    (hs : (g.link source target label).slot? v ≠ none)
    (hb : (g.link source target label).isBuiltin v = false) :
    g.LiveStep (g.link source target label) v
      (g.Restores v (.event (.link source target label))) := by
  let s := (g.resolveEnd source).2
  let t := ((g.resolveEnd source).1.resolveEnd target).2
  let ends := ((g.resolveEnd source).1.resolveEnd target).1
  have hends : g.KeepsLiveness ends := (keepsLiveness_resolveEnd g source).trans
    (keepsLiveness_resolveEnd (g.resolveEnd source).1 target)
  have hslots : (g.link source target label).slots =
      (ends.surfaceLinked s t).slots := slots_link g source target label
  have hslot : ∀ w, (g.link source target label).slot? w =
      (ends.surfaceLinked s t).slot? w := by
    intro w
    rw [slot?, slot?, hslots]
  have hsends : ends.slot? v ≠ none := by
    intro hnone
    rw [hslot] at hs
    exact hs ((slot?_surfaceLinked_eq_none ends s t v).mpr hnone)
  have hbends : ends.isBuiltin v = false := by
    rw [← isBuiltin_surfaceLinked ends s t v, ← hb]
    exact isBuiltin_congr (hslot v).symm
  have hstep := hends.liveStep hsends hbends
  constructor
  · exact hstep.builtin
  · rw [isLive_congr (hslot v), isLive_surfaceLinked hbends hsends,
      hstep.live, or_false, or_assoc]
    rfl

theorem liveStep_pop (id : ValueId)
    (hs : (g.apply (.event (.pop id))).slot? v ≠ none)
    (hb : (g.apply (.event (.pop id))).isBuiltin v = false) :
    g.LiveStep (g.apply (.event (.pop id))) v False := by
  rcases g.apply_pop id with hsame | ⟨f, htop, heq⟩
  · rw [hsame] at hs hb ⊢
    exact (KeepsLiveness.refl g).liveStep hs hb
  · rw [heq] at hs hb ⊢
    have hother : v ≠ g.stackTop := by
      intro hv
      rw [slot?_popFrame htop, if_pos hv] at hs
      contradiction
    have hslot : (g.popFrame f).slot? v = g.slot? v := by
      rw [slot?_popFrame htop, if_neg hother]
    rw [hslot] at hs
    rw [isBuiltin_congr hslot] at hb
    constructor
    · exact hb
    · simp [isLive_congr hslot, hs]

/-- All operations but a collection. -/
theorem WellFormed.liveStep_apply (hg : g.WellFormed) {op : Operation}
    (hop : op ≠ .collect) (hs : (g.apply op).slot? v ≠ none)
    (hb : (g.apply op).isBuiltin v = false) :
    g.LiveStep (g.apply op) v (g.Restores v op) := by
  cases op with
  | event e =>
      cases e with
      | create value =>
          have hkeeps : g.KeepsLiveness (g.create value) :=
            (keepsLiveness_register g value).trans (.of_slots rfl)
          exact hkeeps.liveStep hs hb
      | push id => exact (keepsLiveness_push hg id).liveStep hs hb
      | pop id => exact liveStep_pop id hs hb
      | link source target label =>
          exact liveStep_link source target label hs hb
      | unlink source target label =>
          exact (keepsLiveness_unlink g source target label).liveStep hs hb
      | callBoundary => exact liveStep_of_slots rfl hs hb
  | beginBootstrap => exact liveStep_of_slots rfl hs hb
  | endBootstrap => exact liveStep_of_slots rfl hs hb
  | registerBuiltins ids =>
      exact (keepsLiveness_registerBuiltins g ids).liveStep hs hb
  | setGlobal id => exact (keepsLiveness_setGlobal g id).liveStep hs hb
  | collect => contradiction
  | takeSnapshot => exact liveStep_of_slots rfl hs hb

end Step

/-! ## Collections -/

theorem isBuiltin_release (g : Graph) (vs : List Handle) (v : Handle) :
    (g.release vs).isBuiltin v = g.isBuiltin v := by
  apply List.foldlRecOn
    (motive := fun g' : Graph => g'.isBuiltin v = g.isBuiltin v)
  · rfl
  · exact fun g' hsame w _ => (isBuiltin_setLive g' w v false).trans hsame

theorem WellFormed.isBuiltin_collect (hg : g.WellFormed) (v : Handle) :
    g.collect.1.isBuiltin v = g.isBuiltin v := by
  rw [(collect_released hg.idle).1]
  exact isBuiltin_release g _ v

theorem WellFormed.slot?_collect (hg : g.WellFormed) {v : Handle} :
    g.collect.1.slot? v ≠ none ↔ g.slot? v ≠ none := by
  have hvertex := hg.vertex?_collect v
  unfold vertex? at hvertex
  rw [Ne, Ne, ← Option.map_eq_none_iff (f := Slot.vertex), hvertex,
    Option.map_eq_none_iff]

/-! ## Runs -/

/-- A collection swept the vertex, and no link restored it since. -/
inductive Forgotten : List Operation → Handle → Prop
  | swept {ops : List Operation} {v : Handle} :
      v ∈ (new.run ops).collect.2 → Forgotten (ops ++ [.collect]) v
  | still {ops : List Operation} {op : Operation} {v : Handle} :
      Forgotten ops v → ¬ (new.run ops).Restores v op →
      Forgotten (ops ++ [op]) v

section History

variable {ops : List Operation} {op : Operation} {v : Handle}

theorem forgotten_concat :
    Forgotten (ops ++ [op]) v ↔
      op = .collect ∧ v ∈ (new.run ops).collect.2 ∨
        Forgotten ops v ∧ ¬ (new.run ops).Restores v op := by
  constructor
  · intro hv
    generalize hrun : ops ++ [op] = run at hv
    cases hv with
    | swept hmem =>
        obtain ⟨rfl, hop⟩ := List.append_inj' hrun rfl
        exact Or.inl ⟨List.singleton_inj.mp hop, hmem⟩
    | still hold hkept =>
        obtain ⟨rfl, hop⟩ := List.append_inj' hrun rfl
        obtain rfl := List.singleton_inj.mp hop
        exact Or.inr ⟨hold, hkept⟩
  · rintro (⟨rfl, hmem⟩ | ⟨hold, hkept⟩)
    · exact .swept hmem
    · exact .still hold hkept

theorem not_forgotten_nil : ¬ Forgotten [] v := by
  intro hv
  generalize hrun : ([] : List Operation) = run at hv
  cases hv <;> simp at hrun

theorem Forgotten.holdsValue (hv : Forgotten ops v) :
    (new.run ops).HoldsValue v := by
  induction hv with
  | @swept ops v hmem =>
      have hg := wellFormed_run_new ops
      have hvalue := hg.holdsValue_of_mem_collect hmem
      rw [run_concat]
      exact (edits_collect hg).grows.holdsValue hvalue
  | @still ops op v _ _ ih =>
      have hg := wellFormed_run_new ops
      obtain ⟨id, hid⟩ := holdsValue_iff.mp ih
      rw [run_concat]
      exact holdsValue_of_valueAt? (hg.valueAt?_apply op hid)

end History

theorem isLive_new {v : Handle} (hs : new.slot? v ≠ none) :
    new.isLive v = true := by
  have hslot := slot?_new v
  by_cases hroot : v = root
  · rw [if_pos hroot] at hslot
    exact isLive_of_slot? hslot
  · rw [if_neg hroot] at hslot
    by_cases hstack : v = stack
    · rw [if_pos hstack] at hslot
      exact isLive_of_slot? hslot
    · rw [if_neg hstack] at hslot
      contradiction

/-- Whatever is in the arena and no builtin is live until it is forgotten. -/
theorem isLive_run_iff (ops : List Operation) {v : Handle}
    (hs : (new.run ops).slot? v ≠ none)
    (hb : (new.run ops).isBuiltin v = false) :
    (new.run ops).isLive v = true ↔ ¬ Forgotten ops v := by
  induction ops using List.reverseRecOn with
  | nil =>
      simp only [not_forgotten_nil, not_false_eq_true, iff_true]
      exact isLive_new hs
  | append_singleton ops op ih =>
      have hg := wellFormed_run_new ops
      rw [run_concat] at hs hb ⊢
      rw [forgotten_concat]
      by_cases hop : op = .collect
      · subst hop
        have hsold := hg.slot?_collect.mp hs
        have hbold := (hg.isBuiltin_collect v).symm.trans hb
        have hlive := hg.isLive_collect v
        have hkept : ¬ (new.run ops).Restores v .collect := id
        rw [ih hsold hbold] at hlive
        simp only [true_and, hkept, not_false_eq_true, and_true, not_or]
        exact hlive.trans and_comm
      · have hstep := hg.liveStep_apply hop hs hb
        simp only [hop, false_and, false_or, not_and_or, not_not]
        rw [hstep.live]
        by_cases hnew : (new.run ops).slot? v = none
        · have hunknown : ¬ Forgotten ops v :=
            fun hold => hold.holdsValue.slot?_ne_none hnew
          simp [hnew, hunknown]
        · rw [ih hnew hstep.builtin]
          simp [hnew]

/-- Every value that a collection would mark is live, builtins apart. -/
def ReachableLive (g : Graph) : Prop :=
  ∀ v, g.Walked v → g.HoldsValue v → g.isBuiltin v = false →
    g.isLive v = true

/-- In every graph that operations make, a value that is no builtin is live
unless it is forgotten: a collection swept it, and no link that surfaces its
ends named it since.  Every value within reach is live exactly when none of
them is forgotten. -/
theorem live_unless_forgotten (ops : List Operation) :
    let g := new.run ops
    (∀ v, g.HoldsValue v → g.isBuiltin v = false →
      (g.isLive v = true ↔ ¬ Forgotten ops v)) ∧
    (g.ReachableLive ↔
      ∀ v, g.Walked v → g.HoldsValue v → g.isBuiltin v = false →
        ¬ Forgotten ops v) := by
  intro g
  have hlive : ∀ v, g.HoldsValue v → g.isBuiltin v = false →
      (g.isLive v = true ↔ ¬ Forgotten ops v) :=
    fun v hv hb => isLive_run_iff ops hv.slot?_ne_none hb
  refine ⟨hlive, ?_⟩
  constructor
  · exact fun h v hwalked hv hb => (hlive v hv hb).mp (h v hwalked hv hb)
  · exact fun h v hwalked hv hb => (hlive v hv hb).mpr (h v hwalked hv hb)

/-- A value that is swept before the stack refers to it. -/
def pushedLate : List Operation :=
  [.event (.create (.primitive ⟨5⟩)), .collect, .event (.push ⟨5⟩)]

theorem late_push_not_live : ¬ ∀ ops, (new.run ops).ReachableLive := by
  intro hall
  have hframe : (⟨3⟩, ⟨stack, ⟨2⟩⟩) ∈ (new.run pushedLate).frames := by
    decide +kernel
  have hvalue : (new.run pushedLate).HoldsValue ⟨2⟩ :=
    ⟨.plain (.unannounced ⟨5⟩), by decide +kernel, rfl⟩
  have hlive := hall pushedLate ⟨2⟩ (.frame hframe) hvalue (by decide +kernel)
  have hhidden : (new.run pushedLate).isLive ⟨2⟩ = false := by
    decide +kernel
  rw [hhidden] at hlive
  contradiction

end LiveHeap.Graph
