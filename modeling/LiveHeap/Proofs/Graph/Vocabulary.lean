import LiveHeap.Proofs.Graph.Surfacing

/-!
# The vocabulary of the bootstrap

A value is enrolled among the builtins when the first operation that mentions it
finds the graph in the bootstrap, or when it is registered as a builtin in any
phase.  Nothing else touches the builtin flag, so the builtins of a graph can be
read off the operations that made it.
-/

namespace LiveHeap.Graph

/-- The ids that an operation mentions.  A pop mentions none, since it takes
the top frame off whatever value it is given. -/
def Operation.mentioned : Operation → List ValueId
  | .event (.create value) => value.ids
  | .event (.push id) => [id]
  | .event (.link source target _) => source.toList ++ target.toList
  | .event (.unlink source target _) => source.toList ++ target.toList
  | .registerBuiltins ids => ids
  | .setGlobal id => id.toList
  | _ => []

/-- The ids that an operation makes builtins in any phase. -/
def Operation.promoted : Operation → List ValueId
  | .registerBuiltins ids => ids
  | _ => []

/-- Whether more builtins may come in because of the operation. -/
def Operation.opensVocabulary : Operation → Bool
  | .beginBootstrap => true
  | .registerBuiltins _ => true
  | _ => false

/-- The builtin flag of a value, if the value is known. -/
def standing? (g : Graph) (id : ValueId) : Option Bool :=
  (g.vertexFor? id).map g.isBuiltin

/-- In the second graph the listed values are known too.  Those that were
unknown are builtins if the first graph is in the bootstrap. -/
structure Enrols (g g' : Graph) (ids : List ValueId) : Prop where
  phase : g'.bootstrapping = g.bootstrapping
  standing : ∀ id, g'.standing? id =
    (g.standing? id).or (if id ∈ ids then some g.bootstrapping else none)

variable {g g' g'' : Graph} {id : ValueId} {ids : List ValueId} {v : Handle}

namespace Enrols

theorem of_same (hvalues : g'.values = g.values)
    (hbuiltin : ∀ v, g'.isBuiltin v = g.isBuiltin v)
    (hphase : g'.bootstrapping = g.bootstrapping) : g.Enrols g' [] where
  phase := hphase
  standing id := by
    have hsame : g'.standing? id = g.standing? id := by
      unfold standing? vertexFor?
      rw [hvalues, funext hbuiltin]
    simp [hsame]

theorem refl (g : Graph) : g.Enrols g [] := of_same rfl (fun _ => rfl) rfl

theorem append {ids' : List ValueId} (h : g.Enrols g' ids)
    (h' : g'.Enrols g'' ids') : g.Enrols g'' (ids ++ ids') where
  phase := h'.phase.trans h.phase
  standing id := by
    rw [h'.standing, h.standing, h.phase]
    by_cases hid : id ∈ ids <;> simp [hid]

theorem trans (h : g.Enrols g' ids) (h' : g'.Enrols g'' []) :
    g.Enrols g'' ids := by
  simpa using h.append h'

theorem of_known (h : g.Enrols g' []) (hknown : g.vertexFor? id = some v) :
    g.Enrols g' [id] where
  phase := h.phase
  standing i := by
    rw [h.standing]
    by_cases hi : i = id
    · simp [hi, standing?, hknown]
    · simp [hi]

theorem rewire (index : Table (Handle × Label) Handle) (edges : List Edge) :
    g.Enrols { g with index, edges } [] := of_same rfl (fun _ => rfl) rfl

theorem install (g : Graph) (e : Edge) : g.Enrols (g.install e) [] := by
  rw [install_eq]
  exact rewire _ _

theorem retire (g : Graph) (s : Handle) (l : Label) :
    g.Enrols (g.retire s l) [] := by
  rw [retire_eq]
  exact rewire _ _

theorem markChanged (g : Graph) : g.Enrols g.markChanged [] :=
  of_same rfl (fun _ => rfl) rfl

/-- Liveness is no matter of standing. -/
theorem of_core (h : g'.core = g.core) : g.Enrols g' [] := by
  have hsame := alike_of_core h
  exact of_same hsame.values hsame.isBuiltin hsame.bootstrapping

theorem retireOutcomes (g : Graph) (v : Handle) :
    g.Enrols (g.retireOutcomes v) [] := by
  apply List.foldlRecOn (motive := fun g' => g.Enrols g' [])
  · exact refl g
  · exact fun g' h i _ => h.trans (retire g' v (.maybe i))

theorem setVertex (g : Graph) (v : Handle) (x : Vertex) :
    g.Enrols (g.setVertex v x) [] := by
  have hkept : g.KeepsBuiltins (g.setVertex v x) := by
    apply KeepsBuiltins.modifySlot
    exact fun _ => rfl
  exact of_same rfl hkept.builtin rfl

theorem setOutcomes (g : Graph) (v : Handle) (outcomes : List Handle) :
    g.Enrols (g.setOutcomes v outcomes) [] := by
  have hkept : g.KeepsBuiltins (g.setOutcomes v outcomes) := by
    apply KeepsBuiltins.modifySlot
    intro s
    split <;> rfl
  exact of_same rfl hkept.builtin rfl

end Enrols

/-! ## Registration -/

theorem WellFormed.ne_fresh (hg : g.WellFormed)
    (hv : g.vertexFor? id = some v) : v ≠ ⟨g.slots.length⟩ := by
  intro hfresh
  have hheld := holdsValue_of_valueAt? (hg.valueAt?_of_vertexFor? hv)
  apply hheld.slot?_ne_none
  rw [hfresh]
  exact slot?_fresh g

theorem WellFormed.standing?_allocValue (hg : g.WellFormed) (id : ValueId)
    (x : Vertex) (flags : Flags) (i : ValueId) :
    (g.allocValue id x flags).1.standing? i =
      if i = id then some flags.builtin else g.standing? i := by
  have hslot := slot?_allocValue g id x flags
  unfold standing?
  rw [vertexFor?_allocValue]
  split
  next =>
    have hfresh : (g.allocValue id x flags).1.slot?
        (g.allocValue id x flags).2 = some ⟨x, flags⟩ := by
      rw [hslot]
      exact if_pos rfl
    rw [Option.map_some, isBuiltin_of_slot? hfresh]
  next =>
    cases hi : g.vertexFor? i with
    | none => rfl
    | some v =>
        have hold : (g.allocValue id x flags).1.slot? v = g.slot? v := by
          rw [hslot, if_neg (hg.ne_fresh hi)]
        rw [Option.map_some, Option.map_some, isBuiltin_congr hold]

theorem builtin_registrationFlags (g : Graph) :
    g.registrationFlags.builtin = g.bootstrapping := by
  unfold registrationFlags
  cases g.bootstrapping <;> rfl

theorem WellFormed.enrols_allocValue (hg : g.WellFormed)
    (hnew : g.vertexFor? id = none) (x : Vertex) :
    g.Enrols (g.allocValue id x g.registrationFlags).1 [id] where
  phase := rfl
  standing i := by
    rw [hg.standing?_allocValue, builtin_registrationFlags]
    by_cases hi : i = id
    · simp [hi, standing?, hnew]
    · simp [hi]

theorem WellFormed.enrols_announce (hg : g.WellFormed) (id : ValueId)
    (x : Vertex) : g.Enrols (g.announce id x).1 [id] := by
  unfold announce
  cases hknown : g.vertexFor? id with
  | some v =>
      have hretire := Enrols.retireOutcomes g v
      have hset := Enrols.setVertex (g.retireOutcomes v) v x
      exact (hretire.trans hset).of_known hknown
  | none => exact hg.enrols_allocValue hknown x

mutual

theorem WellFormed.enrols_register {g : Graph} (hg : g.WellFormed) :
    (value : Value) → g.Enrols (g.register value).1 value.ids
  | .plain about => by
      rw [register]
      exact hg.enrols_announce about.id (.plain about)
  | .union about outcomes => by
      have hannounce := edits_announce (x := .union about []) hg rfl rfl
      have hfirst := hg.enrols_announce about.id (.union about [])
      have hrest := (hannounce.1.wellFormed hg).enrols_registerOutcomes
        hannounce.2 0 outcomes
      rw [register]
      exact (hfirst.append hrest).trans (.setOutcomes _ _ _)

theorem WellFormed.enrols_registerOutcomes {g : Graph} (hg : g.WellFormed)
    {union : Handle} (hunion : g.HoldsValue union) (position : Nat) :
    (outcomes : List Value) →
      g.Enrols (g.registerOutcomes union position outcomes).1
        (Value.idsOf outcomes)
  | [] => by
      rw [registerOutcomes]
      exact .refl g
  | outcome :: outcomes => by
      have hlink := edits_linkOutcome hg hunion position outcome
      have hfirst : g.Enrols (g.linkOutcome union position outcome)
          outcome.ids :=
        (hg.enrols_register outcome).trans (.install _ _)
      have hrest := (hlink.wellFormed hg).enrols_registerOutcomes
        (hlink.grows.holdsValue hunion) (position + 1) outcomes
      rw [registerOutcomes_cons]
      exact hfirst.append hrest

end

theorem WellFormed.enrols_resolve (hg : g.WellFormed) (id : ValueId) :
    g.Enrols (g.resolve id).1 [id] := by
  unfold Graph.resolve
  cases hknown : g.vertexFor? id with
  | some v => exact (Enrols.refl g).of_known hknown
  | none => exact hg.enrols_allocValue hknown _

theorem WellFormed.enrols_resolveEnd (hg : g.WellFormed)
    (id : Option ValueId) : g.Enrols (g.resolveEnd id).1 id.toList := by
  cases id with
  | none => exact .refl g
  | some id => exact hg.enrols_resolve id

theorem WellFormed.enrols_ends (hg : g.WellFormed)
    (source target : Option ValueId) :
    g.Enrols ((g.resolveEnd source).1.resolveEnd target).1
      (source.toList ++ target.toList) := by
  have hsource := (edits_resolveEnd hg source).1.wellFormed hg
  exact (hg.enrols_resolveEnd source).append (hsource.enrols_resolveEnd target)

/-! ## Operations -/

theorem enrols_surfacePushed (g : Graph) (v : Handle) :
    g.Enrols (g.surfacePushed v) [] := by
  unfold surfacePushed
  split
  · exact .of_core (core_surface g v)
  · exact .refl g

theorem enrols_surfaceLinked (g : Graph) (s t : Handle) :
    g.Enrols (g.surfaceLinked s t) [] := by
  unfold surfaceLinked
  split
  · exact .of_core ((core_surface _ t).trans (core_surface g s))
  · exact .refl g

theorem enrols_pushFrame (hg : g.ArenaSound) (value : Handle) :
    g.Enrols (g.pushFrame value) [] := by
  have hkept := keepsBuiltins_pushFrame hg value
  apply Enrols.of_same _ hkept.builtin hkept.bootstrapping
  rw [pushFrame_eq]

theorem WellFormed.enrols_push (hg : g.WellFormed) (id : ValueId) :
    g.Enrols (g.push id) [id] := by
  have hsurfaced := (hg.resolve id).surfacePushed (g.resolve id).2
  have hresolve := (hg.enrols_resolve id).trans
    (enrols_surfacePushed (g.resolve id).1 (g.resolve id).2)
  have hframe := enrols_pushFrame hsurfaced.toArenaSound (g.resolve id).2
  exact (hresolve.trans hframe).trans (.markChanged _)

theorem WellFormed.enrols_pop (hg : g.WellFormed) (id : ValueId) :
    g.Enrols (g.apply (.event (.pop id))) [] := by
  rcases g.apply_pop id with hsame | ⟨f, htop, heq⟩
  · rw [hsame]
    exact .refl g
  · have hkept := keepsBuiltins_popFrame hg.toArenaSound htop
    rw [heq]
    exact .of_same rfl hkept.builtin rfl

theorem WellFormed.enrols_link (hg : g.WellFormed)
    (source target : Option ValueId) (label : String) :
    g.Enrols (g.link source target label)
      (source.toList ++ target.toList) := by
  have hends := (hg.enrols_ends source target).trans
    (enrols_surfaceLinked _ (g.resolveEnd source).2
      ((g.resolveEnd source).1.resolveEnd target).2)
  exact (hends.trans (.install _ _)).trans (.markChanged _)

theorem WellFormed.enrols_unlink (hg : g.WellFormed)
    (source target : Option ValueId) (label : String) :
    g.Enrols (g.unlink source target label)
      (source.toList ++ target.toList) := by
  have hends := (hg.enrols_ends source target).trans
    (.retire _ (g.resolveEnd source).2 (.property label))
  exact hends.trans (.markChanged _)

theorem WellFormed.enrols_event (hg : g.WellFormed) (e : Event) :
    g.Enrols (g.apply (.event e)) (Operation.event e).mentioned := by
  cases e with
  | create value => exact (hg.enrols_register value).trans (.markChanged _)
  | push id => exact hg.enrols_push id
  | pop id => exact hg.enrols_pop id
  | link source target label => exact hg.enrols_link source target label
  | unlink source target label => exact hg.enrols_unlink source target label
  | callBoundary => exact .of_same rfl (fun _ => rfl) rfl

theorem WellFormed.enrols_setGlobal (hg : g.WellFormed)
    (id : Option ValueId) : g.Enrols (g.setGlobal id) id.toList := by
  cases id with
  | none => exact .of_same rfl (fun _ => rfl) rfl
  | some id =>
      exact (hg.enrols_resolve id).trans (.of_same rfl (fun _ => rfl) rfl)

theorem standing?_setBuiltin (hg : g.WellFormed)
    (hv : g.vertexFor? id = some v) (i : ValueId) :
    (g.setBuiltin v).standing? i =
      if i = id then some true else g.standing? i := by
  have hslot := slot?_modifySlot g v
    (f := fun s => { s with flags := { s.flags with builtin := true } })
  have hheld := hg.valueAt?_of_vertexFor? hv
  have hkept : (g.setBuiltin v).vertexFor? = g.vertexFor? := rfl
  unfold standing?
  rw [hkept]
  by_cases hi : i = id
  · obtain ⟨s, hs⟩ := Option.ne_none_iff_exists'.mp
      (holdsValue_of_valueAt? hheld).slot?_ne_none
    have hnew : (g.setBuiltin v).slot? v =
        some { s with flags := { s.flags with builtin := true } } := by
      unfold setBuiltin
      rw [hslot, if_pos rfl, hs]
      rfl
    rw [if_pos hi, hi, hv, Option.map_some, isBuiltin_of_slot? hnew]
  · rw [if_neg hi]
    cases hw : g.vertexFor? i with
    | none => rfl
    | some w =>
        have hother : w ≠ v := by
          intro heq
          have hheld' := hg.valueAt?_of_vertexFor? hw
          rw [heq, hheld] at hheld'
          exact hi (Option.some.inj hheld').symm
        have hsame : (g.setBuiltin v).slot? w = g.slot? w := by
          unfold setBuiltin
          rw [hslot, if_neg hother]
        rw [Option.map_some, Option.map_some, isBuiltin_congr hsame]

theorem WellFormed.standing?_registerBuiltin (hg : g.WellFormed)
    (id i : ValueId) :
    (g.registerBuiltin id).standing? i =
      if i = id then some true else g.standing? i := by
  unfold registerBuiltin
  cases hknown : g.vertexFor? id with
  | some v => exact standing?_setBuiltin hg hknown i
  | none => exact hg.standing?_allocValue id _ _ i

theorem WellFormed.standing?_registerBuiltins (hg : g.WellFormed)
    (ids : List ValueId) (i : ValueId) :
    (g.registerBuiltins ids).standing? i =
      if i ∈ ids then some true else g.standing? i := by
  unfold registerBuiltins
  induction ids generalizing g with
  | nil => simp
  | cons id ids ih =>
      have hfirst := (edits_registerBuiltin hg id).wellFormed hg
      rw [List.foldl_cons, ih hfirst, hg.standing?_registerBuiltin]
      by_cases hi : i = id <;> by_cases hmem : i ∈ ids <;> simp [hi, hmem]

/-- What becomes of the standing of a value in one operation. -/
theorem WellFormed.standing?_apply (hg : g.WellFormed) (op : Operation)
    (id : ValueId) :
    (g.apply op).standing? id =
      if id ∈ op.promoted then some true
      else (g.standing? id).or
        (if id ∈ op.mentioned then some g.bootstrapping else none) := by
  cases op with
  | event e => exact (hg.enrols_event e).standing id
  | beginBootstrap => exact (Option.or_none).symm
  | endBootstrap => exact (Option.or_none).symm
  | registerBuiltins ids =>
      change (g.registerBuiltins ids).standing? id = _
      rw [hg.standing?_registerBuiltins]
      by_cases hid : id ∈ ids <;>
        simp [Operation.promoted, Operation.mentioned, hid]
  | setGlobal i => exact (hg.enrols_setGlobal i).standing id
  | collect => exact (Enrols.of_core hg.core_collect).standing id
  | takeSnapshot => exact (Option.or_none).symm

/-! ## Builtins -/

theorem mem_builtins : v ∈ g.builtins ↔ g.isBuiltin v = true := by
  unfold builtins
  rw [List.mem_filter, and_iff_right_iff_imp, mem_handles]
  intro hv
  by_contra hout
  have hnone : g.slot? v = none := by
    simp [slot?, List.getElem?_eq_none (not_lt.mp hout)]
  rw [isBuiltin_of_empty hnone] at hv
  contradiction

theorem eq_of_ascending {vs ws : List Handle} (hvs : vs.Pairwise (· < ·))
    (hws : ws.Pairwise (· < ·)) (hmem : ∀ v, v ∈ vs ↔ v ∈ ws) : vs = ws := by
  have hirrefl : Std.Irrefl fun v w : Handle => v < w :=
    ⟨fun v => Nat.lt_irrefl v.index⟩
  have hantisymm : Std.Antisymm fun v w : Handle => v < w :=
    ⟨fun _ _ hlt hgt => absurd hgt (Nat.lt_asymm hlt)⟩
  exact hvs.eq_of_mem_iff hws hmem

theorem builtins_ascending (g : Graph) : g.builtins.Pairwise (· < ·) :=
  g.handles_ascending.filter _

theorem WellFormed.holdsValue_of_isBuiltin (hg : g.WellFormed)
    (hv : g.isBuiltin v = true) : g.HoldsValue v := by
  cases hs : g.slot? v with
  | none =>
      rw [isBuiltin_of_empty hs] at hv
      contradiction
  | some s =>
      refine ⟨s.vertex, vertex?_of_slot? hs, ?_⟩
      by_contra hvalue
      have hflags := hg.structural_flags v s hs (Bool.eq_false_iff.mpr hvalue)
      rw [isBuiltin_of_slot? hs, hflags] at hv
      contradiction

theorem standing?_of_vertexFor? (hv : g.vertexFor? id = some v) :
    g.standing? id = some (g.isBuiltin v) := by
  rw [standing?, hv, Option.map_some]

theorem WellFormed.mem_builtins_iff (hg : g.WellFormed) :
    v ∈ g.builtins ↔
      ∃ id, g.standing? id = some true ∧ g.vertexFor? id = some v := by
  rw [mem_builtins]
  constructor
  · intro hv
    have hheld := hg.holdsValue_of_isBuiltin hv
    obtain ⟨id, hid⟩ := hg.holdsValue_iff_known.mp hheld
    exact ⟨id, by rw [standing?_of_vertexFor? hid, hv], hid⟩
  · intro ⟨id, hstanding, hid⟩
    rw [standing?_of_vertexFor? hid] at hstanding
    exact Option.some.inj hstanding

theorem WellFormed.vertexFor?_apply (hg : g.WellFormed) (op : Operation)
    (hv : g.vertexFor? id = some v) :
    (g.apply op).vertexFor? id = some v := by
  rw [(hg.apply op).vertexFor?_iff]
  exact hg.valueAt?_apply op (hg.valueAt?_of_vertexFor? hv)

theorem WellFormed.isBuiltin_apply (hg : g.WellFormed) (op : Operation)
    (hv : g.vertexFor? id = some v) :
    (g.apply op).isBuiltin v =
      (g.isBuiltin v || decide (id ∈ op.promoted)) := by
  have hstep := hg.standing?_apply op id
  rw [standing?_of_vertexFor? hv,
    standing?_of_vertexFor? (hg.vertexFor?_apply op hv)] at hstep
  by_cases hid : id ∈ op.promoted
  · simpa [hid] using hstep
  · simpa [hid] using hstep

/-! ## Outside the bootstrap -/

theorem WellFormed.bootstrapping_apply (hg : g.WellFormed) {op : Operation}
    (hphase : g.bootstrapping = false) (hop : op.opensVocabulary = false) :
    (g.apply op).bootstrapping = false := by
  cases op with
  | event e => exact (hg.enrols_event e).phase.trans hphase
  | beginBootstrap => contradiction
  | endBootstrap => rfl
  | registerBuiltins ids => contradiction
  | setGlobal id => exact (hg.enrols_setGlobal id).phase.trans hphase
  | collect => exact (Enrols.of_core hg.core_collect).phase.trans hphase
  | takeSnapshot => exact hphase

theorem Operation.promoted_eq_nil {op : Operation}
    (hop : op.opensVocabulary = false) : op.promoted = [] := by
  cases op with
  | registerBuiltins ids => contradiction
  | _ => rfl

theorem WellFormed.builtins_apply (hg : g.WellFormed) {op : Operation}
    (hphase : g.bootstrapping = false) (hop : op.opensVocabulary = false) :
    (g.apply op).builtins = g.builtins := by
  have hmem : ∀ v, v ∈ (g.apply op).builtins ↔ v ∈ g.builtins := by
    intro v
    rw [(hg.apply op).mem_builtins_iff, hg.mem_builtins_iff]
    constructor
    · intro ⟨id, hstanding, hid⟩
      rw [hg.standing?_apply, Operation.promoted_eq_nil hop, hphase] at hstanding
      have hold : g.standing? id = some true := by
        cases hs : g.standing? id with
        | none => simp [hs] at hstanding
        | some b => simpa [hs] using hstanding
      obtain ⟨w, hw, _⟩ := Option.map_eq_some_iff.mp hold
      have hsame := hg.vertexFor?_apply op hw
      rw [hid] at hsame
      exact ⟨id, hold, by rw [hw, Option.some.inj hsame]⟩
    · intro ⟨id, hstanding, hid⟩
      refine ⟨id, ?_, hg.vertexFor?_apply op hid⟩
      simp [hg.standing?_apply, Operation.promoted_eq_nil hop, hstanding]
  exact eq_of_ascending (builtins_ascending _) (builtins_ascending g) hmem

theorem WellFormed.builtins_run (hg : g.WellFormed) {ops : List Operation}
    (hphase : g.bootstrapping = false)
    (hops : ∀ op ∈ ops, op.opensVocabulary = false) :
    (g.run ops).builtins = g.builtins := by
  induction ops generalizing g with
  | nil => rfl
  | cons op ops ih =>
      rw [List.forall_mem_cons] at hops
      have hrest := ih (hg.apply op) (hg.bootstrapping_apply hphase hops.1)
        hops.2
      exact hrest.trans (hg.builtins_apply hphase hops.1)

theorem bootstrapping_registerBuiltins (g : Graph) (ids : List ValueId) :
    (g.registerBuiltins ids).bootstrapping = g.bootstrapping := by
  apply List.foldlRecOn (motive := fun g' : Graph =>
    g'.bootstrapping = g.bootstrapping)
  · rfl
  · intro g' hsame id _
    unfold registerBuiltin
    cases g'.vertexFor? id <;> exact hsame

theorem WellFormed.bootstrapping_leaveBootstrap (hg : g.WellFormed)
    (ids : List ValueId) (global : Option ValueId) :
    (g.leaveBootstrap ids global).bootstrapping = false := by
  have hbuiltins : (g.endBootstrap.registerBuiltins ids).WellFormed :=
    (hg.apply .endBootstrap).apply (.registerBuiltins ids)
  have hphase := (hbuiltins.enrols_setGlobal global).phase
  rw [bootstrapping_registerBuiltins] at hphase
  exact hphase

/-! ## The history -/

def Mentions (ops : List Operation) (id : ValueId) : Prop :=
  ∃ op ∈ ops, id ∈ op.mentioned

/-- The first operation that mentions the value finds the graph in the
bootstrap. -/
def BornInBootstrap (ops : List Operation) (id : ValueId) : Prop :=
  ∃ before op after, ops = before ++ op :: after ∧ ¬ Mentions before id ∧
    id ∈ op.mentioned ∧ (new.run before).bootstrapping = true

/-- The value was first mentioned in the bootstrap or was ever registered as a
builtin. -/
def InVocabulary (ops : List Operation) (id : ValueId) : Prop :=
  BornInBootstrap ops id ∨
    ∃ ids, .registerBuiltins ids ∈ ops ∧ id ∈ ids

variable {ops : List Operation} {op : Operation}

theorem mentions_concat :
    Mentions (ops ++ [op]) id ↔ Mentions ops id ∨ id ∈ op.mentioned := by
  simp [Mentions, or_and_right, exists_or]

theorem bornInBootstrap_concat :
    BornInBootstrap (ops ++ [op]) id ↔ BornInBootstrap ops id ∨
      ¬ Mentions ops id ∧ id ∈ op.mentioned ∧
        (new.run ops).bootstrapping = true := by
  constructor
  · intro ⟨before, first, after, hops, hborn⟩
    cases after using List.reverseRecOn with
    | nil =>
        obtain ⟨rfl, rfl⟩ := List.append_singleton_inj.mp hops
        exact Or.inr hborn
    | append_singleton after last =>
        rw [← List.cons_append, ← List.append_assoc] at hops
        have hprefix := (List.append_singleton_inj.mp hops).1
        exact Or.inl ⟨before, first, after, hprefix, hborn⟩
  · intro h
    cases h with
    | inl hearlier =>
        obtain ⟨before, first, after, rfl, hborn⟩ := hearlier
        exact ⟨before, first, after ++ [op], by simp, hborn⟩
    | inr hborn => exact ⟨ops, op, [], rfl, hborn⟩

theorem registered_concat :
    (∃ ids, .registerBuiltins ids ∈ ops ++ [op] ∧ id ∈ ids) ↔
      (∃ ids, .registerBuiltins ids ∈ ops ∧ id ∈ ids) ∨
        id ∈ op.promoted := by
  have hlast : (∃ ids, .registerBuiltins ids = op ∧ id ∈ ids) ↔
      id ∈ op.promoted := by
    cases op <;> simp [Operation.promoted]
  simp [or_and_right, exists_or, hlast]

/-- A value is known exactly if an operation mentioned it. -/
theorem standing?_run_eq_none_iff (ops : List Operation) (id : ValueId) :
    (new.run ops).standing? id = none ↔ ¬ Mentions ops id := by
  induction ops using List.reverseRecOn with
  | nil => simp [Mentions, standing?, run, vertexFor?, new, Table.get?_empty]
  | append_singleton ops op ih =>
      have hpromoted : id ∈ op.promoted → id ∈ op.mentioned := by
        cases op <;> simp [Operation.promoted, Operation.mentioned]
      rw [run_concat, (wellFormed_run_new ops).standing?_apply,
        mentions_concat, not_or, ← ih]
      by_cases hid : id ∈ op.promoted
      · simp [hid, hpromoted hid]
      · simp [hid]

theorem standing?_run_eq_true_iff (ops : List Operation) (id : ValueId) :
    (new.run ops).standing? id = some true ↔ InVocabulary ops id := by
  unfold InVocabulary
  induction ops using List.reverseRecOn with
  | nil =>
      simp [BornInBootstrap, standing?, run, vertexFor?, new, Table.get?_empty]
  | append_singleton ops op ih =>
      have hknown := standing?_run_eq_none_iff ops id
      rw [run_concat, (wellFormed_run_new ops).standing?_apply,
        bornInBootstrap_concat, registered_concat, ← hknown, or_or_or_comm,
        ← ih]
      by_cases hid : id ∈ op.promoted
      · simp [hid]
      · cases hs : (new.run ops).standing? id with
        | none => simp [hid]
        | some b => simp [hid]

/-- The builtins, in ascending order, are the vertices of the vocabulary: of the
values that were first mentioned in the bootstrap or ever registered as builtins.
An operation keeps the flag of every known value, unless it registers the value
as a builtin.  When the bootstrap is over, nothing but another bootstrap or
registration changes the builtins any more. -/
theorem builtins_are_vocabulary (ops : List Operation) :
    let g := new.run ops
    (g.builtins.Pairwise (· < ·) ∧
      (∀ v, v ∈ g.builtins ↔
        ∃ id, InVocabulary ops id ∧ g.vertexFor? id = some v) ∧
      ∀ id, InVocabulary ops id → ∃ v, g.vertexFor? id = some v) ∧
    (∀ op id v, g.vertexFor? id = some v →
      (g.apply op).isBuiltin v =
        (g.isBuiltin v || decide (id ∈ op.promoted))) ∧
    ∀ ids global later, (∀ op ∈ later, op.opensVocabulary = false) →
      ((g.leaveBootstrap ids global).run later).builtins =
        (g.leaveBootstrap ids global).builtins := by
  intro g
  have hg : g.WellFormed := wellFormed_run_new ops
  constructor
  · constructor
    · exact builtins_ascending g
    · constructor
      · intro v
        simp only [hg.mem_builtins_iff, ← standing?_run_eq_true_iff]
        rfl
      · intro id hid
        have hstanding := (standing?_run_eq_true_iff ops id).mpr hid
        obtain ⟨v, hv, _⟩ := Option.map_eq_some_iff.mp hstanding
        exact ⟨v, hv⟩
  · constructor
    · intro op id v hv
      exact hg.isBuiltin_apply op hv
    · intro ids global later hlater
      have hleft : (g.leaveBootstrap ids global).WellFormed :=
        ((hg.apply .endBootstrap).apply (.registerBuiltins ids)).apply
          (.setGlobal global)
      have hphase := hg.bootstrapping_leaveBootstrap ids global
      exact hleft.builtins_run hphase hlater

end LiveHeap.Graph
