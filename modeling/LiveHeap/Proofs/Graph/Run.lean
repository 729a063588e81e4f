import LiveHeap.Proofs.Collection.Cycle
import LiveHeap.Proofs.Graph.Edit
import LiveHeap.Proofs.Graph.Frames

/-!
# Runs of operations

Every operation but pushes and pops is a sequence of elementary changes
(`edits_apply`), a push is such a sequence with one frame pushed behind it, and
a pop takes one frame off or is refused.  So every run of operations from a new
graph is well formed.
-/

namespace LiveHeap.Graph

variable {g : Graph}

/-! ## Flags and contents of a slot -/

/-- A slot may keep its vertex, if the flags of structural vertices stay. -/
theorem WellFormed.rewrites (hg : g.WellFormed) {v : Handle} {s s' : Slot}
    (hs : g.slot? v = some s) (hvertex : s'.vertex = s.vertex)
    (hstructural : s.vertex.isValue = false → s' = s) : g.Rewrites s s' where
  id := by rw [hvertex]
  structural := hstructural
  outcomes outcomes hout := by
    refine hg.outcome_value v outcomes ?_
    rw [outcomes?, vertex?_of_slot? hs, ← hvertex]
    exact hout

theorem isValue_of_slot? {v : Handle} {s : Slot} (hv : g.HoldsValue v)
    (hs : g.slot? v = some s) : s.vertex.isValue = true := by
  obtain ⟨x, hx, hvalue⟩ := hv
  rw [vertex?_of_slot? hs] at hx
  rw [Option.some.inj hx]
  exact hvalue

theorem edits_setLive (hg : g.WellFormed) {v : Handle} {live : Bool}
    (hlive : live = true ∨ g.HoldsValue v) : g.Edits (g.setLive v live) := by
  refine .single (.modify fun s hs => hg.rewrites hs rfl fun hvalue => ?_)
  rcases hlive with rfl | hv
  · have hflags := hg.structural_flags v s hs hvalue
    cases s
    simp_all
  · rw [isValue_of_slot? hv hs] at hvalue
    contradiction

theorem edits_setBuiltin (hg : g.WellFormed) {v : Handle}
    (hv : g.HoldsValue v) : g.Edits (g.setBuiltin v) := by
  refine .single (.modify fun s hs => hg.rewrites hs rfl fun hvalue => ?_)
  rw [isValue_of_slot? hv hs] at hvalue
  contradiction

theorem edits_setVertex {v : Handle} {id : ValueId} {x : Vertex}
    (hv : g.valueAt? v = some id) (hx : x.valueId? = some id)
    (hleaf : x.outcomes?.getD [] = []) : g.Edits (g.setVertex v x) := by
  refine .single (.modify fun s hs => ?_)
  have hsame : s.vertex.valueId? = some id := by
    rw [valueAt?, vertex?_of_slot? hs] at hv
    exact hv
  refine ⟨hx.trans hsame.symm, fun hvalue => ?_, fun outcomes hout => ?_⟩
  · rw [Vertex.valueId?_eq_none_iff.mpr hvalue] at hsame
    simp at hsame
  · have hnil : outcomes = [] := by simpa [hout] using hleaf
    simp [hnil]

theorem edits_setOutcomes (hg : g.WellFormed) {v : Handle}
    {outcomes : List Handle} (houtcomes : ∀ w ∈ outcomes, g.HoldsValue w) :
    g.Edits (g.setOutcomes v outcomes) := by
  refine .single (.modify fun s hs => ?_)
  split
  next about old hunion =>
    refine ⟨by rw [hunion]; rfl, fun hvalue => ?_, fun os hout => ?_⟩
    · rw [hunion] at hvalue
      contradiction
    · obtain rfl : outcomes = os := Option.some.inj hout
      exact houtcomes
  next => exact hg.rewrites hs rfl fun _ => rfl

theorem edits_markChanged (hg : g.WellFormed) : g.Edits g.markChanged :=
  .single (.note g.global g.bootstrapping true true g.collectionDue g.collector
    hg.global_value hg.idle)

theorem edits_retireOutcomes (g : Graph) (v : Handle) :
    g.Edits (g.retireOutcomes v) := by
  apply List.foldlRecOn (motive := g.Edits)
  · exact .refl
  · exact fun g' hedits i _ => hedits.tail .retire

/-! ## Surfacing -/

/-- What showing one hidden builtin keeps, revealing keeps. -/
theorem revealPending_keeps {p : Graph → Prop}
    (hshow : ∀ g v, g.isHidden v = true → p g → p (g.setLive v true))
    (g : Graph) (pending : List Handle) (hg : p g) :
    p (g.revealPending pending) := by
  induction g, pending using revealPending.induct with
  | case1 g =>
      rw [revealPending]
      exact hg
  | case2 g v pending hhidden g' ih =>
      rw [revealPending, dif_pos hhidden]
      exact ih (hshow g v hhidden hg)
  | case3 g v pending hseen ih =>
      rw [revealPending, dif_neg hseen]
      exact ih hg

theorem edits_revealPending (hg : g.WellFormed) (pending : List Handle) :
    g.Edits (g.revealPending pending) := by
  apply revealPending_keeps (p := g.Edits)
  · intro g' v _ hedits
    exact hedits.trans (edits_setLive (hedits.wellFormed hg) (Or.inl rfl))
  · exact .refl

theorem edits_surface (hg : g.WellFormed) (v : Handle) :
    g.Edits (g.surface v) := by
  have hshow : g.Edits (g.setLive v true) := edits_setLive hg (Or.inl rfl)
  exact hshow.trans (edits_revealPending (hshow.wellFormed hg) _)

theorem edits_surfacePushed (hg : g.WellFormed) (v : Handle) :
    g.Edits (g.surfacePushed v) := by
  unfold surfacePushed
  split
  · exact edits_surface hg v
  · exact .refl

theorem WellFormed.surfacePushed (hg : g.WellFormed) (v : Handle) :
    (g.surfacePushed v).WellFormed := (edits_surfacePushed hg v).wellFormed hg

theorem edits_surfaceLinked (hg : g.WellFormed) (s t : Handle) :
    g.Edits (g.surfaceLinked s t) := by
  unfold surfaceLinked
  split
  · have hsource := edits_surface hg s
    exact hsource.trans (edits_surface (hsource.wellFormed hg) t)
  · exact .refl

/-! ## Registration -/

theorem WellFormed.valueAt?_of_vertexFor? (hg : g.WellFormed) {id : ValueId}
    {v : Handle} (hv : g.vertexFor? id = some v) : g.valueAt? v = some id :=
  (hg.vertexFor?_iff id v).mp hv

theorem vertexFor?_allocValue (g : Graph) (id : ValueId) (x : Vertex)
    (flags : Flags) (i : ValueId) :
    (g.allocValue id x flags).1.vertexFor? i =
      if i = id then some (g.allocValue id x flags).2 else g.vertexFor? i :=
  Table.get?_insert _ _ _ _

theorem edits_announce (hg : g.WellFormed) {id : ValueId} {x : Vertex}
    (hx : x.valueId? = some id) (hleaf : x.outcomes?.getD [] = []) :
    g.Edits (g.announce id x).1 ∧
      (g.announce id x).1.HoldsValue (g.announce id x).2 := by
  unfold announce
  cases hknown : g.vertexFor? id with
  | some v =>
      have hretire := edits_retireOutcomes g v
      have hv := hretire.grows.valueAt v id (hg.valueAt?_of_vertexFor? hknown)
      have hset := edits_setVertex hv hx hleaf
      exact ⟨hretire.trans hset,
        holdsValue_of_valueAt? (hset.grows.valueAt v id hv)⟩
  | none =>
      refine ⟨.single (.alloc hknown hx hleaf), x, ?_, isValue_of_valueId? hx⟩
      rw [vertex?_allocValue]
      exact if_pos rfl

mutual

theorem edits_register {g : Graph} (hg : g.WellFormed) :
    (value : Value) → g.Edits (g.register value).1 ∧
      (g.register value).1.HoldsValue (g.register value).2
  | .plain about => by
      rw [register]
      exact edits_announce hg rfl rfl
  | .union about outcomes => by
      rw [register]
      obtain ⟨hannounce, hv⟩ := edits_announce (x := .union about []) hg rfl rfl
      have hg₁ := hannounce.wellFormed hg
      obtain ⟨houtcomes, htargets⟩ :=
        edits_registerOutcomes hg₁ hv 0 outcomes
      have hg₂ := houtcomes.wellFormed hg₁
      have hset := edits_setOutcomes
        (v := (g.announce about.id (.union about [])).2) hg₂ htargets
      exact ⟨(hannounce.trans houtcomes).trans hset,
        hset.grows.holdsValue (houtcomes.grows.holdsValue hv)⟩

theorem edits_registerOutcomes {g : Graph} (hg : g.WellFormed)
    {union : Handle} (hunion : g.HoldsValue union) (position : Nat) :
    (outcomes : List Value) →
      g.Edits (g.registerOutcomes union position outcomes).1 ∧
        ∀ w ∈ (g.registerOutcomes union position outcomes).2,
          (g.registerOutcomes union position outcomes).1.HoldsValue w
  | [] => by
      rw [registerOutcomes]
      exact ⟨.refl, by simp⟩
  | outcome :: outcomes => by
      rw [registerOutcomes]
      obtain ⟨hfirst, htarget⟩ := edits_register hg outcome
      have hg₁ := hfirst.wellFormed hg
      have hlink : Edit (g.register outcome).1
          ((g.register outcome).1.install
            ⟨union, (g.register outcome).2, .maybe position⟩) :=
        .install rfl (Or.inr (hfirst.grows.holdsValue hunion))
          (Or.inr htarget)
      have hunion₂ := hlink.grows.holdsValue (hfirst.grows.holdsValue hunion)
      obtain ⟨hrest, htargets⟩ := edits_registerOutcomes
        (hlink.wellFormed hg₁) hunion₂ (position + 1) outcomes
      refine ⟨(hfirst.tail hlink).trans hrest, fun w hw => ?_⟩
      rcases List.mem_cons.mp hw with rfl | hw
      · exact hrest.grows.holdsValue (hlink.grows.holdsValue htarget)
      · exact htargets w hw

end

/-- The graph when one outcome of a union is registered and linked. -/
def linkOutcome (g : Graph) (union : Handle) (position : Nat)
    (outcome : Value) : Graph :=
  (g.register outcome).1.install
    ⟨union, (g.register outcome).2, .maybe position⟩

theorem registerOutcomes_cons (g : Graph) (union : Handle) (position : Nat)
    (outcome : Value) (outcomes : List Value) :
    let rest := (g.linkOutcome union position outcome).registerOutcomes union
      (position + 1) outcomes
    g.registerOutcomes union position (outcome :: outcomes) =
      (rest.1, (g.register outcome).2 :: rest.2) := by
  rw [registerOutcomes]
  rfl

theorem edits_linkOutcome (hg : g.WellFormed) {union : Handle}
    (hunion : g.HoldsValue union) (position : Nat) (outcome : Value) :
    g.Edits (g.linkOutcome union position outcome) := by
  obtain ⟨hfirst, htarget⟩ := edits_register hg outcome
  have hunion₁ := hfirst.grows.holdsValue hunion
  exact hfirst.tail (.install rfl (Or.inr hunion₁) (Or.inr htarget))

theorem grows_linkOutcome (g : Graph) (union : Handle) (position : Nat)
    (outcome : Value) :
    (g.register outcome).1.Grows (g.linkOutcome union position outcome) :=
  .install _ _

theorem edits_resolve (g : Graph) (id : ValueId) :
    g.Edits (g.resolve id).1 ∧
      (g.resolve id).1.vertexFor? id = some (g.resolve id).2 := by
  unfold resolve
  cases hknown : g.vertexFor? id with
  | some v => exact ⟨.refl, hknown⟩
  | none =>
      refine ⟨.single (.alloc hknown rfl rfl), ?_⟩
      rw [vertexFor?_allocValue]
      exact if_pos rfl

theorem WellFormed.resolve (hg : g.WellFormed) (id : ValueId) :
    (g.resolve id).1.WellFormed := (edits_resolve g id).1.wellFormed hg

theorem holdsValue_resolve (hg : g.WellFormed) (id : ValueId) :
    (g.resolve id).1.HoldsValue (g.resolve id).2 := by
  obtain ⟨hedits, hv⟩ := edits_resolve g id
  exact holdsValue_of_valueAt?
    ((hedits.wellFormed hg).valueAt?_of_vertexFor? hv)

theorem edits_resolveEnd (hg : g.WellFormed) (id : Option ValueId) :
    g.Edits (g.resolveEnd id).1 ∧
      (g.resolveEnd id).1.IsEnd (g.resolveEnd id).2 := by
  cases id with
  | none => exact ⟨.refl, Or.inl rfl⟩
  | some id =>
      exact ⟨(edits_resolve g id).1, Or.inr (holdsValue_resolve hg id)⟩

theorem edits_registerBuiltin (hg : g.WellFormed) (id : ValueId) :
    g.Edits (g.registerBuiltin id) := by
  unfold registerBuiltin
  cases hknown : g.vertexFor? id with
  | some v =>
      exact edits_setBuiltin hg
        (holdsValue_of_valueAt? (hg.valueAt?_of_vertexFor? hknown))
  | none => exact .single (.alloc hknown rfl rfl)

theorem edits_registerBuiltins (hg : g.WellFormed) (ids : List ValueId) :
    g.Edits (g.registerBuiltins ids) := by
  apply List.foldlRecOn (motive := g.Edits)
  · exact .refl
  · exact fun g' hedits id _ =>
      hedits.trans (edits_registerBuiltin (hedits.wellFormed hg) id)

theorem edits_setGlobal (hg : g.WellFormed) (id : Option ValueId) :
    g.Edits (g.setGlobal id) := by
  cases id with
  | none =>
      exact .single (.note none g.bootstrapping g.changed g.mutated
        g.collectionDue g.collector (by simp) hg.idle)
  | some id =>
      obtain ⟨hedits, _⟩ := edits_resolve g id
      have hv := holdsValue_resolve hg id
      have hlast : Edit (g.resolve id).1
          { (g.resolve id).1 with global := some (g.resolve id).2 } :=
        .note _ _ _ _ _ _ (by simp [hv]) (hedits.wellFormed hg).idle
      exact hedits.tail hlast

/-! ## Links and collections -/

theorem edits_link (hg : g.WellFormed) (source target : Option ValueId)
    (label : String) : g.Edits (g.link source target label) := by
  obtain ⟨hfirst, hs⟩ := edits_resolveEnd hg source
  have hg₁ := hfirst.wellFormed hg
  obtain ⟨hsecond, ht⟩ := edits_resolveEnd hg₁ target
  have hg₂ := hsecond.wellFormed hg₁
  have hsurface := edits_surfaceLinked hg₂ (g.resolveEnd source).2
    ((g.resolveEnd source).1.resolveEnd target).2
  have hg₃ := hsurface.wellFormed hg₂
  have hinstall := Edit.install (e := ⟨_, _, .property label⟩) rfl
    (hsurface.grows.isEnd (hsecond.grows.isEnd hs)) (hsurface.grows.isEnd ht)
  have hall : g.Edits _ :=
    ((hfirst.trans hsecond).trans hsurface).tail hinstall
  exact hall.trans (edits_markChanged (hall.wellFormed hg))

theorem edits_unlink (hg : g.WellFormed) (source target : Option ValueId)
    (label : String) : g.Edits (g.unlink source target label) := by
  obtain ⟨hfirst, _⟩ := edits_resolveEnd hg source
  obtain ⟨hsecond, _⟩ := edits_resolveEnd (hfirst.wellFormed hg) target
  have hall : g.Edits (((g.resolveEnd source).1.resolveEnd target).1.retire
      (g.resolveEnd source).2 (.property label)) :=
    (hfirst.trans hsecond).tail .retire
  exact hall.trans (edits_markChanged (hall.wellFormed hg))

/-- Takes the vertices out of the live set, one after the other. -/
def release (g : Graph) (vs : List Handle) : Graph :=
  vs.foldl (fun g v => g.setLive v false) g

theorem edits_release (hg : g.WellFormed) {vs : List Handle}
    (hvs : ∀ v ∈ vs, g.HoldsValue v) : g.Edits (g.release vs) := by
  apply List.foldlRecOn (motive := g.Edits)
  · exact .refl
  · intro g' hedits v hv
    have hvalue := hedits.grows.holdsValue (hvs v hv)
    exact hedits.trans (edits_setLive (hedits.wellFormed hg) (Or.inr hvalue))

theorem holdsValue_of_isCollectable {v : Handle}
    (hv : g.isCollectable v = true) : g.HoldsValue v := by
  unfold isCollectable at hv
  cases hs : g.slot? v with
  | none => simp [hs] at hv
  | some s =>
      simp only [hs, Bool.and_eq_true] at hv
      exact ⟨s.vertex, vertex?_of_slot? hs, hv.2⟩

/-- A collection releases what it answers, and all of that could be
collected. -/
theorem collect_released (hidle : g.collector.phase = .idle) :
    g.collect.1 =
        { g.release g.collect.2 with
          collector := g.collect.1.collector
          collectionDue := false
          mutated := false
          changed := (g.release g.collect.2).changed || !g.collect.2.isEmpty } ∧
      g.collect.1.collector.phase = .idle ∧
      ∀ v ∈ g.collect.2, g.isCollectable v = true := by
  obtain ⟨hphase, _, hremoved, hreleased⟩ :=
    Bench.collect_of_idle ⟨g.collector, g.scene, [], []⟩ hidle
  refine ⟨?_, hphase, fun v hv => ?_⟩
  · unfold collect release
    simp only [hreleased, List.nil_append]
  · have hmem : v ∈ g.scene.live := by
      have hwhite : v ∈ Marks.whites _ g.scene.live := hremoved ▸ hv
      exact (Marks.mem_whites.mp hwhite).1
    exact (List.mem_filter.mp hmem).2

theorem edits_collect (hg : g.WellFormed) : g.Edits g.collect.1 := by
  obtain ⟨heq, hphase, hremoved⟩ := collect_released hg.idle
  have hrelease := edits_release hg fun v hv =>
    holdsValue_of_isCollectable (hremoved v hv)
  rw [heq]
  refine hrelease.tail (.note _ _ _ _ _ _ ?_ hphase)
  exact (hrelease.wellFormed hg).global_value

/-! ## One operation -/

namespace Operation

def isPush : Operation → Bool
  | event (.push _) => true
  | _ => false

def isPop : Operation → Bool
  | event (.pop _) => true
  | _ => false

theorem kind (op : Operation) :
    (∃ id, op = event (.push id)) ∨ (∃ id, op = event (.pop id)) ∨
      op.isPush = false ∧ op.isPop = false := by
  cases op with
  | event e => cases e <;> simp [isPush, isPop]
  | _ => exact Or.inr (Or.inr ⟨rfl, rfl⟩)

end Operation

/-- Neither pushes nor pops: an operation made of elementary changes. -/
theorem edits_apply (hg : g.WellFormed) (op : Operation)
    (hpush : op.isPush = false) (hpop : op.isPop = false) :
    g.Edits (g.apply op) := by
  cases op with
  | event e =>
      cases e with
      | create value =>
          have hedits := (edits_register hg value).1
          exact hedits.trans (edits_markChanged (hedits.wellFormed hg))
      | push id => contradiction
      | pop id => contradiction
      | link source target label => exact edits_link hg source target label
      | unlink source target label => exact edits_unlink hg source target label
      | callBoundary =>
          exact .single (.note g.global g.bootstrapping g.changed g.mutated true
            g.collector hg.global_value hg.idle)
  | beginBootstrap =>
      exact .single (.note g.global true g.changed g.mutated g.collectionDue
        g.collector hg.global_value hg.idle)
  | endBootstrap =>
      exact .single (.note g.global false g.changed g.mutated g.collectionDue
        g.collector hg.global_value hg.idle)
  | registerBuiltins ids => exact edits_registerBuiltins hg ids
  | setGlobal id => exact edits_setGlobal hg id
  | collect => exact edits_collect hg
  | takeSnapshot =>
      exact .single (.note g.global g.bootstrapping false g.mutated
        g.collectionDue g.collector hg.global_value hg.idle)

/-- A push registers and surfaces the value, and then pushes one frame. -/
theorem apply_push (hg : g.WellFormed) (id : ValueId) :
    ∃ g' v, g.Edits g' ∧ g'.vertexFor? id = some v ∧
      g.apply (.event (.push id)) = (g'.pushFrame v).markChanged := by
  obtain ⟨hresolve, hv⟩ := edits_resolve g id
  have hg₁ := hresolve.wellFormed hg
  have hsurface := edits_surfacePushed hg₁ (g.resolve id).2
  refine ⟨_, _, hresolve.trans hsurface, ?_, rfl⟩
  rw [((hsurface.wellFormed hg₁).vertexFor?_iff _ _)]
  exact hsurface.grows.valueAt _ _ (hg₁.valueAt?_of_vertexFor? hv)

theorem pop_refused (htop : ¬ ∃ f, g.vertex? g.stackTop = some (.frame f)) :
    g.pop = .error .stackUnderflow := by
  unfold pop
  split
  next f hf => exact absurd ⟨f, hf⟩ htop
  next => rfl

/-- A pop is refused, or takes the frame on top off. -/
theorem apply_pop (g : Graph) (id : ValueId) :
    g.apply (.event (.pop id)) = g ∨
      ∃ f, g.vertex? g.stackTop = some (.frame f) ∧
        g.apply (.event (.pop id)) = g.popFrame f := by
  by_cases htop : ∃ f, g.vertex? g.stackTop = some (.frame f)
  · obtain ⟨f, hf⟩ := htop
    exact Or.inr ⟨f, hf, by simp [apply, deliver, pop_eq_popFrame hf]⟩
  · left
    simp [apply, deliver, pop_refused htop]

theorem WellFormed.apply (hg : g.WellFormed) (op : Operation) :
    (g.apply op).WellFormed := by
  rcases op.kind with ⟨id, rfl⟩ | ⟨id, rfl⟩ | ⟨hpush, hpop⟩
  · obtain ⟨g', v, hedits, hv, heq⟩ := apply_push hg id
    have hg' := hedits.wellFormed hg
    have hframe := hg'.pushFrame
      (holdsValue_of_valueAt? (hg'.valueAt?_of_vertexFor? hv))
    rw [heq]
    exact (edits_markChanged hframe).wellFormed hframe
  · rcases g.apply_pop id with hsame | ⟨f, htop, heq⟩
    · rw [hsame]
      exact hg
    · rw [heq]
      exact hg.popFrame htop
  · exact (edits_apply hg op hpush hpop).wellFormed hg

/-! ## Runs -/

theorem slot?_new (v : Handle) :
    new.slot? v =
      if v = root then some ⟨.root, ⟨true, false⟩⟩
      else if v = stack then some ⟨.stack, ⟨true, false⟩⟩ else none := by
  obtain ⟨_ | _ | i⟩ := v <;> simp [slot?, new, root, stack]

theorem vertex?_new (v : Handle) :
    new.vertex? v =
      if v = root then some .root
      else if v = stack then some .stack else none := by
  rw [vertex?, slot?_new]
  split
  · rfl
  · split <;> rfl

theorem valueAt?_new (v : Handle) : new.valueAt? v = none := by
  rw [valueAt?, vertex?_new]
  split
  · rfl
  · split <;> rfl

theorem outcomes?_new (v : Handle) : new.outcomes? v = none := by
  rw [outcomes?, vertex?_new]
  split
  · rfl
  · split <;> rfl

theorem frames_new : new.frames = [] := by
  have hchain : new.Chain new.stackTop [] := .bottom rfl
  exact hchain.frames_eq

theorem arenaSound_new : new.ArenaSound := by
  have hne : root ≠ stack := by decide
  constructor
  · intro v
    rw [vertex?_new]
    by_cases hroot : v = root
    · simp [hroot]
    · by_cases hstack : v = stack <;> simp [hroot, hstack, hne.symm]
  · intro v
    rw [vertex?_new]
    by_cases hroot : v = root
    · simp [hroot, hne]
    · by_cases hstack : v = stack <;> simp [hroot, hstack, hne.symm]
  · exact List.nodup_nil
  · intro v
    rw [mem_handles, slot?_new]
    obtain ⟨_ | _ | i⟩ := v <;> simp [new, root, stack]
  · intro v s hs _
    rw [slot?_new] at hs
    split at hs
    · cases hs
      rfl
    · split at hs
      · cases hs
        rfl
      · simp at hs
  · intro id v
    rw [valueAt?_new]
    simp [vertexFor?, new]

theorem stackSound_new : new.StackSound := by
  constructor
  · rw [frames_new]
    exact .bottom rfl
  · intro v f
    rw [frames_new, vertex?_new]
    split
    · simp
    · split <;> simp
  · rw [frames_new]
    rfl

theorem edgesSound_new : new.EdgesSound := by
  have hout : ∀ s l, new.outgoing? s l = none := fun _ _ => rfl
  constructor
  · exact List.nodup_nil
  · intro e
    have hedges : new.edges = [] := rfl
    rw [hout, hedges]
    simp [Framing, frames_new]
  · intro s l t ht
    rw [hout] at ht
    contradiction

theorem referencesSound_new : new.ReferencesSound := by
  constructor
  · intro v f hmem
    simp [frames_new] at hmem
  · intro v outcomes hout
    rw [outcomes?_new] at hout
    contradiction
  · intro v hv
    simp [new] at hv

theorem wellFormed_new : new.WellFormed where
  toArenaSound := arenaSound_new
  toStackSound := stackSound_new
  toEdgesSound := edgesSound_new
  toReferencesSound := referencesSound_new
  idle := rfl

theorem run_concat (g : Graph) (ops : List Operation) (op : Operation) :
    g.run (ops ++ [op]) = (g.run ops).apply op := by
  unfold Graph.run
  rw [List.foldl_concat]

theorem WellFormed.run (hg : g.WellFormed) (ops : List Operation) :
    (g.run ops).WellFormed := by
  unfold Graph.run
  induction ops generalizing g with
  | nil => exact hg
  | cons op ops ih => exact ih (hg.apply op)

/-- Every graph that operations make from a new one is well formed. -/
theorem wellFormed_run_new (ops : List Operation) :
    (new.run ops).WellFormed := wellFormed_new.run ops

end LiveHeap.Graph
