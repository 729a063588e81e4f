import LiveHeap.Proofs.Graph.Properties
import LiveHeap.Proofs.Graph.Stack
import LiveHeap.Proofs.Graph.Vocabulary

/-!
# What the creation of a value leaves alone

A created value may be nested to any depth, and may mention known and unknown
values in any order and any number of times.  The unknown ones get the next
places of the arena in the order in which they are first mentioned, a union
before its outcomes, with the flags of the phase.  All flags and places that
were there before stay, and so do all edges but the maybe edges of the mentioned
values.
-/

namespace LiveHeap.Graph

/-- The ids of a list that have no vertex, each where it occurs first. -/
def newcomers (g : Graph) (ids : List ValueId) : List ValueId :=
  (ids.filter fun id => (g.vertexFor? id).isNone).eraseDups

/-- The flags of all places in the order of the arena. -/
def flagList (g : Graph) : List (Option Flags) :=
  g.slots.map (Option.map Slot.flags)

/-- In the second graph the listed values are known too.  Those that were
unknown have the places behind the old ones, builtin and hidden in the
bootstrap, live and no builtins otherwise. -/
structure Settles (g g' : Graph) (ids : List ValueId) : Prop where
  phase : g'.bootstrapping = g.bootstrapping
  flags : g'.flagList = g.flagList ++
    List.replicate (g.newcomers ids).length
      (some { live := !g.bootstrapping, builtin := g.bootstrapping })
  place : ∀ id v, g'.vertexFor? id = some v ↔ g.vertexFor? id = some v ∨
    ∃ i, (g.newcomers ids)[i]? = some id ∧ v = ⟨g.slots.length + i⟩

variable {g g' g'' : Graph} {id : ValueId} {ids : List ValueId} {v : Handle}

theorem mem_newcomers :
    id ∈ g.newcomers ids ↔ id ∈ ids ∧ g.vertexFor? id = none := by
  simp [newcomers]

theorem exists_getElem?_append {α : Type} {l l' : List α} {a : α}
    {p : Nat → Prop} :
    (∃ i, (l ++ l')[i]? = some a ∧ p i) ↔
      (∃ i, l[i]? = some a ∧ p i) ∨
        ∃ i, l'[i]? = some a ∧ p (l.length + i) := by
  constructor
  · intro ⟨i, hi, hp⟩
    rcases Nat.lt_or_ge i l.length with hlt | hge
    · rw [List.getElem?_append_left hlt] at hi
      exact Or.inl ⟨i, hi, hp⟩
    · rw [List.getElem?_append_right hge] at hi
      rw [← Nat.add_sub_cancel' hge] at hp
      exact Or.inr ⟨_, hi, hp⟩
  · rintro (⟨i, hi, hp⟩ | ⟨i, hi, hp⟩)
    · have hlt := (List.getElem?_eq_some_iff.mp hi).1
      rw [← List.getElem?_append_left hlt] at hi
      exact ⟨i, hi, hp⟩
    · have hlater : (l ++ l')[l.length + i]? = some a := by
        rwa [List.getElem?_append_right (Nat.le_add_right _ _),
          Nat.add_sub_cancel_left]
      exact ⟨_, hlater, hp⟩

theorem flagList_modifySlot {f : Slot → Slot}
    (hflags : ∀ s, (f s).flags = s.flags) (g : Graph) (v : Handle) :
    (g.modifySlot v f).flagList = g.flagList := by
  apply List.ext_getElem?
  intro i
  simp only [flagList, modifySlot, List.getElem?_map, List.getElem?_modify]
  split
  next => rcases g.slots[i]? with _ | _ | s <;> simp [hflags]
  next => simp

namespace Settles

theorem of_same (hvalues : g'.values = g.values)
    (hflags : g'.flagList = g.flagList)
    (hphase : g'.bootstrapping = g.bootstrapping) : g.Settles g' [] where
  phase := hphase
  flags := by simp [newcomers, hflags]
  place id v := by simp [newcomers, vertexFor?, hvalues]

theorem refl (g : Graph) : g.Settles g [] := of_same rfl rfl rfl

theorem length (h : g.Settles g' ids) :
    g'.slots.length = g.slots.length + (g.newcomers ids).length := by
  have hlength := congrArg List.length h.flags
  simpa [flagList] using hlength

theorem unknown_iff (h : g.Settles g' ids) :
    g'.vertexFor? id = none ↔ g.vertexFor? id = none ∧ id ∉ ids := by
  constructor
  · intro hnone
    have hnowhere : ∀ v, ¬ (g.vertexFor? id = some v ∨
        ∃ i, (g.newcomers ids)[i]? = some id ∧ v = ⟨g.slots.length + i⟩) := by
      intro v hv
      rw [← h.place, hnone] at hv
      contradiction
    have hold : g.vertexFor? id = none := by
      rw [Option.eq_none_iff_forall_ne_some]
      exact fun v hv => hnowhere v (Or.inl hv)
    refine ⟨hold, fun hmem => ?_⟩
    have ⟨i, hi⟩ := List.mem_iff_getElem?.mp (mem_newcomers.mpr ⟨hmem, hold⟩)
    exact hnowhere _ (Or.inr ⟨i, hi, rfl⟩)
  · intro ⟨hold, hout⟩
    rw [Option.eq_none_iff_forall_ne_some]
    intro v hv
    rcases (h.place id v).mp hv with hknown | ⟨i, hi, _⟩
    · rw [hold] at hknown
      contradiction
    · exact hout (mem_newcomers.mp (List.mem_of_getElem? hi)).1

/-- What the first list made known is no newcomer of the second one. -/
theorem newcomers_append (h : g.Settles g' ids) (ids' : List ValueId) :
    g.newcomers (ids ++ ids') = g.newcomers ids ++ g'.newcomers ids' := by
  have hfilter : (ids'.filter fun id => (g.vertexFor? id).isNone).removeAll
        (ids.filter fun id => (g.vertexFor? id).isNone) =
      ids'.filter fun id => (g'.vertexFor? id).isNone := by
    unfold List.removeAll
    rw [List.filter_filter]
    apply List.filter_congr
    intro id _
    have hunknown : g'.vertexFor? id = none ↔
        g.vertexFor? id = none ∧ id ∉ ids := h.unknown_iff
    rw [Bool.eq_iff_iff, Option.isNone_iff_eq_none, hunknown]
    by_cases hid : g.vertexFor? id = none <;> simp [hid]
  unfold newcomers
  rw [List.filter_append, List.eraseDups_append, hfilter]

theorem append {ids' : List ValueId} (h : g.Settles g' ids)
    (h' : g'.Settles g'' ids') : g.Settles g'' (ids ++ ids') where
  phase := h'.phase.trans h.phase
  flags := by
    rw [h'.flags, h.flags, h.phase, h.newcomers_append, List.length_append,
      List.replicate_add, List.append_assoc]
  place id v := by
    rw [h'.place, h.place, h.newcomers_append, h.length, or_assoc,
      exists_getElem?_append]
    simp only [Nat.add_assoc]

theorem trans (h : g.Settles g' ids) (h' : g'.Settles g'' []) :
    g.Settles g'' ids := by
  simpa using h.append h'

theorem of_known (h : g.Settles g' []) (hknown : g.vertexFor? id = some v) :
    g.Settles g' [id] := by
  have hnone : g.newcomers [id] = g.newcomers [] := by
    simp [newcomers, hknown]
  exact ⟨h.phase, by rw [hnone]; exact h.flags, by rw [hnone]; exact h.place⟩

theorem install (g : Graph) (e : Edge) : g.Settles (g.install e) [] := by
  rw [install_eq]
  exact of_same rfl rfl rfl

theorem retireOutcomes (g : Graph) (v : Handle) :
    g.Settles (g.retireOutcomes v) [] := by
  apply List.foldlRecOn (motive := fun g' => g.Settles g' [])
  · exact refl g
  · intro g' h i _
    have hretire : g'.Settles (g'.retire v (.maybe i)) [] := by
      rw [retire_eq]
      exact of_same rfl rfl rfl
    exact h.trans hretire

theorem modifySlot {f : Slot → Slot} (hflags : ∀ s, (f s).flags = s.flags)
    (g : Graph) (v : Handle) : g.Settles (g.modifySlot v f) [] :=
  of_same rfl (flagList_modifySlot hflags g v) rfl

theorem setOutcomes (g : Graph) (v : Handle) (outcomes : List Handle) :
    g.Settles (g.setOutcomes v outcomes) [] := by
  apply modifySlot
  intro s
  split <;> rfl

theorem allocValue (hnew : g.vertexFor? id = none) (x : Vertex) :
    g.Settles (g.allocValue id x g.registrationFlags).1 [id] := by
  have hone : g.newcomers [id] = [id] := by
    simp [newcomers, hnew, List.eraseDups_cons]
  constructor
  · rfl
  · have hflags : g.registrationFlags =
        { live := !g.bootstrapping, builtin := g.bootstrapping } := by
      unfold registrationFlags
      cases g.bootstrapping <;> rfl
    rw [hone, ← hflags]
    simp [flagList, Graph.allocValue]
  · intro i v
    rw [hone, vertexFor?_allocValue]
    by_cases hi : i = id
    · rw [if_pos hi, hi, hnew]
      simp [Graph.allocValue, List.getElem?_singleton, eq_comm]
    · simp [hi, List.getElem?_singleton, Ne.symm hi]

end Settles

/-! ## Registration -/

theorem settles_announce (g : Graph) (id : ValueId) (x : Vertex) :
    g.Settles (g.announce id x).1 [id] := by
  unfold announce
  cases hknown : g.vertexFor? id with
  | some v =>
      have hset : (g.retireOutcomes v).Settles
          ((g.retireOutcomes v).setVertex v x) [] := by
        apply Settles.modifySlot
        exact fun _ => rfl
      exact ((Settles.retireOutcomes g v).trans hset).of_known hknown
  | none => exact .allocValue hknown x

mutual

theorem settles_register (g : Graph) :
    (value : Value) → g.Settles (g.register value).1 value.ids
  | .plain about => by
      rw [register]
      exact settles_announce g about.id (.plain about)
  | .union about outcomes => by
      have hfirst := settles_announce g about.id (.union about [])
      have hrest := settles_registerOutcomes
        (g.announce about.id (.union about [])).1
        (g.announce about.id (.union about [])).2 0 outcomes
      rw [register]
      exact (hfirst.append hrest).trans (.setOutcomes _ _ _)

theorem settles_registerOutcomes (g : Graph) (union : Handle)
    (position : Nat) : (outcomes : List Value) →
      g.Settles (g.registerOutcomes union position outcomes).1
        (Value.idsOf outcomes)
  | [] => by
      rw [registerOutcomes]
      exact .refl g
  | outcome :: outcomes => by
      have hfirst : g.Settles (g.linkOutcome union position outcome)
          outcome.ids := (settles_register g outcome).trans (.install _ _)
      have hrest := settles_registerOutcomes
        (g.linkOutcome union position outcome) union (position + 1) outcomes
      rw [registerOutcomes_cons]
      exact hfirst.append hrest

end

/-! ## The rest of the graph -/

theorem keptByRegistration_rest (g : Graph) :
    KeptByRegistration fun g' : Graph => g' =
      { g with
        slots := g'.slots
        values := g'.values
        edges := g'.edges
        index := g'.index } where
  rewire h _ _ := by rw [h]
  setVertex h v x := by
    rw [h]
    rfl
  setOutcomes h v outcomes := by
    rw [h]
    rfl
  allocValue h id x := by
    rw [h]
    rfl

theorem WellFormed.outgoing?_structural (hg : g.WellFormed) {l : Label}
    (hl : l.isStructural = true) (v : Handle) : g.outgoing? v l = none := by
  rw [Option.eq_none_iff_forall_ne_some]
  intro w hw
  have hplain := (hg.index_ends v l w hw).1
  rw [hl] at hplain
  contradiction

theorem WellFormed.mem_edges_congr (hg : g.WellFormed) (hg' : g'.WellFormed)
    (hframes : g'.frames = g.frames) {e : Edge}
    (hout : g'.outgoing? e.source e.label = g.outgoing? e.source e.label) :
    e ∈ g'.edges ↔ e ∈ g.edges := by
  have hframing : g'.Framing e ↔ g.Framing e := by
    unfold Framing
    rw [hframes]
  rw [hg'.mem_edges_iff, hg.mem_edges_iff, hout, hframing]

/-- What the creation of a value makes of the graph. -/
structure Created (g g' : Graph) (value : Value) : Prop
    extends Settles g g' value.ids where
  rest : g' =
    { g with
      slots := g'.slots
      values := g'.values
      edges := g'.edges
      index := g'.index
      changed := true
      mutated := true }
  frames : g'.frames = g.frames
  index : ∀ v l, (∀ i, l ≠ .maybe i) → g'.outgoing? v l = g.outgoing? v l
  edges : ∀ e : Edge, (∀ i, e.label ≠ .maybe i) →
    (e ∈ g'.edges ↔ e ∈ g.edges)
  /-- A vertex that the value does not mention keeps its contents and all edges
  that leave it. -/
  unmentioned : ∀ v, g.vertex? v ≠ none →
    (∀ id ∈ value.ids, g.valueAt? v ≠ some id) →
    g.Untouched g' v ∧ ∀ e : Edge, e.source = v → (e ∈ g'.edges ↔ e ∈ g.edges)

section Create

variable (hg : g.WellFormed) (value : Value)

include hg

theorem WellFormed.untouched_create (hv : g.vertex? v ≠ none)
    (hout : ∀ id ∈ value.ids, g.valueAt? v ≠ some id) :
    g.Untouched (g.create value) v := by
  have hedits := (edits_register hg value).1
  have huntouched : g.Untouched (g.register value).1 v := by
    apply untouched_register hg value
    intro id hid hheld
    have hplace := ((hedits.wellFormed hg).vertexFor?_iff id v).mpr hheld
    rcases ((settles_register g value).place id v).mp hplace with
      hold | ⟨i, _, hfresh⟩
    · exact hout id hid ((hg.vertexFor?_iff id v).mp hold)
    · have ⟨x, hx⟩ := Option.ne_none_iff_exists'.mp hv
      have hlt := lt_of_vertex? hx
      rw [hfresh] at hlt
      exact absurd hlt (Nat.not_lt.mpr (Nat.le_add_right _ i))
  exact ⟨huntouched.slot, huntouched.outgoing⟩

theorem WellFormed.index_create (v : Handle) {l : Label}
    (hl : ∀ i, l ≠ .maybe i) :
    (g.create value).outgoing? v l = g.outgoing? v l := by
  have hg' : (g.create value).WellFormed := hg.apply (.event (.create value))
  cases l with
  | property name =>
      have hsame : g.SameProperties (g.register value).1 :=
        (keptByAnnouncing_sameProperties g).register (.of_index rfl) value
      exact hsame v name
  | maybe i => exact absurd rfl (hl i)
  | stackParent =>
      rw [hg.outgoing?_structural rfl, hg'.outgoing?_structural rfl]
  | stackValue =>
      rw [hg.outgoing?_structural rfl, hg'.outgoing?_structural rfl]

theorem WellFormed.created : g.Created (g.create value) value := by
  have hg' : (g.create value).WellFormed := hg.apply (.event (.create value))
  have hframes : (g.create value).frames = g.frames := by
    change (g.apply (.event (.create value))).frames = g.frames
    exact frames_apply_other hg rfl rfl
  have hsettles : g.Settles (g.create value) value.ids :=
    (settles_register g value).trans (.of_same rfl rfl rfl)
  have hrest := (keptByRegistration_rest g).register (g := g) rfl value
  exact {
    toSettles := hsettles
    rest := by
      unfold create markChanged
      rw [hrest]
    frames := hframes
    index := fun v l hl => hg.index_create value v hl
    edges := fun e he =>
      hg.mem_edges_congr hg' hframes (hg.index_create value e.source he)
    unmentioned := by
      intro v hv hout
      have huntouched := hg.untouched_create value hv hout
      refine ⟨huntouched, fun e he => ?_⟩
      apply hg.mem_edges_congr hg' hframes
      rw [he]
      exact huntouched.outgoing e.label }

end Create

/-- In every graph that operations make, a created value is taken, however it is
nested.  The ids that it mentions and that were unknown are registered behind
the old places, in the order in which they first occur.  Apart from the two
flags of changes, the rest of the graph stays: old flags and values, the stack,
the root scope, all edges that are no maybe edges, and whatever belongs to a
vertex that the value does not mention. -/
theorem creation_frame (ops : List Operation) (value : Value) :
    ∃ g', (new.run ops).deliver (.create value) = .ok g' ∧
      (new.run ops).Created g' value :=
  ⟨_, rfl, (wellFormed_run_new ops).created value⟩

example :
    let nested := .either ⟨3⟩ [.object ⟨5⟩, .object ⟨4⟩]
    (new.create (.either ⟨5⟩ [nested, .object ⟨3⟩])).values.entries =
      [(⟨5⟩, ⟨2⟩), (⟨3⟩, ⟨3⟩), (⟨4⟩, ⟨4⟩)] := by
  decide +kernel

end LiveHeap.Graph
