import LiveHeap.Proofs.Graph.Stack
import LiveHeap.Proofs.Graph.Uncovering

/-!
# The surfacing loop, turn by turn

Surfacing takes the vertex in front of a list of pending vertices, shows it, and
puts the hidden builtins that it leads to in front of the others, in whatever
order the index lists them.  A vertex may be pending several times and is
expanded each time, so that the list may grow while nothing comes to light.  But
such a turn leaves one vertex less pending that is not hidden, and every other
turn leaves one hidden builtin less.  So the loop ends in every order, and in
every order it ends with the same graph.
-/

namespace LiveHeap

namespace Graph

variable {g g' g'' : Graph} {v w : Handle} {next pending : List Handle}

/-! ## Graphs with another live set -/

/-- The second graph is the first one with another live set. -/
structure Relit (g g' : Graph) : Prop where
  rest : g' = { g with slots := g'.slots }
  dim : dimSlots g'.slots = dimSlots g.slots

theorem slots_eq_of_dim (hdim : dimSlots g'.slots = dimSlots g.slots)
    (hlive : ∀ v, g'.isLive v = g.isLive v) : g'.slots = g.slots := by
  apply List.ext_getElem?
  intro i
  have hslot := congrArg (fun slots => slots[i]?) hdim
  have hflag := hlive ⟨i⟩
  simp only [dimSlots, List.getElem?_map] at hslot
  unfold isLive slot? at hflag
  rcases hs' : g'.slots[i]? with _ | _ | s' <;>
    rcases hs : g.slots[i]? with _ | _ | s <;>
    simp only [hs, hs', Option.map_some, Option.map_none, Option.join_some,
      Option.some.injEq, reduceCtorEq] at hslot hflag ⊢
  obtain ⟨x', live', builtin'⟩ := s'
  obtain ⟨x, live, builtin⟩ := s
  simp_all [Slot.dim]

namespace Relit

theorem refl (g : Graph) : g.Relit g := ⟨rfl, rfl⟩

theorem trans (h : g.Relit g') (h' : g'.Relit g'') : g.Relit g'' where
  rest := by
    have hrest := h'.rest
    rw [h.rest] at hrest
    exact hrest
  dim := h'.dim.trans h.dim

theorem setLive (g : Graph) (v : Handle) (live : Bool) :
    g.Relit (g.setLive v live) where
  rest := rfl
  dim := by
    have hcore := congrArg Graph.slots (core_setLive g v live)
    exact hcore

theorem surface (g : Graph) (v : Handle) : g.Relit (g.surface v) := by
  apply revealPending_keeps (p := g.Relit)
  · exact fun g' w _ h => h.trans (setLive g' w true)
  · exact setLive g v true

/-- The live set is all that may tell two such graphs apart. -/
theorem eq (h : g.Relit g') (h' : g.Relit g'')
    (hlive : ∀ v, g'.isLive v = g''.isLive v) : g' = g'' := by
  have hslots := slots_eq_of_dim (h.dim.trans h'.dim.symm) hlive
  rw [h.rest, h'.rest, hslots]

end Relit

/-! ## One turn -/

/-- The vertex in front is shown, and the hidden builtins that it leads to
become pending, in any order. -/
inductive Turn : Graph × List Handle → Graph × List Handle → Prop
  | expand {g : Graph} {v : Handle} {next pending : List Handle} :
      next.Perm (((g.setLive v true).successors v).filter
        (g.setLive v true).isHidden) →
      Turn (g, v :: pending) (g.setLive v true, next ++ pending)

abbrev Turns : Graph × List Handle → Graph × List Handle → Prop :=
  Relation.ReflTransGen Turn

/-- How many pending vertices are not hidden. -/
def unhidden (g : Graph) (pending : List Handle) : Nat :=
  pending.countP fun v => !g.isHidden v

theorem countP_modify_eq {α : Type} (p : α → Bool) (f : α → α) {l : List α}
    {i : Nat} (hf : ∀ x, l[i]? = some x → p (f x) = p x) :
    (l.modify i f).countP p = l.countP p := by
  induction l generalizing i with
  | nil => simp
  | cons y l ih =>
      cases i with
      | zero =>
          have hhead := hf y rfl
          simp [List.countP_cons, hhead]
      | succ i =>
          have htail := ih (i := i) fun x hx => hf x (by simpa using hx)
          simp only [List.modify_succ_cons, List.countP_cons, htail]

theorem hiddenCount_show_of_not_hidden (hv : g.isHidden v = false) :
    (g.setLive v true).hiddenCount = g.hiddenCount := by
  apply countP_modify_eq
  intro o ho
  cases o with
  | none => rfl
  | some s =>
      have hs : g.slot? v = some s := by
        rw [slot?, ho]
        rfl
      rw [isHidden, isBuiltin_of_slot? hs, isLive_of_slot? hs] at hv
      simpa using hv

theorem unhidden_turn (hv : g.isHidden v = false)
    (hnext : ∀ w ∈ next, (g.setLive v true).isHidden w = true) :
    (g.setLive v true).unhidden (next ++ pending) + 1 =
      g.unhidden (v :: pending) := by
  have hsame : (g.setLive v true).isHidden = g.isHidden := by
    funext w
    rw [Bool.eq_iff_iff, isHidden_show, and_iff_left_iff_imp]
    rintro hw rfl
    rw [hv] at hw
    contradiction
  have hnone : next.countP (fun w => !g.isHidden w) = 0 := by
    rw [List.countP_eq_zero]
    intro w hw
    simp [← hsame, hnext w hw]
  unfold unhidden
  rw [hsame, List.countP_append, hnone, List.countP_cons_of_pos]
  · exact congrArg (· + 1) (Nat.zero_add _)
  · simp [hv]

theorem wellFounded_turn :
    WellFounded fun after before => Turn before after := by
  let measure : Graph × List Handle → Nat × Nat :=
    fun s => (s.1.hiddenCount, s.1.unhidden s.2)
  have hlex : WellFounded (InvImage (Prod.Lex (· < ·) (· < ·)) measure) :=
    InvImage.wf measure (WellFounded.prod_lex Nat.lt_wfRel.wf Nat.lt_wfRel.wf)
  apply Subrelation.wf _ hlex
  rintro _ _ ⟨hperm⟩
  rename_i g v next pending
  cases hv : g.isHidden v with
  | true => exact Prod.Lex.left _ _ (hiddenCount_setLive_lt hv)
  | false =>
      have hnext : ∀ w ∈ next, (g.setLive v true).isHidden w = true :=
        fun w hw => (List.mem_filter.mp (hperm.mem_iff.mp hw)).2
      have hless : (g.setLive v true).unhidden (next ++ pending) + 1 =
          g.unhidden (v :: pending) := unhidden_turn hv hnext
      have hsame := hiddenCount_show_of_not_hidden hv
      change Prod.Lex _ _ ((g.setLive v true).hiddenCount, _) _
      rw [hsame]
      exact Prod.Lex.right _ (by dsimp only; omega)

/-! ## Whole runs of the loop -/

theorem exists_turn (g : Graph) (v : Handle) (pending : List Handle) :
    ∃ after, Turn (g, v :: pending) after := ⟨_, .expand (.refl _)⟩

theorem Turns.relit {before after : Graph × List Handle}
    (hrun : Turns before after) : before.1.Relit after.1 := by
  induction hrun with
  | refl => exact .refl _
  | tail _ hlast ih =>
      cases hlast with
      | expand => exact ih.trans (.setLive _ _ true)

section Expand

variable (hnext : ∀ u, u ∈ next ↔ u ∈ g.successors v ∧
  (g.setLive v true).isHidden u = true)

include hnext

/-- What a pending vertex uncovers is the vertex in front, or something else
that becomes pending or was pending uncovers it after the turn. -/
theorem uncovers_turn {u : Handle} (hu : u ∈ v :: pending)
    (hpath : g.Uncovers u w) :
    w = v ∨ ∃ u ∈ next ++ pending, (g.setLive v true).Uncovers u w := by
  induction hpath with
  | refl =>
      rcases List.mem_cons.mp hu with heq | hlater
      · exact Or.inl heq
      · exact Or.inr ⟨u, List.mem_append_right next hlater, .refl⟩
  | @tail a b _ hstep ih =>
      by_cases hb : b = v
      · exact Or.inl hb
      · have hhidden : (g.setLive v true).isHidden b = true :=
          (isHidden_show g v b).mpr ⟨hstep.2, hb⟩
        right
        rcases ih with ha | ⟨x, hx, hpath⟩
        · rw [ha] at hstep
          have hmem : b ∈ next := (hnext b).mpr ⟨hstep.1, hhidden⟩
          exact ⟨b, List.mem_append_left pending hmem, .refl⟩
        · exact ⟨x, hx, hpath.tail ⟨hstep.1, hhidden⟩⟩

theorem uncovers_turn_iff :
    (w = v ∨ ∃ u ∈ next ++ pending, (g.setLive v true).Uncovers u w) ↔
      ∃ u ∈ v :: pending, g.Uncovers u w := by
  constructor
  · intro hafter
    rcases hafter with hw | ⟨u, hu, hpath⟩
    · rw [hw]
      exact ⟨v, List.mem_cons_self, .refl⟩
    · rcases List.mem_append.mp hu with hmem | hlater
      · have hstep := (hnext u).mp hmem
        have hhidden := ((isHidden_show g v u).mp hstep.2).1
        exact ⟨v, List.mem_cons_self,
          .head ⟨hstep.1, hhidden⟩ hpath.of_show⟩
      · exact ⟨u, List.mem_cons_of_mem v hlater, hpath.of_show⟩
  · intro ⟨u, hu, hpath⟩
    exact uncovers_turn hnext hu hpath

theorem slot?_of_mem_turn (hpending : ∀ u ∈ v :: pending, g.slot? u ≠ none)
    {u : Handle} (hu : u ∈ next ++ pending) :
    (g.setLive v true).slot? u ≠ none := by
  rcases List.mem_append.mp hu with hmem | hlater
  · exact slot?_ne_none_of_isHidden ((hnext u).mp hmem).2
  · have hold := hpending u (List.mem_cons_of_mem v hlater)
    exact fun hnone => hold (slot?_modifySlot_eq_none.mp hnone)

end Expand

/-- When nothing is pending any more, what was pending has uncovered all that
came to light. -/
theorem Turns.isLive_iff {before : Graph × List Handle}
    (hrun : Turns before (g', []))
    (hpending : ∀ v ∈ before.2, before.1.slot? v ≠ none) :
    g'.isLive w = true ↔ before.1.isLive w = true ∨
      ∃ v ∈ before.2, before.1.Uncovers v w := by
  induction hrun using Relation.ReflTransGen.head_induction_on with
  | refl => simp
  | head hturn _ ih =>
      cases hturn with
      | @expand g v next pending hperm =>
          have hnext : ∀ u, u ∈ next ↔ u ∈ g.successors v ∧
              (g.setLive v true).isHidden u = true :=
            fun u => hperm.mem_iff.trans List.mem_filter
          have hv : g.slot? v ≠ none := hpending v List.mem_cons_self
          have hlater := ih fun u hu => slot?_of_mem_turn hnext hpending hu
          dsimp only at hlater ⊢
          rw [hlater, isLive_show_iff hv, or_assoc, uncovers_turn_iff hnext]

theorem isLive_revealPending_iff :
    (g.revealPending pending).isLive w = true ↔ g.isLive w = true ∨
      ∃ v ∈ pending, g.isHidden v = true ∧ g.Uncovers v w := by
  constructor
  · exact uncovered_of_isLive_revealPending
  · rintro (hold | ⟨v, hv, hhidden, hpath⟩)
    · exact isLive_revealPending_of_live hold pending
    · exact (surfaced_revealPending g pending).live_of_uncovers
        ⟨hv, hhidden⟩ hpath

/-- Whatever the order, a run of the loop that starts at one vertex and leaves
nothing pending has surfaced that vertex. -/
theorem Turns.eq_surface (hrun : Turns (g, [v]) (g', [])) :
    g' = g.surface v := by
  apply hrun.relit.eq (.surface g v)
  intro w
  rcases hrun.cases_head with heq | ⟨after, hturn, hrest⟩
  · exact absurd (congrArg Prod.snd heq) (List.cons_ne_nil v [])
  · cases hturn with
    | @expand _ _ next _ hperm =>
        have hnext : ∀ u, u ∈ next ++ [] ↔
            u ∈ (g.setLive v true).successors v ∧
              (g.setLive v true).isHidden u = true := by
          intro u
          rw [List.append_nil]
          exact hperm.mem_iff.trans List.mem_filter
        have hoccupied : ∀ u ∈ next ++ [], (g.setLive v true).slot? u ≠ none :=
          fun u hu => slot?_ne_none_of_isHidden ((hnext u).mp hu).2
        have hsurface : (g.surface v).isLive w = true ↔
            (g.setLive v true).isLive w = true ∨
              ∃ u ∈ (g.setLive v true).successors v,
                (g.setLive v true).isHidden u = true ∧
                  (g.setLive v true).Uncovers u w := isLive_revealPending_iff
        rw [Bool.eq_iff_iff, Turns.isLive_iff hrest hoccupied, hsurface]
        simp only [hnext, and_assoc]

/-- The loop that starts at the vertex comes to an end, and every end is the
graph with nothing pending. -/
structure LoopsTo (g : Graph) (v : Handle) (g' : Graph) : Prop where
  terminates : Acc (fun after before => Turn before after) (g, [v])
  result : ∀ after, Turns (g, [v]) after → (∀ next, ¬ Turn after next) →
    after = (g', [])

theorem loopsTo_surface (g : Graph) (v : Handle) :
    g.LoopsTo v (g.surface v) where
  terminates := wellFounded_turn.apply _
  result := by
    intro ⟨h, pending⟩ hrun hend
    cases pending with
    | nil => rw [Turns.eq_surface hrun]
    | cons w pending =>
        have ⟨after, hturn⟩ := exists_turn h w pending
        exact absurd hturn (hend after)

/-! ## Registered ends -/

/-- The second graph is the first one with the listed ends registered: those
that had no vertex have one now, with the flags of the phase. -/
structure Introduces (g g' : Graph) (ends : List Handle) : Prop
    extends Fills g g' where
  phase : g'.bootstrapping = g.bootstrapping
  occupied : ∀ v ∈ ends, g'.slot? v ≠ none
  fresh : ∀ v s, g.slot? v = none → g'.slot? v = some s →
    v ∈ ends ∧ s.flags = g.registrationFlags

namespace Introduces

variable {ends ends' : List Handle}

theorem of_occupied (hv : g.slot? v ≠ none) : g.Introduces g [v] where
  toFills := .refl g
  phase := rfl
  occupied w hw := by
    rw [List.mem_singleton.mp hw]
    exact hv
  fresh w s hnone hs := by
    rw [hnone] at hs
    contradiction

theorem allocValue {id : ValueId} {x : Vertex}
    (hfills : g.Fills (g.allocValue id x g.registrationFlags).1) :
    g.Introduces (g.allocValue id x g.registrationFlags).1
      [⟨g.slots.length⟩] where
  toFills := hfills
  phase := rfl
  occupied v hv := by
    rw [List.mem_singleton.mp hv, slot?_allocValue, if_pos rfl]
    exact Option.some_ne_none _
  fresh v s hnone hs := by
    rw [slot?_allocValue] at hs
    split at hs
    next hfresh =>
      rw [← Option.some.inj hs]
      exact ⟨List.mem_singleton.mpr hfresh, rfl⟩
    next =>
      rw [hnone] at hs
      contradiction

theorem append (h : g.Introduces g' ends) (h' : g'.Introduces g'' ends') :
    g.Introduces g'' (ends ++ ends') where
  toFills := h.toFills.trans h'.toFills
  phase := h'.phase.trans h.phase
  occupied v hv := by
    rcases List.mem_append.mp hv with hfirst | hsecond
    · have hold := h.occupied v hfirst
      rwa [h'.slot v hold]
    · exact h'.occupied v hsecond
  fresh v s hnone hs := by
    have hflags : g'.registrationFlags = g.registrationFlags := by
      unfold registrationFlags
      rw [h.phase]
    cases hs' : g'.slot? v with
    | none =>
        have hlate := h'.fresh v s hs' hs
        rw [hflags] at hlate
        exact ⟨List.mem_append_right ends hlate.1, hlate.2⟩
    | some s' =>
        have hsame := h'.slot v (by simp [hs'])
        rw [hs, hs'] at hsame
        have hearly := h.fresh v s' hnone hs'
        rw [Option.some.inj hsame]
        exact ⟨List.mem_append_left ends' hearly.1, hearly.2⟩

/-- Outside the bootstrap the new ones among the ends are live. -/
theorem isLive_iff (h : g.Introduces g' ends) :
    g'.isLive w = true ↔ g.isLive w = true ∨
      w ∈ ends ∧ g.vertex? w = none ∧ g.bootstrapping = false := by
  cases hs : g.slot? w with
  | some s =>
      rw [isLive_congr (h.slot w (by simp [hs])), vertex?, hs]
      simp
  | none =>
      have hdark : g.isLive w = false := by simp [isLive, hs]
      rw [hdark, vertex?, hs]
      cases hs' : g'.slot? w with
      | none =>
          have hout : w ∉ ends := fun hw => h.occupied w hw hs'
          simp [isLive, hs', hout]
      | some s' =>
          have hnew := h.fresh w s' hs hs'
          rw [isLive_of_slot? hs', hnew.2]
          unfold registrationFlags
          cases g.bootstrapping <;> simp [hnew.1]

end Introduces

theorem introduces_resolve (hg : g.WellFormed) (id : ValueId) :
    g.Introduces (g.resolve id).1 [(g.resolve id).2] := by
  have hfills := Fills.resolve g id
  unfold resolve at hfills ⊢
  cases hknown : g.vertexFor? id with
  | some v =>
      have hheld := holdsValue_of_valueAt? (hg.valueAt?_of_vertexFor? hknown)
      exact .of_occupied hheld.slot?_ne_none
  | none =>
      rw [hknown] at hfills
      exact .allocValue hfills

theorem introduces_resolveEnd (hg : g.WellFormed) (id : Option ValueId) :
    g.Introduces (g.resolveEnd id).1 [(g.resolveEnd id).2] := by
  cases id with
  | none => exact .of_occupied (hg.slot?_ne_none_of_isEnd (Or.inl rfl))
  | some id => exact introduces_resolve hg id

theorem introduces_ends (hg : g.WellFormed) (source target : Option ValueId)
    (label : String) :
    g.Introduces ((g.resolveEnd source).1.resolveEnd target).1
      (g.namedEnds (.link source target label)) := by
  have hg' := (edits_resolveEnd hg source).1.wellFormed hg
  exact (introduces_resolveEnd hg source).append
    (introduces_resolveEnd hg' target)

/-! ## Pushes and links -/

/-- Outside the bootstrap an event surfaces what it names if there is a builtin
among that.  In the bootstrap a link does if one of its ends is the root, and a
push never does. -/
def SurfacesEnds (g : Graph) : Event → Prop
  | .push id => g.bootstrapping = false ∧ g.NamesBuiltin (.push id)
  | .link source target label =>
      if g.bootstrapping then root ∈ g.namedEnds (.link source target label)
      else g.NamesBuiltin (.link source target label)
  | _ => False

theorem surfacesEnds_push_iff (id : ValueId) :
    (!(g.resolve id).1.bootstrapping &&
        (g.resolve id).1.isBuiltin (g.resolve id).2) = true ↔
      g.SurfacesEnds (.push id) := by
  have hphase : (g.resolve id).1.bootstrapping = g.bootstrapping := by
    unfold resolve
    cases g.vertexFor? id <;> rfl
  rw [Bool.and_eq_true, Bool.not_eq_true', hphase]
  apply and_congr_right
  intro hoff
  rw [namesBuiltin_push_iff, (keepsBuiltins_resolve hoff id).builtin]

theorem WellFormed.surfacesEnds_link_iff (hg : g.WellFormed)
    (source target : Option ValueId) (label : String) :
    let ends := (g.resolveEnd source).1.resolveEnd target
    ends.1.linkSurfaces (g.resolveEnd source).2 ends.2 = true ↔
      g.SurfacesEnds (.link source target label) := by
  intro ends
  have hsame : ends.1.bootstrapping = g.bootstrapping :=
    (introduces_ends hg source target label).phase
  cases hphase : g.bootstrapping with
  | false =>
      have hstate : g.SurfacesEnds (.link source target label) ↔
          g.NamesBuiltin (.link source target label) := by
        simp [SurfacesEnds, hphase]
      rw [hstate]
      exact linkSurfaces_iff hphase source target label
  | true =>
      have hstate : g.SurfacesEnds (.link source target label) ↔
          root ∈ g.namedEnds (.link source target label) := by
        simp [SurfacesEnds, hphase]
      rw [hstate, linkSurfaces, hsame, hphase, if_pos rfl, Bool.or_eq_true,
        decide_eq_true_eq, decide_eq_true_eq, namedEnds, List.mem_pair,
        eq_comm, @eq_comm _ ends.2]

/-- Why a vertex is live after a push or a link. -/
inductive LiveAfter (g : Graph) (e : Event) (w : Handle) : Prop
  | before : g.isLive w = true → g.LiveAfter e w
  /-- The event names a value that was not known, outside the bootstrap. -/
  | registered : w ∈ g.namedEnds e → g.vertex? w = none →
      g.bootstrapping = false → g.LiveAfter e w
  /-- The event brings in a frame. -/
  | frame : w ∈ (g.apply (.event e)).frames.map Prod.fst →
      w ∉ g.frames.map Prod.fst → g.LiveAfter e w
  /-- The event surfaces what it names, and hidden builtins alone lead to the
  vertex from there. -/
  | surfaced {u : Handle} : g.SurfacesEnds e → u ∈ g.namedEnds e →
      g.Uncovers u w → g.LiveAfter e w

theorem isLive_surfacePushed_iff (hv : g.slot? v ≠ none) :
    (g.surfacePushed v).isLive w = true ↔ g.isLive w = true ∨
      (!g.bootstrapping && g.isBuiltin v) = true ∧ g.Uncovers v w := by
  unfold surfacePushed
  split
  next hsurfaces => simp [isLive_surface_iff hv, hsurfaces]
  next hstays => simp [hstays]

theorem isLive_surfaceLinked_iff {s t : Handle} (hs : g.slot? s ≠ none)
    (ht : g.slot? t ≠ none) :
    (g.surfaceLinked s t).isLive w = true ↔ g.isLive w = true ∨
      g.linkSurfaces s t = true ∧ ∃ u ∈ [s, t], g.Uncovers u w := by
  unfold surfaceLinked
  split
  next hsurfaces =>
    rw [isLive_surface_pair_iff hs ht]
    simp [hsurfaces]
  next hstays => simp [hstays]

section Event

variable (hg : g.WellFormed)

include hg

theorem WellFormed.frames_push (id : ValueId) :
    let k := (g.resolve id).1.surfacePushed (g.resolve id).2
    (g.apply (.event (.push id))).frames =
        (k.nextFrame, ⟨g.stackTop, (g.resolve id).2⟩) :: g.frames ∧
      k.nextFrame ∉ g.frames.map Prod.fst := by
  intro k
  have hresolve := (edits_resolve g id).1
  have hedits : g.Edits k := hresolve.trans
    (edits_surfacePushed (hg.resolve id) (g.resolve id).2)
  have hk : k.WellFormed := hedits.wellFormed hg
  have hheld : k.HoldsValue (g.resolve id).2 :=
    (edits_surfacePushed (hg.resolve id) (g.resolve id).2).grows.holdsValue
      (holdsValue_resolve hg id)
  have hpushed := hk.pushFrame hheld
  constructor
  · change ((k.pushFrame (g.resolve id).2).markChanged).frames = _
    rw [(edits_markChanged hpushed).frames_eq hpushed,
      frames_pushFrame hk.toArenaSound hk.toStackSound,
      hedits.frames_eq hg, hedits.grows.stackTop]
  · intro hmem
    have ⟨e, he, heq⟩ := List.mem_map.mp hmem
    have hold := (hg.mem_frames_iff e.1 e.2).mp he
    rw [heq, hedits.grows.vertex?_eq_none hk.vertex?_nextFrame] at hold
    contradiction

theorem WellFormed.isLive_push_iff (id : ValueId) :
    (g.apply (.event (.push id))).isLive w = true ↔
      g.LiveAfter (.push id) w := by
  let h := (g.resolve id).1
  let x := (g.resolve id).2
  let k := h.surfacePushed x
  have hnamed := introduces_resolve hg id
  have hk : k.WellFormed := (hg.resolve id).surfacePushed x
  have ⟨hframes, hnew⟩ := hg.frames_push id
  have hlive : k.isLive w = true ↔
      (g.isLive w = true ∨
        w ∈ [x] ∧ g.vertex? w = none ∧ g.bootstrapping = false) ∨
      g.SurfacesEnds (.push id) ∧ g.Uncovers x w := by
    have hx := hnamed.occupied x (List.mem_singleton_self x)
    rw [isLive_surfacePushed_iff hx, surfacesEnds_push_iff,
      hnamed.uncovers_iff hg, hnamed.isLive_iff]
  constructor
  · intro hafter
    by_cases hw : w = k.nextFrame
    · apply LiveAfter.frame
      · rw [hframes, hw]
        exact List.mem_cons_self
      · rwa [hw]
    · have hsame : (k.pushFrame x).slot? w = k.slot? w := by
        rw [hk.slot?_pushFrame, if_neg hw]
      change (k.pushFrame x).isLive w = true at hafter
      rw [isLive_congr hsame, hlive] at hafter
      rcases hafter with (hold | ⟨hmem, hempty, hphase⟩) | ⟨hsurfaces, hpath⟩
      · exact .before hold
      · exact .registered hmem hempty hphase
      · exact .surfaced hsurfaces (List.mem_singleton_self x) hpath
  · intro hwhy
    change (k.pushFrame x).isLive w = true
    cases hwhy with
    | before hold =>
        exact isLive_pushFrame_of_live hk.toArenaSound x
          (hlive.mpr (Or.inl (Or.inl hold)))
    | registered hmem hempty hphase =>
        exact isLive_pushFrame_of_live hk.toArenaSound x
          (hlive.mpr (Or.inl (Or.inr ⟨hmem, hempty, hphase⟩)))
    | surfaced hsurfaces hmem hpath =>
        rw [List.mem_singleton.mp hmem] at hpath
        exact isLive_pushFrame_of_live hk.toArenaSound x
          (hlive.mpr (Or.inr ⟨hsurfaces, hpath⟩))
    | frame hmem hold =>
        rw [hframes, List.map_cons, List.mem_cons] at hmem
        have hw : w = k.nextFrame := hmem.resolve_right hold
        have hslot := hk.slot?_pushFrame x w
        rw [if_pos hw] at hslot
        exact isLive_of_slot? hslot

theorem WellFormed.isLive_link_iff (source target : Option ValueId)
    (label : String) :
    (g.apply (.event (.link source target label))).isLive w = true ↔
      g.LiveAfter (.link source target label) w := by
  let s := (g.resolveEnd source).2
  let t := ((g.resolveEnd source).1.resolveEnd target).2
  let h := ((g.resolveEnd source).1.resolveEnd target).1
  have hnamed : g.Introduces h (g.namedEnds (.link source target label)) :=
    introduces_ends hg source target label
  have hs : h.slot? s ≠ none := hnamed.occupied s List.mem_cons_self
  have ht : h.slot? t ≠ none :=
    hnamed.occupied t (List.mem_cons_of_mem s List.mem_cons_self)
  have hslot : (g.link source target label).slot? w =
      (h.surfaceLinked s t).slot? w := by
    rw [slot?, slot?, slots_link]
  have hsurfaced : h.linkSurfaces s t = true ↔
      g.SurfacesEnds (.link source target label) :=
    hg.surfacesEnds_link_iff source target label
  have hframes : (g.apply (.event (.link source target label))).frames =
      g.frames := frames_apply_other hg rfl rfl
  change (g.link source target label).isLive w = true ↔ _
  rw [isLive_congr hslot, isLive_surfaceLinked_iff hs ht, hnamed.isLive_iff,
    hsurfaced]
  simp only [hnamed.uncovers_iff hg]
  constructor
  · rintro ((hold | ⟨hmem, hempty, hphase⟩) | ⟨hsurfaces, u, hu, hpath⟩)
    · exact .before hold
    · exact .registered hmem hempty hphase
    · exact .surfaced hsurfaces hu hpath
  · intro hwhy
    cases hwhy with
    | before hold => exact Or.inl (Or.inl hold)
    | registered hmem hempty hphase =>
        exact Or.inl (Or.inr ⟨hmem, hempty, hphase⟩)
    | surfaced hsurfaces hu hpath => exact Or.inr ⟨hsurfaces, _, hu, hpath⟩
    | frame hmem hold =>
        rw [hframes] at hmem
        exact absurd hmem hold

end Event

/-- The graph takes the event, and afterwards just those vertices are live that
have a reason to be. -/
structure LitExactly (g : Graph) (e : Event) : Prop where
  accepted : ∃ g', g.deliver e = .ok g'
  live : ∀ w, (g.apply (.event e)).isLive w = true ↔ g.LiveAfter e w
  kept : ∀ w, g.isLive w = true → (g.apply (.event e)).isLive w = true

/-- The loop that surfaces a vertex ends, in whatever order the index lists its
entries, and always with the same graph.  In every graph that operations make, a
push or a link lights exactly what was live, the values it registers outside the
bootstrap, its frame, and, if it surfaces what it names, that and each hidden
builtin that hidden builtins alone lead to from there. -/
theorem surfacing_exact (ops : List Operation) :
    (∀ (g : Graph) (v : Handle), g.LoopsTo v (g.surface v)) ∧
    (∀ id, (new.run ops).LitExactly (.push id)) ∧
    ∀ source target label,
      (new.run ops).LitExactly (.link source target label) := by
  have hg : (new.run ops).WellFormed := wellFormed_run_new ops
  constructor
  · exact loopsTo_surface
  · constructor
    · intro id
      have hlive := fun w => hg.isLive_push_iff (w := w) id
      exact ⟨⟨_, rfl⟩, hlive, fun w hw => (hlive w).mpr (.before hw)⟩
    · intro source target label
      have hlive := fun w => hg.isLive_link_iff (w := w) source target label
      exact ⟨⟨_, rfl⟩, hlive, fun w hw => (hlive w).mpr (.before hw)⟩

end Graph

end LiveHeap
