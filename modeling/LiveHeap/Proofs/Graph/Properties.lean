import LiveHeap.Proofs.Graph.Surfacing

/-!
# Property edges over whole runs

A link puts one property edge in, an unlink takes one out, and nothing else
that happens to a graph does anything to a property edge: announcing a value
again only goes for maybe edges, frames have edges of their own, and a
collection leaves all edges in place.  So the edge under a source and a name is
the one that the last link with this source and this name put in, if it was not
unlinked since.
-/

namespace LiveHeap

namespace Graph

/-- The vertex that an end of a link stands for, if there is one by now. -/
def endOf? (g : Graph) : Option ValueId → Option Handle
  | none => some root
  | some id => g.vertexFor? id

/-- The operation links or unlinks the source under the name, whatever the
target is. -/
def Operation.Rebinds (source : Option ValueId) (name : String) :
    Operation → Prop
  | .event (.link s _ l) | .event (.unlink s _ l) => s = source ∧ l = name
  | _ => False

theorem Operation.Rebinds.link_or_unlink {op : Operation}
    {source : Option ValueId} {name : String} (h : op.Rebinds source name) :
    (∃ target, op = .event (.link source target name)) ∨
      ∃ target, op = .event (.unlink source target name) := by
  cases op with
  | event e =>
      cases e with
      | link s t l =>
          obtain ⟨rfl, rfl⟩ := h
          exact Or.inl ⟨t, rfl⟩
      | unlink s t l =>
          obtain ⟨rfl, rfl⟩ := h
          exact Or.inr ⟨t, rfl⟩
      | create value => contradiction
      | push id => contradiction
      | pop id => contradiction
      | callBoundary => contradiction
  | beginBootstrap => contradiction
  | endBootstrap => contradiction
  | registerBuiltins ids => contradiction
  | setGlobal id => contradiction
  | collect => contradiction
  | takeSnapshot => contradiction

/-- The source is linked to the target under the name, and is not linked or
unlinked under that name again. -/
def LastLink (ops : List Operation) (source : Option ValueId) (name : String)
    (target : Option ValueId) : Prop :=
  ∃ before after, ops = before ++ .event (.link source target name) :: after ∧
    ∀ op ∈ after, ¬ op.Rebinds source name

theorem lastLink_concat {ops : List Operation} {op : Operation}
    {source target : Option ValueId} {name : String} :
    LastLink (ops ++ [op]) source name target ↔
      op = .event (.link source target name) ∨
        ¬ op.Rebinds source name ∧ LastLink ops source name target := by
  constructor
  · rintro ⟨before, after, hops, hafter⟩
    cases after using List.reverseRecOn with
    | nil => exact Or.inl (List.append_singleton_inj.mp hops).2
    | append_singleton after last =>
        right
        rw [← List.cons_append, ← List.append_assoc] at hops
        obtain ⟨hfirst, rfl⟩ := List.append_singleton_inj.mp hops
        exact ⟨hafter op (by simp), before, after, hfirst,
          fun o ho => hafter o (List.mem_append_left _ ho)⟩
  · rintro (rfl | ⟨hop, before, after, rfl, hafter⟩)
    · exact ⟨ops, [], rfl, by simp⟩
    · refine ⟨before, after ++ [op], by simp, fun o ho => ?_⟩
      rcases List.mem_append.mp ho with ho | ho
      · exact hafter o ho
      · rwa [List.mem_singleton.mp ho]

variable {g g' : Graph}

/-! ## What leaves property edges alone -/

/-- Every vertex has the same property edges in both graphs. -/
def SameProperties (g g' : Graph) : Prop :=
  ∀ v name, g'.outgoing? v (.property name) = g.outgoing? v (.property name)

theorem SameProperties.of_index (hindex : g'.index = g.index) :
    g.SameProperties g' := by
  intro v name
  rw [outgoing?, hindex]
  rfl

theorem SameProperties.trans {g'' : Graph} (h : g.SameProperties g')
    (h' : g'.SameProperties g'') : g.SameProperties g'' :=
  fun v name => (h' v name).trans (h v name)

theorem keptByAnnouncing_sameProperties (g : Graph) :
    KeptByAnnouncing g.SameProperties where
  retireMaybe := by
    intro g' hsame v i
    refine hsame.trans fun w name => ?_
    rw [outgoing?_retire, if_neg (by simp)]
  installMaybe := by
    intro g' hsame v t i
    refine hsame.trans fun w name => ?_
    rw [outgoing?_install, if_neg (by simp)]
  setVertex hsame _ _ := hsame.trans (.of_index rfl)
  setOutcomes hsame _ _ := hsame.trans (.of_index rfl)
  allocValue hsame _ _ := hsame.trans (.of_index rfl)

theorem index_surface (g : Graph) (v : Handle) :
    (g.surface v).index = g.index :=
  (alike_of_core (core_surface g v)).index

theorem index_surfaceLinked (g : Graph) (s t : Handle) :
    (g.surfaceLinked s t).index = g.index := by
  unfold surfaceLinked
  split
  · rw [index_surface, index_surface]
  · rfl

theorem index_push (g : Graph) (id : ValueId) :
    (g.push id).index = g.index := by
  have hsurface : ∀ (g : Graph) v, (g.surfacePushed v).index = g.index := by
    intro g v
    unfold surfacePushed
    split
    · exact index_surface g v
    · rfl
  have hframe : ∀ (g : Graph) v, (g.pushFrame v).index = g.index := by
    intro g v
    rw [pushFrame_eq]
  calc (g.push id).index
      = (((g.resolve id).1.surfacePushed (g.resolve id).2).pushFrame
          (g.resolve id).2).index := rfl
    _ = (g.resolve id).1.index := by rw [hframe, hsurface]
    _ = g.index := index_resolve g id

theorem index_registerBuiltins (g : Graph) (ids : List ValueId) :
    (g.registerBuiltins ids).index = g.index := by
  apply List.foldlRecOn (motive := fun g' : Graph => g'.index = g.index)
  · rfl
  · intro g' hsame id _
    unfold registerBuiltin
    cases g'.vertexFor? id <;> exact hsame

theorem index_collect (hg : g.WellFormed) : g.collect.1.index = g.index := by
  rw [(collect_released hg.idle).1]
  apply List.foldlRecOn (motive := fun g' : Graph => g'.index = g.index)
  · rfl
  · exact fun g' hsame v _ => hsame

/-- Only links and unlinks do anything to property edges. -/
theorem sameProperties_apply (hg : g.WellFormed) {op : Operation}
    (hop : ∀ source name, ¬ op.Rebinds source name) :
    g.SameProperties (g.apply op) := by
  cases op with
  | event e =>
      cases e with
      | create value =>
          have hsame : g.SameProperties (g.register value).1 :=
            (keptByAnnouncing_sameProperties g).register (.of_index rfl) value
          exact hsame.trans (.of_index rfl)
      | push id => exact .of_index (index_push g id)
      | pop id =>
          rcases g.apply_pop id with hsame | ⟨f, _, hpop⟩
          · rw [hsame]
            exact .of_index rfl
          · rw [hpop]
            exact .of_index rfl
      | link source target label => exact absurd ⟨rfl, rfl⟩ (hop source label)
      | unlink source target label => exact absurd ⟨rfl, rfl⟩ (hop source label)
      | callBoundary => exact .of_index rfl
  | beginBootstrap => exact .of_index rfl
  | endBootstrap => exact .of_index rfl
  | registerBuiltins ids => exact .of_index (index_registerBuiltins g ids)
  | setGlobal id =>
      cases id with
      | none => exact .of_index rfl
      | some id => exact .of_index (index_resolve g id)
  | collect => exact .of_index (index_collect hg)
  | takeSnapshot => exact .of_index rfl

/-! ## Links and unlinks -/

theorem index_ends (g : Graph) (source target : Option ValueId) :
    ((g.resolveEnd source).1.resolveEnd target).1.index = g.index :=
  (index_resolveEnd _ target).trans (index_resolveEnd g source)

theorem outgoing?_link (g : Graph) (source target : Option ValueId)
    (label : String) (v : Handle) (l : Label) :
    (g.link source target label).outgoing? v l =
      if (v, l) = ((g.resolveEnd source).2, .property label) then
        some ((g.resolveEnd source).1.resolveEnd target).2
      else g.outgoing? v l := by
  let s := (g.resolveEnd source).2
  let ends := (g.resolveEnd source).1.resolveEnd target
  have hlink : (g.link source target label).outgoing? v l =
      ((ends.1.surfaceLinked s ends.2).install
        ⟨s, ends.2, .property label⟩).outgoing? v l := rfl
  have hindex : (ends.1.surfaceLinked s ends.2).index = g.index :=
    (index_surfaceLinked ends.1 s ends.2).trans (index_ends g source target)
  rw [hlink, outgoing?_install, outgoing?, hindex]
  rfl

theorem outgoing?_unlink (g : Graph) (source target : Option ValueId)
    (label : String) (v : Handle) (l : Label) :
    (g.unlink source target label).outgoing? v l =
      if (v, l) = ((g.resolveEnd source).2, .property label) then none
      else g.outgoing? v l := by
  let s := (g.resolveEnd source).2
  let ends := (g.resolveEnd source).1.resolveEnd target
  have hunlink : (g.unlink source target label).outgoing? v l =
      (ends.1.retire s (.property label)).outgoing? v l := rfl
  have hindex : ends.1.index = g.index := index_ends g source target
  rw [hunlink, outgoing?_retire, outgoing?, hindex]
  rfl

/-! ## The ends of links -/

theorem endOf?_of_values (hvalues : g'.values = g.values)
    (s : Option ValueId) : g'.endOf? s = g.endOf? s := by
  cases s with
  | none => rfl
  | some id => rw [endOf?, vertexFor?, hvalues]; rfl

theorem WellFormed.isEnd_iff (hg : g.WellFormed) {v : Handle} :
    g.IsEnd v ↔ ∃ s, g.endOf? s = some v := by
  unfold IsEnd
  rw [hg.holdsValue_iff_known]
  constructor
  · rintro (rfl | ⟨id, hid⟩)
    · exact ⟨none, rfl⟩
    · exact ⟨some id, hid⟩
  · rintro ⟨_ | id, hs⟩
    · exact Or.inl (Option.some.inj hs).symm
    · exact Or.inr ⟨id, hs⟩

/-- Different ends have different vertices. -/
theorem WellFormed.eq_of_endOf? (hg : g.WellFormed) {s s' : Option ValueId}
    {v : Handle} (hs : g.endOf? s = some v) (hs' : g.endOf? s' = some v) :
    s = s' := by
  have hvalue : ∀ id, g.endOf? (some id) = some v →
      g.valueAt? v = some id ∧ v ≠ root := by
    intro id hid
    have hheld := (hg.vertexFor?_iff id v).mp hid
    refine ⟨hheld, fun hroot => ?_⟩
    rw [valueAt?, (hg.root_iff v).mpr hroot] at hheld
    contradiction
  cases s with
  | none =>
      cases s' with
      | none => rfl
      | some id' => exact absurd (Option.some.inj hs).symm (hvalue id' hs').2
  | some id =>
      cases s' with
      | none => exact absurd (Option.some.inj hs').symm (hvalue id hs).2
      | some id' =>
          have hheld := (hvalue id hs).1
          rwa [(hvalue id' hs').1, eq_comm] at hheld

theorem WellFormed.endOf?_apply (hg : g.WellFormed) (op : Operation)
    {s : Option ValueId} {v : Handle} (hs : g.endOf? s = some v) :
    (g.apply op).endOf? s = some v := by
  cases s with
  | none => exact hs
  | some id =>
      have hheld := hg.valueAt?_apply op ((hg.vertexFor?_iff id v).mp hs)
      exact ((hg.apply op).vertexFor?_iff id v).mpr hheld

theorem endOf?_resolveEnd (g : Graph) (s : Option ValueId) :
    (g.resolveEnd s).1.endOf? s = some (g.resolveEnd s).2 := by
  cases s with
  | none => rfl
  | some id => exact (edits_resolve g id).2

theorem WellFormed.endOf?_ends (hg : g.WellFormed)
    (source target : Option ValueId) :
    let ends := (g.resolveEnd source).1.resolveEnd target
    ends.1.endOf? source = some (g.resolveEnd source).2 ∧
      ends.1.endOf? target = some ends.2 := by
  intro ends
  refine ⟨?_, endOf?_resolveEnd _ target⟩
  have hfirst := endOf?_resolveEnd g source
  have hg₁ := (edits_resolveEnd hg source).1.wellFormed hg
  have hsecond := (edits_resolveEnd hg₁ target).1
  cases source with
  | none => rfl
  | some id =>
      have hheld := hsecond.grows.valueAt _ _
        ((hg₁.vertexFor?_iff id _).mp hfirst)
      exact ((hsecond.wellFormed hg₁).vertexFor?_iff id _).mpr hheld

theorem WellFormed.endOf?_link (hg : g.WellFormed)
    (source target : Option ValueId) (label : String) :
    let ends := (g.resolveEnd source).1.resolveEnd target
    (g.link source target label).endOf? source =
        some (g.resolveEnd source).2 ∧
      (g.link source target label).endOf? target = some ends.2 := by
  intro ends
  have hsurface : (ends.1.surfaceLinked (g.resolveEnd source).2
      ends.2).values = ends.1.values := by
    unfold surfaceLinked
    split
    · rw [(alike_of_core (core_surface _ _)).values,
        (alike_of_core (core_surface _ _)).values]
    · rfl
  have hvalues : (g.link source target label).values = ends.1.values := by
    change ((ends.1.surfaceLinked (g.resolveEnd source).2 ends.2).install
      ⟨_, ends.2, .property label⟩).values = _
    rw [install_eq]
    exact hsurface
  rw [endOf?_of_values hvalues, endOf?_of_values hvalues]
  exact hg.endOf?_ends source target

theorem WellFormed.endOf?_unlink (hg : g.WellFormed)
    (source target : Option ValueId) (label : String) :
    (g.unlink source target label).endOf? source =
      some (g.resolveEnd source).2 := by
  let ends := (g.resolveEnd source).1.resolveEnd target
  have hvalues : (g.unlink source target label).values = ends.1.values := by
    change (ends.1.retire (g.resolveEnd source).2
      (.property label)).values = _
    rw [retire_eq]
  rw [endOf?_of_values hvalues]
  exact (hg.endOf?_ends source target).1

/-- A value that was not known before has no property edges yet. -/
theorem WellFormed.outgoing?_of_unknown (hg : g.WellFormed) {op : Operation}
    {s : Option ValueId} {v : Handle} (hs : g.endOf? s = none)
    (hv : (g.apply op).endOf? s = some v) (l : Label) :
    g.outgoing? v l = none := by
  rw [Option.eq_none_iff_forall_ne_some]
  intro w hw
  obtain ⟨s', hs'⟩ := hg.isEnd_iff.mp (hg.index_ends v l w hw).2.1
  have hsame := (hg.apply op).eq_of_endOf? hv (hg.endOf?_apply op hs')
  rw [hsame, hs'] at hs
  contradiction

/-! ## One operation -/

/-- An operation that does not rebind a source under a name leaves the property
edge of the source under the name alone. -/
theorem WellFormed.outgoing?_apply (hg : g.WellFormed) {op : Operation}
    {s : Option ValueId} {name : String} (hop : ¬ op.Rebinds s name)
    {v : Handle} (hv : (g.apply op).endOf? s = some v) :
    (g.apply op).outgoing? v (.property name) =
      g.outgoing? v (.property name) := by
  have hother : ∀ {s' : Option ValueId} {label : String},
      (g.apply op).endOf? s' = some (g.resolveEnd s').2 →
      ¬ (s' = s ∧ label = name) →
      (v, Label.property name) ≠ ((g.resolveEnd s').2, .property label) := by
    intro s' label hs' hkey heq
    obtain ⟨rfl, hlabel⟩ := Prod.mk.inj heq
    exact hkey ⟨(hg.apply op).eq_of_endOf? hs' hv,
      (Label.property.inj hlabel).symm⟩
  by_cases hall : ∀ source label, ¬ op.Rebinds source label
  · exact sameProperties_apply hg hall v name
  · push Not at hall
    obtain ⟨source, label, hrebinds⟩ := hall
    rcases hrebinds.link_or_unlink with ⟨target, rfl⟩ | ⟨target, rfl⟩
    · change (g.link source target label).outgoing? v (.property name) = _
      rw [outgoing?_link, if_neg]
      exact hother (hg.endOf?_link source target label).1 hop
    · change (g.unlink source target label).outgoing? v (.property name) = _
      rw [outgoing?_unlink, if_neg]
      exact hother (hg.endOf?_unlink source target label) hop

/-! ## Runs -/

theorem outgoing?_of_lastLink {ops : List Operation}
    {source target : Option ValueId} {name : String}
    (hlast : LastLink ops source name target) :
    ∃ v w, (new.run ops).endOf? source = some v ∧
      (new.run ops).endOf? target = some w ∧
      (new.run ops).outgoing? v (.property name) = some w := by
  induction ops using List.reverseRecOn with
  | nil =>
      obtain ⟨before, after, hops, _⟩ := hlast
      simp at hops
  | append_singleton ops op ih =>
      have hg : (new.run ops).WellFormed := wellFormed_run_new ops
      rw [run_concat]
      rcases lastLink_concat.mp hlast with rfl | ⟨hop, hrest⟩
      · obtain ⟨hs, ht⟩ := hg.endOf?_link source target name
        refine ⟨_, _, hs, ht, ?_⟩
        change ((new.run ops).link source target name).outgoing? _ _ = _
        rw [outgoing?_link, if_pos rfl]
      · obtain ⟨v, w, hs, ht, hout⟩ := ih hrest
        have hs' := hg.endOf?_apply op hs
        refine ⟨v, w, hs', hg.endOf?_apply op ht, ?_⟩
        rw [hg.outgoing?_apply hop hs', hout]

theorem outgoing?_of_not_lastLink {ops : List Operation}
    {source : Option ValueId} {name : String} {v : Handle}
    (hnone : ∀ target, ¬ LastLink ops source name target)
    (hv : (new.run ops).endOf? source = some v) :
    (new.run ops).outgoing? v (.property name) = none := by
  induction ops using List.reverseRecOn generalizing v with
  | nil => rfl
  | append_singleton ops op ih =>
      have hg : (new.run ops).WellFormed := wellFormed_run_new ops
      rw [run_concat] at hv ⊢
      by_cases hop : op.Rebinds source name
      · rcases hop.link_or_unlink with ⟨target, rfl⟩ | ⟨target, rfl⟩
        · exact absurd (lastLink_concat.mpr (Or.inl rfl)) (hnone target)
        · have hs := hg.endOf?_unlink source target name
          change (Graph.unlink _ source target name).endOf? source = _ at hv
          rw [hs] at hv
          obtain rfl := Option.some.inj hv
          change (Graph.unlink _ source target name).outgoing? _ _ = _
          rw [outgoing?_unlink, if_pos rfl]
      · have hrest : ∀ target, ¬ LastLink ops source name target :=
          fun target hlast =>
            hnone target (lastLink_concat.mpr (Or.inr ⟨hop, hlast⟩))
        rw [hg.outgoing?_apply hop hv]
        cases hknown : (new.run ops).endOf? source with
        | none => exact hg.outgoing?_of_unknown hknown hv _
        | some w =>
            have hsame := hg.endOf?_apply op hknown
            rw [hv] at hsame
            obtain rfl := Option.some.inj hsame
            exact ih hrest hknown

theorem WellFormed.mem_edges_property (hg : g.WellFormed) {v u : Handle}
    {name : String} :
    ⟨v, u, .property name⟩ ∈ g.edges ↔
      g.outgoing? v (.property name) = some u := by
  rw [hg.mem_edges_iff]
  refine or_iff_left fun hframing => ?_
  have hstructural := hframing.isStructural
  contradiction

/-- In every graph that operations make, the property edges of the root and of
the known values are those that the last links left: under a source and a name
there is one edge, to the vertex of the target of the last link, if nothing
unlinked the source under the name after it, and otherwise there is none. -/
theorem properties_follow_last_link (ops : List Operation) :
    let g := new.run ops
    ∀ (source : Option ValueId) (name : String),
      (∀ target, LastLink ops source name target →
        ∃ v w, g.endOf? source = some v ∧ g.endOf? target = some w ∧
          g.outgoing? v (.property name) = some w ∧
          ∀ u, ⟨v, u, .property name⟩ ∈ g.edges ↔ u = w) ∧
      ((∀ target, ¬ LastLink ops source name target) →
        ∀ v, g.endOf? source = some v →
          g.outgoing? v (.property name) = none ∧
          ∀ u, ⟨v, u, .property name⟩ ∉ g.edges) := by
  intro g source name
  have hg : g.WellFormed := wellFormed_run_new ops
  constructor
  · intro target hlast
    obtain ⟨v, w, hs, ht, hout⟩ := outgoing?_of_lastLink hlast
    refine ⟨v, w, hs, ht, hout, fun u => ?_⟩
    rw [hg.mem_edges_property, hout, Option.some.injEq, eq_comm]
  · intro hnone v hv
    have hout := outgoing?_of_not_lastLink hnone hv
    refine ⟨hout, fun u hu => ?_⟩
    rw [hg.mem_edges_property, hout] at hu
    contradiction

end Graph

end LiveHeap
