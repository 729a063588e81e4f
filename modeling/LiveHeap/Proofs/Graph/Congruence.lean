import LiveHeap.Proofs.Graph.Run
import LiveHeap.Session.Observer

/-!
# Relations that events respect

Events look at the vertices, the builtins, the values and the label index, and
at little else.  Two graphs that agree in all this take the same course under
an event.  So a relation that implies such agreement and outlives the
elementary changes (`Congruence`) outlives every event.
-/

namespace LiveHeap

/-- The answers are the same, and what they come with is still related. -/
structure SameAnswer {σ α : Type} (r : σ → σ → Prop) (x y : σ × α) : Prop where
  state : r x.1 y.1
  answer : x.2 = y.2

namespace Graph

/-- Agreement in all that decides the course of an event. -/
structure Alike (g g' : Graph) : Prop where
  length : g'.slots.length = g.slots.length
  vertex? : ∀ v, g'.vertex? v = g.vertex? v
  isBuiltin : ∀ v, g'.isBuiltin v = g.isBuiltin v
  values : g'.values = g.values
  edges : g'.edges = g.edges
  index : g'.index = g.index
  stackTop : g'.stackTop = g.stackTop
  bootstrapping : g'.bootstrapping = g.bootstrapping

structure Congruence (r : Graph → Graph → Prop) : Prop where
  alike : ∀ {g g'}, r g g' → g.Alike g'
  setVertex : ∀ {g g'}, r g g' → ∀ v x, r (g.setVertex v x) (g'.setVertex v x)
  setOutcomes : ∀ {g g'}, r g g' → ∀ v outcomes,
    r (g.setOutcomes v outcomes) (g'.setOutcomes v outcomes)
  allocValue : ∀ {g g'}, r g g' → ∀ id x flags,
    r (g.allocValue id x flags).1 (g'.allocValue id x flags).1
  rewire : ∀ {g g'}, r g g' → ∀ index edges,
    r { g with index, edges } { g' with index, edges }
  surface : ∀ {g g'}, r g g' → ∀ v, r (g.surface v) (g'.surface v)
  pushFrame : ∀ {g g'}, r g g' → ∀ value,
    r (g.pushFrame value) (g'.pushFrame value)
  popFrame : ∀ {g g'}, r g g' → ∀ f, r (g.popFrame f) (g'.popFrame f)
  markChanged : ∀ {g g'}, r g g' → r g.markChanged g'.markChanged

variable {r : Graph → Graph → Prop} {g g' : Graph}

theorem observe_pop_of_frame {f : Frame}
    (htop : g.vertex? g.stackTop = some (.frame f)) (id : ValueId) :
    g.observe (.pop id) = (g.popFrame f, none) := by
  unfold observe deliver
  simp only [pop_eq_popFrame htop]

theorem observe_pop_refused
    (htop : ¬ ∃ f, g.vertex? g.stackTop = some (.frame f)) (id : ValueId) :
    g.observe (.pop id) = (g, some .stackUnderflow) := by
  unfold observe deliver
  simp only [pop_refused htop]

namespace Alike

variable (h : g.Alike g')

include h

theorem vertexFor? (id : ValueId) : g'.vertexFor? id = g.vertexFor? id := by
  unfold Graph.vertexFor?
  rw [h.values]

theorem outgoing? (s : Handle) (l : Label) :
    g'.outgoing? s l = g.outgoing? s l := by
  unfold Graph.outgoing?
  rw [h.index]

theorem registrationFlags : g'.registrationFlags = g.registrationFlags := by
  unfold Graph.registrationFlags
  rw [h.bootstrapping]

theorem linkSurfaces (s t : Handle) :
    g'.linkSurfaces s t = g.linkSurfaces s t := by
  unfold Graph.linkSurfaces
  rw [h.bootstrapping, h.isBuiltin, h.isBuiltin]

end Alike

namespace Congruence

variable (h : Congruence r) (hr : r g g')

include h hr

theorem retire (s : Handle) (l : Label) : r (g.retire s l) (g'.retire s l) := by
  have hsame := h.alike hr
  have hindex : (g'.retire s l).index = (g.retire s l).index := by
    unfold Graph.retire
    rw [hsame.outgoing?, hsame.index]
    split <;> simp [hsame.index]
  have hedges : (g'.retire s l).edges = (g.retire s l).edges := by
    unfold Graph.retire
    rw [hsame.outgoing?, hsame.edges]
    split <;> simp [hsame.edges]
  rw [retire_eq g, retire_eq g', hindex, hedges]
  exact h.rewire hr _ _

theorem install (e : Edge) : r (g.install e) (g'.install e) := by
  have hretired := h.retire hr e.source e.label
  have hsame := h.alike hretired
  unfold Graph.install
  simp only [hsame.index, hsame.edges]
  exact h.rewire hretired _ _

theorem retireOutcomes (v : Handle) :
    r (g.retireOutcomes v) (g'.retireOutcomes v) := by
  unfold Graph.retireOutcomes
  rw [(h.alike hr).vertex?]
  simp only
  generalize List.range _ = positions
  induction positions generalizing g g' with
  | nil => exact hr
  | cons i positions ih => exact ih (h.retire hr v (.maybe i))

theorem alloc (id : ValueId) (x : Vertex) (flags : Flags) :
    SameAnswer r (g.allocValue id x flags) (g'.allocValue id x flags) where
  state := h.allocValue hr id x flags
  answer := by
    unfold Graph.allocValue
    rw [(h.alike hr).length]

theorem announce (id : ValueId) (x : Vertex) :
    SameAnswer r (g.announce id x) (g'.announce id x) := by
  have hsame := h.alike hr
  unfold Graph.announce
  rw [hsame.vertexFor?, hsame.registrationFlags]
  cases g.vertexFor? id with
  | some v => exact ⟨h.setVertex (h.retireOutcomes hr v) v x, rfl⟩
  | none => exact h.alloc hr id x _

end Congruence

mutual

theorem Congruence.register {r : Graph → Graph → Prop} (h : Congruence r)
    {g g' : Graph} (hr : r g g') :
    (value : Value) → SameAnswer r (g.register value) (g'.register value)
  | .plain about => by
      rw [Graph.register, Graph.register]
      exact h.announce hr about.id (.plain about)
  | .union about outcomes => by
      rw [Graph.register, Graph.register]
      have hunion := h.announce hr about.id (.union about [])
      have houtcomes := h.registerOutcomes hunion.state
        (g.announce about.id (.union about [])).2 0 outcomes
      simp only
      rw [← hunion.answer, ← houtcomes.answer]
      exact ⟨h.setOutcomes houtcomes.state _ _, rfl⟩

theorem Congruence.registerOutcomes {r : Graph → Graph → Prop}
    (h : Congruence r) {g g' : Graph} (hr : r g g') (union : Handle)
    (position : Nat) : (outcomes : List Value) →
      SameAnswer r (g.registerOutcomes union position outcomes)
        (g'.registerOutcomes union position outcomes)
  | [] => by
      rw [Graph.registerOutcomes, Graph.registerOutcomes]
      exact ⟨hr, rfl⟩
  | outcome :: outcomes => by
      have hfirst := h.register hr outcome
      have hlink : r (g.linkOutcome union position outcome)
          (g'.linkOutcome union position outcome) := by
        unfold Graph.linkOutcome
        rw [← hfirst.answer]
        exact h.install hfirst.state _
      have hrest := h.registerOutcomes hlink union (position + 1) outcomes
      rw [registerOutcomes_cons, registerOutcomes_cons, ← hfirst.answer]
      exact ⟨hrest.state, congrArg (_ :: ·) hrest.answer⟩

end

namespace Congruence

variable (h : Congruence r) (hr : r g g')

include h hr

theorem resolve (id : ValueId) :
    SameAnswer r (g.resolve id) (g'.resolve id) := by
  have hsame := h.alike hr
  unfold Graph.resolve
  rw [hsame.vertexFor?, hsame.registrationFlags]
  cases g.vertexFor? id with
  | some v => exact ⟨hr, rfl⟩
  | none => exact h.alloc hr id _ _

theorem resolveEnd (id : Option ValueId) :
    SameAnswer r (g.resolveEnd id) (g'.resolveEnd id) := by
  cases id with
  | none => exact ⟨hr, rfl⟩
  | some id => exact h.resolve hr id

theorem surfacePushed (v : Handle) :
    r (g.surfacePushed v) (g'.surfacePushed v) := by
  have hsame := h.alike hr
  unfold Graph.surfacePushed
  rw [hsame.bootstrapping, hsame.isBuiltin]
  split
  · exact h.surface hr v
  · exact hr

theorem surfaceLinked (s t : Handle) :
    r (g.surfaceLinked s t) (g'.surfaceLinked s t) := by
  unfold Graph.surfaceLinked
  rw [(h.alike hr).linkSurfaces]
  split
  · exact h.surface (h.surface hr s) t
  · exact hr

theorem push (id : ValueId) : r (g.push id) (g'.push id) := by
  have hresolved := h.resolve hr id
  unfold Graph.push
  simp only
  rw [← hresolved.answer]
  exact h.markChanged
    (h.pushFrame (h.surfacePushed hresolved.state _) _)

theorem link (source target : Option ValueId) (label : String) :
    r (g.link source target label) (g'.link source target label) := by
  have hsource := h.resolveEnd hr source
  have htarget := h.resolveEnd hsource.state target
  unfold Graph.link
  simp only
  rw [← hsource.answer, ← htarget.answer]
  exact h.markChanged
    (h.install (h.surfaceLinked htarget.state _ _) _)

theorem unlink (source target : Option ValueId) (label : String) :
    r (g.unlink source target label) (g'.unlink source target label) := by
  have hsource := h.resolveEnd hr source
  have htarget := h.resolveEnd hsource.state target
  unfold Graph.unlink
  simp only
  rw [← hsource.answer]
  exact h.markChanged (h.retire htarget.state _ _)

theorem pop (id : ValueId) :
    SameAnswer r (g.observe (.pop id)) (g'.observe (.pop id)) := by
  have hsame := h.alike hr
  have htop : g'.vertex? g'.stackTop = g.vertex? g.stackTop := by
    rw [hsame.stackTop, hsame.vertex?]
  by_cases hframe : ∃ f, g.vertex? g.stackTop = some (.frame f)
  · rcases hframe with ⟨f, hf⟩
    rw [observe_pop_of_frame hf, observe_pop_of_frame (htop.trans hf)]
    exact ⟨h.popFrame hr f, rfl⟩
  · have hframe' : ¬ ∃ f, g'.vertex? g'.stackTop = some (.frame f) := by
      rwa [htop]
    rw [observe_pop_refused hframe, observe_pop_refused hframe']
    exact ⟨hr, rfl⟩

/-- A call boundary is not among these events, for it does nothing but raise
one flag. -/
theorem observe {e : Event} (he : e ≠ .callBoundary) :
    SameAnswer r (g.observe e) (g'.observe e) := by
  cases e with
  | create value =>
      have hvalue := h.register hr value
      exact ⟨h.markChanged hvalue.state, rfl⟩
  | push id => exact ⟨h.push hr id, rfl⟩
  | pop id => exact h.pop hr id
  | link source target label => exact ⟨h.link hr source target label, rfl⟩
  | unlink source target label => exact ⟨h.unlink hr source target label, rfl⟩
  | callBoundary => exact absurd rfl he

end Congruence

end Graph

end LiveHeap
