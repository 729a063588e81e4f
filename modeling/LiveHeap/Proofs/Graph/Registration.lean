import LiveHeap.Proofs.Graph.Run

/-!
# What registering a value keeps

Announcing and mentioning values is made of four changes: new lookups and
edges, a new description of a vertex, a new outcome list, and a new vertex with
the flags of the phase.  A property that outlives these outlives the
registration of any value, however deep its outcomes go.  The only edges that
a registration takes away or puts in are maybe edges.
-/

namespace LiveHeap.Graph

structure KeptByAnnouncing (p : Graph → Prop) : Prop where
  retireMaybe : ∀ {g}, p g → ∀ v i, p (g.retire v (.maybe i))
  installMaybe : ∀ {g}, p g → ∀ v w i, p (g.install ⟨v, w, .maybe i⟩)
  setVertex : ∀ {g}, p g → ∀ v x, p (g.setVertex v x)
  setOutcomes : ∀ {g}, p g → ∀ v outcomes, p (g.setOutcomes v outcomes)
  allocValue : ∀ {g}, p g → ∀ id x,
    p (g.allocValue id x g.registrationFlags).1

namespace KeptByAnnouncing

variable {p : Graph → Prop} {g : Graph}

theorem retireOutcomes (h : KeptByAnnouncing p) (hg : p g) (v : Handle) :
    p (g.retireOutcomes v) := by
  apply List.foldlRecOn (motive := p)
  · exact hg
  · exact fun g' hg' i _ => h.retireMaybe hg' v i

theorem announce (h : KeptByAnnouncing p) (hg : p g) (id : ValueId)
    (x : Vertex) : p (g.announce id x).1 := by
  unfold Graph.announce
  cases g.vertexFor? id with
  | some v => exact h.setVertex (h.retireOutcomes hg v) v x
  | none => exact h.allocValue hg id x

theorem resolve (h : KeptByAnnouncing p) (hg : p g) (id : ValueId) :
    p (g.resolve id).1 := by
  unfold Graph.resolve
  cases g.vertexFor? id with
  | some v => exact hg
  | none => exact h.allocValue hg id _

theorem resolveEnd (h : KeptByAnnouncing p) (hg : p g)
    (id : Option ValueId) : p (g.resolveEnd id).1 := by
  cases id with
  | none => exact hg
  | some id => exact h.resolve hg id

end KeptByAnnouncing

mutual

theorem KeptByAnnouncing.register {p : Graph → Prop}
    (h : KeptByAnnouncing p) {g : Graph} (hg : p g) :
    (value : Value) → p (g.register value).1
  | .plain about => by
      rw [Graph.register]
      exact h.announce hg about.id (.plain about)
  | .union about outcomes => by
      rw [Graph.register]
      have hunion := h.announce hg about.id (.union about [])
      have houtcomes := h.registerOutcomes hunion
        (g.announce about.id (.union about [])).2 0 outcomes
      exact h.setOutcomes houtcomes _ _

theorem KeptByAnnouncing.registerOutcomes {p : Graph → Prop}
    (h : KeptByAnnouncing p) {g : Graph} (hg : p g) (union : Handle)
    (position : Nat) : (outcomes : List Value) →
      p (g.registerOutcomes union position outcomes).1
  | [] => by
      rw [Graph.registerOutcomes]
      exact hg
  | outcome :: outcomes => by
      have hfirst := h.register hg outcome
      have hlink : p (g.linkOutcome union position outcome) :=
        h.installMaybe hfirst union _ position
      rw [registerOutcomes_cons]
      exact h.registerOutcomes hlink union (position + 1) outcomes

end

/-- A property that has nothing to do with edges. -/
structure KeptByRegistration (p : Graph → Prop) : Prop where
  rewire : ∀ {g}, p g → ∀ index edges, p { g with index, edges }
  setVertex : ∀ {g}, p g → ∀ v x, p (g.setVertex v x)
  setOutcomes : ∀ {g}, p g → ∀ v outcomes, p (g.setOutcomes v outcomes)
  allocValue : ∀ {g}, p g → ∀ id x,
    p (g.allocValue id x g.registrationFlags).1

namespace KeptByRegistration

variable {p : Graph → Prop} {g : Graph}

theorem retire (h : KeptByRegistration p) (hg : p g) (s : Handle) (l : Label) :
    p (g.retire s l) := by
  rw [retire_eq]
  exact h.rewire hg _ _

theorem install (h : KeptByRegistration p) (hg : p g) (e : Edge) :
    p (g.install e) := by
  rw [install_eq]
  exact h.rewire hg _ _

theorem toAnnouncing (h : KeptByRegistration p) : KeptByAnnouncing p where
  retireMaybe hg v i := h.retire hg v (.maybe i)
  installMaybe hg v w i := h.install hg ⟨v, w, .maybe i⟩
  setVertex := h.setVertex
  setOutcomes := h.setOutcomes
  allocValue := h.allocValue

theorem resolve (h : KeptByRegistration p) (hg : p g) (id : ValueId) :
    p (g.resolve id).1 := h.toAnnouncing.resolve hg id

theorem resolveEnd (h : KeptByRegistration p) (hg : p g)
    (id : Option ValueId) : p (g.resolveEnd id).1 :=
  h.toAnnouncing.resolveEnd hg id

theorem register (h : KeptByRegistration p) (hg : p g) (value : Value) :
    p (g.register value).1 := h.toAnnouncing.register hg value

end KeptByRegistration

end LiveHeap.Graph
