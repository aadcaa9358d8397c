namespace EntityLink

/-- The operations of a store that keeps named nodes and edges between them. A node is known by
the number it was given. A store may refuse an edge. -/
structure GraphStore (σ : Type) where
  empty : σ
  nodeCount : σ → Nat
  edgeCount : σ → Nat
  name? : σ → Nat → Option String
  hasEdge : σ → Nat → Nat → Bool
  /-- Where the edges of a node lead. -/
  successors : σ → Nat → List Nat
  /-- Gives the number of the new node too. -/
  addNode : σ → String → Nat × σ
  addEdge? : σ → Nat → Nat → Option σ

namespace GraphStore

/-- Asked in any way, the store answers that it keeps these nodes, numbered from zero, and these
edges. It lists the edges of one node from the newest to the oldest. -/
structure Holds (S : GraphStore σ) (s : σ) (names : List String) (edges : List (Nat × Nat)) :
    Prop where
  nodeCount : S.nodeCount s = names.length
  edgeCount : S.edgeCount s = edges.length
  name? : ∀ i, S.name? s i = names[i]?
  hasEdge : ∀ i j, S.hasEdge s i j = true ↔ (i,j) ∈ edges
  successors : ∀ i, S.successors s i = ((edges.filter (·.1 == i)).map (·.2)).reverse

/-- The store keeps nodes and edges as they are added, and refuses no edge between nodes that it
has. It need not look for an edge that it has already. -/
structure Lawful (S : GraphStore σ) : Prop where
  empty : S.Holds S.empty [] []
  addNode : ∀ {s names edges} (name : String), S.Holds s names edges →
    (S.addNode s name).1 = names.length ∧
      S.Holds (S.addNode s name).2 (names ++ [name]) edges
  addEdge : ∀ {s names edges i j}, S.Holds s names edges → i < names.length → j < names.length →
    ∃ s', S.addEdge? s i j = some s' ∧ S.Holds s' names (edges ++ [(i,j)])

/-- What the plain store keeps: the nodes in the order they came, and the edges with the newest
first. -/
structure Kept where
  names : List String := []
  edges : List (Nat × Nat) := []
  deriving DecidableEq, Repr

/-- The store that keeps lists. -/
def plain : GraphStore Kept where
  empty := {}
  nodeCount s := s.names.length
  edgeCount s := s.edges.length
  name? s i := s.names[i]?
  hasEdge s i j := s.edges.contains (i,j)
  successors s i := (s.edges.filter (·.1 == i)).map (·.2)
  addNode s name := (s.names.length,{ s with names := s.names ++ [name] })
  addEdge? s i j :=
    if i < s.names.length ∧ j < s.names.length then some { s with edges := (i,j) :: s.edges }
    else none

/-- A store that keeps lists meets what is asked of stores. -/
theorem plain_lawful : plain.Lawful where
  empty := ⟨rfl,rfl,fun _ => rfl,by simp [plain],fun _ => rfl⟩
  addNode := by
    intro s names edges name h
    obtain rfl : s.names = names := List.ext_getElem? h.name?
    exact ⟨rfl,rfl,h.edgeCount,fun _ => rfl,h.hasEdge,h.successors⟩
  addEdge := by
    intro s names edges i j h hi hj
    obtain rfl : s.names = names := List.ext_getElem? h.name?
    refine ⟨_,if_pos ⟨hi,hj⟩,rfl,?_,fun _ => rfl,?_,?_⟩
    · have hcount : s.edges.length = edges.length := h.edgeCount
      simp [plain,hcount]
    · intro a b
      have hmem : (a,b) ∈ s.edges ↔ (a,b) ∈ edges := by simpa [plain] using h.hasEdge a b
      simp [plain,hmem,or_comm]
    · intro k
      have hold : (s.edges.filter (·.1 == k)).map (·.2) = _ := h.successors k
      show (((i,j) :: s.edges).filter (·.1 == k)).map (·.2) = _
      by_cases hk : i = k
      · simp [hk,hold]
      · simp [hk,hold]

end GraphStore

end EntityLink
