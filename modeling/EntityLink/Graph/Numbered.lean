import EntityLink.Graph
import EntityLink.Graph.Store

namespace EntityLink

/-- Which entity refers to which, with numbers for the entities. Beside the store stands the
number of each entity, in the order the entities came. -/
structure NumberedGraph (σ : Type) where
  store : σ
  numbers : List (String × Nat) := []
  deriving DecidableEq, Repr

namespace NumberedGraph
variable {σ : Type} (S : GraphStore σ)

def number? (g : NumberedGraph σ) (entity : String) : Option Nat :=
  g.numbers.lookup entity

/-- The number of an entity, which becomes a node where it is none yet. -/
def ensureNode (g : NumberedGraph σ) (entity : String) : Nat × NumberedGraph σ :=
  match g.number? entity with
  | some i => (i,g)
  | none =>
    let (i,store) := S.addNode g.store entity
    (i,⟨store,g.numbers ++ [(entity,i)]⟩)

/-- Adds an edge that is none yet. -/
def link? (g : NumberedGraph σ) (i j : Nat) : Option (NumberedGraph σ) :=
  if S.hasEdge g.store i j then some g
  else (S.addEdge? g.store i j).map (fun store => { g with store := store })

/-- The source becomes a node even where the relationship is no edge. -/
def add? (g : NumberedGraph σ) (r : Relationship) : Option (NumberedGraph σ) :=
  let source := g.ensureNode S r.source
  if r.isEdge then
    let target := source.2.ensureNode S r.target
    target.2.link? S source.1 target.1
  else some source.2

def ofRelationships? (rs : List Relationship) : Option (NumberedGraph σ) :=
  rs.foldlM (add? S) ⟨S.empty,[]⟩

def entityCount (g : NumberedGraph σ) : Nat :=
  S.nodeCount g.store

def edgeCount (g : NumberedGraph σ) : Nat :=
  S.edgeCount g.store

/-- Where the edges of a node lead, in the order they were added. -/
def neighbours (g : NumberedGraph σ) (i : Nat) : List Nat :=
  (S.successors g.store i).reverse

/-- The entities that an entity refers to, in the order their edges were added. -/
def dependencies? (g : NumberedGraph σ) (entity : String) : Option (List String) :=
  match g.number? entity with
  | none => some []
  | some i => (g.neighbours S i).mapM (S.name? g.store)

end NumberedGraph

end EntityLink
