import EntityLink.Distinct
import EntityLink.Relationship

namespace EntityLink

/-- Whether a relationship is an edge between two entities. Inheritance links, links without a
target and references of an entity to itself are none. -/
def Relationship.isEdge (r : Relationship) : Bool :=
  r.kind != .inheritance && r.hasTarget && !r.isSelfReference

def Relationship.endpoints (r : Relationship) : String × String :=
  (r.source,r.target)

/-- Which entity refers to which: every source and every target of an edge once, and every pair
of endpoints once, in the order of the relationships they come from. -/
structure Graph where
  nodes : List String
  edges : List (String × String)
  deriving DecidableEq, Repr

namespace Graph

def ofRelationships (rs : List Relationship) : Graph where
  nodes := distinct (rs.flatMap (fun r => if r.isEdge then [r.source,r.target] else [r.source]))
  edges := distinct ((rs.filter Relationship.isEdge).map Relationship.endpoints)

/-- The entities that an entity refers to, in the order their edges came. -/
def neighbours (g : Graph) (n : String) : List String :=
  (g.edges.filter (·.1 == n)).map (·.2)

theorem mem_neighbours {g : Graph} {n m : String} : m ∈ g.neighbours n ↔ (n,m) ∈ g.edges := by
  simp only [neighbours,List.mem_map,List.mem_filter,beq_iff_eq]
  exact ⟨fun ⟨e,⟨he,h₁⟩,h₂⟩ => by subst h₁; subst h₂; exact he,fun h => ⟨(n,m),⟨h,rfl⟩,rfl⟩⟩

end Graph

end EntityLink
