import EntityLink.Graph.Loops
import EntityLink.Text.Lines

namespace EntityLink
open Text

/-- A closed chain of relationships, each leading to the source of the next and the last to the
source of the first. -/
structure Cycle where
  members : List Relationship
  deriving DecidableEq, Repr

namespace Cycle

/-- The entities along the chain. -/
def entities (c : Cycle) : List String :=
  c.members.map Relationship.source

def contains (c : Cycle) (r : Relationship) : Bool :=
  c.members.any (fun m => m.key == r.key)

/-- Written `Department -> Employee -> Department`. -/
def describe (c : Cycle) : String :=
  let names := c.members.map Relationship.sourceSimple
  join " -> " (names ++ names.head?.toList)

/-- The position of the first edge with given endpoints. -/
def edgeAt? (rs : List Relationship) (ends : String × String) : Option Nat :=
  rs.findIdx? (fun r => r.isEdge && r.endpoints == ends)

/-- The steps of a closed walk, the last one back to where it began. -/
def stepsOf : List String → List (String × String)
  | [] => []
  | n :: ns => (n :: ns).zip (ns ++ [n])

/-- The positions of the edges that a closed walk takes. -/
def positions (rs : List Relationship) (walk : List String) : List Nat :=
  (stepsOf walk).filterMap (edgeAt? rs)

/-- The first of all lists with the same elements. -/
def distinctSets : List (List Nat) → List (List Nat) :=
  go []
where
  /-- Here `seen` holds the sorted lists found so far. -/
  go (seen : List (List Nat)) : List (List Nat) → List (List Nat)
    | [] => []
    | l :: ls =>
      let set := l.mergeSort
      if seen.contains set then go seen ls else l :: go (set :: seen) ls

/-- Where an entity refers to itself. -/
def selfReferences (rs : List Relationship) : List (List Nat) :=
  (rs.zipIdx.filter (fun p =>
    p.1.kind != .inheritance && p.1.hasTarget && p.1.isSelfReference)).map (fun p => [p.2])

/-- Every cycle among relationships once: references of an entity to itself, then the loops of
the graph in the order a walk from each entity in turn closes them. Each step of a loop is
represented by the first relationship between its two entities. -/
def all (rs : List Relationship) : List Cycle :=
  let walks := (Graph.ofRelationships rs).loops.map (positions rs)
  (selfReferences rs ++ distinctSets walks).map (fun is => ⟨is.filterMap (rs[·]?)⟩)

end Cycle

/-- Marks every relationship that is a member of some cycle. -/
def markCircular (rs : List Relationship) (cs : List Cycle) : List Relationship :=
  rs.map (fun r => if cs.any (·.contains r) then r.markedCircular else r)

end EntityLink
