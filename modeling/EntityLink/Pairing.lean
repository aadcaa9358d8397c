import EntityLink.Noun
import EntityLink.Relationship

namespace EntityLink

/-- A relationship with several possible inverses. The one that was taken comes first. -/
structure Ambiguity where
  source : String
  field : String
  candidates : List String
  deriving DecidableEq, Repr

/-- Which positions of a list of relationships are paired with which, and what was ambiguous on
the way there. -/
structure Pairing where
  pairs : List (Nat × Nat) := []
  ambiguities : List Ambiguity := []
  deriving DecidableEq, Repr

namespace Pairing

/-- The position that a position is paired with. -/
def partner? (p : Pairing) (i : Nat) : Option Nat :=
  p.pairs.findSome? (fun q => if q.1 = i then some q.2 else if q.2 = i then some q.1 else none)

def isPairable (r : Relationship) : Bool :=
  r.kind.isAssociation && r.hasTarget

/-- Whether `o` leads from the target of `r` back to its source. -/
def isOpposite (r o : Relationship) : Bool :=
  o.source == r.target && o.target == r.source

/-- One side names the other's field as its owner. -/
def linkedByOwner (r o : Relationship) : Bool :=
  o.mappedBy == some r.field || r.mappedBy == some o.field

/-- Neither side names an owner, the kinds complement each other and `o` is called after the
source of `r`, in the singular or the plural. -/
def linkedByName (r o : Relationship) : Bool :=
  let expected := Text.decapitalize r.sourceSimple
  r.mappedBy.isNone && o.mappedBy.isNone && r.kind.complements o.kind &&
    (o.field == expected || o.field == Noun.pluralize expected)

/-- The relationships that are still free to be the inverse of `r` at position `i`. -/
def candidates (link : Relationship → Relationship → Bool) (rs : List Relationship) (p : Pairing)
    (r : Relationship) (i : Nat) : List (Relationship × Nat) :=
  rs.zipIdx.filter (fun o => o.2 != i && (p.partner? o.2).isNone && isPairable o.1 &&
    isOpposite r o.1 && link r o.1)

/-- Pairs a free relationship with its first candidate. -/
def step (link : Relationship → Relationship → Bool) (rs : List Relationship) (p : Pairing)
    (x : Relationship × Nat) : Pairing :=
  if (p.partner? x.2).isSome || !isPairable x.1 then p
  else match candidates link rs p x.1 x.2 with
  | [] => p
  | [o] => { p with pairs := p.pairs ++ [(x.2,o.2)] }
  | o :: o' :: os =>
    { pairs := p.pairs ++ [(x.2,o.2)]
      ambiguities := p.ambiguities ++
        [⟨x.1.source,x.1.field,(o :: o' :: os).map (fun c => c.1.field)⟩] }

def pass (link : Relationship → Relationship → Bool) (rs : List Relationship) (p : Pairing) :
    Pairing :=
  rs.zipIdx.foldl (step link rs) p

/-- Owners that are named pair first, then, if wanted, names that match. -/
def ofRelationships (inferByName : Bool) (rs : List Relationship) : Pairing :=
  let owned := pass linkedByOwner rs {}
  if inferByName then pass linkedByName rs owned else owned

/-- Notes on every paired relationship the field of its inverse. -/
def apply (p : Pairing) (rs : List Relationship) : List Relationship :=
  rs.zipIdx.map (fun x =>
    match (p.partner? x.2).bind (rs[·]?) with
    | some o => x.1.pairedWith o.field
    | none => x.1)

end Pairing

end EntityLink
