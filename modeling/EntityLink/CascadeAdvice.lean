import EntityLink.Relationship

namespace EntityLink

/-- The facts that a default cascade depends on. -/
structure CascadeAdvice.Facts where
  kind : RelationKind
  ownerSide : Bool
  bidirectional : Bool
  circular : Bool
  deriving DecidableEq, Repr

/-- The settled cascade and fetch policy of one relationship. -/
structure CascadeAdvice where
  cascade : CascadeSet
  fetch : Fetch
  /-- The cascade set was written down. -/
  explicit : Bool
  deriving DecidableEq, Repr

namespace CascadeAdvice

/-- The default cascade set. It never passes a removal round a cycle or out of an inverse
side, where a delete could walk back through shared references. -/
def suggest (f : Facts) : CascadeSet :=
  match f.kind with
  | .none | .inheritance => {}
  | kind =>
    if f.circular then .ofList [.persist,.merge]
    else match kind with
    | .oneToOne => if f.ownerSide then .ofList [.all] else .ofList [.persist,.merge]
    | .oneToMany => if f.bidirectional then .ofList [.persist,.merge,.refresh] else .ofList [.all]
    | .manyToOne => .ofList [.persist,.merge,.refresh]
    | .manyToMany => .ofList [.persist,.merge]
    | _ => .ofList [.all]

/-- The cascade set that is written down; none when no value of it is known. -/
def written? (values : List String) : Option CascadeSet :=
  match values.filterMap Cascade.parse? with
  | [] => none
  | cs => some (.ofList cs)

/-- What is written down wins; the default stands in for a missing cascade set. -/
def advise (cascade : List String) (fetch : Option String) (f : Facts) : CascadeAdvice :=
  match written? cascade with
  | some s => ⟨s,.parse fetch,true⟩
  | none => ⟨suggest f,.parse fetch,false⟩

end CascadeAdvice

end EntityLink
