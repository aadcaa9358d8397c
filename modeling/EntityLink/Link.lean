import EntityLink.MemberNames
import EntityLink.Relationship
import EntityLink.Settings
import EntityLink.TypeExpr

namespace EntityLink

/-- What the cascades of a relationship ask of its generated code. -/
structure LinkPolicy where
  orphanRemoval : Bool := false
  persist : Bool := false
  merge : Bool := false
  remove : Bool := false
  refresh : Bool := false
  detach : Bool := false
  circularGuard : Bool := false
  deriving DecidableEq, Repr

namespace LinkPolicy

def ofRelationship (s : Settings) (r : Relationship) : LinkPolicy where
  orphanRemoval := r.orphanRemoval && (r.kind == .oneToOne || r.kind == .oneToMany)
  persist := r.cascade.covers .persist
  merge := r.cascade.covers .merge
  remove := r.cascade.covers .remove
  refresh := r.cascade.covers .refresh
  detach := r.cascade.covers .detach
  circularGuard := r.circular && s.circularGuard

/-- The operations passed on, by name. -/
def operations (p : LinkPolicy) : List String :=
  ([(p.persist,"persist"), (p.merge,"merge"), (p.remove,"remove"), (p.refresh,"refresh"),
    (p.detach,"detach")].filter (·.1)).map (·.2)

end LinkPolicy

/-- The inverse side as the code of the other side needs to know it. -/
structure Inverse where
  field : String
  collection : Bool
  names : MemberNames
  deriving DecidableEq, Repr

def Inverse.ofRelationship (o : Relationship) : Inverse :=
  ⟨o.field,o.kind.isCollection,.ofField o.field o.kind.isCollection⟩

/-- A relationship with all that its generated members depend on. -/
structure Link where
  relationship : Relationship
  inverse : Option Inverse
  policy : LinkPolicy
  names : MemberNames
  deriving DecidableEq, Repr

namespace Link

/-- An inverse counts only for a relationship that has been paired. -/
def new (s : Settings) (r : Relationship) (inverse : Option Relationship) : Link where
  relationship := r
  inverse := if r.bidirectional then inverse.map Inverse.ofRelationship else none
  policy := .ofRelationship s r
  names := .ofField r.field r.kind.isCollectionValued

def field (l : Link) : String :=
  l.relationship.field

def kind (l : Link) : RelationKind :=
  l.relationship.kind

/-- The type of one value or element. -/
def targetType (l : Link) : String :=
  l.relationship.targetSimple

/-- The type that declares the field. -/
def sourceType (l : Link) : String :=
  l.relationship.sourceSimple

/-- A collection that is declared by no known collection type is taken for a list. -/
def collectionKind (l : Link) : CollectionKind :=
  (TypeExpr.parse l.relationship.fieldType).collectionKind?.getD .list

def collectionType (l : Link) : String :=
  l.collectionKind.interfaceName ++ "<" ++ l.targetType ++ ">"

/-- The parameter that holds a whole value of the field. -/
def valueParam (l : Link) : String :=
  safeIdentifier l.field

/-- The parameter that holds one element. -/
def elementParam (l : Link) : String :=
  safeIdentifier (Noun.singularize l.field)

/-- The local variable for what a field held before. -/
def previousLocal (name : String) : String :=
  "previous" ++ Text.capitalize name

end Link

end EntityLink
