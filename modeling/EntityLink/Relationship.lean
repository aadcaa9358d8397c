import EntityLink.Text.Blank
import EntityLink.Text.Dotted

namespace EntityLink
open Text

/-- What a field, or a superclass link, means to its entity. -/
inductive RelationKind
  | none
  | oneToOne
  | oneToMany
  | manyToOne
  | manyToMany
  | embedded
  | inheritance
  | composition
  deriving DecidableEq, Repr

namespace RelationKind

def all : List RelationKind :=
  [none, oneToOne, oneToMany, manyToOne, manyToMany, embedded, inheritance, composition]

/-- Links between entities; only these have inverse sides. -/
def isAssociation : RelationKind → Bool
  | oneToOne | oneToMany | manyToOne | manyToMany => true
  | _ => false

/-- Associations whose field holds many targets. -/
def isCollection : RelationKind → Bool
  | oneToMany | manyToMany => true
  | _ => false

/-- Fields that hold a collection, of entities or of values. -/
def isCollectionValued (k : RelationKind) : Bool :=
  k.isCollection || k == composition

/-- Kinds that may name the field of their owner. -/
def canBeInverse : RelationKind → Bool
  | oneToOne | oneToMany | manyToMany => true
  | _ => false

/-- The kind expected on the opposite side. -/
def complements : RelationKind → RelationKind → Bool
  | oneToOne, oneToOne => true
  | oneToMany, manyToOne => true
  | manyToOne, oneToMany => true
  | manyToMany, manyToMany => true
  | _, _ => false

/-- The mapping annotation of a field of this kind. -/
def mappingName? : RelationKind → Option String
  | oneToOne => some "OneToOne"
  | oneToMany => some "OneToMany"
  | manyToOne => some "ManyToOne"
  | manyToMany => some "ManyToMany"
  | embedded => some "Embedded"
  | composition => some "ElementCollection"
  | _ => Option.none

def label : RelationKind → String
  | none => "NONE"
  | oneToOne => "ONE_TO_ONE"
  | oneToMany => "ONE_TO_MANY"
  | manyToOne => "MANY_TO_ONE"
  | manyToMany => "MANY_TO_MANY"
  | embedded => "EMBEDDED"
  | inheritance => "INHERITANCE"
  | composition => "COMPOSITION"

/-- Naming the owner's field marks the inverse side. A many-to-one owns its foreign key
whatever it names. -/
def ownsLink (k : RelationKind) (mappedBy : Option String) : Bool :=
  if k.canBeInverse then mappedBy.isNone else true

end RelationKind

/-- An operation on an entity that may be passed on to the entities it refers to; `all` stands
for every one. -/
inductive Cascade
  | all
  | persist
  | merge
  | remove
  | refresh
  | detach
  deriving DecidableEq, Repr

namespace Cascade

def every : List Cascade :=
  [all, persist, merge, remove, refresh, detach]

def label : Cascade → String
  | all => "ALL"
  | persist => "PERSIST"
  | merge => "MERGE"
  | remove => "REMOVE"
  | refresh => "REFRESH"
  | detach => "DETACH"

/-- Reads `ALL`, `CascadeType.ALL` and the like. -/
def parse? (text : String) : Option Cascade :=
  every.find? (fun c => c.label == simpleName (trim text))

end Cascade

/-- A set of cascades. -/
structure CascadeSet where
  all : Bool := false
  persist : Bool := false
  merge : Bool := false
  remove : Bool := false
  refresh : Bool := false
  detach : Bool := false
  deriving DecidableEq, Repr

namespace CascadeSet

def contains (s : CascadeSet) : Cascade → Bool
  | .all => s.all
  | .persist => s.persist
  | .merge => s.merge
  | .remove => s.remove
  | .refresh => s.refresh
  | .detach => s.detach

def insert (s : CascadeSet) : Cascade → CascadeSet
  | .all => { s with all := true }
  | .persist => { s with persist := true }
  | .merge => { s with merge := true }
  | .remove => { s with remove := true }
  | .refresh => { s with refresh := true }
  | .detach => { s with detach := true }

def ofList (cs : List Cascade) : CascadeSet :=
  cs.foldl insert {}

/-- The members, in the order the operations are declared. -/
def toList (s : CascadeSet) : List Cascade :=
  Cascade.every.filter s.contains

/-- Whether the set passes an operation on, by its own name or as one of all. -/
def covers (s : CascadeSet) (c : Cascade) : Bool :=
  s.contains c || s.all

end CascadeSet

inductive Fetch
  | lazy
  | eager
  deriving DecidableEq, Repr

namespace Fetch

def label : Fetch → String
  | lazy => "LAZY"
  | eager => "EAGER"

/-- Eager only where asked for. -/
def parse (value : Option String) : Fetch :=
  match value with
  | some text => if simpleName (trim text) = "EAGER" then eager else lazy
  | none => lazy

end Fetch

/-- How the tables of an inheritance tree are laid out. -/
inductive InheritanceStrategy
  | singleTable
  | joined
  | tablePerClass
  deriving DecidableEq, Repr

namespace InheritanceStrategy

def label : InheritanceStrategy → String
  | singleTable => "SINGLE_TABLE"
  | joined => "JOINED"
  | tablePerClass => "TABLE_PER_CLASS"

def parse? (text : String) : Option InheritanceStrategy :=
  [singleTable, joined, tablePerClass].find? (fun s => s.label == simpleName (trim text))

end InheritanceStrategy

/-- What an inheritance link adds: `declaredHere` tells a strategy of the entity's own from an
inherited one. -/
structure InheritanceInfo where
  strategy : InheritanceStrategy := .singleTable
  declaredHere : Bool := false
  discriminatorColumn : Option String := none
  discriminatorValue : Option String := none
  deriving DecidableEq, Repr

/-- One classified link of an entity. Later stages add to it but leave source, target, kind and
field alone, which are its key. `field` is the word `superclass` on an inheritance link. -/
structure Relationship where
  source : String
  target : String
  kind : RelationKind
  field : String
  fieldType : String
  mappedBy : Option String
  ownerSide : Bool
  joinTable : Option String := none
  joinColumns : List String := []
  inverseJoinColumns : List String := []
  cascade : CascadeSet := {}
  /-- The cascade set was written down and is not to be advised again. -/
  cascadeExplicit : Bool := false
  fetch : Fetch := .lazy
  orphanRemoval : Bool := false
  bidirectional : Bool := false
  inverseField : Option String := none
  circular : Bool := false
  joinAttributes : List String := []
  inheritance : Option InheritanceInfo := none
  deriving DecidableEq, Repr

/-- What identifies a relationship from stage to stage. -/
structure RelationshipKey where
  source : String
  target : String
  kind : RelationKind
  field : String
  deriving DecidableEq, Repr

/-- Written `Source.field -> Target (KIND)`, with simple names. -/
def RelationshipKey.render (k : RelationshipKey) : String :=
  simpleName k.source ++ "." ++ k.field ++ " -> " ++ simpleName k.target ++ " (" ++
    k.kind.label ++ ")"

namespace Relationship

/-- The field name of inheritance links. -/
def superclassField : String := "superclass"

def new (source target : String) (kind : RelationKind) (field fieldType : String)
    (mappedBy : Option String) : Relationship :=
  { source, target, kind, field, fieldType, mappedBy, ownerSide := kind.ownsLink mappedBy }

def pairedWith (r : Relationship) (inverseField : String) : Relationship :=
  { r with bidirectional := true, inverseField := some inverseField }

def markedCircular (r : Relationship) : Relationship :=
  { r with circular := true }

/-- Whether the target was resolved to a name at all. -/
def hasTarget (r : Relationship) : Bool :=
  !allBlank r.target

def isSelfReference (r : Relationship) : Bool :=
  r.source == r.target

def sourceSimple (r : Relationship) : String :=
  simpleName r.source

def targetSimple (r : Relationship) : String :=
  simpleName r.target

def key (r : Relationship) : RelationshipKey :=
  ⟨r.source,r.target,r.kind,r.field⟩

end Relationship

end EntityLink
