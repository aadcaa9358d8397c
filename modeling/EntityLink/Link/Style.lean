import EntityLink.Link.Many

namespace EntityLink
open Java

/-- How a field is read and changed: as one entity, as many, or as plain values without an
inverse side. -/
inductive AccessorStyle
  | single
  | many
  | plain
  deriving DecidableEq, Repr

/-- The style of a kind of relationship, none for kinds that have no members. -/
def AccessorStyle.of? : RelationKind → Option AccessorStyle
  | .oneToOne | .manyToOne => some single
  | .oneToMany | .manyToMany => some many
  | .embedded | .composition => some plain
  | .none | .inheritance => none

namespace Link

def plainAccessors (l : Link) : List Method :=
  if l.kind = .composition then l.collectionAccessors else [l.singleGetter,l.plainSetter]

def accessors (l : Link) : AccessorStyle → List Method
  | .single => l.singleAccessors
  | .many => l.manyAccessors
  | .plain => l.plainAccessors

def counter (l : Link) : Method where
  kind := .counter
  visibility := .publicAccess
  name := l.names.counter
  returnType := some "int"
  body := [.ret (some (.call l.live "size" []))]

/-- Whether the collection holds an element. -/
def elementPredicate (l : Link) : Method where
  kind := .predicate
  visibility := .publicAccess
  name := l.names.predicate
  returnType := some "boolean"
  params := [⟨l.targetType,l.elementParam⟩]
  body := [.ret (some (.and [.notNull (.var l.elementParam),l.holds (.var l.elementParam)]))]

/-- Whether the field holds anything. -/
def presencePredicate (l : Link) : Method where
  kind := .predicate
  visibility := .publicAccess
  name := l.names.predicate
  returnType := some "boolean"
  body := [.ret (some (.notNull (.thisField l.field)))]

/-- The convenience methods of a field. -/
def helpers (l : Link) : List Method :=
  if l.kind.isCollectionValued then [l.counter,l.elementPredicate] else [l.presencePredicate]

end Link

end EntityLink
