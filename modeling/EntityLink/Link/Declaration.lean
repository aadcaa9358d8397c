import EntityLink.Link
import EntityLink.Relationship.Mapping

namespace EntityLink
open Text Java

namespace Link

/-- What a reader of the field should know: its inverse, its part in a cycle and the cascades
that were not written down but advised. -/
def fieldDoc (l : Link) : Option String :=
  let parts :=
    (l.inverse.map (fun i => "Bidirectional with " ++ l.targetType ++ "." ++ i.field)).toList ++
    (if l.relationship.circular then ["part of a reference cycle"] else []) ++
    (if !l.relationship.cascadeExplicit && !l.policy.operations.isEmpty then
      ["advised cascade: " ++ join ", " l.policy.operations] else [])
  if parts.isEmpty then none else some (join "; " parts ++ ".")

/-- The declaration of the field itself. -/
def fieldDecl (l : Link) : FieldDecl where
  type := if l.kind.isCollectionValued then l.collectionType else l.targetType
  name := l.field
  doc := l.fieldDoc
  annotations := l.relationship.mappingAnnotations

/-- What the members of the field import. -/
def imports (l : Link) (ns : PersistenceNamespace) : List String :=
  (if l.kind.isCollectionValued then
    [Imports.javaUtil l.collectionKind.interfaceName,
      Imports.javaUtil l.collectionKind.implementation,Imports.javaUtil "List",
      Imports.javaUtil "ArrayList"] else []) ++
    l.relationship.mappingImports ns

end Link

end EntityLink
