import EntityLink.Imports
import EntityLink.Java.Printer
import EntityLink.Relationship

namespace EntityLink
open Text Java

/-- Several values stand in braces, a single one by itself. -/
def bracedList (values : List String) : String :=
  match values with
  | [v] => v
  | vs => "\x7b" ++ join ", " vs ++ "\x7d"

def fetchValue (f : Fetch) : String :=
  "FetchType." ++ f.label

def joinColumn (name : String) : AnnotationUse :=
  ⟨"JoinColumn",[("name",quote name)]⟩

def joinColumnList (names : List String) : String :=
  bracedList (names.map (fun n => (joinColumn n).render))

namespace Relationship

/-- The join table of an owning side, or else its join columns. -/
def joinAnnotations (r : Relationship) : List AnnotationUse :=
  match r.joinTable with
  | some table => [⟨"JoinTable",
      [("name",quote table)] ++
      (if r.joinColumns.isEmpty then [] else [("joinColumns",joinColumnList r.joinColumns)]) ++
      (if r.inverseJoinColumns.isEmpty then []
        else [("inverseJoinColumns",joinColumnList r.inverseJoinColumns)])⟩]
  | none => r.joinColumns.map joinColumn

def joinImports (r : Relationship) (ns : PersistenceNamespace) : List String :=
  match r.joinTable with
  | some _ => Imports.persistence ns "JoinTable" ::
      (if r.joinColumns.isEmpty && r.inverseJoinColumns.isEmpty then []
        else [Imports.persistence ns "JoinColumn"])
  | none => if r.joinColumns.isEmpty then [] else [Imports.persistence ns "JoinColumn"]

/-- The arguments of an association's annotation: owner, cascades, fetch and orphan removal. -/
def associationArguments (r : Relationship) : List (String × String) :=
  (r.mappedBy.map (fun m => ("mappedBy",quote m))).toList ++
    (if r.cascade.toList.isEmpty then []
      else [("cascade",bracedList (r.cascade.toList.map (fun c => "CascadeType." ++ c.label)))]) ++
    [("fetch",fetchValue r.fetch)] ++
    (if r.orphanRemoval then [("orphanRemoval","true")] else [])

/-- The mapping annotations of a field. Only an owning side has join metadata. -/
def mappingAnnotations (r : Relationship) : List AnnotationUse :=
  match r.kind with
  | .embedded => [⟨"Embedded",[]⟩]
  | .composition => [⟨"ElementCollection",[("fetch",fetchValue r.fetch)]⟩]
  | kind =>
    match kind.mappingName? with
    | none => []
    | some name =>
      ⟨name,r.associationArguments⟩ :: (if r.ownerSide then r.joinAnnotations else [])

def mappingImports (r : Relationship) (ns : PersistenceNamespace) : List String :=
  match r.kind with
  | .embedded => [Imports.persistence ns "Embedded"]
  | .composition =>
    [Imports.persistence ns "ElementCollection",Imports.persistence ns "FetchType"]
  | kind =>
    match kind.mappingName? with
    | none => []
    | some name =>
      [Imports.persistence ns name,Imports.persistence ns "FetchType"] ++
        (if r.cascade.toList.isEmpty then [] else [Imports.persistence ns "CascadeType"]) ++
        (if r.ownerSide then r.joinImports ns else [])

/-- The class annotations that an inheritance link stands for. -/
def inheritanceAnnotations (r : Relationship) : List AnnotationUse :=
  match r.inheritance with
  | none => []
  | some info =>
    (if info.declaredHere then
      [⟨"Inheritance",[("strategy","InheritanceType." ++ info.strategy.label)]⟩] else []) ++
    (info.discriminatorColumn.map
      (fun c => AnnotationUse.mk "DiscriminatorColumn" [("name",quote c)])).toList ++
    (info.discriminatorValue.map
      (fun v => AnnotationUse.mk "DiscriminatorValue" [("value",quote v)])).toList

def inheritanceImports (r : Relationship) (ns : PersistenceNamespace) : List String :=
  match r.inheritance with
  | none => []
  | some info =>
    (if info.declaredHere then
      [Imports.persistence ns "Inheritance",Imports.persistence ns "InheritanceType"] else []) ++
    (if info.discriminatorColumn.isSome then
      [Imports.persistence ns "DiscriminatorColumn"] else []) ++
    (if info.discriminatorValue.isSome then
      [Imports.persistence ns "DiscriminatorValue"] else [])

end Relationship

end EntityLink
