import EntityLink.CascadeAdvice
import EntityLink.Catalog
import EntityLink.TypeExpr

namespace EntityLink
open Text

/-- A field as analysis sees it: its column and, when it is a relationship, the kind and the
target. The target is empty when there is none to be found. -/
structure AnalyzedField where
  name : String
  type : String
  nullable : Bool
  column : String
  kind : RelationKind
  target : String
  deriving DecidableEq, Repr

/-- The fields of one entity and its relationships, the inheritance link before the others. -/
structure Classification where
  fields : List AnalyzedField
  relationships : List Relationship
  deriving DecidableEq, Repr

namespace Catalog

/-- The mapping annotations in order of precedence. -/
def mappings : List (String × RelationKind) := [
  ("OneToOne",.oneToOne), ("OneToMany",.oneToMany), ("ManyToOne",.manyToOne),
  ("ManyToMany",.manyToMany), ("Embedded",.embedded), ("EmbeddedId",.embedded),
  ("ElementCollection",.composition)]

/-- Fields that are not stored are no relationships. -/
def isExcluded (f : Field) : Bool :=
  f.isStatic || (f.annotated? "Transient").isSome

/-- The first mapping annotation of a field, in order of precedence. -/
def mapping? (f : Field) : Option (RelationKind × Attributes) :=
  mappings.findSome? (fun m => (f.annotated? m.1).map (fun a => (m.2,a.attributes)))

/-- The target that a mapped field names: by attribute, else by its type. A name that is no
entity leaves an association without a target, and any other field with the name as written. -/
def mappedTarget (c : Catalog) (kind : RelationKind) (type : TypeExpr) (a : Attributes) : String :=
  let raw := (a.classLiteral? "targetEntity").getD
    (if kind.isCollectionValued then type.firstArgument else type.raw)
  match c.resolve? raw with
  | some name => name
  | none => if kind.isAssociation then "" else trim raw

/-- The `name` of every column annotation under a key. -/
def columnNames (a : Attributes) (key : String) : List String :=
  (a.nested key).filterMap (fun n => n.attributes.string? "name")

/-- Join metadata: a join table's names first, then the join columns written on the field. -/
def withJoins (f : Field) (r : Relationship) : Relationship :=
  let table := (f.annotated? "JoinTable").map AnnotationText.attributes
  let single := (f.annotated? "JoinColumn").map AnnotationText.attributes
  let several := (f.annotated? "JoinColumns").map AnnotationText.attributes
  { r with
    joinTable := table.bind (·.string? "name")
    joinColumns :=
      (table.map (columnNames · "joinColumns")).getD [] ++
        (single.bind (·.string? "name")).toList ++
        (several.map (columnNames · "value")).getD []
    inverseJoinColumns := (table.map (columnNames · "inverseJoinColumns")).getD [] }

/-- The relationship of a field with a given mapping. Whether it is bidirectional is not known
yet; until then a written `mappedBy` stands for it. -/
def relationshipOf (e : Entity) (f : Field) (kind : RelationKind) (target : String)
    (a : Attributes) : Relationship :=
  let mappedBy := if kind.canBeInverse then a.string? "mappedBy" else none
  let r := Relationship.new e.name target kind f.name f.type mappedBy
  let advice := CascadeAdvice.advise (a.list "cascade") (a.raw? "fetch")
    ⟨kind,r.ownerSide,mappedBy.isSome,false⟩
  let mayOrphan := kind == .oneToOne || kind == .oneToMany
  let r := withJoins f { r with
    cascade := advice.cascade
    cascadeExplicit := advice.explicit
    fetch := advice.fetch
    orphanRemoval := mayOrphan && (a.boolean? "orphanRemoval").getD false }
  { r with joinAttributes := if kind == .manyToMany then f.joinAttributes else [] }

/-- Without a mapping annotation a field is a relationship when its type, or the element type
of a collection, is an entity. -/
def implicitRelationship? (c : Catalog) (e : Entity) (f : Field) : Option Relationship :=
  let type := TypeExpr.parse f.type
  let (kind,candidate) :=
    if type.collectionKind?.isSome then (RelationKind.oneToMany,type.firstArgument)
    else (.manyToOne,type.raw)
  (c.resolve? candidate).map (fun target => relationshipOf e f kind target ⟨[]⟩)

def relationship? (c : Catalog) (e : Entity) (f : Field) : Option Relationship :=
  if isExcluded f then none
  else match mapping? f with
  | some (kind,a) =>
    some (relationshipOf e f kind (c.mappedTarget kind (TypeExpr.parse f.type) a) a)
  | none => c.implicitRelationship? e f

/-- The column of a field that names none: capitals become small letters, behind an underscore
unless they come first. -/
def columnOf (name : String) : String :=
  match name.toList with
  | [] => ""
  | c :: cs =>
    String.ofList (c.toLower :: cs.flatMap (fun x => if x.isUpper then ['_',x.toLower] else [x]))

def classifyField (c : Catalog) (e : Entity) (f : Field) : AnalyzedField × Option Relationship :=
  let r := c.relationship? e f
  ({ name := f.name
     type := f.type
     nullable := f.nullable
     column := f.column.getD (columnOf f.name)
     kind := (r.map Relationship.kind).getD .none
     target := (r.map Relationship.target).getD "" },r)

/-- The qualified name of an entity's superclass, if that is an entity. -/
def superclass? (c : Catalog) (e : Entity) : Option String :=
  e.superclass.bind c.resolve?

def parent? (c : Catalog) (e : Entity) : Option Entity :=
  (c.superclass? e).bind c.find?

theorem parent_mem {c : Catalog} {e p : Entity} (h : c.parent? e = some p) : p ∈ c.entities := by
  obtain ⟨n,-,hf⟩ := Option.bind_eq_some_iff.mp h
  exact List.mem_of_find?_eq_some hf

/-- An entity and its ancestors, nearest first, up to the first name that comes again. -/
def lineageFrom (c : Catalog) (visited : List String) (e : Entity) : List Entity :=
  e :: match _h : c.parent? e with
  | none => []
  | some p =>
    if p.name ∈ e.name :: visited then [] else lineageFrom c (e.name :: visited) p
termination_by (c.entities.filter (fun d => decide (d.name ∉ e.name :: visited))).length
decreasing_by
  rename_i hp
  have hsub : (c.entities.filter (fun d => decide (d.name ∉ p.name :: e.name :: visited))) =
      (c.entities.filter (fun d => decide (d.name ∉ e.name :: visited))).filter
        (fun d => decide (d.name ≠ p.name)) := by
    rw [List.filter_filter]
    apply List.filter_congr
    intro d _
    rw [Bool.eq_iff_iff]
    simp [not_or]
  rw [hsub]
  apply List.length_filter_lt_length_iff_exists.mpr
  exact ⟨p,List.mem_filter.mpr ⟨parent_mem _h,by simpa using hp⟩,by simp⟩

def lineage (c : Catalog) (e : Entity) : List Entity :=
  c.lineageFrom [] e

/-- The strategy of the nearest entity that declares inheritance; single-table when none does
or the declaration tells no strategy. -/
def inheritanceStrategy (c : Catalog) (e : Entity) : InheritanceStrategy :=
  (((c.lineage e).findSome? (·.annotated? "Inheritance")).bind
    (fun a => (a.attributes.raw? "strategy").bind InheritanceStrategy.parse?)).getD .singleTable

/-- The inheritance link of an entity that declares inheritance or extends an entity. -/
def inheritanceLink? (c : Catalog) (e : Entity) : Option Relationship :=
  let declared := (e.annotated? "Inheritance").isSome
  let superclass := c.superclass? e
  if declared || superclass.isSome then
    some { Relationship.new e.name (superclass.getD "") .inheritance Relationship.superclassField
        (e.superclass.getD "") none with
      inheritance := some {
        strategy := c.inheritanceStrategy e
        declaredHere := declared
        discriminatorColumn :=
          (e.annotated? "DiscriminatorColumn").bind (fun a => a.attributes.string? "name")
        discriminatorValue :=
          (e.annotated? "DiscriminatorValue").bind (fun a => a.attributes.string? "value") } }
  else none

def classify (c : Catalog) (e : Entity) : Classification where
  fields := e.fields.map (fun f => (c.classifyField e f).1)
  relationships :=
    (c.inheritanceLink? e).toList ++ e.fields.filterMap (fun f => (c.classifyField e f).2)

end Catalog

end EntityLink
