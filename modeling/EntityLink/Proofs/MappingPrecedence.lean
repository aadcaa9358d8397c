import EntityLink.Classification
import Mathlib.Data.List.Nodup

namespace EntityLink

/-- What the mapping annotation of a field decides about its relationship. Joins, extra columns
and names come from elsewhere. -/
structure Mapped where
  kind : RelationKind
  target : String
  mappedBy : Option String
  cascade : CascadeSet
  cascadeExplicit : Bool
  fetch : Fetch
  orphanRemoval : Bool
  deriving DecidableEq, Repr

def Relationship.mapped (r : Relationship) : Mapped :=
  ⟨r.kind,r.target,r.mappedBy,r.cascade,r.cascadeExplicit,r.fetch,r.orphanRemoval⟩

/-- What the attributes of an annotation alone make of a field of some type. A cascade that is not
written down is that advised for the kind and the side of the link. -/
def Mapped.of (c : Catalog) (type : String) (kind : RelationKind) (a : Attributes) : Mapped :=
  let mappedBy := if kind.canBeInverse then a.string? "mappedBy" else none
  let written := CascadeAdvice.written? (a.list "cascade")
  { kind := kind
    target := c.mappedTarget kind (TypeExpr.parse type) a
    mappedBy := mappedBy
    cascade := written.getD
      (CascadeAdvice.suggest ⟨kind,kind.ownsLink mappedBy,mappedBy.isSome,false⟩)
    cascadeExplicit := written.isSome
    fetch := .parse (a.raw? "fetch")
    orphanRemoval :=
      decide (kind = .oneToOne ∨ kind = .oneToMany) && a.boolean? "orphanRemoval" == some true }

/-- What is written down wins, in one equation. -/
theorem CascadeAdvice.advise_eq (cascade : List String) (fetch : Option String) (f : Facts) :
    advise cascade fetch f =
      ⟨(written? cascade).getD (suggest f),.parse fetch,(written? cascade).isSome⟩ := by
  rw [advise]
  cases written? cascade with
  | none => rfl
  | some s => rfl

namespace Field

variable {f : Field} {a : AnnotationText} {as : List AnnotationText} {name : String}

theorem simple_of_annotated? (h : f.annotated? name = some a) : a.simple = name := by
  simpa [AnnotationText.named] using List.find?_some h

/-- Of annotations with distinct names the one that is found is the only one of its name. -/
theorem annotated?_eq_some_iff (h : (f.annotations.map AnnotationText.simple).Nodup) :
    f.annotated? name = some a ↔ a ∈ f.annotations ∧ a.simple = name := by
  constructor
  · intro hfound
    exact ⟨List.mem_of_find?_eq_some hfound,simple_of_annotated? hfound⟩
  · rintro ⟨hmem,hname⟩
    obtain ⟨b,hb⟩ : ∃ b, f.annotated? name = some b :=
      Option.isSome_iff_exists.mp (List.find?_isSome.mpr ⟨a,hmem,beq_iff_eq.mpr hname⟩)
    have hsame := (simple_of_annotated? hb).trans hname.symm
    rw [hb,List.inj_on_of_nodup_map h (List.mem_of_find?_eq_some hb) hmem hsame]

/-- So it is found in whatever order they stand. -/
theorem annotated?_of_perm (h : (f.annotations.map AnnotationText.simple).Nodup)
    (has : as.Perm f.annotations) (name : String) :
    annotated? { f with annotations := as } name = f.annotated? name := by
  have hnodup : (as.map AnnotationText.simple).Nodup := (has.map _).nodup_iff.mpr h
  apply Option.ext
  intro a
  rw [annotated?_eq_some_iff hnodup,annotated?_eq_some_iff h,has.mem_iff]

/-- A field has this annotation for a mapping of this kind, and none of those that go before it. -/
def FirstMapped (f : Field) (kind : RelationKind) (a : AnnotationText) : Prop :=
  ∃ before name after, Catalog.mappings = before ++ (name,kind) :: after ∧
    f.annotated? name = some a ∧ ∀ m ∈ before, f.annotated? m.1 = none

end Field

namespace Catalog

variable {c : Catalog} {e : Entity} {f : Field} {as : List AnnotationText}

/-- Analysis looks the annotations of a field up by their names and no other way. -/
theorem classifyField_congr
    (h : ∀ name, Field.annotated? { f with annotations := as } name = f.annotated? name) :
    c.classifyField e { f with annotations := as } = c.classifyField e f := by
  have hexcluded : isExcluded { f with annotations := as } = isExcluded f := by
    simp only [isExcluded,h]
  have hmapping : mapping? { f with annotations := as } = mapping? f := by
    simp only [mapping?,h]
  have hrelationship : ∀ kind target a,
      relationshipOf e { f with annotations := as } kind target a =
        relationshipOf e f kind target a := by
    intro kind target a
    simp only [relationshipOf,withJoins,h]
  have himplicit : c.implicitRelationship? e { f with annotations := as } =
      c.implicitRelationship? e f := by
    simp only [implicitRelationship?,hrelationship]
  have hwhole : c.relationship? e { f with annotations := as } = c.relationship? e f := by
    simp only [relationship?,hexcluded,hmapping,hrelationship,himplicit]
  simp only [classifyField,hwhole]

section Precedence

variable {kind : RelationKind} {a : AnnotationText}

theorem mapping?_of_firstMapped (h : f.FirstMapped kind a) :
    mapping? f = some (kind,a.attributes) := by
  obtain ⟨before,name,after,hsplit,hfound,hbefore⟩ := h
  rw [mapping?,hsplit,List.findSome?_append,List.findSome?_cons,hfound]
  have hnone : before.findSome?
      (fun m => (f.annotated? m.1).map (fun a => (m.2,a.attributes))) = none := by
    rw [List.findSome?_eq_none_iff]
    intro m hm
    rw [hbefore m hm,Option.map_none]
  rw [hnone,Option.none_or,Option.map_some]

/-- Where some mapping annotation is present there is a first one. -/
theorem exists_firstMapped (h : ∃ m ∈ mappings, (f.annotated? m.1).isSome = true) :
    ∃ kind a, f.FirstMapped kind a := by
  obtain ⟨m,hm⟩ : ∃ m, mappings.find? (fun m => (f.annotated? m.1).isSome) = some m :=
    Option.isSome_iff_exists.mp (List.find?_isSome.mpr h)
  obtain ⟨hfound,before,after,hsplit,hbefore⟩ := List.find?_eq_some_iff_append.mp hm
  obtain ⟨a,ha⟩ := Option.isSome_iff_exists.mp hfound
  refine ⟨m.2,a,before,m.1,after,hsplit,ha,fun n hn => ?_⟩
  simpa using hbefore n hn

theorem mapped_relationshipOf (a : Attributes) :
    (relationshipOf e f kind (c.mappedTarget kind (TypeExpr.parse f.type) a) a).mapped =
      Mapped.of c f.type kind a := by
  have horphan : ((kind == .oneToOne || kind == .oneToMany) &&
      (a.boolean? "orphanRemoval").getD false) =
      (decide (kind = .oneToOne ∨ kind = .oneToMany) &&
        a.boolean? "orphanRemoval" == some true) := by
    cases a.boolean? "orphanRemoval" with
    | none => simp
    | some orphans => cases kind <;> cases orphans <;> rfl
  simp only [Relationship.mapped,relationshipOf,CascadeAdvice.advise_eq,horphan]
  rfl

theorem classifyField_of_firstMapped (h : f.FirstMapped kind a) :
    (c.classifyField e f).2.map Relationship.mapped =
      if isExcluded f then none else some (Mapped.of c f.type kind a.attributes) := by
  rw [classifyField,relationship?,mapping?_of_firstMapped h]
  split
  · rfl
  · rw [Option.map_some,mapped_relationshipOf]

/-- Where the annotations of a field have distinct names, their order makes no difference. Of
several mapping annotations the one that comes first in the order of precedence decides alone what
kind of relationship there is, with which target, owner, cascade, fetch and orphan removal; a field
that is not stored has none. -/
theorem classifyField_of_annotations (c : Catalog) (e : Entity) (f : Field)
    (hnames : (f.annotations.map AnnotationText.simple).Nodup) :
    (∀ as, as.Perm f.annotations →
      c.classifyField e { f with annotations := as } = c.classifyField e f) ∧
    mappings = [("OneToOne",.oneToOne), ("OneToMany",.oneToMany), ("ManyToOne",.manyToOne),
      ("ManyToMany",.manyToMany), ("Embedded",.embedded), ("EmbeddedId",.embedded),
      ("ElementCollection",.composition)] ∧
    ((∃ m ∈ mappings, (f.annotated? m.1).isSome = true) → ∃ kind a, f.FirstMapped kind a) ∧
    ∀ kind a, f.FirstMapped kind a →
      (c.classifyField e f).2.map Relationship.mapped =
        (if isExcluded f then none else some (Mapped.of c f.type kind a.attributes)) ∧
      ∀ r, (c.classifyField e f).2 = some r →
        (c.classifyField e f).1.kind = r.kind ∧ (c.classifyField e f).1.target = r.target := by
  refine ⟨fun as has => classifyField_congr (Field.annotated?_of_perm hnames has),rfl,
    exists_firstMapped,fun kind a ha => ⟨classifyField_of_firstMapped ha,fun r hr => ?_⟩⟩
  have hrelationship : c.relationship? e f = some r := hr
  rw [classifyField,hrelationship]
  exact ⟨rfl,rfl⟩

/-- The pupils of a tutor, mapped twice. -/
def pupils : Field where
  name := "pupils"
  type := "List<Pupil>"
  annotations := [⟨"JoinTable","name = \"tutoring\""⟩,
    ⟨"javax.persistence.ManyToMany","cascade = CascadeType.ALL"⟩,
    ⟨"OneToMany","mappedBy = \"tutor\", orphanRemoval = true"⟩]

/-- They are a one-to-many relationship, also with the join table written last. -/
theorem classifyField_pupils :
    let c := ofList [{ name := "Tutor", fields := [pupils] },{ name := "Pupil" }]
    let e : Entity := { name := "Tutor", fields := [pupils] }
    (pupils.annotations.map AnnotationText.simple).Nodup ∧
    (pupils.annotations.reverse.Perm pupils.annotations ∧
      c.classifyField e { pupils with annotations := pupils.annotations.reverse } =
        c.classifyField e pupils) ∧
    pupils.FirstMapped .oneToMany ⟨"OneToMany","mappedBy = \"tutor\", orphanRemoval = true"⟩ ∧
    (c.classifyField e pupils).2.map Relationship.mapped = some {
      kind := .oneToMany
      target := "Pupil"
      mappedBy := some "tutor"
      cascade := .ofList [.persist,.merge,.refresh]
      cascadeExplicit := false
      fetch := .lazy
      orphanRemoval := true } := by
  intro c e
  have hnames : (pupils.annotations.map AnnotationText.simple).Nodup := by decide
  obtain ⟨hperm,-,-,hfirst⟩ := classifyField_of_annotations c e pupils hnames
  have hmapped : pupils.FirstMapped .oneToMany
      ⟨"OneToMany","mappedBy = \"tutor\", orphanRemoval = true"⟩ :=
    ⟨[("OneToOne",.oneToOne)],"OneToMany",_,rfl,by decide,by decide⟩
  have hreverse := List.reverse_perm pupils.annotations
  refine ⟨hnames,⟨hreverse,hperm _ hreverse⟩,hmapped,?_⟩
  rw [(hfirst _ _ hmapped).1]
  decide +kernel

end Precedence

end Catalog

end EntityLink
