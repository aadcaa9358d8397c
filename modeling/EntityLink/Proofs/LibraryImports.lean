import EntityLink.Proofs.AnnotationImports
import EntityLink.Proofs.ByteOrder
import EntityLink.Proofs.MemberTypes
import EntityLink.Proofs.TargetNames

namespace EntityLink
open Text Java Imports

/-- The name of a type without its arguments. -/
def Java.className (type : String) : String :=
  String.ofList (type.toList.takeWhile (· != '<'))

theorem Java.className_eq {type name : String} (arguments : List Char) (hname : IsBare name)
    (htype : type.toList = name.toList ++ '<' :: arguments) : className type = name := by
  rw [className,htype,takeWhile_separator hname,String.ofList_toList]

namespace Imports

variable {ns : PersistenceNamespace} {name : String} {names : List String}

/-- Names that differ are in strict order when they are sorted. -/
theorem pairwise_sort (h : names.Nodup) : (sort names).Pairwise (· < ·) := by
  have hsorted : (sort names).Pairwise (fun a b => (!decide (b < a)) = true) := by
    apply List.pairwise_mergeSort
    · intro a b c hab hbc
      simp only [Bool.not_eq_true',decide_eq_false_iff_not,String.not_lt] at hab hbc ⊢
      exact String.le_trans hab hbc
    · intro a b
      have htotal := String.le_total a b
      simpa only [Bool.or_eq_true,Bool.not_eq_true',decide_eq_false_iff_not,String.not_lt]
        using htotal
  have hnodup : (sort names).Nodup := (List.mergeSort_perm names _).nodup_iff.mpr h
  refine (hsorted.and hnodup).imp (fun {a b} hab => ?_)
  simp only [Bool.not_eq_true',decide_eq_false_iff_not,String.not_lt] at hab
  exact String.not_le.mp (fun hba => hab.2 (String.le_antisymm hab.1 hba))

/-- Nothing of the library is called like the guard. -/
theorem guard_not_mem_library (package : String) :
    package ++ "." ++ guardInterface ∉ library ns := by
  intro hmem
  have hsimple := simpleName_of_mem_library hmem
  rw [simpleName_append_dot package (by decide)] at hsimple
  revert hsimple
  decide

/-- Nothing of the library lies in another persistence namespace. -/
theorem not_prefix_of_mem_library {other : PersistenceNamespace} (hother : other ≠ ns)
    (h : name ∈ library ns) : ¬ (other.package ++ ".").toList <+: name.toList := by
  have hutil : ¬ (other.package ++ ".").toList <+: "java.util.".toList ∧
      ¬ "java.util.".toList <+: (other.package ++ ".").toList := by
    cases other <;> decide
  have hpersistence : ¬ (other.package ++ ".").toList <+: (ns.package ++ ".").toList ∧
      ¬ (ns.package ++ ".").toList <+: (other.package ++ ".").toList := by
    revert hother
    cases ns <;> cases other <;> decide
  have happend : ∀ package n : String, package.toList <+: (package ++ n).toList := by
    intro package n
    rw [String.toList_append]
    exact List.prefix_append _ _
  intro hprefix
  rcases List.mem_append.mp h with h | h
  · obtain ⟨n,-,rfl⟩ := List.mem_map.mp h
    exact (List.prefix_or_prefix_of_prefix hprefix (happend "java.util." n)).elim hutil.1 hutil.2
  · obtain ⟨n,-,rfl⟩ := List.mem_map.mp h
    exact (List.prefix_or_prefix_of_prefix hprefix (happend (ns.package ++ ".") n)).elim
      hpersistence.1 hpersistence.2

end Imports

namespace GeneratedEntity

/-- The types of the objects that the code of an entity creates. -/
def created (e : GeneratedEntity) : List String :=
  e.fields.flatMap FieldDecl.created ++ e.methods.flatMap Method.created

/-- The types that the members of an entity are written with. -/
def types (e : GeneratedEntity) : List String :=
  e.fields.map FieldDecl.type ++ e.methods.flatMap Method.types

/-- The annotations of an entity and of its fields. -/
def mappings (e : GeneratedEntity) : List AnnotationUse :=
  e.annotations ++ e.fields.flatMap FieldDecl.annotations

/-- An import list is in strict order of bytes and has one persistence namespace only, but for the
guard. Nothing of the library is missing: annotations with all that their values are written with,
the classes of new objects and the interfaces of types with arguments. -/
structure WellImported (e : GeneratedEntity) (ns : PersistenceNamespace) (guard : Option Guard) :
    Prop where
  ordered : e.imports.Pairwise BytesBefore
  namespaces : ∀ other, other ≠ ns → ∀ i ∈ e.imports, (other.package ++ ".").toList <+: i.toList →
    ∃ u, guard = some u ∧ i = u.qualifiedName
  mappings : ∀ u ∈ e.mappings, u.Imported ns e.imports
  created : ∀ type ∈ e.created, javaUtil (className type) ∈ e.imports
  types : ∀ type ∈ e.types, '<' ∈ type.toList → javaUtil (className type) ∈ e.imports

end GeneratedEntity

theorem CollectionKind.isBare (k : CollectionKind) :
    IsBare k.interfaceName ∧ IsBare k.implementation := by
  cases k <;> exact ⟨by decide,by decide⟩

namespace Link

variable {l : Link} {ns : PersistenceNamespace} {type : String}

/-- The classes that members of a field create are imported. -/
theorem imported_newTypes (h : type ∈ l.newTypes) : javaUtil (className type) ∈ l.imports ns := by
  obtain ⟨hmany,htype⟩ := List.mem_ite_nil_right.mp h
  have himplementation : className (l.collectionKind.implementation ++ "<>") =
      l.collectionKind.implementation :=
    className_eq ['>'] l.collectionKind.isBare.2 (String.toList_append ..)
  have harray : className "ArrayList<>" = "ArrayList" := by decide
  rw [imports,if_pos hmany]
  simp only [List.mem_cons,List.not_mem_nil,or_false] at htype
  rcases htype with rfl | rfl
  · simp [himplementation]
  · simp [harray]

/-- What members of a field are written with has arguments only where it is a collection. -/
theorem imported_memberTypes (htarget : IsBare l.targetType)
    (hsource : l.inverse.isSome = true → IsBare l.sourceType) (h : type ∈ l.memberTypes)
    (hgeneric : '<' ∈ type.toList) : javaUtil (className type) ∈ l.imports ns := by
  have hinterface : className l.collectionType = l.collectionKind.interfaceName :=
    className_eq (l.targetType.toList ++ ['>']) l.collectionKind.isBare.1 (by simp [collectionType])
  have hlist : className ("List<" ++ l.targetType ++ ">") = "List" :=
    className_eq (l.targetType.toList ++ ['>']) (by decide) (by simp)
  simp only [memberTypes,List.mem_append,List.mem_ite_nil_right,List.mem_cons,List.not_mem_nil,
    or_false] at h
  rcases h with ((rfl | rfl | rfl) | ⟨hinverse,rfl⟩) | ⟨hmany,rfl | rfl⟩
  · exact absurd hgeneric (by decide)
  · exact absurd hgeneric (by decide)
  · exact absurd hgeneric htarget
  · exact absurd hgeneric (hsource hinverse)
  · rw [hinterface,imports,if_pos hmany]
    exact List.mem_append_left _ List.mem_cons_self
  · rw [hlist,imports,if_pos hmany]
    simp

/-- The declaration of a field creates nothing and is written with one of the types of its
members. -/
theorem types_fieldDecl (l : Link) :
    l.fieldDecl.created = [] ∧ l.fieldDecl.type ∈ l.memberTypes := by
  refine ⟨rfl,?_⟩
  unfold fieldDecl
  split
  · rename_i hmany
    simp [memberTypes,hmany]
  · simp [memberTypes]

end Link

namespace Synthesis

/-- A relationship imports all that it adds to its entity. -/
structure Part.Complete (p : Part) (ns : PersistenceNamespace) : Prop where
  mappings : ∀ u ∈ p.annotations ++ p.fields.flatMap FieldDecl.annotations, u.Imported ns p.imports
  created : ∀ type ∈ p.fields.flatMap FieldDecl.created ++ p.methods.flatMap Method.created,
    javaUtil (className type) ∈ p.imports
  types : ∀ type ∈ p.fields.map FieldDecl.type ++ p.methods.flatMap Method.types,
    '<' ∈ type.toList → javaUtil (className type) ∈ p.imports

variable {s : Settings} {a : Analysis} {c : Catalog} {r : Relationship}

/-- The members of a link keep to its types. -/
theorem typed_membersOf : ∀ m ∈ membersOf s a r,
    (Link.new s r (a.findInverse? r)).Typed m := by
  simp only [membersOf,List.forall_mem_append]
  exact ⟨Link.typed_accessors,forall_mem_ite_nil (fun _ => Link.typed_helpers)⟩

theorem complete_of_style {style : AccessorStyle} (hr : r ∈ (Analysis.ofCatalog s c).relationships)
    (hstyle : styleOf? r = some style) :
    (partOf s (.ofCatalog s c) r).Complete s.persistenceNamespace := by
  obtain ⟨htarget,hof⟩ := of_styleOf? hstyle
  have hkind : r.kind ≠ .inheritance := by
    intro hkind
    rw [hkind] at hof
    cases hof
  have hstyled : r.style = style := by rw [Relationship.style,hof,Option.getD_some]
  generalize hl : Link.new s r ((Analysis.ofCatalog s c).findInverse? r) = l
  have hbare : IsBare l.targetType := by
    rw [← hl]
    exact Analysis.isBare_targetSimple hr hkind
  have hsource : l.inverse.isSome = true → IsBare l.sourceType := by
    rw [← hl]
    intro hinverse
    obtain ⟨i,hi⟩ := Option.isSome_iff_exists.mp hinverse
    exact Analysis.isBare_sourceSimple hr (Link.of_inverse_eq_some hi).1
  have hmembers : ∀ m ∈ l.accessors style ++ (if s.generateHelpers then l.helpers else []),
      l.Typed m := by
    rw [← hstyled,← hl]
    exact typed_membersOf
  obtain ⟨hcreated,hfield⟩ := l.types_fieldDecl
  rw [partOf_of_style s _ hstyle,hl]
  refine ⟨fun u hu => ?_,fun type htype => ?_,fun type htype hgeneric => ?_⟩
  · rw [List.nil_append,List.flatMap_singleton] at hu
    exact (l.relationship.imported_mapping _ u hu).mono (List.subset_append_right _ _)
  · rw [List.flatMap_singleton,hcreated,List.nil_append,List.mem_flatMap] at htype
    obtain ⟨m,hm,htype⟩ := htype
    exact Link.imported_newTypes ((hmembers m hm).body.created htype)
  · refine Link.imported_memberTypes hbare hsource ?_ hgeneric
    rcases List.mem_append.mp htype with htype | htype
    · rw [List.mem_singleton.mp htype]
      exact hfield
    · obtain ⟨m,hm,htype⟩ := List.mem_flatMap.mp htype
      exact (hmembers m hm).types htype

theorem complete_partOf (hr : r ∈ (Analysis.ofCatalog s c).relationships) :
    (partOf s (.ofCatalog s c) r).Complete s.persistenceNamespace := by
  cases hstyle : styleOf? r with
  | some style => exact complete_of_style hr hstyle
  | none =>
    obtain ⟨hfields,hmethods,-⟩ := partOf_of_no_style s (.ofCatalog s c) hstyle
    refine ⟨?_,?_,?_⟩
    · rw [hfields,annotations_partOf,List.flatMap_nil,List.append_nil]
      refine forall_mem_ite_nil (fun hkind => ?_)
      rw [partOf,if_pos hkind]
      exact r.imported_inheritance _
    · rw [hfields,hmethods]
      exact List.forall_mem_nil _
    · rw [hfields,hmethods]
      exact List.forall_mem_nil _

/-- Validators create nothing, and no type that they are written with has arguments. -/
theorem bare_methodsOf {entity : String} {m : Method}
    (hm : m ∈ Validators.methodsOf s (.ofCatalog s c) entity) :
    m.created = [] ∧ ∀ type ∈ m.types, IsBare type := by
  have htyped := Validators.typed_methodsOf m hm
  refine ⟨List.subset_nil.mp htyped.body.created,fun type htype => ?_⟩
  rcases List.mem_cons.mp (htyped.types htype) with rfl | htarget
  · decide
  · obtain ⟨r,hr,rfl⟩ := List.mem_map.mp htarget
    obtain ⟨hmem,hchecked⟩ := List.mem_filter.mp hr
    exact Analysis.isBare_targetSimple (List.mem_of_mem_filter hmem)
      (RelationKind.ne_inheritance (Bool.and_eq_true_iff.mp hchecked).2)

/-- The import list of an entity is in strict order, with the guard in its place. -/
theorem ordered_imports {e : GeneratedEntity} (he : e ∈ (ofAnalysis s a).entities) :
    e.imports.Pairwise BytesBefore := by
  refine List.Pairwise.imp bytesBefore_of_lt ?_
  rw [ofAnalysis_eq] at he
  obtain ⟨d,hd,rfl⟩ := List.mem_map.mp he
  obtain ⟨entity,-,rfl⟩ := List.mem_map.mp (List.mem_of_mem_filter hd)
  have hdraft : (entityOf s a entity).imports.Pairwise (· < ·) := pairwise_sort (nodup_distinct _)
  cases guardOf (drafts s a) with
  | none => exact hdraft
  | some u =>
    rw [withGuard,Option.elim_some,withGuardImport]
    split
    · rename_i hgiven
      have hpackage := (Bool.and_eq_true_iff.mp (Bool.and_eq_true_iff.mp hgiven).1).2
      obtain ⟨package,hpackage⟩ := Option.isSome_iff_exists.mp hpackage
      have hname : u.qualifiedName = package ++ "." ++ guardInterface := by
        rw [Guard.qualifiedName,hpackage]
      have hfresh : u.qualifiedName ∉ (entityOf s a entity).imports := by
        intro hmem
        rw [hname] at hmem
        exact guard_not_mem_library package (libraryTypes_subset _ (mem_sorted.mp hmem))
      have hdistinct : (entityOf s a entity).imports.Nodup := hdraft.imp String.ne_of_lt
      apply pairwise_sort
      rw [← List.concat_eq_append]
      exact hdistinct.concat hfresh
    · exact hdraft

theorem imports_subset {e : GeneratedEntity} (he : e ∈ (ofAnalysis s a).entities)
    (hr : r ∈ a.relationshipsOf e.entity) : (partOf s a r).imports ⊆ e.imports := by
  intro i hi
  refine (mem_imports_iff he).mpr (.inl (List.mem_flatMap.mpr ⟨_,?_,hi⟩))
  exact List.mem_map_of_mem hr

theorem exists_part_of_field {entity : String} {f : FieldDecl}
    (hf : f ∈ (entityOf s a entity).fields) :
    ∃ r ∈ a.relationshipsOf entity, f ∈ (partOf s a r).fields := by
  obtain ⟨part,hpart,hf⟩ := List.mem_flatMap.mp hf
  obtain ⟨r,hr,rfl⟩ := List.mem_map.mp hpart
  exact ⟨r,hr,hf⟩

theorem exists_part_of_mapping {entity : String} {u : AnnotationUse}
    (hu : u ∈ (entityOf s a entity).mappings) : ∃ r ∈ a.relationshipsOf entity,
      u ∈ (partOf s a r).annotations ++ (partOf s a r).fields.flatMap FieldDecl.annotations := by
  rcases List.mem_append.mp hu with hu | hu
  · obtain ⟨part,hpart,hu⟩ := List.mem_flatMap.mp hu
    obtain ⟨r,hr,rfl⟩ := List.mem_map.mp hpart
    exact ⟨r,hr,List.mem_append_left _ hu⟩
  · obtain ⟨f,hf,hu⟩ := List.mem_flatMap.mp hu
    obtain ⟨r,hr,hf⟩ := exists_part_of_field hf
    exact ⟨r,hr,List.mem_append_right _ (List.mem_flatMap.mpr ⟨f,hf,hu⟩)⟩

/-- What an entity creates is imported by the relationship that it is for. -/
theorem exists_part_of_created {entity type : String}
    (htype : type ∈ (entityOf s (.ofCatalog s c) entity).created) :
    ∃ r ∈ (Analysis.ofCatalog s c).relationshipsOf entity,
      javaUtil (className type) ∈ (partOf s (.ofCatalog s c) r).imports := by
  rcases List.mem_append.mp htype with htype | htype
  · obtain ⟨f,hf,htype⟩ := List.mem_flatMap.mp htype
    obtain ⟨r,hr,hf⟩ := exists_part_of_field hf
    refine ⟨r,hr,(complete_partOf (List.mem_of_mem_filter hr)).created type ?_⟩
    exact List.mem_append_left _ (List.mem_flatMap.mpr ⟨f,hf,htype⟩)
  · obtain ⟨m,hm,htype⟩ := List.mem_flatMap.mp htype
    rcases mem_methods_entityOf hm with ⟨r,hr,hm⟩ | hm
    · refine ⟨r,hr,(complete_partOf (List.mem_of_mem_filter hr)).created type ?_⟩
      exact List.mem_append_right _ (List.mem_flatMap.mpr ⟨m,hm,htype⟩)
    · rw [(bare_methodsOf hm).1] at htype
      cases htype

theorem exists_part_of_type {entity type : String}
    (htype : type ∈ (entityOf s (.ofCatalog s c) entity).types) (hgeneric : '<' ∈ type.toList) :
    ∃ r ∈ (Analysis.ofCatalog s c).relationshipsOf entity,
      javaUtil (className type) ∈ (partOf s (.ofCatalog s c) r).imports := by
  rcases List.mem_append.mp htype with htype | htype
  · obtain ⟨f,hf,rfl⟩ := List.mem_map.mp htype
    obtain ⟨r,hr,hf⟩ := exists_part_of_field hf
    refine ⟨r,hr,(complete_partOf (List.mem_of_mem_filter hr)).types _ ?_ hgeneric⟩
    exact List.mem_append_left _ (List.mem_map_of_mem hf)
  · obtain ⟨m,hm,htype⟩ := List.mem_flatMap.mp htype
    rcases mem_methods_entityOf hm with ⟨r,hr,hm⟩ | hm
    · refine ⟨r,hr,(complete_partOf (List.mem_of_mem_filter hr)).types type ?_ hgeneric⟩
      exact List.mem_append_right _ (List.mem_flatMap.mpr ⟨m,hm,htype⟩)
    · exact absurd hgeneric ((bare_methodsOf hm).2 type htype)

/-- What has nothing to do with imports is seen before the guard is imported. -/
theorem eq_entityOf {α : Type} {f : GeneratedEntity → α} {e : GeneratedEntity}
    (hf : ∀ e is, f { e with imports := is } = f e) (he : e ∈ (ofAnalysis s a).entities) :
    f e = f (entityOf s a e.entity) :=
  (congrArg f (exists_entityOf he).2.2).trans (hf _ _)

/-- Every generated entity imports what its relationships import. -/
theorem wellImported {e : GeneratedEntity} (he : e ∈ (ofAnalysis s (.ofCatalog s c)).entities) :
    e.WellImported s.persistenceNamespace (ofAnalysis s (.ofCatalog s c)).guard := by
  refine ⟨ordered_imports he,?_,?_,?_,?_⟩
  · intro other hother i hi hprefix
    rcases (mem_imports_iff he).mp hi with hlibrary | ⟨u,hu,-,rfl⟩
    · exact absurd hprefix (not_prefix_of_mem_library hother (libraryTypes_subset i hlibrary))
    · exact ⟨u,hu,rfl⟩
  · intro u hu
    have hmappings := eq_entityOf (f := GeneratedEntity.mappings) (fun _ _ => rfl) he
    obtain ⟨r,hr,hu⟩ := exists_part_of_mapping (hmappings ▸ hu)
    have hcomplete := complete_partOf (List.mem_of_mem_filter hr)
    exact (hcomplete.mappings u hu).mono (imports_subset he hr)
  · intro type htype
    have hcreated := eq_entityOf (f := GeneratedEntity.created) (fun _ _ => rfl) he
    obtain ⟨r,hr,himport⟩ := exists_part_of_created (hcreated ▸ htype)
    exact imports_subset he hr himport
  · intro type htype hgeneric
    have htypes := eq_entityOf (f := GeneratedEntity.types) (fun _ _ => rfl) he
    obtain ⟨r,hr,himport⟩ := exists_part_of_type (htypes ▸ htype) hgeneric
    exact imports_subset he hr himport

end Synthesis

namespace Generation

/-- A run gives every entity an import list in strict order of bytes. Of persistence packages it has
the configured one only, the guard aside. Of that package and of `java.util` it has all that the
code of the entity is written with. -/
theorem imports_complete {cancelled : Bool} {s : Settings} {c : Catalog} {g : Generation}
    (h : run cancelled s c = .ok g) :
    ∀ e ∈ g.synthesis.entities, e.WellImported s.persistenceNamespace g.synthesis.guard := by
  obtain rfl := eq_of_run h
  exact fun e he => Synthesis.wellImported he

/-- Teams share their members through a join table. -/
def sharedTeam : Catalog :=
  .ofList [
    { name := "com.acme.Team", fields := [
      { name := "members", type := "Set<Member>", annotations := [
        ⟨"ManyToMany",""⟩,
        ⟨"JoinTable","name = \"staff\", joinColumns = @JoinColumn(name = \"team\")"⟩] }] },
    { name := "com.acme.staff.Member", fields := [
      { name := "teams", type := "List<Team>",
        annotations := [⟨"ManyToMany","mappedBy = \"members\""⟩] }] }]

/-- The join column of the table is imported, and the class that getters create. -/
theorem imports_complete_sharedTeam :
    run false {} sharedTeam = .ok (ofCatalog {} sharedTeam) ∧
    (∀ e ∈ (ofCatalog {} sharedTeam).synthesis.entities,
      e.WellImported .jakarta (some ⟨some "com.acme"⟩)) ∧
    ∃ e ∈ (ofCatalog {} sharedTeam).synthesis.entities, e.simple = "Team" ∧
      "jakarta.persistence.JoinColumn" ∈ e.imports ∧ "java.util.LinkedHashSet" ∈ e.imports := by
  have hrun : run false {} sharedTeam = .ok (ofCatalog {} sharedTeam) := rfl
  have hguard : (ofCatalog {} sharedTeam).synthesis.guard = some ⟨some "com.acme"⟩ := by
    decide +kernel
  have hteam : ∃ e ∈ (ofCatalog {} sharedTeam).synthesis.entities, e.simple = "Team" ∧
      ⟨"JoinTable",[("name","\"staff\""),("joinColumns","@JoinColumn(name = \"team\")")]⟩ ∈
        e.mappings ∧ "LinkedHashSet<>" ∈ e.created := by
    decide +kernel
  have hall := imports_complete hrun
  rw [hguard] at hall
  obtain ⟨e,he,hsimple,hmapping,hcreated⟩ := hteam
  refine ⟨hrun,hall,e,he,hsimple,?_,?_⟩
  · exact ((hall e he).mappings _ hmapping).values ("joinColumns","@JoinColumn(name = \"team\")")
      (by decide) "JoinColumn" (by decide) (by decide)
  · exact (hall e he).created "LinkedHashSet<>" hcreated

end Generation

end EntityLink
