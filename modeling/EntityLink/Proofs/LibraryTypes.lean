import EntityLink.Proofs.GuardPlacement

namespace EntityLink
open Java

theorem Text.reverse_append_dot (package name : String) :
    (package ++ "." ++ name).toList.reverse =
      name.toList.reverse ++ '.' :: package.toList.reverse := by
  simp [String.toList_append]

/-- What a name in a package is called. -/
theorem Text.simpleName_append_dot (package : String) {name : String} (h : '.' ∉ name.toList) :
    simpleName (package ++ "." ++ name) = name := by
  have hname : '.' ∉ name.toList.reverse := mt List.mem_reverse.mp h
  rw [simpleName,reverse_append_dot,takeWhile_separator hname,List.reverse_reverse,
    String.ofList_toList]

namespace Imports

/-- The collection types that generated code names. -/
def collectionTypes : List String :=
  ["List", "ArrayList", "Set", "LinkedHashSet", "SortedSet", "TreeSet", "Collection"]

/-- The mapping annotations of generated code, and the types of their constants. -/
def mappingTypes : List String :=
  ["OneToOne", "OneToMany", "ManyToOne", "ManyToMany", "Embedded", "ElementCollection", "JoinTable",
    "JoinColumn", "Inheritance", "DiscriminatorColumn", "DiscriminatorValue", "FetchType",
    "CascadeType", "InheritanceType"]

/-- All that generated code imports from libraries. -/
def library (ns : PersistenceNamespace) : List String :=
  collectionTypes.map javaUtil ++ mappingTypes.map (persistence ns)

variable {ns : PersistenceNamespace} {name : String}

theorem javaUtil_mem_library (h : name ∈ collectionTypes) : javaUtil name ∈ library ns :=
  List.mem_append_left _ (List.mem_map_of_mem h)

theorem persistence_mem_library (h : name ∈ mappingTypes) : persistence ns name ∈ library ns :=
  List.mem_append_right _ (List.mem_map_of_mem h)

/-- Everything in the library goes by one of these simple names. -/
theorem simpleName_of_mem_library (h : name ∈ library ns) :
    Text.simpleName name ∈ collectionTypes ++ mappingTypes := by
  have hplain : ∀ n ∈ collectionTypes ++ mappingTypes, '.' ∉ n.toList := by decide
  rcases List.mem_append.mp h with h | h
  · obtain ⟨n,hn,rfl⟩ := List.mem_map.mp h
    have hmem := List.mem_append_left mappingTypes hn
    have hsimple := Text.simpleName_append_dot "java.util" (hplain n hmem)
    exact hsimple.symm ▸ hmem
  · obtain ⟨n,hn,rfl⟩ := List.mem_map.mp h
    have hmem := List.mem_append_right collectionTypes hn
    exact (Text.simpleName_append_dot ns.package (hplain n hmem)).symm ▸ hmem

end Imports

open Imports

theorem CollectionKind.mem_collectionTypes (k : CollectionKind) :
    k.interfaceName ∈ collectionTypes ∧ k.implementation ∈ collectionTypes := by
  cases k with
  | list | set | sortedSet | collection => decide

theorem RelationKind.mem_mappingTypes {k : RelationKind} {name : String}
    (h : k.mappingName? = some name) : name ∈ mappingTypes := by
  cases k with
  | none | inheritance => cases h
  | oneToOne | oneToMany | manyToOne | manyToMany | embedded | composition =>
    cases h
    decide

namespace Relationship

variable {ns : PersistenceNamespace}

theorem joinImports_subset (r : Relationship) : ∀ i ∈ r.joinImports ns, i ∈ library ns := by
  have htable : persistence ns "JoinTable" ∈ library ns := persistence_mem_library (by decide)
  have hcolumn : persistence ns "JoinColumn" ∈ library ns := persistence_mem_library (by decide)
  unfold joinImports
  split
  · refine List.forall_mem_cons.mpr ⟨htable,?_⟩
    split
    · exact List.forall_mem_nil _
    · exact List.forall_mem_singleton.mpr hcolumn
  · split
    · exact List.forall_mem_nil _
    · exact List.forall_mem_singleton.mpr hcolumn

theorem mappingImports_subset (r : Relationship) : ∀ i ∈ r.mappingImports ns, i ∈ library ns := by
  have hfetch : persistence ns "FetchType" ∈ library ns := persistence_mem_library (by decide)
  unfold mappingImports
  split
  · exact List.forall_mem_singleton.mpr (persistence_mem_library (by decide))
  · exact List.forall_mem_cons.mpr
      ⟨persistence_mem_library (by decide),List.forall_mem_singleton.mpr hfetch⟩
  · split
    · exact List.forall_mem_nil _
    · rename_i name hname
      have hmapping : persistence ns name ∈ library ns :=
        persistence_mem_library (RelationKind.mem_mappingTypes hname)
      simp only [List.forall_mem_append,List.forall_mem_cons]
      refine ⟨⟨⟨hmapping,hfetch,List.forall_mem_nil _⟩,?_⟩,?_⟩
      · split
        · exact List.forall_mem_nil _
        · exact List.forall_mem_singleton.mpr (persistence_mem_library (by decide))
      · exact forall_mem_ite_nil (fun _ => r.joinImports_subset)

theorem inheritanceImports_subset (r : Relationship) :
    ∀ i ∈ r.inheritanceImports ns, i ∈ library ns := by
  unfold inheritanceImports
  split
  · exact List.forall_mem_nil _
  · simp only [List.forall_mem_append]
    refine ⟨⟨forall_mem_ite_nil (fun _ => ?_),forall_mem_ite_nil (fun _ => ?_)⟩,
      forall_mem_ite_nil (fun _ => ?_)⟩
    · exact List.forall_mem_cons.mpr ⟨persistence_mem_library (by decide),
        List.forall_mem_singleton.mpr (persistence_mem_library (by decide))⟩
    · exact List.forall_mem_singleton.mpr (persistence_mem_library (by decide))
    · exact List.forall_mem_singleton.mpr (persistence_mem_library (by decide))

end Relationship

theorem Link.imports_subset (l : Link) (ns : PersistenceNamespace) :
    ∀ i ∈ l.imports ns, i ∈ library ns := by
  obtain ⟨hinterface,hclass⟩ := l.collectionKind.mem_collectionTypes
  simp only [imports,List.forall_mem_append]
  refine ⟨forall_mem_ite_nil (fun _ => ?_),l.relationship.mappingImports_subset⟩
  simp only [List.forall_mem_cons]
  exact ⟨javaUtil_mem_library hinterface,javaUtil_mem_library hclass,
    javaUtil_mem_library (by decide),javaUtil_mem_library (by decide),List.forall_mem_nil _⟩

namespace Synthesis

theorem imports_partOf_subset (s : Settings) (a : Analysis) (r : Relationship) :
    ∀ i ∈ (partOf s a r).imports, i ∈ library s.persistenceNamespace := by
  unfold partOf
  split
  · exact r.inheritanceImports_subset
  · split
    · exact List.forall_mem_nil _
    · split
      · exact List.forall_mem_nil _
      · exact Link.imports_subset _ _

/-- What the members of an entity name comes from the library. -/
theorem libraryTypes_subset {s : Settings} {a : Analysis} {entity : String} :
    ∀ i ∈ libraryTypes s a entity, i ∈ library s.persistenceNamespace := by
  intro i hi
  obtain ⟨part,hpart,hi⟩ := List.mem_flatMap.mp hi
  obtain ⟨r,-,rfl⟩ := List.mem_map.mp hpart
  exact imports_partOf_subset s a r i hi

end Synthesis

end EntityLink
