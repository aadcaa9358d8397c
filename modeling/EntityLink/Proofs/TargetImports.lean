import EntityLink.Proofs.LibraryTypes

namespace EntityLink
open Java Imports

/-- A simple name behind a package is in that package. -/
theorem Text.package?_append_dot (package : String) {name : String} (h : '.' ∉ name.toList) :
    package? (package ++ "." ++ name) = some package := by
  have hname : '.' ∉ name.toList.reverse := mt List.mem_reverse.mp h
  rw [package?,reverse_append_dot,dropWhile_separator hname]
  simp

namespace Imports

/-- The types that generated code imports from libraries: collections and mapping annotations. -/
def IsLibraryType (ns : PersistenceNamespace) (name : String) : Prop :=
  Text.package? name = some "java.util" ∨ Text.package? name = some ns.package

theorem isLibraryType_of_mem {ns : PersistenceNamespace} {name : String}
    (h : name ∈ library ns) : IsLibraryType ns name := by
  have hplain : ∀ n ∈ collectionTypes ++ mappingTypes, '.' ∉ n.toList := by decide
  rcases List.mem_append.mp h with h | h
  · obtain ⟨n,hn,rfl⟩ := List.mem_map.mp h
    exact .inl (Text.package?_append_dot "java.util" (hplain n (List.mem_append_left _ hn)))
  · obtain ⟨n,hn,rfl⟩ := List.mem_map.mp h
    exact .inr (Text.package?_append_dot ns.package (hplain n (List.mem_append_right _ hn)))

end Imports

namespace Generation

/-- What an entity imports lies in a package of collections or mapping annotations, or is the
guard. -/
theorem isLibraryType_or_guard {s : Settings} {a : Analysis} {e : GeneratedEntity}
    (he : e ∈ (Synthesis.ofAnalysis s a).entities) {name : String} (h : name ∈ e.imports) :
    (IsLibraryType s.persistenceNamespace name ∧ name ∈ Synthesis.libraryTypes s a e.entity) ∨
      ∃ u, (Synthesis.ofAnalysis s a).guard = some u ∧ u.GivenTo e ∧ name = u.qualifiedName :=
  ((Synthesis.mem_imports_iff he).mp h).imp_left
    (fun hlisted => ⟨isLibraryType_of_mem (Synthesis.libraryTypes_subset name hlisted),hlisted⟩)

/-- Targets are imported exactly where each of them lies in the package of the entity that refers to
it, or is imported for another reason: it lies in a package of collections or mapping annotations
and the members name it, or it is the guard. So in a model that declares neither library types nor
the guard, they are imported exactly where no association leads to another package. -/
theorem targets_imported_iff {cancelled : Bool} {s : Settings} {c : Catalog} {g : Generation}
    (h : run cancelled s c = .ok g) :
    ((∀ e ∈ g.synthesis.entities, ∀ r ∈ g.analysis.relationshipsOf e.entity,
      r.kind.isAssociation = true → r.hasTarget = true → Text.package? r.target ≠ e.package? →
      r.target ∈ e.imports) ↔
    ∀ e ∈ g.synthesis.entities, ∀ r ∈ g.analysis.relationshipsOf e.entity,
      r.kind.isAssociation = true → r.hasTarget = true → Text.package? r.target = e.package? ∨
      (IsLibraryType s.persistenceNamespace r.target ∧
        r.target ∈ Synthesis.libraryTypes s g.analysis e.entity) ∨
      ∃ u, g.synthesis.guard = some u ∧ u.GivenTo e ∧ r.target = u.qualifiedName) ∧
    ((∀ e ∈ g.synthesis.entities, ∀ r ∈ g.analysis.relationshipsOf e.entity,
      r.kind.isAssociation = true → r.hasTarget = true →
      ¬ IsLibraryType s.persistenceNamespace r.target ∧
        ∀ u, g.synthesis.guard = some u → r.target ≠ u.qualifiedName) →
    ((∀ e ∈ g.synthesis.entities, ∀ r ∈ g.analysis.relationshipsOf e.entity,
      r.kind.isAssociation = true → r.hasTarget = true → Text.package? r.target ≠ e.package? →
      r.target ∈ e.imports) ↔
    ∀ e ∈ g.synthesis.entities, ∀ r ∈ g.analysis.relationshipsOf e.entity,
      r.kind.isAssociation = true → r.hasTarget = true → Text.package? r.target = e.package?)) ∧
    ∀ entity, ∀ i ∈ Synthesis.libraryTypes s g.analysis entity,
      IsLibraryType s.persistenceNamespace i := by
  obtain rfl := eq_of_run h
  refine ⟨?_,?_,fun entity i hi => isLibraryType_of_mem (Synthesis.libraryTypes_subset i hi)⟩
  · constructor
    · intro hall e he r hr hassoc htarget
      by_cases hpackage : Text.package? r.target = e.package?
      · exact .inl hpackage
      · exact .inr (isLibraryType_or_guard he (hall e he r hr hassoc htarget hpackage))
    · intro hall e he r hr hassoc htarget hpackage
      rcases hall e he r hr hassoc htarget with hsame | hother
      · exact absurd hsame hpackage
      · exact (Synthesis.mem_imports_iff he).mpr (hother.imp_left And.right)
  · intro hforeign
    constructor
    · intro hall e he r hr hassoc htarget
      obtain ⟨hlibrary,hguard⟩ := hforeign e he r hr hassoc htarget
      by_contra hpackage
      rcases isLibraryType_or_guard he (hall e he r hr hassoc htarget hpackage) with
        ⟨htype,-⟩ | ⟨u,hu,-,hname⟩
      · exact hlibrary htype
      · exact hguard u hu hname
    · intro hall e he r hr hassoc htarget hpackage
      exact absurd (hall e he r hr hassoc htarget) hpackage

/-- Orders that refer to a customer beside them and to the class of the lists they hold. -/
def shopBasket : Catalog :=
  .ofList [
    { name := "com.shop.Order", fields := [
      { name := "customer", type := "Customer", annotations := [⟨"ManyToOne",""⟩] },
      { name := "baskets", type := "List<ArrayList>", annotations := [⟨"OneToMany",""⟩] }] },
    { name := "com.shop.Customer" },
    { name := "java.util.ArrayList" }]

/-- The customer needs no import, and the members name the class of the lists themselves. -/
theorem shopBasket_targets_imported :
    run false {} shopBasket = .ok (ofCatalog {} shopBasket) ∧
    (∃ e ∈ (ofCatalog {} shopBasket).synthesis.entities,
      ∃ r ∈ (ofCatalog {} shopBasket).analysis.relationshipsOf e.entity,
        r.kind.isAssociation = true ∧ r.hasTarget = true ∧ r.target = "java.util.ArrayList" ∧
          Text.package? r.target ≠ e.package?) ∧
    ∀ e ∈ (ofCatalog {} shopBasket).synthesis.entities,
      ∀ r ∈ (ofCatalog {} shopBasket).analysis.relationshipsOf e.entity,
      r.kind.isAssociation = true → r.hasTarget = true → Text.package? r.target ≠ e.package? →
      r.target ∈ e.imports := by
  have hrun : run false {} shopBasket = .ok (ofCatalog {} shopBasket) := rfl
  have htargets : ∀ e ∈ (ofCatalog {} shopBasket).synthesis.entities,
      ∀ r ∈ (ofCatalog {} shopBasket).analysis.relationshipsOf e.entity,
      Text.package? r.target = e.package? ∨ Text.package? r.target = some "java.util" ∧
        r.target ∈ Synthesis.libraryTypes {} (ofCatalog {} shopBasket).analysis e.entity := by
    decide +kernel
  refine ⟨hrun,by decide +kernel,(targets_imported_iff hrun).1.mpr ?_⟩
  intro e he r hr _ _
  exact (htargets e he r hr).imp_right (fun ⟨hpackage,hnamed⟩ => .inl ⟨.inl hpackage,hnamed⟩)

/-- Orders of a shop whose customers lie in another package. -/
def shopCustomer : Catalog :=
  .ofList [
    { name := "com.shop.Order", fields := [
      { name := "customer", type := "Customer", annotations := [⟨"ManyToOne",""⟩] }] },
    { name := "com.crm.Customer" }]

/-- Customers of another package are not imported. -/
theorem exists_target_out_of_scope : ¬ ∀ (cancelled : Bool) (s : Settings) (c : Catalog)
    (g : Generation), run cancelled s c = .ok g →
    ∀ e ∈ g.synthesis.entities, ∀ r ∈ g.analysis.relationshipsOf e.entity,
      r.kind.isAssociation = true → r.hasTarget = true → Text.package? r.target ≠ e.package? →
      r.target ∈ e.imports := by
  intro hall
  have hrun : run false {} shopCustomer = .ok (ofCatalog {} shopCustomer) := rfl
  have hguard : (ofCatalog {} shopCustomer).synthesis.guard = none := by decide +kernel
  have hmissing : ∃ e ∈ (ofCatalog {} shopCustomer).synthesis.entities,
      ∃ r ∈ (ofCatalog {} shopCustomer).analysis.relationshipsOf e.entity,
      r.kind.isAssociation = true ∧ r.hasTarget = true ∧ Text.package? r.target ≠ e.package? ∧
        r.target ∉ Synthesis.libraryTypes {} (ofCatalog {} shopCustomer).analysis e.entity := by
    decide +kernel
  obtain ⟨e,he,r,hr,hassoc,htarget,hpackage,hlibrary⟩ := hmissing
  have himported := hall _ _ _ _ hrun e he r hr hassoc htarget hpackage
  rcases (Synthesis.mem_imports_iff he).mp himported with hlisted | ⟨u,hu,-⟩
  · exact hlibrary hlisted
  · cases hguard.symm.trans hu

end Generation

end EntityLink
