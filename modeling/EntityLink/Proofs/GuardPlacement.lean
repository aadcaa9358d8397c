import EntityLink.Proofs.GeneratedEntities
import Mathlib.Data.List.Find

namespace EntityLink
open Java

theorem Imports.mem_sort {name : String} {names : List String} : name ∈ sort names ↔ name ∈ names :=
  List.mem_mergeSort

theorem Imports.mem_sorted {name : String} {names : List String} :
    name ∈ sorted names ↔ name ∈ names :=
  mem_sort.trans mem_distinct

namespace Guard

/-- Only what lies in a named package can be imported. -/
def Importable (u : Guard) : Prop :=
  ∃ package, u.package = some package ∧ package ≠ ""

/-- An entity can name the guard when it lies in the same package, or imports it. -/
def InScope (u : Guard) (e : GeneratedEntity) : Prop :=
  e.package? = u.package ∨ u.qualifiedName ∈ e.imports ∧ u.Importable

/-- Which entities are given an import of the guard. -/
def GivenTo (u : Guard) (e : GeneratedEntity) : Prop :=
  e.referencesGuard = true ∧ u.package.isSome = true ∧ e.package? ≠ u.package

end Guard

namespace Synthesis

variable {s : Settings} {a : Analysis} {c : Catalog}

/-- The library types that the members of an entity name. -/
def libraryTypes (s : Settings) (a : Analysis) (entity : String) : List String :=
  (partsOf s a entity).flatMap (·.imports)

theorem package_withGuard (g : Option Guard) (e : GeneratedEntity) :
    (withGuard g e).package? = e.package? := by
  rw [GeneratedEntity.package?,entity_withGuard,GeneratedEntity.package?]

theorem referencesGuard_withGuard (g : Option Guard) (e : GeneratedEntity) :
    (withGuard g e).referencesGuard = e.referencesGuard := by
  rw [withGuard_eq]
  rfl

/-- The guard stands where it stood if entities are changed in nothing that bears on it. -/
theorem guardOf_map {f : GeneratedEntity → GeneratedEntity} {es : List GeneratedEntity}
    (hentity : ∀ e, (f e).entity = e.entity)
    (himplements : ∀ e, (f e).implementsGuard = e.implementsGuard)
    (hreferences : ∀ e ∈ es, (f e).referencesGuard = e.referencesGuard) :
    guardOf (es.map f) = guardOf es := by
  have hpackage : ∀ e, (f e).package? = e.package? := fun e => by
    rw [GeneratedEntity.package?,hentity,GeneratedEntity.package?]
  have hchecks : es.find? (GeneratedEntity.referencesGuard ∘ f) =
      es.find? GeneratedEntity.referencesGuard :=
    List.find?_congr hreferences
  rw [guardOf,guardOf,List.find?_map,List.find?_map,hchecks,← Option.map_or,Option.map_map]
  simp only [Function.comp_def,hpackage,himplements]

/-- Where the guard stands is seen from the generated entities. -/
theorem guard_ofAnalysis (s : Settings) (a : Analysis) :
    (ofAnalysis s a).guard = guardOf (ofAnalysis s a).entities := by
  rw [ofAnalysis_eq]
  exact (guardOf_map (entity_withGuard _) (implementsGuard_withGuard _)
    (fun e _ => referencesGuard_withGuard _ e)).symm

theorem mem_imports_withGuardImport {u : Guard} {e : GeneratedEntity} {name : String} :
    name ∈ (withGuardImport u e).imports ↔
      name ∈ e.imports ∨ u.GivenTo e ∧ name = u.qualifiedName := by
  have hgiven : (e.referencesGuard && u.package.isSome && e.package? != u.package) = true ↔
      u.GivenTo e := by
    rw [Guard.GivenTo,Bool.and_eq_true,Bool.and_eq_true,bne_iff_ne,and_assoc]
  unfold withGuardImport
  split
  · rename_i h
    simp only [Imports.mem_sort,List.mem_append,List.mem_singleton,hgiven.mp h,true_and]
  · rename_i h
    simp only [mt hgiven.mpr h,false_and,or_false]

/-- A generated entity imports the library types that its members name, and the guard where that
stands in another package. -/
theorem mem_imports_iff {e : GeneratedEntity} (he : e ∈ (ofAnalysis s a).entities) {name : String} :
    name ∈ e.imports ↔ name ∈ libraryTypes s a e.entity ∨
      ∃ u, (ofAnalysis s a).guard = some u ∧ u.GivenTo e ∧ name = u.qualifiedName := by
  rw [ofAnalysis_eq] at he ⊢
  obtain ⟨d,hd,rfl⟩ := List.mem_map.mp he
  obtain ⟨entity,-,rfl⟩ := List.mem_map.mp (List.mem_of_mem_filter hd)
  have hlibrary : name ∈ (entityOf s a entity).imports ↔ name ∈ libraryTypes s a entity :=
    Imports.mem_sorted
  have hname : (withGuard (guardOf (drafts s a)) (entityOf s a entity)).entity = entity :=
    entity_withGuard _ _
  have hgiven : ∀ u : Guard,
      u.GivenTo (withGuard (guardOf (drafts s a)) (entityOf s a entity)) ↔
        u.GivenTo (entityOf s a entity) := by
    intro u
    rw [Guard.GivenTo,referencesGuard_withGuard,package_withGuard,Guard.GivenTo]
  simp only [hname,hgiven]
  cases guardOf (drafts s a) with
  | none => simp [withGuard,hlibrary]
  | some u => simp [withGuard,mem_imports_withGuardImport,hlibrary]

/-- The guard is in scope of an entity that uses it when they lie in one package, or when it can be
imported at all. -/
theorem inScope_iff {e : GeneratedEntity} (he : e ∈ (ofAnalysis s a).entities) {u : Guard}
    (hu : (ofAnalysis s a).guard = some u) (href : e.referencesGuard = true) :
    u.InScope e ↔ e.package? = u.package ∨ u.Importable := by
  constructor
  · exact Or.imp_right And.right
  · intro h
    by_cases hsame : e.package? = u.package
    · exact .inl hsame
    · have himportable := h.resolve_left hsame
      obtain ⟨package,hpackage,-⟩ := himportable
      refine .inr ⟨(mem_imports_iff he).mpr (.inr ⟨u,hu,⟨href,?_,hsame⟩,rfl⟩),h.resolve_left hsame⟩
      rw [hpackage]
      rfl

/-- There is a guard as soon as an entity uses it. -/
theorem exists_guard {e : GeneratedEntity} (he : e ∈ (ofAnalysis s a).entities)
    (href : e.referencesGuard = true) : (ofAnalysis s a).guard.isSome = true := by
  have hfound : ((ofAnalysis s a).entities.find? (·.referencesGuard)).isSome = true :=
    List.find?_isSome.mpr ⟨e,he,href⟩
  rw [guard_ofAnalysis,guardOf,Option.isSome_map,Option.isSome_or,hfound,Bool.or_true]

end Synthesis

namespace Generation

/-- The guard exists where an entity implements or checks it. It is in scope of all of them exactly
when the first one that implements it, or else the first that checks it, lies in a named package or
in that of all others. -/
theorem guard_in_scope_iff {cancelled : Bool} {s : Settings} {c : Catalog} {g : Generation}
    (h : run cancelled s c = .ok g) :
    ((∃ e ∈ g.synthesis.entities, e.referencesGuard = true) → g.synthesis.guard.isSome = true) ∧
    ((∀ u, g.synthesis.guard = some u → ∀ e ∈ g.synthesis.entities, e.referencesGuard = true →
      u.InScope e) ↔
    ∀ host, (g.synthesis.entities.find? (·.implementsGuard)).or
        (g.synthesis.entities.find? (·.referencesGuard)) = some host →
      (∃ package, host.package? = some package ∧ package ≠ "") ∨
      ∀ e ∈ g.synthesis.entities, e.referencesGuard = true → e.package? = host.package?) := by
  obtain rfl := eq_of_run h
  have hguard := Synthesis.guard_ofAnalysis s (.ofCatalog s c)
  refine ⟨fun ⟨e,he,href⟩ => Synthesis.exists_guard he href,?_⟩
  constructor
  · intro hscope host hhost
    have hu : (ofCatalog s c).synthesis.guard = some ⟨host.package?⟩ := by
      rw [ofCatalog,hguard,Synthesis.guardOf]
      exact congrArg (Option.map _) hhost
    by_cases hnamed : ∃ package, host.package? = some package ∧ package ≠ ""
    · exact .inl hnamed
    · refine .inr (fun e he href => ?_)
      exact ((Synthesis.inScope_iff he hu href).mp (hscope _ hu e he href)).resolve_right hnamed
  · intro hhosts u hu e he href
    obtain ⟨host,hhost,rfl⟩ := Option.map_eq_some_iff.mp (hguard.symm.trans hu)
    apply (Synthesis.inScope_iff he hu href).mpr
    exact (hhosts host hhost).elim .inr (fun hall => .inl (hall e he href))

/-- Departments and their managers, in two packages. -/
def managedDepartment : Catalog :=
  .ofList [
    { name := "com.acme.Department", fields := [
      { name := "manager", type := "Manager", annotations := [⟨"OneToOne",""⟩] }] },
    { name := "com.acme.staff.Manager", fields := [
      { name := "department", type := "Department",
        annotations := [⟨"OneToOne","mappedBy = \"manager\""⟩] }] }]

/-- The guard stands beside departments, and managers import it. -/
theorem managedDepartment_guard_in_scope :
    run false {} managedDepartment = .ok (ofCatalog {} managedDepartment) ∧
    (ofCatalog {} managedDepartment).synthesis.guard = some ⟨some "com.acme"⟩ ∧
    ∀ e ∈ (ofCatalog {} managedDepartment).synthesis.entities, e.referencesGuard = true →
      Guard.InScope ⟨some "com.acme"⟩ e := by
  have hrun : run false {} managedDepartment = .ok (ofCatalog {} managedDepartment) := rfl
  have hguard : (ofCatalog {} managedDepartment).synthesis.guard = some ⟨some "com.acme"⟩ := by
    decide +kernel
  have hhost : (((ofCatalog {} managedDepartment).synthesis.entities.find?
      (·.implementsGuard)).or ((ofCatalog {} managedDepartment).synthesis.entities.find?
      (·.referencesGuard))).map (·.package?) = some (some "com.acme") := by
    decide +kernel
  refine ⟨hrun,hguard,(guard_in_scope_iff hrun).2.mpr (fun host h => ?_) _ hguard⟩
  rw [h] at hhost
  exact .inl ⟨"com.acme",Option.some.inj hhost,by decide⟩

/-- Folders within folders, outside of all packages, and employees with a manager. -/
def filedEmployee : Catalog :=
  .ofList [
    { name := "Folder", fields := [
      { name := "parent", type := "Folder", annotations := [⟨"ManyToOne",""⟩] }] },
    { name := "com.acme.Employee", fields := [
      { name := "manager", type := "Employee", annotations := [⟨"ManyToOne",""⟩] }] }]

/-- The guard stands beside folders, from where employees cannot import it. -/
theorem exists_guard_out_of_scope : ¬ ∀ (cancelled : Bool) (s : Settings) (c : Catalog)
    (g : Generation), run cancelled s c = .ok g →
    ((∃ e ∈ g.synthesis.entities, e.referencesGuard = true) → g.synthesis.guard.isSome = true) ∧
    ∀ u, g.synthesis.guard = some u → ∀ e ∈ g.synthesis.entities, e.referencesGuard = true →
      u.InScope e := by
  intro hall
  have hrun : run false {} filedEmployee = .ok (ofCatalog {} filedEmployee) := rfl
  have hguard : (ofCatalog {} filedEmployee).synthesis.guard = some ⟨none⟩ := by decide +kernel
  have hemployee : ∃ e ∈ (ofCatalog {} filedEmployee).synthesis.entities,
      e.referencesGuard = true ∧ e.package? = some "com.acme" := by
    decide +kernel
  obtain ⟨e,he,href,hpackage⟩ := hemployee
  rcases (hall _ _ _ _ hrun).2 _ hguard e he href with hsame | ⟨-,package,hnone,-⟩
  · cases hpackage.symm.trans hsame
  · cases hnone

end Generation

end EntityLink
