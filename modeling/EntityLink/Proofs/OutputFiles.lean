import EntityLink.Proofs.GeneratedEntities
import EntityLink.Proofs.WrittenFiles

namespace EntityLink
open Text CommandLine

namespace Analysis

/-- Whether there is anything to generate for an entity: members for its links, or annotations
for its place in a tree of entities. -/
def generates (a : Analysis) (entity : String) : Bool :=
  !(a.linksOf entity).isEmpty ||
    (a.relationshipsOf entity).any (fun r =>
      r.kind == .inheritance && !r.inheritanceAnnotations.isEmpty)

end Analysis

/-- The end of the names of all files but that of the guard. -/
def memberSuffix : String := ".relationships.java"

namespace Synthesis
open Analysis

variable {s : Settings} {c : Catalog} {entity : String} {width : Nat}

theorem generates_iff (s : Settings) (c : Catalog) (entity : String) :
    (ofCatalog s c).generates entity = true ↔
      (entityOf s (ofCatalog s c) entity).isEmpty = false := by
  rw [← Bool.not_eq_true,isEmpty_entityOf_iff,generates,Bool.or_eq_true]
  simp only [Bool.not_eq_true',List.isEmpty_eq_false_iff,List.any_eq_true,Bool.and_eq_true,
    beq_iff_eq,not_and,not_forall]
  constructor
  · rintro (hlinks | ⟨r,hr,hkind,hannotations⟩) hnone
    · exact absurd hnone hlinks
    · exact ⟨r,hr,hkind,hannotations⟩
  · intro h
    by_cases hlinks : (ofCatalog s c).linksOf entity = []
    · obtain ⟨r,hr,hkind,hannotations⟩ := h hlinks
      exact .inr ⟨r,hr,hkind,hannotations⟩
    · exact .inl hlinks

/-- The entities that come out are those with something to generate. -/
theorem mem_entities_iff : entity ∈ (ofAnalysis s (ofCatalog s c)).entities.map
      GeneratedEntity.entity ↔
    entity ∈ (ofCatalog s c).entities.map AnalyzedEntity.name ∧
      (ofCatalog s c).generates entity = true := by
  rw [generates_iff]
  constructor
  · intro h
    obtain ⟨e,he,rfl⟩ := List.mem_map.mp h
    obtain ⟨hname,hfull,-⟩ := exists_entityOf he
    exact ⟨hname,hfull⟩
  · rintro ⟨hname,hfull⟩
    obtain ⟨e,he,rfl⟩ := exists_generated hname hfull
    exact List.mem_map_of_mem he

/-- No file of members has the name of the guard's. -/
theorem ne_guardFile (name : String) : name ++ memberSuffix ≠ guardInterface ++ ".java" := by
  intro heq
  have hsuffix : memberSuffix.toList <:+ (guardInterface ++ ".java").toList := by
    rw [← heq,String.toList_append]
    exact List.suffix_append name.toList memberSuffix.toList
  exact absurd hsuffix (by decide)

theorem names_files (width : Nat) (x : Synthesis) : (x.files width).map SourceFile.name =
    (x.entities.map GeneratedEntity.entity).map (fun n => simpleName n ++ memberSuffix) ++
      (x.guard.map (fun _ => guardInterface ++ ".java")).toList := by
  rw [files,List.map_append,List.map_map,List.map_map]
  cases x.guard <;> rfl

theorem simpleName_eq_of_file {n n' : String}
    (h : simpleName n ++ memberSuffix = simpleName n' ++ memberSuffix) :
    simpleName n = simpleName n' := by
  have hchars := congrArg String.toList h
  rw [String.toList_append,String.toList_append] at hchars
  exact String.toList_inj.mp (List.append_cancel_right hchars)

theorem nodup_files_iff (width : Nat) {x : Synthesis}
    (hnodup : (x.entities.map GeneratedEntity.entity).Nodup) :
    ((x.files width).map SourceFile.name).Nodup ↔
      ∀ n ∈ x.entities.map GeneratedEntity.entity, ∀ n' ∈ x.entities.map GeneratedEntity.entity,
        simpleName n = simpleName n' → n = n' := by
  have hguard : (x.guard.map (fun _ => guardInterface ++ ".java")).toList.Nodup := by
    cases x.guard with
    | none => exact List.nodup_nil
    | some g => exact List.nodup_singleton _
  have hapart : ∀ f ∈ (x.entities.map GeneratedEntity.entity).map
      (fun n => simpleName n ++ memberSuffix),
      ∀ f' ∈ (x.guard.map (fun _ => guardInterface ++ ".java")).toList, f ≠ f' := by
    intro f hf f' hf'
    obtain ⟨n,-,rfl⟩ := List.mem_map.mp hf
    obtain ⟨g,-,rfl⟩ := Option.map_eq_some_iff.mp (Option.mem_toList.mp hf')
    exact ne_guardFile _
  rw [names_files,List.nodup_append,List.nodup_map_iff_inj_on hnodup]
  constructor
  · rintro ⟨hall,-,-⟩ n hn n' hn' hsimple
    exact hall n hn n' hn' (by rw [hsimple])
  · intro hall
    exact ⟨fun n hn n' hn' hfile => hall n hn n' hn' (simpleName_eq_of_file hfile),hguard,hapart⟩

theorem plain_of_suffix {name : String} (hname : '/' ∉ name.toList) {e : String}
    (he : '/' ∉ e.toList) (hlength : 2 < e.length) : Plain (name ++ e) := by
  have hlong : 2 < (name ++ e).length := by
    rw [String.length_append]
    omega
  refine ⟨?_,by simp [hname,he],?_,?_⟩
  · intro heq
    exact absurd (heq ▸ hlong) (by decide)
  · intro heq
    exact absurd (heq ▸ hlong) (by decide)
  · intro heq
    exact absurd (heq ▸ hlong) (by decide)

theorem plain_files (width : Nat) {x : Synthesis}
    (hslash : ∀ e ∈ x.entities, '/' ∉ e.entity.toList) : ∀ f ∈ x.files width, Plain f.name := by
  intro f hf
  rw [files,List.mem_append] at hf
  rcases hf with hf | hf
  · obtain ⟨e,he,rfl⟩ := List.mem_map.mp hf
    refine plain_of_suffix (fun hmem => hslash e he ?_) (by decide) (by decide)
    rw [GeneratedEntity.simple,simpleName,String.toList_ofList,List.mem_reverse] at hmem
    exact List.mem_reverse.mp ((List.takeWhile_prefix _).subset hmem)
  · obtain ⟨g,-,rfl⟩ := Option.map_eq_some_iff.mp (Option.mem_toList.mp hf)
    exact plain_of_suffix (by decide) (by decide) (by decide)

end Synthesis

namespace Generation

/-- The names of the files that come out are distinct exactly where no two entities with anything
to generate have one simple name, whatever their packages. Then, with no slash in the names of
entities, what is written into a directory is all there in the end. -/
theorem nodup_fileNames_iff {cancelled : Bool} {s : Settings} {c : Catalog} {g : Generation}
    (h : run cancelled s c = .ok g) :
    (((g.synthesis.files s.indentWidth).map SourceFile.name).Nodup ↔
      ∀ n ∈ g.analysis.entities.map AnalyzedEntity.name,
        ∀ n' ∈ g.analysis.entities.map AnalyzedEntity.name, n ≠ n' →
        g.analysis.generates n = true → g.analysis.generates n' = true →
        simpleName n ≠ simpleName n') ∧
    (((g.synthesis.files s.indentWidth).map SourceFile.name).Nodup →
      (∀ e ∈ g.synthesis.entities, '/' ∉ e.entity.toList) →
      ∀ (home : Option String) (environment : List (String × String)) (directory : String)
        (t t' : FileTree),
        (writeFiles (FileTree.host home environment) directory
          (g.synthesis.files s.indentWidth)).run.run t = (.ok (),t') →
        ∀ f ∈ g.synthesis.files s.indentWidth,
          t'.read (within directory f.name) = .ok f.contents) := by
  obtain rfl := eq_of_run h
  constructor
  · have hnodup := (Analysis.nodup_entities s c).sublist
      (Synthesis.entities_sublist s (Analysis.ofCatalog s c))
    refine (Synthesis.nodup_files_iff s.indentWidth hnodup).trans ?_
    constructor
    · intro hall n hn n' hn' hne hgen hgen' hsimple
      exact hne (hall n (Synthesis.mem_entities_iff.mpr ⟨hn,hgen⟩) n'
        (Synthesis.mem_entities_iff.mpr ⟨hn',hgen'⟩) hsimple)
    · intro hall n hn n' hn' hsimple
      obtain ⟨hname,hgen⟩ := Synthesis.mem_entities_iff.mp hn
      obtain ⟨hname',hgen'⟩ := Synthesis.mem_entities_iff.mp hn'
      by_contra hne
      exact hall n hname n' hname' hne hgen hgen' hsimple
  · intro hnodup hslash home environment directory t t' hwrite
    obtain ⟨t₀,hwrites⟩ := FileTree.exists_writes hwrite
    exact hwrites.read_eq (Synthesis.plain_files s.indentWidth hslash) hnodup

/-- Orders and their lines, in two packages. -/
def packagedOrders : Catalog :=
  .ofList [
    { name := "com.sales.Order", fields := [
      { name := "lines", type := "List<Line>",
        annotations := [⟨"OneToMany","mappedBy = \"order\""⟩] }] },
    { name := "com.stock.Line", fields := [
      { name := "order", type := "Order", annotations := [⟨"ManyToOne",""⟩] }] }]

/-- The files of both, and of the guard, are there after they were written. -/
theorem packagedOrders_files :
    run false {} packagedOrders = .ok (ofCatalog {} packagedOrders) ∧
    ((ofCatalog {} packagedOrders).synthesis.files 4).map SourceFile.name =
      ["Order.relationships.java","Line.relationships.java","CircularReferenceGuard.java"] ∧
    (((ofCatalog {} packagedOrders).synthesis.files 4).map SourceFile.name).Nodup ∧
    (∀ e ∈ (ofCatalog {} packagedOrders).synthesis.entities, '/' ∉ e.entity.toList) ∧
    ((writeFiles (FileTree.host none []) "out"
      ((ofCatalog {} packagedOrders).synthesis.files 4)).run.run ⟨"/orders",[],[]⟩).1 = .ok () ∧
    ∀ f ∈ (ofCatalog {} packagedOrders).synthesis.files 4,
      ((writeFiles (FileTree.host none []) "out"
        ((ofCatalog {} packagedOrders).synthesis.files 4)).run.run ⟨"/orders",[],[]⟩).2.read
          (within "out" f.name) = .ok f.contents := by
  have hrun : run false {} packagedOrders = .ok (ofCatalog {} packagedOrders) := rfl
  have hnodup := (nodup_fileNames_iff hrun).1.mpr (by decide +kernel)
  have hslash : ∀ e ∈ (ofCatalog {} packagedOrders).synthesis.entities,
      '/' ∉ e.entity.toList := by
    decide +kernel
  have hwritten : ((writeFiles (FileTree.host none []) "out"
      ((ofCatalog {} packagedOrders).synthesis.files 4)).run.run ⟨"/orders",[],[]⟩).1 = .ok () := by
    decide +kernel
  exact ⟨hrun,by decide +kernel,hnodup,hslash,hwritten,
    (nodup_fileNames_iff hrun).2 hnodup hslash none [] "out" _ _ (Prod.ext hwritten rfl)⟩

/-- Shelves and drawers, each with an item of its own package. -/
def twoItems : Catalog :=
  .ofList [
    { name := "com.shelf.Item", fields := [
      { name := "shelf", type := "Shelf", annotations := [⟨"ManyToOne",""⟩] }] },
    { name := "com.drawer.Item", fields := [
      { name := "drawer", type := "Drawer", annotations := [⟨"ManyToOne",""⟩] }] },
    { name := "com.shelf.Shelf" },
    { name := "com.drawer.Drawer" }]

/-- Both items come out under one name. -/
theorem exists_fileName_twice : ¬ ∀ (cancelled : Bool) (s : Settings) (c : Catalog)
    (g : Generation), run cancelled s c = .ok g →
    ((g.synthesis.files s.indentWidth).map SourceFile.name).Nodup := by
  intro hall
  have hrun : run false {} twoItems = .ok (ofCatalog {} twoItems) := rfl
  have hnodup := hall _ _ _ _ hrun
  revert hnodup
  decide +kernel

end Generation

end EntityLink
