import EntityLink.Proofs.CallResolution

namespace EntityLink
open Java

/-- Elements that give nothing may be left out. -/
theorem flatMap_eq_flatMap_filter {α β : Type} {l : List α} {g : α → List β} (p : α → Bool)
    (h : ∀ a ∈ l, p a = false → g a = []) : l.flatMap g = (l.filter p).flatMap g := by
  induction l with
  | nil => rfl
  | cons a l ih =>
    have ih := ih (fun b hb => h b (List.mem_cons_of_mem a hb))
    cases hp : p a with
    | true => rw [List.filter_cons_of_pos hp,List.flatMap_cons,List.flatMap_cons,ih]
    | false =>
      rw [List.filter_cons_of_neg (by simp [hp]),List.flatMap_cons,h a List.mem_cons_self hp,
        List.nil_append,ih]

theorem flatMap_eq_map_filter {α β : Type} {l : List α} {g : α → List β} {f : α → β}
    (p : α → Bool) (h : ∀ a ∈ l, p a = false → g a = [])
    (hp : ∀ a ∈ l, p a = true → g a = [f a]) : l.flatMap g = (l.filter p).map f := by
  rw [flatMap_eq_flatMap_filter p h,List.map_eq_flatMap]
  apply List.flatMap_congr
  intro a ha
  obtain ⟨hmem,hpa⟩ := List.mem_filter.mp ha
  exact hp a hmem hpa

theorem forall_mem_ite_nil {α : Type} {p : Prop} [Decidable p] {l : List α} {P : α → Prop}
    (h : p → ∀ a ∈ l, P a) : ∀ a ∈ (if p then l else []), P a := by
  intro a ha
  obtain ⟨hp,hmem⟩ := List.mem_ite_nil_right.mp ha
  exact h hp a hmem

theorem map_ite_nil_sublist {α β : Type} {p : Prop} [Decidable p] (f : α → β) (l : List α) :
    ((if p then l else []).map f).Sublist (l.map f) := by
  split
  · exact List.Sublist.refl _
  · exact List.nil_sublist _

namespace Relationship

/-- Whether a relationship gets members: inheritance links do not, and neither does what leads
nowhere. -/
def bearsMembers (r : Relationship) : Bool :=
  r.kind != .inheritance && r.hasTarget

/-- The style of the accessors of a relationship that gets members. -/
def style (r : Relationship) : AccessorStyle :=
  (AccessorStyle.of? r.kind).getD .plain

/-- Whether a relationship is left without members because it leads nowhere. -/
def isStranded (r : Relationship) : Bool :=
  r.kind != .inheritance && !r.hasTarget

end Relationship

/-- Which accessors a field gets: those of many entities or of a collection of values where it
holds many, those of one entity or of one value where it does not. -/
theorem Link.accessors_cases (l : Link) :
    (l.kind.isCollectionValued = true ∧
      (l.accessors l.relationship.style = l.manyAccessors ∨
        l.kind = .composition ∧ l.accessors l.relationship.style = l.collectionAccessors)) ∨
    (l.kind.isCollectionValued = false ∧
      (l.accessors l.relationship.style = l.singleAccessors ∨
        l.kind ≠ .oneToOne ∧
          l.accessors l.relationship.style = [l.singleGetter,l.plainSetter])) := by
  have hstyle : l.relationship.style = (AccessorStyle.of? l.kind).getD .plain := rfl
  rw [hstyle]
  cases hk : l.kind with
  | none | inheritance | embedded =>
    exact .inr ⟨rfl,.inr ⟨RelationKind.noConfusion,
      by simp [AccessorStyle.of?,accessors,plainAccessors,hk]⟩⟩
  | composition =>
    exact .inl ⟨rfl,.inr ⟨rfl,by simp [AccessorStyle.of?,accessors,plainAccessors,hk]⟩⟩
  | oneToMany | manyToMany => exact .inl ⟨rfl,.inl rfl⟩
  | oneToOne | manyToOne => exact .inr ⟨rfl,.inl rfl⟩

namespace Analysis

variable {s : Settings} {c : Catalog} {r : Relationship}

/-- The relationships of an entity that get members. -/
def linksOf (a : Analysis) (entity : String) : List Relationship :=
  (a.relationshipsOf entity).filter Relationship.bearsMembers

/-- What is reported of a relationship that leads nowhere. -/
def strandedFinding (severity : Severity) (r : Relationship) : Finding :=
  ⟨severity,.unresolvedTarget,r.source,some r.field,
    r.kind.label ++ " field of type '" ++ r.fieldType ++
      "' has no resolvable target entity; no code is generated for it"⟩

/-- All kinds of fields have accessors. -/
theorem of_style (hr : r ∈ (ofCatalog s c).relationships) (hkind : r.kind ≠ .inheritance) :
    AccessorStyle.of? r.kind = some r.style := by
  obtain ⟨q,hq,hsettles⟩ := exists_classified hr
  have hkinds : q.kind = r.kind := congrArg RelationshipKey.kind hsettles.key_eq
  obtain ⟨e,-,-,hq | ⟨f,-,hq⟩⟩ := mem_classified.mp hq
  · exact absurd (hkinds.symm.trans (Catalog.inheritanceLink_key hq).2.2) hkind
  · have hall : ∀ k ∈ Catalog.mappings.map Prod.snd,
        AccessorStyle.of? k = some ((AccessorStyle.of? k).getD .plain) := by
      decide
    exact hall r.kind (hkinds ▸ Catalog.relationship_kind_mem hq)

theorem styleOf_of_bearsMembers (hr : r ∈ (ofCatalog s c).relationships)
    (h : r.bearsMembers = true) : Synthesis.styleOf? r = some r.style := by
  obtain ⟨hkind,htarget⟩ := Bool.and_eq_true_iff.mp h
  rw [Synthesis.styleOf?,if_pos htarget,of_style hr (bne_iff_ne.mp hkind)]

theorem styleOf_of_no_members (h : r.bearsMembers = false) : Synthesis.styleOf? r = none := by
  unfold Synthesis.styleOf?
  cases htarget : r.hasTarget with
  | false => rfl
  | true =>
    rw [Relationship.bearsMembers,htarget,Bool.and_true,bne_eq_false_iff_eq] at h
    rw [if_pos rfl,h]
    rfl

theorem nodup_entities (s : Settings) (c : Catalog) :
    ((ofCatalog s c).entities.map AnalyzedEntity.name).Nodup := by
  have hnames : (ofCatalog s c).entities.map AnalyzedEntity.name =
      (c.entities.filter (·.kind == .entity)).map Entity.name := by
    rw [ofCatalog,List.map_map]
    rfl
  rw [hnames]
  exact c.nodup.sublist (List.filter_sublist.map _)

theorem unresolved_eq (severity : Severity) (r : Relationship) :
    unresolved severity r = if r.isStranded then [strandedFinding severity r] else [] :=
  rfl

/-- What is reported as unresolved are the relationships that lead nowhere. -/
theorem ofKind_unresolved_findingsOf (severity : Severity) (rs : List Relationship)
    (as : List Ambiguity) : Finding.ofKind .unresolvedTarget (findingsOf severity rs as) =
      (rs.filter Relationship.isStranded).map (strandedFinding severity) := by
  have hambiguous : (as.map (ambiguous severity)).filter (·.kind == .unresolvedTarget) = [] := by
    apply List.filter_eq_nil_iff.mpr
    rintro f hf
    obtain ⟨x,-,rfl⟩ := List.mem_map.mp hf
    exact Bool.false_ne_true
  have hattributed : ∀ r, (attributed r).filter (·.kind == .unresolvedTarget) = [] := by
    intro r
    unfold attributed
    split
    · rfl
    · rfl
  rw [Finding.ofKind,findingsOf,List.filter_append,hambiguous,List.append_nil,List.filter_flatMap]
  apply flatMap_eq_map_filter
  · intro r _ hr
    rw [List.filter_append,hattributed,unresolved_eq,hr]
    rfl
  · intro r _ hr
    rw [List.filter_append,hattributed,unresolved_eq,hr]
    rfl

end Analysis

namespace Synthesis
open Analysis

/-- The members that a relationship gets. -/
def membersOf (s : Settings) (a : Analysis) (r : Relationship) : List Method :=
  (Link.new s r (a.findInverse? r)).accessors r.style ++
    (if s.generateHelpers then (Link.new s r (a.findInverse? r)).helpers else [])

/-- The members of an entity are those of the relationships `rs`, one by one in order: a field
for each, then the accessors and helpers of each. Only validators follow, where there are any
fields to validate. -/
structure Composed (s : Settings) (a : Analysis) (rs : List Relationship) (e : GeneratedEntity) :
    Prop where
  styles : ∀ r ∈ rs, AccessorStyle.of? r.kind = some r.style
  fields : e.fields = rs.map (fun r => (Link.new s r (a.findInverse? r)).fieldDecl)
  names : e.fields.map FieldDecl.name = rs.map Relationship.field
  methods : ∃ validators : List Method, (∀ m ∈ validators, m.kind = .validator) ∧
    (rs = [] → validators = []) ∧ e.methods = rs.flatMap (membersOf s a) ++ validators

section Entities

variable {s : Settings} {c : Catalog} {entity : String}

theorem mem_linksOf {a : Analysis} {r : Relationship} :
    r ∈ a.linksOf entity ↔ r ∈ a.relationships ∧ r.source = entity ∧ r.bearsMembers = true := by
  simp only [linksOf,relationshipsOf,List.mem_filter,beq_iff_eq,and_assoc]

/-- The fields of an entity are those of its links. -/
theorem fields_entityOf (s : Settings) (c : Catalog) (entity : String) :
    (entityOf s (ofCatalog s c) entity).fields = ((ofCatalog s c).linksOf entity).map
      (fun r => (Link.new s r ((ofCatalog s c).findInverse? r)).fieldDecl) := by
  simp only [entityOf,partsOf,List.flatMap_map]
  apply flatMap_eq_map_filter
  · intro r _ hr
    exact (partOf_of_no_style _ _ (styleOf_of_no_members hr)).1
  · intro r hmem hr
    rw [partOf_of_style _ _ (styleOf_of_bearsMembers (List.mem_of_mem_filter hmem) hr)]

theorem methods_partsOf (s : Settings) (c : Catalog) (entity : String) :
    (partsOf s (ofCatalog s c) entity).flatMap (·.methods) =
      ((ofCatalog s c).linksOf entity).flatMap (membersOf s (ofCatalog s c)) := by
  rw [partsOf,List.flatMap_map,linksOf,flatMap_eq_flatMap_filter Relationship.bearsMembers]
  · apply List.flatMap_congr
    intro r hr
    obtain ⟨hmem,hbears⟩ := List.mem_filter.mp hr
    rw [partOf_of_style _ _ (styleOf_of_bearsMembers (List.mem_of_mem_filter hmem) hbears)]
    rfl
  · intro r _ hr
    exact (partOf_of_no_style _ _ (styleOf_of_no_members hr)).2.1

/-- Entities with links are validated where validators are wanted. -/
theorem validated_iff (s : Settings) (c : Catalog) (entity : String) :
    validated s (partsOf s (ofCatalog s c) entity) = true ↔
      s.generateValidation = true ∧ (ofCatalog s c).linksOf entity ≠ [] := by
  have hfields := fields_entityOf s c entity
  rw [validated,Bool.and_eq_true,and_congr_right_iff]
  intro _
  rw [← not_iff_not,not_not,Bool.not_eq_true,List.any_eq_false,← List.map_eq_nil_iff,← hfields,
    entityOf,List.flatMap_eq_nil_iff]
  simp

/-- The methods of an entity are the members of its links, and validators behind them. -/
theorem methods_entityOf (s : Settings) (c : Catalog) (entity : String) :
    (entityOf s (ofCatalog s c) entity).methods =
      ((ofCatalog s c).linksOf entity).flatMap (membersOf s (ofCatalog s c)) ++
      (if s.generateValidation = true ∧ (ofCatalog s c).linksOf entity ≠ [] then
        Validators.methodsOf s (ofCatalog s c) entity else []) := by
  simp only [entityOf,methods_partsOf,validated_iff]

theorem composed_entityOf (s : Settings) (c : Catalog) (entity : String) :
    Composed s (ofCatalog s c) ((ofCatalog s c).linksOf entity)
      (entityOf s (ofCatalog s c) entity) := by
  refine ⟨?_,fields_entityOf s c entity,?_,?_⟩
  · intro r hr
    obtain ⟨hmem,-,hbears⟩ := mem_linksOf.mp hr
    exact of_style hmem (bne_iff_ne.mp (Bool.and_eq_true_iff.mp hbears).1)
  · rw [fields_entityOf,List.map_map]
    rfl
  · refine ⟨_,fun m hm => ?_,fun hnone => ?_,methods_entityOf s c entity⟩
    · exact (Validators.of_mem_methodsOf (List.mem_ite_nil_right.mp hm).2).1
    · exact if_neg (fun h => h.2 hnone)

theorem annotations_partOf (s : Settings) (a : Analysis) (r : Relationship) :
    (partOf s a r).annotations = if r.kind = .inheritance then r.inheritanceAnnotations else [] := by
  unfold partOf
  split
  · rfl
  · split
    · rfl
    · split
      · rfl
      · rfl

/-- An entity gets nothing when it has no links and no annotations for its place in a tree of
entities. -/
theorem isEmpty_entityOf_iff (s : Settings) (c : Catalog) (entity : String) :
    (entityOf s (ofCatalog s c) entity).isEmpty = true ↔
      (ofCatalog s c).linksOf entity = [] ∧ ∀ r ∈ (ofCatalog s c).relationshipsOf entity,
        r.kind = .inheritance → r.inheritanceAnnotations = [] := by
  have hannotations : (entityOf s (ofCatalog s c) entity).annotations = [] ↔
      ∀ r ∈ (ofCatalog s c).relationshipsOf entity,
        r.kind = .inheritance → r.inheritanceAnnotations = [] := by
    simp only [entityOf,partsOf,List.flatMap_map,List.flatMap_eq_nil_iff,annotations_partOf,
      ite_eq_right_iff]
  have hcomposed := composed_entityOf s c entity
  simp only [GeneratedEntity.isEmpty,Bool.and_eq_true,List.isEmpty_iff,hannotations]
  constructor
  · rintro ⟨⟨hfields,-⟩,hnone⟩
    rw [hcomposed.fields,List.map_eq_nil_iff] at hfields
    exact ⟨hfields,hnone⟩
  · rintro ⟨hlinks,hnone⟩
    obtain ⟨validators,-,hvalidators,hmethods⟩ := hcomposed.methods
    rw [hcomposed.fields,hmethods,hvalidators hlinks,hlinks]
    exact ⟨⟨rfl,rfl⟩,hnone⟩

/-- Entities that get nothing are left out, and no others. -/
theorem missing_iff (h : entity ∈ (ofCatalog s c).entities.map AnalyzedEntity.name) :
    (∀ e ∈ (ofAnalysis s (ofCatalog s c)).entities, e.entity ≠ entity) ↔
      (entityOf s (ofCatalog s c) entity).isEmpty = true := by
  constructor
  · intro hmissing
    by_contra hfull
    obtain ⟨e,he,hname⟩ := exists_generated h (eq_false_of_ne_true hfull)
    exact hmissing e he hname
  · rintro hempty e he rfl
    obtain ⟨-,hfull,-⟩ := exists_entityOf he
    exact Bool.false_ne_true (hfull.symm.trans hempty)

theorem composed_of_mem {e : GeneratedEntity}
    (h : e ∈ (ofAnalysis s (ofCatalog s c)).entities) :
    Composed s (ofCatalog s c) ((ofCatalog s c).linksOf e.entity) e := by
  have hcomposed := composed_entityOf s c e.entity
  rw [(exists_entityOf h).2.2]
  exact ⟨hcomposed.styles,hcomposed.fields,hcomposed.names,hcomposed.methods⟩

theorem entities_sublist (s : Settings) (a : Analysis) :
    ((ofAnalysis s a).entities.map GeneratedEntity.entity).Sublist
      (a.entities.map AnalyzedEntity.name) := by
  obtain ⟨imports,hentities⟩ := entities_ofAnalysis s a
  have hnames : ((a.entities.map AnalyzedEntity.name).map (entityOf s a)).map
      GeneratedEntity.entity = a.entities.map AnalyzedEntity.name := by
    rw [List.map_map]
    exact List.map_id _
  have hsub := (List.filter_sublist (p := fun e => !e.isEmpty)
    (l := (a.entities.map AnalyzedEntity.name).map (entityOf s a))).map GeneratedEntity.entity
  rw [hnames] at hsub
  rw [hentities,List.map_map]
  exact hsub

theorem ofKind_unresolved_eq_nil (s : Settings) (a : Analysis) :
    Finding.ofKind .unresolvedTarget (ofAnalysis s a).findings = [] := by
  apply List.filter_eq_nil_iff.mpr
  intro f hf
  rw [beq_iff_eq]
  rcases cases_of_mem_findings hf with ⟨-,hkind⟩ | ⟨⟨-,hkind⟩,-⟩ | ⟨hkind,-⟩
  · exact hkind ▸ FindingKind.noConfusion
  · exact hkind ▸ FindingKind.noConfusion
  · exact hkind ▸ FindingKind.noConfusion

end Entities

end Synthesis

namespace Generation

/-- Between analysis and output nothing is lost or doubled. Every relationship belongs to an
analyzed entity, and each of these is generated once at most, in their order. The members of an
entity are those of its links, one by one; it is left out only when it has no links and no
annotations. What leads nowhere is reported, each once, and nothing else is. -/
theorem members_composed {cancelled : Bool} {s : Settings} {c : Catalog} {g : Generation}
    (h : run cancelled s c = .ok g) :
    (∀ r ∈ g.analysis.relationships, r.source ∈ g.analysis.entities.map AnalyzedEntity.name) ∧
    (g.analysis.entities.map AnalyzedEntity.name).Nodup ∧
    (g.synthesis.entities.map GeneratedEntity.entity).Sublist
      (g.analysis.entities.map AnalyzedEntity.name) ∧
    (∀ e ∈ g.synthesis.entities,
      Synthesis.Composed s g.analysis (g.analysis.linksOf e.entity) e) ∧
    (∀ d ∈ g.analysis.entities, (∀ e ∈ g.synthesis.entities, e.entity ≠ d.name) ↔
      g.analysis.linksOf d.name = [] ∧ ∀ r ∈ g.analysis.relationshipsOf d.name,
        r.kind = .inheritance → r.inheritanceAnnotations = []) ∧
    Finding.ofKind .unresolvedTarget (g.analysis.findings ++ g.synthesis.findings) =
      (g.analysis.relationships.filter Relationship.isStranded).map
        (Analysis.strandedFinding (.ofMode s.validationMode)) := by
  obtain rfl := eq_of_run h
  refine ⟨fun r hr => Analysis.source_mem_entities hr,Analysis.nodup_entities s c,
    Synthesis.entities_sublist s _,fun e he => Synthesis.composed_of_mem he,?_,?_⟩
  · intro d hd
    exact (Synthesis.missing_iff (List.mem_map_of_mem hd)).trans
      (Synthesis.isEmpty_entityOf_iff s c d.name)
  · have hanalysis := Analysis.ofKind_unresolved_findingsOf (.ofMode s.validationMode)
      (Analysis.ofCatalog s c).relationships
    have hsynthesis := Synthesis.ofKind_unresolved_eq_nil s (.ofCatalog s c)
    rw [Finding.ofKind] at hsynthesis ⊢
    rw [List.filter_append,ofCatalog,hsynthesis,List.append_nil]
    exact hanalysis _

/-- A shop with items, and with an owner who is no entity. -/
def ownedShop : Catalog :=
  .ofList [
    { name := "Shop", fields := [
      { name := "items", type := "List<Item>", annotations := [⟨"OneToMany",""⟩] },
      { name := "owner", type := "Person", annotations := [⟨"ManyToOne",""⟩] }] },
    { name := "Item" }]

/-- The shop keeps its items, the owner is reported and the item, without fields, left out. -/
theorem ownedShop_composed : run false {} ownedShop = .ok (ofCatalog {} ownedShop) ∧
    (∃ e ∈ (ofCatalog {} ownedShop).synthesis.entities, e.entity = "Shop" ∧
      e.fields.map FieldDecl.name = ["items"]) ∧
    (∀ e ∈ (ofCatalog {} ownedShop).synthesis.entities, e.entity ≠ "Item") ∧
    (Finding.ofKind .unresolvedTarget ((ofCatalog {} ownedShop).analysis.findings ++
      (ofCatalog {} ownedShop).synthesis.findings)).map (fun f => (f.entity,f.field)) =
        [("Shop",some "owner")] := by
  have hrun : run false {} ownedShop = .ok (ofCatalog {} ownedShop) := rfl
  obtain ⟨-,-,-,hcomposed,hmissing,hfindings⟩ := members_composed hrun
  have hentities : (ofCatalog {} ownedShop).analysis.entities.map AnalyzedEntity.name =
      ["Shop","Item"] := by
    decide +kernel
  have hlinks : ((ofCatalog {} ownedShop).analysis.linksOf "Shop").map Relationship.field =
      ["items"] := by
    decide +kernel
  have hnolinks : (ofCatalog {} ownedShop).analysis.relationshipsOf "Item" = [] := by
    decide +kernel
  have hshop : ∃ d ∈ (ofCatalog {} ownedShop).analysis.entities, d.name = "Shop" :=
    List.mem_map.mp (hentities ▸ List.mem_cons_self)
  have hitem : ∃ d ∈ (ofCatalog {} ownedShop).analysis.entities, d.name = "Item" :=
    List.mem_map.mp (hentities ▸ List.mem_cons_of_mem _ List.mem_cons_self)
  refine ⟨hrun,?_,?_,?_⟩
  · obtain ⟨d,hd,hname⟩ := hshop
    have hpresent : ¬ ∀ e ∈ (ofCatalog {} ownedShop).synthesis.entities, e.entity ≠ d.name := by
      intro hnone
      have hempty := ((hmissing d hd).mp hnone).1
      rw [hname] at hempty
      rw [hempty] at hlinks
      cases hlinks
    push Not at hpresent
    obtain ⟨e,he,hentity⟩ := hpresent
    have hnames := (hcomposed e he).names
    rw [hentity,hname,hlinks] at hnames
    exact ⟨e,he,hentity.trans hname,hnames⟩
  · obtain ⟨d,hd,hname⟩ := hitem
    rw [← hname]
    refine (hmissing d hd).mpr ?_
    rw [hname,Analysis.linksOf,hnolinks]
    exact ⟨rfl,fun r hr => absurd hr List.not_mem_nil⟩
  · rw [hfindings]
    decide +kernel

end Generation

end EntityLink
