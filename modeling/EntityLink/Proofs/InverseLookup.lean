import EntityLink.Proofs.AnalysisStages

namespace EntityLink

/-- How the key `x` of a relationship and a later key `y` of the same entity differ: an
inheritance link stands before all others, and only with it may another share its field name. -/
def RelationshipKey.Arranged (x y : RelationshipKey) : Prop :=
  x.source = y.source → y.kind ≠ .inheritance ∧ (x.field = y.field → x.kind = .inheritance)

/-- Each of two relationships is noted as the inverse side of the other. -/
structure Relationship.Partners (r o : Relationship) : Prop where
  facing : Pairing.Facing r o
  left : r.bidirectional = true
  right : o.bidirectional = true
  left_inverse : r.inverseField = some o.field
  right_inverse : o.inverseField = some r.field

theorem Relationship.Partners.symm {r o : Relationship} (h : r.Partners o) : o.Partners r :=
  ⟨h.facing.symm,h.right,h.left,h.right_inverse,h.left_inverse⟩

instance (r o : Relationship) : Decidable (r.Partners o) :=
  decidable_of_iff ((Pairing.isPairable r = true ∧ Pairing.isPairable o = true ∧
      o.source = r.target ∧ o.target = r.source) ∧ r.bidirectional = true ∧
      o.bidirectional = true ∧ r.inverseField = some o.field ∧ o.inverseField = some r.field)
    ⟨fun ⟨⟨h₁,h₂,h₃,h₄⟩,h₅,h₆,h₇,h₈⟩ => ⟨⟨h₁,h₂,h₃,h₄⟩,h₅,h₆,h₇,h₈⟩,
      fun ⟨⟨h₁,h₂,h₃,h₄⟩,h₅,h₆,h₇,h₈⟩ => ⟨⟨h₁,h₂,h₃,h₄⟩,h₅,h₆,h₇,h₈⟩⟩

theorem Pairing.Facing.isAssociation {r o : Relationship} (h : Facing r o) :
    o.kind.isAssociation = true :=
  (Bool.and_eq_true_iff.mp h.right).1

theorem RelationKind.isAssociation_of_isCollection {k : RelationKind}
    (h : k.isCollection = true) : k.isAssociation = true := by
  cases k with
  | none | embedded | inheritance | composition => cases h
  | oneToOne | oneToMany | manyToOne | manyToMany => rfl

theorem RelationKind.ne_inheritance {k : RelationKind} (h : k.isAssociation = true) :
    k ≠ .inheritance := by
  rintro rfl
  cases h

namespace Catalog

theorem mapping_kind_mem {f : Field} {kind : RelationKind} {a : Attributes}
    (h : mapping? f = some (kind,a)) : kind ∈ mappings.map Prod.snd := by
  obtain ⟨m,hm,hmap⟩ := List.exists_of_findSome?_eq_some h
  obtain ⟨b,-,he⟩ := Option.map_eq_some_iff.mp hmap
  obtain ⟨rfl,rfl⟩ := Prod.mk.inj he
  exact List.mem_map_of_mem hm

/-- A field has one of the kinds that mappings have, whether it is annotated with one or not. -/
theorem relationship_kind_mem {c : Catalog} {e : Entity} {f : Field} {r : Relationship}
    (h : c.relationship? e f = some r) : r.kind ∈ mappings.map Prod.snd := by
  unfold relationship? at h
  split at h
  · cases h
  · split at h
    · rename_i kind a hmapping
      cases h
      exact mapping_kind_mem hmapping
    · unfold implicitRelationship? at h
      obtain ⟨target,-,rfl⟩ := Option.map_eq_some_iff.mp h
      have hmany : RelationKind.oneToMany ∈ mappings.map Prod.snd := by decide
      have hone : RelationKind.manyToOne ∈ mappings.map Prod.snd := by decide
      cases (TypeExpr.parse f.type).collectionKind?.isSome with
      | true => exact hmany
      | false => exact hone

theorem relationship_key {c : Catalog} {e : Entity} {f : Field} {r : Relationship}
    (h : c.relationship? e f = some r) :
    r.source = e.name ∧ r.field = f.name ∧ r.kind ≠ .inheritance := by
  have hkind : ∀ k ∈ mappings.map Prod.snd, k ≠ .inheritance := by decide
  have hmem := hkind r.kind (relationship_kind_mem h)
  unfold relationship? at h
  split at h
  · cases h
  · split at h
    · cases h
      exact ⟨rfl,rfl,hmem⟩
    · unfold implicitRelationship? at h
      obtain ⟨target,-,rfl⟩ := Option.map_eq_some_iff.mp h
      exact ⟨rfl,rfl,hmem⟩

theorem inheritanceLink_key {c : Catalog} {e : Entity} {r : Relationship}
    (h : c.inheritanceLink? e = some r) :
    r.source = e.name ∧ r.field = Relationship.superclassField ∧ r.kind = .inheritance := by
  simp only [inheritanceLink?] at h
  split at h
  · cases h
    exact ⟨rfl,rfl,rfl⟩
  · cases h

theorem source_of_mem_classify {c : Catalog} {e : Entity} {r : Relationship}
    (h : r ∈ (c.classify e).relationships) : r.source = e.name := by
  simp only [classify,classifyField,List.mem_append,Option.mem_toList,List.mem_filterMap] at h
  rcases h with h | ⟨f,-,h⟩
  · exact (inheritanceLink_key h).1
  · exact (relationship_key h).1

theorem classify_arranged (c : Catalog) {e : Entity} (h : (e.fields.map Field.name).Nodup) :
    (c.classify e).relationships.Pairwise (fun x y => x.key.Arranged y.key) := by
  rw [classify,List.pairwise_append]
  refine ⟨?_,?_,?_⟩
  · cases c.inheritanceLink? e with
    | none => exact List.Pairwise.nil
    | some r => exact List.pairwise_singleton _ r
  · rw [List.pairwise_filterMap]
    refine (List.pairwise_map.mp h).imp ?_
    intro f g hne x hx y hy _
    obtain ⟨-,hfx,-⟩ := relationship_key hx
    obtain ⟨-,hfy,hky⟩ := relationship_key hy
    refine ⟨hky,fun he => absurd ?_ hne⟩
    exact hfx.symm.trans (he.trans hfy)
  · intro x hx y hy _
    obtain ⟨f,-,hy⟩ := List.mem_filterMap.mp hy
    obtain ⟨-,-,hkx⟩ := inheritanceLink_key (Option.mem_toList.mp hx)
    exact ⟨(relationship_key hy).2.2,fun _ => hkx⟩

end Catalog

namespace Analysis
open Relationship

theorem classified_arranged {c : Catalog}
    (h : ∀ e ∈ c.entities, (e.fields.map Field.name).Nodup) :
    (classified c).Pairwise (fun x y => x.key.Arranged y.key) := by
  rw [classified,List.pairwise_flatMap]
  refine ⟨fun e he => c.classify_arranged (h e (List.mem_of_mem_filter he)),?_⟩
  have hnames : c.entities.Pairwise (fun d e => d.name ≠ e.name) := List.pairwise_map.mp c.nodup
  refine (hnames.filter _).imp ?_
  intro d e hne x hx y hy hsource
  have hd := Catalog.source_of_mem_classify hx
  have he := Catalog.source_of_mem_classify hy
  exact absurd (hd.symm.trans (Eq.trans hsource he)) hne

theorem map_key_relationships (s : Settings) (c : Catalog) :
    (ofCatalog s c).relationships.map key = (classified c).map key := by
  apply List.ext_getElem?
  intro i
  rw [List.getElem?_map,List.getElem?_map]
  cases hq : (classified c)[i]? with
  | none =>
    have hlen := List.getElem?_eq_none_iff.mp hq
    rw [← length_relationships s c] at hlen
    rw [List.getElem?_eq_none_iff.mpr hlen]
  | some q =>
    obtain ⟨r,hr,hsettles⟩ := exists_settled_at s hq
    rw [hr,Option.map_some,Option.map_some,hsettles.key_eq]

section Results

variable {s : Settings} {c : Catalog} {r o : Relationship}

theorem relationships_arranged (s : Settings) {c : Catalog}
    (h : ∀ e ∈ c.entities, (e.fields.map Field.name).Nodup) :
    (ofCatalog s c).relationships.Pairwise (fun x y => x.key.Arranged y.key) := by
  have hclassified := List.pairwise_map.mpr (classified_arranged h)
  rw [← map_key_relationships s c] at hclassified
  exact List.pairwise_map.mp hclassified

/-- Its entity and its field name tell a relationship from all but inheritance links. -/
theorem eq_of_field_eq (h : ∀ e ∈ c.entities, (e.fields.map Field.name).Nodup)
    (hr : r ∈ (ofCatalog s c).relationships) (ho : o ∈ (ofCatalog s c).relationships)
    (hsource : r.source = o.source) (hfield : r.field = o.field) (hkr : r.kind ≠ .inheritance)
    (hko : o.kind ≠ .inheritance) : r = o := by
  have harr := List.pairwise_iff_getElem.mp (relationships_arranged s h)
  obtain ⟨i,hi,rfl⟩ := List.mem_iff_getElem.mp hr
  obtain ⟨j,hj,rfl⟩ := List.mem_iff_getElem.mp ho
  rcases lt_trichotomy i j with hij | rfl | hji
  · exact absurd ((harr i j hi hj hij hsource).2 hfield) hkr
  · rfl
  · exact absurd ((harr j i hj hi hji hsource.symm).2 hfield.symm) hko

theorem field_of_inheritance (hr : r ∈ (ofCatalog s c).relationships)
    (hkind : r.kind = .inheritance) : r.field = superclassField := by
  obtain ⟨q,hq,hsettles⟩ := exists_classified hr
  have hkey := hsettles.key_eq
  have hfield : q.field = r.field := congrArg RelationshipKey.field hkey
  have hqkind : q.kind = r.kind := congrArg RelationshipKey.kind hkey
  obtain ⟨e,-,-,hq | ⟨f,-,hq⟩⟩ := mem_classified.mp hq
  · exact hfield.symm.trans (Catalog.inheritanceLink_key hq).2.1
  · exact absurd (hqkind.trans hkind) (Catalog.relationship_key hq).2.2

theorem readvise_eq (r : Relationship) :
    readvise r = { r with cascade := (readvise r).cascade } := by
  unfold readvise
  split
  · rfl
  · rfl

theorem Partners.readvise {r o : Relationship} (h : r.Partners o) :
    (readvise r).Partners (readvise o) := by
  rw [readvise_eq r,readvise_eq o]
  exact ⟨⟨h.facing.left,h.facing.right,h.facing.source,h.facing.target⟩,h.left,h.right,
    h.left_inverse,h.right_inverse⟩

/-- Every bidirectional relationship has a partner among the results. -/
theorem exists_partner (hr : r ∈ (ofCatalog s c).relationships) (hbi : r.bidirectional = true) :
    ∃ o ∈ (ofCatalog s c).relationships, r.Partners o := by
  obtain ⟨q,hq,rfl⟩ := List.mem_map.mp hr
  obtain ⟨i,hi⟩ := List.mem_iff_getElem?.mp hq
  have hvalid := Pairing.ofRelationships_valid s.inferInverseByName
    (markCircular (classified c) (cyclesOf s (classified c)))
  cases hj : (Pairing.ofRelationships s.inferInverseByName
      (markCircular (classified c) (cyclesOf s (classified c)))).partner? i with
  | none =>
    rw [Pairing.getElem?_apply_of_free hj,getElem?_markCircular] at hi
    obtain ⟨q',hq',rfl⟩ := Option.map_eq_some_iff.mp hi
    have hfresh := classified_unsettled (List.mem_of_getElem? hq')
    rw [marked_eq hfresh.circular,readvise_eq] at hbi
    exact absurd hbi (ne_true_of_eq_false hfresh.bidirectional)
  | some j =>
    obtain ⟨x,y,hx,hy,hfacing,-⟩ := hvalid.linked i j hj
    obtain ⟨o,ho,hout⟩ := Pairing.getElem?_apply_of_partner hvalid hj hx
    obtain ⟨r',hr',hback⟩ := Pairing.getElem?_apply_of_partner hvalid (hvalid.symm i j hj) hy
    obtain rfl : y = o := Option.some.inj (hy.symm.trans ho)
    obtain rfl : x = r' := Option.some.inj (hx.symm.trans hr')
    obtain rfl : q = _ := Option.some.inj (hi.symm.trans hout)
    refine ⟨_,List.mem_map_of_mem (List.mem_of_getElem? hback),Partners.readvise ?_⟩
    exact ⟨⟨hfacing.left,hfacing.right,hfacing.source,hfacing.target⟩,rfl,rfl,rfl,rfl⟩

/-- What a look-up can find: the partner, or an inheritance link in its place. -/
theorem findInverse_cases (h : ∀ e ∈ c.entities, (e.fields.map Field.name).Nodup)
    (hpair : r.Partners o) (ho : o ∈ (ofCatalog s c).relationships) :
    (ofCatalog s c).findInverse? r = some o ∨
      ∃ q ∈ (ofCatalog s c).relationships, (ofCatalog s c).findInverse? r = some q ∧
        q.kind = .inheritance ∧ q.source = r.target ∧ q.target = r.source ∧ q.field = o.field := by
  simp only [findInverse?,hpair.left_inverse,Option.bind_some]
  cases hfind : (ofCatalog s c).relationships.find? (fun x =>
      x.source == r.target && x.target == r.source && x.field == o.field) with
  | none =>
    have hnone := List.find?_eq_none.mp hfind o ho
    simp [hpair.facing.source,hpair.facing.target] at hnone
  | some q =>
    have hmem := List.mem_of_find?_eq_some hfind
    have hmatch := List.find?_some hfind
    simp only [Bool.and_eq_true,beq_iff_eq] at hmatch
    obtain ⟨⟨hsource,htarget⟩,hfield⟩ := hmatch
    by_cases hkind : q.kind = .inheritance
    · exact .inr ⟨q,hmem,rfl,hkind,hsource,htarget,hfield⟩
    · have hassoc := RelationKind.ne_inheritance hpair.facing.isAssociation
      rw [eq_of_field_eq h hmem ho (hsource.trans hpair.facing.source.symm) hfield hkind hassoc]
      exact .inl rfl

/-- Behind an inheritance link between the same two entities, a partner called like it is not
found. -/
theorem findInverse_inheritance (h : ∀ e ∈ c.entities, (e.fields.map Field.name).Nodup)
    {q : Relationship} (hq : q ∈ (ofCatalog s c).relationships) (hkind : q.kind = .inheritance)
    (hsource : q.source = r.target) (htarget : q.target = r.source)
    (hfield : r.inverseField = some superclassField)
    (hfind : (ofCatalog s c).findInverse? r = some o) : o.kind = .inheritance := by
  simp only [findInverse?,hfield,Option.bind_some] at hfind
  obtain ⟨hmatch,before,after,hsplit,hbefore⟩ := List.find?_eq_some_iff_append.mp hfind
  simp only [Bool.and_eq_true,beq_iff_eq] at hmatch
  have harr := relationships_arranged s h
  rw [hsplit,List.pairwise_append,List.pairwise_cons] at harr
  have hqfield := field_of_inheritance hq hkind
  rw [hsplit] at hq
  rcases List.mem_append.mp hq with hq | hq
  · have hno := hbefore q hq
    simp [hsource,htarget,hqfield] at hno
  · rcases List.mem_cons.mp hq with rfl | hq
    · exact hkind
    · -- The link would stand behind a relationship of its own entity.
      have hlater := harr.2.1.1 q hq (hmatch.1.1.trans hsource.symm)
      exact absurd hkind hlater.1

end Results

/-- Looking up inverse sides leads back and forth between the partners of every pair exactly
when no partner is called like an inheritance link between the same two entities. -/
theorem findInverse_involutive_iff {cancelled : Bool} {s : Settings} {c : Catalog} {a : Analysis}
    (h : run cancelled s c = .ok a) (hfields : ∀ e ∈ c.entities, (e.fields.map Field.name).Nodup) :
    (∀ r ∈ a.relationships, r.bidirectional = true → ∃ o, a.findInverse? r = some o ∧
      o.bidirectional = true ∧ o.kind.isAssociation = true ∧ o.inverseField = some r.field ∧
      a.findInverse? o = some r) ↔
    ∀ r ∈ a.relationships, r.bidirectional = true → r.inverseField = some superclassField →
      ∀ q ∈ a.relationships, q.kind = .inheritance → q.source = r.target →
        q.target ≠ r.source := by
  obtain rfl := eq_of_run h
  constructor
  · intro hback r hr hbi hfield q hq hkind hsource htarget
    obtain ⟨o,hfind,-,hassoc,-⟩ := hback r hr hbi
    exact RelationKind.ne_inheritance hassoc
      (findInverse_inheritance hfields hq hkind hsource htarget hfield hfind)
  · intro hfree
    have hfound : ∀ r ∈ (ofCatalog s c).relationships, ∀ o ∈ (ofCatalog s c).relationships,
        r.Partners o → (ofCatalog s c).findInverse? r = some o := by
      intro r hr o ho hpair
      rcases findInverse_cases hfields hpair ho with hfind | ⟨q,hq,-,hkind,hsource,htarget,hqfield⟩
      · exact hfind
      · have hfield : r.inverseField = some superclassField := by
          rw [hpair.left_inverse,← hqfield,field_of_inheritance hq hkind]
        exact absurd htarget (hfree r hr hpair.left hfield q hq hkind hsource)
    intro r hr hbi
    obtain ⟨o,ho,hpair⟩ := exists_partner hr hbi
    exact ⟨o,hfound r hr o ho hpair,hpair.right,hpair.facing.isAssociation,hpair.right_inverse,
      hfound o ho r hr hpair.symm⟩

/-- Settings that leave cycles alone. -/
def uncycled : Settings :=
  { detectCycles := false }

/-- An employee who keeps a manager under the name of an inheritance link, without extending
the manager. -/
def managedEmployee : Catalog :=
  .ofList [
    { name := "Employee", fields := [
      { name := "superclass", type := "Manager", annotations := [⟨"OneToOne",""⟩] }] },
    { name := "Manager", superclass := some "Person", fields := [
      { name := "report", type := "Employee",
        annotations := [⟨"OneToOne","mappedBy = \"superclass\""⟩] }] },
    { name := "Person" }]

theorem managedEmployee_involutive :
    run false uncycled managedEmployee = .ok (ofCatalog uncycled managedEmployee) ∧
    (∀ e ∈ managedEmployee.entities, (e.fields.map Field.name).Nodup) ∧
    (∃ r ∈ (ofCatalog uncycled managedEmployee).relationships, r.bidirectional = true ∧
      r.inverseField = some superclassField) ∧
    ∀ r ∈ (ofCatalog uncycled managedEmployee).relationships, r.bidirectional = true →
      ∃ o, (ofCatalog uncycled managedEmployee).findInverse? r = some o ∧ o.bidirectional = true ∧
        o.kind.isAssociation = true ∧ o.inverseField = some r.field ∧
        (ofCatalog uncycled managedEmployee).findInverse? o = some r := by
  have hrun : run false uncycled managedEmployee = .ok (ofCatalog uncycled managedEmployee) := rfl
  have hfields : ∀ e ∈ managedEmployee.entities, (e.fields.map Field.name).Nodup := by
    decide +kernel
  refine ⟨hrun,hfields,by decide +kernel,(findInverse_involutive_iff hrun hfields).mpr ?_⟩
  decide +kernel

/-- A manager who extends the employee that is kept under the name of the inheritance link. -/
def promotedManager : Catalog :=
  .ofList [
    { name := "Manager", superclass := some "Employee", fields := [
      { name := "superclass", type := "Employee", annotations := [⟨"OneToOne",""⟩] }] },
    { name := "Employee", fields := [
      { name := "promotion", type := "Manager",
        annotations := [⟨"OneToOne","mappedBy = \"superclass\""⟩] }] }]

/-- The inverse of the employee's promotion is looked up in vain: the inheritance link of the
manager is found instead. -/
theorem findInverse_not_involutive : ¬ ∀ (cancelled : Bool) (s : Settings) (c : Catalog)
    (a : Analysis), run cancelled s c = .ok a →
    (∀ e ∈ c.entities, (e.fields.map Field.name).Nodup) →
    ∀ r ∈ a.relationships, r.bidirectional = true → ∃ o, a.findInverse? r = some o ∧
      o.bidirectional = true ∧ o.kind.isAssociation = true ∧ o.inverseField = some r.field ∧
      a.findInverse? o = some r := by
  intro hall
  have hfields : ∀ e ∈ promotedManager.entities, (e.fields.map Field.name).Nodup := by
    decide +kernel
  have hlost : ∃ r ∈ (ofCatalog uncycled promotedManager).relationships, r.bidirectional = true ∧
      ((ofCatalog uncycled promotedManager).findInverse? r).map Relationship.kind =
        some .inheritance := by
    decide +kernel
  obtain ⟨r,hr,hbi,hkind⟩ := hlost
  obtain ⟨o,hfind,-,hassoc,-⟩ := hall false uncycled promotedManager _ rfl hfields r hr hbi
  rw [hfind] at hkind
  exact RelationKind.ne_inheritance hassoc (Option.some.inj hkind)

end Analysis

end EntityLink
