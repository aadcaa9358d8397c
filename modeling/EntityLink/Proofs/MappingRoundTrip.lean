import EntityLink.Proofs.AdvisedRemoval
import EntityLink.Proofs.AnnotationReading
import EntityLink.Proofs.TypeText
import EntityLink.Proofs.WellFormedRelationships

namespace EntityLink
open Text Java

theorem keys_ite_nil_sublist {p : Prop} [Decidable p] (key value : String) :
    ((if p then [] else [(key,value)]).map Prod.fst).Sublist [key] := by
  split
  · exact List.nil_sublist _
  · exact List.Sublist.refl _

namespace Catalog

/-- The mapping annotations of associations. -/
def associations : List (String × RelationKind) :=
  mappings.take 4

theorem exists_association {kind : RelationKind} (h : kind.isAssociation = true) :
    ∃ name, (name,kind) ∈ associations := by
  cases kind with
  | none | embedded | inheritance | composition => cases h
  | oneToOne => exact ⟨"OneToOne",by decide⟩
  | oneToMany => exact ⟨"OneToMany",by decide⟩
  | manyToOne => exact ⟨"ManyToOne",by decide⟩
  | manyToMany => exact ⟨"ManyToMany",by decide⟩

/-- Their names are names, of nothing with another purpose and of no other mapping. -/
theorem names_associations : ∀ m ∈ associations,
    AnnotationText.isName isWord m.1.toList = true ∧
      simpleName m.1 ∉ ["Transient","JoinTable","JoinColumn","JoinColumns"] ∧
      mappings.find? (fun o => simpleName m.1 == o.1) = some m := by
  decide

end Catalog

namespace Relationship

section Annotations

variable (r : Relationship)

theorem selfContained_cascades :
    ∀ text ∈ r.cascade.toList.map (fun c => "CascadeType." ++ c.label),
      Attributes.SelfContained text.toList ∧ text.toList.head? ≠ some '"' ∧
        text.toList.head? ≠ some '{' := by
  intro text htext
  obtain ⟨c,-,rfl⟩ := List.mem_map.mp htext
  cases c <;> decide

/-- The keys of a mapping annotation, as far as they are written. -/
theorem keys_associationArguments : (r.associationArguments.map Prod.fst).Sublist
    ["mappedBy","cascade","fetch","orphanRemoval"] := by
  have hmapped : ((r.mappedBy.map (fun m => ("mappedBy",quote m))).toList.map Prod.fst).Sublist
      ["mappedBy"] := by
    cases r.mappedBy
    · exact List.nil_sublist _
    · exact List.Sublist.refl _
  have horphan : ((if r.orphanRemoval then [("orphanRemoval","true")] else []).map
      Prod.fst).Sublist ["orphanRemoval"] := by
    split
    · exact List.Sublist.refl _
    · exact List.nil_sublist _
  rw [associationArguments,List.map_append,List.map_append,List.map_append]
  exact ((hmapped.append (keys_ite_nil_sublist _ _)).append (List.Sublist.refl _)).append horphan

theorem selfContained_associationArguments :
    ∀ p ∈ r.associationArguments, Attributes.SelfContained p.2.toList := by
  simp only [associationArguments,List.forall_mem_append]
  refine ⟨⟨⟨?_,?_⟩,?_⟩,?_⟩
  · intro p hp
    obtain ⟨m,-,rfl⟩ := Option.map_eq_some_iff.mp (Option.mem_toList.mp hp)
    exact Attributes.selfContained_quote m
  · intro p hp
    obtain rfl := List.mem_singleton.mp (List.mem_ite_nil_left.mp hp).2
    exact Attributes.selfContained_bracedList (fun v hv => (r.selfContained_cascades v hv).1)
  · rw [List.forall_mem_singleton]
    cases r.fetch <;> decide
  · intro p hp
    obtain rfl := List.mem_singleton.mp (List.mem_ite_nil_right.mp hp).2
    decide

theorem readable_association {name : String} (h : (name,r.kind) ∈ Catalog.associations) :
    (AnnotationUse.mk name r.associationArguments).Readable :=
  .of_sublist (Catalog.names_associations _ h).1 (by simp [associationArguments])
    r.keys_associationArguments (by decide) r.selfContained_associationArguments

/-- The arguments of a join table's annotation. -/
def joinTableArguments (table : String) : List (String × String) :=
  [("name",quote table)] ++
    (if r.joinColumns.isEmpty then [] else [("joinColumns",joinColumnList r.joinColumns)]) ++
    (if r.inverseJoinColumns.isEmpty then []
      else [("inverseJoinColumns",joinColumnList r.inverseJoinColumns)])

theorem keys_joinTableArguments (table : String) :
    ((r.joinTableArguments table).map Prod.fst).Sublist
      ["name","joinColumns","inverseJoinColumns"] := by
  rw [joinTableArguments,List.map_append,List.map_append]
  exact ((List.Sublist.refl ["name"]).append (keys_ite_nil_sublist _ _)).append
    (keys_ite_nil_sublist _ _)

theorem selfContained_joinTableArguments (table : String) :
    ∀ p ∈ r.joinTableArguments table, Attributes.SelfContained p.2.toList := by
  simp only [joinTableArguments,List.forall_mem_append]
  refine ⟨⟨?_,?_⟩,?_⟩
  · rw [List.forall_mem_singleton]
    exact Attributes.selfContained_quote table
  · intro p hp
    obtain rfl := List.mem_singleton.mp (List.mem_ite_nil_left.mp hp).2
    exact selfContained_joinColumnList r.joinColumns
  · intro p hp
    obtain rfl := List.mem_singleton.mp (List.mem_ite_nil_left.mp hp).2
    exact selfContained_joinColumnList r.inverseJoinColumns

theorem readable_joinTable (table : String) :
    (AnnotationUse.mk "JoinTable" (r.joinTableArguments table)).Readable :=
  .of_sublist (by decide) (by simp [joinTableArguments]) (r.keys_joinTableArguments table)
    (by decide) (r.selfContained_joinTableArguments table)

theorem joinAnnotations_eq : r.joinAnnotations = match r.joinTable with
    | some table => [⟨"JoinTable",r.joinTableArguments table⟩]
    | none => r.joinColumns.map joinColumn := by
  unfold joinAnnotations
  cases r.joinTable <;> rfl

/-- What stands beside a mapping annotation. -/
theorem readable_joinAnnotations : ∀ u ∈ r.joinAnnotations,
    u.Readable ∧ (u.name = "JoinTable" ∨ u.name = "JoinColumn") := by
  rw [joinAnnotations_eq]
  split
  · rw [List.forall_mem_singleton]
    exact ⟨r.readable_joinTable _,.inl rfl⟩
  · intro u hu
    obtain ⟨name,-,rfl⟩ := List.mem_map.mp hu
    exact ⟨readable_joinColumn name,.inr rfl⟩

variable {r}

/-- An association's field has its mapping annotation first, and on the owning side its join
metadata behind. -/
theorem mappingAnnotations_eq {name : String} (h : (name,r.kind) ∈ Catalog.associations) :
    r.mappingAnnotations =
      ⟨name,r.associationArguments⟩ :: (if r.ownerSide then r.joinAnnotations else []) := by
  simp only [Catalog.associations,Catalog.mappings,List.take_succ_cons,List.take_zero,
    List.mem_cons,List.not_mem_nil,or_false,Prod.mk.injEq] at h
  unfold mappingAnnotations
  rcases h with ⟨rfl,hk⟩ | ⟨rfl,hk⟩ | ⟨rfl,hk⟩ | ⟨rfl,hk⟩ <;> rw [hk] <;> rfl

/-- Every annotation of an association's field is read as it was written. -/
theorem readable_mappingAnnotations (hkind : r.kind.isAssociation = true) :
    ∀ u ∈ r.mappingAnnotations, u.Readable := by
  obtain ⟨name,h⟩ := Catalog.exists_association hkind
  rw [mappingAnnotations_eq h,List.forall_mem_cons]
  refine ⟨r.readable_association h,fun u hu => ?_⟩
  exact (r.readable_joinAnnotations u (List.mem_ite_nil_right.mp hu).2).1

end Annotations

section Readers

variable {r : Relationship} {name : String}

/-- What is read of a mapping annotation. -/
def mappingAttributes (r : Relationship) (name : String) : Attributes :=
  (AnnotationUse.mk name r.associationArguments).asRead.attributes

theorem mem_keys_associationArguments {key : String} :
    key ∈ r.associationArguments.map Prod.fst ↔ (key = "mappedBy" ∧ r.mappedBy.isSome = true) ∨
      (key = "cascade" ∧ r.cascade.toList ≠ []) ∨ key = "fetch" ∨
      (key = "orphanRemoval" ∧ r.orphanRemoval = true) := by
  cases hmapped : r.mappedBy <;> cases hcascade : r.cascade.toList <;>
    cases horphan : r.orphanRemoval <;> simp [associationArguments,hmapped,hcascade,horphan]

variable (h : (name,r.kind) ∈ Catalog.associations)

include h

theorem string?_mappedBy (hclean : ∀ m ∈ r.mappedBy, '"' ∉ m.toList ∧ '\\' ∉ m.toList)
    (htext : ∀ m ∈ r.mappedBy, trim m = m ∧ allBlank m = false) :
    (r.mappingAttributes name).string? "mappedBy" = r.mappedBy := by
  have hread := r.readable_association h
  cases hm : r.mappedBy with
  | none =>
    apply Attributes.string?_of_raw?_none
    apply hread.raw?_of_not_mem
    rw [mem_keys_associationArguments]
    simp [hm]
  | some m =>
    obtain ⟨hquote,hslash⟩ := hclean m hm
    obtain ⟨htrim,hblank⟩ := htext m hm
    refine Attributes.string?_quote (hread.raw?_of_mem ?_) hquote hslash htrim hblank
    simp [associationArguments,hm]

theorem list_cascade (hcascade : r.cascade.toList ≠ []) :
    (r.mappingAttributes name).list "cascade" =
      r.cascade.toList.map (fun c => "CascadeType." ++ c.label) := by
  refine Attributes.list_bracedList ((r.readable_association h).raw?_of_mem ?_)
    r.selfContained_cascades
  simp [associationArguments,hcascade]

theorem parse_fetch : Fetch.parse ((r.mappingAttributes name).raw? "fetch") = r.fetch := by
  have hraw : (r.mappingAttributes name).raw? "fetch" = some (fetchValue r.fetch) :=
    (r.readable_association h).raw?_of_mem (by simp [associationArguments])
  rw [hraw]
  cases r.fetch <;> decide

theorem boolean?_orphanRemoval :
    ((r.mappingAttributes name).boolean? "orphanRemoval").getD false = r.orphanRemoval := by
  have hread := r.readable_association h
  cases horphan : r.orphanRemoval with
  | false =>
    have hraw : (r.mappingAttributes name).raw? "orphanRemoval" = none := by
      apply hread.raw?_of_not_mem
      rw [mem_keys_associationArguments]
      simp [horphan]
    rw [Attributes.boolean?,hraw]
    rfl
  | true =>
    have hraw : (r.mappingAttributes name).raw? "orphanRemoval" = some "true" :=
      hread.raw?_of_mem (by simp [associationArguments,horphan])
    rw [Attributes.boolean?,hraw]
    decide

/-- The target is told by the type, not by an attribute. -/
theorem classLiteral?_targetEntity :
    (r.mappingAttributes name).classLiteral? "targetEntity" = none := by
  have hraw : (r.mappingAttributes name).raw? "targetEntity" = none := by
    apply (r.readable_association h).raw?_of_not_mem
    rw [mem_keys_associationArguments]
    simp
  rw [Attributes.classLiteral?,hraw]
  rfl

end Readers

end Relationship

theorem CascadeSet.ofList_toList (s : CascadeSet) : ofList s.toList = s := by
  obtain ⟨all,persist,merge,remove,refresh,detach⟩ := s
  revert all persist merge remove refresh detach
  decide

theorem Cascade.parse?_label (c : Cascade) : parse? ("CascadeType." ++ c.label) = some c := by
  cases c <;> decide

/-- The operations written in an annotation are read back. -/
theorem CascadeAdvice.advise_labels {s : CascadeSet} (h : s.toList ≠ []) (fetch : Option String)
    (facts : Facts) : advise (s.toList.map (fun c => "CascadeType." ++ c.label)) fetch facts =
      ⟨s,.parse fetch,true⟩ := by
  have hread : (s.toList.map (fun c => "CascadeType." ++ c.label)).filterMap Cascade.parse? =
      s.toList := by
    have hparse : Cascade.parse? ∘ (fun c => "CascadeType." ++ c.label) = some := by
      funext c
      rw [Function.comp_apply,Cascade.parse?_label]
    rw [List.filterMap_map,hparse,List.filterMap_some]
  have hwritten : written? (s.toList.map (fun c => "CascadeType." ++ c.label)) = some s := by
    unfold written?
    rw [hread]
    cases hs : s.toList with
    | nil => exact absurd hs h
    | cons c cs =>
      show some (CascadeSet.ofList (c :: cs)) = some s
      rw [← hs,CascadeSet.ofList_toList]
  rw [advise,hwritten]

/-- There is a default for every association. -/
theorem CascadeAdvice.exists_suggested {f : Facts} (h : f.kind.isAssociation = true) :
    ∃ d, (suggest f).contains d = true := by
  obtain ⟨kind,ownerSide,bidirectional,circular⟩ := f
  cases kind with
  | none | embedded | inheritance | composition => cases h
  | oneToOne | oneToMany | manyToOne | manyToMany =>
    cases ownerSide <;> cases bidirectional <;> cases circular <;>
      first | exact ⟨.persist,rfl⟩ | exact ⟨.all,rfl⟩

/-- A stored field that has what is read of a relationship's annotations. -/
structure Field.Carries (f : Field) (r : Relationship) : Prop where
  stored : f.isStatic = false
  name : f.name = r.field
  annotations : f.annotations = r.mappingAnnotations.map AnnotationUse.asRead

/-- Reading annotations one by one gives them all. -/
theorem Field.carries_of_parse {f : Field} {r : Relationship}
    (hkind : r.kind.isAssociation = true) (hstored : f.isStatic = false) (hname : f.name = r.field)
    (h : f.annotations.map some =
      r.mappingAnnotations.map (fun u => AnnotationText.parse? u.render)) : f.Carries r where
  stored := hstored
  name := hname
  annotations := by
    have hread : r.mappingAnnotations.map (fun u => AnnotationText.parse? u.render) =
        (r.mappingAnnotations.map AnnotationUse.asRead).map some := by
      rw [List.map_map]
      apply List.map_congr_left
      intro u hu
      exact (Relationship.readable_mappingAnnotations hkind u hu).parse?_render
    exact (List.map_inj_right (fun _ _ => Option.some.inj)).mp (h.trans hread)

namespace Field.Carries

variable {f : Field} {r : Relationship} {name : String}

/-- Beside its mapping a field has join metadata only. -/
theorem annotated? (h : f.Carries r) (hname : (name,r.kind) ∈ Catalog.associations)
    {key : String} (htable : key ≠ "JoinTable") (hcolumn : key ≠ "JoinColumn") :
    f.annotated? key =
      if simpleName name = key then some (AnnotationUse.mk name r.associationArguments).asRead
      else none := by
  have hjoins : ∀ a ∈ (if r.ownerSide then r.joinAnnotations else []).map AnnotationUse.asRead,
      ¬ a.named key = true := by
    intro a ha
    obtain ⟨u,hu,rfl⟩ := List.mem_map.mp ha
    have hu := (r.readable_joinAnnotations u (List.mem_ite_nil_right.mp hu).2).2
    have hsimple : simpleName u.name = "JoinTable" ∨ simpleName u.name = "JoinColumn" := by
      rcases hu with hu | hu <;> rw [hu] <;> decide
    rw [AnnotationText.named,beq_iff_eq]
    show ¬ simpleName u.name = key
    rcases hsimple with hsimple | hsimple <;> rw [hsimple]
    · exact Ne.symm htable
    · exact Ne.symm hcolumn
  rw [Field.annotated?,h.annotations,Relationship.mappingAnnotations_eq hname,List.map_cons,
    List.find?_cons,List.find?_eq_none.mpr hjoins]
  have hnamed : (AnnotationUse.mk name r.associationArguments).asRead.named key =
      (simpleName name == key) := rfl
  rw [hnamed]
  by_cases hkey : simpleName name = key
  · rw [if_pos hkey,beq_iff_eq.mpr hkey]
  · rw [if_neg hkey,beq_false_of_ne hkey]

theorem mapping? (h : f.Carries r) (hname : (name,r.kind) ∈ Catalog.associations) :
    Catalog.mapping? f = some (r.kind,r.mappingAttributes name) := by
  have hlook : ∀ key, key ≠ "JoinTable" → key ≠ "JoinColumn" → f.annotated? key = _ :=
    fun _ htable hcolumn => h.annotated? hname htable hcolumn
  have hsearch : ∀ ms : List (String × RelationKind),
      (∀ m ∈ ms, m.1 ≠ "JoinTable" ∧ m.1 ≠ "JoinColumn") →
      ms.findSome? (fun m => (f.annotated? m.1).map (fun a => (m.2,a.attributes))) =
        (ms.find? (fun m => simpleName name == m.1)).map
          (fun m => (m.2,r.mappingAttributes name)) := by
    intro ms hms
    induction ms with
    | nil => rfl
    | cons m ms ih =>
      obtain ⟨⟨htable,hcolumn⟩,hms⟩ := List.forall_mem_cons.mp hms
      rw [List.findSome?_cons,List.find?_cons,hlook m.1 htable hcolumn]
      by_cases hkey : simpleName name = m.1
      · rw [if_pos hkey,beq_iff_eq.mpr hkey]
        rfl
      · rw [if_neg hkey,beq_false_of_ne hkey]
        exact ih hms
  rw [Catalog.mapping?,hsearch Catalog.mappings (by decide)]
  rw [(Catalog.names_associations _ hname).2.2,Option.map_some]

/-- The kind and the attributes of the relationship come from the mapping annotation. -/
theorem relationship? (h : f.Carries r) (hname : (name,r.kind) ∈ Catalog.associations)
    (c : Catalog) (e : Entity) :
    c.relationship? e f = some (Catalog.relationshipOf e f r.kind
      (c.mappedTarget r.kind (TypeExpr.parse f.type) (r.mappingAttributes name))
      (r.mappingAttributes name)) := by
  have hsimple : simpleName name ≠ "Transient" := fun heq =>
    (Catalog.names_associations _ hname).2.1 (heq ▸ List.mem_cons_self)
  have hstored : Catalog.isExcluded f = false := by
    rw [Catalog.isExcluded,h.stored,h.annotated? hname (by decide) (by decide),
      if_neg hsimple]
    rfl
  rw [Catalog.relationship?,hstored,if_neg Bool.false_ne_true,h.mapping? hname]

end Field.Carries

/-- The policy of a classified relationship is what its attributes ask for. -/
theorem Catalog.advice_relationshipOf {e : Entity} {f : Field} {kind : RelationKind}
    {target : String} {a : Attributes} :
    let r := relationshipOf e f kind target a
    let advice := CascadeAdvice.advise (a.list "cascade") (a.raw? "fetch")
      ⟨kind,r.ownerSide,r.mappedBy.isSome,false⟩
    r.fetch = advice.fetch ∧ r.cascade = advice.cascade ∧ r.cascadeExplicit = advice.explicit :=
  ⟨rfl,rfl,rfl⟩

/-- The type of a generated field names the target, inside a collection type or by itself. -/
theorem Catalog.mappedTarget_fieldDecl {c : Catalog} {l : Link} {target name : String}
    (hsimple : TypeExpr.IsRawName l.targetType) (hresolve : c.resolve? l.targetType = some target)
    (hname : (name,l.kind) ∈ associations) :
    c.mappedTarget l.kind (TypeExpr.parse l.fieldDecl.type)
      (l.relationship.mappingAttributes name) = target := by
  have hraw : (if l.kind.isCollectionValued then (TypeExpr.parse l.fieldDecl.type).firstArgument
      else (TypeExpr.parse l.fieldDecl.type).raw) = l.targetType := by
    cases hmany : l.kind.isCollectionValued with
    | true =>
      have hinterface : TypeExpr.IsRawName l.collectionKind.interfaceName := by
        cases l.collectionKind <;> decide
      have htype : l.fieldDecl.type = l.collectionType := if_pos hmany
      rw [if_pos rfl,htype,Link.collectionType,TypeExpr.parse_generic hinterface hsimple]
      rfl
    | false =>
      have htype : l.fieldDecl.type = l.targetType := if_neg (Bool.not_eq_true _ ▸ hmany)
      rw [if_neg Bool.false_ne_true,htype,TypeExpr.parse_rawName hsimple]
      rfl
  have hliteral := Relationship.classLiteral?_targetEntity (r := l.relationship) hname
  simp only [mappedTarget,hliteral,Option.getD_none,hraw,hresolve]

/-- An association with a target has one field generated. -/
theorem Synthesis.fields_of_association (s : Settings) (a : Analysis) {r : Relationship}
    (hkind : r.kind.isAssociation = true) (htarget : r.hasTarget = true) :
    (partOf s a r).fields = [(Link.new s r (a.findInverse? r)).fieldDecl] := by
  obtain ⟨style,hstyle⟩ : ∃ style, styleOf? r = some style := by
    rw [styleOf?,if_pos htarget]
    cases hk : r.kind with
    | none | embedded | inheritance | composition =>
      rw [hk] at hkind
      cases hkind
    | oneToOne | oneToMany | manyToOne | manyToMany => exact ⟨_,rfl⟩
  rw [partOf_of_style s a hstyle]

namespace Analysis

variable {s : Settings} {c : Catalog} {r : Relationship}

/-- Associations are never left without a cascade. -/
theorem cascade_ne_nil (hr : r ∈ (ofCatalog s c).relationships)
    (hkind : r.kind.isAssociation = true) : r.cascade.toList ≠ [] := by
  obtain ⟨d,hd⟩ : ∃ d, r.cascade.contains d = true := by
    cases hexplicit : r.cascadeExplicit with
    | true => exact (relationships_wellFormed hr).explicit hexplicit
    | false =>
      obtain ⟨q,-,hsettles⟩ := exists_classified hr
      have hq : q.cascadeExplicit = false := by rwa [hsettles.kept] at hexplicit
      rw [hsettles.advised hq]
      exact CascadeAdvice.exists_suggested hkind
  exact List.ne_nil_of_mem (List.mem_filter.mpr ⟨by cases d <;> decide,hd⟩)

/-- A field that carries what was generated for an association is classified as it. -/
theorem classified_of_carries (hr : r ∈ (ofCatalog s c).relationships)
    (hkind : r.kind.isAssociation = true)
    (hclean : ∀ m ∈ r.mappedBy, '"' ∉ m.toList ∧ '\\' ∉ m.toList)
    {f : Field} (hf : f.Carries r) (c' : Catalog) {e : Entity} (he : e.name = r.source)
    (htarget : ∀ name, (name,r.kind) ∈ Catalog.associations →
      c'.mappedTarget r.kind (TypeExpr.parse f.type) (r.mappingAttributes name) = r.target) :
    ∃ q, (c'.classifyField e f).2 = some q ∧ q.key = r.key ∧ q.mappedBy = r.mappedBy ∧
      q.ownerSide = r.ownerSide ∧ q.fetch = r.fetch ∧ q.orphanRemoval = r.orphanRemoval ∧
      q.cascade = r.cascade ∧ q.cascadeExplicit = true := by
  obtain ⟨name,hname⟩ := Catalog.exists_association hkind
  have hwell := relationships_wellFormed hr
  have hmapped : (if r.kind.canBeInverse then (r.mappingAttributes name).string? "mappedBy"
      else none) = r.mappedBy := by
    rw [Relationship.string?_mappedBy hname hclean (fun m hm => (hwell.mappedBy m hm).2)]
    cases hm : r.mappedBy with
    | none => exact ite_self none
    | some m =>
      rcases (hwell.mappedBy m hm).1 with hk | hk | hk <;> rw [hk] <;> rfl
  have horphan : ((r.kind == .oneToOne || r.kind == .oneToMany) &&
      ((r.mappingAttributes name).boolean? "orphanRemoval").getD false) = r.orphanRemoval := by
    rw [Relationship.boolean?_orphanRemoval hname]
    cases ho : r.orphanRemoval with
    | false => exact Bool.and_false _
    | true => rcases hwell.orphanRemoval ho with hk | hk <;> rw [hk] <;> rfl
  have hadvice : ∀ facts, CascadeAdvice.advise ((r.mappingAttributes name).list "cascade")
      ((r.mappingAttributes name).raw? "fetch") facts = ⟨r.cascade,r.fetch,true⟩ := by
    intro facts
    have hcascade := cascade_ne_nil hr hkind
    rw [Relationship.list_cascade hname hcascade,CascadeAdvice.advise_labels hcascade,
      Relationship.parse_fetch hname]
  refine ⟨_,hf.relationship? hname c' e,?_,hmapped,?_,?_,horphan,?_,?_⟩
  · show RelationshipKey.mk e.name _ r.kind f.name = r.key
    rw [he,htarget name hname,hf.name]
    rfl
  · rw [ownerSide_eq hr,← hmapped]
    rfl
  · rw [Catalog.advice_relationshipOf.1,hadvice]
  · rw [Catalog.advice_relationshipOf.2.1,hadvice]
  · rw [Catalog.advice_relationshipOf.2.2,hadvice]

/-- What is generated for the field of an association can be read, and a field that is declared so
is classified as the association again: what its annotations and its type tell is all kept. Every
identifier is a raw name. -/
theorem mapping_reads_back {cancelled : Bool} {a : Analysis} (h : run cancelled s c = .ok a)
    (hr : r ∈ a.relationships) (hkind : r.kind.isAssociation = true)
    (htarget : r.hasTarget = true) (hsimple : TypeExpr.IsRawName r.targetSimple)
    (hclean : ∀ m ∈ r.mappedBy, '"' ∉ m.toList ∧ '\\' ∉ m.toList) :
    ∃ d, (Synthesis.partOf s a r).fields = [d] ∧
      (∀ u ∈ d.annotations, (AnnotationText.parse? u.render).isSome = true) ∧
      ∀ (c' : Catalog) (e : Entity) (f : Field), e.name = r.source →
        c'.resolve? r.targetSimple = some r.target → f.isStatic = false → f.name = r.field →
        f.type = d.type →
        f.annotations.map some = d.annotations.map (fun u => AnnotationText.parse? u.render) →
        ∃ q, (c'.classifyField e f).2 = some q ∧ q.key = r.key ∧ q.mappedBy = r.mappedBy ∧
          q.ownerSide = r.ownerSide ∧ q.fetch = r.fetch ∧ q.orphanRemoval = r.orphanRemoval ∧
          q.cascade = r.cascade ∧ q.cascadeExplicit = true := by
  obtain rfl := eq_of_run h
  have hpart := Synthesis.fields_of_association s (ofCatalog s c) hkind htarget
  refine ⟨_,hpart,fun u hu => ?_,fun c' e f he hresolve hstored hname htype hannotations => ?_⟩
  · rw [(Relationship.readable_mappingAnnotations hkind u hu).parse?_render]
    rfl
  · have hcarries : f.Carries r := Field.carries_of_parse hkind hstored hname hannotations
    refine classified_of_carries hr hkind hclean hcarries c' he (fun name hname => ?_)
    rw [htype]
    exact Catalog.mappedTarget_fieldDecl (l := Link.new s r ((ofCatalog s c).findInverse? r))
      hsimple hresolve hname

/-- The members of a squad are owned by what no field is called. -/
def rosters : Catalog :=
  .ofList [
    { name := "club.Squad", fields := [
      { name := "members", type := "Set<Player>", annotations := [⟨"OneToMany",
        "mappedBy = \"squad, of = \x7bone\x7d\", cascade = REMOVE, orphanRemoval = true"⟩] }] },
    { name := "club.Player" }]

def rosterMembers : Relationship where
  source := "club.Squad"
  target := "club.Player"
  kind := .oneToMany
  field := "members"
  fieldType := "Set<Player>"
  mappedBy := some "squad, of = \x7bone\x7d"
  ownerSide := false
  cascade := { remove := true }
  cascadeExplicit := true
  orphanRemoval := true

/-- The field as it is generated, read back. -/
def rosterField : Field where
  name := "members"
  type := "Set<Player>"
  annotations := [⟨"OneToMany","mappedBy = \"squad, of = \x7bone\x7d\", " ++
    "cascade = CascadeType.REMOVE, fetch = FetchType.LAZY, orphanRemoval = true"⟩]

theorem rosterField_reads_back :
    run false uncycled rosters = .ok (ofCatalog uncycled rosters) ∧
    rosterMembers ∈ (ofCatalog uncycled rosters).relationships ∧
    ∃ q, (rosters.classifyField { name := "club.Squad" } rosterField).2 = some q ∧
      q.key = rosterMembers.key ∧ q.mappedBy = rosterMembers.mappedBy ∧
      q.ownerSide = rosterMembers.ownerSide ∧ q.fetch = rosterMembers.fetch ∧
      q.orphanRemoval = rosterMembers.orphanRemoval ∧ q.cascade = rosterMembers.cascade ∧
      q.cascadeExplicit = true := by
  have hrun : run false uncycled rosters = .ok (ofCatalog uncycled rosters) := rfl
  have hr : rosterMembers ∈ (ofCatalog uncycled rosters).relationships := by decide +kernel
  obtain ⟨d,hd,-,hback⟩ := mapping_reads_back hrun hr rfl (by decide +kernel) (by decide +kernel)
    (by decide)
  have hdecl : (Synthesis.partOf uncycled (ofCatalog uncycled rosters) rosterMembers).fields =
      [(Link.new uncycled rosterMembers none).fieldDecl] := rfl
  obtain rfl := (List.cons.inj (hd.symm.trans hdecl)).1
  exact ⟨hrun,hr,hback rosters { name := "club.Squad" } rosterField rfl (by decide +kernel) rfl rfl
    (by decide +kernel) (by decide +kernel)⟩

end Analysis

end EntityLink
