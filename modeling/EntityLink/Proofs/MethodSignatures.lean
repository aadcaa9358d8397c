import EntityLink.Proofs.GeneratedEntities
import Mathlib.Data.List.Nodup

namespace EntityLink
open Java

/-- What tells a method from the others of its class: its name and the types of its parameters. -/
def Java.Method.signature (m : Method) : String × List String :=
  (m.name,m.params.map Param.type)

namespace Link

variable {l : Link}

/-- The types of the parameters of a field's member of a kind. -/
def paramTypes (l : Link) : MethodKind → List String
  | .setter | .internalSetter => [l.fieldDecl.type]
  | .adder | .remover | .internalAdder | .internalRemover | .orphanHook => [l.targetType]
  | .predicate => if l.kind.isCollectionValued then [l.targetType] else []
  | .getter | .clearer | .counter | .validator => []

theorem paramTypes_of_element {k : MethodKind} (hmany : l.kind.isCollectionValued = true)
    (hwhole : k.namesWhole = false) : l.paramTypes k = [l.targetType] := by
  cases k with
  | getter | setter | internalSetter | clearer | counter | validator => cases hwhole
  | adder | remover | internalAdder | internalRemover | orphanHook => rfl
  | predicate => exact if_pos hmany

/-- The signature of a field's member of a kind. -/
def signatureOf (l : Link) (k : MethodKind) : String × List String :=
  (k.stem ++ MemberNames.word l.field l.kind.isCollectionValued k ++ k.ending,l.paramTypes k)

/-- What the kind of a member tells: the types of its parameters, for members that work on one
element that the field holds many, and for the hook that orphans are removed. -/
structure Shaped (l : Link) (m : Method) : Prop where
  types : m.params.map Param.type = l.paramTypes m.kind
  single : l.kind.isCollectionValued = false →
    m.kind.namesWhole = true ∨ m.kind = .predicate ∨ m.kind = .orphanHook
  hook : m.kind = .orphanHook → l.policy.orphanRemoval = true

theorem Shaped.of_many {m : Method} (h : l.kind.isCollectionValued = true)
    (htypes : m.params.map Param.type = l.paramTypes m.kind)
    (hhook : m.kind = .orphanHook → l.policy.orphanRemoval = true) : l.Shaped m :=
  ⟨htypes,fun hone => absurd (hone.symm.trans h) Bool.false_ne_true,hhook⟩

theorem Shaped.of_whole {m : Method} (h : m.kind.namesWhole = true)
    (htypes : m.params.map Param.type = l.paramTypes m.kind) : l.Shaped m := by
  refine ⟨htypes,fun _ => .inl h,fun hhook => ?_⟩
  rw [hhook] at h
  cases h

theorem fieldDecl_type_many (h : l.kind.isCollectionValued = true) :
    l.fieldDecl.type = l.collectionType :=
  if_pos h

theorem fieldDecl_type_one (h : l.kind.isCollectionValued = false) :
    l.fieldDecl.type = l.targetType := by
  simp [fieldDecl,h]

theorem shaped_collectionAccessors (h : l.kind.isCollectionValued = true) :
    ∀ m ∈ l.collectionAccessors, l.Shaped m := by
  have hsetter : l.manySetter.params.map Param.type = l.paramTypes .setter := by
    rw [paramTypes,fieldDecl_type_many h]
    rfl
  simp only [collectionAccessors,List.forall_mem_cons]
  exact ⟨.of_whole rfl rfl,.of_whole rfl hsetter,.of_many h rfl MethodKind.noConfusion,
    .of_many h rfl MethodKind.noConfusion,.of_whole rfl rfl,List.forall_mem_nil _⟩

theorem shaped_manyAccessors (h : l.kind.isCollectionValued = true) :
    ∀ m ∈ l.manyAccessors, l.Shaped m := by
  have hsetter : l.manyInternalSetter.params.map Param.type = l.paramTypes .internalSetter := by
    rw [paramTypes,fieldDecl_type_many h]
    rfl
  simp only [manyAccessors,List.forall_mem_append]
  refine ⟨⟨shaped_collectionAccessors h,forall_mem_ite_nil (fun _ => ?_)⟩,
    forall_mem_ite_nil (fun horphan => ?_)⟩
  · simp only [List.forall_mem_cons]
    exact ⟨.of_many h rfl MethodKind.noConfusion,.of_many h rfl MethodKind.noConfusion,
      .of_whole rfl hsetter,List.forall_mem_nil _⟩
  · rw [List.forall_mem_singleton]
    exact .of_many h rfl (fun _ => horphan)

theorem shaped_singleAccessors (h : l.kind.isCollectionValued = false) :
    ∀ m ∈ l.singleAccessors, l.Shaped m := by
  have hwhole : [l.targetType] = [l.fieldDecl.type] := by rw [fieldDecl_type_one h]
  simp only [singleAccessors,List.forall_mem_append,List.forall_mem_cons]
  refine ⟨⟨⟨.of_whole rfl rfl,.of_whole rfl hwhole,List.forall_mem_nil _⟩,
    forall_mem_ite_nil (fun _ => ?_)⟩,forall_mem_ite_nil (fun horphan => ?_)⟩
  · rw [List.forall_mem_singleton]
    exact .of_whole rfl hwhole
  · rw [List.forall_mem_singleton]
    exact ⟨rfl,fun _ => .inr (.inr rfl),fun _ => horphan⟩

theorem shaped_accessors : ∀ m ∈ l.accessors l.relationship.style, l.Shaped m := by
  rcases l.accessors_cases with ⟨hmany,h | ⟨-,h⟩⟩ | ⟨hone,h | ⟨-,h⟩⟩
  · rw [h]
    exact shaped_manyAccessors hmany
  · rw [h]
    exact shaped_collectionAccessors hmany
  · rw [h]
    exact shaped_singleAccessors hone
  · have hwhole : [l.targetType] = [l.fieldDecl.type] := by rw [fieldDecl_type_one hone]
    rw [h]
    simp only [List.forall_mem_cons]
    exact ⟨.of_whole rfl rfl,.of_whole rfl hwhole,List.forall_mem_nil _⟩

theorem shaped_helpers : ∀ m ∈ l.helpers, l.Shaped m := by
  unfold helpers
  split
  · rename_i hmany
    simp only [List.forall_mem_cons]
    exact ⟨.of_whole rfl rfl,.of_many hmany (if_pos hmany).symm MethodKind.noConfusion,
      List.forall_mem_nil _⟩
  · rename_i hone
    rw [List.forall_mem_singleton]
    exact ⟨(if_neg hone).symm,fun _ => .inr (.inl rfl),MethodKind.noConfusion⟩

/-- The kinds of accessors, in their order. -/
def accessorKinds : List MethodKind :=
  [.getter,.setter,.adder,.remover,.clearer,.internalAdder,.internalRemover,.internalSetter,
    .orphanHook]

theorem kinds_accessors_sublist :
    ((l.accessors l.relationship.style).map Method.kind).Sublist accessorKinds := by
  rcases l.accessors_cases with ⟨-,h | ⟨-,h⟩⟩ | ⟨-,h | ⟨-,h⟩⟩
  · rw [h,manyAccessors,List.map_append,List.map_append]
    exact ((List.Sublist.refl _).append (map_ite_nil_sublist _ _)).append (map_ite_nil_sublist _ _)
  · rw [h]
    exact (by decide : [MethodKind.getter,.setter,.adder,.remover,.clearer].Sublist accessorKinds)
  · rw [h,singleAccessors,List.map_append,List.map_append]
    refine List.Sublist.trans (((List.Sublist.refl _).append (map_ite_nil_sublist _ _)).append
      (map_ite_nil_sublist _ _)) ?_
    exact (by decide : [MethodKind.getter,.setter,.internalSetter,.orphanHook].Sublist
      accessorKinds)
  · rw [h]
    exact (by decide : [MethodKind.getter,.setter].Sublist accessorKinds)

/-- A field has no two members of one kind. -/
theorem nodup_kinds (helpers : Bool) : ((l.accessors l.relationship.style ++
    (if helpers then l.helpers else [])).map Method.kind).Nodup := by
  have hhelpers : (l.helpers.map Method.kind).Sublist [.counter,.predicate] := by
    unfold Link.helpers
    split
    · exact List.Sublist.refl _
    · exact (by decide : [MethodKind.predicate].Sublist [.counter,.predicate])
  have hall : (accessorKinds ++ [MethodKind.counter,.predicate]).Nodup := by decide
  rw [List.map_append]
  exact hall.sublist (kinds_accessors_sublist.append ((map_ite_nil_sublist _ _).trans hhelpers))

theorem exists_getter : ∃ m ∈ l.accessors l.relationship.style, m.kind = .getter := by
  rcases l.accessors_cases with ⟨-,h | ⟨-,h⟩⟩ | ⟨-,h | ⟨-,h⟩⟩
  · exact ⟨l.manyGetter,by simp [h,manyAccessors,collectionAccessors],rfl⟩
  · exact ⟨l.manyGetter,by simp [h,collectionAccessors],rfl⟩
  · exact ⟨l.singleGetter,by simp [h,singleAccessors],rfl⟩
  · exact ⟨l.singleGetter,by simp [h],rfl⟩

theorem exists_adder_of_many (hmany : l.kind.isCollectionValued = true) :
    ∃ m ∈ l.accessors l.relationship.style, m.kind = .adder := by
  rcases l.accessors_cases with ⟨-,h | ⟨-,h⟩⟩ | ⟨hone,-⟩
  · exact ⟨l.adder,by simp [h,manyAccessors,collectionAccessors],rfl⟩
  · exact ⟨l.adder,by simp [h,collectionAccessors],rfl⟩
  · exact absurd (hone.symm.trans hmany) Bool.false_ne_true

theorem exists_orphanHook (hkind : l.kind = .oneToOne ∨ l.kind = .oneToMany)
    (horphan : l.policy.orphanRemoval = true) :
    ∃ m ∈ l.accessors l.relationship.style, m.kind = .orphanHook := by
  rcases l.accessors_cases with ⟨-,h | ⟨hcomposition,-⟩⟩ | ⟨hone,h | ⟨hne,-⟩⟩
  · exact ⟨l.orphanHook l.elementParam,by simp [h,manyAccessors,horphan],rfl⟩
  · rw [hcomposition] at hkind
    rcases hkind with hkind | hkind
    · cases hkind
    · cases hkind
  · exact ⟨l.orphanHook l.valueParam,by simp [h,singleAccessors,horphan],rfl⟩
  · rcases hkind with hkind | hkind
    · exact absurd hkind hne
    · rw [hkind] at hone
      cases hone

theorem signatureOf_congr {l' : Link} {k : MethodKind}
    (hword : MemberNames.word l.field l.kind.isCollectionValued k =
      MemberNames.word l'.field l'.kind.isCollectionValued k)
    (htypes : l.paramTypes k = l'.paramTypes k) : l.signatureOf k = l'.signatureOf k := by
  rw [signatureOf,signatureOf,hword,htypes]

theorem stem_prefix_signatureOf (l : Link) (k : MethodKind) :
    k.stem.toList <+: (l.signatureOf k).1.toList := by
  rw [signatureOf,String.append_assoc,String.toList_append]
  exact List.prefix_append _ _

/-- Members of different kinds differ, whatever their fields. -/
theorem kind_eq_of_signatureOf_eq {l' : Link} {k k' : MethodKind}
    (h : l.signatureOf k = l'.signatureOf k') : k = k' :=
  MethodKind.eq_of_stems_begin (l.stem_prefix_signatureOf k) (h ▸ l'.stem_prefix_signatureOf k')

theorem word_eq_of_signatureOf_eq {l' : Link} {k : MethodKind}
    (h : l.signatureOf k = l'.signatureOf k) :
    MemberNames.word l.field l.kind.isCollectionValued k =
      MemberNames.word l'.field l'.kind.isCollectionValued k := by
  have hname := (Prod.mk.inj h).1
  rwa [String.append_left_inj,String.append_right_inj] at hname

end Link

/-- Two fields of an entity share no signature: of methods for the whole field, of methods for one
element of each of two collections, and of the hooks for orphans of a collection and of one
value. -/
structure Relationship.SignaturesApart (r o : Relationship) : Prop where
  whole : Text.capitalize r.field ≠ Text.capitalize o.field
  element : r.kind.isCollectionValued = true → o.kind.isCollectionValued = true →
    r.targetSimple = o.targetSimple →
    Text.capitalize (Noun.singularize r.field) ≠ Text.capitalize (Noun.singularize o.field)
  hook : r.kind = .oneToMany ∧ r.orphanRemoval = true →
    o.kind = .oneToOne ∧ o.orphanRemoval = true → r.targetSimple = o.targetSimple →
    Text.capitalize (Noun.singularize r.field) ≠ Text.capitalize o.field

instance (r o : Relationship) : Decidable (r.SignaturesApart o) :=
  decidable_of_iff (_ ∧ _ ∧ _) ⟨fun ⟨hw,he,hh⟩ => ⟨hw,he,hh⟩,fun h => ⟨h.whole,h.element,h.hook⟩⟩

namespace Link

variable {s : Settings} {r o : Relationship} {inverse inverse' : Option Relationship}
  {m m' : Method}

/-- Hooks are made where orphan removal is asked for and a value has one owner only. -/
theorem orphanRemoval_iff : (Link.new s r inverse).policy.orphanRemoval = true ↔
    r.orphanRemoval = true ∧ (r.kind = .oneToOne ∨ r.kind = .oneToMany) := by
  have hpolicy : (Link.new s r inverse).policy.orphanRemoval =
      (r.orphanRemoval && (r.kind == .oneToOne || r.kind == .oneToMany)) := rfl
  simp [hpolicy]

/-- A member of a collection and one of a single value may share a signature only as hooks. -/
theorem Shaped.signatureOf_ne_of_one (hm : (Link.new s r inverse).Shaped m)
    (h : r.SignaturesApart o) (hm' : (Link.new s o inverse').Shaped m')
    (hkind : m.kind = m'.kind) (hwhole : m.kind.namesWhole = false)
    (hmany : r.kind.isCollectionValued = true) (hone : o.kind.isCollectionValued = false) :
    (Link.new s r inverse).signatureOf m.kind ≠ (Link.new s o inverse').signatureOf m.kind := by
  intro heq
  obtain ⟨-,htypes⟩ := Prod.mk.inj heq
  rcases hkind ▸ hm'.single hone with hk | hk | hk
  · exact absurd (hk.symm.trans hwhole) Bool.true_eq_false.mp
  · have hleft : (Link.new s r inverse).paramTypes .predicate = [r.targetSimple] := if_pos hmany
    have hright : (Link.new s o inverse').paramTypes .predicate = [] :=
      if_neg (hone ▸ Bool.false_ne_true)
    rw [hk,hleft,hright] at htypes
    cases htypes
  · have hword := word_eq_of_signatureOf_eq heq
    obtain ⟨horphan,hkind₁⟩ := orphanRemoval_iff.mp (hm.hook hk)
    obtain ⟨horphan',hkind₂⟩ := orphanRemoval_iff.mp (hm'.hook (hkind ▸ hk))
    have hr : r.kind = .oneToMany := by
      refine hkind₁.resolve_left (fun hr => ?_)
      rw [hr] at hmany
      cases hmany
    have ho : o.kind = .oneToOne := by
      refine hkind₂.resolve_right (fun ho => ?_)
      rw [ho] at hone
      cases hone
    rw [hk] at htypes
    exact h.hook ⟨hr,horphan⟩ ⟨ho,horphan'⟩ (List.cons.inj htypes).1
      ((MemberNames.word_of_element hmany hwhole).symm.trans
        (hword.trans (MemberNames.word_of_single hone)))

/-- Fields that are apart share no signature. -/
theorem Shaped.signatureOf_ne (hm : (Link.new s r inverse).Shaped m)
    (hm' : (Link.new s o inverse').Shaped m') (h : r.SignaturesApart o)
    (hback : o.SignaturesApart r) :
    (Link.new s r inverse).signatureOf m.kind ≠ (Link.new s o inverse').signatureOf m'.kind := by
  intro heq
  have hkind := kind_eq_of_signatureOf_eq heq
  rw [← hkind] at heq
  have hword : MemberNames.word r.field r.kind.isCollectionValued m.kind =
      MemberNames.word o.field o.kind.isCollectionValued m.kind := word_eq_of_signatureOf_eq heq
  cases hwhole : m.kind.namesWhole with
  | true =>
    rw [MemberNames.word_of_whole hwhole,MemberNames.word_of_whole hwhole] at hword
    exact h.whole hword
  | false =>
    cases hmany : r.kind.isCollectionValued with
    | true =>
      cases hmany' : o.kind.isCollectionValued with
      | true =>
        have htypes := (Prod.mk.inj heq).2
        rw [paramTypes_of_element (l := Link.new s r inverse) hmany hwhole,
          paramTypes_of_element (l := Link.new s o inverse') hmany' hwhole] at htypes
        rw [MemberNames.word_of_element hmany hwhole,MemberNames.word_of_element hmany' hwhole]
          at hword
        exact h.element hmany hmany' (List.cons.inj htypes).1 hword
      | false => exact hm.signatureOf_ne_of_one h hm' hkind hwhole hmany hmany' heq
    | false =>
      cases hmany' : o.kind.isCollectionValued with
      | true =>
        have hwhole' := hkind ▸ hwhole
        exact hm'.signatureOf_ne_of_one hback hm hkind.symm hwhole' hmany' hmany
          (hkind ▸ heq.symm)
      | false =>
        rw [MemberNames.word_of_single hmany,MemberNames.word_of_single hmany'] at hword
        exact h.whole hword

end Link

namespace Validators

variable {s : Settings} {a : Analysis} {entity : String}

theorem nodup_signatures_methodsOf : ((methodsOf s a entity).map Method.signature).Nodup := by
  have hnames : ((methodsOf s a entity).map Method.name).Sublist
      ["validateRelationships",circularValidator,"validateCascadeTypeConsistency"] := by
    rw [methodsOf,List.map_append,List.map_append]
    exact ((List.Sublist.refl _).append (map_ite_nil_sublist _ _)).append (List.Sublist.refl _)
  have hnodup : ((methodsOf s a entity).map (Prod.fst ∘ Method.signature)).Nodup :=
    List.Nodup.sublist hnames (by decide)
  rw [← List.map_map] at hnodup
  exact hnodup.of_map

end Validators

namespace Synthesis

section Links

variable {s : Settings} {c : Catalog} {entity : String} {r o : Relationship} {m : Method}

theorem shaped_of_mem_membersOf {a : Analysis} (hm : m ∈ membersOf s a r) :
    (Link.new s r (a.findInverse? r)).Shaped m := by
  rcases List.mem_append.mp hm with hm | hm
  · exact Link.shaped_accessors m hm
  · exact Link.shaped_helpers m (List.mem_ite_nil_right.mp hm).2

theorem name_of_mem_membersOf (hr : r ∈ (Analysis.ofCatalog s c).linksOf entity)
    (hm : m ∈ membersOf s (.ofCatalog s c) r) :
    (m.kind,m.name) ∈ (MemberNames.ofField r.field r.kind.isCollectionValued).table := by
  obtain ⟨hmem,-,hbears⟩ := mem_linksOf.mp hr
  have hpart : m ∈ (partOf s (.ofCatalog s c) r).methods := by
    rw [partOf_of_style _ _ (Analysis.styleOf_of_bearsMembers hmem hbears)]
    exact hm
  obtain ⟨style,-,hmember⟩ := member_of_mem_partOf hmem hpart
  exact hmember.1

/-- The kind of a member tells its signature. -/
theorem signature_of_mem_membersOf (hr : r ∈ (Analysis.ofCatalog s c).linksOf entity)
    (hm : m ∈ membersOf s (.ofCatalog s c) r) : m.signature =
      (Link.new s r ((Analysis.ofCatalog s c).findInverse? r)).signatureOf m.kind :=
  Prod.ext (MemberNames.eq_of_mem_table _ (name_of_mem_membersOf hr hm))
    (shaped_of_mem_membersOf hm).types

theorem nodup_signatures_membersOf (hr : r ∈ (Analysis.ofCatalog s c).linksOf entity) :
    ((membersOf s (.ofCatalog s c) r).map Method.signature).Nodup := by
  have hkinds : ((membersOf s (.ofCatalog s c) r).map Method.kind).Nodup :=
    Link.nodup_kinds (l := Link.new s r ((Analysis.ofCatalog s c).findInverse? r)) _
  refine hkinds.of_map.map_on (fun m hm m' hm' hsig => ?_)
  rw [signature_of_mem_membersOf hr hm,signature_of_mem_membersOf hr hm'] at hsig
  exact List.inj_on_of_nodup_map hkinds hm hm' (Link.kind_eq_of_signatureOf_eq hsig)

/-- Two fields that have accessors of one kind under one signature. -/
theorem not_disjoint_of_kind {k : MethodKind} (hr : r ∈ (Analysis.ofCatalog s c).linksOf entity)
    (ho : o ∈ (Analysis.ofCatalog s c).linksOf entity)
    (hleft : ∃ m ∈ (Link.new s r ((Analysis.ofCatalog s c).findInverse? r)).accessors r.style,
      m.kind = k)
    (hright : ∃ m ∈ (Link.new s o ((Analysis.ofCatalog s c).findInverse? o)).accessors o.style,
      m.kind = k)
    (heq : (Link.new s r ((Analysis.ofCatalog s c).findInverse? r)).signatureOf k =
      (Link.new s o ((Analysis.ofCatalog s c).findInverse? o)).signatureOf k) :
    ¬ ((membersOf s (.ofCatalog s c) r).map Method.signature).Disjoint
      ((membersOf s (.ofCatalog s c) o).map Method.signature) := by
  obtain ⟨m,hm,rfl⟩ := hleft
  obtain ⟨m',hm',hkind⟩ := hright
  have hm : m ∈ membersOf s (.ofCatalog s c) r := List.mem_append_left _ hm
  have hm' : m' ∈ membersOf s (.ofCatalog s c) o := List.mem_append_left _ hm'
  rw [← signature_of_mem_membersOf hr hm,← hkind,← signature_of_mem_membersOf ho hm'] at heq
  exact fun hdisjoint => hdisjoint (List.mem_map_of_mem hm) (heq ▸ List.mem_map_of_mem hm')

theorem signaturesApart_of_disjoint (hr : r ∈ (Analysis.ofCatalog s c).linksOf entity)
    (ho : o ∈ (Analysis.ofCatalog s c).linksOf entity)
    (h : ((membersOf s (.ofCatalog s c) r).map Method.signature).Disjoint
      ((membersOf s (.ofCatalog s c) o).map Method.signature)) : r.SignaturesApart o where
  whole hcap := by
    refine not_disjoint_of_kind (k := .getter) hr ho Link.exists_getter Link.exists_getter ?_ h
    refine Link.signatureOf_congr ?_ rfl
    rw [MemberNames.word_of_whole rfl,MemberNames.word_of_whole rfl]
    exact hcap
  element hmany hmany' htype hcap := by
    refine not_disjoint_of_kind (k := .adder) hr ho (Link.exists_adder_of_many hmany)
      (Link.exists_adder_of_many hmany') ?_ h
    refine Link.signatureOf_congr ?_ (congrArg (fun t => [t]) htype)
    exact (MemberNames.word_of_element hmany rfl).trans
      (hcap.trans (MemberNames.word_of_element hmany' rfl).symm)
  hook := by
    rintro ⟨hmany,horphan⟩ ⟨hone,horphan'⟩ htype hcap
    refine not_disjoint_of_kind (k := .orphanHook) hr ho
      (Link.exists_orphanHook (.inr hmany) (Link.orphanRemoval_iff.mpr ⟨horphan,.inr hmany⟩))
      (Link.exists_orphanHook (.inl hone) (Link.orphanRemoval_iff.mpr ⟨horphan',.inl hone⟩)) ?_ h
    refine Link.signatureOf_congr ?_ (congrArg (fun t => [t]) htype)
    have hvalued : r.kind.isCollectionValued = true := by
      rw [hmany]
      rfl
    have hsingle : o.kind.isCollectionValued = false := by
      rw [hone]
      rfl
    exact (MemberNames.word_of_element hvalued rfl).trans
      (hcap.trans (MemberNames.word_of_single hsingle).symm)

/-- Two fields share no signature exactly where they are apart, seen from either. -/
theorem disjoint_signatures_iff (hr : r ∈ (Analysis.ofCatalog s c).linksOf entity)
    (ho : o ∈ (Analysis.ofCatalog s c).linksOf entity) :
    ((membersOf s (.ofCatalog s c) r).map Method.signature).Disjoint
      ((membersOf s (.ofCatalog s c) o).map Method.signature) ↔
      r.SignaturesApart o ∧ o.SignaturesApart r := by
  constructor
  · intro h
    exact ⟨signaturesApart_of_disjoint hr ho h,
      signaturesApart_of_disjoint ho hr (List.disjoint_symm h)⟩
  · rintro ⟨h,hback⟩ signature hleft hright
    obtain ⟨m,hm,rfl⟩ := List.mem_map.mp hleft
    obtain ⟨m',hm',hsig⟩ := List.mem_map.mp hright
    rw [signature_of_mem_membersOf hr hm,signature_of_mem_membersOf ho hm'] at hsig
    exact (shaped_of_mem_membersOf hm).signatureOf_ne (shaped_of_mem_membersOf hm') h hback
      hsig.symm

/-- Validators share no signature with members. -/
theorem disjoint_validators (hr : r ∈ (Analysis.ofCatalog s c).linksOf entity) :
    ((membersOf s (.ofCatalog s c) r).map Method.signature).Disjoint
      ((Validators.methodsOf s (.ofCatalog s c) entity).map Method.signature) := by
  intro signature hleft hright
  obtain ⟨m,hm,rfl⟩ := List.mem_map.mp hleft
  obtain ⟨m',hm',hsig⟩ := List.mem_map.mp hright
  obtain ⟨-,hvalidator,-⟩ := Validators.of_mem_methodsOf hm'
  rw [signature_of_mem_membersOf hr hm] at hsig
  have hname : m'.name = _ := congrArg Prod.fst hsig
  have hkind := MethodKind.eq_of_stems_begin (Link.stem_prefix_signatureOf _ m.kind)
    (hname ▸ MethodKind.stem_prefix_of_names hvalidator)
  have htable := name_of_mem_membersOf hr hm
  rw [hkind] at htable
  simp [MemberNames.table] at htable

end Links

section Entities

variable {s : Settings} {c : Catalog}

/-- Where fields have names of their own, so have those of the links of an entity. -/
theorem pairwise_linksOf (h : ∀ e ∈ c.entities, (e.fields.map Field.name).Nodup)
    (entity : String) :
    ((Analysis.ofCatalog s c).linksOf entity).Pairwise (fun r o => r.field ≠ o.field) := by
  have harranged := ((Analysis.relationships_arranged s h).filter (·.source == entity)).filter
    Relationship.bearsMembers
  refine harranged.imp_of_mem (fun {r o} hr ho harr hfield => ?_)
  obtain ⟨-,hrsource,hbears⟩ := mem_linksOf.mp hr
  obtain ⟨-,hosource,-⟩ := mem_linksOf.mp ho
  have hinheritance := (harr (hrsource.trans hosource.symm)).2 hfield
  exact bne_iff_ne.mp (Bool.and_eq_true_iff.mp hbears).1 hinheritance

/-- The methods of an entity have signatures of their own where its links are apart. -/
theorem nodup_signatures_entityOf_iff
    (h : ∀ e ∈ c.entities, (e.fields.map Field.name).Nodup) (entity : String) :
    ((entityOf s (.ofCatalog s c) entity).methods.map Method.signature).Nodup ↔
      ∀ r ∈ (Analysis.ofCatalog s c).linksOf entity, ∀ o ∈ (Analysis.ofCatalog s c).linksOf entity,
        r.field ≠ o.field → r.SignaturesApart o := by
  rw [methods_entityOf,List.map_append,List.nodup_append',List.map_flatMap,List.nodup_flatMap]
  constructor
  · rintro ⟨⟨-,hpairwise⟩,-⟩ r hr o ho hne
    have hsymm : Std.Symm (Function.onFun List.Disjoint
        (fun r => (membersOf s (.ofCatalog s c) r).map Method.signature)) :=
      ⟨fun _ _ => List.disjoint_symm⟩
    have hdisjoint := hpairwise.forall hr ho (fun heq => hne (congrArg Relationship.field heq))
    exact ((disjoint_signatures_iff hr ho).mp hdisjoint).1
  · intro hapart
    refine ⟨⟨fun r hr => nodup_signatures_membersOf hr,?_⟩,?_,?_⟩
    · refine (pairwise_linksOf h entity).imp_of_mem (fun {r o} hr ho hne => ?_)
      exact (disjoint_signatures_iff hr ho).mpr ⟨hapart r hr o ho hne,hapart o ho r hr hne.symm⟩
    · exact Validators.nodup_signatures_methodsOf.sublist (map_ite_nil_sublist _ _)
    · intro signature hleft hright
      obtain ⟨r,hr,hleft⟩ := List.mem_flatMap.mp hleft
      exact disjoint_validators hr hleft ((map_ite_nil_sublist _ _).subset hright)

end Entities

end Synthesis

namespace Generation

/-- Where fields have names of their own within each entity, every method of the output has a
signature of its own within its class exactly where any two fields of an entity are apart. -/
theorem signatures_nodup_iff {cancelled : Bool} {s : Settings} {c : Catalog} {g : Generation}
    (h : run cancelled s c = .ok g) (hfields : ∀ e ∈ c.entities, (e.fields.map Field.name).Nodup) :
    (∀ e ∈ g.synthesis.entities, (e.methods.map Method.signature).Nodup) ↔
    ∀ r ∈ g.analysis.relationships, ∀ o ∈ g.analysis.relationships, r.bearsMembers = true →
      o.bearsMembers = true → r.source = o.source → r.field ≠ o.field → r.SignaturesApart o := by
  obtain rfl := eq_of_run h
  refine (Synthesis.forall_methods_iff (P := fun ms => (ms.map Method.signature).Nodup)
    List.nodup_nil).trans ?_
  simp only [Synthesis.nodup_signatures_entityOf_iff hfields]
  constructor
  · intro hall r hr o ho hrbears hobears hsource
    exact hall r.source (Analysis.source_mem_entities hr) r
      (Synthesis.mem_linksOf.mpr ⟨hr,rfl,hrbears⟩) o
      (Synthesis.mem_linksOf.mpr ⟨ho,hsource.symm,hobears⟩)
  · intro hall entity _ r hr o ho
    obtain ⟨hrmem,hrsource,hrbears⟩ := Synthesis.mem_linksOf.mp hr
    obtain ⟨homem,hosource,hobears⟩ := Synthesis.mem_linksOf.mp ho
    exact hall r hrmem o homem hrbears hobears (hrsource.trans hosource.symm)

/-- A customer with an address for bills and addresses for goods, all deleted with their use. -/
def billedCustomer : Catalog :=
  .ofList [
    { name := "Customer", fields := [
      { name := "billing", type := "Address",
        annotations := [⟨"OneToOne","orphanRemoval = true"⟩] },
      { name := "addresses", type := "List<Address>",
        annotations := [⟨"OneToMany","orphanRemoval = true"⟩] }] },
    { name := "Address" }]

/-- The hooks are told apart by `billing` and `address`. -/
theorem billedCustomer_signatures :
    run false {} billedCustomer = .ok (ofCatalog {} billedCustomer) ∧
    (∀ e ∈ billedCustomer.entities, (e.fields.map Field.name).Nodup) ∧
    ∀ e ∈ (ofCatalog {} billedCustomer).synthesis.entities,
      (e.methods.map Method.signature).Nodup := by
  have hrun : run false {} billedCustomer = .ok (ofCatalog {} billedCustomer) := rfl
  have hfields : ∀ e ∈ billedCustomer.entities, (e.fields.map Field.name).Nodup := by
    decide +kernel
  exact ⟨hrun,hfields,(signatures_nodup_iff hrun hfields).mpr (by decide +kernel)⟩

/-- A customer whose one address is called like one of the other addresses. -/
def addressedCustomer : Catalog :=
  .ofList [
    { name := "Customer", fields := [
      { name := "address", type := "Address",
        annotations := [⟨"OneToOne","orphanRemoval = true"⟩] },
      { name := "addresses", type := "List<Address>",
        annotations := [⟨"OneToMany","orphanRemoval = true"⟩] }] },
    { name := "Address" }]

/-- Both fields get a hook `onAddressOrphaned(Address)`. -/
theorem exists_signature_twice : ¬ ∀ (cancelled : Bool) (s : Settings) (c : Catalog)
    (g : Generation), (∀ e ∈ c.entities, (e.fields.map Field.name).Nodup) →
    run cancelled s c = .ok g →
    ∀ e ∈ g.synthesis.entities, (e.methods.map Method.signature).Nodup := by
  intro hall
  have hrun : run false {} addressedCustomer = .ok (ofCatalog {} addressedCustomer) := rfl
  have hfields : ∀ e ∈ addressedCustomer.entities, (e.fields.map Field.name).Nodup := by
    decide +kernel
  have htwice : ∃ e ∈ (ofCatalog {} addressedCustomer).synthesis.entities,
      ¬ (e.methods.map Method.signature).Nodup := by
    decide +kernel
  obtain ⟨e,he,hsame⟩ := htwice
  exact hsame (hall _ _ _ _ hfields hrun e he)

end Generation

end EntityLink
