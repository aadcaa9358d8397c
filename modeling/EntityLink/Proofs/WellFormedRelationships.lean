import EntityLink.Proofs.CallResolution
import Mathlib.Data.List.Forall2

namespace EntityLink
open Text

/-- What is read as the text of an attribute is trimmed, and more than white space. -/
theorem Attributes.trim_of_string? {a : Attributes} {key value : String}
    (h : a.string? key = some value) : trim value = value ∧ allBlank value = false := by
  obtain ⟨raw,-,hvalue⟩ := Option.bind_eq_some_iff.mp h
  simp only at hvalue
  split at hvalue
  · cases hvalue
  · rename_i hempty
    rw [← Option.some.inj hvalue,trim,allBlank,String.toList_ofList,trimChars_trimChars]
    refine ⟨rfl,?_⟩
    obtain ⟨c,cs,hcs⟩ := List.exists_cons_of_ne_nil (mt List.isEmpty_iff.mpr hempty)
    have hfirst := head_trimChars (unquote raw.toList) c (by rw [hcs]; rfl)
    rw [hcs,List.all_cons,hfirst,Bool.false_and]

namespace CascadeSet

theorem contains_insert (s : CascadeSet) (c d : Cascade) :
    (s.insert c).contains d = true ↔ d = c ∨ s.contains d = true := by
  cases c <;> cases d <;> simp [insert,contains]

theorem contains_foldl_insert (cs : List Cascade) (s : CascadeSet) (d : Cascade) :
    (cs.foldl insert s).contains d = true ↔ d ∈ cs ∨ s.contains d = true := by
  induction cs generalizing s with
  | nil => simp
  | cons c cs ih => rw [List.foldl_cons,ih,contains_insert,List.mem_cons,or_left_comm,or_assoc]

theorem contains_ofList {cs : List Cascade} {d : Cascade} (h : d ∈ cs) :
    (ofList cs).contains d = true :=
  (contains_foldl_insert cs {} d).mpr (.inl h)

end CascadeSet

/-- A cascade set counts as written down only where it has members. -/
theorem CascadeAdvice.exists_of_explicit {cascade : List String} {fetch : Option String}
    {f : Facts} (h : (advise cascade fetch f).explicit = true) :
    ∃ d, (advise cascade fetch f).cascade.contains d = true := by
  unfold advise written? at h ⊢
  cases hread : cascade.filterMap Cascade.parse? with
  | nil =>
    rw [hread] at h
    cases h
  | cons d ds => exact ⟨d,CascadeSet.contains_ofList List.mem_cons_self⟩

/-- An entity goes by this name, as against a persistent type of another kind. -/
def Catalog.HasEntity (c : Catalog) (name : String) : Prop :=
  ∃ e ∈ c.entities, e.kind = .entity ∧ e.name = name

theorem Catalog.hasEntity_of_resolve {c : Catalog} {type name : String}
    (h : c.resolve? type = some name) : c.HasEntity name := by
  obtain ⟨e,he,rfl⟩ := Option.map_eq_some_iff.mp h
  obtain ⟨hfound,hkind⟩ := Option.filter_eq_some_iff.mp he
  refine ⟨e,?_,eq_of_beq hkind,rfl⟩
  rcases Option.or_eq_some_iff.mp hfound with hfound | ⟨-,hfound⟩
  · exact List.mem_of_find?_eq_some hfound
  · unfold bySimple? at hfound
    split at hfound
    · rename_i d hd
      cases hfound
      exact List.mem_of_mem_filter (hd ▸ List.mem_singleton_self e)
    · cases hfound

/-- What holds of every relationship: between whom it stands, what each kind may carry, and which
notes come together. -/
structure Relationship.WellFormed (c : Catalog) (r : Relationship) : Prop where
  source : c.HasEntity r.source
  target : r.kind.isAssociation = true → r.target = "" ∨ c.HasEntity r.target
  mappedBy : ∀ field, r.mappedBy = some field →
    (r.kind = .oneToOne ∨ r.kind = .oneToMany ∨ r.kind = .manyToMany) ∧
      trim field = field ∧ allBlank field = false
  inverseSide : r.ownerSide = false ↔ r.mappedBy.isSome = true
  orphanRemoval : r.orphanRemoval = true → r.kind = .oneToOne ∨ r.kind = .oneToMany
  joinAttributes : r.joinAttributes ≠ [] → r.kind = .manyToMany
  explicit : r.cascadeExplicit = true → ∃ d, r.cascade.contains d = true
  inheritance : r.inheritance.isSome = true ↔ r.kind = .inheritance
  superclass : r.kind = .inheritance → r.field = "superclass"
  paired : r.bidirectional = true ↔ r.inverseField.isSome = true
  pairable : r.bidirectional = true → r.kind.isAssociation = true ∧ r.hasTarget = true

/-- The relationships of an entity are its inheritance link, if it has one, and behind it one for
each of some of its fields. A field that is not stored is none of these. -/
def Entity.Yields (e : Entity) (rs : List Relationship) : Prop :=
  ∃ (link : Option Relationship) (fs : List Field) (ls : List Relationship),
    rs = link.toList ++ ls ∧ (∀ r ∈ link, r.kind = .inheritance) ∧ fs.Sublist e.fields ∧
    (∀ f ∈ fs, f.isStatic = false ∧ f.annotated? "Transient" = none) ∧
    List.Forall₂ (fun f r => r.kind ≠ .inheritance ∧ r.field = f.name ∧ r.fieldType = f.type) fs ls

namespace Catalog

variable {c : Catalog} {e : Entity} {f : Field} {r : Relationship}

theorem mappedTarget_hasEntity {kind : RelationKind} (h : kind.isAssociation = true)
    (type : TypeExpr) (a : Attributes) :
    c.mappedTarget kind type a = "" ∨ c.HasEntity (c.mappedTarget kind type a) := by
  simp only [mappedTarget]
  split
  · exact .inr (hasEntity_of_resolve ‹_›)
  · rw [if_pos h]
    exact .inl rfl

/-- Only kinds that may name their owner are told by it to be the inverse side. -/
theorem ownsLink_eq_false_iff (kind : RelationKind) (written : Option String) :
    kind.ownsLink (if kind.canBeInverse then written else none) = false ↔
      (if kind.canBeInverse then written else none).isSome = true := by
  unfold RelationKind.ownsLink
  cases kind.canBeInverse with
  | false => simp
  | true => cases written <;> simp

theorem relationshipOf_wellFormed (he : e ∈ c.entities) (hentity : e.kind = .entity) (f : Field)
    {kind : RelationKind} (hkind : kind ≠ .inheritance) {target : String}
    (htarget : kind.isAssociation = true → target = "" ∨ c.HasEntity target) (a : Attributes) :
    (relationshipOf e f kind target a).WellFormed c where
  source := ⟨e,he,hentity,rfl⟩
  target := htarget
  mappedBy := by
    intro field hfield
    obtain ⟨hinverse,hwritten⟩ := Option.ite_none_right_eq_some.mp hfield
    refine ⟨?_,Attributes.trim_of_string? hwritten⟩
    show kind = .oneToOne ∨ kind = .oneToMany ∨ kind = .manyToMany
    cases kind <;> simp_all [RelationKind.canBeInverse]
  inverseSide := ownsLink_eq_false_iff kind _
  orphanRemoval := by
    intro horphan
    have hmay := (Bool.and_eq_true_iff.mp horphan).1
    rwa [Bool.or_eq_true,beq_iff_eq,beq_iff_eq] at hmay
  joinAttributes := by
    intro hattributes
    by_contra hmany
    exact hattributes (if_neg (mt beq_iff_eq.mp hmany))
  explicit := CascadeAdvice.exists_of_explicit
  inheritance := iff_of_false Bool.false_ne_true hkind
  superclass := fun h => absurd h hkind
  paired := iff_of_false Bool.false_ne_true Bool.false_ne_true
  pairable := fun h => absurd h Bool.false_ne_true

/-- A relationship is made from a stored field, with a target that was looked up if entities are
linked by it. -/
theorem exists_relationshipOf (h : c.relationship? e f = some r) :
    (f.isStatic = false ∧ f.annotated? "Transient" = none) ∧
      ∃ kind target a, r = relationshipOf e f kind target a ∧
        (kind.isAssociation = true → target = "" ∨ c.HasEntity target) := by
  unfold relationship? at h
  split at h
  · cases h
  · rename_i hstored
    simp only [isExcluded,Bool.or_eq_true,not_or,Bool.not_eq_true,Option.isSome_eq_false_iff,
      Option.isNone_iff_eq_none] at hstored
    refine ⟨hstored,?_⟩
    split at h
    · exact ⟨_,_,_,(Option.some.inj h).symm,fun hk => mappedTarget_hasEntity hk _ _⟩
    · unfold implicitRelationship? at h
      obtain ⟨target,htarget,hr⟩ := Option.map_eq_some_iff.mp h
      exact ⟨_,target,_,hr.symm,fun _ => .inr (hasEntity_of_resolve htarget)⟩

theorem relationship_wellFormed (he : e ∈ c.entities) (hentity : e.kind = .entity)
    (h : c.relationship? e f = some r) : r.WellFormed c := by
  have hkind := (relationship_key h).2.2
  obtain ⟨-,kind,target,a,rfl,htarget⟩ := exists_relationshipOf h
  exact relationshipOf_wellFormed he hentity f hkind htarget a

theorem inheritanceLink_wellFormed (he : e ∈ c.entities) (hentity : e.kind = .entity)
    (h : c.inheritanceLink? e = some r) : r.WellFormed c := by
  simp only [inheritanceLink?] at h
  split at h
  · cases h
    exact {
      source := ⟨e,he,hentity,rfl⟩
      target := fun h => absurd h Bool.false_ne_true
      mappedBy := fun _ h => absurd h (Option.some_ne_none _).symm
      inverseSide := iff_of_false Bool.noConfusion Bool.false_ne_true
      orphanRemoval := fun h => absurd h Bool.false_ne_true
      joinAttributes := fun h => absurd rfl h
      explicit := fun h => absurd h Bool.false_ne_true
      inheritance := iff_of_true rfl rfl
      superclass := fun _ => rfl
      paired := iff_of_false Bool.false_ne_true Bool.false_ne_true
      pairable := fun h => absurd h Bool.false_ne_true }
  · cases h

end Catalog

namespace Analysis

variable {s : Settings} {c : Catalog} {e : Entity} {r : Relationship}

theorem classified_wellFormed (h : r ∈ classified c) : r.WellFormed c := by
  obtain ⟨e,he,hentity,hr | ⟨f,-,hr⟩⟩ := mem_classified.mp h
  · exact Catalog.inheritanceLink_wellFormed he hentity hr
  · exact Catalog.relationship_wellFormed he hentity hr

/-- Marking, pairing and advice leave every relationship well formed. -/
theorem relationships_wellFormed (hr : r ∈ (ofCatalog s c).relationships) : r.WellFormed c := by
  obtain ⟨q,hq,hsettles⟩ := exists_classified hr
  have hwell := classified_wellFormed hq
  have hpaired : r.bidirectional = true ↔ r.inverseField.isSome = true := by
    constructor
    · intro hbi
      obtain ⟨o,-,hpair⟩ := exists_partner hr hbi
      rw [hpair.left_inverse]
      rfl
    · intro hnoted
      obtain ⟨field,hfield⟩ := Option.isSome_iff_exists.mp hnoted
      exact bidirectional_of_inverseField hr hfield
  have hexplicit : r.cascadeExplicit = true → ∃ d, r.cascade.contains d = true := by
    intro hr
    have hq : q.cascadeExplicit = true := by rwa [hsettles.kept] at hr
    rw [hsettles.explicit hq]
    exact hwell.explicit hq
  have hpairable : r.bidirectional = true → r.kind.isAssociation = true ∧ r.hasTarget = true := by
    intro hbi
    obtain ⟨o,-,hpair⟩ := exists_partner hr hbi
    exact Bool.and_eq_true_iff.mp hpair.facing.left
  rw [hsettles.kept] at hpaired hexplicit hpairable ⊢
  exact { hwell with explicit := hexplicit, paired := hpaired, pairable := hpairable }

/-- Among all relationships those of an entity are told by its name. -/
theorem classified_of_entity (he : e ∈ c.entities) :
    (classified c).filter (fun r => r.source == e.name) =
      if e.kind = .entity then (c.classify e).relationships else [] := by
  have hothers : ∀ es : List Entity, (∀ d ∈ es, d.name ≠ e.name) →
      ((es.filter (·.kind == .entity)).flatMap (fun d => (c.classify d).relationships)).filter
        (fun r => r.source == e.name) = [] := by
    intro es hne
    apply List.filter_eq_nil_iff.mpr
    intro r hr
    obtain ⟨d,hd,hr⟩ := List.mem_flatMap.mp hr
    rw [Catalog.source_of_mem_classify hr,beq_iff_eq]
    exact hne d (List.mem_of_mem_filter hd)
  have hown : ((c.classify e).relationships).filter (fun r => r.source == e.name) =
      (c.classify e).relationships := by
    apply List.filter_eq_self.mpr
    intro r hr
    exact beq_iff_eq.mpr (Catalog.source_of_mem_classify hr)
  obtain ⟨before,after,hsplit⟩ := List.append_of_mem he
  have hnodup := c.nodup
  rw [hsplit,List.map_append,List.map_cons,List.nodup_middle,List.nodup_cons,← List.map_append]
    at hnodup
  have hne : ∀ d ∈ before ++ after, d.name ≠ e.name := by
    intro d hd hname
    exact hnodup.1 (hname ▸ List.mem_map_of_mem hd)
  rw [classified,hsplit,List.filter_append,List.filter_cons,List.flatMap_append,
    List.filter_append,hothers before (fun d hd => hne d (List.mem_append_left _ hd)),
    List.nil_append]
  have hlast := hothers after (fun d hd => hne d (List.mem_append_right _ hd))
  by_cases hentity : e.kind = .entity
  · rw [if_pos hentity,if_pos (beq_iff_eq.mpr hentity),List.flatMap_cons,List.filter_append,hown,
      hlast,List.append_nil]
  · rw [if_neg hentity,if_neg (mt beq_iff_eq.mp hentity),hlast]

/-- What is settled of some fields comes from these fields, one by one. -/
theorem exists_stored {cs : List Cycle} {fs : List Field} {rs : List Relationship}
    (h : List.Forall₂ (Relationship.Settles cs) (fs.filterMap (c.relationship? e)) rs) :
    ∃ gs : List Field, gs.Sublist fs ∧
      (∀ f ∈ gs, f.isStatic = false ∧ f.annotated? "Transient" = none) ∧
      List.Forall₂ (fun f r => r.kind ≠ .inheritance ∧ r.field = f.name ∧ r.fieldType = f.type)
        gs rs := by
  induction fs generalizing rs with
  | nil =>
    cases h
    exact ⟨[],List.Sublist.slnil,fun f hf => absurd hf List.not_mem_nil,.nil⟩
  | cons f fs ih =>
    cases hf : c.relationship? e f with
    | none =>
      rw [List.filterMap_cons_none hf] at h
      obtain ⟨gs,hsub,hstored,hrs⟩ := ih h
      exact ⟨gs,hsub.cons f,hstored,hrs⟩
    | some q =>
      rw [List.filterMap_cons_some hf] at h
      cases h with
      | cons hsettles h =>
        obtain ⟨gs,hsub,hstored,hrs⟩ := ih h
        have hkind := (Catalog.relationship_key hf).2.2
        obtain ⟨hkept,kind,target,a,rfl,-⟩ := Catalog.exists_relationshipOf hf
        refine ⟨f :: gs,hsub.cons_cons f,List.forall_mem_cons.mpr ⟨hkept,hstored⟩,.cons ?_ hrs⟩
        rw [hsettles.kept]
        exact ⟨hkind,rfl,rfl⟩

theorem yields (s : Settings) (he : e ∈ c.entities) :
    e.Yields ((ofCatalog s c).relationshipsOf e.name) := by
  have hof : List.Forall₂ (Relationship.Settles (cyclesOf s (classified c)))
      ((classified c).filter (fun r => r.source == e.name))
      ((ofCatalog s c).relationshipsOf e.name) := by
    refine List.rel_filter (fun q r hsettles => ?_) (forall₂_settles s c)
    have hsource : q.source = r.source := congrArg RelationshipKey.source hsettles.key_eq
    simp only [hsource]
  rw [classified_of_entity he] at hof
  by_cases hentity : e.kind = .entity
  · rw [if_pos hentity] at hof
    change List.Forall₂ _ ((c.inheritanceLink? e).toList ++ e.fields.filterMap (c.relationship? e))
      _ at hof
    generalize (ofCatalog s c).relationshipsOf e.name = rs at hof
    cases hlink : c.inheritanceLink? e with
    | none =>
      rw [hlink] at hof
      obtain ⟨fs,hsub,hstored,hls⟩ := exists_stored hof
      exact ⟨none,fs,rs,rfl,fun r hr => (nomatch hr),hsub,hstored,hls⟩
    | some q =>
      rw [hlink] at hof
      cases hof with
      | @cons _ r _ ls hsettles hof =>
        obtain ⟨fs,hsub,hstored,hls⟩ := exists_stored hof
        have hkind : r.kind = .inheritance := by
          rw [hsettles.kept]
          exact (Catalog.inheritanceLink_key hlink).2.2
        exact ⟨some r,fs,ls,rfl,fun x hx => Option.some.inj hx ▸ hkind,hsub,hstored,hls⟩
  · rw [if_neg hentity,List.forall₂_nil_left_iff] at hof
    rw [hof]
    exact ⟨none,[],[],rfl,fun r hr => (nomatch hr),List.nil_sublist _,
      fun f hf => absurd hf List.not_mem_nil,.nil⟩

/-- A run returns well-formed relationships only. Each entity has one for each of some of its
stored fields, and before them its inheritance link if it has one. -/
theorem wellFormed_of_run {cancelled : Bool} {s : Settings} {c : Catalog} {a : Analysis}
    (h : run cancelled s c = .ok a) : (∀ r ∈ a.relationships, r.WellFormed c) ∧
      ∀ e ∈ c.entities, e.Yields (a.relationshipsOf e.name) := by
  obtain rfl := eq_of_run h
  exact ⟨fun r hr => relationships_wellFormed hr,fun e he => yields s he⟩

/-- A manager is a person with reports, and with a deputy and a number that are not stored. -/
def staffedManager : Catalog :=
  .ofList [
    { name := "Person", fields := [
      { name := "boss", type := "Manager", annotations := [⟨"ManyToOne",""⟩] }] },
    { name := "Manager", superclass := some "Person", fields := [
      { name := "total", type := "Manager", isStatic := true },
      { name := "reports", type := "List<Person>", annotations :=
        [⟨"OneToMany","mappedBy = \" boss \", cascade = PERSIST, orphanRemoval = true"⟩] },
      { name := "deputy", type := "Person", annotations := [⟨"Transient",""⟩] }] }]

theorem staffedManager_wellFormed :
    run false uncycled staffedManager = .ok (ofCatalog uncycled staffedManager) ∧
    ((ofCatalog uncycled staffedManager).relationshipsOf "Manager").map
      (fun r => (r.kind,r.field,r.mappedBy,r.bidirectional)) =
        [(.inheritance,"superclass",none,false),(.oneToMany,"reports",some "boss",true)] ∧
    (∀ r ∈ (ofCatalog uncycled staffedManager).relationships, r.WellFormed staffedManager) ∧
    ∀ e ∈ staffedManager.entities,
      e.Yields ((ofCatalog uncycled staffedManager).relationshipsOf e.name) := by
  have hrun : run false uncycled staffedManager = .ok (ofCatalog uncycled staffedManager) := rfl
  exact ⟨hrun,by decide +kernel,wellFormed_of_run hrun⟩

end Analysis

end EntityLink
