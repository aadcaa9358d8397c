import EntityLink.Generation
import EntityLink.Proofs.InverseLookup
import EntityLink.Proofs.MemberCalls

namespace EntityLink
open Java

namespace Validators

/-- The value that a check looks at: the field itself, or one element. -/
def checkedValue (r : Relationship) : Expr :=
  if r.kind.isCollection then .var (safeIdentifier (Noun.singularize r.field))
  else .thisField r.field

/-- The calls of validators: they go through a collection by its getter, and ask a checked value
for the field that leads back. -/
inductive Calls (a : Analysis) (rs : List Relationship) : Expr → Prop
  | own {r : Relationship} (mem : r ∈ rs) (many : r.kind.isCollection = true) :
      Calls a rs (.call .this (MemberNames.ofField r.field true).getter [])
  | back {r o : Relationship} (mem : r ∈ rs) (inverse : a.findInverse? r = some o) :
      Calls a rs (.call (checkedValue r)
        (MemberNames.ofField o.field o.kind.isCollection).getter [])
  | contains {receiver : Expr} {arguments : List Expr} (foreign : receiver ≠ .this) :
      Calls a rs (.call receiver "contains" arguments)

theorem calls_checkedValue (r : Relationship) : (checkedValue r).calls = [] := by
  unfold checkedValue
  split
  · rfl
  · rfl

theorem calls_perValue {r : Relationship} {failed : Expr → Expr} {e : Expr}
    (h : e ∈ (perValue r failed).calls) :
    (r.kind.isCollection = true ∧
      e = .call .this (MemberNames.ofField r.field true).getter []) ∨
    e ∈ (failed (checkedValue r)).calls := by
  unfold perValue at h
  unfold checkedValue
  split at h
  · rename_i hmany
    simp only [Stmt.calls_forEach,Stmt.calls_when,Expr.callThis,Expr.isNull,invalidate,
      callsAll_cons,callsAll_nil,Stmt.calls_assign,Expr.calls_call,Expr.calls_or,Expr.callsIn_cons,
      Expr.callsIn_nil,Expr.calls_same,Expr.calls_var,Expr.calls_null,Expr.calls_this,
      Expr.calls_bool,List.append_nil,List.nil_append,List.cons_append,List.mem_cons] at h
    rw [if_pos hmany]
    exact h.imp_left (⟨hmany,·⟩)
  · rename_i hmany
    simp only [Stmt.calls_when,Expr.notNull,Expr.thisField,invalidate,callsAll_cons,callsAll_nil,
      Stmt.calls_assign,Expr.calls_and,Expr.callsIn_cons,Expr.callsIn_nil,Expr.calls_notSame,
      Expr.calls_field,Expr.calls_var,Expr.calls_null,Expr.calls_this,Expr.calls_bool,
      List.append_nil,List.nil_append] at h
    rw [if_neg hmany]
    exact .inr h

theorem calls_missesBack {o : Relationship} {value e : Expr} (hvalue : value.calls = [])
    (h : e ∈ (missesBack o value).calls) :
    e = .call value (MemberNames.ofField o.field o.kind.isCollection).getter [] ∨
    ∃ receiver, receiver ≠ .this ∧ e = .call receiver "contains" [.this] := by
  simp only [missesBack] at h
  split at h
  · simp only [Expr.calls_not,Expr.calls_call,Expr.callsIn_cons,Expr.callsIn_nil,Expr.calls_this,
      hvalue,List.append_nil,List.mem_cons,List.not_mem_nil,or_false] at h
    exact h.symm.imp_right (fun h => ⟨_,Expr.noConfusion,h⟩)
  · simp only [Expr.calls_notSame,Expr.calls_call,Expr.callsIn_nil,Expr.calls_this,hvalue,
      List.append_nil,List.mem_singleton] at h
    exact .inl h

variable {a : Analysis} {rs : List Relationship}

theorem calls_inverseChecks {r : Relationship} (hr : r ∈ rs) :
    ∀ e ∈ callsAll (inverseChecks a r), Calls a rs e := by
  intro e he
  unfold inverseChecks at he
  split at he
  · cases he
  · rename_i o hinverse
    simp only [callsAll_cons,callsAll_nil,Stmt.calls_comment,List.nil_append,List.append_nil] at he
    rcases calls_perValue he with ⟨hmany,rfl⟩ | hfailed
    · exact .own hr hmany
    · rcases calls_missesBack (calls_checkedValue r) hfailed with rfl | ⟨receiver,hforeign,rfl⟩
      · exact .back hr hinverse
      · exact .contains hforeign

theorem calls_guardChecks {r : Relationship} (hr : r ∈ rs) :
    ∀ e ∈ callsAll (guardChecks r), Calls a rs e := by
  intro e he
  unfold guardChecks at he
  split at he
  · simp only [callsAll_cons,callsAll_nil,Stmt.calls_comment,List.nil_append,List.append_nil] at he
    rcases calls_perValue he with ⟨hmany,rfl⟩ | hfailed
    · exact .own hr hmany
    · rw [Expr.calls_not,Expr.calls_instanceOf,calls_checkedValue] at hfailed
      cases hfailed
  · cases he

theorem calls_aggregate {name doc : String} {checks : List Stmt}
    (h : ∀ e ∈ callsAll checks, Calls a rs e) :
    ∀ e ∈ callsAll (aggregate name doc checks).body, Calls a rs e := by
  simpa [aggregate] using h

theorem calls_validateRelationships :
    ∀ e ∈ callsAll (validateRelationships a rs).body, Calls a rs e := by
  apply calls_aggregate
  split
  · simp
  · intro e he
    rw [callsAll_flatMap,List.mem_flatMap] at he
    obtain ⟨r,hr,he⟩ := he
    exact calls_inverseChecks hr e he

theorem calls_validateCircular (s : Settings) :
    ∀ e ∈ callsAll (validateCircular s rs).body, Calls a rs e := by
  apply calls_aggregate
  intro e he
  rw [callsAll_flatMap,List.mem_flatMap] at he
  obtain ⟨r,hr,he⟩ := he
  exact calls_guardChecks hr e he

theorem calls_validateCascades : callsAll (validateCascades a rs).body = [] := by
  simp only [validateCascades,callsAll_append,callsAll_cons,callsAll_nil,Stmt.calls_ret,
    Expr.calls_bool,List.append_nil]
  induction rs.flatMap (conflictsOf a) with
  | nil => rfl
  | cons c cs ih => rw [List.map_cons,callsAll_cons,Stmt.calls_comment,List.nil_append,ih]

/-- What every validator of an entity is. -/
theorem of_mem_methodsOf {s : Settings} {entity : String} {m : Method}
    (h : m ∈ methodsOf s a entity) : m.kind = .validator ∧ MethodKind.validator.Names m.name ∧
      ∀ e ∈ callsAll m.body, Calls a (checked a entity) e := by
  simp only [methodsOf,List.mem_append,List.mem_singleton] at h
  rcases h with (rfl | h) | rfl
  · exact ⟨rfl,⟨"Relationships",by decide,rfl⟩,calls_validateRelationships⟩
  · split at h
    · obtain rfl := List.mem_singleton.mp h
      exact ⟨rfl,⟨"CircularDependencies",by decide,rfl⟩,calls_validateCircular s⟩
    · cases h
  · refine ⟨rfl,⟨"CascadeTypeConsistency",by decide,rfl⟩,?_⟩
    rw [calls_validateCascades]
    exact fun e he => absurd he List.not_mem_nil

end Validators

/-- The style of an association tells whether its field holds many. -/
theorem AccessorStyle.of_isAssociation {k : RelationKind} {style : AccessorStyle}
    (h : of? k = some style) (hk : k.isAssociation = true) :
    style ≠ .plain ∧ (style == .many) = k.isCollection := by
  cases k with
  | none | inheritance | embedded | composition => cases hk
  | oneToOne | oneToMany | manyToOne | manyToMany =>
    cases h
    decide

/-- An association has the member names that its inverse side calls. -/
theorem Link.names_new {s : Settings} {r : Relationship} {inverse : Option Relationship}
    (h : r.kind.isAssociation = true) :
    (Link.new s r inverse).names = (Inverse.ofRelationship r).names := by
  have hvalued : r.kind.isCollectionValued = r.kind.isCollection := by
    cases hk : r.kind with
    | none | inheritance | embedded | composition =>
      rw [hk] at h
      cases h
    | oneToOne | oneToMany | manyToOne | manyToMany => rfl
  rw [Link.new,Inverse.ofRelationship,hvalued]

/-- An inverse is that of a paired relationship, as it was looked up. -/
theorem Link.of_inverse_eq_some {s : Settings} {r : Relationship} {inverse : Option Relationship}
    {i : Inverse} (h : (Link.new s r inverse).inverse = some i) :
    r.bidirectional = true ∧ ∃ o, inverse = some o ∧ Inverse.ofRelationship o = i := by
  rw [Link.new] at h
  split at h
  · exact ⟨‹_›,Option.map_eq_some_iff.mp h⟩
  · cases h

namespace Synthesis

variable {s : Settings} {a : Analysis}

/-- The style in which a relationship gets accessors, none if it gets none. -/
def styleOf? (r : Relationship) : Option AccessorStyle :=
  if r.hasTarget then AccessorStyle.of? r.kind else none

theorem of_styleOf? {r : Relationship} {style : AccessorStyle} (h : styleOf? r = some style) :
    r.hasTarget = true ∧ AccessorStyle.of? r.kind = some style := by
  unfold styleOf? at h
  split at h
  · exact ⟨‹_›,h⟩
  · cases h

/-- What a relationship with accessors adds to its entity. -/
theorem partOf_of_style (s : Settings) (a : Analysis) {r : Relationship} {style : AccessorStyle}
    (h : styleOf? r = some style) : partOf s a r =
      { imports := (Link.new s r (a.findInverse? r)).imports s.persistenceNamespace
        fields := [(Link.new s r (a.findInverse? r)).fieldDecl]
        methods := (Link.new s r (a.findInverse? r)).accessors style ++
          (if s.generateHelpers then (Link.new s r (a.findInverse? r)).helpers else [])
        guarded := (Link.new s r (a.findInverse? r)).policy.circularGuard } := by
  obtain ⟨htarget,hof⟩ := of_styleOf? h
  have hkind : r.kind ≠ .inheritance := by
    intro hkind
    rw [hkind] at hof
    cases hof
  rw [partOf,if_neg hkind,htarget,if_neg (by decide),hof]

/-- Without accessors it adds no members and no guard. -/
theorem partOf_of_no_style (s : Settings) (a : Analysis) {r : Relationship}
    (h : styleOf? r = none) : (partOf s a r).fields = [] ∧ (partOf s a r).methods = [] ∧
      (partOf s a r).guarded = false := by
  unfold partOf
  split
  · exact ⟨rfl,rfl,rfl⟩
  · unfold styleOf? at h
    cases htarget : r.hasTarget with
    | false => exact ⟨rfl,rfl,rfl⟩
    | true =>
      rw [htarget,if_pos rfl] at h
      rw [if_neg (by decide),h]
      exact ⟨rfl,rfl,rfl⟩

/-- The members of a relationship. -/
theorem methods_partOf (s : Settings) (a : Analysis) (r : Relationship) :
    (partOf s a r).methods = match styleOf? r with
      | none => []
      | some style => (Link.new s r (a.findInverse? r)).accessors style ++
          (if s.generateHelpers then (Link.new s r (a.findInverse? r)).helpers else []) := by
  cases h : styleOf? r with
  | none => exact (partOf_of_no_style s a h).2.1
  | some style => rw [partOf_of_style s a h]

theorem mem_methods_entityOf {entity : String} {m : Method}
    (h : m ∈ (entityOf s a entity).methods) :
    (∃ r ∈ a.relationshipsOf entity, m ∈ (partOf s a r).methods) ∨
      m ∈ Validators.methodsOf s a entity := by
  simp only [entityOf,List.mem_append,List.mem_flatMap,partsOf,List.mem_map] at h
  rcases h with ⟨part,⟨r,hr,rfl⟩,hm⟩ | h
  · exact .inl ⟨r,hr,hm⟩
  · exact .inr (List.mem_ite_nil_right.mp h).2

/-- The analyzed entities that get anything, before the guard is imported. -/
def drafts (s : Settings) (a : Analysis) : List GeneratedEntity :=
  ((a.entities.map AnalyzedEntity.name).map (entityOf s a)).filter (fun e => !e.isEmpty)

/-- Imports the guard, if there is one, where it stands elsewhere. -/
def withGuard (g : Option Guard) (e : GeneratedEntity) : GeneratedEntity :=
  g.elim e (withGuardImport · e)

theorem withGuard_eq (g : Option Guard) (e : GeneratedEntity) :
    withGuard g e = { e with imports := (withGuard g e).imports } := by
  cases g with
  | none => rfl
  | some g =>
    rw [withGuard,Option.elim_some,withGuardImport]
    split
    · rfl
    · rfl

theorem entity_withGuard (g : Option Guard) (e : GeneratedEntity) :
    (withGuard g e).entity = e.entity := by
  rw [withGuard_eq]

theorem implementsGuard_withGuard (g : Option Guard) (e : GeneratedEntity) :
    (withGuard g e).implementsGuard = e.implementsGuard := by
  rw [withGuard_eq]
  rfl

theorem ofAnalysis_eq (s : Settings) (a : Analysis) : ofAnalysis s a =
    { entities := (drafts s a).map (withGuard (guardOf (drafts s a)))
      guard := guardOf (drafts s a)
      findings := (a.entities.map AnalyzedEntity.name).flatMap (conflictsOf s a) ++
        unguarded a (drafts s a) ++
        RecursionCheck.hazards ((drafts s a).map (withGuard (guardOf (drafts s a)))) } := by
  have hdrafts : ((a.entities.map AnalyzedEntity.name).map (entityOf s a)).filter
      (fun e => !e.isEmpty) = drafts s a := rfl
  simp only [ofAnalysis,hdrafts]
  cases guardOf (drafts s a) with
  | none =>
    have hnone : withGuard none = id := rfl
    rw [hnone,List.map_id]
  | some g => rfl

/-- Nothing but names and guards bears on what is reported as unguarded. -/
theorem unguarded_map (a : Analysis) (es : List GeneratedEntity)
    {f : GeneratedEntity → GeneratedEntity} (hentity : ∀ e, (f e).entity = e.entity)
    (himplements : ∀ e, (f e).implementsGuard = e.implementsGuard) :
    unguarded a (es.map f) = unguarded a es := by
  simp only [unguarded,List.filter_map,List.map_map,Function.comp_def,hentity,himplements]

/-- Whether a target is guarded is seen from the generated entities. -/
theorem findings_ofAnalysis (s : Settings) (a : Analysis) : (ofAnalysis s a).findings =
    (a.entities.map AnalyzedEntity.name).flatMap (conflictsOf s a) ++
      unguarded a (ofAnalysis s a).entities ++ RecursionCheck.hazards (ofAnalysis s a).entities := by
  simp only [ofAnalysis_eq,unguarded_map a _ (entity_withGuard _) (implementsGuard_withGuard _)]

theorem kind_of_mem_conflictsOf {entity : String} {f : Finding} (h : f ∈ conflictsOf s a entity) :
    f.severity = .warning ∧ f.kind = .cascadeConflict := by
  have hf := (List.mem_ite_nil_right.mp h).2
  obtain ⟨r,-,hf⟩ := List.mem_flatMap.mp hf
  obtain ⟨text,-,rfl⟩ := List.mem_map.mp hf
  exact ⟨rfl,rfl⟩

theorem mem_unguarded {es : List GeneratedEntity} {f : Finding} (h : f ∈ unguarded a es) :
    (f.severity = .warning ∧ f.kind = .circularWithoutGuard) ∧ ∃ r ∈ a.relationships,
      r.circular = true ∧ ∀ e ∈ es, e.implementsGuard = true → e.entity ≠ r.target := by
  obtain ⟨r,hr,rfl⟩ := List.mem_map.mp h
  obtain ⟨hmem,hr⟩ := List.mem_filter.mp hr
  obtain ⟨hcircular,hnone⟩ := Bool.and_eq_true_iff.mp hr
  refine ⟨⟨rfl,rfl⟩,r,hmem,hcircular,?_⟩
  rintro e he hguard htarget
  have hlisted : r.target ∈ (es.filter (·.implementsGuard)).map (·.entity) :=
    List.mem_map.mpr ⟨e,List.mem_filter.mpr ⟨he,hguard⟩,htarget⟩
  simp [hlisted] at hnone

theorem kind_of_mem_hazards {es : List GeneratedEntity} {f : Finding}
    (h : f ∈ RecursionCheck.hazards es) : f.kind = .recursionHazard := by
  obtain ⟨e,-,h⟩ := List.mem_flatMap.mp h
  obtain ⟨m,-,h⟩ := List.mem_flatMap.mp h
  obtain ⟨callee,-,rfl⟩ := List.mem_map.mp h
  rfl

/-- Generation reports conflicting cascades, circular relationships whose target has no guard, and
calls that may recurse. -/
theorem cases_of_mem_findings {f : Finding} (h : f ∈ (ofAnalysis s a).findings) :
    (f.severity = .warning ∧ f.kind = .cascadeConflict) ∨
    ((f.severity = .warning ∧ f.kind = .circularWithoutGuard) ∧ ∃ r ∈ a.relationships,
      r.circular = true ∧
        ∀ e ∈ (ofAnalysis s a).entities, e.implementsGuard = true → e.entity ≠ r.target) ∨
    (f.kind = .recursionHazard ∧ f ∈ RecursionCheck.hazards (ofAnalysis s a).entities) := by
  rw [findings_ofAnalysis,List.mem_append,List.mem_append] at h
  rcases h with (h | h) | h
  · obtain ⟨entity,-,h⟩ := List.mem_flatMap.mp h
    exact .inl (kind_of_mem_conflictsOf h)
  · exact .inr (.inl (mem_unguarded h))
  · exact .inr (.inr ⟨kind_of_mem_hazards h,h⟩)

/-- The generated entities are the analyzed ones that get anything, in order. Where the guard
stands elsewhere, imports are added to them. -/
theorem entities_ofAnalysis (s : Settings) (a : Analysis) :
    ∃ imports : GeneratedEntity → List String, (ofAnalysis s a).entities =
      (((a.entities.map AnalyzedEntity.name).map (entityOf s a)).filter (fun e => !e.isEmpty)).map
        (fun e => { e with imports := imports e }) := by
  rw [ofAnalysis_eq]
  exact ⟨fun e => (withGuard (guardOf (drafts s a)) e).imports,
    List.map_congr_left (fun e _ => withGuard_eq _ e)⟩

/-- A generated entity is that of its name, imports aside. -/
theorem exists_entityOf {e : GeneratedEntity} (h : e ∈ (ofAnalysis s a).entities) :
    e.entity ∈ a.entities.map AnalyzedEntity.name ∧ (entityOf s a e.entity).isEmpty = false ∧
      e = { entityOf s a e.entity with imports := e.imports } := by
  obtain ⟨imports,hentities⟩ := entities_ofAnalysis s a
  rw [hentities] at h
  obtain ⟨d,hd,rfl⟩ := List.mem_map.mp h
  obtain ⟨hd,hfull⟩ := List.mem_filter.mp hd
  obtain ⟨name,hname,rfl⟩ := List.mem_map.mp hd
  rw [Bool.not_eq_true'] at hfull
  exact ⟨hname,hfull,rfl⟩

/-- An analyzed entity that gets anything is among the generated ones. -/
theorem exists_generated {entity : String} (h : entity ∈ a.entities.map AnalyzedEntity.name)
    (hfull : (entityOf s a entity).isEmpty = false) :
    ∃ e ∈ (ofAnalysis s a).entities, e.entity = entity := by
  obtain ⟨imports,hentities⟩ := entities_ofAnalysis s a
  rw [hentities]
  refine ⟨_,List.mem_map_of_mem (List.mem_filter.mpr ⟨List.mem_map_of_mem h,?_⟩),rfl⟩
  rw [hfull]
  rfl

theorem methods_of_mem {e : GeneratedEntity} (h : e ∈ (ofAnalysis s a).entities) :
    e.methods = (entityOf s a e.entity).methods :=
  (congrArg GeneratedEntity.methods (exists_entityOf h).2.2).trans rfl

/-- What holds of the methods of all generated entities, and of none, holds of those of all
analyzed ones. -/
theorem forall_methods_iff {P : List Method → Prop} (hnone : P []) :
    (∀ e ∈ (ofAnalysis s a).entities, P e.methods) ↔
      ∀ entity ∈ a.entities.map AnalyzedEntity.name, P (entityOf s a entity).methods := by
  constructor
  · intro h entity hentity
    cases hempty : (entityOf s a entity).isEmpty with
    | false =>
      obtain ⟨e,he,rfl⟩ := exists_generated hentity hempty
      exact methods_of_mem he ▸ h e he
    | true =>
      simp only [GeneratedEntity.isEmpty,Bool.and_eq_true,List.isEmpty_iff] at hempty
      exact hempty.1.2 ▸ hnone
  · intro h e he
    rw [methods_of_mem he]
    exact h e.entity (exists_entityOf he).1

/-- An analyzed entity that gets a method is among the generated ones. -/
theorem exists_entity {entity : String} {m : Method}
    (h : entity ∈ a.entities.map AnalyzedEntity.name) (hm : m ∈ (entityOf s a entity).methods) :
    ∃ e ∈ (ofAnalysis s a).entities, e.entity = entity ∧ m ∈ e.methods := by
  have hfull : (entityOf s a entity).isEmpty = false := by
    rw [GeneratedEntity.isEmpty,List.isEmpty_eq_false_iff_exists_mem.mpr ⟨m,hm⟩,Bool.and_false,
      Bool.false_and]
  obtain ⟨e,he,rfl⟩ := exists_generated h hfull
  exact ⟨e,he,rfl,methods_of_mem he ▸ hm⟩

end Synthesis

/-- What one relationship adds are members of its field. -/
theorem Synthesis.member_of_mem_partOf {s : Settings} {c : Catalog} {r : Relationship}
    (hr : r ∈ (Analysis.ofCatalog s c).relationships) {m : Method}
    (hm : m ∈ (partOf s (.ofCatalog s c) r).methods) : ∃ style, styleOf? r = some style ∧
      (Link.new s r ((Analysis.ofCatalog s c).findInverse? r)).Member style m := by
  rw [methods_partOf] at hm
  split at hm
  · cases hm
  · rename_i style hstyle
    refine ⟨style,hstyle,?_⟩
    rcases List.mem_append.mp hm with hm | hm
    · refine Link.member_accessors ?_ m hm
      rintro rfl
      rw [Link.new]
      split
      · rename_i hbi
        obtain ⟨o,-,hpair⟩ := Analysis.exists_partner hr hbi
        exact absurd rfl (AccessorStyle.of_isAssociation (of_styleOf? hstyle).2
          hpair.symm.facing.isAssociation).1
      · rfl
    · exact Link.member_helpers m (List.mem_ite_nil_right.mp hm).2

/-- Where a method of the output comes from: it is a member of a relationship of its entity, or
a validator. -/
theorem Synthesis.mem_methods {s : Settings} {c : Catalog} {e : GeneratedEntity} {m : Method}
    (h : e ∈ (ofAnalysis s (.ofCatalog s c)).entities) (hm : m ∈ e.methods) :
    (∃ r ∈ (Analysis.ofCatalog s c).relationshipsOf e.entity, ∃ style, styleOf? r = some style ∧
      (Link.new s r ((Analysis.ofCatalog s c).findInverse? r)).Member style m) ∨
    m ∈ Validators.methodsOf s (.ofCatalog s c) e.entity := by
  rw [methods_of_mem h] at hm
  refine (mem_methods_entityOf hm).imp_left ?_
  rintro ⟨r,hr,hm⟩
  exact ⟨r,hr,member_of_mem_partOf (List.mem_of_mem_filter hr) hm⟩

/-- What the name of a method begins with tells its kind. -/
theorem Synthesis.kind_of_stem_begins {s : Settings} {c : Catalog} {entity : String} {m : Method}
    (hm : m ∈ (entityOf s (.ofCatalog s c) entity).methods) {k : MethodKind}
    (h : k.stem.toList <+: m.name.toList) : m.kind = k := by
  refine MethodKind.eq_of_stems_begin ?_ h
  rcases mem_methods_entityOf hm with ⟨r,hr,hm⟩ | hm
  · obtain ⟨style,-,hmember⟩ := member_of_mem_partOf (List.mem_of_mem_filter hr) hm
    have hname : m.name = _ := MemberNames.eq_of_mem_table _ hmember.1
    rw [hname,String.append_assoc,String.toList_append]
    exact List.prefix_append _ _
  · obtain ⟨hkind,hnames,-⟩ := Validators.of_mem_methodsOf hm
    rw [hkind]
    exact MethodKind.stem_prefix_of_names hnames

/-- No member of a relationship is a validator. -/
theorem Synthesis.mem_methodsOf_of_kind {s : Settings} {c : Catalog} {entity : String} {m : Method}
    (hm : m ∈ (entityOf s (.ofCatalog s c) entity).methods) (hkind : m.kind = .validator) :
    m ∈ Validators.methodsOf s (.ofCatalog s c) entity := by
  refine (mem_methods_entityOf hm).resolve_left ?_
  rintro ⟨r,hr,hpart⟩
  obtain ⟨style,-,hmember⟩ := member_of_mem_partOf (List.mem_of_mem_filter hr) hpart
  have htable := hmember.1
  rw [hkind] at htable
  simp [MemberNames.table] at htable

/-- A run that is not cancelled gives the whole generation. -/
theorem Generation.eq_of_run {cancelled : Bool} {s : Settings} {c : Catalog} {g : Generation}
    (h : run cancelled s c = .ok g) : g = ofCatalog s c := by
  unfold run at h
  cases ha : Analysis.run cancelled s c with
  | error e =>
    rw [ha] at h
    cases h
  | ok a =>
    rw [ha] at h
    cases h
    rw [Analysis.eq_of_run ha]
    rfl

end EntityLink
