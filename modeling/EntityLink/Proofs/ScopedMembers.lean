import EntityLink.Proofs.GeneratedEntities
import EntityLink.Proofs.LocalNames

namespace EntityLink
open Java

namespace Link

variable {l : Link}

/-- The names made for a field keep apart: of an element and of the whole, of an element and of
its previous owner, of a value and of the object it displaces. -/
structure NamesApart (l : Link) : Prop where
  element : l.kind.isCollectionValued = true → Noun.singularize l.field ≠ l.field
  previous : l.kind.isCollectionValued = true → ∀ i ∈ l.inverse, i.collection = false →
    Noun.singularize l.field ≠ previousLocal i.field
  displaced : l.kind = .oneToOne → ∀ i ∈ l.inverse, i.collection = false →
    l.field ≠ "displaced" ++ l.sourceType

instance (l : Link) : Decidable l.NamesApart :=
  decidable_of_iff (_ ∧ _ ∧ _) ⟨fun ⟨he,hp,hd⟩ => ⟨he,hp,hd⟩,
    fun h => ⟨h.element,h.previous,h.displaced⟩⟩

section Members

attribute [local simp] Method.WellScoped Stmt.returnIf

theorem wellScoped_manySetter :
    l.manySetter.WellScoped ↔ Noun.singularize l.field ≠ l.field := by
  rw [← valueParam_ne_elementParam_iff]
  simp [manySetter]

theorem wellScoped_adder : l.adder.WellScoped ↔ ∀ i ∈ l.inverse, i.collection = false →
    Noun.singularize l.field ≠ previousLocal i.field := by
  cases hi : l.inverse with
  | none => simp [adder,hi]
  | some i =>
    cases hmany : i.collection with
    | true => simp [adder,linkElement,hi,hmany]
    | false =>
      rw [← not_iff_not]
      simp [adder,linkElement,hi,hmany,elementParam_eq_previousLocal_iff]

theorem scopedAll_unlinkElement {outer : List String} {ss : List Stmt} (i : Inverse) :
    ScopedAll outer (l.unlinkElement i :: ss) ↔ ScopedAll outer ss := by
  unfold unlinkElement
  split
  · simp
  · simpa using ScopedAll.nodup

/-- Nothing is declared after a removal. -/
theorem scopedAll_afterRemoval {outer : List String} {ss : List Stmt} :
    ScopedAll outer (l.afterRemoval ++ ss) ↔ ScopedAll outer ss := by
  have horphan : ScopedAll outer ((if l.policy.orphanRemoval then
      [.eval (.callThis l.names.orphanHook [.var l.elementParam])] else []) ++ ss) ↔
      ScopedAll outer ss := by
    split
    · simp
    · simp
  rw [afterRemoval,List.append_assoc]
  cases l.inverse with
  | none => exact horphan
  | some i => exact (scopedAll_unlinkElement i).trans horphan

theorem wellScoped_remover : l.remover.WellScoped := by
  simp [remover,scopedAll_afterRemoval]

theorem wellScoped_clearer : l.clearer.WellScoped := by
  have hloop : ScopedAll ["removed" ++ Text.capitalize l.field,l.elementParam]
      (l.afterRemoval ++ []) ↔ _ := scopedAll_afterRemoval
  rw [List.append_nil] at hloop
  simp only [clearer,Method.WellScoped]
  split
  · simp
  · simp [hloop,elementParam_ne_removed.symm]

/-- What a one-to-one setter declares to release the displaced object. -/
theorem scopedAll_releaseDisplaced {outer : List String} {ss : List Stmt} (i : Inverse) :
    ScopedAll outer (l.releaseDisplaced i :: ss) ↔
      (outer ++ ["displaced" ++ l.sourceType]).Nodup ∧ ScopedAll outer ss := by
  simp [releaseDisplaced]

theorem scopedAll_attach {outer : List String} {ss : List Stmt} (i : Inverse) :
    ScopedAll outer (l.attach i :: ss) ↔ ScopedAll outer ss := by
  simp only [attach]
  split
  · simpa using ScopedAll.nodup
  · simpa using ScopedAll.nodup

/-- The hook is called on what the field held before. -/
theorem scopedAll_orphanCall {outer : List String} : ScopedAll outer
    (if l.policy.orphanRemoval then [Stmt.when (.notNull (.var (previousLocal l.field)))
      [.eval (.callThis l.names.orphanHook [.var (previousLocal l.field)])]] else []) ↔
    outer.Nodup := by
  split
  · simp
  · simp

theorem wellScoped_singleSetter : l.singleSetter.WellScoped ↔ (l.kind = .oneToOne →
    ∀ i ∈ l.inverse, i.collection = false → l.field ≠ "displaced" ++ l.sourceType) := by
  have hparam : l.valueParam ≠ previousLocal l.field := valueParam_ne_previousLocal
  have hlocals := previousLocal_ne_displaced l.field l.sourceType
  cases hi : l.inverse with
  | none =>
    cases horphan : l.policy.orphanRemoval with
    | true => simp [singleSetter,singleSetterBody,hi,horphan,hparam]
    | false => simp [singleSetter,singleSetterBody,hi,horphan]
  | some i =>
    simp only [singleSetter,singleSetterBody,hi,Option.isSome_some,Bool.true_or,if_true,
      Method.WellScoped,Stmt.returnIf,List.cons_append,List.nil_append,List.append_assoc,
      List.map_cons,List.map_nil]
    split
    · rename_i hone
      simp [scopedAll_releaseDisplaced,scopedAll_attach,scopedAll_orphanCall,hparam,hlocals,hone,
        valueParam_eq_displaced_iff]
    · rename_i hone
      simp [scopedAll_attach,scopedAll_orphanCall,hparam]
      exact fun hkind hsingle => absurd ⟨hkind,hsingle⟩ hone

theorem wellScoped_collectionAccessors : (∀ m ∈ l.collectionAccessors, m.WellScoped) ↔
    Noun.singularize l.field ≠ l.field ∧ ∀ i ∈ l.inverse, i.collection = false →
      Noun.singularize l.field ≠ previousLocal i.field := by
  have hgetter : l.manyGetter.WellScoped := by simp [manyGetter]
  simp only [collectionAccessors,List.forall_mem_cons,wellScoped_manySetter,wellScoped_adder,
    wellScoped_remover,wellScoped_clearer]
  exact ⟨fun h => ⟨h.2.1,h.2.2.1⟩,
    fun h => ⟨hgetter,h.1,h.2,trivial,trivial,List.forall_mem_nil _⟩⟩

theorem wellScoped_manyAccessors : (∀ m ∈ l.manyAccessors, m.WellScoped) ↔
    ∀ m ∈ l.collectionAccessors, m.WellScoped := by
  have hinternal : ∀ m ∈ [l.internalAdder,l.internalRemover,l.manyInternalSetter],
      m.WellScoped := by
    simp [internalAdder,internalRemover,manyInternalSetter]
  have hhook : (l.orphanHook l.elementParam).WellScoped := by simp [orphanHook]
  simp only [manyAccessors,List.forall_mem_append]
  refine ⟨fun h => h.1.1,fun h => ⟨⟨h,forall_mem_ite_nil (fun _ => hinternal)⟩,
    forall_mem_ite_nil (fun _ => ?_)⟩⟩
  rw [List.forall_mem_singleton]
  exact hhook

theorem wellScoped_singleAccessors : (∀ m ∈ l.singleAccessors, m.WellScoped) ↔
    l.singleSetter.WellScoped := by
  have hgetter : l.singleGetter.WellScoped := by simp [singleGetter]
  have hinternal : l.singleInternalSetter.WellScoped := by simp [singleInternalSetter]
  have hhook : (l.orphanHook l.valueParam).WellScoped := by simp [orphanHook]
  simp only [singleAccessors,List.forall_mem_append,List.forall_mem_cons]
  refine ⟨fun h => h.1.1.2.1,fun h => ⟨⟨⟨hgetter,h,List.forall_mem_nil _⟩,
    forall_mem_ite_nil (fun _ => ?_)⟩,forall_mem_ite_nil (fun _ => ?_)⟩⟩
  · rw [List.forall_mem_singleton]
    exact hinternal
  · rw [List.forall_mem_singleton]
    exact hhook

theorem wellScoped_helpers : ∀ m ∈ l.helpers, m.WellScoped := by
  unfold helpers
  split
  · simp [counter,elementPredicate]
  · simp [presencePredicate]

end Members

theorem namesApart_iff_of_many (h : l.kind.isCollectionValued = true) : l.NamesApart ↔
    Noun.singularize l.field ≠ l.field ∧ ∀ i ∈ l.inverse, i.collection = false →
      Noun.singularize l.field ≠ previousLocal i.field := by
  have hmany : l.kind ≠ .oneToOne := by
    intro hone
    rw [hone] at h
    cases h
  exact ⟨fun ha => ⟨ha.element h,ha.previous h⟩,
    fun ha => ⟨fun _ => ha.1,fun _ => ha.2,fun hone => absurd hone hmany⟩⟩

theorem namesApart_iff_of_one (h : l.kind.isCollectionValued = false) : l.NamesApart ↔
    (l.kind = .oneToOne → ∀ i ∈ l.inverse, i.collection = false →
      l.field ≠ "displaced" ++ l.sourceType) := by
  have hone : ¬ l.kind.isCollectionValued = true := Bool.not_eq_true _ ▸ h
  exact ⟨NamesApart.displaced,
    fun ha => ⟨fun hmany => absurd hmany hone,fun hmany => absurd hmany hone,ha⟩⟩

/-- The accessors of a field are well scoped where its names keep apart, and only there. -/
theorem wellScoped_accessors_iff :
    (∀ m ∈ l.accessors l.relationship.style, m.WellScoped) ↔ l.NamesApart := by
  rcases l.accessors_cases with ⟨hmany,h | ⟨-,h⟩⟩ | ⟨hone,h | ⟨hkind,h⟩⟩
  · rw [h,namesApart_iff_of_many hmany]
    exact wellScoped_manyAccessors.trans wellScoped_collectionAccessors
  · rw [h,namesApart_iff_of_many hmany]
    exact wellScoped_collectionAccessors
  · rw [h,namesApart_iff_of_one hone]
    exact wellScoped_singleAccessors.trans wellScoped_singleSetter
  · rw [h,namesApart_iff_of_one hone]
    exact iff_of_true (by simp [singleGetter,plainSetter,Method.WellScoped])
      (fun hone => absurd hone hkind)

/-- Where the names made for a field keep apart, its accessors hide no parameter. -/
theorem NamesApart.unshadowed (h : l.NamesApart) :
    ∀ m ∈ l.accessors l.relationship.style, m.Unshadowed := by
  intro m hm
  exact (wellScoped_accessors_iff.mpr h m hm).unshadowed

end Link

namespace Validators

variable {s : Settings} {a : Analysis} {rs : List Relationship} {r : Relationship}

/-- An element of a checked collection is not called like the verdict of the check. -/
def VerdictApart (a : Analysis) (r : Relationship) : Prop :=
  r.kind.isCollection = true → r.circular = true ∨ (a.findInverse? r).isSome = true →
    Noun.singularize r.field ≠ "valid"

instance (a : Analysis) (r : Relationship) : Decidable (VerdictApart a r) :=
  inferInstanceAs (Decidable (_ → _ → _))

theorem wellScoped_aggregate {name doc : String} {checks : List Stmt} :
    (aggregate name doc checks).WellScoped ↔ ScopedAll ["valid"] checks := by
  simp only [Method.WellScoped,aggregate,List.singleton_append,scopedAll_append_ret]
  exact scopedAll_declare _ _ _

/-- A check of every element names the element beside the verdict. -/
theorem scopedAll_perValue {failed : Expr → Expr} : ScopedAll ["valid"] [perValue r failed] ↔
    (r.kind.isCollection = true → Noun.singularize r.field ≠ "valid") := by
  have hsafe := safeIdentifier_eq_append_iff (Noun.singularize r.field) "valid" ""
    (Link.not_prefix_of_keyword _ (by simp))
  rw [String.append_empty,eq_comm] at hsafe
  unfold perValue
  split
  · rename_i hmany
    simp [invalidate,hmany,hsafe]
  · rename_i hone
    simp [invalidate,hone]

theorem binds_check {text : String} {failed : Expr → Expr} :
    [.comment text,perValue r failed].flatMap Stmt.binds = [] := by
  unfold perValue
  split
  · rfl
  · rfl

theorem scopedAll_inverseChecks : ScopedAll ["valid"] (inverseChecks a r) ↔
    (r.kind.isCollection = true → (a.findInverse? r).isSome = true →
      Noun.singularize r.field ≠ "valid") := by
  unfold inverseChecks
  cases a.findInverse? r with
  | none => simp
  | some o => simp [scopedAll_perValue]

theorem scopedAll_guardChecks : ScopedAll ["valid"] (guardChecks r) ↔
    (r.kind.isCollection = true → r.circular = true → Noun.singularize r.field ≠ "valid") := by
  unfold guardChecks
  cases r.circular with
  | false => simp
  | true => simp [scopedAll_perValue]

theorem wellScoped_validateRelationships : (validateRelationships a rs).WellScoped ↔
    ∀ r ∈ rs, ScopedAll ["valid"] (inverseChecks a r) := by
  have hbinds : ∀ r ∈ rs, (inverseChecks a r).flatMap Stmt.binds = [] := by
    intro r _
    unfold inverseChecks
    split
    · rfl
    · exact binds_check
  have hchecks : ScopedAll ["valid"] (rs.flatMap (inverseChecks a)) ↔ _ :=
    scopedAll_flatMap hbinds
  rw [validateRelationships,wellScoped_aggregate]
  split
  · rename_i hnone
    rw [List.isEmpty_iff.mp hnone] at hchecks
    simpa using hchecks
  · simpa using hchecks

theorem wellScoped_validateCircular : (validateCircular s rs).WellScoped ↔
    ∀ r ∈ rs, ScopedAll ["valid"] (guardChecks r) := by
  have hbinds : ∀ r ∈ rs, (guardChecks r).flatMap Stmt.binds = [] := by
    intro r _
    unfold guardChecks
    split
    · exact binds_check
    · rfl
  rw [validateCircular,wellScoped_aggregate,scopedAll_flatMap hbinds]
  simp

theorem wellScoped_validateCascades : (validateCascades a rs).WellScoped := by
  rw [Method.WellScoped,validateCascades,List.map_nil,scopedAll_append_ret]
  induction rs.flatMap (conflictsOf a) with
  | nil => simp
  | cons c cs ih => simpa using ih

/-- The validators of an entity are well scoped where no element takes the name of the verdict. -/
theorem wellScoped_methodsOf_iff {entity : String} :
    (∀ m ∈ methodsOf s a entity, m.WellScoped) ↔ ∀ r ∈ checked a entity, VerdictApart a r := by
  have hguards : (∀ m ∈ (if (checked a entity).any Relationship.circular then
      [validateCircular s (checked a entity)] else []), m.WellScoped) ↔
      ∀ r ∈ checked a entity, ScopedAll ["valid"] (guardChecks r) := by
    split
    · rw [List.forall_mem_singleton,wellScoped_validateCircular]
    · rename_i hnone
      refine iff_of_true (List.forall_mem_nil _) (fun r hr => scopedAll_guardChecks.mpr ?_)
      exact fun _ hcircular => absurd (List.any_eq_true.mpr ⟨r,hr,hcircular⟩) hnone
  simp only [methodsOf,List.forall_mem_append,List.forall_mem_singleton,hguards,
    wellScoped_validateRelationships,wellScoped_validateCascades,and_true,← forall₂_and]
  refine forall₂_congr (fun r _ => ?_)
  rw [scopedAll_inverseChecks,scopedAll_guardChecks]
  constructor
  · rintro ⟨hinverse,hguard⟩ hmany (hcircular | hfound)
    · exact hguard hmany hcircular
    · exact hinverse hmany hfound
  · intro h
    exact ⟨fun hmany hfound => h hmany (.inr hfound),fun hmany hc => h hmany (.inl hc)⟩

theorem forall_verdictApart_iff {entity : String} : (∀ r ∈ checked a entity, VerdictApart a r) ↔
    ∀ r ∈ a.linksOf entity, VerdictApart a r := by
  constructor
  · intro h r hr hmany
    obtain ⟨hmem,hbears⟩ := List.mem_filter.mp hr
    have hassoc := RelationKind.isAssociation_of_isCollection hmany
    refine h r (List.mem_filter.mpr ⟨hmem,?_⟩) hmany
    rw [(Bool.and_eq_true_iff.mp hbears).2,hassoc]
    rfl
  · intro h r hr
    obtain ⟨hmem,hchecked⟩ := List.mem_filter.mp hr
    obtain ⟨htarget,hassoc⟩ := Bool.and_eq_true_iff.mp hchecked
    refine h r (List.mem_filter.mpr ⟨hmem,?_⟩)
    rw [Relationship.bearsMembers,htarget,Bool.and_true,bne_iff_ne]
    exact RelationKind.ne_inheritance hassoc

end Validators

namespace Synthesis

theorem wellScoped_membersOf_iff {s : Settings} {a : Analysis} {r : Relationship} :
    (∀ m ∈ membersOf s a r, m.WellScoped) ↔ (Link.new s r (a.findInverse? r)).NamesApart := by
  rw [membersOf,List.forall_mem_append,← Link.wellScoped_accessors_iff]
  exact and_iff_left (forall_mem_ite_nil (fun _ => Link.wellScoped_helpers))

/-- The methods of an entity are well scoped where the names made for its links keep apart. -/
theorem wellScoped_entityOf_iff (s : Settings) (c : Catalog) (entity : String) :
    (∀ m ∈ (entityOf s (.ofCatalog s c) entity).methods, m.WellScoped) ↔
      ∀ r ∈ (Analysis.ofCatalog s c).linksOf entity,
        (Link.new s r ((Analysis.ofCatalog s c).findInverse? r)).NamesApart ∧
        (s.generateValidation = true → Validators.VerdictApart (.ofCatalog s c) r) := by
  have hvalidators : (∀ m ∈ (if s.generateValidation = true ∧
      (Analysis.ofCatalog s c).linksOf entity ≠ [] then
        Validators.methodsOf s (.ofCatalog s c) entity else []), m.WellScoped) ↔
      ∀ r ∈ (Analysis.ofCatalog s c).linksOf entity,
        s.generateValidation = true → Validators.VerdictApart (.ofCatalog s c) r := by
    split
    · rename_i hwanted
      rw [Validators.wellScoped_methodsOf_iff,Validators.forall_verdictApart_iff]
      exact forall₂_congr (fun r _ => (imp_iff_right hwanted.1).symm)
    · rename_i hnone
      refine iff_of_true (List.forall_mem_nil _) (fun r hr hwanted => absurd ⟨hwanted,?_⟩ hnone)
      exact List.ne_nil_of_mem hr
  rw [methods_entityOf,List.forall_mem_append,hvalidators,List.forall_mem_flatMap,← forall₂_and]
  simp only [wellScoped_membersOf_iff]

end Synthesis

namespace Generation

/-- Names are well scoped in all methods of the output exactly where the names made for every
relationship with members keep apart: a collection has a singular of its own, which is neither
that of the local for an element's previous owner nor, if it is checked, that of the verdict, and
a one-to-one field is not called like the local for a displaced object. -/
theorem wellScoped_iff {cancelled : Bool} {s : Settings} {c : Catalog} {g : Generation}
    (h : run cancelled s c = .ok g) :
    (∀ e ∈ g.synthesis.entities, ∀ m ∈ e.methods, m.WellScoped) ↔
    ∀ r ∈ g.analysis.relationships, r.bearsMembers = true →
      (Link.new s r (g.analysis.findInverse? r)).NamesApart ∧
      (s.generateValidation = true → Validators.VerdictApart g.analysis r) := by
  obtain rfl := eq_of_run h
  refine (Synthesis.forall_methods_iff (P := fun ms => ∀ m ∈ ms, m.WellScoped)
    (List.forall_mem_nil _)).trans ?_
  simp only [Synthesis.wellScoped_entityOf_iff]
  constructor
  · intro hall r hr hbears
    exact hall r.source (Analysis.source_mem_entities hr) r
      (Synthesis.mem_linksOf.mpr ⟨hr,rfl,hbears⟩)
  · intro hall entity _ r hr
    obtain ⟨hmem,-,hbears⟩ := Synthesis.mem_linksOf.mp hr
    exact hall r hmem hbears

/-- A report is added under the name `report`, beside its `previousManager`. -/
theorem reportingLine_wellScoped :
    run false Analysis.uncycled reportingLine = .ok (ofCatalog Analysis.uncycled reportingLine) ∧
    ∀ e ∈ (ofCatalog Analysis.uncycled reportingLine).synthesis.entities,
      ∀ m ∈ e.methods, m.WellScoped := by
  have hrun : run false Analysis.uncycled reportingLine =
      .ok (ofCatalog Analysis.uncycled reportingLine) := rfl
  exact ⟨hrun,(wellScoped_iff hrun).mpr (by decide +kernel)⟩

/-- A department whose employees are its staff, of which there is no singular. -/
def staffRoster : Catalog :=
  .ofList [
    { name := "Department", fields := [
      { name := "staff", type := "List<Employee>", annotations := [⟨"OneToMany",""⟩] }] },
    { name := "Employee" }]

/-- In the setter of `staff` the loop variable redeclares the parameter. -/
theorem exists_illScoped : ¬ ∀ (cancelled : Bool) (s : Settings) (c : Catalog) (g : Generation),
    run cancelled s c = .ok g → ∀ e ∈ g.synthesis.entities, ∀ m ∈ e.methods, m.WellScoped := by
  intro hall
  have hrun : run false {} staffRoster = .ok (ofCatalog {} staffRoster) := rfl
  have hclash : ∃ e ∈ (ofCatalog {} staffRoster).synthesis.entities, ∃ m ∈ e.methods,
      ¬ m.WellScoped := by
    decide +kernel
  obtain ⟨e,he,m,hm,hillScoped⟩ := hclash
  exact hillScoped (hall _ _ _ _ hrun e he m hm)

end Generation

end EntityLink
