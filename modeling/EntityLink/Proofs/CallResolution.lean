import EntityLink.Proofs.GeneratedMembers

namespace EntityLink
open Java

namespace Analysis

variable {s : Settings} {c : Catalog} {r o : Relationship}

/-- Relationships come from analyzed entities. -/
theorem source_mem_entities (hr : r ∈ (ofCatalog s c).relationships) :
    r.source ∈ (ofCatalog s c).entities.map AnalyzedEntity.name := by
  obtain ⟨q,hq,hsettles⟩ := exists_classified hr
  have hsource : q.source = r.source := congrArg RelationshipKey.source hsettles.key_eq
  obtain ⟨e,he,hkind,hq⟩ := mem_classified.mp hq
  have hname : q.source = e.name := by
    rcases hq with hq | ⟨f,-,hq⟩
    · exact (Catalog.inheritanceLink_key hq).1
    · exact (Catalog.relationship_key hq).1
  have hmem : e ∈ c.entities.filter (·.kind == .entity) :=
    List.mem_filter.mpr ⟨he,by rw [hkind]; rfl⟩
  refine List.mem_map.mpr ⟨analyzedEntity c e,List.mem_map_of_mem hmem,?_⟩
  exact hname.symm.trans hsource

/-- An inverse field is noted for paired relationships only. -/
theorem bidirectional_of_inverseField (hr : r ∈ (ofCatalog s c).relationships) {field : String}
    (h : r.inverseField = some field) : r.bidirectional = true := by
  obtain ⟨q,hq,rfl⟩ := List.mem_map.mp hr
  rw [readvise_eq] at h ⊢
  obtain ⟨x,hx,rfl⟩ := List.mem_map.mp hq
  obtain ⟨q,hq,hmarked⟩ := List.mem_map.mp (List.fst_mem_of_mem_zipIdx hx)
  have hfresh := classified_unsettled hq
  rw [marked_eq hfresh.circular] at hmarked
  revert h
  split
  · exact fun _ => rfl
  · rw [← hmarked,hfresh.inverseField]
    exact fun h => absurd h (Option.some_ne_none field).symm

/-- Where no field is called like an inheritance link, partners find each other. -/
theorem findInverse_of_partners (h : ∀ e ∈ c.entities, (e.fields.map Field.name).Nodup)
    (hlink : ∀ e ∈ c.entities, ∀ f ∈ e.fields, f.name ≠ Relationship.superclassField)
    (ho : o ∈ (ofCatalog s c).relationships) (hpair : r.Partners o) :
    (ofCatalog s c).findInverse? r = some o := by
  rcases findInverse_cases h hpair ho with hfind | ⟨x,hx,-,hkind,-,-,hfield⟩
  · exact hfind
  · rw [field_of_inheritance hx hkind] at hfield
    obtain ⟨q,hq,hsettles⟩ := exists_classified ho
    have hqfield : q.field = o.field := congrArg RelationshipKey.field hsettles.key_eq
    have hqkind : q.kind = o.kind := congrArg RelationshipKey.kind hsettles.key_eq
    obtain ⟨e,he,-,hq | ⟨f,hf,hq⟩⟩ := mem_classified.mp hq
    · have hassoc := RelationKind.ne_inheritance hpair.facing.isAssociation
      exact absurd (hqkind.symm.trans (Catalog.inheritanceLink_key hq).2.2) hassoc
    · have hname := (Catalog.relationship_key hq).2.1
      exact absurd (hname.symm.trans (hqfield.trans hfield.symm)) (hlink e he f hf)

/-- What is noted as paired has a partner, and look-ups lead from each to the other. -/
theorem exists_mutual (h : ∀ e ∈ c.entities, (e.fields.map Field.name).Nodup)
    (hlink : ∀ e ∈ c.entities, ∀ f ∈ e.fields, f.name ≠ Relationship.superclassField)
    (hr : r ∈ (ofCatalog s c).relationships) (hbi : r.bidirectional = true) :
    ∃ o ∈ (ofCatalog s c).relationships, r.Partners o ∧ (ofCatalog s c).findInverse? r = some o ∧
      (ofCatalog s c).findInverse? o = some r := by
  obtain ⟨o,ho,hpair⟩ := exists_partner hr hbi
  exact ⟨o,ho,hpair,findInverse_of_partners h hlink ho hpair,
    findInverse_of_partners h hlink hr hpair.symm⟩

end Analysis

namespace Synthesis

/-- The output has a getter or an internal mutator of a type with a name and a number of
parameters. -/
def Answers (g : Synthesis) (type name : String) (arity : Nat) : Prop :=
  ∃ e ∈ g.entities, e.entity = type ∧ ∃ m ∈ e.methods, m.name = name ∧
    m.params.length = arity ∧ (m.kind = .getter ∨ m.kind.isInternal = true)

section Pairs

variable {s : Settings} {c : Catalog} {r o : Relationship}

/-- The entity of a paired relationship has its accessors. -/
theorem mem_entityOf_of_accessor (hr : r ∈ (Analysis.ofCatalog s c).relationships)
    (hpair : r.Partners o) {style : AccessorStyle} (hstyle : AccessorStyle.of? r.kind = some style)
    {m : Method}
    (hm : m ∈ (Link.new s r ((Analysis.ofCatalog s c).findInverse? r)).accessors style) :
    m ∈ (entityOf s (.ofCatalog s c) r.source).methods := by
  have hpart : m ∈ (partOf s (.ofCatalog s c) r).methods := by
    have hright : r.hasTarget = true := (Bool.and_eq_true_iff.mp hpair.facing.left).2
    rw [methods_partOf,styleOf?,hright,if_pos rfl,hstyle]
    exact List.mem_append_left _ hm
  refine List.mem_append_left _ (List.mem_flatMap.mpr ⟨_,List.mem_map_of_mem ?_,hpart⟩)
  exact List.mem_filter.mpr ⟨hr,beq_self_eq_true r.source⟩

/-- A paired relationship answers what its inverse side calls. -/
theorem answers_of_entry (hr : r ∈ (Analysis.ofCatalog s c).relationships) (hpair : r.Partners o)
    (hfind : (Analysis.ofCatalog s c).findInverse? r = some o) {k : MethodKind} {name : String}
    {arity : Nat} (h : (Inverse.ofRelationship r).names.Entry r.kind.isCollection k name arity) :
    (ofAnalysis s (.ofCatalog s c)).Answers r.source name arity := by
  have hassoc := hpair.symm.facing.isAssociation
  obtain ⟨style,hstyle⟩ : ∃ style, AccessorStyle.of? r.kind = some style := by
    cases hk : r.kind with
    | none | embedded | inheritance | composition =>
      rw [hk] at hassoc
      cases hassoc
    | oneToOne | oneToMany | manyToOne | manyToMany => exact ⟨_,rfl⟩
  obtain ⟨hplain,hmany⟩ := AccessorStyle.of_isAssociation hstyle hassoc
  have hinverse : (Link.new s r (some o)).inverse.isSome = true := by
    rw [Link.new,hpair.left]
    rfl
  have hnames : (Link.new s r (some o)).names = (Inverse.ofRelationship r).names :=
    Link.names_new hassoc
  rw [← hmany,← hnames] at h
  obtain ⟨m,hm,hkind,hname,harity⟩ := Link.exists_accessor_of_entry hplain hinverse h
  have hentity := mem_entityOf_of_accessor hr hpair hstyle (hfind ▸ hm)
  obtain ⟨e,he,htype,hm⟩ := exists_entity (Analysis.source_mem_entities hr) hentity
  exact ⟨e,he,htype,m,hm,hname,harity,hkind ▸ h.kind_cases⟩

/-- A value of a paired field answers what is called through the inverse side. -/
theorem answers_of_inverse (hfields : ∀ e ∈ c.entities, (e.fields.map Field.name).Nodup)
    (hlink : ∀ e ∈ c.entities, ∀ f ∈ e.fields, f.name ≠ Relationship.superclassField)
    (hr : r ∈ (Analysis.ofCatalog s c).relationships)
    (hfind : (Analysis.ofCatalog s c).findInverse? r = some o) {k : MethodKind} {name : String}
    {arity : Nat} (h : (Inverse.ofRelationship o).names.Entry o.kind.isCollection k name arity) :
    (ofAnalysis s (.ofCatalog s c)).Answers r.target name arity := by
  obtain ⟨field,hfield,-⟩ := Option.bind_eq_some_iff.mp hfind
  have hbi := Analysis.bidirectional_of_inverseField hr hfield
  obtain ⟨o',ho',hpair,hthere,hback⟩ := Analysis.exists_mutual hfields hlink hr hbi
  obtain rfl : o = o' := Option.some.inj (hfind.symm.trans hthere)
  rw [← hpair.facing.source]
  exact answers_of_entry ho' hpair.symm hback h

end Pairs

end Synthesis

namespace Generation

/-- Every call on another entity finds its method in the output. What an accessor calls on a value
of its field is answered by the field's target; what it calls on another owner of a value is
answered by the entity of the field. Validators call values only. -/
theorem calls_resolve {cancelled : Bool} {s : Settings} {c : Catalog} {g : Generation}
    (h : run cancelled s c = .ok g) (hfields : ∀ e ∈ c.entities, (e.fields.map Field.name).Nodup)
    (hlink : ∀ e ∈ c.entities, ∀ f ∈ e.fields, f.name ≠ Relationship.superclassField) :
    (∀ r ∈ g.analysis.relationships, ∀ m ∈ (Synthesis.partOf s g.analysis r).methods,
      ∀ receiver n arguments, .call receiver n arguments ∈ exprsAll m.body → receiver ≠ .this →
      n ∉ collectionMethods → ∃ style x, Synthesis.styleOf? r = some style ∧ receiver = .var x ∧
        (x ∈ (Link.new s r (g.analysis.findInverse? r)).valueNames style ∧
            g.synthesis.Answers r.target n arguments.length ∨
          x ∈ (Link.new s r (g.analysis.findInverse? r)).ownerNames style ∧
            g.synthesis.Answers r.source n arguments.length)) ∧
    ∀ entity, ∀ m ∈ Validators.methodsOf s g.analysis entity,
      ∀ receiver n arguments, .call receiver n arguments ∈ exprsAll m.body → receiver ≠ .this →
      n ∉ collectionMethods → ∃ r ∈ g.analysis.relationshipsOf entity,
        receiver = Validators.checkedValue r ∧
        g.synthesis.Answers r.target n arguments.length := by
  obtain rfl := eq_of_run h
  constructor
  · intro r hr m hm receiver n arguments hcall hforeign hknown
    obtain ⟨style,hstyle,-,hcalls⟩ := Synthesis.member_of_mem_partOf hr hm
    cases hcalls _ (List.mem_filter.mpr ⟨hcall,rfl⟩) with
    | collection _ known => exact absurd known hknown
    | own => exact absurd rfl hforeign
    | value inverse held entry lower =>
      obtain ⟨-,o,hfind,rfl⟩ := Link.of_inverse_eq_some inverse
      exact ⟨style,_,hstyle,rfl,.inl ⟨held,
        Synthesis.answers_of_inverse hfields hlink hr hfind entry⟩⟩
    | owner inverse held entry lower =>
      obtain ⟨hbi,-⟩ := Link.of_inverse_eq_some inverse
      obtain ⟨o,-,hpair,hfind,-⟩ := Analysis.exists_mutual hfields hlink hr hbi
      have hof := (Synthesis.of_styleOf? hstyle).2
      have hassoc := hpair.symm.facing.isAssociation
      rw [Link.names_new hassoc,(AccessorStyle.of_isAssociation hof hassoc).2] at entry
      exact ⟨style,_,hstyle,rfl,.inr ⟨held,Synthesis.answers_of_entry hr hpair hfind entry⟩⟩
  · intro entity m hm receiver n arguments hcall hforeign hknown
    obtain ⟨-,-,hcalls⟩ := Validators.of_mem_methodsOf hm
    cases hcalls _ (List.mem_filter.mpr ⟨hcall,rfl⟩) with
    | own => exact absurd rfl hforeign
    | contains => exact absurd (by decide) hknown
    | back mem inverse =>
      have hr := List.mem_of_mem_filter mem
      exact ⟨_,hr,rfl,Synthesis.answers_of_inverse hfields hlink (List.mem_of_mem_filter hr)
        inverse .getter⟩

/-- Employees with a manager, who is an employee too. -/
def reportingLine : Catalog :=
  .ofList [
    { name := "Employee", fields := [
      { name := "reports", type := "List<Employee>",
        annotations := [⟨"OneToMany","mappedBy = \"manager\""⟩] },
      { name := "manager", type := "Employee", annotations := [⟨"ManyToOne",""⟩] }] }]

theorem reportingLine_fields :
    (∀ e ∈ reportingLine.entities, (e.fields.map Field.name).Nodup) ∧
    ∀ e ∈ reportingLine.entities, ∀ f ∈ e.fields, f.name ≠ Relationship.superclassField := by
  decide +kernel

/-- A report is taken from its previous manager by a method that employees have. -/
theorem reportingLine_calls_resolve :
    run false Analysis.uncycled reportingLine = .ok (ofCatalog Analysis.uncycled reportingLine) ∧
    (∀ e ∈ reportingLine.entities, (e.fields.map Field.name).Nodup) ∧
    (∀ e ∈ reportingLine.entities, ∀ f ∈ e.fields, f.name ≠ Relationship.superclassField) ∧
    ∃ r ∈ (ofCatalog Analysis.uncycled reportingLine).analysis.relationships,
      ∃ m ∈ (Synthesis.partOf Analysis.uncycled
        (ofCatalog Analysis.uncycled reportingLine).analysis r).methods,
      "internalRemoveReport" ∈ RecursionCheck.foreignCallees m ∧
      ∃ arity, (ofCatalog Analysis.uncycled reportingLine).synthesis.Answers r.source
        "internalRemoveReport" arity := by
  have hrun : run false Analysis.uncycled reportingLine =
      .ok (ofCatalog Analysis.uncycled reportingLine) := rfl
  obtain ⟨hfields,hlink⟩ := reportingLine_fields
  have hcall : ∃ r ∈ (ofCatalog Analysis.uncycled reportingLine).analysis.relationships,
      r.target = r.source ∧ ∃ m ∈ (Synthesis.partOf Analysis.uncycled
        (ofCatalog Analysis.uncycled reportingLine).analysis r).methods,
      "internalRemoveReport" ∈ RecursionCheck.foreignCallees m := by
    decide +kernel
  obtain ⟨r,hr,hself,m,hm,hcallee⟩ := hcall
  obtain ⟨receiver,arguments,hmem,hforeign⟩ := mem_foreignCallees.mp hcallee
  obtain ⟨-,-,-,-,⟨-,hanswers⟩ | ⟨-,hanswers⟩⟩ := (calls_resolve hrun hfields hlink).1 r hr m hm
    receiver _ arguments (List.mem_of_mem_filter hmem) hforeign (by decide)
  · exact ⟨hrun,hfields,hlink,r,hr,m,hm,hcallee,_,hself ▸ hanswers⟩
  · exact ⟨hrun,hfields,hlink,r,hr,m,hm,hcallee,_,hanswers⟩

end Generation

end EntityLink
