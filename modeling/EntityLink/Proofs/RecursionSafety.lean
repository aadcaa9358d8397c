import EntityLink.Proofs.GeneratedMembers
import Mathlib.Logic.Relation

namespace EntityLink
open Java

/-- A method that an expression calls, on whatever object. -/
def Java.Expr.callee? : Expr → Option String
  | .call _ m _ => some m
  | .callBare m _ => some m
  | _ => none

theorem Java.Expr.isCall_of_callee? {e : Expr} {n : String} (h : e.callee? = some n) :
    e.isCall = true := by
  cases e with
  | call | callBare => rfl
  | _ => cases h

/-- What other objects may be called for is no public mutator. -/
theorem Java.MethodKind.isPublicMutator_eq_false {k : MethodKind}
    (h : k = .getter ∨ k.isInternal = true) : k.isPublicMutator = false := by
  rcases h with rfl | h
  · rfl
  · cases k with
    | internalSetter | internalAdder | internalRemover => rfl
    | _ => cases h

/-- A call in a method of kind `k` that goes to a collection, or down in rank. What it calls on
another object is no public mutator. -/
inductive Java.Descends (k : MethodKind) : Expr → Prop
  | collection {receiver : Expr} {name : String} {arguments : List Expr}
      (known : name ∈ collectionMethods) : Descends k (.call receiver name arguments)
  | member {receiver : Expr} {name : String} {arguments : List Expr} {k' : MethodKind}
      (names : k'.Names name) (lower : k'.rank < k.rank)
      (foreign : receiver = .this ∨ k'.isPublicMutator = false) :
      Descends k (.call receiver name arguments)

theorem Link.Calls.descends {l : Link} {style : AccessorStyle} {k : MethodKind} {e : Expr}
    (hown : ∀ p ∈ l.names.table, p.1.Names p.2)
    (hinverse : ∀ i, l.inverse = some i → ∀ p ∈ i.names.table, p.1.Names p.2)
    (h : l.Calls style k e) : Descends k e := by
  cases h with
  | collection foreign known => exact .collection known
  | own k known lower => exact .member (hown _ known) lower (.inl rfl)
  | value inverse held entry lower =>
    exact .member (hinverse _ inverse _ entry.mem_table) lower
      (.inr (MethodKind.isPublicMutator_eq_false entry.kind_cases))
  | owner inverse held entry lower =>
    exact .member (hown _ entry.mem_table) lower
      (.inr (MethodKind.isPublicMutator_eq_false entry.kind_cases))

theorem Validators.Calls.descends {a : Analysis} {rs : List Relationship} {e : Expr}
    (hown : ∀ r ∈ rs, r.field ≠ "")
    (hinverse : ∀ r o, a.findInverse? r = some o → o.field ≠ "") (h : Calls a rs e) :
    Descends .validator e := by
  have hgetter : ∀ {field : String} (collection : Bool), field ≠ "" →
      MethodKind.getter.Names (MemberNames.ofField field collection).getter := by
    intro field collection hfield
    exact MemberNames.names_of_mem_table hfield collection (.getter,_) (by simp [MemberNames.table])
  cases h with
  | own mem many => exact .member (hgetter true (hown _ mem)) (by decide) (.inl rfl)
  | back mem inverse =>
    exact .member (hgetter _ (hinverse _ _ inverse)) (by decide) (.inr rfl)
  | contains foreign => exact .collection (by decide)

namespace Analysis

/-- Fields with names make relationships with names. -/
theorem field_ne_empty {s : Settings} {c : Catalog}
    (h : ∀ e ∈ c.entities, ∀ f ∈ e.fields, f.name ≠ "") :
    ∀ r ∈ (ofCatalog s c).relationships, r.field ≠ "" := by
  intro r hr
  obtain ⟨q,hq,hsettles⟩ := exists_classified hr
  have hfield : q.field = r.field := congrArg RelationshipKey.field hsettles.key_eq
  rw [← hfield]
  obtain ⟨e,he,-,hq | ⟨f,hf,hq⟩⟩ := mem_classified.mp hq
  · rw [(Catalog.inheritanceLink_key hq).2.1]
    decide
  · rw [(Catalog.relationship_key hq).2.1]
    exact h e he f hf

theorem mem_of_findInverse? {a : Analysis} {r o : Relationship} (h : a.findInverse? r = some o) :
    o ∈ a.relationships := by
  obtain ⟨field,-,hfind⟩ := Option.bind_eq_some_iff.mp h
  exact List.mem_of_find?_eq_some hfind

end Analysis

namespace Synthesis

section Members

variable {s : Settings} {c : Catalog}

/-- Every generated method has a name made for its kind, and its calls go down from there. -/
theorem names_and_descends (h : ∀ e ∈ c.entities, ∀ f ∈ e.fields, f.name ≠ "")
    {e : GeneratedEntity} (he : e ∈ (ofAnalysis s (.ofCatalog s c)).entities) {m : Method}
    (hm : m ∈ e.methods) : m.kind.Names m.name ∧ ∀ x ∈ callsAll m.body, Descends m.kind x := by
  have hfields := Analysis.field_ne_empty (s := s) h
  rcases mem_methods he hm with ⟨r,hr,style,-,hmember,hcalls⟩ | hvalidator
  · have hown : ∀ p ∈ (Link.new s r ((Analysis.ofCatalog s c).findInverse? r)).names.table,
        p.1.Names p.2 :=
      MemberNames.names_of_mem_table (hfields r (List.mem_of_mem_filter hr)) _
    refine ⟨hown _ hmember,fun x hx => (hcalls x hx).descends hown ?_⟩
    intro i hi
    obtain ⟨-,o,ho,rfl⟩ := Link.of_inverse_eq_some hi
    exact MemberNames.names_of_mem_table (hfields o (Analysis.mem_of_findInverse? ho)) _
  · obtain ⟨hkind,hnames,hcalls⟩ := Validators.of_mem_methodsOf hvalidator
    rw [hkind]
    refine ⟨hnames,fun x hx => (hcalls x hx).descends ?_ ?_⟩
    · intro r hr
      exact hfields r (List.mem_of_mem_filter (List.mem_of_mem_filter hr))
    · intro r o ho
      exact hfields o (Analysis.mem_of_findInverse? ho)

/-- No generated mutator calls a public mutator on another object. -/
theorem foreign_call_ne_mutator (h : ∀ e ∈ c.entities, ∀ f ∈ e.fields, f.name ≠ "")
    {e : GeneratedEntity} (he : e ∈ (ofAnalysis s (.ofCatalog s c)).entities) {m : Method}
    (hm : m ∈ e.methods) {receiver : Expr} {n : String} {arguments : List Expr}
    (hcall : .call receiver n arguments ∈ exprsAll m.body) (hforeign : receiver ≠ .this)
    {e' : GeneratedEntity} (he' : e' ∈ (ofAnalysis s (.ofCatalog s c)).entities) {m' : Method}
    (hm' : m' ∈ e'.methods) (hpublic : m'.kind.isPublicMutator = true) : m'.name ≠ n := by
  rintro rfl
  have hnames := (names_and_descends h he' hm').1
  cases (names_and_descends h he hm).2 _ (List.mem_filter.mpr ⟨hcall,rfl⟩) with
  | collection known => exact not_names_of_collection known hnames
  | member names lower foreign =>
    rw [MethodKind.eq_of_names hnames names] at hpublic
    rcases foreign with hthis | hprivate
    · exact hforeign hthis
    · rw [hprivate] at hpublic
      cases hpublic

theorem hazards_eq_nil (h : ∀ e ∈ c.entities, ∀ f ∈ e.fields, f.name ≠ "") :
    RecursionCheck.hazards (ofAnalysis s (.ofCatalog s c)).entities = [] := by
  simp only [RecursionCheck.hazards,List.flatMap_eq_nil_iff,List.map_eq_nil_iff,
    List.filter_eq_nil_iff]
  intro e he m hm n hn hmutator
  obtain ⟨receiver,arguments,hcall,hforeign⟩ := mem_foreignCallees.mp hn
  obtain ⟨m',hm',hname⟩ := List.mem_filterMap.mp (List.contains_iff_mem.mp hmutator)
  obtain ⟨e',he',hm'⟩ := List.mem_flatMap.mp hm'
  split at hname
  · exact foreign_call_ne_mutator h he (List.mem_of_mem_filter hm) (List.mem_of_mem_filter hcall)
      hforeign he' hm' ‹_› (Option.some.inj hname)
  · cases hname

/-- A generation reports contradictions of cascades and missing guards, and nothing worse. -/
theorem findings_severity (h : ∀ e ∈ c.entities, ∀ f ∈ e.fields, f.name ≠ "") :
    ∀ f ∈ (ofAnalysis s (.ofCatalog s c)).findings,
      f.severity = .warning ∧ f.kind ≠ .recursionHazard := by
  intro f hf
  rcases cases_of_mem_findings hf with ⟨hseverity,hkind⟩ | ⟨⟨hseverity,hkind⟩,-⟩ | ⟨-,hf⟩
  · rw [hkind]
    exact ⟨hseverity,FindingKind.noConfusion⟩
  · rw [hkind]
    exact ⟨hseverity,FindingKind.noConfusion⟩
  · rw [hazards_eq_nil h] at hf
    exact absurd hf List.not_mem_nil

end Members

/-- Some method called `m` calls a method called `n`, and some method is called `n`. -/
def MayCall (g : Synthesis) (m n : String) : Prop :=
  (∃ e ∈ g.entities, ∃ f ∈ e.methods, f.name = m ∧ ∃ x ∈ exprsAll f.body, x.callee? = some n) ∧
  ∃ e ∈ g.entities, ∃ f ∈ e.methods, f.name = n

/-- Calls lead down in rank, however many are followed. -/
theorem rank_lt_of_transGen {s : Settings} {c : Catalog}
    (h : ∀ e ∈ c.entities, ∀ f ∈ e.fields, f.name ≠ "") {m n : String}
    (hcalls : Relation.TransGen (ofAnalysis s (.ofCatalog s c)).MayCall m n) :
    ∃ k k' : MethodKind, k.Names m ∧ k'.Names n ∧ k'.rank < k.rank := by
  have hstep : ∀ {m n}, (ofAnalysis s (.ofCatalog s c)).MayCall m n →
      ∃ k k' : MethodKind, k.Names m ∧ k'.Names n ∧ k'.rank < k.rank := by
    rintro _ _ ⟨⟨e,he,f,hf,rfl,x,hx,hcallee⟩,e',he',f',hf',rfl⟩
    obtain ⟨hnames,hdescends⟩ := names_and_descends h he hf
    have hcalled := (names_and_descends h he' hf').1
    have hcall : x ∈ callsAll f.body :=
      List.mem_filter.mpr ⟨hx,Expr.isCall_of_callee? hcallee⟩
    cases hdescends x hcall with
    | collection known =>
      cases hcallee
      exact absurd hcalled (not_names_of_collection known)
    | member names lower _ =>
      cases hcallee
      exact ⟨_,_,hnames,names,lower⟩
  induction hcalls with
  | single hcall => exact hstep hcall
  | tail _ hcall ih =>
    obtain ⟨k,k',hk,hk',hlt⟩ := ih
    obtain ⟨j,j',hj,hj',hlt'⟩ := hstep hcall
    rw [MethodKind.eq_of_names hj hk'] at hlt'
    exact ⟨k,j',hk,hj',Nat.lt_trans hlt' hlt⟩

end Synthesis

/-- Findings of an analysis are warnings when validation is lenient, and none is about
recursion. -/
theorem Analysis.findings_severity {s : Settings} {c : Catalog} :
    ∀ f ∈ (ofCatalog s c).findings,
      (s.validationMode = .lenient → f.severity ≠ .error) ∧ f.kind ≠ .recursionHazard := by
  intro f hf
  rcases kind_of_mem_findingsOf hf with ⟨hseverity,hkind | hkind⟩ | ⟨hseverity,hkind⟩
  · rw [hseverity,hkind]
    exact ⟨fun h => h ▸ Severity.noConfusion,FindingKind.noConfusion⟩
  · rw [hseverity,hkind]
    exact ⟨fun h => h ▸ Severity.noConfusion,FindingKind.noConfusion⟩
  · rw [hseverity,hkind]
    exact ⟨fun _ => Severity.noConfusion,FindingKind.noConfusion⟩

namespace Generation

/-- Generated mutators cannot recurse: on other objects they call no public mutator, so none is
reported and a lenient run has no errors, and no method reaches one of its own name again through
the calls of generated methods. -/
theorem recursion_safe {cancelled : Bool} {s : Settings} {c : Catalog} {g : Generation}
    (h : run cancelled s c = .ok g) (hfields : ∀ e ∈ c.entities, ∀ f ∈ e.fields, f.name ≠ "") :
    (∀ e ∈ g.synthesis.entities, ∀ m ∈ e.methods,
      m.kind.isPublicMutator = true ∨ m.kind.isInternal = true →
      ∀ receiver n arguments, .call receiver n arguments ∈ exprsAll m.body → receiver ≠ .this →
      ∀ e' ∈ g.synthesis.entities, ∀ m' ∈ e'.methods, m'.kind.isPublicMutator = true →
        m'.name ≠ n) ∧
    (∀ f ∈ g.analysis.findings ++ g.synthesis.findings, f.kind ≠ .recursionHazard) ∧
    (s.validationMode = .lenient → g.hasErrors = false) ∧
    ∀ n, ¬ Relation.TransGen g.synthesis.MayCall n n := by
  obtain rfl := eq_of_run h
  refine ⟨?_,?_,?_,?_⟩
  · intro e he m hm _ receiver n arguments hcall hforeign e' he' m' hm' hpublic
    exact Synthesis.foreign_call_ne_mutator hfields he hm hcall hforeign he' hm' hpublic
  · intro f hf
    rcases List.mem_append.mp hf with hf | hf
    · exact (Analysis.findings_severity f hf).2
    · exact (Synthesis.findings_severity hfields f hf).2
  · intro hlenient
    simp only [hasErrors,Finding.anyError,Bool.or_eq_false_iff,List.any_eq_false,beq_iff_eq]
    refine ⟨fun f hf => (Analysis.findings_severity f hf).1 hlenient,fun f hf => ?_⟩
    rw [(Synthesis.findings_severity hfields f hf).1]
    exact Severity.noConfusion
  · intro n hcycle
    obtain ⟨k,k',hk,hk',hlt⟩ := Synthesis.rank_lt_of_transGen hfields hcycle
    rw [MethodKind.eq_of_names hk' hk] at hlt
    exact Nat.lt_irrefl _ hlt

/-- A department whose list of employees is the inverse side of their departments. -/
def staffedDepartment : Catalog :=
  .ofList [
    { name := "Department", fields := [
      { name := "employees", type := "List<Employee>",
        annotations := [⟨"OneToMany","mappedBy = \"department\""⟩] }] },
    { name := "Employee", fields := [
      { name := "department", type := "Department", annotations := [⟨"ManyToOne",""⟩] }] }]

/-- Calls do leave the adder of employees, but do not come back to it. -/
theorem staffedDepartment_recursion_safe :
    run false Analysis.uncycled staffedDepartment =
      .ok (ofCatalog Analysis.uncycled staffedDepartment) ∧
    (∀ e ∈ staffedDepartment.entities, ∀ f ∈ e.fields, f.name ≠ "") ∧
    (ofCatalog Analysis.uncycled staffedDepartment).synthesis.MayCall
      "addEmployee" "internalSetDepartment" ∧
    ¬ Relation.TransGen (ofCatalog Analysis.uncycled staffedDepartment).synthesis.MayCall
      "addEmployee" "addEmployee" := by
  have hrun : run false Analysis.uncycled staffedDepartment =
      .ok (ofCatalog Analysis.uncycled staffedDepartment) := rfl
  have hfields : ∀ e ∈ staffedDepartment.entities, ∀ f ∈ e.fields, f.name ≠ "" := by
    decide +kernel
  have hcall : (∃ e ∈ (ofCatalog Analysis.uncycled staffedDepartment).synthesis.entities,
      ∃ f ∈ e.methods, f.name = "addEmployee" ∧
        ∃ x ∈ exprsAll f.body, x.callee? = some "internalSetDepartment") ∧
      ∃ e ∈ (ofCatalog Analysis.uncycled staffedDepartment).synthesis.entities,
        ∃ f ∈ e.methods, f.name = "internalSetDepartment" := by
    decide +kernel
  exact ⟨hrun,hfields,hcall,(recursion_safe hrun hfields).2.2.2 _⟩

end Generation

end EntityLink
