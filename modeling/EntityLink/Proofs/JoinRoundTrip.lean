import EntityLink.Proofs.MappingRoundTrip

namespace EntityLink
open Text Java

/-- The names that join metadata consists of: the table's, and those of its columns. -/
def Relationship.joinNames (r : Relationship) : List String :=
  r.joinTable.toList ++ r.joinColumns ++ r.inverseJoinColumns

/-- A name as the reader of annotations leaves it, with nothing in it to be escaped. -/
structure PlainName (name : String) : Prop where
  trimmed : trim name = name
  nonblank : allBlank name = false
  quote : '"' ∉ name.toList
  slash : '\\' ∉ name.toList

namespace Catalog

theorem trimmed_columnNames {a : Option Attributes} {key name : String}
    (h : name ∈ (a.map (columnNames · key)).getD []) :
    trim name = name ∧ allBlank name = false := by
  cases a with
  | none => cases h
  | some a =>
    obtain ⟨column,-,hname⟩ := List.mem_filterMap.mp h
    exact Attributes.trim_of_string? hname

theorem trimmed_bind {a : Option Attributes} {key name : String}
    (h : name ∈ (a.bind (·.string? key)).toList) : trim name = name ∧ allBlank name = false := by
  obtain ⟨a,-,hname⟩ := Option.bind_eq_some_iff.mp (Option.mem_toList.mp h)
  exact Attributes.trim_of_string? hname

/-- Names that are read from a field are trimmed and not blank. -/
theorem trimmed_withJoins {f : Field} {r : Relationship} {name : String}
    (h : name ∈ (withJoins f r).joinNames) : trim name = name ∧ allBlank name = false := by
  simp only [Relationship.joinNames,withJoins,List.mem_append] at h
  rcases h with (h | (h | h) | h) | h
  · exact trimmed_bind h
  · exact trimmed_columnNames h
  · exact trimmed_bind h
  · exact trimmed_columnNames h
  · exact trimmed_columnNames h

theorem string?_joinColumn {name : String} (h : PlainName name) :
    (joinColumn name).asRead.attributes.string? "name" = some name :=
  Attributes.string?_quote ((readable_joinColumn name).raw?_of_mem List.mem_cons_self) h.quote
    h.slash h.trimmed h.nonblank

/-- Columns written in a list are read back, in their order. -/
theorem columnNames_joinColumnList {a : Attributes} {key : String} {names : List String}
    (hraw : a.raw? key = some (joinColumnList names)) (h : ∀ n ∈ names, PlainName n) :
    columnNames a key = names := by
  have hlist : a.list key = names.map (fun n => (joinColumn n).render) := by
    refine Attributes.list_bracedList hraw (fun text htext => ?_)
    obtain ⟨n,-,rfl⟩ := List.mem_map.mp htext
    have hread := readable_joinColumn n
    refine ⟨hread.selfContained,?_,?_⟩ <;> rw [hread.toList_render] <;> simp
  rw [columnNames,Attributes.nested,hlist]
  clear hraw hlist
  induction names with
  | nil => rfl
  | cons n ns ih =>
    obtain ⟨hn,hns⟩ := List.forall_mem_cons.mp h
    rw [List.map_cons,List.filterMap_cons_some (readable_joinColumn n).parse?_render,
      List.filterMap_cons,string?_joinColumn hn,ih hns]

/-- A list of columns may be left out when there are none. -/
theorem columnNames_optional {u : AnnotationUse} (hread : u.Readable) {key : String}
    {names : List String} (hsome : names ≠ [] → (key,joinColumnList names) ∈ u.arguments)
    (hnone : names = [] → key ∉ u.arguments.map Prod.fst) (h : ∀ n ∈ names, PlainName n) :
    columnNames u.asRead.attributes key = names := by
  by_cases hnil : names = []
  · rw [columnNames,Attributes.nested,
      Attributes.list_of_raw?_none (hread.raw?_of_not_mem (hnone hnil)),hnil]
    rfl
  · exact columnNames_joinColumnList (hread.raw?_of_mem (hsome hnil)) h

end Catalog

/-- Join metadata is trimmed, in whatever a run returns. -/
theorem Analysis.trimmed_joinNames {s : Settings} {c : Catalog} {r : Relationship}
    (hr : r ∈ (ofCatalog s c).relationships) :
    ∀ name ∈ r.joinNames, trim name = name ∧ allBlank name = false := by
  obtain ⟨q,hq,hsettles⟩ := exists_classified hr
  have hnames : r.joinNames = q.joinNames := by
    rw [hsettles.kept]
    rfl
  rw [hnames]
  intro name hname
  obtain ⟨e,-,-,hq | ⟨f,-,hq⟩⟩ := mem_classified.mp hq
  · simp only [Catalog.inheritanceLink?] at hq
    split at hq
    · cases hq
      cases hname
    · cases hq
  · obtain ⟨-,kind,target,a,rfl,-⟩ := Catalog.exists_relationshipOf hq
    -- what was there before the join metadata does not matter
    exact Catalog.trimmed_withJoins (r := .new e.name target kind f.name f.type none) hname

namespace Field.Carries

variable {f : Field} {r : Relationship}

/-- Join metadata is looked up behind the mapping annotation. -/
theorem annotated?_join (h : f.Carries r) (hkind : r.kind.isAssociation = true)
    (howner : r.ownerSide = true) {key : String}
    (hkey : key ∈ ["Transient","JoinTable","JoinColumn","JoinColumns"]) :
    f.annotated? key =
      (r.joinAnnotations.find? (fun u => simpleName u.name == key)).map AnnotationUse.asRead := by
  obtain ⟨name,hname⟩ := Catalog.exists_association hkind
  have hnamed : (AnnotationUse.mk name r.associationArguments).asRead.named key = false := by
    apply beq_false_of_ne
    rintro rfl
    exact (Catalog.names_associations _ hname).2.1 hkey
  rw [Field.annotated?,h.annotations,Relationship.mappingAnnotations_eq hname,howner,
    if_pos rfl,List.map_cons,List.find?_cons,hnamed,List.find?_map]
  rfl

/-- With a table there is one such annotation. -/
theorem annotated?_table (h : f.Carries r) (hkind : r.kind.isAssociation = true)
    (howner : r.ownerSide = true) {table : String} (htable : r.joinTable = some table)
    (key : String) (hkey : key ∈ ["Transient","JoinTable","JoinColumn","JoinColumns"]) :
    f.annotated? key = if "JoinTable" = key
      then some (AnnotationUse.mk "JoinTable" (r.joinTableArguments table)).asRead else none := by
  have hsimple : simpleName "JoinTable" = "JoinTable" := by decide
  rw [h.annotated?_join hkind howner hkey,Relationship.joinAnnotations_eq,htable]
  by_cases hjoin : "JoinTable" = key
  · subst hjoin
    simp [hsimple]
  · simp [hsimple,hjoin]

/-- Without a table there is one for each column, of which the first one is found. -/
theorem annotated?_column (h : f.Carries r) (hkind : r.kind.isAssociation = true)
    (howner : r.ownerSide = true) (htable : r.joinTable = none) (key : String)
    (hkey : key ∈ ["Transient","JoinTable","JoinColumn","JoinColumns"]) :
    f.annotated? key = if "JoinColumn" = key
      then r.joinColumns.head?.map (fun n => (joinColumn n).asRead) else none := by
  have hsimple : ∀ n, simpleName (joinColumn n).name = "JoinColumn" := by
    intro n
    show simpleName "JoinColumn" = "JoinColumn"
    decide
  rw [h.annotated?_join hkind howner hkey,Relationship.joinAnnotations_eq,htable]
  cases r.joinColumns with
  | nil => simp
  | cons n ns =>
    by_cases hcolumn : "JoinColumn" = key
    · simp [hsimple,hcolumn]
    · simp [hsimple,hcolumn]

/-- A named table is read back with all its columns. -/
theorem withJoins_table (h : f.Carries r) (hkind : r.kind.isAssociation = true)
    (howner : r.ownerSide = true) (hnames : ∀ n ∈ r.joinNames, PlainName n) {table : String}
    (htable : r.joinTable = some table) (q : Relationship) :
    (Catalog.withJoins f q).joinTable = r.joinTable ∧
      (Catalog.withJoins f q).joinColumns = r.joinColumns ∧
      (Catalog.withJoins f q).inverseJoinColumns = r.inverseJoinColumns := by
  have hfound := h.annotated?_table hkind howner htable "JoinTable" (by decide)
  have hsingle := h.annotated?_table hkind howner htable "JoinColumn" (by decide)
  have hseveral := h.annotated?_table hkind howner htable "JoinColumns" (by decide)
  rw [if_pos rfl] at hfound
  rw [if_neg (by decide)] at hsingle hseveral
  have htext := hnames table (by simp [Relationship.joinNames,htable])
  have hread := r.readable_joinTable table
  simp only [Catalog.withJoins,hfound,hsingle,hseveral,Option.map_some,Option.map_none,
    Option.bind_some,Option.bind_none,Option.getD_some,Option.getD_none,Option.toList_none,
    List.append_nil]
  refine ⟨?_,?_,?_⟩
  · rw [htable]
    refine Attributes.string?_quote (hread.raw?_of_mem ?_) htext.quote htext.slash htext.trimmed
      htext.nonblank
    simp [Relationship.joinTableArguments]
  · refine Catalog.columnNames_optional hread (fun hne => ?_) (fun hnil => ?_) (fun n hn => ?_)
    · simp [Relationship.joinTableArguments,hne]
    · simp [Relationship.joinTableArguments,hnil]
    · exact hnames n (by simp [Relationship.joinNames,hn])
  · refine Catalog.columnNames_optional hread (fun hne => ?_) (fun hnil => ?_) (fun n hn => ?_)
    · simp [Relationship.joinTableArguments,hne]
    · simp [Relationship.joinTableArguments,hnil]
    · exact hnames n (by simp [Relationship.joinNames,hn])

/-- Without a table the first column is all that is read. -/
theorem withJoins_columns (h : f.Carries r) (hkind : r.kind.isAssociation = true)
    (howner : r.ownerSide = true) (hnames : ∀ n ∈ r.joinNames, PlainName n)
    (htable : r.joinTable = none) (q : Relationship) :
    (Catalog.withJoins f q).joinTable = none ∧
      (Catalog.withJoins f q).joinColumns = r.joinColumns.take 1 ∧
      (Catalog.withJoins f q).inverseJoinColumns = [] := by
  have hjoin := h.annotated?_column hkind howner htable "JoinTable" (by decide)
  have hsingle := h.annotated?_column hkind howner htable "JoinColumn" (by decide)
  have hseveral := h.annotated?_column hkind howner htable "JoinColumns" (by decide)
  rw [if_neg (by decide)] at hjoin hseveral
  rw [if_pos rfl] at hsingle
  simp only [Catalog.withJoins,hjoin,hsingle,hseveral,Option.map_none,Option.bind_none,
    Option.getD_none,List.nil_append,List.append_nil]
  refine ⟨trivial,?_,trivial⟩
  cases hcolumns : r.joinColumns with
  | nil => rfl
  | cons n ns =>
    have hn := hnames n (by simp [Relationship.joinNames,hcolumns])
    simp [Catalog.string?_joinColumn hn]

/-- All is read back where a table is named, or where no column is left out. -/
theorem withJoins_iff (h : f.Carries r) (hkind : r.kind.isAssociation = true)
    (howner : r.ownerSide = true) (hnames : ∀ n ∈ r.joinNames, PlainName n) (q : Relationship) :
    ((Catalog.withJoins f q).joinTable = r.joinTable ∧
      (Catalog.withJoins f q).joinColumns = r.joinColumns ∧
      (Catalog.withJoins f q).inverseJoinColumns = r.inverseJoinColumns) ↔
    r.joinTable.isSome = true ∨ (r.joinColumns.length ≤ 1 ∧ r.inverseJoinColumns = []) := by
  cases htable : r.joinTable with
  | some table =>
    rw [← htable]
    exact iff_of_true (h.withJoins_table hkind howner hnames htable q) (.inl (by rw [htable]; rfl))
  | none =>
    obtain ⟨hjoin,hcolumns,hinverse⟩ := h.withJoins_columns hkind howner hnames htable q
    rw [hjoin,hcolumns,hinverse]
    constructor
    · rintro ⟨-,htake,hnil⟩
      have hlength := List.length_take_le 1 r.joinColumns
      rw [htake] at hlength
      exact .inr ⟨hlength,hnil.symm⟩
    · rintro (hsome | ⟨hlength,hnil⟩)
      · cases hsome
      · exact ⟨rfl,List.take_of_length_le hlength,hnil.symm⟩

end Field.Carries

theorem Catalog.exists_withJoins (e : Entity) (f : Field) (kind : RelationKind) (target : String)
    (a : Attributes) : ∃ q, (relationshipOf e f kind target a).joinTable =
        (withJoins f q).joinTable ∧
      (relationshipOf e f kind target a).joinColumns = (withJoins f q).joinColumns ∧
      (relationshipOf e f kind target a).inverseJoinColumns =
        (withJoins f q).inverseJoinColumns :=
  ⟨.new e.name target kind f.name f.type none,rfl,rfl,rfl⟩

namespace Analysis

/-- What is generated for the field of an owning association can be read, and a field that carries
it has the join metadata of the association exactly where a table is named, or there is no more
than one column and none for the inverse side. -/
theorem joins_read_back_iff {cancelled : Bool} {s : Settings} {c : Catalog} {a : Analysis}
    {r : Relationship} (h : run cancelled s c = .ok a) (hr : r ∈ a.relationships)
    (hkind : r.kind.isAssociation = true) (howner : r.ownerSide = true)
    (htarget : r.hasTarget = true)
    (hclean : ∀ n ∈ r.joinNames, '"' ∉ n.toList ∧ '\\' ∉ n.toList) :
    ∃ d, (Synthesis.partOf s a r).fields = [d] ∧
      (∀ u ∈ d.annotations, (AnnotationText.parse? u.render).isSome = true) ∧
      ∀ (c' : Catalog) (e : Entity) (f : Field), f.isStatic = false → f.name = r.field →
        f.annotations.map some = d.annotations.map (fun u => AnnotationText.parse? u.render) →
        ∃ q, (c'.classifyField e f).2 = some q ∧
          ((q.joinTable = r.joinTable ∧ q.joinColumns = r.joinColumns ∧
            q.inverseJoinColumns = r.inverseJoinColumns) ↔
          r.joinTable.isSome = true ∨ (r.joinColumns.length ≤ 1 ∧ r.inverseJoinColumns = [])) := by
  obtain rfl := eq_of_run h
  have hnames : ∀ n ∈ r.joinNames, PlainName n := by
    intro n hn
    obtain ⟨htrim,hblank⟩ := trimmed_joinNames hr n hn
    exact ⟨htrim,hblank,(hclean n hn).1,(hclean n hn).2⟩
  refine ⟨_,Synthesis.fields_of_association s _ hkind htarget,fun u hu => ?_,
    fun c' e f hstored hname hannotations => ?_⟩
  · rw [(Relationship.readable_mappingAnnotations hkind u hu).parse?_render]
    rfl
  have hcarries : f.Carries r := Field.carries_of_parse hkind hstored hname hannotations
  obtain ⟨name,hmapping⟩ := Catalog.exists_association hkind
  refine ⟨_,hcarries.relationship? hmapping c' e,?_⟩
  obtain ⟨q,htable,hcolumns,hinverse⟩ := Catalog.exists_withJoins e f r.kind
    (c'.mappedTarget r.kind (TypeExpr.parse f.type) (r.mappingAttributes name))
    (r.mappingAttributes name)
  rw [htable,hcolumns,hinverse]
  exact hcarries.withJoins_iff hkind howner hnames q

/-- Attendance is kept in a table of its own. -/
def attendance : Catalog :=
  .ofList [
    { name := "Student", fields := [
      { name := "courses", type := "List<Course>", annotations := [⟨"ManyToMany",""⟩,
        ⟨"JoinTable","name = \"attends\", joinColumns = \x7b@JoinColumn(name = \"school\"), " ++
          "@JoinColumn(name = \"number\")\x7d, " ++
          "inverseJoinColumns = @JoinColumn(name = \"course\")"⟩] }] },
    { name := "Course" }]

def attendedCourses : Relationship where
  source := "Student"
  target := "Course"
  kind := .manyToMany
  field := "courses"
  fieldType := "List<Course>"
  mappedBy := none
  ownerSide := true
  joinTable := some "attends"
  joinColumns := ["school","number"]
  inverseJoinColumns := ["course"]
  cascade := { persist := true, merge := true }

/-- The field as it is generated, read back. -/
def attendedField : Field where
  name := "courses"
  type := "List<Course>"
  annotations := [
    ⟨"ManyToMany",
      "cascade = \x7bCascadeType.PERSIST, CascadeType.MERGE\x7d, fetch = FetchType.LAZY"⟩,
    ⟨"JoinTable","name = \"attends\", joinColumns = \x7b@JoinColumn(name = \"school\"), " ++
      "@JoinColumn(name = \"number\")\x7d, inverseJoinColumns = @JoinColumn(name = \"course\")"⟩]

theorem attendedField_joins :
    run false uncycled attendance = .ok (ofCatalog uncycled attendance) ∧
    attendedCourses ∈ (ofCatalog uncycled attendance).relationships ∧
    ∃ q, (attendance.classifyField { name := "Student" } attendedField).2 = some q ∧
      q.joinTable = attendedCourses.joinTable ∧ q.joinColumns = attendedCourses.joinColumns ∧
      q.inverseJoinColumns = attendedCourses.inverseJoinColumns := by
  have hrun : run false uncycled attendance = .ok (ofCatalog uncycled attendance) := rfl
  have hr : attendedCourses ∈ (ofCatalog uncycled attendance).relationships := by decide +kernel
  obtain ⟨d,hd,-,hback⟩ := joins_read_back_iff hrun hr rfl rfl (by decide +kernel) (by decide)
  have hdecl : (Synthesis.partOf uncycled (ofCatalog uncycled attendance) attendedCourses).fields =
      [(Link.new uncycled attendedCourses none).fieldDecl] := rfl
  obtain rfl := (List.cons.inj (hd.symm.trans hdecl)).1
  obtain ⟨q,hq,hiff⟩ := hback attendance { name := "Student" } attendedField rfl rfl
    (by decide +kernel)
  exact ⟨hrun,hr,q,hq,hiff.mpr (.inl rfl)⟩

/-- A leg is told by its line and its number on the line. -/
def stops : Catalog :=
  .ofList [
    { name := "Stop", fields := [
      { name := "leg", type := "Leg", annotations := [⟨"ManyToOne",""⟩,
        ⟨"JoinColumns",
          "\x7b@JoinColumn(name = \"route_line\"), @JoinColumn(name = \"route_leg\")\x7d"⟩] }] },
    { name := "Leg" }]

def stopLeg : Relationship where
  source := "Stop"
  target := "Leg"
  kind := .manyToOne
  field := "leg"
  fieldType := "Leg"
  mappedBy := none
  ownerSide := true
  joinColumns := ["route_line","route_leg"]
  cascade := { persist := true, merge := true, refresh := true }

/-- The field as it is generated, read back. -/
def stopLegField : Field where
  name := "leg"
  type := "Leg"
  annotations := [
    ⟨"ManyToOne","cascade = \x7bCascadeType.PERSIST, CascadeType.MERGE, " ++
      "CascadeType.REFRESH\x7d, fetch = FetchType.LAZY"⟩,
    ⟨"JoinColumn","name = \"route_line\""⟩,
    ⟨"JoinColumn","name = \"route_leg\""⟩]

/-- The second column is lost. -/
theorem exists_column_lost : ¬ ∀ (cancelled : Bool) (s : Settings) (c : Catalog) (a : Analysis)
    (r : Relationship), run cancelled s c = .ok a → r ∈ a.relationships →
    r.kind.isAssociation = true → r.ownerSide = true → r.hasTarget = true →
    (∀ n ∈ r.joinNames, '"' ∉ n.toList ∧ '\\' ∉ n.toList) →
    ∀ d ∈ (Synthesis.partOf s a r).fields, ∀ (c' : Catalog) (e : Entity) (f : Field),
      c'.resolve? r.targetSimple = some r.target → e.name = r.source → f.isStatic = false →
      f.name = r.field → f.type = d.type →
      f.annotations.map some = d.annotations.map (fun u => AnnotationText.parse? u.render) →
      ∃ q, (c'.classifyField e f).2 = some q ∧ q.joinTable = r.joinTable ∧
        q.joinColumns = r.joinColumns ∧ q.inverseJoinColumns = r.inverseJoinColumns := by
  intro hall
  have hrun : run false uncycled stops = .ok (ofCatalog uncycled stops) := rfl
  have hr : stopLeg ∈ (ofCatalog uncycled stops).relationships := by decide +kernel
  obtain ⟨q,hq,-,hcolumns,-⟩ := hall false uncycled stops _ stopLeg hrun hr rfl rfl
    (by decide +kernel) (by decide) _ List.mem_cons_self stops { name := "Stop" } stopLegField
    (by decide +kernel) rfl rfl rfl (by decide +kernel) (by decide +kernel)
  have hread : ((stops.classifyField { name := "Stop" } stopLegField).2.map
      Relationship.joinColumns) = some ["route_line"] := by decide +kernel
  rw [hq] at hread
  exact absurd (hcolumns.symm.trans (Option.some.inj hread)) (by decide)

end Analysis

end EntityLink
