import EntityLink.Proofs.LibraryTypes
import EntityLink.Proofs.MappingRoundTrip

namespace EntityLink
open Text Java Imports

namespace Attributes

/-- What of a text stands outside of strings, for a scan that begins in this state. -/
def bare : Scan → List Char → List Char
  | _, [] => []
  | .outside d, c :: cs => c :: bare (Scan.step (.outside d) c) cs
  | .quoted d, c :: cs => bare (Scan.step (.quoted d) c) cs
  | .escaped d, c :: cs => bare (Scan.step (.escaped d) c) cs

section Bare

variable {s : Scan} {d : Nat} {cs ds : List Char}

theorem bare_append (s : Scan) (cs ds : List Char) :
    bare s (cs ++ ds) = bare s cs ++ bare (cs.foldl Scan.step s) ds := by
  induction cs generalizing s with
  | nil => cases s <;> rfl
  | cons c cs ih =>
    cases s with
    | outside d => exact congrArg (c :: ·) (ih _)
    | quoted d => exact ih _
    | escaped d => exact ih _

theorem bare_sublist (s : Scan) (cs : List Char) : (bare s cs).Sublist cs := by
  induction cs generalizing s with
  | nil => cases s <;> exact List.Sublist.slnil
  | cons c cs ih =>
    cases s with
    | outside d => exact (ih _).cons_cons c
    | quoted d => exact (ih _).cons c
    | escaped d => exact (ih _).cons c

/-- A scan ends a closed text where it began it. -/
theorem Closed.foldl_step (h : Closed d cs) : cs.foldl Scan.step (.outside d) = .outside d := by
  have hsteps : ∀ (cs : List Char) {s t : Scan}, cs.foldlM Scan.step? s = some t →
      cs.foldl Scan.step s = t := by
    intro cs
    induction cs with
    | nil => exact fun h => Option.some.inj h
    | cons c cs ih =>
      intro s t h
      obtain ⟨u,hu,hcs⟩ := Option.bind_eq_some_iff.mp h
      rw [List.foldl_cons,(Scan.step_of_step? hu).1]
      exact ih hcs
  exact hsteps cs h

theorem Closed.bare_append (h : Closed d cs) (ds : List Char) :
    bare (.outside d) (cs ++ ds) = bare (.outside d) cs ++ bare (.outside d) ds := by
  rw [Attributes.bare_append,h.foldl_step]

/-- Of a string literal there is nothing outside of strings but the quote that opens it. -/
theorem bare_quote (text : String) : bare (.outside d) (quote text).toList = ['"'] := by
  have hliteral : ∀ c, bare (.quoted d) (literal c) = [] ∧
      (literal c).foldl Scan.step (.quoted d) = .quoted d := by
    intro c
    obtain ⟨-,hc⟩ | ⟨⟨hslash,hquote⟩,hc⟩ := literal_cases c
    · rw [hc]
      exact ⟨rfl,rfl⟩
    · simp [hc,bare,Scan.step,hslash,hquote]
  have hinner : bare (.quoted d) (text.toList.flatMap literal ++ ['"']) = [] := by
    induction text.toList with
    | nil => rfl
    | cons c cs ih =>
      rw [List.flatMap_cons,List.append_assoc,Attributes.bare_append,(hliteral c).1,
        (hliteral c).2,ih]
      rfl
  rw [toList_quote,bare,Scan.step,if_pos rfl,hinner]

/-- A closed text that has nothing but these letters outside of its strings. -/
structure SpeltIn (letters : List Char) (d : Nat) (cs : List Char) : Prop where
  closed : Closed d cs
  letters : bare (.outside d) cs ⊆ letters

variable {letters : List Char}

theorem SpeltIn.append (hcs : SpeltIn letters d cs) (hds : SpeltIn letters d ds) :
    SpeltIn letters d (cs ++ ds) where
  closed := hcs.closed.append hds.closed
  letters := by
    rw [hcs.closed.bare_append]
    exact List.append_subset.mpr ⟨hcs.letters,hds.letters⟩

theorem speltIn_plain (hplain : cs.all (fun c => !signs.contains c) = true) (h : cs ⊆ letters) :
    SpeltIn letters d cs where
  closed := closed_of_plain (by simpa using hplain)
  letters := List.Subset.trans (bare_sublist _ cs).subset h

theorem speltIn_quote (h : '"' ∈ letters) (text : String) :
    SpeltIn letters d (quote text).toList where
  closed := closed_quote text
  letters := by
    rw [bare_quote]
    exact List.cons_subset.mpr ⟨h,List.nil_subset _⟩

theorem SpeltIn.parentheses (hcs : SpeltIn letters (d + 1) cs) (hopen : '(' ∈ letters)
    (hclose : ')' ∈ letters) : SpeltIn letters d ('(' :: cs ++ [')']) where
  closed := hcs.closed.parentheses
  letters := by
    have hstep : Scan.step (.outside d) '(' = .outside (d + 1) := by simp [Scan.step]
    rw [List.cons_append,bare,hstep,hcs.closed.bare_append]
    simpa [hopen,bare,hclose] using hcs.letters

theorem SpeltIn.braces (hcs : SpeltIn letters (d + 1) cs) (hopen : '{' ∈ letters)
    (hclose : '}' ∈ letters) : SpeltIn letters d ('{' :: cs ++ ['}']) where
  closed := hcs.closed.braces
  letters := by
    have hstep : Scan.step (.outside d) '{' = .outside (d + 1) := by simp [Scan.step]
    rw [List.cons_append,bare,hstep,hcs.closed.bare_append]
    simpa [hopen,bare,hclose] using hcs.letters

theorem speltIn_join {vs : List String} (hcomma : [',', ' '] ⊆ letters)
    (h : ∀ v ∈ vs, SpeltIn letters (d + 1) v.toList) :
    SpeltIn letters (d + 1) (join ", " vs).toList := by
  induction vs using join.induct with
  | case1 => exact ⟨rfl,List.nil_subset _⟩
  | case2 v => exact h v List.mem_cons_self
  | case3 v w vs ih =>
    obtain ⟨hv,hvs⟩ := List.forall_mem_cons.mp h
    have hbetween : SpeltIn letters (d + 1) [',', ' '] :=
      ⟨by simp [Closed,Scan.step?,Scan.step],List.Subset.trans (bare_sublist _ _).subset hcomma⟩
    rw [join,String.toList_append,String.toList_append]
    exact (hv.append hbetween).append (ih hvs)

/-- The letters of a list are those of its elements and the marks around them. -/
theorem speltIn_bracedList {vs : List String} (hmarks : ['{', '}', ',', ' '] ⊆ letters)
    (h : ∀ v ∈ vs, ∀ d, SpeltIn letters d v.toList) : SpeltIn letters d (bracedList vs).toList := by
  have hbraces : SpeltIn letters d ("\x7b" ++ join ", " vs ++ "\x7d").toList := by
    have htext : ("\x7b" ++ join ", " vs ++ "\x7d").toList =
        '{' :: (join ", " vs).toList ++ ['}'] := by simp
    rw [htext]
    refine (speltIn_join (List.Subset.trans ?_ hmarks) (fun v hv => h v hv (d + 1))).braces
      (hmarks (by decide)) (hmarks (by decide))
    decide
  match vs with
  | [] => exact hbraces
  | [v] => exact h v List.mem_cons_self d
  | v :: w :: vs => exact hbraces

end Bare

end Attributes

namespace Java

/-- The types that values of mapping annotations are written with. -/
def argumentTypes : List String :=
  ["CascadeType", "FetchType", "InheritanceType", "JoinColumn"]

/-- The name of a type comes in a value, outside of its strings. -/
def Mentions (type value : String) : Prop :=
  type.toList <:+: Attributes.bare (.outside 0) value.toList

theorem Mentions.letters {type value : String} {letters : List Char} (h : Mentions type value)
    (hvalue : Attributes.SpeltIn letters 0 value.toList) : type.toList ⊆ letters :=
  List.Subset.trans h.subset hvalue.letters

instance (type value : String) : Decidable (Mentions type value) :=
  inferInstanceAs (Decidable (_ <:+: _))

/-- What lists of cascades are written with. -/
def cascadeLetters : List Char :=
  "\x7b\x7d, CascadeType.ALL PERSIST MERGE REMOVE REFRESH DETACH".toList

/-- What lists of join columns are written with. -/
def joinColumnLetters : List Char :=
  "\x7b\x7d, @JoinColumn(name = \")".toList

section Values
open Attributes

variable {type : String} (htype : type ∈ argumentTypes)
include htype

theorem not_mentions_quote (text : String) : ¬ Mentions type (quote text) := by
  intro h
  have hspelt : SpeltIn ['"'] 0 (quote text).toList := speltIn_quote List.mem_cons_self text
  exact (by decide : ∀ type ∈ argumentTypes, ¬ type.toList ⊆ ['"'])
    type htype (h.letters hspelt)

theorem eq_of_mentions_fetchValue {f : Fetch} (h : Mentions type (fetchValue f)) :
    type = "FetchType" := by
  revert h type
  cases f <;> decide

theorem eq_of_mentions_strategy {i : InheritanceStrategy}
    (h : Mentions type ("InheritanceType." ++ i.label)) : type = "InheritanceType" := by
  revert h type
  cases i <;> decide

theorem not_mentions_true : ¬ Mentions type "true" := by
  revert type
  decide

theorem eq_of_mentions_cascades {cs : List Cascade}
    (h : Mentions type (bracedList (cs.map (fun c => "CascadeType." ++ c.label)))) :
    type = "CascadeType" := by
  have hspelt : SpeltIn cascadeLetters 0
      (bracedList (cs.map (fun c => "CascadeType." ++ c.label))).toList := by
    refine speltIn_bracedList (by decide) (fun v hv d => ?_)
    obtain ⟨c,-,rfl⟩ := List.mem_map.mp hv
    cases c <;> exact speltIn_plain (by decide) (by decide)
  exact (by decide : ∀ type ∈ argumentTypes, type.toList ⊆ cascadeLetters →
    type = "CascadeType") type htype (h.letters hspelt)

theorem eq_of_mentions_joinColumnList {names : List String}
    (h : Mentions type (joinColumnList names)) : type = "JoinColumn" := by
  have hspelt : SpeltIn joinColumnLetters 0 (joinColumnList names).toList := by
    refine speltIn_bracedList (by decide) (fun v hv d => ?_)
    obtain ⟨name,-,rfl⟩ := List.mem_map.mp hv
    have hname : SpeltIn joinColumnLetters d "@JoinColumn".toList :=
      speltIn_plain (by decide) (by decide)
    have hkey : SpeltIn joinColumnLetters (d + 1) "name = ".toList :=
      speltIn_plain (by decide) (by decide)
    have hvalue := hkey.append (speltIn_quote (by decide) name)
    have htext : (joinColumn name).render.toList = "@JoinColumn".toList ++
        ('(' :: ("name = ".toList ++ (quote name).toList) ++ [')']) := by
      rw [(readable_joinColumn name).toList_render]
      simp [joinColumn,AnnotationUse.argumentText,join]
    rw [htext]
    exact hname.append (hvalue.parentheses (by decide) (by decide))
  exact (by decide : ∀ type ∈ argumentTypes, type.toList ⊆ joinColumnLetters →
    type = "JoinColumn") type htype (h.letters hspelt)

end Values

/-- An annotation is imported, and all the types that its values are written with. -/
structure AnnotationUse.Imported (u : AnnotationUse) (ns : PersistenceNamespace)
    (imports : List String) : Prop where
  name : persistence ns u.name ∈ imports
  values : ∀ p ∈ u.arguments, ∀ type ∈ argumentTypes, Mentions type p.2 →
    persistence ns type ∈ imports

theorem AnnotationUse.Imported.mono {u : AnnotationUse} {ns : PersistenceNamespace}
    {imports more : List String} (h : u.Imported ns imports) (hsub : imports ⊆ more) :
    u.Imported ns more :=
  ⟨hsub h.name,fun p hp type htype hmentions => hsub (h.values p hp type htype hmentions)⟩

end Java

namespace Relationship

variable (r : Relationship) (ns : PersistenceNamespace)

theorem imported_joinColumn (name : String) {imports : List String}
    (h : persistence ns "JoinColumn" ∈ imports) : (joinColumn name).Imported ns imports := by
  refine ⟨h,List.forall_mem_singleton.mpr (fun type htype hmentions => ?_)⟩
  exact absurd hmentions (not_mentions_quote htype name)

/-- Join columns of a table are imported as soon as there are some. -/
theorem imported_joinColumnList {key : String} {names imports : List String}
    (h : names.isEmpty = false → persistence ns "JoinColumn" ∈ imports) :
    ∀ p ∈ (if names.isEmpty then [] else [(key,joinColumnList names)]), ∀ type ∈ argumentTypes,
      Mentions type p.2 → persistence ns type ∈ imports := by
  intro p hp type htype hmentions
  obtain ⟨hnames,hp⟩ := List.mem_ite_nil_left.mp hp
  obtain rfl := List.mem_singleton.mp hp
  rw [eq_of_mentions_joinColumnList htype hmentions]
  exact h (eq_false_of_ne_true hnames)

theorem imported_joinAnnotations : ∀ u ∈ r.joinAnnotations, u.Imported ns (r.joinImports ns) := by
  rw [joinAnnotations_eq]
  unfold joinImports
  cases r.joinTable with
  | some table =>
    refine List.forall_mem_singleton.mpr ⟨List.mem_cons_self,?_⟩
    simp only [joinTableArguments,List.forall_mem_append]
    refine ⟨⟨?_,imported_joinColumnList ns (fun hnames => ?_)⟩,
      imported_joinColumnList ns (fun hnames => ?_)⟩
    · refine List.forall_mem_singleton.mpr (fun type htype hmentions => ?_)
      exact absurd hmentions (not_mentions_quote htype table)
    · simp [hnames]
    · simp [hnames]
  | none =>
    intro u hu
    obtain ⟨name,hname,rfl⟩ := List.mem_map.mp hu
    have hnames : r.joinColumns.isEmpty = false :=
      List.isEmpty_eq_false_iff_exists_mem.mpr ⟨name,hname⟩
    refine imported_joinColumn ns name ?_
    simp [hnames]

/-- An association imports its annotation and the constants in it. -/
theorem mappingImports_eq {name : String} (h : (name,r.kind) ∈ Catalog.associations) :
    r.mappingImports ns = [persistence ns name,persistence ns "FetchType"] ++
      (if r.cascade.toList.isEmpty then [] else [persistence ns "CascadeType"]) ++
      (if r.ownerSide then r.joinImports ns else []) := by
  simp only [Catalog.associations,Catalog.mappings,List.take_succ_cons,List.take_zero,
    List.mem_cons,List.not_mem_nil,or_false,Prod.mk.injEq] at h
  unfold mappingImports
  rcases h with ⟨rfl,hk⟩ | ⟨rfl,hk⟩ | ⟨rfl,hk⟩ | ⟨rfl,hk⟩ <;> rw [hk] <;> rfl

theorem imported_association (name : String) : AnnotationUse.Imported
    ⟨name,r.associationArguments⟩ ns ([persistence ns name,persistence ns "FetchType"] ++
      (if r.cascade.toList.isEmpty then [] else [persistence ns "CascadeType"])) where
  name := List.mem_cons_self
  values := by
    simp only [associationArguments,List.forall_mem_append]
    refine ⟨⟨⟨?_,?_⟩,?_⟩,?_⟩
    · intro p hp type htype hmentions
      obtain ⟨m,-,rfl⟩ := Option.map_eq_some_iff.mp (Option.mem_toList.mp hp)
      exact absurd hmentions (not_mentions_quote htype m)
    · intro p hp type htype hmentions
      obtain ⟨hcascades,hp⟩ := List.mem_ite_nil_left.mp hp
      obtain rfl := List.mem_singleton.mp hp
      simp [eq_of_mentions_cascades htype hmentions,hcascades]
    · refine List.forall_mem_singleton.mpr (fun type htype hmentions => ?_)
      simp [eq_of_mentions_fetchValue htype hmentions]
    · intro p hp type htype hmentions
      obtain rfl := List.mem_singleton.mp (List.mem_ite_nil_right.mp hp).2
      exact absurd hmentions (not_mentions_true htype)

/-- All that the mapping annotations of a field are written with is imported. -/
theorem imported_mapping : ∀ u ∈ r.mappingAnnotations, u.Imported ns (r.mappingImports ns) := by
  cases hassociation : r.kind.isAssociation with
  | true =>
    obtain ⟨name,hname⟩ := Catalog.exists_association hassociation
    rw [mappingAnnotations_eq hname,mappingImports_eq r ns hname,List.forall_mem_cons]
    refine ⟨(r.imported_association ns name).mono (List.subset_append_left _ _),fun u hu => ?_⟩
    obtain ⟨howner,hu⟩ := List.mem_ite_nil_right.mp hu
    rw [if_pos howner]
    exact (r.imported_joinAnnotations ns u hu).mono (List.subset_append_right _ _)
  | false =>
    unfold mappingAnnotations mappingImports
    cases hkind : r.kind with
    | none | inheritance => exact List.forall_mem_nil _
    | embedded =>
      exact List.forall_mem_singleton.mpr ⟨List.mem_cons_self,List.forall_mem_nil _⟩
    | composition =>
      refine List.forall_mem_singleton.mpr ⟨List.mem_cons_self,?_⟩
      refine List.forall_mem_singleton.mpr (fun type htype hmentions => ?_)
      simp [eq_of_mentions_fetchValue htype hmentions]
    | oneToOne | oneToMany | manyToOne | manyToMany =>
      rw [hkind] at hassociation
      cases hassociation

/-- The discriminators have texts for values, so their names are all that they need. -/
theorem imported_discriminator {name key : String} {value : Option String} :
    ∀ u ∈ (value.map (fun v => AnnotationUse.mk name [(key,quote v)])).toList,
      u.Imported ns (if value.isSome then [persistence ns name] else []) := by
  intro u hu
  obtain ⟨v,rfl,rfl⟩ := Option.map_eq_some_iff.mp (Option.mem_toList.mp hu)
  refine ⟨List.mem_cons_self,List.forall_mem_singleton.mpr (fun type htype hmentions => ?_)⟩
  exact absurd hmentions (not_mentions_quote htype v)

/-- All that the annotations of a class are written with is imported. -/
theorem imported_inheritance :
    ∀ u ∈ r.inheritanceAnnotations, u.Imported ns (r.inheritanceImports ns) := by
  unfold inheritanceAnnotations inheritanceImports
  cases r.inheritance with
  | none => exact List.forall_mem_nil _
  | some info =>
    simp only [List.forall_mem_append]
    refine ⟨⟨fun u hu => ?_,fun u hu => ?_⟩,fun u hu => ?_⟩
    · obtain ⟨hdeclared,hu⟩ := List.mem_ite_nil_right.mp hu
      obtain rfl := List.mem_singleton.mp hu
      rw [if_pos hdeclared]
      refine ⟨List.mem_cons_self,List.forall_mem_singleton.mpr (fun type htype hmentions => ?_)⟩
      simp [eq_of_mentions_strategy htype hmentions]
    · refine (imported_discriminator ns u hu).mono (fun i hi => ?_)
      exact List.mem_append_left _ (List.mem_append_right _ hi)
    · exact (imported_discriminator ns u hu).mono (List.subset_append_right _ _)

end Relationship

end EntityLink
