import EntityLink.Proofs.AnnotationGrammar
import EntityLink.Proofs.CatalogLookup
import EntityLink.Proofs.InverseLookup

namespace EntityLink
open Text

namespace Text

/-- A type name without arguments. -/
def IsBare (type : String) : Prop :=
  '<' ∉ type.toList

instance (type : String) : Decidable (IsBare type) :=
  inferInstanceAs (Decidable (_ ∉ _))

variable {type : String}

theorem IsBare.trim (h : IsBare type) : IsBare (trim type) := by
  rw [IsBare,Text.trim,String.toList_ofList]
  intro hmem
  have hfront := dropBlankEnd_prefix (dropBlank type.toList)
  exact h ((List.dropWhile_suffix _).subset (hfront.subset hmem))

theorem IsBare.simpleName (h : IsBare type) : IsBare (simpleName type) := by
  rw [IsBare,Text.simpleName,String.toList_ofList,List.mem_reverse]
  intro hmem
  exact h (List.mem_reverse.mp ((List.takeWhile_prefix _).subset hmem))

end Text

namespace TypeExpr

variable {cs : List Char}

theorem isBare_raw_ofChars (cs : List Char) : IsBare (ofChars cs).raw := by
  rw [ofChars,IsBare]
  split
  · rename_i hdrop
    rw [raw,String.toList_ofList]
    intro hmem
    exact Bool.false_ne_true (List.dropWhile_eq_nil_iff.mp hdrop _ hmem)
  · rw [raw,String.toList_ofList]
    intro hmem
    exact Bool.false_ne_true (List.mem_takeWhile_imp hmem)

/-- The arguments of a type are types themselves. -/
theorem exists_of_mem_arguments {t : TypeExpr} (h : t ∈ (ofChars cs).arguments) :
    ∃ ds, t = ofChars ds := by
  rw [ofChars] at h
  split at h
  · cases h
  · obtain ⟨p,-,rfl⟩ := List.mem_map.mp h
    exact ⟨p.1,rfl⟩

theorem isBare_firstArgument (text : String) : IsBare (parse text).firstArgument := by
  rw [firstArgument]
  cases hfirst : (parse text).arguments.head? with
  | none => exact List.not_mem_nil
  | some t =>
    obtain ⟨ds,rfl⟩ := exists_of_mem_arguments (List.mem_of_head? hfirst)
    exact isBare_raw_ofChars ds

end TypeExpr

/-- What a class literal names is a name. -/
theorem Attributes.isName_of_captures {word : Char → Bool} {text : List Char} {groups : Groups}
    (h : classLiteralPattern.Captures word text groups) :
    ∃ name, AnnotationText.isName word name = true ∧ groups.lookup 1 = some name := by
  obtain ⟨before,cs,after,-,hmatch⟩ := h
  obtain ⟨-,hrest⟩ := Pattern.matches_start_seq_iff.mp hmatch
  obtain ⟨name,_,inner,_,-,rfl,hgroup,-⟩ := Pattern.matches_group_seq_iff.mp hrest
  obtain ⟨hname,rfl⟩ := AnnotationText.matches_namePattern_iff.mp hgroup
  exact ⟨name,hname,rfl⟩

theorem Attributes.isBare_classLiteral {a : Attributes} {key name : String}
    (h : a.classLiteral? key = some name) : IsBare name := by
  simp only [classLiteral?,Option.bind_eq_bind,Option.bind_eq_some_iff] at h
  obtain ⟨raw,-,groups,hgroups,hlookup⟩ := h
  obtain ⟨ds,hname,hfound⟩ := isName_of_captures (Matcher.backtracking_lawful.sound hgroups)
  obtain ⟨-,-,-,-,hall⟩ := AnnotationText.exists_of_isName isWord_wordClass hname
  rw [hfound] at hlookup
  obtain rfl := Option.some.inj hlookup
  rw [IsBare,String.toList_ofList]
  intro hmem
  exact absurd (hall _ hmem) (by decide)

namespace Catalog

variable {c : Catalog} {e : Entity} {f : Field} {r : Relationship} {type name : String}

/-- A type name is resolved to itself or to a name that ends with it. -/
theorem resolve?_cases (h : c.resolve? type = some name) :
    name = trim type ∨ simpleName name = trim type := by
  cases hfound : c.find? (trim type) with
  | some d =>
    rw [resolve?_of_find? hfound] at h
    exact .inl (Option.some.inj (Option.ite_none_right_eq_some.mp h).2).symm
  | none =>
    obtain ⟨d,hd,-,rfl⟩ := (resolve?_of_not_found hfound).mp h
    exact .inr (bySimple?_eq_some_iff.mp hd).1.2

theorem isBare_resolve? (hbare : IsBare type) (h : c.resolve? type = some name) :
    IsBare (simpleName name) := by
  rcases resolve?_cases h with rfl | hsimple
  · exact hbare.trim.simpleName
  · rw [hsimple]
    exact hbare.trim

/-- What a mapped field refers to has no type arguments in its name. -/
theorem isBare_mappedTarget (kind : RelationKind) (type : String) (a : Attributes) :
    IsBare (simpleName (c.mappedTarget kind (TypeExpr.parse type) a)) := by
  have hraw : IsBare ((a.classLiteral? "targetEntity").getD
      (if kind.isCollectionValued then (TypeExpr.parse type).firstArgument
        else (TypeExpr.parse type).raw)) := by
    cases hliteral : a.classLiteral? "targetEntity" with
    | some name => exact Attributes.isBare_classLiteral hliteral
    | none =>
      rw [Option.getD_none]
      split
      · exact TypeExpr.isBare_firstArgument type
      · exact TypeExpr.isBare_raw_ofChars _
  simp only [mappedTarget]
  split
  · exact isBare_resolve? hraw ‹_›
  · split
    · exact List.not_mem_nil
    · exact hraw.trim.simpleName

theorem isBare_target (h : c.relationship? e f = some r) : IsBare r.targetSimple := by
  unfold relationship? at h
  split at h
  · cases h
  · split at h
    · obtain rfl := Option.some.inj h
      exact isBare_mappedTarget _ _ _
    · simp only [implicitRelationship?] at h
      split at h
      · obtain ⟨target,htarget,rfl⟩ := Option.map_eq_some_iff.mp h
        exact isBare_resolve? (TypeExpr.isBare_firstArgument f.type) htarget
      · obtain ⟨target,htarget,rfl⟩ := Option.map_eq_some_iff.mp h
        exact isBare_resolve? (TypeExpr.isBare_raw_ofChars _) htarget

end Catalog

namespace Analysis

variable {s : Settings} {c : Catalog} {r : Relationship}

/-- What the field of a relationship refers to has no type arguments in its name. -/
theorem isBare_targetSimple (hr : r ∈ (ofCatalog s c).relationships)
    (hkind : r.kind ≠ .inheritance) : IsBare r.targetSimple := by
  obtain ⟨q,hq,hsettles⟩ := exists_classified hr
  have hkinds : q.kind = r.kind := congrArg RelationshipKey.kind hsettles.key_eq
  have htarget : q.target = r.target := congrArg RelationshipKey.target hsettles.key_eq
  obtain ⟨e,-,-,hq | ⟨f,-,hq⟩⟩ := mem_classified.mp hq
  · exact absurd (hkinds.symm.trans (Catalog.inheritanceLink_key hq).2.2) hkind
  · rw [Relationship.targetSimple,← htarget]
    exact Catalog.isBare_target hq

/-- The class of a paired relationship is the target of its inverse side. -/
theorem isBare_sourceSimple (hr : r ∈ (ofCatalog s c).relationships)
    (hbi : r.bidirectional = true) : IsBare r.sourceSimple := by
  obtain ⟨o,ho,hpartners⟩ := exists_partner hr hbi
  have hfacing := hpartners.facing
  rw [Relationship.sourceSimple,← hfacing.target]
  exact isBare_targetSimple ho (RelationKind.ne_inheritance hfacing.isAssociation)

end Analysis

end EntityLink
