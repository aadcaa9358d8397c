import EntityLink.TypeExpr
import Mathlib.Data.List.TakeWhile

namespace EntityLink
open Text

namespace TypeExpr

/-- The characters with a meaning of their own in a type text. -/
def signs : List Char := ['<', '>', ',', ' ', '\t']

/-- A name as it may stand in a type text. -/
def IsRawName (name : String) : Prop :=
  name ≠ "" ∧ ∀ c ∈ name.toList, c ∉ signs

instance (name : String) : Decidable (IsRawName name) :=
  decidable_of_iff (name ≠ "" ∧ name.toList.all (fun c => !signs.contains c) = true)
    ⟨fun ⟨hne,h⟩ => ⟨hne,by simpa using h⟩,fun ⟨hne,h⟩ => ⟨hne,by simpa using h⟩⟩

variable {cs ds : List Char}

theorem compact_append (cs ds : List Char) : compact (cs ++ ds) = compact cs ++ compact ds :=
  List.filter_append cs ds

theorem compact_of_plain (h : ∀ c ∈ cs, c ∉ signs) : compact cs = cs := by
  apply List.filter_eq_self.mpr
  intro c hc
  have hsign := h c hc
  simp only [signs,List.mem_cons,List.not_mem_nil,or_false,not_or] at hsign
  simp [hsign]

theorem argumentTexts_of_plain (hne : cs ≠ []) (h : ∀ c ∈ cs, c ∉ signs) :
    argumentTexts cs = [cs] := by
  have hsplit : ∀ cs : List Char, (∀ c ∈ cs, c ∉ signs) → splitScan nest isComma 0 cs = [cs] := by
    intro cs h
    induction cs with
    | nil => rfl
    | cons c cs ih =>
      obtain ⟨hc,hcs⟩ := List.forall_mem_cons.mp h
      simp only [signs,List.mem_cons,List.not_mem_nil,or_false,not_or] at hc
      have hnest : nest 0 c = 0 := by simp [nest,hc]
      have hcomma : isComma 0 c = false := by simp [isComma,hc]
      rw [splitScan,hcomma,if_neg Bool.false_ne_true,hnest,ih hcs]
      rfl
  rw [argumentTexts,hsplit cs h,if_neg]
  simpa using hne

theorem ofChars_of_plain (h : ∀ c ∈ cs, c ∉ signs) : ofChars cs = mk (String.ofList cs) [] := by
  have hdrop : cs.dropWhile (· != '<') = [] := by
    apply List.dropWhile_eq_nil_iff.mpr
    intro c hc
    have hsign := h c hc
    simp only [signs,List.mem_cons,not_or] at hsign
    exact bne_iff_ne.mpr hsign.1
  rw [ofChars]
  split
  · rfl
  · rename_i heq
    rw [hdrop] at heq
    cases heq

/-- What stands in brackets behind a name are its arguments. -/
theorem ofChars_arguments (hcs : ∀ c ∈ cs, c ∉ signs) (inner : List Char) :
    ofChars (cs ++ '<' :: (inner ++ ['>'])) =
      mk (String.ofList cs) ((argumentTexts inner).map ofChars) := by
  have hbefore : '<' ∉ cs := fun hmem => hcs '<' hmem (by decide)
  have hdrop := dropWhile_separator hbefore (inner ++ ['>'])
  have htake := takeWhile_separator hbefore (inner ++ ['>'])
  have hunclosed : unclosed (inner ++ ['>']) = inner := by
    rw [unclosed,stripEnd?_append,Option.getD_some]
  rw [ofChars]
  split
  · rename_i heq
    rw [hdrop] at heq
    cases heq
  · rename_i heq
    rw [hdrop] at heq
    cases heq
    rw [htake,List.attach_map_val,hunclosed]

/-- A name with one argument. -/
theorem ofChars_generic (hcs : ∀ c ∈ cs, c ∉ signs) (hne : ds ≠ []) (hds : ∀ c ∈ ds, c ∉ signs) :
    ofChars (cs ++ '<' :: (ds ++ ['>'])) =
      mk (String.ofList cs) [mk (String.ofList ds) []] := by
  rw [ofChars_arguments hcs,argumentTexts_of_plain hne hds,List.map_singleton,
    ofChars_of_plain hds]

theorem parse_rawName {name : String} (h : IsRawName name) : parse name = mk name [] := by
  rw [parse,compact_of_plain h.2,ofChars_of_plain h.2,String.ofList_toList]

theorem parse_generic {name argument : String} (hname : IsRawName name)
    (hargument : IsRawName argument) :
    parse (name ++ "<" ++ argument ++ ">") = mk name [mk argument []] := by
  have hcompact : compact (name ++ "<" ++ argument ++ ">").toList =
      name.toList ++ '<' :: (argument.toList ++ ['>']) := by
    simp only [String.toList_append,compact_append,compact_of_plain hname.2,
      compact_of_plain hargument.2]
    simp [compact]
  have hne : argument.toList ≠ [] := mt String.toList_eq_nil_iff.mp hargument.1
  rw [parse,hcompact,ofChars_generic hname.2 hne hargument.2,String.ofList_toList,
    String.ofList_toList]

end TypeExpr

end EntityLink
