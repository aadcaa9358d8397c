import EntityLink.Java.Tree
import EntityLink.Link
import Mathlib.Data.List.Infix

namespace EntityLink
open Java

namespace Text

theorem caseImage_ne_nil {special : List (Nat × List Nat)} (h : ∀ e ∈ special, e.2 ≠ [])
    (runs : List CaseRun) (c : Char) : caseImage special runs c ≠ [] := by
  unfold caseImage
  split
  · rename_i ns hlookup
    obtain ⟨before,after,rfl,-⟩ := List.lookup_eq_some_iff.mp hlookup
    simpa using h (c.toNat,ns) (by simp)
  · exact List.cons_ne_nil _ _

theorem upperOf_ne_nil (c : Char) : upperOf c ≠ [] := by
  unfold upperOf
  split
  · exact List.cons_ne_nil _ _
  · exact caseImage_ne_nil (by decide) upperRuns c

theorem capitalize_ne_empty {s : String} (h : s ≠ "") : capitalize s ≠ "" := by
  unfold capitalize
  split
  · rename_i hnil
    exact absurd (String.toList_eq_nil_iff.mp hnil) h
  · rename_i c cs _
    intro he
    have hnil := congrArg String.toList he
    simp [upperOf_ne_nil c] at hnil

/-- A capital takes one character at least. -/
theorem length_le_capitalize (s : String) : s.length ≤ (capitalize s).length := by
  unfold capitalize
  split
  · rename_i hnil
    rw [String.toList_eq_nil_iff.mp hnil]
  · rename_i c cs hcs
    have hpos := List.length_pos_iff.mpr (upperOf_ne_nil c)
    rw [← String.length_toList,hcs,String.length_ofList,List.length_append,List.length_cons]
    omega

/-- A prefix and a capital do not make up for what a singular may lack. -/
theorem ne_append_capitalize {name field stem : String} (hname : name.length ≤ field.length + 1)
    (hstem : 1 < stem.length) : name ≠ stem ++ capitalize field := by
  rintro rfl
  have hlen := length_le_capitalize field
  rw [String.length_append] at hname
  omega

end Text

namespace Noun
open Text

theorem cut_ne_nil {n : Nat} {cs : List Char} (h : n < cs.length) : cut n cs ≠ [] := by
  intro hnil
  have hlen := congrArg List.length hnil
  rw [cut,List.length_take,List.length_nil] at hlen
  omega

theorem length_le_of_endsWith {e : String} {cs : List Char} (h : endsWith e cs = true) :
    e.toList.length ≤ cs.length :=
  (List.isSuffixOf_iff_suffix.mp h).length_le

theorem length_of_stripEnd {e cs stem : List Char} (h : stripEnd? e cs = some stem) :
    stem.length + e.length = cs.length := by
  unfold stripEnd? at h
  split at h
  · rename_i hsuffix
    have hlen := (List.isSuffixOf_iff_suffix.mp hsuffix).length_le
    rw [← Option.some.inj h,List.length_take]
    omega
  · cases h

theorem length_le_of_stripEnd {e cs stem : List Char} (h : stripEnd? e cs = some stem) :
    e.length ≤ cs.length := by
  have hlen := length_of_stripEnd h
  omega

theorem singularBySuffix_ne_nil {cs : List Char} (h : cs ≠ []) : singularBySuffix cs ≠ [] := by
  have hlow : (lower cs).length = cs.length := List.length_map _
  simp only [singularBySuffix]
  split
  · rename_i hstrip
    have hlen := length_le_of_stripEnd hstrip
    rw [hlow] at hlen
    refine cut_ne_nil (Nat.lt_of_lt_of_le ?_ hlen)
    split
    · decide
    · decide
  · split
    · rename_i hany
      obtain ⟨e,he,hends⟩ := List.any_eq_true.mp hany
      have hall : ∀ e ∈ ["sses","shes","ches","xes","zes"], 2 < e.toList.length := by decide
      have hlen := length_le_of_endsWith hends
      rw [hlow] at hlen
      exact cut_ne_nil (Nat.lt_of_lt_of_le (hall e he) hlen)
    · split
      · exact h
      · split
        · rename_i hs
          simp only [Bool.and_eq_true,decide_eq_true_eq] at hs
          exact cut_ne_nil hs.2
        · exact h

theorem matchCase_ne_nil {word : List Char} {replacement : String} (h : replacement ≠ "") :
    matchCase word replacement ≠ [] := by
  have hreplacement : replacement.toList ≠ [] := mt String.toList_eq_nil_iff.mp h
  unfold matchCase
  split
  · split
    · exact mt String.toList_eq_nil_iff.mp (capitalize_ne_empty h)
    · exact hreplacement
  · exact hreplacement

theorem singularChars_ne_nil {cs : List Char} (h : cs ≠ []) : singularChars cs ≠ [] := by
  simp only [singularChars]
  split
  · exact h
  · split
    · rename_i entry hentry
      have hall : ∀ e ∈ irregular, e.2 ≠ "" := by decide
      have hword : matchCase (lastWord cs).2 entry.2 ≠ [] := matchCase_ne_nil
        (hall entry (List.mem_of_find?_eq_some hentry))
      exact fun hnil => hword (List.append_eq_nil_iff.mp hnil).2
    · split
      · rename_i hstrip
        split
        · exact cut_ne_nil (Nat.lt_of_lt_of_le (by decide) (length_le_of_stripEnd hstrip))
        · exact List.cons_ne_nil _ _
      · exact singularBySuffix_ne_nil h

/-- The singular of a name is a name. -/
theorem singularize_ne_empty {name : String} (h : name ≠ "") : singularize name ≠ "" := by
  intro he
  have hnil := congrArg String.toList he
  rw [singularize,String.toList_ofList] at hnil
  exact singularChars_ne_nil (mt String.toList_eq_nil_iff.mp h) hnil

theorem length_cut (n : Nat) (cs : List Char) : (cut n cs).length = cs.length - n := by
  rw [cut,List.length_take]
  omega

theorem length_lastWord (cs : List Char) :
    (lastWord cs).1.length + (lastWord cs).2.length = cs.length := by
  have hparts := congrArg List.length
    (List.takeWhile_append_dropWhile (p := fun c => !c.isUpper) (l := cs.reverse))
  rw [List.length_append,List.length_reverse] at hparts
  unfold lastWord
  split
  · exact Nat.zero_add _
  · rename_i u head hdrop
    rw [hdrop,List.length_cons] at hparts
    rw [List.length_reverse,List.length_cons,List.length_reverse]
    omega

theorem length_singularBySuffix (cs : List Char) :
    cs.length ≤ (singularBySuffix cs).length + 2 ∧ (singularBySuffix cs).length ≤ cs.length := by
  simp only [singularBySuffix]
  split
  · rw [length_cut]
    split
    · omega
    · omega
  · split
    · rw [length_cut]
      omega
    · split
      · omega
      · split
        · rw [length_cut]
          omega
        · omega

theorem length_matchCase (word : List Char) {entry : String × String} (h : entry ∈ irregular) :
    entry.1.length ≤ (matchCase word entry.2).length + 3 ∧
      (matchCase word entry.2).length ≤ entry.1.length + 1 := by
  have hall : ∀ e ∈ irregular, ∀ w ∈ [e.2,capitalize e.2],
      e.1.length ≤ w.toList.length + 3 ∧ w.toList.length ≤ e.1.length + 1 := by
    decide +kernel
  have hplain := hall entry h entry.2 (by simp)
  have hcapital := hall entry h (capitalize entry.2) (by simp)
  unfold matchCase
  split
  · split
    · exact hcapital
    · exact hplain
  · exact hplain

theorem length_singularChars (cs : List Char) : cs.length ≤ (singularChars cs).length + 3 ∧
    (singularChars cs).length ≤ cs.length + 1 := by
  simp only [singularChars]
  split
  · omega
  · split
    · rename_i entry hentry
      have hkey := List.find?_some hentry
      have hword := congrArg String.length (beq_iff_eq.mp hkey)
      rw [String.length_ofList,lower,List.length_map] at hword
      have hcase := length_matchCase (lastWord cs).2 (List.mem_of_find?_eq_some hentry)
      have hparts := length_lastWord cs
      rw [List.length_append]
      omega
    · split
      · rename_i c stem hstrip
        have hstem := length_of_stripEnd hstrip
        have hies : "ies".toList.length = 3 := rfl
        rw [List.length_cons,hies] at hstem
        split
        · rw [length_cut]
          omega
        · rw [List.length_append,List.length_cons,List.length_singleton]
          omega
      · have hsuffix := length_singularBySuffix cs
        omega

/-- A singular has about the length of its plural: the irregular ones lose three letters at most,
and gain one at most. -/
theorem length_singularize (name : String) : name.length ≤ (singularize name).length + 3 ∧
    (singularize name).length ≤ name.length + 1 := by
  rw [singularize,String.length_ofList,← String.length_toList]
  exact length_singularChars _

end Noun

namespace Java.MethodKind

/-- What the names of methods of a kind begin with. -/
def stem : MethodKind → String
  | getter => "get"
  | setter => "set"
  | internalSetter => "internalSet"
  | adder => "add"
  | internalAdder => "internalAdd"
  | remover => "remove"
  | internalRemover => "internalRemove"
  | clearer => "clear"
  | counter => "count"
  | predicate => "has"
  | orphanHook => "on"
  | validator => "validate"

/-- A name that is made of the stem of a kind and something behind it. -/
def Names (k : MethodKind) (name : String) : Prop :=
  ∃ word, word ≠ "" ∧ name = k.stem ++ word

theorem stem_prefix_of_names {k : MethodKind} {name : String} (h : k.Names name) :
    k.stem.toList <+: name.toList := by
  obtain ⟨word,-,rfl⟩ := h
  rw [String.toList_append]
  exact List.prefix_append _ _

/-- No stem begins with another. -/
theorem eq_of_stem_begins {k k' : MethodKind} (h : k.stem.toList <+: k'.stem.toList) : k = k' := by
  revert h
  cases k <;> cases k' <;> decide

/-- What a name begins with tells the kind of method it is made for. -/
theorem eq_of_stems_begin {k k' : MethodKind} {name : String} (h : k.stem.toList <+: name.toList)
    (h' : k'.stem.toList <+: name.toList) : k = k' := by
  rcases List.prefix_or_prefix_of_prefix h h' with hp | hp
  · exact eq_of_stem_begins hp
  · exact (eq_of_stem_begins hp).symm

theorem eq_of_names {k k' : MethodKind} {name : String} (h : k.Names name) (h' : k'.Names name) :
    k = k' :=
  eq_of_stems_begin (stem_prefix_of_names h) (stem_prefix_of_names h')

/-- Kinds of methods that are not named for one element, also where a field holds many. -/
def namesWhole : MethodKind → Bool
  | getter | setter | internalSetter | clearer | counter | validator => true
  | adder | internalAdder | remover | internalRemover | predicate | orphanHook => false

/-- What the names of methods of a kind end with. -/
def ending : MethodKind → String
  | orphanHook => "Orphaned"
  | _ => ""

end Java.MethodKind

/-- The methods of collections that generated code calls. -/
def collectionMethods : List String :=
  ["add", "remove", "clear", "contains", "size"]

/-- No generated method has the name of a collection's method. -/
theorem not_names_of_collection {k : MethodKind} {name : String} (h : name ∈ collectionMethods) :
    ¬ k.Names name := by
  intro hnames
  have hall : ∀ k ∈ MethodKind.all, ∀ n ∈ collectionMethods,
      k.stem.toList <+: n.toList → k.stem = n := by decide
  have hk : k ∈ MethodKind.all := by cases k <;> decide
  have hstem := hall k hk name h (MethodKind.stem_prefix_of_names hnames)
  obtain ⟨word,hword,hname⟩ := hnames
  rw [← hstem] at hname
  have hlen := congrArg String.length hname
  rw [String.length_append] at hlen
  have hzero : word.length = 0 := by omega
  exact hword (String.length_eq_zero_iff.mp hzero)

/-- Only what begins a keyword can begin a name that was made safe and is not the name itself. -/
theorem safeIdentifier_eq_append_iff (name stem word : String)
    (h : ∀ k ∈ keywords, ¬ stem.toList <+: (k ++ "Value").toList) :
    safeIdentifier name = stem ++ word ↔ name = stem ++ word := by
  have hbegins : stem.toList <+: (stem ++ word).toList := by
    rw [String.toList_append]
    exact List.prefix_append _ _
  unfold safeIdentifier
  split
  · rename_i hkeyword
    have hname := h name (List.contains_iff_mem.mp hkeyword)
    refine iff_of_false (fun heq => hname (heq ▸ hbegins)) (fun heq => hname ?_)
    rw [String.toList_append]
    exact (heq ▸ hbegins).trans (List.prefix_append _ _)
  · rfl

/-- The name for one element differs from that for all unless the noun has but one form. -/
theorem safeIdentifier_singularize_iff (name : String) :
    safeIdentifier name = safeIdentifier (Noun.singularize name) ↔
      Noun.singularize name = name := by
  obtain ⟨hshort,hlong⟩ := Noun.length_singularize name
  have hvalue : "Value".length = 5 := rfl
  constructor
  · intro h
    unfold safeIdentifier at h
    -- A name and its singular differ by less than what keywords take behind them.
    split at h
    · split at h
      · exact ((String.append_left_inj _).mp h).symm
      · have hlen := congrArg String.length h
        rw [String.length_append] at hlen
        omega
    · split at h
      · have hlen := congrArg String.length h
        rw [String.length_append] at hlen
        omega
      · exact h.symm
  · intro h
    rw [h]

namespace Link

variable {l : Link}

/-- No keyword begins like the names of locals. -/
theorem not_prefix_of_keyword : ∀ stem ∈ ["previous","removed","displaced","valid"],
    ∀ k ∈ keywords, ¬ stem.toList <+: (k ++ "Value").toList := by
  decide +kernel

theorem valueParam_ne_elementParam_iff :
    l.valueParam ≠ l.elementParam ↔ Noun.singularize l.field ≠ l.field :=
  not_congr (safeIdentifier_singularize_iff l.field)

theorem elementParam_eq_previousLocal_iff {field : String} :
    l.elementParam = previousLocal field ↔ Noun.singularize l.field = previousLocal field :=
  safeIdentifier_eq_append_iff _ _ _ (not_prefix_of_keyword _ (by simp))

theorem valueParam_eq_displaced_iff {type : String} :
    l.valueParam = "displaced" ++ type ↔ l.field = "displaced" ++ type :=
  safeIdentifier_eq_append_iff _ _ _ (not_prefix_of_keyword _ (by simp))

theorem valueParam_ne_previousLocal : l.valueParam ≠ previousLocal l.field := by
  rw [valueParam,previousLocal,ne_eq,
    safeIdentifier_eq_append_iff _ _ _ (not_prefix_of_keyword _ (by simp))]
  exact Text.ne_append_capitalize (Nat.le_succ _) (by decide)

theorem elementParam_ne_removed : l.elementParam ≠ "removed" ++ Text.capitalize l.field := by
  rw [elementParam,ne_eq,safeIdentifier_eq_append_iff _ _ _ (not_prefix_of_keyword _ (by simp))]
  exact Text.ne_append_capitalize (Noun.length_singularize _).2 (by decide)

theorem previousLocal_ne_displaced (field type : String) :
    previousLocal field ≠ "displaced" ++ type := by
  intro h
  have hlist := congrArg String.toList h
  simp [previousLocal] at hlist

end Link

namespace MemberNames

/-- All names made for one field, each with the kind of method that it is for. -/
def table (n : MemberNames) : List (MethodKind × String) := [
  (.getter,n.getter), (.setter,n.setter), (.internalSetter,n.internalSetter), (.adder,n.adder),
  (.remover,n.remover), (.internalAdder,n.internalAdder), (.internalRemover,n.internalRemover),
  (.clearer,n.clearer), (.counter,n.counter), (.predicate,n.predicate),
  (.orphanHook,n.orphanHook)]

/-- What stands for the field in the name of a method of a kind. -/
def word (field : String) (collection : Bool) (k : MethodKind) : String :=
  if collection && !k.namesWhole then Text.capitalize (Noun.singularize field)
  else Text.capitalize field

theorem word_of_whole {field : String} {collection : Bool} {k : MethodKind}
    (h : k.namesWhole = true) : word field collection k = Text.capitalize field := by
  rw [word,h,Bool.not_true,Bool.and_false]
  exact if_neg Bool.false_ne_true

theorem word_of_single {field : String} {collection : Bool} {k : MethodKind}
    (h : collection = false) : word field collection k = Text.capitalize field := by
  rw [word,h,Bool.false_and]
  exact if_neg Bool.false_ne_true

theorem word_of_element {field : String} {collection : Bool} {k : MethodKind}
    (h : collection = true) (hk : k.namesWhole = false) :
    word field collection k = Text.capitalize (Noun.singularize field) := by
  rw [word,h,hk]
  exact if_pos rfl

theorem word_ne_empty {field : String} (h : field ≠ "") (collection : Bool) (k : MethodKind) :
    word field collection k ≠ "" := by
  unfold word
  split
  · exact Text.capitalize_ne_empty (Noun.singularize_ne_empty h)
  · exact Text.capitalize_ne_empty h

/-- Every name is that of its kind, with a word for the field in it. -/
theorem eq_of_mem_table {field : String} {collection : Bool} :
    ∀ p ∈ (ofField field collection).table,
      p.2 = p.1.stem ++ word field collection p.1 ++ p.1.ending := by
  cases collection with
  | false => simp [table,ofField,word,MethodKind.stem,MethodKind.ending,MethodKind.namesWhole]
  | true => simp [table,ofField,word,MethodKind.stem,MethodKind.ending,MethodKind.namesWhole]

theorem names_of_mem_table {field : String} (h : field ≠ "") (collection : Bool) :
    ∀ p ∈ (ofField field collection).table, p.1.Names p.2 := by
  intro p hp
  refine ⟨word field collection p.1 ++ p.1.ending,?_,?_⟩
  · exact fun hnone => word_ne_empty h collection p.1 (String.append_eq_empty_iff.mp hnone).1
  · rw [eq_of_mem_table p hp,String.append_assoc]

end MemberNames

end EntityLink
