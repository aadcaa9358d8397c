import EntityLink.Noun
import EntityLink.Text.Split
import Mathlib

namespace EntityLink.Noun
open Text

variable {c u : Char} {cs ds head word : List Char}

section LastWord

theorem lower_append (cs ds : List Char) : lower (cs ++ ds) = lower cs ++ lower ds :=
  List.map_append

theorem lower_of_no_capital (h : ∀ c ∈ cs, c.isUpper = false) : lower cs = cs := by
  have hsame : ∀ c ∈ cs, c.toLower = id c := fun c hc =>
    Char.toLower_eq_of_not_isUpper (Bool.not_eq_true _ ▸ h c hc)
  rw [lower,List.map_congr_left hsame,List.map_id]

/-- A name is without capitals, or has a last one. -/
theorem capital_cases (cs : List Char) : (∀ c ∈ cs, c.isUpper = false) ∨
    ∃ head u ds, cs = head ++ u :: ds ∧ u.isUpper = true ∧ ∀ c ∈ ds, c.isUpper = false := by
  induction cs using List.reverseRecOn with
  | nil => exact .inl (fun _ hc => absurd hc List.not_mem_nil)
  | append_singleton cs c ih =>
    cases hc : c.isUpper with
    | true => exact .inr ⟨cs,c,[],rfl,hc,fun _ hd => absurd hd List.not_mem_nil⟩
    | false =>
      have hlast : ∀ ds : List Char, (∀ d ∈ ds, d.isUpper = false) →
          ∀ d ∈ ds ++ [c], d.isUpper = false := by
        intro ds hds d hd
        rcases List.mem_append.mp hd with hd | hd
        · exact hds d hd
        · exact List.mem_singleton.mp hd ▸ hc
      rcases ih with hcs | ⟨head,u,ds,rfl,hu,hds⟩
      · exact .inl (hlast cs hcs)
      · exact .inr ⟨head,u,ds ++ [c],by rw [List.append_assoc,List.cons_append],hu,hlast ds hds⟩

theorem lastWord_of_no_capital (h : ∀ c ∈ cs, c.isUpper = false) : lastWord cs = ([],cs) := by
  have hnone : cs.reverse.dropWhile (fun c => !c.isUpper) = [] := by
    rw [List.dropWhile_eq_nil_iff]
    intro c hc
    rw [h c (List.mem_reverse.mp hc)]
    rfl
  rw [lastWord,hnone]

theorem lastWord_of_capital (head : List Char) (hu : u.isUpper = true)
    (hds : ∀ c ∈ ds, c.isUpper = false) : lastWord (head ++ u :: ds) = (head,u :: ds) := by
  have hreverse : (head ++ u :: ds).reverse = ds.reverse ++ u :: head.reverse := by simp
  have hpass : ∀ c ∈ ds.reverse, (!c.isUpper) = true := by
    intro c hc
    rw [hds c (List.mem_reverse.mp hc)]
    rfl
  have hdrop : (head ++ u :: ds).reverse.dropWhile (fun c => !c.isUpper) = u :: head.reverse := by
    rw [hreverse,List.dropWhile_append_of_pos hpass]
    exact List.dropWhile_cons_of_neg (by simp [hu])
  have htake : (head ++ u :: ds).reverse.takeWhile (fun c => !c.isUpper) = ds.reverse := by
    rw [hreverse,List.takeWhile_append_of_pos hpass]
    simp [hu]
  rw [lastWord,hdrop,htake,List.reverse_reverse]
  simp only [List.reverse_reverse]

/-- What is put on without a capital goes on with the last word. -/
theorem lastWord_append (cs : List Char) (hds : ∀ c ∈ ds, c.isUpper = false) :
    lastWord (cs ++ ds) = ((lastWord cs).1,(lastWord cs).2 ++ ds) := by
  have hall : ∀ {es : List Char}, (∀ c ∈ es, c.isUpper = false) →
      ∀ c ∈ es ++ ds, c.isUpper = false := fun hes =>
    List.forall_mem_append.mpr ⟨hes,hds⟩
  rcases capital_cases cs with hcs | ⟨head,u,es,rfl,hu,hes⟩
  · rw [lastWord_of_no_capital hcs,lastWord_of_no_capital (hall hcs)]
  · rw [List.append_assoc,List.cons_append,lastWord_of_capital head hu (hall hes),
      lastWord_of_capital head hu hes]
    rfl

end LastWord

section Suffixes

theorem cut_append (cs ds : List Char) : cut ds.length (cs ++ ds) = cs := by
  rw [cut,List.length_append,Nat.add_sub_cancel,List.take_left]

theorem stripEnd?_eq_none (h : ¬ ds <:+ cs) : stripEnd? ds cs = none :=
  if_neg (mt List.isSuffixOf_iff_suffix.mp h)

theorem endsWith_iff {e : String} : endsWith e cs = true ↔ e.toList <:+ cs :=
  List.isSuffixOf_iff_suffix

/-- A plural in `-es` loses both letters again. -/
theorem singularBySuffix_es (h : ["ss","x","z","ch","sh"].any (endsWith · (lower cs)) = true) :
    singularBySuffix (cs ++ "es".toList) = cs := by
  obtain ⟨e,he,hends⟩ := List.any_eq_true.mp h
  rw [endsWith_iff] at hends
  have hlow : lower (cs ++ "es".toList) = lower cs ++ "es".toList := lower_append cs _
  have huses : stripEnd? "uses".toList (lower cs ++ "es".toList) = none := by
    have hus : ¬ "us".toList <:+ lower cs := by
      have hapart : ∀ e ∈ ["ss","x","z","ch","sh"],
          ¬ e.toList <:+ "us".toList ∧ ¬ "us".toList <:+ e.toList := by decide
      intro hus
      exact (List.suffix_or_suffix_of_suffix hends hus).elim (hapart e he).1 (hapart e he).2
    exact stripEnd?_eq_none (fun huses => hus (List.suffix_append_self_iff.mp huses))
  have hany : ["sses","shes","ches","xes","zes"].any (endsWith · (lower cs ++ "es".toList)) := by
    have hlonger : ∀ e ∈ ["ss","x","z","ch","sh"],
        ∃ f ∈ ["sses","shes","ches","xes","zes"], f.toList = e.toList ++ "es".toList := by decide
    obtain ⟨f,hf,hfe⟩ := hlonger e he
    refine List.any_eq_true.mpr ⟨f,hf,endsWith_iff.mpr ?_⟩
    rw [hfe]
    exact List.suffix_append_self_iff.mpr hends
  simp only [singularBySuffix,hlow,huses]
  rw [if_pos hany]
  exact cut_append cs "es".toList

/-- A plural in `-s` loses that letter alone, if no longer ending comes about by it. -/
theorem singularBySuffix_s (hc : c.isLower = true) (hother : c ∉ ['e','i','s','u']) :
    singularBySuffix (ds ++ [c] ++ ['s']) = ds ++ [c] := by
  have hlow : lower (ds ++ [c] ++ ['s']) = lower ds ++ [c] ++ ['s'] := by
    have hcapital : c.isUpper = false := Bool.eq_false_iff.mpr (Char.not_isUpper_of_isLower hc)
    have hend : lower ([c] ++ ['s']) = [c] ++ ['s'] :=
      lower_of_no_capital (by simp [hcapital])
    rw [List.append_assoc,lower_append,hend,List.append_assoc]
  have hnone : ∀ e ∈ ["uses","sses","shes","ches","xes","zes","ss","us","is"],
      ¬ e.toList <:+ lower ds ++ [c] ++ ['s'] := by
    have hbefore : ∀ e ∈ ["uses","sses","shes","ches","xes","zes","ss","us","is"],
        ['e','i','s','u'].any (fun x => ([x] ++ ['s']).isSuffixOf e.toList) = true := by decide
    intro e he hends
    obtain ⟨x,hx,hxe⟩ := List.any_eq_true.mp (hbefore e he)
    have hxc := List.suffix_append_self_iff.mp ((List.isSuffixOf_iff_suffix.mp hxe).trans hends)
    rw [List.singleton_suffix_append_singleton_iff] at hxc
    exact hother (hxc ▸ hx)
  have hstrip : stripEnd? "uses".toList (lower ds ++ [c] ++ ['s']) = none :=
    stripEnd?_eq_none (hnone "uses" (by decide))
  have hany : ∀ es : List String,
      (∀ e ∈ es, e ∈ ["uses","sses","shes","ches","xes","zes","ss","us","is"]) →
      ¬ es.any (endsWith · (lower ds ++ [c] ++ ['s'])) = true := by
    intro es hes hany
    obtain ⟨e,he,hends⟩ := List.any_eq_true.mp hany
    exact hnone e (hes e he) (endsWith_iff.mp hends)
  have hs : (endsWith "s" (ds ++ [c] ++ ['s']) &&
      decide (1 < (ds ++ [c] ++ ['s']).length)) = true := by
    rw [Bool.and_eq_true,endsWith_iff]
    exact ⟨List.suffix_append _ _,by simp⟩
  simp only [singularBySuffix,hlow,hstrip]
  rw [if_neg (hany _ (by decide)),if_neg (hany _ (by decide)),if_pos hs]
  exact cut_append (ds ++ [c]) ['s']

end Suffixes

section Tables

/-- The last camel-case word of a name, as the tables of words have it. -/
def keyOf (cs : List Char) : String :=
  String.ofList (lower (lastWord cs).2)

theorem keyOf_append (cs : List Char) (hds : ∀ c ∈ ds, c.isUpper = false) :
    keyOf (cs ++ ds) = String.ofList (lower (lastWord cs).2 ++ ds) := by
  rw [keyOf,lastWord_append cs hds,lower_append,lower_of_no_capital hds]

variable {entry : String × String}

theorem singularChars_of_uncountable (h : keyOf cs ∈ uncountable) : singularChars cs = cs :=
  if_pos (List.contains_iff_mem.mpr h)

theorem pluralChars_of_uncountable (h : keyOf cs ∈ uncountable) : pluralChars cs = cs :=
  if_pos (List.contains_iff_mem.mpr h)

theorem singularChars_of_countable (h : keyOf cs ∉ uncountable) :
    singularChars cs = match irregular.find? (·.1 == keyOf cs) with
      | some entry => (lastWord cs).1 ++ matchCase (lastWord cs).2 entry.2
      | none => match stripEnd? "ies".toList cs with
        | some (c :: stem) =>
          if ieSingulars.contains (keyOf cs) then cut 1 cs else c :: stem ++ ['y']
        | _ => singularBySuffix cs :=
  if_neg (mt List.contains_iff_mem.mp h)

theorem pluralChars_of_countable (h : keyOf cs ∉ uncountable) :
    pluralChars cs = match irregular.find? (·.2 == keyOf cs) with
      | some entry => (lastWord cs).1 ++ matchCase (lastWord cs).2 entry.1
      | none => pluralBySuffix cs :=
  if_neg (mt List.contains_iff_mem.mp h)

/-- What ends in `-s` is no irregular plural. -/
theorem find?_irregular_of_s (cs : List Char) :
    irregular.find? (·.1 == keyOf (cs ++ ['s'])) = none := by
  have hsmall : ∀ c ∈ ['s'], c.isUpper = false := by simp
  have hlast : ∀ entry ∈ irregular, entry.1.toList.getLast? ≠ some 's' := by
    decide +kernel
  rw [keyOf_append cs hsmall,List.find?_eq_none]
  intro entry hentry heq
  apply hlast entry hentry
  rw [beq_iff_eq.mp heq,String.toList_ofList,List.getLast?_concat]

theorem singularChars_ies {stem : List Char} (hne : stem ≠ [])
    (huncountable : keyOf (stem ++ "ies".toList) ∉ uncountable)
    (hie : keyOf (stem ++ "ies".toList) ∉ ieSingulars) :
    singularChars (stem ++ "ies".toList) = stem ++ ['y'] := by
  obtain ⟨c,rest,rfl⟩ := List.exists_cons_of_ne_nil hne
  have hfind : irregular.find? (·.1 == keyOf (c :: rest ++ "ies".toList)) = none := by
    have hs := find?_irregular_of_s (c :: rest ++ ['i','e'])
    rwa [List.append_assoc] at hs
  have hie : ¬ ieSingulars.contains (keyOf (c :: rest ++ "ies".toList)) = true :=
    mt List.contains_iff_mem.mp hie
  rw [singularChars_of_countable huncountable,hfind,stripEnd?_append]
  exact if_neg hie

/-- Apart from `-ies` a regular plural goes by its ending alone. -/
theorem singularChars_s (huncountable : keyOf (cs ++ ['s']) ∉ uncountable)
    (hends : ¬ "ie".toList <:+ cs) :
    singularChars (cs ++ ['s']) = singularBySuffix (cs ++ ['s']) := by
  have hstrip : stripEnd? "ies".toList (cs ++ ['s']) = none :=
    stripEnd?_eq_none (fun hies => hends (List.suffix_append_self_iff.mp hies))
  rw [singularChars_of_countable huncountable,find?_irregular_of_s,hstrip]

end Tables

section Irregular

variable {entry : String × String} {w : String}

/-- The nouns of the table are made of small letters. -/
theorem exists_small_of_irregular (h : entry ∈ irregular) (hw : w = entry.1 ∨ w = entry.2) :
    ∃ c cs, w.toList = c :: cs ∧ c.isLower = true ∧ ∀ d ∈ c :: cs, d.isUpper = false := by
  have hall : ∀ entry ∈ irregular, ∀ w ∈ [entry.1,entry.2],
      w.toList ≠ [] ∧ w.toList.all Char.isLower = true := by decide +kernel
  obtain ⟨hne,hlower⟩ := hall entry h w (by simpa using hw)
  obtain ⟨c,cs,hcs⟩ := List.exists_cons_of_ne_nil hne
  rw [hcs,List.all_eq_true] at hlower
  exact ⟨c,cs,hcs,hlower c List.mem_cons_self,
    fun d hd => Bool.eq_false_iff.mpr (Char.not_isUpper_of_isLower (hlower d hd))⟩

theorem isUpper_toUpper (hc : c.isLower = true) : c.toUpper.isUpper = true := by
  rw [Char.isUpper_toUpper_eq_isAlpha,Char.isAlpha,hc,Bool.or_true]

theorem toList_capitalize (hw : w.toList = c :: cs) (hc : c.isLower = true) :
    (capitalize w).toList = c.toUpper :: cs := by
  have hascii : c.toNat < 128 := by
    simp only [Char.isLower,Bool.and_eq_true,decide_eq_true_eq,UInt32.le_iff_toNat_le] at hc
    exact Nat.lt_of_le_of_lt hc.2 (by decide)
  rw [capitalize,hw,String.toList_ofList,upperOf,if_pos hascii,List.singleton_append]

/-- A plural of the table is turned back, whatever stands before it. -/
theorem singularChars_append (h : entry ∈ irregular)
    (hword : lastWord (head ++ word) = (head,word)) (hlow : lower word = entry.1.toList) :
    singularChars (head ++ word) = head ++ matchCase word entry.2 := by
  have htables : ∀ entry ∈ irregular,
      irregular.find? (·.1 == entry.1) = some entry ∧ entry.1 ∉ uncountable := by decide
  have hkey : keyOf (head ++ word) = entry.1 := by
    rw [keyOf,hword,hlow,String.ofList_toList]
  obtain ⟨hfind,hcountable⟩ := htables entry h
  rw [singularChars_of_countable (hkey ▸ hcountable),hkey,hfind,hword]

/-- Where the singular had a capital the plural has one, and the other way round. -/
theorem singularChars_irregular (hcountable : keyOf cs ∉ uncountable)
    (hfind : irregular.find? (·.2 == keyOf cs) = some entry) :
    singularChars (pluralChars cs) = cs := by
  have hentry := List.mem_of_find?_eq_some hfind
  have hkey : entry.2.toList = lower (lastWord cs).2 := by
    have hsame : entry.2 = keyOf cs := by simpa using List.find?_some hfind
    rw [hsame,keyOf,String.toList_ofList]
  obtain ⟨p,ps,hplural,hp,hps⟩ := exists_small_of_irregular hentry (.inl rfl)
  obtain ⟨q,qs,hsingular,hq,hqs⟩ := exists_small_of_irregular hentry (.inr rfl)
  rw [pluralChars_of_countable hcountable,hfind]
  show singularChars ((lastWord cs).1 ++ matchCase (lastWord cs).2 entry.1) = cs
  rcases capital_cases cs with hcs | ⟨head,u,ds,rfl,hu,hds⟩
  · rw [lastWord_of_no_capital hcs,lower_of_no_capital hcs,hsingular] at hkey
    have hcased : matchCase (q :: qs) entry.1 = p :: ps :=
      (if_neg (by simp [hqs q List.mem_cons_self])).trans hplural
    have hback : matchCase (p :: ps) entry.2 = q :: qs :=
      (if_neg (by simp [hps p List.mem_cons_self])).trans hsingular
    rw [lastWord_of_no_capital hcs,← hkey,hcased,singularChars_append hentry
      (lastWord_of_no_capital hps) ((lower_of_no_capital hps).trans hplural.symm),hback]
    rfl
  · have hsmall : ∀ d ∈ ps, d.isUpper = false := fun d hd => hps d (List.mem_cons_of_mem p hd)
    rw [lastWord_of_capital head hu hds,hsingular,lower,List.map_cons] at hkey
    obtain ⟨rfl,hqds⟩ := List.cons.inj hkey
    obtain rfl : qs = ds := hqds.trans (lower_of_no_capital hds)
    have hcased : matchCase (u :: qs) entry.1 = p.toUpper :: ps :=
      (if_pos hu).trans (toList_capitalize hplural hp)
    have hlow : lower (p.toUpper :: ps) = entry.1.toList := by
      have hlow := lower_of_no_capital hps
      rw [lower,List.map_cons] at hlow ⊢
      rw [Char.toLower_toUpper_eq_toLower,hlow,hplural]
    have hback : matchCase (p.toUpper :: ps) entry.2 = u :: qs := by
      refine (if_pos (isUpper_toUpper hp)).trans ((toList_capitalize hsingular hq).trans ?_)
      rw [Char.toUpper_toLower_eq_toUpper,
        Char.toUpper_eq_of_not_isLower (Char.not_isLower_of_isUpper hu)]
    rw [lastWord_of_capital head hu hds,hcased,singularChars_append hentry
      (lastWord_of_capital head (isUpper_toUpper hp) hsmall) hlow,hback]

end Irregular

section RoundTrip

/-- A name ends in a small letter other than `e`, `i`, `s` and `u`, or in a double `s`. -/
def EndsPlainly (cs : List Char) : Prop :=
  (∃ c, cs.getLast? = some c ∧ c.isLower = true ∧ c ∉ ['e','i','s','u']) ∨ "ss".toList <:+ cs

theorem eq_of_suffix {x : Char} (ds : List Char) (h : ds ++ [x] <:+ cs ++ [c]) : x = c :=
  List.singleton_suffix_append_singleton_iff.mp ((List.suffix_append ds [x]).trans h)

theorem lower_concat (hc : c.isLower = true) (ds : List Char) :
    lower (ds ++ [c]) = lower ds ++ [c] := by
  have hsmall : c.toLower = c := Char.toLower_eq_of_not_isUpper (Char.not_isUpper_of_isLower hc)
  rw [lower_append,lower,lower,List.map_singleton,hsmall]

theorem EndsPlainly.exists_last (h : EndsPlainly cs) : ∃ ds c, cs = ds ++ [c] ∧
    c.isLower = true ∧ c ∉ ['e','i','u'] ∧ (c = 's' → "ss".toList <:+ cs) := by
  rcases h with ⟨c,hlast,hc,hother⟩ | ⟨ds,rfl⟩
  · obtain ⟨ds,rfl⟩ := List.getLast?_eq_some_iff.mp hlast
    refine ⟨ds,c,rfl,hc,fun hmem => hother (by revert hmem; simp; tauto),fun hs => ?_⟩
    exact absurd (hs ▸ hother) (by simp)
  · refine ⟨ds ++ ['s'],'s',by simp,rfl,by simp,fun _ => List.suffix_append ds _⟩

/-- The endings that a regular plural can have. -/
theorem pluralBySuffix_cases (cs : List Char) :
    (∃ stem, cs = stem ++ ['y'] ∧ pluralBySuffix cs = stem ++ "ies".toList) ∨
    (["s","x","z","ch","sh"].any (endsWith · (lower cs)) = true ∧
      pluralBySuffix cs = cs ++ "es".toList) ∨
    ¬ "s".toList <:+ lower cs ∧ pluralBySuffix cs = cs ++ ['s'] := by
  rw [pluralBySuffix]
  split
  · rename_i stem hstem
    obtain rfl := stripEnd?_eq_some_iff.mp hstem
    split
    · refine .inr (.inr ⟨fun hs => ?_,rfl⟩)
      rw [lower_concat rfl stem] at hs
      exact absurd (eq_of_suffix [] hs) (by decide)
    · exact .inl ⟨stem,rfl,rfl⟩
  · split
    · rename_i hany
      exact .inr (.inl ⟨hany,rfl⟩)
    · rename_i hany
      refine .inr (.inr ⟨fun hs => hany ?_,rfl⟩)
      exact List.any_eq_true.mpr ⟨"s",List.mem_cons_self,endsWith_iff.mpr hs⟩

/-- A regular plural is turned back: what stands before the ending that was put on keeps away the
rules that come earlier. -/
theorem singularChars_pluralBySuffix (hy : cs ≠ ['y']) (hend : EndsPlainly cs)
    (hcountable : keyOf (pluralBySuffix cs) ∉ uncountable)
    (hie : keyOf (pluralBySuffix cs) ∉ ieSingulars) :
    singularChars (pluralBySuffix cs) = cs := by
  obtain ⟨ds,c,hcs,hc,hother,hdouble⟩ := hend.exists_last
  simp only [List.mem_cons,List.not_mem_nil,or_false,not_or] at hother
  obtain ⟨he,hi,hu⟩ := hother
  have hlow : lower cs = lower ds ++ [c] := hcs ▸ lower_concat hc ds
  rcases pluralBySuffix_cases cs with ⟨stem,rfl,hplural⟩ | ⟨hany,hplural⟩ | ⟨hs,hplural⟩
  · rw [hplural] at hcountable hie ⊢
    have hne : stem ≠ [] := by
      rintro rfl
      exact hy rfl
    exact singularChars_ies hne hcountable hie
  · -- a single `s` is excluded, a double one is among the endings of the inverse rule
    have hinverse : ["ss","x","z","ch","sh"].any (endsWith · (lower cs)) = true := by
      by_cases hc' : c = 's'
      · obtain ⟨front,hfront⟩ := hdouble hc'
        have hdoubled : endsWith "ss" (lower cs) = true := by
          rw [endsWith_iff,← hfront,lower_append]
          exact List.suffix_append (lower front) _
        rw [List.any_cons,hdoubled,Bool.true_or]
      · have hsingle : endsWith "s" (lower cs) = false := by
          rw [Bool.eq_false_iff,Ne,endsWith_iff,hlow]
          exact fun hs => hc' (eq_of_suffix [] hs).symm
        rw [List.any_cons,hsingle,Bool.false_or] at hany
        rw [List.any_cons,hany,Bool.or_true]
    have hsplit : cs ++ "es".toList = cs ++ ['e'] ++ ['s'] := by simp
    have hends : ¬ "ie".toList <:+ cs ++ ['e'] := by
      intro h
      have hshort : ['i'] <:+ cs := by
        have h : ['i'] ++ ['e'] <:+ cs ++ ['e'] := h
        exact List.suffix_append_self_iff.mp h
      rw [hcs] at hshort
      exact hi (eq_of_suffix [] hshort).symm
    rw [hplural] at hcountable ⊢
    rw [hsplit] at hcountable ⊢
    rw [singularChars_s hcountable hends,← hsplit,singularBySuffix_es hinverse]
  · have hc' : c ≠ 's' := fun hsame => hs (hlow ▸ hsame ▸ List.suffix_append _ _)
    have hends : ¬ "ie".toList <:+ cs := by
      rw [hcs]
      exact fun h => he (eq_of_suffix ['i'] h).symm
    rw [hplural] at hcountable ⊢
    rw [singularChars_s hcountable hends,hcs,singularBySuffix_s hc (by simp [he,hi,hc',hu])]

theorem singularChars_pluralChars (hy : cs ≠ ['y']) (hend : EndsPlainly cs)
    (hie : keyOf (pluralChars cs) ∉ ieSingulars)
    (huncountable : keyOf (pluralChars cs) ∈ uncountable → keyOf cs ∈ uncountable) :
    singularChars (pluralChars cs) = cs := by
  by_cases hcountable : keyOf cs ∈ uncountable
  · rw [pluralChars_of_uncountable hcountable,singularChars_of_uncountable hcountable]
  · cases hfind : irregular.find? (·.2 == keyOf cs) with
    | some entry => exact singularChars_irregular hcountable hfind
    | none =>
      have hplural : pluralChars cs = pluralBySuffix cs := by
        rw [pluralChars_of_countable hcountable,hfind]
      rw [hplural] at hie huncountable ⊢
      exact singularChars_pluralBySuffix hy hend (fun h => hcountable (huncountable h)) hie

/-- The last camel-case word of a name, in small letters. -/
def key (name : String) : String :=
  keyOf name.toList

/-- A plural leads back to the name that it was made from, letter by letter, where the name ends
plainly and the plural's last word stands for no other singular. -/
theorem singularize_pluralize {name : String} (hy : name ≠ "y") (hend : EndsPlainly name.toList)
    (hie : key (pluralize name) ∉ ieSingulars)
    (huncountable : key (pluralize name) ∈ uncountable → key name ∈ uncountable) :
    singularize (pluralize name) = name := by
  have hchars : name.toList ≠ ['y'] := fun h => hy (String.toList_inj.mp h)
  rw [key,pluralize,String.toList_ofList] at hie huncountable
  rw [singularize,pluralize,String.toList_ofList,
    singularChars_pluralChars hchars hend hie huncountable,String.ofList_toList]

/-- Capitals stay where they are, whether the last word has an ending or a plural of its own. -/
theorem singularize_pluralize_names :
    EndsPlainly "homeADDREss".toList ∧ EndsPlainly "salesPerson".toList ∧
    (∀ name ∈ ["homeADDREss","salesPerson"],name ≠ "y" ∧ key (pluralize name) ∉ ieSingulars ∧
      (key (pluralize name) ∈ uncountable → key name ∈ uncountable)) ∧
    pluralize "homeADDREss" = "homeADDREsses" ∧ singularize "homeADDREsses" = "homeADDREss" ∧
    pluralize "salesPerson" = "salesPeople" ∧ singularize "salesPeople" = "salesPerson" := by
  have hdouble : EndsPlainly "homeADDREss".toList :=
    .inr (List.isSuffixOf_iff_suffix.mp (by decide +kernel))
  have hsmall : EndsPlainly "salesPerson".toList :=
    .inl ⟨'n',by decide +kernel,by decide +kernel,by decide +kernel⟩
  have hwords : ∀ name ∈ ["homeADDREss","salesPerson"],name ≠ "y" ∧
      key (pluralize name) ∉ ieSingulars ∧
      (key (pluralize name) ∈ uncountable → key name ∈ uncountable) := by decide +kernel
  have hback : ∀ name ∈ ["homeADDREss","salesPerson"],EndsPlainly name.toList →
      singularize (pluralize name) = name := by
    intro name hname hend
    obtain ⟨hy,hie,huncountable⟩ := hwords name hname
    exact singularize_pluralize hy hend hie huncountable
  have haddresses : pluralize "homeADDREss" = "homeADDREsses" := by decide +kernel
  have hpeople : pluralize "salesPerson" = "salesPeople" := by decide +kernel
  refine ⟨hdouble,hsmall,hwords,haddresses,?_,hpeople,?_⟩
  · rw [← haddresses]
    exact hback _ (by simp) hdouble
  · rw [← hpeople]
    exact hback _ (by simp) hsmall

end RoundTrip

end EntityLink.Noun
