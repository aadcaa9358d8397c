import EntityLink.Proofs.ArgumentText
import EntityLink.Proofs.TypeText

namespace EntityLink
open Text

namespace TypeExpr

/-- Every name in a type may stand in a type text. -/
inductive Named : TypeExpr → Prop
  | mk {name : String} {arguments : List TypeExpr} (hname : IsRawName name)
      (harguments : ∀ a ∈ arguments, Named a) : Named (mk name arguments)

/-- Two texts that are the same but for spaces and tabs put in or left out. -/
inductive Respaced : List Char → List Char → Prop
  | nil : Respaced [] []
  | same (c : Char) {cs ds : List Char} (h : Respaced cs ds) : Respaced (c :: cs) (c :: ds)
  | putIn {b : Char} {cs ds : List Char} (hb : b = ' ' ∨ b = '\t') (h : Respaced cs ds) :
      Respaced cs (b :: ds)
  | leftOut {b : Char} {cs ds : List Char} (hb : b = ' ' ∨ b = '\t') (h : Respaced cs ds) :
      Respaced (b :: cs) ds

section Scan

variable {d : Nat} {cs ds : List Char} {ps : List (List Char)}

/-- A scan at this depth goes over the text without a cut, and is then back at the depth. -/
def Passes (d : Nat) (cs : List Char) : Prop :=
  ∀ rest, splitScan nest isComma d (cs ++ rest) =
    cs.foldr consHead (splitScan nest isComma d rest)

theorem Passes.append (hcs : Passes d cs) (hds : Passes d ds) : Passes d (cs ++ ds) := by
  intro rest
  rw [List.append_assoc,hcs,hds,List.foldr_append]

theorem passes_cons {c : Char} (hcut : isComma d c = false) (hdepth : nest d c = d)
    (hcs : Passes d cs) : Passes d (c :: cs) := by
  intro rest
  rw [List.cons_append,splitScan,hcut,if_neg Bool.false_ne_true,hdepth,hcs rest]
  rfl

theorem passes_nil : Passes d [] :=
  fun _ => rfl

theorem passes_of_plain (h : ∀ c ∈ cs, c ∉ signs) : Passes d cs := by
  induction cs with
  | nil => exact passes_nil
  | cons c cs ih =>
    obtain ⟨hc,hcs⟩ := List.forall_mem_cons.mp h
    simp only [signs,List.mem_cons,List.not_mem_nil,or_false,not_or] at hc
    exact passes_cons (by simp [isComma,hc]) (by simp [nest,hc]) (ih hcs)

/-- Commas within brackets do not cut. -/
theorem passes_comma : Passes (d + 1) [','] :=
  passes_cons (by simp [isComma]) (by simp [nest]) passes_nil

theorem Passes.brackets (h : Passes (d + 1) cs) : Passes d ('<' :: (cs ++ ['>'])) := by
  intro rest
  have hopen : nest d '<' = d + 1 := by simp [nest]
  have hclose : nest (d + 1) '>' = d := by simp [nest]
  have hcut : isComma d '<' = false ∧ isComma (d + 1) '>' = false := by simp [isComma]
  rw [List.cons_append,List.append_assoc,splitScan,hcut.1,if_neg Bool.false_ne_true,hopen,h,
    List.singleton_append,splitScan,hcut.2,if_neg Bool.false_ne_true,hclose,List.foldr_cons,
    List.foldr_append]
  rfl

theorem passes_intercalate (h : ∀ p ∈ ps, Passes (d + 1) p) :
    Passes (d + 1) ([','].intercalate ps) := by
  induction ps with
  | nil => exact passes_nil
  | cons p ps ih =>
    obtain ⟨hp,hps⟩ := List.forall_mem_cons.mp h
    cases ps with
    | nil => simpa using hp
    | cons q qs =>
      rw [List.intercalate_cons_cons]
      exact (hp.append passes_comma).append (ih hps)

/-- Outer commas cut, and nothing else does. -/
theorem splitScan_intercalate (hne : ps ≠ []) (h : ∀ p ∈ ps, Passes 0 p) :
    splitScan nest isComma 0 ([','].intercalate ps) = ps := by
  induction ps with
  | nil => exact absurd rfl hne
  | cons p ps ih =>
    obtain ⟨hp,hps⟩ := List.forall_mem_cons.mp h
    cases ps with
    | nil =>
      have hsplit := hp []
      rw [List.append_nil,splitScan,Attributes.foldr_consHead,List.append_nil] at hsplit
      simpa using hsplit
    | cons q qs =>
      have hcut : isComma 0 ',' = true ∧ nest 0 ',' = 0 := by decide
      rw [List.intercalate_cons_cons,List.append_assoc,hp,List.singleton_append,splitScan,hcut.1,
        if_pos rfl,hcut.2,ih (List.cons_ne_nil q qs) hps,Attributes.foldr_consHead,List.append_nil]

theorem argumentTexts_intercalate (hne : ps ≠ []) (h : ∀ p ∈ ps, p ≠ [] ∧ Passes 0 p) :
    argumentTexts ([','].intercalate ps) = ps := by
  rw [argumentTexts,splitScan_intercalate hne (fun p hp => (h p hp).2),if_neg]
  intro hlast
  exact (h [] (List.mem_of_getLast? hlast)).1 rfl

end Scan

section Written

variable {t : TypeExpr} {cs ds : List Char}

theorem compact_join (ss : List String) :
    compact (join ", " ss).toList = [','].intercalate (ss.map (fun s => compact s.toList)) := by
  induction ss using join.induct with
  | case1 => rfl
  | case2 s => simp [join]
  | case3 s t ss ih =>
    rw [join,String.toList_append,String.toList_append,compact_append,compact_append,ih]
    simp only [List.map_cons,List.intercalate_cons_cons]
    rfl

theorem renderAll_eq (ts : List TypeExpr) : renderAll ts = ts.map render := by
  induction ts with
  | nil => rfl
  | cons t ts ih => rw [renderAll,ih,List.map_cons]

/-- How a type with arguments is written, its blanks left out. -/
theorem compact_render {name : String} (hname : IsRawName name) {arguments : List TypeExpr}
    (hne : arguments ≠ []) : compact (mk name arguments).render.toList =
      name.toList ++ '<' ::
        ([','].intercalate (arguments.map (fun a => compact a.render.toList)) ++ ['>']) := by
  obtain ⟨a,as,rfl⟩ := List.exists_cons_of_ne_nil hne
  rw [render,renderAll_eq]
  simp only [String.toList_append,compact_append,compact_join,compact_of_plain hname.2,
    List.map_map]
  simp [compact,Function.comp_def]

/-- A type in a list of arguments is not cut. -/
theorem Named.passes (h : t.Named) :
    compact t.render.toList ≠ [] ∧ ∀ d, Passes d (compact t.render.toList) := by
  induction h with
  | @mk name arguments hname _ ih =>
    have hne : name.toList ≠ [] := mt String.toList_eq_nil_iff.mp hname.1
    cases arguments with
    | nil =>
      rw [render,compact_of_plain hname.2]
      exact ⟨hne,fun d => passes_of_plain hname.2⟩
    | cons a as =>
      rw [compact_render hname (List.cons_ne_nil a as)]
      refine ⟨List.append_ne_nil_of_left_ne_nil hne _,fun d => ?_⟩
      refine (passes_of_plain hname.2).append (Passes.brackets (passes_intercalate ?_))
      intro p hp
      obtain ⟨b,hb,rfl⟩ := List.mem_map.mp hp
      exact (ih b hb).2 (d + 1)

theorem Named.ofChars_compact (h : t.Named) : ofChars (compact t.render.toList) = t := by
  induction h with
  | @mk name arguments hname harguments ih =>
    cases arguments with
    | nil => rw [render,compact_of_plain hname.2,ofChars_of_plain hname.2,String.ofList_toList]
    | cons a as =>
      have htexts : ∀ p ∈ (a :: as).map (fun a => compact a.render.toList),
          p ≠ [] ∧ Passes 0 p := by
        intro p hp
        obtain ⟨b,hb,rfl⟩ := List.mem_map.mp hp
        exact ⟨(harguments b hb).passes.1,(harguments b hb).passes.2 0⟩
      have hread : ((a :: as).map (fun a => compact a.render.toList)).map ofChars = a :: as := by
        rw [List.map_map]
        exact (List.map_congr_left ih).trans (List.map_id _)
      rw [compact_render hname (List.cons_ne_nil a as),ofChars_arguments hname.2,
        argumentTexts_intercalate (by simp) htexts,hread,String.ofList_toList]

theorem Respaced.compact_eq (h : Respaced cs ds) : compact cs = compact ds := by
  have hblank : ∀ {b : Char}, b = ' ' ∨ b = '\t' → ∀ cs, compact (b :: cs) = compact cs := by
    rintro b (rfl | rfl) cs
    · rfl
    · rfl
  induction h with
  | nil => rfl
  | same c _ ih =>
    simp only [compact,List.filter_cons] at ih ⊢
    rw [ih]
  | putIn hb _ ih => rw [hblank hb,ih]
  | leftOut hb _ ih => rw [hblank hb,ih]

/-- A type is read back from its written form, however deep and wide it is. And whatever spaces and
tabs stand in a text, and wherever they stand, it is read as the same type. -/
theorem parse_render_respaced :
    (∀ t : TypeExpr, t.Named → parse t.render = t) ∧
    ∀ s t : String, Respaced s.toList t.toList → parse s = parse t :=
  ⟨fun _ h => h.ofChars_compact,fun _ _ h => congrArg ofChars h.compact_eq⟩

/-- A map of lists, and how it is read without and with more blanks. -/
theorem parse_render_respaced_map :
    let addresses := mk "Map" [mk "String" [],mk "List" [mk "Address" []]]
    addresses.Named ∧ addresses.render = "Map<String, List<Address>>" ∧
    parse "Map<String, List<Address>>" = addresses ∧
    Respaced "Set <A>\t".toList "Set< A>".toList ∧ parse "Set <A>\t" = parse "Set< A>" := by
  intro addresses
  have hnamed : addresses.Named := by
    have hlist : (mk "List" [mk "Address" []]).Named :=
      .mk (by decide) (List.forall_mem_singleton.mpr (.mk (by decide) (List.forall_mem_nil _)))
    have hstring : (mk "String" []).Named := .mk (by decide) (List.forall_mem_nil _)
    exact .mk (by decide) (List.forall_mem_cons.mpr
      ⟨hstring,List.forall_mem_singleton.mpr hlist⟩)
  have hrespaced : Respaced "Set <A>\t".toList "Set< A>".toList :=
    .same 'S' (.same 'e' (.same 't' (.leftOut (.inl rfl) (.same '<' (.putIn (.inl rfl)
      (.same 'A' (.same '>' (.leftOut (.inr rfl) .nil))))))))
  exact ⟨hnamed,by decide,parse_render_respaced.1 _ hnamed,hrespaced,
    parse_render_respaced.2 _ _ hrespaced⟩

end Written

end TypeExpr

end EntityLink
