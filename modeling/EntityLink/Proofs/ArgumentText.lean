import EntityLink.Attributes
import EntityLink.Java.Tree
import EntityLink.Text.Lines

namespace EntityLink
open Text Java

/-- A character as a string literal writes it. -/
def Java.literal (c : Char) : List Char :=
  if c = '\\' then ['\\','\\'] else if c = '"' then ['\\','"'] else [c]

theorem Java.toList_quote (s : String) :
    (quote s).toList = '"' :: (s.toList.flatMap literal ++ ['"']) := by
  simp only [quote,String.toList_append,String.toList_ofList]
  rfl

theorem Java.literal_cases (c : Char) :
    ((c = '\\' ∨ c = '"') ∧ literal c = ['\\',c]) ∨ ((c ≠ '\\' ∧ c ≠ '"') ∧ literal c = [c]) := by
  unfold literal
  split
  · rename_i hslash
    exact .inl ⟨.inl hslash,by rw [hslash]⟩
  · split
    · rename_i hquote
      exact .inl ⟨.inr hquote,by rw [hquote]⟩
    · rename_i hslash hquote
      exact .inr ⟨⟨hslash,hquote⟩,rfl⟩

theorem Java.length_le_literals (cs : List Char) : cs.length ≤ (cs.flatMap literal).length := by
  induction cs with
  | nil => exact Nat.le_refl 0
  | cons c cs ih =>
    rw [List.flatMap_cons,List.length_append,List.length_cons]
    obtain ⟨-,hc⟩ | ⟨-,hc⟩ := literal_cases c
    · simp only [hc,List.length_cons,List.length_nil]
      omega
    · simp only [hc,List.length_singleton]
      omega

/-- Only without quotes and backslashes there is nothing to escape. -/
theorem Java.literals_eq_iff {cs : List Char} :
    cs.flatMap literal = cs ↔ '"' ∉ cs ∧ '\\' ∉ cs := by
  induction cs with
  | nil => simp
  | cons c cs ih =>
    rw [List.flatMap_cons,List.mem_cons,List.mem_cons,not_or,not_or]
    obtain ⟨hc,hliteral⟩ | ⟨⟨hslash,hquote⟩,hliteral⟩ := literal_cases c
    · constructor
      · intro heq
        have hlength := congrArg List.length heq
        have hle := length_le_literals cs
        simp only [hliteral,List.length_append,List.length_cons,List.length_nil] at hlength
        omega
      · rintro ⟨⟨hquote,-⟩,hslash,-⟩
        exact absurd hc (not_or.mpr ⟨Ne.symm hslash,Ne.symm hquote⟩)
    · rw [hliteral,List.singleton_append,List.cons.injEq,ih]
      simp [Ne.symm hslash,Ne.symm hquote]

theorem Java.isBlank_head_literal {c : Char} (h : isBlank c = false) :
    ∀ d ∈ (literal c).head?, isBlank d = false := by
  obtain ⟨-,hc⟩ | ⟨-,hc⟩ := literal_cases c
  · rw [hc]
    rintro d ⟨⟩
    rfl
  · rw [hc]
    rintro d ⟨⟩
    exact h

theorem Java.getLast?_literal (c : Char) : (literal c).getLast? = some c := by
  obtain ⟨-,hc⟩ | ⟨-,hc⟩ := literal_cases c
  · rw [hc]
    rfl
  · rw [hc]
    rfl

/-- Escapes put no white space at the ends of a text. -/
theorem Java.trimChars_literals {cs : List Char} (h : trimChars cs = cs) :
    trimChars (cs.flatMap literal) = cs.flatMap literal := by
  have hfirst := head_trimChars cs
  have hlast := getLast_trimChars cs
  rw [h] at hfirst hlast
  apply trimChars_of_ends
  · intro d hd
    cases cs with
    | nil => cases hd
    | cons c cs =>
      obtain ⟨e,es,hc⟩ : ∃ e es, literal c = e :: es := by
        apply List.exists_cons_of_ne_nil
        intro hnil
        have hend := getLast?_literal c
        rw [hnil] at hend
        cases hend
      rw [List.flatMap_cons,List.head?_append,hc] at hd
      apply isBlank_head_literal (hfirst c rfl)
      rwa [hc]
  · intro d hd
    obtain rfl | ⟨before,c,rfl⟩ := List.eq_nil_or_concat cs
    · cases hd
    · rw [List.concat_eq_append] at hlast hd
      rw [List.flatMap_append,List.flatMap_singleton,List.getLast?_append,getLast?_literal] at hd
      cases hd
      exact hlast d List.getLast?_concat

namespace Attributes

namespace Scan

/-- A step that stays within one part: no outer comma is met, and no closing bracket without its
opening one. -/
def step? (s : Scan) (c : Char) : Option Scan :=
  if s = outside 0 ∧ (c = ',' ∨ c = ')' ∨ c = '}') then none else some (s.step c)

/-- The same place of a text one bracket deeper. -/
def deepen : Scan → Scan
  | outside d => outside (d + 1)
  | quoted d => quoted (d + 1)
  | escaped d => escaped (d + 1)

theorem deepen_outside (d : Nat) : (outside d).deepen = outside (d + 1) := rfl

theorem deepen_quoted (d : Nat) : (quoted d).deepen = quoted (d + 1) := rfl

theorem deepen_escaped (d : Nat) : (escaped d).deepen = escaped (d + 1) := rfl

section Steps

variable {s t : Scan} {c : Char} {cs : List Char}

theorem step_of_step? (h : s.step? c = some t) : s.step c = t ∧ s.cuts c = false := by
  obtain ⟨hinner,ht⟩ := Option.ite_none_left_eq_some.mp h
  refine ⟨Option.some.inj ht,Bool.eq_false_iff.mpr (fun hcut => ?_)⟩
  cases s with
  | quoted d => cases hcut
  | escaped d => cases hcut
  | outside d =>
    obtain ⟨hcomma,hdepth⟩ := Bool.and_eq_true_iff.mp hcut
    exact hinner ⟨congrArg outside (eq_of_beq hdepth),.inl (eq_of_beq hcomma)⟩

/-- What stays within a part stays within it inside brackets. -/
theorem step?_deepen (h : s.step? c = some t) : s.deepen.step? c = some t.deepen := by
  obtain ⟨hinner,ht⟩ := Option.ite_none_left_eq_some.mp h
  obtain rfl := Option.some.inj ht
  have hdeep : s.deepen ≠ outside 0 := by cases s <;> simp [deepen]
  rw [step?,if_neg (fun h => hdeep h.1),Option.some.injEq]
  cases s with
  | quoted d =>
    simp only [step,apply_ite deepen,deepen_outside,deepen_quoted,deepen_escaped]
  | escaped d => rfl
  | outside d =>
    simp only [step,apply_ite deepen,deepen_outside,deepen_quoted]
    -- only a closing bracket is met at another depth, and it closes an inner one
    split
    · rfl
    · split
      · rfl
      · split
        · rename_i hclose
          cases d with
          | zero => exact absurd ⟨rfl,.inr hclose⟩ hinner
          | succ d => rfl
        · rfl

theorem steps_deepen (h : cs.foldlM step? s = some t) :
    cs.foldlM step? s.deepen = some t.deepen := by
  induction cs generalizing s with
  | nil => exact congrArg (some ∘ deepen) (Option.some.inj h)
  | cons c cs ih =>
    obtain ⟨u,hu,hcs⟩ := Option.bind_eq_some_iff.mp h
    rw [List.foldlM_cons,step?_deepen hu]
    exact ih hcs

/-- A scan that stays within one part gives one piece of what it passes over. -/
theorem splitScan_of_steps (h : cs.foldlM step? s = some t) (rest : List Char) :
    splitScan step cuts s (cs ++ rest) = cs.foldr consHead (splitScan step cuts t rest) := by
  induction cs generalizing s with
  | nil => exact congrArg (splitScan step cuts · rest) (Option.some.inj h)
  | cons c cs ih =>
    obtain ⟨u,hu,hcs⟩ := Option.bind_eq_some_iff.mp h
    obtain ⟨hstep,hcut⟩ := step_of_step? hu
    rw [List.cons_append,splitScan,hcut,if_neg Bool.false_ne_true,hstep,ih hcs]
    rfl

end Steps

end Scan

/-- The characters that move a scan outside of strings, or cut there. -/
def signs : List Char := ['"', '(', '{', ')', '}', ',']

/-- Passing over a text leaves a scan at the depth it had, within the part it was in. -/
def Closed (depth : Nat) (cs : List Char) : Prop :=
  cs.foldlM Scan.step? (.outside depth) = some (.outside depth)

/-- A part by itself: trimmed, with its strings closed and its brackets matched, and without an
outer comma. -/
structure SelfContained (cs : List Char) : Prop where
  nonempty : cs ≠ []
  trimmed : trimChars cs = cs
  closed : Closed 0 cs

instance (depth : Nat) (cs : List Char) : Decidable (Closed depth cs) :=
  inferInstanceAs (Decidable (_ = _))

instance (cs : List Char) : Decidable (SelfContained cs) :=
  decidable_of_iff (cs ≠ [] ∧ trimChars cs = cs ∧ Closed 0 cs)
    ⟨fun ⟨hne,htrim,hclosed⟩ => ⟨hne,htrim,hclosed⟩,fun ⟨hne,htrim,hclosed⟩ => ⟨hne,htrim,hclosed⟩⟩

section Closed

variable {d : Nat} {cs ds : List Char}

theorem Closed.append (hcs : Closed d cs) (hds : Closed d ds) : Closed d (cs ++ ds) := by
  rw [Closed,List.foldlM_append,hcs]
  exact hds

theorem Closed.deepen (h : Closed d cs) : Closed (d + 1) cs :=
  Scan.steps_deepen h

theorem closed_of_plain (h : ∀ c ∈ cs, c ∉ signs) : Closed d cs := by
  induction cs with
  | nil => rfl
  | cons c cs ih =>
    obtain ⟨hc,hcs⟩ := List.forall_mem_cons.mp h
    simp only [signs,List.mem_cons,List.not_mem_nil,or_false,not_or] at hc
    obtain ⟨hquote,hopen,hbrace,hclose,hend,hcomma⟩ := hc
    have hstep : Scan.step? (.outside d) c = some (.outside d) := by
      simp [Scan.step?,Scan.step,hquote,hopen,hbrace,hclose,hend,hcomma]
    rw [Closed,List.foldlM_cons,hstep]
    exact ih hcs

theorem Closed.parentheses (h : Closed (d + 1) cs) : Closed d ('(' :: cs ++ [')']) := by
  have hopen : Scan.step? (.outside d) '(' = some (.outside (d + 1)) := by
    simp [Scan.step?,Scan.step]
  rw [Closed,List.cons_append,List.foldlM_cons,hopen]
  show (cs ++ [')']).foldlM Scan.step? (.outside (d + 1)) = _
  rw [List.foldlM_append,h]
  simp [Scan.step?,Scan.step]

theorem Closed.braces (h : Closed (d + 1) cs) : Closed d ('{' :: cs ++ ['}']) := by
  have hopen : Scan.step? (.outside d) '{' = some (.outside (d + 1)) := by
    simp [Scan.step?,Scan.step]
  rw [Closed,List.cons_append,List.foldlM_cons,hopen]
  show (cs ++ ['}']).foldlM Scan.step? (.outside (d + 1)) = _
  rw [List.foldlM_append,h]
  simp [Scan.step?,Scan.step]

/-- Inside brackets commas belong to the part around them. -/
theorem closed_join {vs : List String} (h : ∀ v ∈ vs, Closed (d + 1) v.toList) :
    Closed (d + 1) (join ", " vs).toList := by
  induction vs using join.induct with
  | case1 => rfl
  | case2 v => exact h v List.mem_cons_self
  | case3 v w vs ih =>
    obtain ⟨hv,hvs⟩ := List.forall_mem_cons.mp h
    have hcomma : Closed (d + 1) [',',' '] := by
      simp [Closed,Scan.step?,Scan.step]
    rw [join,String.toList_append,String.toList_append]
    exact (hv.append hcomma).append (ih hvs)

/-- Whatever a string literal holds, the scan leaves it at its closing quote. -/
theorem closed_quote (s : String) : Closed d (quote s).toList := by
  have hinner : (s.toList.flatMap literal).foldlM Scan.step? (.quoted d) = some (.quoted d) := by
    induction s.toList with
    | nil => rfl
    | cons c cs ih =>
      have hstep : (literal c).foldlM Scan.step? (.quoted d) = some (.quoted d) := by
        unfold literal
        split
        · rfl
        · split
          · rfl
          · rename_i hslash hquote
            simp [Scan.step?,Scan.step,hslash,hquote]
      rw [List.flatMap_cons,List.foldlM_append,hstep]
      exact ih
  have hopen : Scan.step? (.outside d) '"' = some (.quoted d) := by
    simp [Scan.step?,Scan.step]
  rw [Closed,toList_quote,List.foldlM_cons,hopen]
  show List.foldlM Scan.step? (.quoted d) (s.toList.flatMap literal ++ ['"']) = _
  rw [List.foldlM_append,hinner]
  rfl

theorem selfContained_quote (s : String) : SelfContained (quote s).toList where
  nonempty := by rw [toList_quote]; exact List.cons_ne_nil _ _
  trimmed := by
    rw [toList_quote]
    exact trimChars_between (trimChars_singleton rfl) (List.cons_ne_nil '"' [])
      (trimChars_singleton rfl) (List.cons_ne_nil '"' []) _
  closed := closed_quote s

/-- A list in braces is a part by itself. -/
theorem selfContained_braces {vs : List String} (h : ∀ v ∈ vs, SelfContained v.toList) :
    SelfContained ("\x7b" ++ join ", " vs ++ "\x7d").toList := by
  have htext : ("\x7b" ++ join ", " vs ++ "\x7d").toList =
      ['{'] ++ ((join ", " vs).toList ++ ['}']) := by simp
  have htrim := trimChars_between (trimChars_singleton rfl) (List.cons_ne_nil '{' [])
    (trimChars_singleton rfl) (List.cons_ne_nil '}' []) (join ", " vs).toList
  have hclosed : Closed 1 (join ", " vs).toList :=
    closed_join (fun v hv => (h v hv).closed.deepen)
  rw [htext]
  exact ⟨List.cons_ne_nil '{' _,htrim,hclosed.braces⟩

end Closed

section Parts

variable {cs rest : List Char} {vs : List String}

theorem foldr_consHead (cs p : List Char) (ps : List (List Char)) :
    cs.foldr consHead (p :: ps) = (cs ++ p) :: ps := by
  induction cs with
  | nil => rfl
  | cons c cs ih => rw [List.foldr_cons,ih,consHead,List.cons_append]

theorem parts_selfContained (h : SelfContained cs) : parts cs = [cs] := by
  have hsplit := Scan.splitScan_of_steps h.closed []
  rw [List.append_nil,splitScan,foldr_consHead,List.append_nil] at hsplit
  rw [parts,hsplit,List.map_singleton,h.trimmed,List.filter_cons_of_pos,List.filter_nil]
  simpa using h.nonempty

theorem parts_cons (h : SelfContained cs) (rest : List Char) :
    parts (cs ++ ',' :: ' ' :: rest) = cs :: parts rest := by
  obtain ⟨p,ps,hrest⟩ := List.exists_cons_of_ne_nil
    (@splitScan_ne_nil Scan Scan.step Scan.cuts (.outside 0) rest)
  have hsplit : splitScan Scan.step Scan.cuts (.outside 0) (',' :: ' ' :: rest) =
      [] :: (' ' :: p) :: ps := by
    have hcomma : Scan.step (.outside 0) ',' = .outside 0 := by simp [Scan.step]
    have hblank : Scan.step (.outside 0) ' ' = .outside 0 := by simp [Scan.step]
    rw [splitScan,if_pos (by decide),hcomma,splitScan,if_neg (by decide),hblank,hrest,consHead]
  rw [parts,Scan.splitScan_of_steps h.closed,hsplit,foldr_consHead,List.append_nil,parts,hrest,
    List.map_cons,List.map_cons,List.map_cons,h.trimmed,trimChars_cons rfl,
    List.filter_cons_of_pos]
  simpa using h.nonempty

/-- Parts joined by commas are told apart again. -/
theorem parts_join (h : ∀ v ∈ vs, SelfContained v.toList) :
    parts (join ", " vs).toList = vs.map String.toList := by
  induction vs using join.induct with
  | case1 => rfl
  | case2 v => exact parts_selfContained (h v List.mem_cons_self)
  | case3 v w vs ih =>
    obtain ⟨hv,hvs⟩ := List.forall_mem_cons.mp h
    rw [join,String.toList_append,String.toList_append,List.append_assoc]
    exact (parts_cons hv _).trans (congrArg _ (ih hvs))

theorem trimmed_join (hne : vs ≠ []) (h : ∀ v ∈ vs, SelfContained v.toList) :
    (join ", " vs).toList ≠ [] ∧ trimChars (join ", " vs).toList = (join ", " vs).toList := by
  induction vs using join.induct with
  | case1 => exact absurd rfl hne
  | case2 v =>
    have hv := h v List.mem_cons_self
    exact ⟨hv.nonempty,hv.trimmed⟩
  | case3 v w vs ih =>
    obtain ⟨hv,hvs⟩ := List.forall_mem_cons.mp h
    obtain ⟨hrest,htrim⟩ := ih (List.cons_ne_nil w vs) hvs
    rw [join,String.toList_append,String.toList_append,List.append_assoc]
    exact ⟨List.append_ne_nil_of_left_ne_nil hv.nonempty _,
      trimChars_between hv.trimmed hv.nonempty htrim hrest _⟩

end Parts

section Entries

variable {cs : List Char} {key value : String} {pairs : List (String × String)}

theorem isBlank_of_isAlphanum {c : Char} (h : c.isAlphanum = true) : isBlank c = false := by
  have hrange : ((decide (c.val ≥ 65 ∧ c.val ≤ 90) || (decide (c.val ≥ 97) &&
      decide (c.val ≤ 122))) || (decide (c.val ≥ 48) && decide (c.val ≤ 57))) = true := h
  have hval : c.toNat = c.val.toNat := rfl
  simp only [Bool.or_eq_true,Bool.and_eq_true,decide_eq_true_eq,ge_iff_le,
    UInt32.le_iff_toNat_le,UInt32.reduceToNat] at hrange
  simp only [isBlank,hval,Bool.or_eq_false_iff,Bool.and_eq_false_iff,decide_eq_false_iff_not,
    beq_eq_false_iff_ne]
  omega

/-- Keys are words: nothing in them is white space, moves a scan or ends a name. -/
theorem not_mem_key {c : Char} (h : (c.isAlphanum || c == '_') = true) :
    isBlank c = false ∧ c ∉ signs ∧ c ≠ '=' := by
  rw [Bool.or_eq_true,beq_iff_eq] at h
  rcases h with h | rfl
  · refine ⟨isBlank_of_isAlphanum h,fun hc => ?_,?_⟩
    · have hsigns : signs.all (fun c => !c.isAlphanum) = true := by decide
      have hsign := List.all_eq_true.mp hsigns c hc
      rw [h] at hsign
      cases hsign
    · rintro rfl
      cases h
  · exact ⟨rfl,by decide,by decide⟩

theorem forall_mem_of_isKey (h : isKey cs = true) :
    cs ≠ [] ∧ ∀ c ∈ cs, isBlank c = false ∧ c ∉ signs ∧ c ≠ '=' := by
  cases cs with
  | nil => cases h
  | cons c cs =>
    have hall := List.all_eq_true.mp (Bool.and_eq_true_iff.mp h).2
    exact ⟨List.cons_ne_nil c cs,fun d hd => not_mem_key (hall d hd)⟩

theorem SelfContained.entry (hkey : isKey key.toList = true) (h : SelfContained value.toList) :
    SelfContained (key ++ " = " ++ value).toList where
  nonempty := by
    rw [String.toList_append,String.toList_append]
    exact List.append_ne_nil_of_right_ne_nil _ h.nonempty
  trimmed := by
    obtain ⟨hkey,hword⟩ := forall_mem_of_isKey hkey
    rw [String.toList_append,String.toList_append,List.append_assoc]
    exact trimChars_between (trimChars_of_forall fun c hc => (hword c hc).1) hkey h.trimmed
      h.nonempty _
  closed := by
    rw [String.toList_append,String.toList_append]
    have hassign : Closed 0 " = ".toList := by decide
    have hname : Closed 0 key.toList :=
      closed_of_plain (fun c hc => ((forall_mem_of_isKey hkey).2 c hc).2.1)
    exact (hname.append hassign).append h.closed

theorem entryOf_assignment (hkey : isKey key.toList = true)
    (h : trimChars value.toList = value.toList) :
    entryOf (key ++ " = " ++ value).toList = (key,value) := by
  obtain ⟨-,hword⟩ := forall_mem_of_isKey hkey
  have hbefore : '=' ∉ key.toList ++ [' '] := by
    intro hmem
    rcases List.mem_append.mp hmem with hmem | hmem
    · exact (hword '=' hmem).2.2 rfl
    · exact absurd hmem (by decide)
  have htext : (key ++ " = " ++ value).toList = (key.toList ++ [' ']) ++ '=' :: ' ' ::
      value.toList := by
    simp
  have hsplit : splitFirst? '=' (key ++ " = " ++ value).toList =
      some (key.toList ++ [' '],' ' :: value.toList) :=
    htext ▸ splitFirst?_append hbefore _
  have hname : trimChars (key.toList ++ [' ']) = key.toList :=
    trimChars_append rfl (fun c hc => (hword c hc).1)
  simp only [entryOf,hsplit,hname,hkey,if_true,trimChars_cons (b := ' ') rfl,h,
    String.ofList_toList]

/-- Assignments joined by commas are read back, in their order. -/
theorem entries_parse (h : ∀ p ∈ pairs, isKey p.1.toList = true ∧ SelfContained p.2.toList) :
    (parse (join ", " (pairs.map (fun p => p.1 ++ " = " ++ p.2)))).entries = pairs := by
  rw [parse,parts_join]
  · simp only [List.map_map]
    conv => rhs; rw [← List.map_id pairs]
    apply List.map_congr_left
    intro p hp
    exact entryOf_assignment (h p hp).1 (h p hp).2.trimmed
  · intro text htext
    obtain ⟨p,hp,rfl⟩ := List.mem_map.mp htext
    exact (h p hp).2.entry (h p hp).1

end Entries

section Readers

variable {a : Attributes} {key value : String} {vs : List String}

/-- Where every key comes once, each has its value. -/
theorem raw?_of_mem (hkeys : (a.entries.map Prod.fst).Nodup) (h : (key,value) ∈ a.entries) :
    a.raw? key = some value := by
  obtain ⟨before,after,hsplit⟩ := List.append_of_mem h
  rw [hsplit,List.map_append,List.map_cons] at hkeys
  have hafter := (List.nodup_cons.mp (List.nodup_append.mp hkeys).2.1).1
  rw [raw?,List.lookup_eq_some_iff]
  refine ⟨after.reverse,before.reverse,by rw [hsplit]; simp,fun p hp => bne_iff_ne.mpr ?_⟩
  intro heq
  have hmem : p.1 ∈ after.map Prod.fst := List.mem_map_of_mem (List.mem_reverse.mp hp)
  exact hafter (heq ▸ hmem)

theorem raw?_of_not_mem (h : key ∉ a.entries.map Prod.fst) : a.raw? key = none := by
  rw [raw?,List.lookup_eq_none_iff]
  intro p hp
  rw [bne_iff_ne]
  intro heq
  exact h (heq ▸ List.mem_map_of_mem (List.mem_reverse.mp hp))

theorem unquote_literal (cs : List Char) : unquote ('"' :: (cs ++ ['"'])) = cs := by
  have htrim : trimChars (['"'] ++ (cs ++ ['"'])) = ['"'] ++ (cs ++ ['"']) :=
    trimChars_between (trimChars_singleton rfl) (List.cons_ne_nil '"' [])
      (trimChars_singleton rfl) (List.cons_ne_nil '"' []) cs
  show unquote (['"'] ++ (cs ++ ['"'])) = cs
  simp only [unquote,htrim,stripStart?_append,Option.bind_some,stripEnd?_append,Option.getD_some]

theorem unquote_of_head {cs : List Char} (htrim : trimChars cs = cs)
    (h : cs.head? ≠ some '"') : unquote cs = cs := by
  simp only [unquote,htrim,stripStart?_of_head h,Option.bind_none,Option.getD_none]

/-- A string literal is read without the quotes around it, and with all its escapes. -/
theorem string?_literal (hraw : a.raw? key = some (quote value)) (htrim : trim value = value)
    (hblank : allBlank value = false) :
    a.string? key = some (String.ofList (value.toList.flatMap literal)) := by
  have hvalue : trimChars value.toList = value.toList := by
    rw [← String.toList_ofList (l := trimChars value.toList),← trim,htrim]
  have hne : (value.toList.flatMap literal).isEmpty = false := by
    have hle := length_le_literals value.toList
    rw [Bool.eq_false_iff,ne_eq,List.isEmpty_iff]
    intro hnil
    rw [hnil,List.length_nil,Nat.le_zero,List.length_eq_zero_iff] at hle
    rw [allBlank,hle] at hblank
    cases hblank
  simp only [string?,hraw,toList_quote,unquote_literal,trimChars_literals hvalue,hne,
    Option.bind_eq_bind,Option.bind_some,Bool.false_eq_true,if_false]

/-- A text without quotes and backslashes is read as it was written. -/
theorem string?_quote (hraw : a.raw? key = some (quote value)) (hquote : '"' ∉ value.toList)
    (hslash : '\\' ∉ value.toList) (htrim : trim value = value)
    (hblank : allBlank value = false) : a.string? key = some value := by
  rw [string?_literal hraw htrim hblank,literals_eq_iff.mpr ⟨hquote,hslash⟩,String.ofList_toList]

theorem string?_of_raw?_none (h : a.raw? key = none) : a.string? key = none := by
  rw [string?,h]
  rfl

/-- Elements are trimmed texts, and stand for themselves unless they are quoted. -/
theorem map_unquote (h : ∀ v ∈ vs, SelfContained v.toList ∧ v.toList.head? ≠ some '"') :
    ((((vs.map String.toList).map (fun p => trimChars (unquote p))).filter
      (fun p => !p.isEmpty)).map String.ofList) = vs := by
  have hunquote : (vs.map String.toList).map (fun p => trimChars (unquote p)) =
      vs.map String.toList := by
    rw [List.map_map]
    apply List.map_congr_left
    intro v hv
    obtain ⟨hself,hhead⟩ := h v hv
    show trimChars (unquote v.toList) = v.toList
    rw [unquote_of_head hself.trimmed hhead,hself.trimmed]
  have hkept : (vs.map String.toList).filter (fun p => !p.isEmpty) = vs.map String.toList := by
    apply List.filter_eq_self.mpr
    intro p hp
    obtain ⟨v,hv,rfl⟩ := List.mem_map.mp hp
    simpa using (h v hv).1.nonempty
  rw [hunquote,hkept,List.map_map]
  simp [Function.comp_def]

/-- A list in braces is read element by element. -/
theorem list_braces (hraw : a.raw? key = some ("\x7b" ++ join ", " vs ++ "\x7d"))
    (h : ∀ v ∈ vs, SelfContained v.toList ∧ v.toList.head? ≠ some '"') : a.list key = vs := by
  have htext : ("\x7b" ++ join ", " vs ++ "\x7d").toList =
      ['{'] ++ ((join ", " vs).toList ++ ['}']) := by simp
  have htrim : trimChars (['{'] ++ ((join ", " vs).toList ++ ['}'])) =
      ['{'] ++ ((join ", " vs).toList ++ ['}']) :=
    trimChars_between (trimChars_singleton rfl) (List.cons_ne_nil '{' [])
      (trimChars_singleton rfl) (List.cons_ne_nil '}' []) _
  simp only [list,hraw,htext,htrim,stripStart?_append,Option.bind_some,stripEnd?_append,
    Option.getD_some,parts_join (fun v hv => (h v hv).1)]
  exact map_unquote h

/-- A single element stands by itself. -/
theorem list_single (hraw : a.raw? key = some value) (h : SelfContained value.toList)
    (hquote : value.toList.head? ≠ some '"') (hbrace : value.toList.head? ≠ some '{') :
    a.list key = [value] := by
  simp only [list,hraw,h.trimmed,stripStart?_of_head hbrace,Option.bind_none,Option.getD_none,
    parts_selfContained h]
  exact map_unquote (List.forall_mem_singleton.mpr ⟨h,hquote⟩)

theorem list_of_raw?_none (h : a.raw? key = none) : a.list key = [] := by
  rw [list,h]

end Readers

end Attributes

end EntityLink
