namespace EntityLink.Text

/-- White space, by the Unicode property of that name. -/
def isBlank (c : Char) : Bool :=
  let n := c.toNat
  (9 ≤ n && n ≤ 13) || n == 0x20 || n == 0x85 || n == 0xA0 || n == 0x1680 ||
    (0x2000 ≤ n && n ≤ 0x200A) || n == 0x2028 || n == 0x2029 || n == 0x202F ||
    n == 0x205F || n == 0x3000

def dropBlank (cs : List Char) : List Char :=
  cs.dropWhile isBlank

def dropBlankEnd (cs : List Char) : List Char :=
  (cs.reverse.dropWhile isBlank).reverse

/-- The text between its first and its last character that is not white space. -/
def trimChars (cs : List Char) : List Char :=
  dropBlankEnd (dropBlank cs)

def trim (s : String) : String :=
  String.ofList (trimChars s.toList)

/-- Nothing but white space. -/
def allBlank (s : String) : Bool :=
  s.toList.all isBlank

theorem head_dropBlank (cs : List Char) : ∀ c ∈ (dropBlank cs).head?, isBlank c = false := by
  intro c hc
  have hfirst := List.head?_dropWhile_not isBlank cs
  rw [dropBlank] at hc
  rw [hc] at hfirst
  exact hfirst

theorem dropBlank_of_head {cs : List Char} (h : ∀ c ∈ cs.head?, isBlank c = false) :
    dropBlank cs = cs := by
  cases cs with
  | nil => rfl
  | cons c cs => exact List.dropWhile_cons_of_neg (by simp [h c rfl])

theorem dropBlankEnd_prefix (cs : List Char) : dropBlankEnd cs <+: cs := by
  have hsuffix := List.dropWhile_suffix isBlank (l := cs.reverse)
  rwa [← List.reverse_prefix,List.reverse_reverse] at hsuffix

theorem dropBlankEnd_dropBlankEnd (cs : List Char) :
    dropBlankEnd (dropBlankEnd cs) = dropBlankEnd cs := by
  have hdrop := dropBlank_of_head (head_dropBlank cs.reverse)
  rw [dropBlankEnd,dropBlankEnd,List.reverse_reverse]
  exact congrArg List.reverse hdrop

/-- What is left of a trimmed text begins with no white space. -/
theorem head_trimChars (cs : List Char) : ∀ c ∈ (trimChars cs).head?, isBlank c = false := by
  intro c hc
  obtain ⟨rest,hrest⟩ := dropBlankEnd_prefix (dropBlank cs)
  apply head_dropBlank cs
  rw [← hrest,List.head?_append,← trimChars,hc]
  rfl

/-- Nor does it end with white space. -/
theorem getLast_trimChars (cs : List Char) :
    ∀ c ∈ (trimChars cs).getLast?, isBlank c = false := by
  rw [trimChars,dropBlankEnd,List.getLast?_reverse]
  exact head_dropBlank (dropBlank cs).reverse

theorem trimChars_trimChars (cs : List Char) : trimChars (trimChars cs) = trimChars cs := by
  rw [trimChars,dropBlank_of_head (head_trimChars cs),trimChars,dropBlankEnd_dropBlankEnd]

theorem trimChars_cons {b : Char} (h : isBlank b = true) (cs : List Char) :
    trimChars (b :: cs) = trimChars cs := by
  rw [trimChars,dropBlank,List.dropWhile_cons_of_pos h]
  rfl

/-- A text is trimmed when white space stands neither first nor last in it. -/
theorem trimChars_of_ends {cs : List Char} (hfirst : ∀ c ∈ cs.head?, isBlank c = false)
    (hlast : ∀ c ∈ cs.getLast?, isBlank c = false) : trimChars cs = cs := by
  have hdrop : dropBlank cs.reverse = cs.reverse := by
    apply dropBlank_of_head
    rwa [List.head?_reverse]
  rw [trimChars,dropBlank_of_head hfirst,dropBlankEnd]
  exact (congrArg List.reverse hdrop).trans (List.reverse_reverse cs)

theorem trimChars_of_forall {cs : List Char} (h : ∀ c ∈ cs, isBlank c = false) :
    trimChars cs = cs :=
  trimChars_of_ends (fun c hc => h c (List.mem_of_mem_head? hc))
    (fun c hc => h c (List.mem_of_getLast? hc))

theorem trimChars_singleton {c : Char} (h : isBlank c = false) : trimChars [c] = [c] :=
  trimChars_of_forall (fun _ hd => List.mem_singleton.mp hd ▸ h)

/-- Whatever stands between trimmed texts, the whole is trimmed. -/
theorem trimChars_between {cs ds : List Char} (hcs : trimChars cs = cs) (hne : cs ≠ [])
    (hds : trimChars ds = ds) (hne' : ds ≠ []) (ms : List Char) :
    trimChars (cs ++ (ms ++ ds)) = cs ++ (ms ++ ds) := by
  apply trimChars_of_ends
  · intro c hc
    rw [List.head?_append] at hc
    rcases Option.or_eq_some_iff.mp hc with hc | ⟨hnone,-⟩
    · exact head_trimChars cs c (hcs.symm ▸ hc)
    · exact absurd (List.head?_eq_none_iff.mp hnone) hne
  · intro c hc
    rw [← List.append_assoc,List.getLast?_append] at hc
    rcases Option.or_eq_some_iff.mp hc with hc | ⟨hnone,-⟩
    · exact getLast_trimChars ds c (hds.symm ▸ hc)
    · exact absurd (List.getLast?_eq_none_iff.mp hnone) hne'

theorem trimChars_append {b : Char} (h : isBlank b = true) {cs : List Char}
    (hcs : ∀ c ∈ cs, isBlank c = false) : trimChars (cs ++ [b]) = cs := by
  have hdrop : dropBlank (cs ++ [b]).reverse = dropBlank cs.reverse := by
    rw [List.reverse_append,List.reverse_singleton,List.singleton_append,dropBlank,
      List.dropWhile_cons_of_pos h,dropBlank]
  have hrest : dropBlank cs.reverse = cs.reverse := by
    apply dropBlank_of_head
    intro c hc
    exact hcs c (List.mem_reverse.mp (List.mem_of_mem_head? hc))
  cases cs with
  | nil => simp [trimChars,dropBlank,h,dropBlankEnd]
  | cons c cs =>
    rw [trimChars,dropBlank_of_head (fun d hd => hcs d (by cases hd; exact List.mem_cons_self))]
    exact (congrArg List.reverse (hdrop.trans hrest)).trans (List.reverse_reverse _)

end EntityLink.Text
