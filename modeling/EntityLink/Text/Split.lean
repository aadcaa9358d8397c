namespace EntityLink.Text

/-- The text `cs` without `e` at its end, when it ends so. -/
def stripEnd? (e cs : List Char) : Option (List Char) :=
  if e.isSuffixOf cs then some (cs.take (cs.length - e.length)) else none

/-- The text `cs` without `b` at its beginning, when it begins so. -/
def stripStart? (b cs : List Char) : Option (List Char) :=
  if b.isPrefixOf cs then some (cs.drop b.length) else none

theorem stripEnd?_append (cs e : List Char) : stripEnd? e (cs ++ e) = some cs := by
  rw [stripEnd?,if_pos (List.isSuffixOf_iff_suffix.mpr (List.suffix_append cs e)),
    List.length_append,Nat.add_sub_cancel,List.take_left]

theorem stripEnd?_eq_some_iff {e cs ds : List Char} : stripEnd? e cs = some ds ↔ cs = ds ++ e := by
  constructor
  · intro h
    obtain ⟨hends,hds⟩ := Option.ite_none_right_eq_some.mp h
    obtain ⟨front,rfl⟩ := List.isSuffixOf_iff_suffix.mp hends
    rw [List.length_append,Nat.add_sub_cancel,List.take_left] at hds
    rw [Option.some.inj hds]
  · rintro rfl
    exact stripEnd?_append ds e

theorem stripStart?_append (b cs : List Char) : stripStart? b (b ++ cs) = some cs := by
  rw [stripStart?,if_pos (List.isPrefixOf_iff_prefix.mpr (List.prefix_append b cs)),
    List.drop_left]

theorem stripStart?_of_head {c : Char} {cs : List Char} (h : cs.head? ≠ some c) :
    stripStart? [c] cs = none := by
  rw [stripStart?,if_neg]
  intro hprefix
  obtain ⟨rest,rfl⟩ := List.isPrefixOf_iff_prefix.mp hprefix
  exact h rfl

section Separator

variable {c : Char} {cs : List Char}

theorem ne_separator (h : c ∉ cs) : ∀ d ∈ cs, (d != c) = true :=
  fun _ hd => bne_iff_ne.mpr (fun heq => h (heq ▸ hd))

theorem takeWhile_separator (h : c ∉ cs) (ds : List Char) :
    (cs ++ c :: ds).takeWhile (· != c) = cs := by
  rw [List.takeWhile_append_of_pos (ne_separator h),List.takeWhile_cons_of_neg (by simp),
    List.append_nil]

theorem dropWhile_separator (h : c ∉ cs) (ds : List Char) :
    (cs ++ c :: ds).dropWhile (· != c) = c :: ds := by
  rw [List.dropWhile_append_of_pos (ne_separator h),List.dropWhile_cons_of_neg (by simp)]

end Separator

/-- What stands before and after the first `c`. -/
def splitFirst? (c : Char) (cs : List Char) : Option (List Char × List Char) :=
  match cs.dropWhile (· != c) with
  | [] => none
  | _ :: rest => some (cs.takeWhile (· != c),rest)

theorem splitFirst?_append {c : Char} {cs : List Char} (h : c ∉ cs) (ds : List Char) :
    splitFirst? c (cs ++ c :: ds) = some (cs,ds) := by
  rw [splitFirst?,dropWhile_separator h,takeWhile_separator h]

def consHead (c : Char) : List (List Char) → List (List Char)
  | [] => [[c]]
  | p :: ps => (c :: p) :: ps

/-- The pieces of a text between the characters at which `cut` holds of a scan's state. The
state moves with `step` over every character; the characters cut at are in no piece. -/
def splitScan (step : σ → Char → σ) (cut : σ → Char → Bool) : σ → List Char → List (List Char)
  | _, [] => [[]]
  | s, c :: cs =>
    if cut s c then [] :: splitScan step cut (step s c) cs
    else consHead c (splitScan step cut (step s c) cs)

theorem length_of_mem_splitScan {step : σ → Char → σ} {cut : σ → Char → Bool} {s : σ}
    {cs p : List Char} (h : p ∈ splitScan step cut s cs) : p.length ≤ cs.length := by
  induction cs generalizing s p with
  | nil =>
    simp only [splitScan,List.mem_singleton] at h
    simp [h]
  | cons c cs ih =>
    simp only [splitScan] at h
    split at h
    · rcases List.mem_cons.mp h with rfl | h
      · simp
      · exact Nat.le_succ_of_le (ih h)
    · cases hp : splitScan step cut (step s c) cs with
      | nil =>
        simp only [hp,consHead,List.mem_singleton] at h
        simp [h]
      | cons q qs =>
        simp only [hp,consHead,List.mem_cons] at h
        rcases h with rfl | h
        · simpa using ih (s := step s c) (p := q) (by simp [hp])
        · exact Nat.le_succ_of_le (ih (s := step s c) (by simp [hp,h]))

theorem splitScan_ne_nil {σ : Type} {step : σ → Char → σ} {cut : σ → Char → Bool} {s : σ}
    {cs : List Char} : splitScan step cut s cs ≠ [] := by
  cases cs with
  | nil => simp [splitScan]
  | cons c cs =>
    rw [splitScan]
    split
    · simp
    · cases splitScan step cut (step s c) cs <;> simp [consHead]

theorem consHead_append {c : Char} {ps : List (List Char)} (h : ps ≠ []) (qs : List (List Char)) :
    consHead c (ps ++ qs) = consHead c ps ++ qs := by
  obtain ⟨p,ps,rfl⟩ := List.exists_cons_of_ne_nil h
  rfl

/-- The pieces between the occurrences of one character. -/
def splitAt (c : Char) (cs : List Char) : List (List Char) :=
  splitScan (fun u _ => u) (fun _ d => d == c) () cs

/-- Where the character does not come, there is one piece. -/
theorem splitAt_of_not_mem {c : Char} {cs : List Char} (h : c ∉ cs) : splitAt c cs = [cs] := by
  unfold splitAt
  induction cs with
  | nil => rfl
  | cons d ds ih =>
    have hd : (d == c) = false := beq_false_of_ne (fun heq => h (heq ▸ List.mem_cons_self))
    have hds := ih (fun hmem => h (List.mem_cons_of_mem d hmem))
    rw [splitScan,hd,if_neg Bool.false_ne_true,hds]
    rfl

theorem splitAt_append (c : Char) (cs ds : List Char) :
    splitAt c (cs ++ c :: ds) = splitAt c cs ++ splitAt c ds := by
  unfold splitAt
  induction cs with
  | nil => simp [splitScan]
  | cons d cs ih =>
    rw [List.cons_append,splitScan,splitScan,ih]
    split
    · rfl
    · exact consHead_append splitScan_ne_nil _

end EntityLink.Text
