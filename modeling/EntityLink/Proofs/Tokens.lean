import EntityLink.Text.Blank

namespace EntityLink.Java
open Text

/-- What ends a word: ASCII white space and the signs of the language. Underscores and dollar
signs are parts of words, and so is everything beyond ASCII. -/
def endsWord (c : Char) : Bool :=
  let n := c.toNat
  (9 ≤ n && n ≤ 13) || (28 ≤ n && n ≤ 47 && n != 36) || (58 ≤ n && n ≤ 64) ||
    (91 ≤ n && n ≤ 96 && n != 95) || (123 ≤ n && n ≤ 126)

inductive Token
  | word (text : String)
  | sign (text : String)
  deriving DecidableEq, Repr

/-- The signs that are written with two characters. -/
def isDouble (c d : Char) : Bool :=
  (d == '=' && (c == '=' || c == '!')) || (c == d && (c == '&' || c == '|'))

/-- Signs of two characters end in one of three. -/
theorem isDouble_eq_false {b c : Char} (hc : c ∉ ['=','&','|']) : isDouble b c = false := by
  by_cases hb : b = c
  · subst hb
    simp_all [isDouble]
  · simp_all [isDouble]

/-- The words and signs of a text, without the white space between them. -/
def tokens : List Char → List Token
  | [] => []
  | c :: cs =>
    if !endsWord c then
      .word (String.ofList (c :: cs.takeWhile (fun d => !endsWord d))) ::
        tokens (cs.dropWhile (fun d => !endsWord d))
    else if isBlank c then tokens cs
    else match cs with
      | [] => [.sign (String.ofList [c])]
      | d :: ds =>
        if isDouble c d then .sign (String.ofList [c,d]) :: tokens ds
        else .sign (String.ofList [c]) :: tokens (d :: ds)
termination_by cs => cs.length
decreasing_by
  · have hsub := (List.dropWhile_suffix (fun d => !endsWord d) (l := cs)).length_le
    simp only [List.length_cons]
    omega
  · simp
  · simp only [List.length_cons]
    omega
  · simp

section Tokens

variable {cs rest : List Char} {c d : Char}

@[simp] theorem tokens_nil : tokens [] = [] := by
  rw [tokens.eq_def]

theorem tokens_word {w : List Char} (hw : w ≠ []) (hword : ∀ c ∈ w, endsWord c = false)
    (hrest : ∀ c ∈ rest.head?, endsWord c = true) :
    tokens (w ++ rest) = .word (String.ofList w) :: tokens rest := by
  obtain ⟨c,cs,rfl⟩ := List.exists_cons_of_ne_nil hw
  have hstop : rest.takeWhile (fun d => !endsWord d) = [] ∧
      rest.dropWhile (fun d => !endsWord d) = rest := by
    cases rest with
    | nil => exact ⟨rfl,rfl⟩
    | cons d ds => simp [hrest d rfl]
  have hcs : ∀ d ∈ cs, (!endsWord d) = true := by
    intro d hd
    simp [hword d (List.mem_cons_of_mem c hd)]
  rw [List.cons_append,tokens.eq_def]
  simp only [hword c List.mem_cons_self,Bool.not_false,if_true]
  rw [List.takeWhile_append_of_pos hcs,List.dropWhile_append_of_pos hcs,hstop.1,hstop.2,
    List.append_nil]

theorem tokens_blank (hend : endsWord c = true) (hblank : isBlank c = true) :
    tokens (c :: cs) = tokens cs := by
  rw [tokens.eq_def]
  simp [hend,hblank]

theorem tokens_sign (hend : endsWord c = true) (hblank : isBlank c = false)
    (hsingle : ∀ d ∈ cs.head?, isDouble c d = false) :
    tokens (c :: cs) = .sign (String.ofList [c]) :: tokens cs := by
  rw [tokens.eq_def]
  cases cs with
  | nil => simp [hend,hblank]
  | cons d ds => simp [hend,hblank,hsingle d rfl]

theorem tokens_double (hend : endsWord c = true) (hblank : isBlank c = false)
    (hdouble : isDouble c d = true) :
    tokens (c :: d :: cs) = .sign (String.ofList [c,d]) :: tokens cs := by
  rw [tokens.eq_def]
  simp [hend,hblank,hdouble]

@[simp] theorem tokens_space : tokens (' ' :: cs) = tokens cs :=
  tokens_blank rfl rfl

end Tokens

section Cut

variable {cs rest : List Char} {c : Char}

/-- The first word of a text does not reach beyond a sign. -/
theorem span_append (hend : endsWord c = true) (cs rest : List Char) :
    (cs ++ c :: rest).takeWhile (fun d => !endsWord d) = cs.takeWhile (fun d => !endsWord d) ∧
      (cs ++ c :: rest).dropWhile (fun d => !endsWord d) =
        cs.dropWhile (fun d => !endsWord d) ++ c :: rest := by
  induction cs with
  | nil => simp [hend]
  | cons d ds ih =>
    cases hd : endsWord d with
    | true => simp [hd]
    | false => simp [hd,ih]

/-- Text before a sign that never ends a longer sign has its own tokens. -/
theorem tokens_append (hend : endsWord c = true) (hsingle : ∀ b, isDouble b c = false) :
    tokens (cs ++ c :: rest) = tokens cs ++ tokens (c :: rest) := by
  fun_induction tokens cs with
  | case1 => simp
  | case2 b cs hword ih =>
    obtain ⟨htake,hdrop⟩ := span_append hend cs rest
    rw [List.cons_append,tokens.eq_def]
    simp only [hword,if_true,htake,hdrop,ih,List.cons_append]
  | case3 b cs hword hblank ih =>
    rw [List.cons_append,tokens_blank (by simpa using hword) hblank,ih]
  | case4 b hword hblank =>
    rw [List.singleton_append,tokens_sign (by simpa using hword) (by simpa using hblank)
      (by simp [hsingle]),List.singleton_append]
  | case5 b hword hblank d ds hdouble ih =>
    rw [List.cons_append,List.cons_append,tokens_double (by simpa using hword)
      (by simpa using hblank) hdouble,ih,List.cons_append]
  | case6 b hword hblank d ds hdouble ih =>
    rw [List.cons_append,tokens_sign (by simpa using hword) (by simpa using hblank)
      (by simpa using hdouble),ih,List.cons_append]

theorem eq_of_sign_equals (h : Token.sign "=" = .sign (String.ofList cs)) : cs = ['='] := by
  have htext := congrArg String.toList (Token.sign.inj h)
  simpa using htext.symm

/-- A text without equals signs has none among its tokens. -/
theorem not_mem_tokens (h : '=' ∉ cs) : .sign "=" ∉ tokens cs := by
  fun_induction tokens cs with
  | case1 => simp
  | case2 b cs hword ih =>
    have hdrop : '=' ∉ cs.dropWhile (fun d => !endsWord d) :=
      fun hmem => h (List.mem_cons_of_mem b ((List.dropWhile_suffix _).subset hmem))
    simp [ih hdrop]
  | case3 b cs hword hblank ih => exact ih (fun hmem => h (List.mem_cons_of_mem b hmem))
  | case4 b hword hblank =>
    intro hmem
    have hb := eq_of_sign_equals (List.mem_singleton.mp hmem)
    exact h (by simp [hb])
  | case5 b hword hblank d ds hdouble ih =>
    intro hmem
    rcases List.mem_cons.mp hmem with heq | hmem
    · cases eq_of_sign_equals heq
    · exact ih (fun hmem => h (by simp [hmem])) hmem
  | case6 b hword hblank d ds hdouble ih =>
    intro hmem
    rcases List.mem_cons.mp hmem with heq | hmem
    · have hb := eq_of_sign_equals heq
      exact h (by simp_all)
    · exact ih (fun hmem => h (List.mem_cons_of_mem b hmem)) hmem

end Cut

section Breaks

variable {rest : List Char}

/-- Whatever word stands before this text, it is over. -/
def WordBreak (rest : List Char) : Prop :=
  ∀ c ∈ rest.head?, endsWord c = true

theorem wordBreak_nil : WordBreak [] := by
  simp [WordBreak]

theorem wordBreak_cons {c : Char} (h : endsWord c = true) : WordBreak (c :: rest) := by
  rintro d hd
  cases hd
  exact h

/-- A sign that begins no sign of two characters. -/
theorem tokens_single {c : Char} (hend : endsWord c = true) (hblank : isBlank c = false)
    (hsingle : ∀ d, isDouble c d = false) :
    tokens (c :: rest) = .sign (String.ofList [c]) :: tokens rest :=
  tokens_sign hend hblank (fun d _ => hsingle d)

theorem tokens_spaced {c d : Char} (hend : endsWord c = true) (hblank : isBlank c = false)
    (hdouble : isDouble c d = true) :
    tokens ([' ',c,d,' '] ++ rest) = .sign (String.ofList [c,d]) :: tokens rest := by
  simp [tokens_double hend hblank hdouble]

end Breaks

end EntityLink.Java
