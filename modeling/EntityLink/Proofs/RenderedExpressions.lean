import EntityLink.Java.Printer
import EntityLink.Proofs.ExpressionGrammar

namespace EntityLink.Java
open Text

/-- The class of a new object, with or without inferred type arguments. -/
inductive IsCreated : String → Prop
  | plain {t : String} : IsDotted t → IsCreated t
  | diamond {t : String} : IsDotted t → IsCreated (t ++ "<>")

/-- All names of an expression are names, and what is joined has at least two operands. -/
inductive Expr.WellFormed : Expr → Prop
  | this : this.WellFormed
  | null : null.WellFormed
  | bool {b} : (bool b).WellFormed
  | var {n} : IsName n → (var n).WellFormed
  | field {e n} : e.WellFormed → IsName n → (field e n).WellFormed
  | call {e m as} : e.WellFormed → IsName m → (∀ a ∈ as, a.WellFormed) → (call e m as).WellFormed
  | callBare {m as} : IsName m → (∀ a ∈ as, a.WellFormed) → (callBare m as).WellFormed
  | create {t as} : IsCreated t → (∀ a ∈ as, a.WellFormed) → (create t as).WellFormed
  | same {a b} : a.WellFormed → b.WellFormed → (same a b).WellFormed
  | notSame {a b} : a.WellFormed → b.WellFormed → (notSame a b).WellFormed
  | not {e} : e.WellFormed → (not e).WellFormed
  | and {es} : 2 ≤ es.length → (∀ e ∈ es, e.WellFormed) → (and es).WellFormed
  | or {es} : 2 ≤ es.length → (∀ e ∈ es, e.WellFormed) → (or es).WellFormed
  | instanceOf {e t} : e.WellFormed → IsDotted t → (instanceOf e t).WellFormed

namespace Level

def rank : Level → Nat
  | disjunction => 0
  | conjunction => 1
  | equality => 2
  | relation => 3
  | unary => 4
  | primary => 5
  | atom => 6

/-- How tightly the operators of a level bind. -/
def binding : Level → Nat
  | disjunction => 3
  | conjunction => 4
  | equality => 9
  | relation => 10
  | unary => 14
  | primary | atom => 16

theorem eq_of_rank {l l' : Level} (h : l.rank = l'.rank) : l = l' := by
  cases l <;> cases l' <;> first | rfl | cases h

theorem rank_operand {l : Level} (h : l ≠ atom) : l.operand.rank = l.rank + 1 := by
  cases l <;> first | rfl | exact absurd rfl h

theorem rank_operand_le (l : Level) : l.operand.rank ≤ l.rank + 1 := by
  cases l <;> decide

theorem rank_lt_of_binding_lt {l l' : Level} (h : l.binding < l'.binding) : l.rank < l'.rank := by
  revert h
  cases l <;> cases l' <;> decide

theorem rank_le_atom (l : Level) : l.rank ≤ rank atom := by
  cases l <;> decide

end Level

/-- The level of the outermost operator. -/
def Expr.grade : Expr → Level
  | or _ => .disjunction
  | and _ => .conjunction
  | same .. | notSame .. => .equality
  | instanceOf .. => .relation
  | not _ => .unary
  | field .. | call .. => .primary
  | _ => .atom

theorem Expr.level_eq (e : Expr) : e.level = e.grade.binding := by
  cases e <;> rfl

section Reading

variable {l g : Level} {a b e : Expr} {es : List Expr} {ts us vs : List Token} {rest : List Char}

theorem Reads.of_operand (h : Reads l.operand ts e us) : Reads l ts e us := by
  cases l with
  | disjunction => exact .disjunction h .nil
  | conjunction => exact .conjunction h .nil
  | equality => exact .equality h .done
  | relation => exact .relation h .done
  | unary => exact .unary h
  | primary => exact .primary h .done
  | atom => exact h

/-- What is held together tightly may stand where less would do. -/
theorem Reads.loosen (h : Reads g ts e us) (hle : l.rank ≤ g.rank) : Reads l ts e us := by
  obtain ⟨k,hk⟩ := Nat.exists_eq_add_of_le hle
  induction k generalizing l with
  | zero => exact Level.eq_of_rank hk ▸ h
  | succ k ih =>
    have hne : l ≠ .atom := by
      rintro rfl
      have hmax := g.rank_le_atom
      omega
    have hrank := Level.rank_operand hne
    exact (ih (by omega) (by omega)).of_operand

theorem Extends.trans (h : Extends l a ts b us) (h' : Extends l b us e vs) :
    Extends l a ts e vs := by
  induction h using Extends.rec (motive_1 := fun _ _ _ _ _ => True)
      (motive_3 := fun _ _ _ _ _ _ => True) (motive_4 := fun _ _ _ _ => True) with
  | done => exact h'
  | same hread _ _ ih => exact .same hread (ih h')
  | notSame hread _ _ ih => exact .notSame hread (ih h')
  | instanceOf ht _ ih => exact .instanceOf ht (ih h')
  | field hn _ ih => exact .field hn (ih h')
  | call hm has _ _ ih => exact .call hm has (ih h')
  | _ => trivial

theorem Reads.extend (h : Reads .primary ts a us) (h' : Extends .primary a us e vs) :
    Reads .primary ts e vs := by
  cases h with
  | primary hread hextends => exact .primary hread (hextends.trans h')

theorem tokens_name {n : String} (hn : IsName n) (hrest : WordBreak rest) :
    tokens (n.toList ++ rest) = .word n :: tokens rest := by
  rw [tokens_word hn.nonempty hn.word hrest,String.ofList_toList]

end Reading

/-- A text is read as an expression, whatever stands behind it. -/
def ReadsAs (l : Level) (text : String) (e : Expr) : Prop :=
  ∀ rest, WordBreak rest → Reads l (tokens (text.toList ++ rest)) e (tokens rest)

section ReadsAs

variable {l g : Level} {e : Expr} {es : List Expr} {text : String} {rest : List Char}

theorem tokens_open : tokens ("(".toList ++ rest) = .sign "(" :: tokens rest :=
  tokens_single (c := '(') rfl rfl (fun _ => by simp [isDouble])

theorem tokens_close : tokens (")".toList ++ rest) = .sign ")" :: tokens rest :=
  tokens_single (c := ')') rfl rfl (fun _ => by simp [isDouble])

theorem tokens_dot : tokens (".".toList ++ rest) = .sign "." :: tokens rest :=
  tokens_single (c := '.') rfl rfl (fun _ => by simp [isDouble])

theorem tokens_diamond : tokens ("<>".toList ++ rest) = .sign "<" :: .sign ">" :: tokens rest := by
  have hopen : tokens ('<' :: '>' :: rest) = .sign "<" :: tokens ('>' :: rest) :=
    tokens_single rfl rfl (fun _ => by simp [isDouble])
  have hclose : tokens ('>' :: rest) = .sign ">" :: tokens rest :=
    tokens_single rfl rfl (fun _ => by simp [isDouble])
  exact hopen.trans (congrArg _ hclose)

theorem wordBreak_open : WordBreak ("(".toList ++ rest) :=
  wordBreak_cons rfl

theorem wordBreak_close : WordBreak (")".toList ++ rest) :=
  wordBreak_cons rfl

theorem wordBreak_diamond : WordBreak ("<>".toList ++ rest) :=
  wordBreak_cons rfl

theorem ReadsAs.loosen (h : ReadsAs g text e) (hle : l.rank ≤ g.rank) : ReadsAs l text e :=
  fun rest hrest => (h rest hrest).loosen hle

theorem ReadsAs.parentheses (h : ReadsAs .disjunction text e) :
    ReadsAs .atom ("(" ++ text ++ ")") e := by
  intro rest hrest
  have hread := h (")".toList ++ rest) wordBreak_close
  rw [tokens_close] at hread
  rw [String.toList_append,String.toList_append,List.append_assoc,List.append_assoc,tokens_open]
  exact .parentheses hread

/-- An operand is read as it stands, or in the parentheses it was given: those keep out what
binds like the operators of level `l`. -/
theorem ReadsAs.operand {least : Nat} (h : ReadsAs e.grade text e) (hl : l.binding < least) :
    ReadsAs l.operand (e.asOperand least text) e := by
  rw [Expr.asOperand,Expr.level_eq]
  split
  case isTrue =>
    have hinner : ReadsAs .disjunction text e := h.loosen (Nat.zero_le _)
    exact hinner.parentheses.loosen l.operand.rank_le_atom
  case isFalse hbound =>
    have hrank := Level.rank_lt_of_binding_lt (Nat.lt_of_lt_of_le hl (Nat.le_of_not_lt hbound))
    exact h.loosen (Nat.le_trans l.rank_operand_le hrank)

theorem toList_join_cons (sep s : String) (ss : List String) :
    (join sep (s :: ss)).toList = s.toList ++ ss.flatMap (fun t => sep.toList ++ t.toList) := by
  induction ss generalizing s with
  | nil => simp [join]
  | cons t ss ih => simp [join,ih]

/-- How operands are separated: by a sign, and by nothing that could belong to a word. -/
structure Separates (sep : String) (sign : String) : Prop where
  tokens_append : ∀ rest, tokens (sep.toList ++ rest) = .sign sign :: tokens rest
  wordBreak : ∀ rest, WordBreak (sep.toList ++ rest)

theorem separates_and : Separates " && " "&&" :=
  ⟨fun _ => tokens_spaced rfl rfl rfl,fun _ => wordBreak_cons rfl⟩

theorem separates_or : Separates " || " "||" :=
  ⟨fun _ => tokens_spaced rfl rfl rfl,fun _ => wordBreak_cons rfl⟩

theorem separates_same : Separates " == " "==" :=
  ⟨fun _ => tokens_spaced rfl rfl rfl,fun _ => wordBreak_cons rfl⟩

theorem separates_notSame : Separates " != " "!=" :=
  ⟨fun _ => tokens_spaced rfl rfl rfl,fun _ => wordBreak_cons rfl⟩

theorem separates_comma : Separates ", " "," := by
  refine ⟨fun rest => ?_,fun _ => wordBreak_cons rfl⟩
  have hcomma : tokens (',' :: ' ' :: rest) = .sign "," :: tokens (' ' :: rest) :=
    tokens_single rfl rfl (fun _ => by simp [isDouble])
  rw [tokens_space] at hcomma
  exact hcomma

theorem Separates.readsMore {sep sign : String} {f : Expr → String} (hsep : Separates sep sign)
    (h : ∀ e ∈ es, ReadsAs l (f e) e) (hrest : WordBreak rest) :
    WordBreak ((es.map f).flatMap (fun t => sep.toList ++ t.toList) ++ rest) ∧
      ReadsMore sign l (tokens ((es.map f).flatMap (fun t => sep.toList ++ t.toList) ++ rest)) es
        (tokens rest) := by
  induction es with
  | nil => exact ⟨hrest,.nil⟩
  | cons e es ih =>
    obtain ⟨hbreak,hmore⟩ := ih (fun a ha => h a (List.mem_cons_of_mem e ha))
    have hread := h e List.mem_cons_self _ hbreak
    rw [List.map_cons,List.flatMap_cons,List.append_assoc,List.append_assoc,hsep.tokens_append]
    exact ⟨hsep.wordBreak _,.cons hread hmore⟩

/-- The operands of a chain, one behind the other. -/
theorem Separates.reads_join {sep sign : String} {f : Expr → String} (hsep : Separates sep sign)
    (h : ∀ a ∈ e :: es, ReadsAs l (f a) a) (hrest : WordBreak rest) :
    ∃ us, Reads l (tokens ((join sep ((e :: es).map f)).toList ++ rest)) e us ∧
      ReadsMore sign l us es (tokens rest) := by
  obtain ⟨hbreak,hmore⟩ := hsep.readsMore (fun a ha => h a (List.mem_cons_of_mem e ha)) hrest
  have hread := h e List.mem_cons_self _ hbreak
  rw [List.map_cons,toList_join_cons,List.append_assoc]
  exact ⟨_,hread,hmore⟩

theorem renderAll_eq (es : List Expr) : renderAll es = es.map Expr.render := by
  induction es with
  | nil => rfl
  | cons e es ih => rw [renderAll,ih,List.map_cons]

theorem renderOperands_eq (least : Nat) (es : List Expr) :
    renderOperands least es = es.map (fun e => e.asOperand least e.render) := by
  induction es with
  | nil => rfl
  | cons e es ih => rw [renderOperands,ih,List.map_cons]

theorem ends_nil {l : Level} : Ends l [] := by
  simp [Ends]

theorem exists_cons_cons (h : 2 ≤ es.length) : ∃ a b as, es = a :: b :: as := by
  match es, h with
  | a :: b :: as, _ => exact ⟨a,b,as,rfl⟩

/-- The arguments of a call, up to its closing parenthesis. -/
theorem readsArguments (h : ∀ a ∈ es, ReadsAs .disjunction a.render a) :
    ReadsArguments (tokens ((join ", " (renderAll es)).toList ++ (")".toList ++ rest))) es
      (.sign ")" :: tokens rest) := by
  rw [← tokens_close,renderAll_eq]
  cases es with
  | nil => exact .none
  | cons e es =>
    obtain ⟨us,hread,hmore⟩ := separates_comma.reads_join h wordBreak_close
    exact .some hread hmore

theorem IsDotted.reads {t : String} (h : IsDotted t) (hrest : WordBreak rest) :
    ReadsDotted (tokens (t.toList ++ rest)) t (tokens rest) := by
  induction h with
  | name hn =>
    rw [tokens_name hn hrest]
    exact .name hn
  | @dot n t hn _ ih =>
    have hdot : WordBreak (".".toList ++ (t.toList ++ rest)) := wordBreak_cons rfl
    rw [String.toList_append,String.toList_append,List.append_assoc,List.append_assoc,
      tokens_name hn hdot,tokens_dot]
    exact .dot hn ih

/-- A text that begins with an equals sign gives a token that does. -/
theorem head_tokens_equals (rest : List Char) :
    ∃ s ∈ ["=","=="], (tokens ('=' :: rest)).head? = some (.sign s) := by
  have hend : endsWord '=' = true := rfl
  have hblank : isBlank '=' = false := rfl
  cases rest with
  | nil => exact ⟨"=",by simp,by rw [tokens_sign hend hblank (by simp)]; rfl⟩
  | cons d ds =>
    by_cases hdouble : isDouble '=' d = true
    · have hd : d = '=' := by simpa [isDouble] using hdouble
      subst hd
      exact ⟨"==",by simp,by rw [tokens_double hend hblank hdouble]; rfl⟩
    · have hsingle : ∀ c ∈ (d :: ds).head?, isDouble '=' c = false := by
        rintro c hc
        cases hc
        simpa using hdouble
      exact ⟨"=",by simp,by rw [tokens_sign hend hblank hsingle]; rfl⟩

/-- No phrase begins with an equals sign, so the sign of a negation stays by itself. -/
theorem tokens_not {l : Level} {cs : List Char} (h : Reads l (tokens cs) e us) :
    tokens ("!".toList ++ cs) = .sign "!" :: tokens cs := by
  have hsingle : ∀ d ∈ cs.head?, isDouble '!' d = false := by
    intro d hd
    rw [Bool.eq_false_iff]
    intro hdouble
    obtain rfl : d = '=' := by simpa [isDouble] using hdouble
    obtain ⟨ds,rfl⟩ := List.head?_eq_some_iff.mp hd
    obtain ⟨s,hs,hhead⟩ := head_tokens_equals ds
    have hstart := h.head_sign hhead
    clear hhead
    revert s
    decide
  exact tokens_sign rfl rfl hsingle

theorem tokens_reserved {w : String} (hw : w ∈ reserved) (hrest : WordBreak rest) :
    tokens (w.toList ++ rest) = .word w :: tokens rest := by
  have hwords : reserved.all (fun w => w.toList.all (fun c => !endsWord c)) = true := by decide
  have hne : ∀ w ∈ reserved, w.toList ≠ [] := by decide
  have hword : ∀ c ∈ w.toList, endsWord c = false := by
    simpa using List.all_eq_true.mp hwords w hw
  rw [tokens_word (hne w hw) hword hrest,String.ofList_toList]

theorem tokens_new : tokens ("new ".toList ++ rest) = .word "new" :: tokens rest := by
  have hblank : WordBreak (' ' :: rest) := wordBreak_cons rfl
  have hnew := tokens_reserved (w := "new") (by decide) hblank
  rw [tokens_space] at hnew
  exact hnew

theorem tokens_instanceOf :
    tokens (" instanceof ".toList ++ rest) = .word "instanceof" :: tokens rest := by
  have hblank : WordBreak (' ' :: rest) := wordBreak_cons rfl
  have hword := tokens_reserved (w := "instanceof") (by decide) hblank
  rw [tokens_space] at hword
  exact tokens_space.trans hword

theorem readsAs_var {n : String} (hn : IsName n) : ReadsAs .atom n (.var n) := by
  intro rest hrest
  rw [tokens_name hn hrest]
  exact .var hn

theorem readsAs_literal {w : String} (hw : w ∈ reserved) (h : Expr.literals.lookup w = some e) :
    ReadsAs .atom w e := by
  intro rest hrest
  rw [tokens_reserved hw hrest]
  exact .literal h

/-- What stands before a dot. -/
theorem reads_receiver (h : ReadsAs e.grade e.render e) (cs : List Char) :
    Reads .primary (tokens ((e.asOperand 16 e.render).toList ++ (".".toList ++ cs))) e
      (.sign "." :: tokens cs) := by
  have hreceiver : ReadsAs .primary (e.asOperand 16 e.render) e :=
    h.operand (l := .unary) (by decide)
  rw [← tokens_dot]
  exact hreceiver _ (wordBreak_cons rfl)

/-- The left side of a comparison, and then the right one. -/
theorem reads_compared {op sign : String} {a b : Expr} (hop : Separates op sign)
    (ha : ReadsAs a.grade a.render a) (hb : ReadsAs b.grade b.render b) (hrest : WordBreak rest) :
    ∃ us, Reads .relation
        (tokens ((a.asOperand 10 a.render ++ op ++ b.asOperand 10 b.render).toList ++ rest)) a
        (.sign sign :: us) ∧ Reads .relation us b (tokens rest) := by
  have hleft : ReadsAs .relation (a.asOperand 10 a.render) a :=
    ha.operand (l := .equality) (by decide)
  have hright : ReadsAs .relation (b.asOperand 10 b.render) b :=
    hb.operand (l := .equality) (by decide)
  have hread := hleft _ (hop.wordBreak ((b.asOperand 10 b.render).toList ++ rest))
  rw [hop.tokens_append] at hread
  simp only [String.toList_append,List.append_assoc]
  exact ⟨_,hread,hright rest hrest⟩

theorem readsAs_field {n : String} (hn : IsName n) (h : ReadsAs e.grade e.render e) :
    ReadsAs .primary (Expr.field e n).render (.field e n) := by
  intro rest hrest
  have htext : (Expr.field e n).render = e.asOperand 16 e.render ++ "." ++ n := rfl
  simp only [htext,String.toList_append,List.append_assoc]
  refine (reads_receiver h _).extend ?_
  rw [tokens_name hn hrest]
  exact .field hn .done

theorem readsAs_call {m : String} (hm : IsName m) (h : ReadsAs e.grade e.render e)
    (hes : ∀ a ∈ es, ReadsAs .disjunction a.render a) :
    ReadsAs .primary (Expr.call e m es).render (.call e m es) := by
  intro rest hrest
  have htext : (Expr.call e m es).render =
      e.asOperand 16 e.render ++ "." ++ m ++ "(" ++ join ", " (renderAll es) ++ ")" := rfl
  simp only [htext,String.toList_append,List.append_assoc]
  refine (reads_receiver h _).extend ?_
  rw [tokens_name hm wordBreak_open,tokens_open]
  exact .call hm (readsArguments hes) .done

theorem readsAs_callBare {m : String} (hm : IsName m)
    (hes : ∀ a ∈ es, ReadsAs .disjunction a.render a) :
    ReadsAs .atom (Expr.callBare m es).render (.callBare m es) := by
  intro rest hrest
  have htext : (Expr.callBare m es).render = m ++ "(" ++ join ", " (renderAll es) ++ ")" := rfl
  simp only [htext,String.toList_append,List.append_assoc]
  rw [tokens_name hm wordBreak_open,tokens_open]
  exact .callBare hm (readsArguments hes)

theorem readsAs_create {t : String} (ht : IsCreated t)
    (hes : ∀ a ∈ es, ReadsAs .disjunction a.render a) :
    ReadsAs .atom (Expr.create t es).render (.create t es) := by
  intro rest hrest
  have htext : (Expr.create t es).render =
      "new " ++ t ++ "(" ++ join ", " (renderAll es) ++ ")" := rfl
  simp only [htext,String.toList_append,List.append_assoc]
  rw [tokens_new]
  cases ht with
  | plain ht =>
    refine .create ?_ (readsArguments hes)
    rw [← tokens_open]
    exact ht.reads wordBreak_open
  | diamond ht =>
    refine .createDiamond ?_ (readsArguments hes)
    rw [← tokens_open,← tokens_diamond,String.toList_append,List.append_assoc]
    exact ht.reads wordBreak_diamond

theorem readsAs_same {a b : Expr} (ha : ReadsAs a.grade a.render a)
    (hb : ReadsAs b.grade b.render b) : ReadsAs .equality (Expr.same a b).render (.same a b) := by
  intro rest hrest
  obtain ⟨us,hleft,hright⟩ := reads_compared separates_same ha hb hrest
  exact .equality hleft (.same hright .done)

theorem readsAs_notSame {a b : Expr} (ha : ReadsAs a.grade a.render a)
    (hb : ReadsAs b.grade b.render b) :
    ReadsAs .equality (Expr.notSame a b).render (.notSame a b) := by
  intro rest hrest
  obtain ⟨us,hleft,hright⟩ := reads_compared separates_notSame ha hb hrest
  exact .equality hleft (.notSame hright .done)

theorem readsAs_not (h : ReadsAs e.grade e.render e) :
    ReadsAs .unary (Expr.not e).render (.not e) := by
  intro rest hrest
  have hoperand : ReadsAs .unary (e.asOperand 14 e.render) e :=
    h.operand (l := .relation) (by decide)
  have hread := hoperand rest hrest
  have htext : (Expr.not e).render = "!" ++ e.asOperand 14 e.render := rfl
  rw [htext,String.toList_append,List.append_assoc,tokens_not hread]
  exact .not hread

theorem readsAs_instanceOf {t : String} (ht : IsDotted t) (h : ReadsAs e.grade e.render e) :
    ReadsAs .relation (Expr.instanceOf e t).render (.instanceOf e t) := by
  intro rest hrest
  have hoperand : ReadsAs .unary (e.asOperand 11 e.render) e :=
    h.operand (l := .relation) (by decide)
  have hread := hoperand (" instanceof ".toList ++ (t.toList ++ rest)) (wordBreak_cons rfl)
  rw [tokens_instanceOf] at hread
  have htext : (Expr.instanceOf e t).render =
      e.asOperand 11 e.render ++ " instanceof " ++ t := rfl
  simp only [htext,String.toList_append,List.append_assoc]
  exact .relation hread (.instanceOf (ht.reads hrest) .done)

theorem readsAs_and (hlength : 2 ≤ es.length) (h : ∀ e ∈ es, ReadsAs e.grade e.render e) :
    ReadsAs .conjunction (Expr.and es).render (.and es) := by
  intro rest hrest
  obtain ⟨a,b,es,rfl⟩ := exists_cons_cons hlength
  have hoperands : ∀ e ∈ a :: b :: es, ReadsAs .equality (e.asOperand 5 e.render) e :=
    fun e he => (h e he).operand (l := .conjunction) (by decide)
  obtain ⟨us,hread,hmore⟩ := separates_and.reads_join hoperands hrest
  have htext : (Expr.and (a :: b :: es)).render =
      join " && " (renderOperands 5 (a :: b :: es)) := rfl
  rw [htext,renderOperands_eq]
  exact .conjunction hread hmore

theorem readsAs_or (hlength : 2 ≤ es.length) (h : ∀ e ∈ es, ReadsAs e.grade e.render e) :
    ReadsAs .disjunction (Expr.or es).render (.or es) := by
  intro rest hrest
  obtain ⟨a,b,es,rfl⟩ := exists_cons_cons hlength
  have hoperands : ∀ e ∈ a :: b :: es, ReadsAs .conjunction (e.asOperand 4 e.render) e :=
    fun e he => (h e he).operand (l := .disjunction) (by decide)
  obtain ⟨us,hread,hmore⟩ := separates_or.reads_join hoperands hrest
  have htext : (Expr.or (a :: b :: es)).render =
      join " || " (renderOperands 4 (a :: b :: es)) := rfl
  rw [htext,renderOperands_eq]
  exact .disjunction hread hmore

/-- What is printed is read as it was, at the level of its outermost operator. -/
theorem Expr.WellFormed.readsAs (h : e.WellFormed) : ReadsAs e.grade e.render e := by
  induction h with
  | this | null => exact readsAs_literal (by decide) rfl
  | @bool b => cases b <;> exact readsAs_literal (by decide) rfl
  | var hn => exact readsAs_var hn
  | field _ hn ih => exact readsAs_field hn ih
  | call _ hm _ ih ihs => exact readsAs_call hm ih (fun a ha => (ihs a ha).loosen (Nat.zero_le _))
  | callBare hm _ ihs => exact readsAs_callBare hm (fun a ha => (ihs a ha).loosen (Nat.zero_le _))
  | create ht _ ihs => exact readsAs_create ht (fun a ha => (ihs a ha).loosen (Nat.zero_le _))
  | same _ _ iha ihb => exact readsAs_same iha ihb
  | notSame _ _ iha ihb => exact readsAs_notSame iha ihb
  | not _ ih => exact readsAs_not ih
  | and hlength _ ihs => exact readsAs_and hlength ihs
  | or hlength _ ihs => exact readsAs_or hlength ihs
  | instanceOf _ ht ih => exact readsAs_instanceOf ht ih

/-- The printed text has one grouping, and it is the tree that was printed. -/
theorem Expr.WellFormed.reads_iff {e' : Expr} (h : e.WellFormed) :
    Reads .disjunction (tokens e.render.toList) e' [] ↔ e' = e := by
  have hread := h.readsAs.loosen (l := .disjunction) (Nat.zero_le _) [] wordBreak_nil
  rw [List.append_nil,tokens_nil] at hread
  refine ⟨fun hread' => ?_,fun heq => heq ▸ hread⟩
  exact (hread'.unique hread ends_nil ends_nil).1

theorem Expr.WellFormed.eq_of_render {e' : Expr} (h : e.WellFormed) (h' : e'.WellFormed)
    (htext : e.render = e'.render) : e = e' :=
  h'.reads_iff.mp (htext ▸ h.reads_iff.mpr rfl)

end ReadsAs

/-- A text on one line that does not begin with a space. -/
structure Inline (text : String) : Prop where
  head : ∃ c cs, text.toList = c :: cs ∧ c ≠ ' '
  unbroken : '\n' ∉ text.toList

section Inline

variable {s t : String} {e : Expr}

theorem Inline.append (hs : Inline s) (ht : '\n' ∉ t.toList) : Inline (s ++ t) := by
  obtain ⟨c,cs,hcs,hc⟩ := hs.head
  refine ⟨⟨c,cs ++ t.toList,?_,hc⟩,?_⟩
  · rw [String.toList_append,hcs,List.cons_append]
  · simp [hs.unbroken,ht]

theorem unbroken_append (hs : '\n' ∉ s.toList) (ht : '\n' ∉ t.toList) :
    '\n' ∉ (s ++ t).toList := by
  simp [hs,ht]

theorem unbroken_join {sep : String} {ss : List String} (hsep : '\n' ∉ sep.toList)
    (h : ∀ s ∈ ss, '\n' ∉ s.toList) : '\n' ∉ (join sep ss).toList := by
  cases ss with
  | nil => simp [join]
  | cons s ss =>
    rw [toList_join_cons]
    intro hmem
    rcases List.mem_append.mp hmem with hfirst | hmore
    · exact h s List.mem_cons_self hfirst
    · obtain ⟨t,ht,hmem⟩ := List.mem_flatMap.mp hmore
      rcases List.mem_append.mp hmem with hmem | hmem
      · exact hsep hmem
      · exact h t (List.mem_cons_of_mem s ht) hmem

theorem Inline.join {sep : String} {ss : List String} (hs : Inline s) (hsep : '\n' ∉ sep.toList)
    (h : ∀ t ∈ ss, '\n' ∉ t.toList) : Inline (join sep (s :: ss)) := by
  obtain ⟨c,cs,hcs,hc⟩ := hs.head
  have htext := toList_join_cons sep s ss
  rw [hcs,List.cons_append] at htext
  exact ⟨⟨c,_,htext,hc⟩,unbroken_join hsep (List.forall_mem_cons.mpr ⟨hs.unbroken,h⟩)⟩

theorem IsName.inline {n : String} (hn : IsName n) : Inline n := by
  obtain ⟨c,cs,hcs⟩ := List.exists_cons_of_ne_nil hn.nonempty
  have hword := hn.word
  refine ⟨⟨c,cs,hcs,?_⟩,fun hmem => absurd (hword _ hmem) (by decide)⟩
  rintro rfl
  exact absurd (hword ' ' (hcs ▸ List.mem_cons_self)) (by decide)

theorem IsDotted.inline {t : String} (ht : IsDotted t) : Inline t := by
  induction ht with
  | name hn => exact hn.inline
  | dot hn _ ih => exact (hn.inline.append (by decide)).append ih.unbroken

theorem IsCreated.unbroken {t : String} (ht : IsCreated t) : '\n' ∉ t.toList := by
  cases ht with
  | plain ht => exact ht.inline.unbroken
  | diamond ht => exact unbroken_append ht.inline.unbroken (by decide)

theorem Inline.operand {least : Nat} (h : Inline s) : Inline (e.asOperand least s) := by
  rw [Expr.asOperand]
  split
  · have hopen : Inline "(" := ⟨⟨'(',[],rfl,by decide⟩,by decide⟩
    exact (hopen.append h.unbroken).append (by decide)
  · exact h

theorem unbroken_arguments {es : List Expr} (h : ∀ e ∈ es, Inline e.render) :
    '\n' ∉ (join ", " (renderAll es)).toList := by
  rw [renderAll_eq]
  refine unbroken_join (by decide) (fun t ht => ?_)
  obtain ⟨e,he,rfl⟩ := List.mem_map.mp ht
  exact (h e he).unbroken

theorem inline_operands {sep : String} {least : Nat} {es : List Expr} (hsep : '\n' ∉ sep.toList)
    (hlength : 2 ≤ es.length) (h : ∀ e ∈ es, Inline e.render) :
    Inline (join sep (renderOperands least es)) := by
  obtain ⟨a,b,es,rfl⟩ := exists_cons_cons hlength
  rw [renderOperands_eq]
  refine (h a List.mem_cons_self).operand.join hsep (fun t ht => ?_)
  obtain ⟨e,he,rfl⟩ := List.mem_map.mp ht
  exact (h e (List.mem_cons_of_mem a he)).operand.unbroken

/-- An expression stands on one line. -/
theorem Expr.WellFormed.inline (h : e.WellFormed) : Inline e.render := by
  induction h with
  | this => exact ⟨⟨'t',_,rfl,by decide⟩,by decide⟩
  | null => exact ⟨⟨'n',_,rfl,by decide⟩,by decide⟩
  | @bool b =>
    cases b with
    | false => exact ⟨⟨'f',_,rfl,by decide⟩,by decide⟩
    | true => exact ⟨⟨'t',_,rfl,by decide⟩,by decide⟩
  | var hn => exact hn.inline
  | field _ hn ih => exact (ih.operand.append (by decide)).append hn.inline.unbroken
  | @call e m as _ hm _ ih ihs =>
    have hreceiver : Inline (e.asOperand 16 e.render ++ "." ++ m) :=
      (ih.operand.append (by decide)).append hm.inline.unbroken
    exact ((hreceiver.append (by decide)).append (unbroken_arguments ihs)).append (by decide)
  | callBare hm _ ihs =>
    exact ((hm.inline.append (by decide)).append (unbroken_arguments ihs)).append (by decide)
  | create ht _ ihs =>
    have hnew : Inline "new " := ⟨⟨'n',_,rfl,by decide⟩,by decide⟩
    have hclass := hnew.append ht.unbroken
    exact ((hclass.append (by decide)).append (unbroken_arguments ihs)).append (by decide)
  | same _ _ iha ihb | notSame _ _ iha ihb =>
    exact (iha.operand.append (by decide)).append ihb.operand.unbroken
  | not _ ih =>
    have hnot : Inline "!" := ⟨⟨'!',[],rfl,by decide⟩,by decide⟩
    exact hnot.append ih.operand.unbroken
  | and hlength _ ihs | or hlength _ ihs => exact inline_operands (by decide) hlength ihs
  | instanceOf _ ht ih => exact (ih.operand.append (by decide)).append ht.inline.unbroken

end Inline

end EntityLink.Java
