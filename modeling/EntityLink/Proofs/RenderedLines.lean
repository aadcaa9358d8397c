import EntityLink.Proofs.RenderedExpressions

namespace EntityLink.Java
open Text

/-- A type: a dotted name, alone or with generic arguments. -/
inductive IsType : String → Prop
  | plain {t : String} : IsDotted t → IsType t
  | generic {t as : String} : IsDotted t → (∀ c ∈ as.toList, c ∉ ['=',':','\n']) →
      IsType (t ++ "<" ++ as ++ ">")

/-- What can be assigned to. -/
inductive IsTarget : Expr → Prop
  | var {n : String} : IsName n → IsTarget (.var n)
  | field {e : Expr} {n : String} : e.WellFormed → IsName n → IsTarget (.field e n)

/-- What stands on one line of a block. -/
inductive Line
  | branch (condition : Expr)
  | loop (type name : String) (iterable : Expr)
  | leave
  | give (value : Expr)
  | assign (target value : Expr)
  | declare (type name : String) (value : Expr)
  | eval (expr : Expr)
  | comment (text : String)
  | otherwise
  | close

namespace Line

def text : Line → String
  | branch c => "if (" ++ c.render ++ ") \x7b"
  | loop t n e => "for (" ++ t ++ " " ++ n ++ " : " ++ e.render ++ ") \x7b"
  | leave => "return;"
  | give e => "return " ++ e.render ++ ";"
  | assign t v => t.render ++ " = " ++ v.render ++ ";"
  | declare t n v => t ++ " " ++ n ++ " = " ++ v.render ++ ";"
  | eval e => e.render ++ ";"
  | comment s => "// " ++ s
  | otherwise => "\x7d else \x7b"
  | close => "\x7d"

inductive WellFormed : Line → Prop
  | branch {c} : c.WellFormed → (branch c).WellFormed
  | loop {t n e} : IsType t → IsName n → e.WellFormed → (loop t n e).WellFormed
  | leave : leave.WellFormed
  | give {e} : e.WellFormed → (give e).WellFormed
  | assign {t v} : IsTarget t → v.WellFormed → (assign t v).WellFormed
  | declare {t n v} : IsType t → IsName n → v.WellFormed → (declare t n v).WellFormed
  | eval {e} : e.WellFormed → (eval e).WellFormed
  | comment {s} : '\n' ∉ s.toList → (comment s).WellFormed
  | otherwise : otherwise.WellFormed
  | close : close.WellFormed

end Line

theorem IsType.inline {t : String} (ht : IsType t) : Inline t := by
  cases ht with
  | plain ht => exact ht.inline
  | generic ht has =>
    refine ((ht.inline.append (by decide)).append ?_).append (by decide)
    exact fun hmem => has _ hmem (by decide)

/-- The kinds of lines that their tokens tell apart. -/
inductive Form
  | comment
  | closing
  | branch
  | loop
  | leaving
  | eval
  | assign
  | declare
  deriving DecidableEq, Repr

namespace Form

/-- The form that the first token tells. -/
def opener? : Token → Option Form
  | .sign "/" => some comment
  | .sign "\x7d" => some closing
  | .word "if" => some branch
  | .word "for" => some loop
  | .word "return" => some leaving
  | _ => none

/-- The form of a line. What is assigned to is one name or ends in a field, so there is nothing
or a dot before its last name, where a declaration has its type. -/
def ofTokens (ts : List Token) : Form :=
  match ts.head?.bind opener? with
  | some f => f
  | none =>
    if .sign "=" ∉ ts then eval
    else if (ts.takeWhile (· ≠ .sign "=")).dropLast.getLast? ∈ [none,some (.sign ".")] then assign
    else declare

variable {f : Form} {x : Token} {ts xs ys : List Token}

theorem ofTokens_opener (h : ts.head?.bind opener? = some f) : ofTokens ts = f := by
  rw [ofTokens,h]

theorem ofTokens_eval (h : ts.head?.bind opener? = none) (hts : .sign "=" ∉ ts) :
    ofTokens ts = eval := by
  rw [ofTokens,h]
  simp [hts]

/-- What stands before the equals sign. -/
theorem takeWhile_unassigned (hxs : .sign "=" ∉ xs) :
    (xs ++ .sign "=" :: ys).takeWhile (· ≠ .sign "=") = xs := by
  have hall : ∀ x ∈ xs, decide (x ≠ Token.sign "=") = true := by
    intro x hx
    refine decide_eq_true (fun heq => hxs ?_)
    rwa [← heq]
  rw [List.takeWhile_append_of_pos hall,List.takeWhile_cons_of_neg (by simp),List.append_nil]

theorem ofTokens_assign (h : (xs ++ .sign "=" :: ys).head?.bind opener? = none)
    (hxs : .sign "=" ∉ xs) (hlast : xs.dropLast.getLast? ∈ [none,some (.sign ".")]) :
    ofTokens (xs ++ .sign "=" :: ys) = assign := by
  rw [ofTokens,h,takeWhile_unassigned hxs,if_pos hlast]
  simp

theorem ofTokens_declare (h : (xs ++ .sign "=" :: ys).head?.bind opener? = none)
    (hxs : .sign "=" ∉ xs) (hlast : xs.dropLast.getLast? ∉ [none,some (.sign ".")]) :
    ofTokens (xs ++ .sign "=" :: ys) = declare := by
  rw [ofTokens,h,takeWhile_unassigned hxs,if_neg hlast]
  simp

theorem opener?_word {w : String} (h : ∀ v ∈ ["if","for","return"], w ≠ v) :
    opener? (.word w) = none := by
  unfold opener?
  split <;> simp_all

theorem opener?_name {n : String} (hn : IsName n) : opener? (.word n) = none :=
  opener?_word (fun w hw => hn.ne_of_reserved (by revert w; decide))

end Form

/-- No expression begins as another form does. -/
theorem Reads.opener? {l : Level} {ts us : List Token} {e : Expr} (h : Reads l ts e us) :
    ts.head?.bind Form.opener? = none := by
  induction h using Reads.rec (motive_2 := fun _ _ _ _ _ _ => True)
      (motive_3 := fun _ _ _ _ _ _ => True) (motive_4 := fun _ _ _ _ => True) with
  | disjunction _ _ ih | conjunction _ _ ih | equality _ _ ih | relation _ _ ih | unary _ ih
    | primary _ _ ih => exact ih
  | not | create | createDiamond | parentheses => rfl
  | @literal w e us hw =>
    refine Form.opener?_word (fun v hv heq => ?_)
    have hnone : ∀ v ∈ ["if","for","return"], Expr.literals.lookup v = none := by
      simp [Expr.literals,List.lookup_cons]
    rw [heq,hnone v hv] at hw
    cases hw
  | var hn | callBare hn => exact Form.opener?_name hn
  | _ => trivial

section Typed

variable {t n : String} {ts us : List Token} {rest : List Char}

theorem ReadsDotted.split (h : ReadsDotted ts t us) :
    ts.head?.bind Form.opener? = none ∧ ∃ xs m, ts = xs ++ .word m :: us ∧ .sign "=" ∉ xs := by
  induction h with
  | @name n us hn => exact ⟨Form.opener?_name hn,[],n,rfl,List.not_mem_nil⟩
  | @dot n t ts us hn _ ih =>
    obtain ⟨_,xs,m,rfl,hxs⟩ := ih
    exact ⟨Form.opener?_name hn,.word n :: .sign "." :: xs,m,rfl,by simp [hxs]⟩

/-- Before a blank, a type ends in a token other than a dot. -/
theorem IsType.tokens_append (ht : IsType t) (rest : List Char) :
    (tokens (t.toList ++ ' ' :: rest)).head?.bind Form.opener? = none ∧
      ∃ xs x, tokens (t.toList ++ ' ' :: rest) = xs ++ x :: tokens rest ∧ .sign "=" ∉ xs ++ [x] ∧
        x ≠ .sign "." := by
  cases ht with
  | plain ht =>
    have hbreak : WordBreak (' ' :: rest) := wordBreak_cons rfl
    have hread := ht.reads hbreak
    rw [tokens_space] at hread
    obtain ⟨hopen,xs,m,hts,hxs⟩ := hread.split
    exact ⟨hopen,xs,.word m,hts,by simp [hxs],by simp⟩
  | @generic d as hd has =>
    have hangle : tokens ('<' :: (as.toList ++ '>' :: ' ' :: rest)) =
        .sign "<" :: (tokens as.toList ++ .sign ">" :: tokens rest) := by
      rw [tokens_single rfl rfl (fun _ => by simp [isDouble]),
        Java.tokens_append rfl (fun _ => isDouble_eq_false (by decide)),
        tokens_single rfl rfl (fun _ => by simp [isDouble]),tokens_space]
    have hbreak : WordBreak ('<' :: (as.toList ++ '>' :: ' ' :: rest)) := wordBreak_cons rfl
    have hread := hd.reads hbreak
    rw [hangle] at hread
    obtain ⟨hopen,xs,m,hts,hxs⟩ := hread.split
    have has' : .sign "=" ∉ tokens as.toList := not_mem_tokens (fun hmem => has _ hmem (by decide))
    have htext : (d ++ "<" ++ as ++ ">").toList ++ ' ' :: rest =
        d.toList ++ '<' :: (as.toList ++ '>' :: ' ' :: rest) := by
      simp
    rw [htext]
    refine ⟨hopen,xs ++ .word m :: .sign "<" :: tokens as.toList,.sign ">",?_,?_,by decide⟩
    · simp [hts]
    · simp [hxs,has']

end Typed

def Line.form : Line → Form
  | branch _ => .branch
  | loop .. => .loop
  | leave | give _ => .leaving
  | assign .. => .assign
  | declare .. => .declare
  | eval _ => .eval
  | comment _ => .comment
  | otherwise | close => .closing

section Lines

variable {l l' : Line}

theorem tokens_assign (rest : List Char) :
    tokens (" = ".toList ++ rest) = .sign "=" :: tokens rest := by
  have hequals : tokens ('=' :: ' ' :: rest) = .sign "=" :: tokens (' ' :: rest) :=
    tokens_sign rfl rfl (by simp [isDouble])
  rw [tokens_space] at hequals
  exact tokens_space.trans hequals

theorem wordBreak_assign (rest : List Char) : WordBreak (" = ".toList ++ rest) :=
  wordBreak_cons rfl

theorem tokens_end : tokens (";".toList ++ []) = [.sign ";"] := by
  have hend : tokens [';'] = .sign ";" :: tokens [] :=
    tokens_single rfl rfl (fun _ => by simp [isDouble])
  simpa using hend

theorem form_keyword {w : String} {f : Form} (hw : w ∈ reserved) (rest : List Char)
    (hbreak : WordBreak rest) (hf : Form.opener? (.word w) = some f) :
    Form.ofTokens (tokens (w.toList ++ rest)) = f := by
  rw [tokens_reserved hw hbreak]
  exact Form.ofTokens_opener hf

theorem form_sign {c : Char} {f : Form} (rest : List Char) (hend : endsWord c = true)
    (hblank : isBlank c = false) (hsingle : ∀ d, isDouble c d = false)
    (hf : Form.opener? (.sign (String.ofList [c])) = some f) :
    Form.ofTokens (tokens (c :: rest)) = f := by
  rw [tokens_single hend hblank hsingle]
  exact Form.ofTokens_opener hf

/-- A target is read up to its equals sign, before which there is one name or a field. -/
theorem IsTarget.reads {t : Expr} (ht : IsTarget t) (rest : List Char) :
    Reads .disjunction (tokens (t.render.toList ++ (" = ".toList ++ rest))) t
        (.sign "=" :: tokens rest) ∧
      ∃ xs, tokens (t.render.toList ++ (" = ".toList ++ rest)) = xs ++ .sign "=" :: tokens rest ∧
        .sign "=" ∉ xs ∧ xs.dropLast.getLast? ∈ [none,some (.sign ".")] := by
  have hbreak := wordBreak_assign rest
  cases ht with
  | @var n hn =>
    have hread := (readsAs_var hn).loosen (l := .disjunction) (Nat.zero_le _) _ hbreak
    rw [tokens_assign] at hread
    refine ⟨hread,[.word n],?_,by simp,by simp⟩
    rw [Expr.render,tokens_name hn hbreak,tokens_assign,List.singleton_append]
  | @field e n he hn =>
    have hread := (readsAs_field hn he.readsAs).loosen (l := .disjunction) (Nat.zero_le _) _ hbreak
    rw [tokens_assign] at hread
    have hreceiver := reads_receiver he.readsAs (n.toList ++ (" = ".toList ++ rest))
    obtain ⟨xs,hxs,hfree⟩ := hreceiver.unassigned
    rw [tokens_name hn hbreak,tokens_assign] at hxs
    refine ⟨hread,xs ++ [.sign ".",.word n],?_,by simp [hfree],by simp⟩
    simp only [Expr.render,String.toList_append,List.append_assoc,hxs]
    rfl

namespace Line

theorem toList_loop (t n : String) (e : Expr) : (loop t n e).text.toList =
    "for (".toList ++ (t.toList ++ ' ' :: (n.toList ++
      (" : ".toList ++ (e.render ++ ") \x7b").toList))) := by
  show ("for (" ++ t ++ " " ++ n ++ " : " ++ e.render ++ ") \x7b").toList = _
  simp

theorem toList_assign (t v : Expr) : (assign t v).text.toList =
    t.render.toList ++ (" = ".toList ++ (v.render ++ ";").toList) := by
  show (t.render ++ " = " ++ v.render ++ ";").toList = _
  simp

theorem toList_declare (t n : String) (v : Expr) : (declare t n v).text.toList =
    t.toList ++ ' ' :: (n.toList ++ (" = ".toList ++ (v.render ++ ";").toList)) := by
  show (t ++ " " ++ n ++ " = " ++ v.render ++ ";").toList = _
  simp

theorem form_assign {t v : Expr} (ht : IsTarget t) :
    Form.ofTokens (tokens (assign t v).text.toList) = (assign t v).form := by
  obtain ⟨hread,xs,hxs,hfree,hlast⟩ := ht.reads (v.render ++ ";").toList
  have hopen := hread.opener?
  rw [toList_assign,hxs]
  exact Form.ofTokens_assign (hxs ▸ hopen) hfree hlast

theorem form_declare {t n : String} {v : Expr} (ht : IsType t) (hn : IsName n) :
    Form.ofTokens (tokens (declare t n v).text.toList) = (declare t n v).form := by
  obtain ⟨hopen,xs,x,hxs,hfree,hx⟩ :=
    ht.tokens_append (n.toList ++ (" = ".toList ++ (v.render ++ ";").toList))
  rw [tokens_name hn (wordBreak_assign _),tokens_assign] at hxs
  have hsplit : xs ++ x :: .word n :: .sign "=" :: tokens (v.render ++ ";").toList =
      (xs ++ [x,.word n]) ++ .sign "=" :: tokens (v.render ++ ";").toList := by
    simp
  rw [toList_declare,hxs,hsplit]
  refine Form.ofTokens_declare ?_ ?_ ?_
  · rw [← hsplit,← hxs]
    exact hopen
  · simpa using hfree
  · simp [hx]

theorem form_eval {e : Expr} (he : e.WellFormed) :
    Form.ofTokens (tokens (eval e).text.toList) = (eval e).form := by
  have htext : (eval e).text.toList = e.render.toList ++ (";".toList ++ []) := by
    rw [List.append_nil,← String.toList_append]
    rfl
  have hread := he.readsAs (";".toList ++ []) (wordBreak_cons rfl)
  obtain ⟨xs,hxs,hfree⟩ := hread.unassigned
  rw [htext]
  refine Form.ofTokens_eval hread.opener? ?_
  rw [hxs,tokens_end]
  simp [hfree]

/-- The form of a line is read off its text. -/
theorem form_text (h : l.WellFormed) : Form.ofTokens (tokens l.text.toList) = l.form := by
  cases h with
  | @branch c hc =>
    have htext : (branch c).text.toList =
        "if".toList ++ ' ' :: '(' :: (c.render ++ ") \x7b").toList := by
      simp [text]
    rw [htext]
    exact form_keyword (by decide) _ (wordBreak_cons rfl) rfl
  | @loop t n e =>
    rw [toList_loop]
    exact form_keyword (w := "for") (by decide) (' ' :: '(' :: _) (wordBreak_cons rfl) rfl
  | leave => exact form_keyword (w := "return") (by decide) ";".toList (wordBreak_cons rfl) rfl
  | @give e he =>
    have htext : (give e).text.toList = "return".toList ++ ' ' :: (e.render ++ ";").toList := by
      simp [text]
    rw [htext]
    exact form_keyword (by decide) _ (wordBreak_cons rfl) rfl
  | assign ht => exact form_assign ht
  | declare ht hn => exact form_declare ht hn
  | eval he => exact form_eval he
  | @comment s hs =>
    have htext : (comment s).text.toList = '/' :: '/' :: ' ' :: s.toList := by
      simp [text]
    rw [htext]
    exact form_sign _ rfl rfl (fun _ => by simp [isDouble]) rfl
  | otherwise => exact form_sign (c := '\x7d') _ rfl rfl (fun _ => by simp [isDouble]) rfl
  | close => exact form_sign (c := '\x7d') _ rfl rfl (fun _ => by simp [isDouble]) rfl

end Line

/-- The first place where a character stands cuts a text in one way. -/
theorem eq_of_append_cons {c : Char} {xs xs' us us' : List Char} (hxs : c ∉ xs) (hxs' : c ∉ xs')
    (h : xs ++ c :: us = xs' ++ c :: us') : xs = xs' ∧ us = us' := by
  induction xs generalizing xs' with
  | nil =>
    cases xs' with
    | nil => exact ⟨rfl,List.tail_eq_of_cons_eq h⟩
    | cons d ds =>
      obtain rfl := List.head_eq_of_cons_eq h
      exact absurd List.mem_cons_self hxs'
  | cons b bs ih =>
    cases xs' with
    | nil =>
      obtain rfl := List.head_eq_of_cons_eq h
      exact absurd List.mem_cons_self hxs
    | cons d ds =>
      obtain ⟨rfl,htail⟩ := List.cons.inj h
      obtain ⟨rfl,hus⟩ := ih (fun hmem => hxs (List.mem_cons_of_mem b hmem))
        (fun hmem => hxs' (List.mem_cons_of_mem b hmem)) htail
      exact ⟨rfl,hus⟩

/-- So does the last place. -/
theorem eq_of_append_cons_last {c : Char} {xs xs' us us' : List Char} (hus : c ∉ us)
    (hus' : c ∉ us') (h : xs ++ c :: us = xs' ++ c :: us') : xs = xs' ∧ us = us' := by
  have hreverse : us.reverse ++ c :: xs.reverse = us'.reverse ++ c :: xs'.reverse := by
    simpa using congrArg List.reverse h
  obtain ⟨hright,hleft⟩ := eq_of_append_cons (by simpa using hus) (by simpa using hus') hreverse
  exact ⟨List.reverse_inj.mp hleft,List.reverse_inj.mp hright⟩

theorem IsName.not_mem {c : Char} (hn : IsName n) (hc : endsWord c = true) : c ∉ n.toList := by
  intro hmem
  rw [hn.word c hmem] at hc
  cases hc

theorem IsDotted.not_mem {t : String} {c : Char} (ht : IsDotted t) (hc : endsWord c = true)
    (hdot : c ≠ '.') : c ∉ t.toList := by
  induction ht with
  | name hn => exact hn.not_mem hc
  | dot hn _ ih => simp [hn.not_mem hc,hdot,ih]

/-- A type holds no equals sign and no colon. -/
theorem IsType.not_mem {t : String} {c : Char} (ht : IsType t) (hc : c ∈ ['=',':']) :
    c ∉ t.toList := by
  have hsigns : ∀ c ∈ ['=',':'], endsWord c = true ∧ c ≠ '.' ∧ c ≠ '<' ∧ c ≠ '>' := by
    simp [endsWord]
  obtain ⟨hend,hdot,hopen,hclose⟩ := hsigns c hc
  cases ht with
  | plain ht => exact ht.not_mem hend hdot
  | @generic t as ht has =>
    have hfree := ht.not_mem hend hdot
    have harguments : c ∉ as.toList := fun hmem => has c hmem (List.mem_append_left ['\n'] hc)
    simp [hfree,hopen,hclose,harguments]

/-- A type and a name before one of these signs are told apart. -/
theorem eq_of_typed {t t' n n' : String} {c : Char} {us us' : List Char} (ht : IsType t)
    (ht' : IsType t') (hn : IsName n) (hn' : IsName n') (hc : c ∈ ['=',':'])
    (h : t.toList ++ ' ' :: (n.toList ++ ' ' :: c :: us) =
      t'.toList ++ ' ' :: (n'.toList ++ ' ' :: c :: us')) : t = t' ∧ n = n' ∧ us = us' := by
  have hsigns : ∀ c ∈ ['=',':'], endsWord c = true ∧ c ≠ ' ' := by simp [endsWord]
  obtain ⟨hend,hspace⟩ := hsigns c hc
  have hcut : (t.toList ++ ' ' :: n.toList ++ [' ']) ++ c :: us =
      (t'.toList ++ ' ' :: n'.toList ++ [' ']) ++ c :: us' := by
    simpa using h
  obtain ⟨htyped,hus⟩ := eq_of_append_cons
    (by simp [ht.not_mem hc,hn.not_mem hend,hspace])
    (by simp [ht'.not_mem hc,hn'.not_mem hend,hspace]) hcut
  obtain ⟨htype,hname⟩ := eq_of_append_cons_last (hn.not_mem rfl) (hn'.not_mem rfl)
    (List.append_cancel_right htyped)
  exact ⟨String.toList_inj.mp htype,String.toList_inj.mp hname,hus⟩

theorem Expr.WellFormed.eq_of_append {e e' : Expr} {after : String} (he : e.WellFormed)
    (he' : e'.WellFormed) (h : e.render ++ after = e'.render ++ after) : e = e' :=
  he.eq_of_render he' ((String.append_left_inj after).mp h)

theorem Expr.WellFormed.eq_of_between {e e' : Expr} {before after : String} (he : e.WellFormed)
    (he' : e'.WellFormed) (h : before ++ e.render ++ after = before ++ e'.render ++ after) :
    e = e' :=
  he.eq_of_render he' ((String.append_right_inj before).mp ((String.append_left_inj after).mp h))

namespace Line

theorem loop_inj {t t' n n' : String} {e e' : Expr} (ht : IsType t) (ht' : IsType t')
    (hn : IsName n) (hn' : IsName n') (he : e.WellFormed) (he' : e'.WellFormed)
    (h : (loop t n e).text = (loop t' n' e').text) : loop t n e = loop t' n' e' := by
  have htyped := congrArg String.toList h
  rw [toList_loop,toList_loop] at htyped
  obtain ⟨rfl,rfl,hiterable⟩ :=
    eq_of_typed ht ht' hn hn' (c := ':') (by decide) (List.append_cancel_left htyped)
  rw [he.eq_of_append he' (String.toList_inj.mp (List.tail_eq_of_cons_eq hiterable))]

theorem declare_inj {t t' n n' : String} {v v' : Expr} (ht : IsType t) (ht' : IsType t')
    (hn : IsName n) (hn' : IsName n') (hv : v.WellFormed) (hv' : v'.WellFormed)
    (h : (declare t n v).text = (declare t' n' v').text) :
    declare t n v = declare t' n' v' := by
  have htyped := congrArg String.toList h
  rw [toList_declare,toList_declare] at htyped
  obtain ⟨rfl,rfl,hvalue⟩ := eq_of_typed ht ht' hn hn' (c := '=') (by decide) htyped
  rw [hv.eq_of_append hv' (String.toList_inj.mp (List.tail_eq_of_cons_eq hvalue))]

theorem assign_inj {t t' v v' : Expr} (ht : IsTarget t) (ht' : IsTarget t') (hv : v.WellFormed)
    (hv' : v'.WellFormed) (h : (assign t v).text = (assign t' v').text) :
    assign t v = assign t' v' := by
  have hsides := congrArg String.toList h
  rw [toList_assign,toList_assign] at hsides
  have hread := (ht.reads (v.render ++ ";").toList).1
  rw [hsides] at hread
  obtain ⟨rfl,-⟩ := hread.unique (ht'.reads (v'.render ++ ";").toList).1
    (ends_cons (by decide)) (ends_cons (by decide))
  have hvalue := List.append_cancel_left (List.append_cancel_left hsides)
  rw [hv.eq_of_append hv' (String.toList_inj.mp hvalue)]

/-- A line is read off its text. -/
theorem eq_of_text (h : l.WellFormed) (h' : l'.WellFormed) (htext : l.text = l'.text) :
    l = l' := by
  have hform : l.form = l'.form := by
    rw [← form_text h,← form_text h',htext]
  have hchars := congrArg String.toList htext
  cases h with
  | branch hc =>
    cases h' with
    | branch hc' => rw [hc.eq_of_between hc' htext]
    | _ => cases hform
  | loop ht hn he =>
    cases h' with
    | loop ht' hn' he' => exact loop_inj ht ht' hn hn' he he' htext
    | _ => cases hform
  | leave =>
    cases h' with
    | leave => rfl
    | give => simp [text] at hchars
    | _ => cases hform
  | give he =>
    cases h' with
    | leave => simp [text] at hchars
    | give he' => rw [he.eq_of_between he' htext]
    | _ => cases hform
  | assign ht hv =>
    cases h' with
    | assign ht' hv' => exact assign_inj ht ht' hv hv' htext
    | _ => cases hform
  | declare ht hn hv =>
    cases h' with
    | declare ht' hn' hv' => exact declare_inj ht ht' hn hn' hv hv' htext
    | _ => cases hform
  | eval he =>
    cases h' with
    | eval he' => rw [he.eq_of_append he' htext]
    | _ => cases hform
  | comment =>
    cases h' with
    | comment => rw [(String.append_right_inj "// ").mp htext]
    | _ => cases hform
  | otherwise =>
    cases h' with
    | otherwise => rfl
    | close => simp [text] at hchars
    | _ => cases hform
  | close =>
    cases h' with
    | otherwise => simp [text] at hchars
    | close => rfl
    | _ => cases hform

end Line

end Lines

end EntityLink.Java
