import EntityLink.Proofs.RenderedLines

namespace EntityLink.Java
open Text

/-- All expressions and names of a statement are well formed, and comments stay on their line. -/
inductive Stmt.WellFormed : Stmt → Prop
  | ifElse {c t f} : c.WellFormed → (∀ s ∈ t, s.WellFormed) → (∀ s ∈ f, s.WellFormed) →
      (ifElse c t f).WellFormed
  | ret : (ret none).WellFormed
  | retValue {e} : e.WellFormed → (ret (some e)).WellFormed
  | assign {t v} : IsTarget t → v.WellFormed → (assign t v).WellFormed
  | declare {t n v} : IsType t → IsName n → v.WellFormed → (declare t n v).WellFormed
  | eval {e} : e.WellFormed → (eval e).WellFormed
  | forEach {t n e body} : IsType t → IsName n → e.WellFormed → (∀ s ∈ body, s.WellFormed) →
      (forEach t n e body).WellFormed
  | comment {s} : '\n' ∉ s.toList → (comment s).WellFormed

mutual

/-- The lines of a statement, each with its depth. -/
def Stmt.lines (depth : Nat) : Stmt → List (Nat × Line)
  | .ifElse c t [] => (depth,.branch c) :: (linesOf (depth + 1) t ++ [(depth,.close)])
  | .ifElse c t (f :: fs) =>
    (depth,.branch c) :: (linesOf (depth + 1) t ++
      (depth,.otherwise) :: (linesOf (depth + 1) (f :: fs) ++ [(depth,.close)]))
  | .ret none => [(depth,.leave)]
  | .ret (some e) => [(depth,.give e)]
  | .assign t v => [(depth,.assign t v)]
  | .declare t n v => [(depth,.declare t n v)]
  | .eval e => [(depth,.eval e)]
  | .forEach t n e body =>
    (depth,.loop t n e) :: (linesOf (depth + 1) body ++ [(depth,.close)])
  | .comment s => [(depth,.comment s)]

def linesOf (depth : Nat) : List Stmt → List (Nat × Line)
  | [] => []
  | s :: ss => s.lines depth ++ linesOf depth ss

end

/-- Lines behind their margins, each with its line break. -/
def layout (width : Nat) (ls : List (Nat × Line)) : List Char :=
  ls.flatMap (fun l => (margin width l.1).toList ++ (l.2.text.toList ++ ['\n']))

section Layout

variable {width : Nat} {ls ls' : List (Nat × Line)}

@[simp] theorem layout_nil : layout width [] = [] :=
  rfl

@[simp] theorem layout_cons (d : Nat) (l : Line) : layout width ((d,l) :: ls) =
    (margin width d).toList ++ (l.text.toList ++ '\n' :: layout width ls) := by
  simp [layout]

@[simp] theorem layout_append : layout width (ls ++ ls') = layout width ls ++ layout width ls' :=
  List.flatMap_append

mutual

theorem Stmt.toList_render (s : Stmt) (depth : Nat) :
    (s.render width depth).toList = layout width (s.lines depth) := by
  cases s with
  | ifElse c t f =>
    cases f with
    | nil => simp [Stmt.render,Stmt.lines,Line.text,toList_renderBlock t]
    | cons f fs =>
      simp [Stmt.render,Stmt.lines,Line.text,toList_renderBlock t,toList_renderBlock (f :: fs)]
  | ret e => cases e <;> simp [Stmt.render,Stmt.lines,Line.text]
  | forEach t n e body => simp [Stmt.render,Stmt.lines,Line.text,toList_renderBlock body]
  | assign | declare | eval | comment => simp [Stmt.render,Stmt.lines,Line.text]

theorem toList_renderBlock (ss : List Stmt) (depth : Nat) :
    (renderBlock width depth ss).toList = layout width (linesOf depth ss) := by
  cases ss with
  | nil => rfl
  | cons s ss =>
    simp [renderBlock,linesOf,Stmt.toList_render s,toList_renderBlock ss]

end

end Layout

/-- A block that has begun and not ended: what it belongs to, and the statements before that. -/
inductive Begun
  | branch (before : List Stmt) (condition : Expr)
  | otherwise (before : List Stmt) (condition : Expr) (onTrue : List Stmt)
  | loop (before : List Stmt) (type name : String) (iterable : Expr)

/-- The blocks that lines have begun, innermost first, and the statements of the innermost. -/
structure Nesting where
  begun : List Begun
  block : List Stmt

/-- Puts statements together from their lines, one line after another. -/
def Nesting.read (b : Nesting) : Line → Nesting
  | .branch c => ⟨.branch b.block c :: b.begun,[]⟩
  | .loop t n e => ⟨.loop b.block t n e :: b.begun,[]⟩
  | .leave => ⟨b.begun,b.block ++ [.ret none]⟩
  | .give e => ⟨b.begun,b.block ++ [.ret (some e)]⟩
  | .assign t v => ⟨b.begun,b.block ++ [.assign t v]⟩
  | .declare t n v => ⟨b.begun,b.block ++ [.declare t n v]⟩
  | .eval e => ⟨b.begun,b.block ++ [.eval e]⟩
  | .comment s => ⟨b.begun,b.block ++ [.comment s]⟩
  | .otherwise =>
    match b.begun with
    | .branch before c :: begun => ⟨.otherwise before c b.block :: begun,[]⟩
    | _ => b
  | .close =>
    match b.begun with
    | .branch before c :: begun => ⟨begun,before ++ [.ifElse c b.block []]⟩
    | .otherwise before c t :: begun => ⟨begun,before ++ [.ifElse c t b.block]⟩
    | .loop before t n e :: begun => ⟨begun,before ++ [.forEach t n e b.block]⟩
    | [] => b

mutual

theorem Stmt.foldl_read (s : Stmt) (depth : Nat) (begun : List Begun) (before : List Stmt) :
    ((s.lines depth).map Prod.snd).foldl Nesting.read ⟨begun,before⟩ = ⟨begun,before ++ [s]⟩ := by
  cases s with
  | ifElse c t f =>
    cases f with
    | nil => simp [Stmt.lines,Nesting.read,foldl_read_linesOf t]
    | cons f fs =>
      simp [Stmt.lines,Nesting.read,foldl_read_linesOf t,foldl_read_linesOf (f :: fs)]
  | ret e => cases e <;> simp [Stmt.lines,Nesting.read]
  | forEach t n e body => simp [Stmt.lines,Nesting.read,foldl_read_linesOf body]
  | assign | declare | eval | comment => simp [Stmt.lines,Nesting.read]

theorem foldl_read_linesOf (ss : List Stmt) (depth : Nat) (begun : List Begun)
    (before : List Stmt) :
    ((linesOf depth ss).map Prod.snd).foldl Nesting.read ⟨begun,before⟩ =
      ⟨begun,before ++ ss⟩ := by
  cases ss with
  | nil => simp [linesOf]
  | cons s ss => simp [linesOf,Stmt.foldl_read s,foldl_read_linesOf ss]

end

/-- Blocks with the same lines are the same, at whatever depth they stand. -/
theorem eq_of_lines {ss ss' : List Stmt} {d d' : Nat}
    (h : (linesOf d ss).map Prod.snd = (linesOf d' ss').map Prod.snd) : ss = ss' := by
  have hread := foldl_read_linesOf ss d [] []
  have hread' := foldl_read_linesOf ss' d' [] []
  rw [h,hread'] at hread
  simpa using congrArg Nesting.block hread.symm

theorem IsTarget.wellFormed {t : Expr} (ht : IsTarget t) : t.WellFormed := by
  cases ht with
  | var hn => exact .var hn
  | field he hn => exact .field he hn

section Faithful

variable {l : Line} {width : Nat} {ls ls' : List (Nat × Line)}

theorem Line.WellFormed.inline (h : l.WellFormed) : Inline l.text := by
  cases h with
  | branch hc =>
    have hif : Inline "if (" := ⟨⟨'i',_,rfl,by decide⟩,by decide⟩
    exact (hif.append hc.inline.unbroken).append (by decide)
  | @loop t n e ht hn he =>
    have hfor : Inline "for (" := ⟨⟨'f',_,rfl,by decide⟩,by decide⟩
    have htyped : Inline ("for (" ++ t ++ " " ++ n) :=
      ((hfor.append ht.inline.unbroken).append (by decide)).append hn.inline.unbroken
    exact ((htyped.append (by decide)).append he.inline.unbroken).append (by decide)
  | leave => exact ⟨⟨'r',_,rfl,by decide⟩,by decide⟩
  | give he =>
    have hreturn : Inline "return " := ⟨⟨'r',_,rfl,by decide⟩,by decide⟩
    exact (hreturn.append he.inline.unbroken).append (by decide)
  | assign ht hv =>
    exact ((ht.wellFormed.inline.append (by decide)).append hv.inline.unbroken).append (by decide)
  | @declare t n v ht hn hv =>
    have htyped : Inline (t ++ " " ++ n) :=
      (ht.inline.append (by decide)).append hn.inline.unbroken
    exact ((htyped.append (by decide)).append hv.inline.unbroken).append (by decide)
  | eval he => exact he.inline.append (by decide)
  | comment hs =>
    have hslashes : Inline "// " := ⟨⟨'/',_,rfl,by decide⟩,by decide⟩
    exact hslashes.append hs
  | otherwise => exact ⟨⟨'\x7d',_,rfl,by decide⟩,by decide⟩
  | close => exact ⟨⟨'\x7d',_,rfl,by decide⟩,by decide⟩

theorem linesOf_eq (depth : Nat) (ss : List Stmt) :
    linesOf depth ss = ss.flatMap (Stmt.lines depth) := by
  induction ss with
  | nil => rfl
  | cons s ss ih => rw [linesOf,ih,List.flatMap_cons]

theorem wellFormed_linesOf {ss : List Stmt} {depth : Nat}
    (h : ∀ s ∈ ss, ∀ d, ∀ l ∈ s.lines d, l.2.WellFormed) :
    ∀ l ∈ linesOf depth ss, l.2.WellFormed := by
  rw [linesOf_eq]
  intro l hl
  obtain ⟨s,hs,hl⟩ := List.mem_flatMap.mp hl
  exact h s hs depth l hl

/-- Well-formed statements are made of well-formed lines. -/
theorem Stmt.WellFormed.lines {s : Stmt} (h : s.WellFormed) (depth : Nat) :
    ∀ l ∈ s.lines depth, l.2.WellFormed := by
  induction h generalizing depth with
  | @ifElse c t f hc _ _ iht ihf =>
    have ht : ∀ l ∈ linesOf (depth + 1) t, l.2.WellFormed := wellFormed_linesOf iht
    have hf : ∀ l ∈ linesOf (depth + 1) f, l.2.WellFormed := wellFormed_linesOf ihf
    cases f with
    | nil =>
      simp only [Stmt.lines,List.forall_mem_cons,List.forall_mem_append]
      exact ⟨.branch hc,ht,.close,by simp⟩
    | cons f fs =>
      simp only [Stmt.lines,List.forall_mem_cons,List.forall_mem_append]
      exact ⟨.branch hc,ht,.otherwise,hf,.close,by simp⟩
  | ret => simp [Stmt.lines,Line.WellFormed.leave]
  | retValue he => simp [Stmt.lines,Line.WellFormed.give he]
  | assign ht hv => simp [Stmt.lines,Line.WellFormed.assign ht hv]
  | declare ht hn hv => simp [Stmt.lines,Line.WellFormed.declare ht hn hv]
  | eval he => simp [Stmt.lines,Line.WellFormed.eval he]
  | forEach ht hn he _ ih =>
    simp only [Stmt.lines,List.forall_mem_cons,List.forall_mem_append]
    exact ⟨.loop ht hn he,wellFormed_linesOf ih,.close,by simp⟩
  | comment hs => simp [Stmt.lines,Line.WellFormed.comment hs]

theorem dropWhile_margin {n : Nat} {c : Char} {cs : List Char} (hc : c ≠ ' ') :
    (List.replicate n ' ' ++ c :: cs).dropWhile (· == ' ') = c :: cs := by
  induction n with
  | zero => simp [hc]
  | succ n ih => simpa [List.replicate_succ] using ih

/-- A text is told from its margin. -/
theorem eq_of_margin {d d' : Nat} {s s' : String} (hs : Inline s) (hs' : Inline s')
    (h : (margin width d).toList ++ s.toList = (margin width d').toList ++ s'.toList) : s = s' := by
  obtain ⟨c,cs,hcs,hc⟩ := hs.head
  obtain ⟨c',cs',hcs',hc'⟩ := hs'.head
  have hdrop := congrArg (List.dropWhile (· == ' ')) h
  rw [hcs,hcs'] at hdrop
  simp only [margin,spaces,String.toList_ofList,dropWhile_margin hc,dropWhile_margin hc'] at hdrop
  exact String.toList_inj.mp (hcs.trans (hdrop.trans hcs'.symm))

/-- The margin and the text of the first line, and what follows it. -/
theorem layout_eq_cons {d d' : Nat} {l l' : Line} (hl : l.WellFormed) (hl' : l'.WellFormed)
    (htext : layout width ((d,l) :: ls) = layout width ((d',l') :: ls')) :
    l = l' ∧ layout width ls = layout width ls' := by
  rw [layout_cons,layout_cons,← List.append_assoc,← List.append_assoc] at htext
  have hmargin : ∀ d, '\n' ∉ (margin width d).toList := by
    simp [margin,spaces]
  obtain ⟨hline,hrest⟩ := eq_of_append_cons (by simp [hmargin d,hl.inline.unbroken])
    (by simp [hmargin d',hl'.inline.unbroken]) htext
  exact ⟨Line.eq_of_text hl hl' (eq_of_margin hl.inline hl'.inline hline),hrest⟩

/-- Lines that look the same are the same. -/
theorem eq_of_layout (h : ∀ l ∈ ls, l.2.WellFormed) (h' : ∀ l ∈ ls', l.2.WellFormed)
    (htext : layout width ls = layout width ls') : ls.map Prod.snd = ls'.map Prod.snd := by
  induction ls generalizing ls' with
  | nil =>
    cases ls' with
    | nil => rfl
    | cons l ls' => simp [layout] at htext
  | cons l ls ih =>
    cases ls' with
    | nil => simp [layout] at htext
    | cons l' ls' =>
      obtain ⟨hl,hls⟩ := List.forall_mem_cons.mp h
      obtain ⟨hl',hls'⟩ := List.forall_mem_cons.mp h'
      obtain ⟨hline,hrest⟩ := layout_eq_cons hl hl' htext
      rw [List.map_cons,List.map_cons,hline,ih hls hls' hrest]

/-- Blocks with one text are the same. -/
theorem eq_of_renderBlock {depth : Nat} {ss ss' : List Stmt} (h : ∀ s ∈ ss, s.WellFormed)
    (h' : ∀ s ∈ ss', s.WellFormed)
    (htext : renderBlock width depth ss = renderBlock width depth ss') : ss = ss' := by
  have hlayout := congrArg String.toList htext
  rw [toList_renderBlock,toList_renderBlock] at hlayout
  exact eq_of_lines (eq_of_layout (wellFormed_linesOf (fun s hs => (h s hs).lines))
    (wellFormed_linesOf (fun s hs => (h' s hs).lines)) hlayout)

end Faithful

/-- Rendering loses no structure: well-formed expressions that differ have texts that differ, and
so have blocks of well-formed statements, at every depth and for every width of the margins.
Grouped by precedence and parentheses, the text of an expression is that expression. -/
theorem rendering_faithful :
    (∀ e e' : Expr, e.WellFormed → e'.WellFormed → e.render = e'.render → e = e') ∧
    (∀ (width depth : Nat) (ss ss' : List Stmt), (∀ s ∈ ss, s.WellFormed) →
      (∀ s ∈ ss', s.WellFormed) → renderBlock width depth ss = renderBlock width depth ss' →
      ss = ss') ∧
    (∀ e e' : Expr, e.WellFormed →
      (Reads .disjunction (tokens e.render.toList) e' [] ↔ e' = e)) := by
  refine ⟨?_,?_,?_⟩
  · intro e e' he he' htext
    exact he.eq_of_render he' htext
  · intro width depth ss ss' h h' htext
    exact eq_of_renderBlock h h' htext
  · intro e e' he
    exact he.reads_iff

/-- Conditions that only parentheses tell apart, and blocks that only braces do. -/
theorem guarded_return_faithful :
    (Expr.or [.and [.var "a",.var "b"],.var "c"]).WellFormed ∧
      (Expr.and [.var "a",.or [.var "b",.var "c"]]).WellFormed ∧
      (Expr.or [.and [.var "a",.var "b"],.var "c"]).render = "a && b || c" ∧
      (Expr.and [.var "a",.or [.var "b",.var "c"]]).render = "a && (b || c)" ∧
      (Reads .disjunction (tokens "a && b || c".toList)
        (.and [.var "a",.or [.var "b",.var "c"]]) [] ↔
          Expr.and [.var "a",.or [.var "b",.var "c"]] = .or [.and [.var "a",.var "b"],.var "c"]) ∧
      (Expr.or [.and [.var "a",.var "b"],.var "c"]).render ≠
        (Expr.and [.var "a",.or [.var "b",.var "c"]]).render ∧
      renderBlock 4 1 [.when (.var "a") [.ret none]] ≠
        renderBlock 4 1 [.when (.var "a") [],.ret none] := by
  have ha : (Expr.var "a").WellFormed := .var (by decide)
  have hb : (Expr.var "b").WellFormed := .var (by decide)
  have hc : (Expr.var "c").WellFormed := .var (by decide)
  have hinner : (Expr.and [.var "a",.var "b"]).WellFormed := .and (by decide) (by simp [ha,hb])
  have hor : (Expr.or [.and [.var "a",.var "b"],.var "c"]).WellFormed :=
    .or (by decide) (by simp [hinner,hc])
  have hgrouped : (Expr.or [.var "b",.var "c"]).WellFormed := .or (by decide) (by simp [hb,hc])
  have hand : (Expr.and [.var "a",.or [.var "b",.var "c"]]).WellFormed :=
    .and (by decide) (by simp [ha,hgrouped])
  have hret : (Stmt.ret none).WellFormed := .ret
  have hwithin : (Stmt.when (.var "a") [.ret none]).WellFormed :=
    .ifElse ha (by simp [hret]) (by simp)
  have hempty : (Stmt.when (.var "a") []).WellFormed := .ifElse ha (by simp) (by simp)
  refine ⟨hor,hand,rfl,rfl,rendering_faithful.2.2 _ _ hor,?_,?_⟩
  · intro htext
    cases rendering_faithful.1 _ _ hor hand htext
  · intro htext
    cases rendering_faithful.2.1 4 1 _ _ (by simp [hwithin]) (by simp [hempty,hret]) htext

end EntityLink.Java
