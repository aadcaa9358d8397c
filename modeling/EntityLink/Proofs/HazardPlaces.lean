import EntityLink.Proofs.GeneratedEntities

namespace EntityLink

/-- `xs` are what `At` finds, in the order of the places and each place once. The order is that of
a dictionary: a place comes before all that are below it. -/
def Enumerates {α : Type} (At : List Nat → α → Prop) (xs : List α) : Prop :=
  ∃ found : List (List Nat × α), found.Pairwise (fun q q' => q.1 < q'.1) ∧
    (∀ place x, (place,x) ∈ found ↔ At place x) ∧ found.map Prod.snd = xs

/-- At a place in one of several parts. The first number of the place is that of the part. -/
def Within {α β : Type} (parts : List β) (At : β → List Nat → α → Prop) : List Nat → α → Prop
  | [], _ => False
  | i :: place, x => ∃ part, parts[i]? = some part ∧ At part place x

/-- The place of the same thing behind one part more. -/
def later : List Nat → List Nat
  | [] => []
  | i :: place => (i + 1) :: place

section Enumeration

variable {α β : Type} {At At' : List Nat → α → Prop} {xs : List α} {parts : List β} {part : β}
  {Of : β → List Nat → α → Prop}

theorem Enumerates.congr (h : Enumerates At xs) (hiff : ∀ p x, At p x ↔ At' p x) :
    Enumerates At' xs := by
  obtain ⟨found,hsorted,hmem,hxs⟩ := h
  exact ⟨found,hsorted,fun p x => (hmem p x).trans (hiff p x),hxs⟩

/-- What is kept of the things found stands at the places where they were. -/
theorem Enumerates.filterMap (h : Enumerates At xs) (f : α → Option β) :
    Enumerates (fun p y => ∃ x, At p x ∧ f x = some y) (xs.filterMap f) := by
  obtain ⟨found,hsorted,hmem,rfl⟩ := h
  refine ⟨found.filterMap (fun q => (f q.2).map (q.1,·)),?_,fun p y => ?_,?_⟩
  · rw [List.pairwise_filterMap]
    refine hsorted.imp (fun hlt => ?_)
    simp only [Option.map_eq_some_iff]
    rintro _ ⟨y,-,rfl⟩ _ ⟨y',-,rfl⟩
    exact hlt
  · simp only [List.mem_filterMap,Prod.exists,Option.map_eq_some_iff,Prod.mk.injEq,hmem]
    constructor
    · rintro ⟨_,x,hx,_,hy,rfl,rfl⟩
      exact ⟨x,hx,hy⟩
    · rintro ⟨x,hx,hy⟩
      exact ⟨p,x,hx,y,hy,rfl,rfl⟩
  · rw [List.map_filterMap,List.filterMap_map]
    congr 1
    funext q
    simp [Function.comp_def]

/-- The root stands before all that is below it. -/
theorem Enumerates.root {x : α} (h : Enumerates (Within parts Of) xs) :
    Enumerates (fun p y => (p = [] ∧ y = x) ∨ Within parts Of p y) (x :: xs) := by
  obtain ⟨found,hsorted,hmem,rfl⟩ := h
  refine ⟨([],x) :: found,List.pairwise_cons.mpr ⟨?_,hsorted⟩,fun p y => ?_,rfl⟩
  · rintro ⟨p,y⟩ hy
    cases p with
    | nil => exact ((hmem [] y).mp hy).elim
    | cons i p => exact List.nil_lt_cons i p
  · rw [List.mem_cons,hmem,Prod.mk.injEq]

theorem mem_map_place {found : List (List Nat × α)} {f : List Nat → List Nat} {p : List Nat}
    {x : α} : (p,x) ∈ found.map (fun q => (f q.1,q.2)) ↔ ∃ q, (q,x) ∈ found ∧ f q = p := by
  simp only [List.mem_map,Prod.exists,Prod.mk.injEq]
  constructor
  · rintro ⟨q,_,hq,hp,rfl⟩
    exact ⟨q,hq,hp⟩
  · rintro ⟨q,hq,hp⟩
    exact ⟨q,x,hq,hp,rfl⟩

theorem within_cons {p : List Nat} {x : α} : Within (part :: parts) Of p x ↔
    (∃ q, Of part q x ∧ 0 :: q = p) ∨ ∃ q, Within parts Of q x ∧ later q = p := by
  constructor
  · intro h
    rcases p with _ | ⟨_ | i,q⟩
    · exact h.elim
    · obtain ⟨_,⟨⟩,hq⟩ := h
      exact .inl ⟨q,hq,rfl⟩
    · exact .inr ⟨i :: q,h,rfl⟩
  · rintro (⟨q,hq,rfl⟩ | ⟨q,hq,rfl⟩)
    · exact ⟨part,rfl,hq⟩
    · cases q with
      | nil => exact hq
      | cons i q => exact hq

theorem later_lt_later {p q : List Nat} (hq : q ≠ []) (h : p < q) : later p < later q := by
  obtain ⟨j,q,rfl⟩ := List.exists_cons_of_ne_nil hq
  cases p with
  | nil => exact List.nil_lt_cons _ _
  | cons i p =>
    rw [later,later,List.cons_lt_cons_iff,Nat.add_lt_add_iff_right,Nat.add_right_cancel_iff]
    exact List.cons_lt_cons_iff.mp h

/-- The places in the first part come before those in the parts behind it. -/
theorem Enumerates.append {ys : List α} (h : Enumerates (Of part) xs)
    (hrest : Enumerates (Within parts Of) ys) :
    Enumerates (Within (part :: parts) Of) (xs ++ ys) := by
  obtain ⟨found,hsorted,hmem,rfl⟩ := h
  obtain ⟨found',hsorted',hmem',rfl⟩ := hrest
  have hne : ∀ q ∈ found', q.1 ≠ [] := by
    rintro ⟨p,x⟩ hq rfl
    exact (hmem' [] x).mp hq
  refine ⟨found.map (fun q => (0 :: q.1,q.2)) ++ found'.map (fun q => (later q.1,q.2)),?_,
    fun p x => ?_,by simp [Function.comp_def]⟩
  -- places in the first part begin with zero, those in later parts with a greater number
  · rw [List.pairwise_append,List.pairwise_map,List.pairwise_map,List.forall_mem_map]
    refine ⟨hsorted.imp (fun hlt => List.cons_lt_cons_iff.mpr (.inr ⟨rfl,hlt⟩)),
      hsorted'.imp_of_mem (fun _ hq hlt => later_lt_later (hne _ hq) hlt),fun q _ => ?_⟩
    rw [List.forall_mem_map]
    intro q' hq'
    obtain ⟨j,p,hp⟩ := List.exists_cons_of_ne_nil (hne q' hq')
    rw [hp]
    exact List.cons_lt_cons_iff.mpr (.inl (Nat.succ_pos j))
  · rw [List.mem_append,mem_map_place,mem_map_place,within_cons]
    simp only [hmem,hmem']

/-- One part after another. -/
theorem enumerates_within {xs : β → List α}
    (h : ∀ part ∈ parts, Enumerates (Of part) (xs part)) :
    Enumerates (Within parts Of) (parts.flatMap xs) := by
  induction parts with
  | nil =>
    refine ⟨[],.nil,fun p x => ?_,rfl⟩
    cases p with
    | nil => simp [Within]
    | cons i p => simp [Within]
  | cons part parts ih =>
    obtain ⟨hpart,hparts⟩ := List.forall_mem_cons.mp h
    exact hpart.append (ih hparts)

end Enumeration

namespace Java

/-- An expression or a statement. -/
inductive Code
  | expr (e : Expr)
  | stmt (s : Stmt)

/-- The expressions directly in an expression, from left to right. -/
def Expr.parts : Expr → List Expr
  | .this | .null | .bool _ | .var _ => []
  | .field e _ | .not e | .instanceOf e _ => [e]
  | .call e _ as => e :: as
  | .callBare _ as | .create _ as | .and as | .or as => as
  | .same a b | .notSame a b => [a,b]

/-- What stands directly in a statement, from left to right. -/
def Stmt.parts : Stmt → List Code
  | .ifElse c t f => .expr c :: (t ++ f).map .stmt
  | .ret none | .comment _ => []
  | .ret (some e) | .declare _ _ e | .eval e => [.expr e]
  | .assign t v => [.expr t,.expr v]
  | .forEach _ _ e body => .expr e :: body.map .stmt

namespace Code

def parts : Code → List Code
  | expr e => e.parts.map expr
  | stmt s => s.parts

/-- The expressions that a walk over the code visits. -/
def visited : Code → List Expr
  | expr e => e.subexprs
  | stmt s => s.exprs

/-- An expression stands at a place in some code: the numbers of the parts that lead to it. -/
inductive At : Code → List Nat → Expr → Prop
  | root {e : Expr} : At (expr e) [] e
  | part {c c' : Code} {i : Nat} {place : List Nat} {e : Expr} (hpart : c.parts[i]? = some c')
      (h : At c' place e) : At c (i :: place) e

theorem subexprsAll_eq (es : List Expr) : subexprsAll es = es.flatMap Expr.subexprs := by
  induction es with
  | nil => rfl
  | cons e es ih => rw [subexprsAll,ih,List.flatMap_cons]

theorem exprsAll_eq (ss : List Stmt) : exprsAll ss = ss.flatMap Stmt.exprs := by
  induction ss with
  | nil => rfl
  | cons s ss ih => rw [exprsAll,ih,List.flatMap_cons]

/-- An expression is visited before its parts. -/
theorem visited_expr (e : Expr) : (expr e).visited = e :: (expr e).parts.flatMap visited := by
  rw [parts,List.flatMap_map]
  cases e <;> simp [visited,Expr.subexprs,Expr.parts,subexprsAll_eq]

theorem visited_stmt (s : Stmt) : (stmt s).visited = (stmt s).parts.flatMap visited := by
  cases s with
  | ret e => cases e <;> simp [visited,parts,Stmt.parts,Stmt.exprs]
  | _ => simp [visited,parts,Stmt.parts,Stmt.exprs,exprsAll_eq,List.flatMap_map]

theorem at_expr {e x : Expr} {place : List Nat} : (expr e).At place x ↔
    (place = [] ∧ x = e) ∨ Within (expr e).parts At place x := by
  constructor
  · rintro (_ | ⟨hpart,h⟩)
    · exact .inl ⟨rfl,rfl⟩
    · exact .inr ⟨_,hpart,h⟩
  · rintro (⟨rfl,rfl⟩ | h)
    · exact .root
    · cases place with
      | nil => exact h.elim
      | cons i place =>
        obtain ⟨c,hpart,h⟩ := h
        exact .part hpart h

theorem at_stmt {s : Stmt} {x : Expr} {place : List Nat} :
    (stmt s).At place x ↔ Within (stmt s).parts At place x := by
  constructor
  · rintro (_ | ⟨hpart,h⟩)
    exact ⟨_,hpart,h⟩
  · intro h
    cases place with
    | nil => exact h.elim
    | cons i place =>
      obtain ⟨c,hpart,h⟩ := h
      exact .part hpart h

/-- A walk visits what stands at the places in some code. -/
def Walked (c : Code) : Prop :=
  Enumerates c.At c.visited

theorem walked_expr {e : Expr} (h : ∀ e' ∈ e.parts, (expr e').Walked) : (expr e).Walked := by
  have hparts : ∀ c ∈ (expr e).parts, c.Walked := by
    intro c hc
    obtain ⟨e',he',rfl⟩ := List.mem_map.mp hc
    exact h e' he'
  rw [Walked,visited_expr]
  exact (enumerates_within hparts).root.congr (fun _ _ => at_expr.symm)

theorem walked_stmt {s : Stmt} (h : ∀ c ∈ s.parts, c.Walked) : (stmt s).Walked := by
  rw [Walked,visited_stmt]
  exact (enumerates_within h).congr (fun _ _ => at_stmt.symm)

mutual

theorem expr_walked (e : Expr) : (expr e).Walked := by
  apply walked_expr
  cases e with
  | this | null | bool | var => exact List.forall_mem_nil _
  | field e | not e | instanceOf e => exact List.forall_mem_singleton.mpr (expr_walked e)
  | call e m as => exact List.forall_mem_cons.mpr ⟨expr_walked e,exprs_walked as⟩
  | callBare m as | create t as | and as | or as => exact exprs_walked as
  | same a b | notSame a b =>
    exact List.forall_mem_cons.mpr ⟨expr_walked a,List.forall_mem_singleton.mpr (expr_walked b)⟩

theorem exprs_walked (es : List Expr) : ∀ e ∈ es, (expr e).Walked := by
  cases es with
  | nil => exact List.forall_mem_nil _
  | cons e es => exact List.forall_mem_cons.mpr ⟨expr_walked e,exprs_walked es⟩

end

mutual

theorem stmt_walked (s : Stmt) : (stmt s).Walked := by
  apply walked_stmt
  cases s with
  | ifElse c t f =>
    rw [Stmt.parts,List.map_append]
    exact List.forall_mem_cons.mpr ⟨expr_walked c,
      List.forall_mem_append.mpr ⟨stmts_walked t,stmts_walked f⟩⟩
  | ret e =>
    cases e with
    | none => exact List.forall_mem_nil _
    | some e => exact List.forall_mem_singleton.mpr (expr_walked e)
  | declare type name e | eval e => exact List.forall_mem_singleton.mpr (expr_walked e)
  | assign t v =>
    exact List.forall_mem_cons.mpr ⟨expr_walked t,List.forall_mem_singleton.mpr (expr_walked v)⟩
  | forEach type name e body =>
    exact List.forall_mem_cons.mpr ⟨expr_walked e,stmts_walked body⟩
  | comment text => exact List.forall_mem_nil _

theorem stmts_walked (ss : List Stmt) : ∀ c ∈ ss.map stmt, c.Walked := by
  cases ss with
  | nil => exact List.forall_mem_nil _
  | cons s ss => exact List.forall_mem_cons.mpr ⟨stmt_walked s,stmts_walked ss⟩

end

end Code

/-- An expression stands at a place in the body of a method. The place begins with the number of a
statement. -/
def Method.At (m : Method) : List Nat → Expr → Prop :=
  Within (m.body.map Code.stmt) Code.At

theorem Method.enumerates_exprs (m : Method) : Enumerates m.At (exprsAll m.body) := by
  rw [Code.exprsAll_eq]
  have h := enumerates_within (Code.stmts_walked m.body)
  rw [List.flatMap_map] at h
  exact h

theorem MethodKind.isPublicMutator_iff {k : MethodKind} :
    k.isPublicMutator = true ↔ k ∈ [.setter,.adder,.remover,.clearer] := by
  cases k <;> simp [isPublicMutator]

end Java

namespace RecursionCheck
open Java

/-- At a place in the code of some entities a public mutator calls a method on an object other than
`this`, and a public mutator of some entity has that name; this is what is reported of it. The
place is the number of the entity, that of the method and the place in its body. -/
inductive HazardAt (es : List GeneratedEntity) : List Nat → Finding → Prop
  | call {i j : Nat} {place : List Nat} {e : GeneratedEntity} {m : Method} {receiver : Expr}
      {callee : String} {arguments : List Expr}
      (entity : es[i]? = some e) (method : e.methods[j]? = some m)
      (mutator : m.kind ∈ [.setter,.adder,.remover,.clearer])
      (call : m.At place (.call receiver callee arguments)) (foreign : receiver ≠ .this)
      (named : ∃ e' ∈ es, ∃ m' ∈ e'.methods,
        m'.kind ∈ [.setter,.adder,.remover,.clearer] ∧ m'.name = callee) :
      HazardAt es (i :: j :: place) ⟨.error,.recursionHazard,e.entity,some m.name,
        "public mutator calls public mutator '" ++ callee ++ "' on another object"⟩

theorem mem_mutatorNames {es : List GeneratedEntity} {n : String} : n ∈ mutatorNames es ↔
    ∃ e ∈ es, ∃ m ∈ e.methods, m.kind ∈ [.setter,.adder,.remover,.clearer] ∧ m.name = n := by
  simp only [mutatorNames,List.mem_filterMap,List.mem_flatMap,Option.ite_none_right_eq_some,
    Option.some.injEq,MethodKind.isPublicMutator_iff]
  constructor
  · rintro ⟨m,⟨e,he,hm⟩,hkind,hname⟩
    exact ⟨e,he,m,hm,hkind,hname⟩
  · rintro ⟨e,he,m,hm,hkind,hname⟩
    exact ⟨m,⟨e,he,hm⟩,hkind,hname⟩

/-- What an expression in a method is reported as, if it is a hazard. -/
def hazard? (es : List GeneratedEntity) (e : GeneratedEntity) (m : Method) (x : Expr) :
    Option Finding :=
  if m.kind.isPublicMutator then
    (x.foreignCallee?.filter (mutatorNames es).contains).map (hazard e m)
  else none

theorem hazards_eq (es : List GeneratedEntity) : hazards es = es.flatMap (fun e =>
    e.methods.flatMap (fun m => (exprsAll m.body).filterMap (hazard? es e m))) := by
  rw [hazards]
  apply List.flatMap_congr
  intro e _
  have hmutators : e.methods.flatMap (fun m => (exprsAll m.body).filterMap (hazard? es e m)) =
      (e.methods.filter (fun m => m.kind.isPublicMutator)).flatMap
        (fun m => (exprsAll m.body).filterMap (hazard? es e m)) := by
    apply flatMap_eq_flatMap_filter
    intro m _ hkind
    simp [hazard?,hkind]
  rw [hmutators]
  apply List.flatMap_congr
  intro m hm
  rw [foreignCallees,List.filter_filterMap,List.map_filterMap]
  congr 1
  funext x
  rw [hazard?,if_pos (List.mem_filter.mp hm).2]

theorem hazard?_eq_some {es : List GeneratedEntity} {e : GeneratedEntity} {m : Method} {x : Expr}
    {f : Finding} : hazard? es e m x = some f ↔ m.kind ∈ [.setter,.adder,.remover,.clearer] ∧
      ∃ receiver callee arguments, x = .call receiver callee arguments ∧ receiver ≠ .this ∧
        callee ∈ mutatorNames es ∧ f = hazard e m callee := by
  simp only [hazard?,Option.ite_none_right_eq_some,MethodKind.isPublicMutator_iff,
    Option.map_eq_some_iff,Option.filter_eq_some_iff,Expr.foreignCallee?_eq_some,
    List.contains_iff_mem]
  refine and_congr_right (fun _ => ?_)
  constructor
  · rintro ⟨callee,⟨⟨receiver,arguments,hx,hthis⟩,hnamed⟩,rfl⟩
    exact ⟨receiver,callee,arguments,hx,hthis,hnamed,rfl⟩
  · rintro ⟨receiver,callee,arguments,hx,hthis,hnamed,rfl⟩
    exact ⟨callee,⟨⟨receiver,arguments,hx,hthis⟩,hnamed⟩,rfl⟩

/-- Each of these calls is reported once, in the order of the code, and nothing else is. -/
theorem hazards_enumerate (es : List GeneratedEntity) : ∃ found : List (List Nat × Finding),
    found.Pairwise (fun q q' => q.1 < q'.1) ∧
    (∀ place f, (place,f) ∈ found ↔ HazardAt es place f) ∧ hazards es = found.map Prod.snd := by
  have hfound : Enumerates (Within es (fun e => Within e.methods (fun m place f =>
      ∃ x, m.At place x ∧ hazard? es e m x = some f))) (hazards es) := by
    rw [hazards_eq]
    exact enumerates_within (fun e _ => enumerates_within (fun m _ =>
      m.enumerates_exprs.filterMap (hazard? es e m)))
  obtain ⟨found,hsorted,hmem,hall⟩ := hfound
  refine ⟨found,hsorted,fun place f => (hmem place f).trans ?_,hall.symm⟩
  constructor
  · intro h
    match place,h with
    | i :: j :: place,⟨e,he,m,hm,x,hat,hx⟩ =>
      obtain ⟨hkind,receiver,callee,arguments,rfl,hthis,hnamed,rfl⟩ := hazard?_eq_some.mp hx
      exact .call he hm hkind hat hthis (mem_mutatorNames.mp hnamed)
  · rintro ⟨he,hm,hkind,hat,hthis,hnamed⟩
    exact ⟨_,he,_,hm,_,hat,hazard?_eq_some.mpr
      ⟨hkind,_,_,_,rfl,hthis,mem_mutatorNames.mpr hnamed,rfl⟩⟩

end RecursionCheck

end EntityLink
