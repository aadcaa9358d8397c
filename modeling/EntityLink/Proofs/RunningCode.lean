import EntityLink.Java.Run
import EntityLink.Proofs.HeapFrame

namespace EntityLink.Java

/-- Running `x` on the heap `h` ends without a fault, in a result and the heap `h'`. -/
def Exec.Gives {α : Type} (x : Exec α) (h : Heap) (v : α) (h' : Heap) : Prop :=
  x h = .ok (v,h')

namespace Exec

variable {α β : Type} {h h₁ h₂ : Heap} {a c : Nat} {type : String}

theorem gives_pure (v : α) (h : Heap) : Gives (pure v) h v h :=
  rfl

theorem Gives.bind {x : Exec α} {f : α → Exec β} {v : α} {w : β} (hx : Gives x h v h₁)
    (hf : Gives (f v) h₁ w h₂) : Gives (x >>= f) h w h₂ := by
  simp only [Gives] at hx hf ⊢
  show StateT.bind x f h = _
  rw [StateT.bind,hx]
  exact hf

theorem Gives.of_bind {x : Exec α} {f : α → Exec β} {w : β} (hx : Gives (x >>= f) h w h₂) :
    ∃ v h₁, Gives x h v h₁ ∧ Gives (f v) h₁ w h₂ := by
  have hrun : StateT.bind x f h = .ok (w,h₂) := hx
  cases hv : x h with
  | error fault =>
    rw [StateT.bind,hv] at hrun
    cases hrun
  | ok result =>
    rw [StateT.bind,hv] at hrun
    exact ⟨result.1,result.2,hv,hrun⟩

theorem gives_get (h : Heap) : Gives get h h h :=
  rfl

theorem gives_object {o : Object} (ho : h.get? a = some o) : Gives (object (.ref a)) h o h := by
  refine (gives_get h).bind ?_
  rw [ho]
  exact gives_pure o h

theorem gives_create (o : Object) : Gives (create o) h (.ref h.size) (h.push o) :=
  rfl

theorem gives_field (ha : h.IsEntity a type) (n : String) :
    Gives (field (.ref a) n) h (h.field a n) h := by
  obtain ⟨fields,ha⟩ := ha
  refine (gives_object ha).bind ?_
  rw [Heap.field_of_get? ha]
  exact gives_pure _ h

theorem gives_items (hc : h.IsCollection c) : Gives (items (.ref c)) h (h.items (.ref c)) h := by
  obtain ⟨vs,unique,n,hc⟩ := hc
  refine (gives_object hc).bind ?_
  rw [Heap.items_ref hc]
  exact gives_pure _ h

theorem gives_changes {vs : List Value} {unique : Bool} {n : Nat}
    (hc : h.get? c = some (.collection vs unique n)) : Gives (changes (.ref c)) h n h :=
  (gives_object hc).bind (gives_pure n h)

theorem gives_assign (ha : h.IsEntity a type) (n : String) (v : Value) :
    Gives (assign (.ref a) n v) h () (h.assign a n v) := by
  obtain ⟨fields,ha⟩ := ha
  refine (gives_object ha).bind ?_
  simp only [Heap.assign,ha]
  rfl

end Exec

open Exec

section Dispatch

variable {p : Program} {run : Value → Method → List Value → Exec Value} {h h' : Heap} {c : Nat}

theorem gives_dispatch {a : Nat} {type name : String} {m : Method} {vs : List Value} {v : Value}
    (ha : h.IsEntity a type) (hm : p.method? type name = some m)
    (hrun : Gives (run (.ref a) m vs) h v h') :
    Gives (dispatch p run (.ref a) name vs) h v h' := by
  obtain ⟨fields,ha⟩ := ha
  refine (gives_object ha).bind ?_
  simp only [hm]
  exact hrun

theorem gives_contains (hc : h.IsCollection c) (v : Value) :
    Gives (dispatch p run (.ref c) "contains" [v]) h (.bool ((h.items (.ref c)).contains v)) h := by
  obtain ⟨vs,unique,n,hc⟩ := hc
  rw [Heap.items_ref hc]
  exact (gives_object hc).bind rfl

theorem gives_clear (hc : h.IsCollection c) :
    Gives (dispatch p run (.ref c) "clear" []) h .null (h.refill c []) := by
  obtain ⟨vs,unique,n,hc⟩ := hc
  refine (gives_object hc).bind ?_
  rw [Heap.refill,hc]
  rfl

theorem gives_add (hc : h.IsCollection c) {v : Value} (hv : v ∉ h.items (.ref c)) :
    Gives (dispatch p run (.ref c) "add" [v]) h (.bool true)
      (h.refill c (h.items (.ref c) ++ [v])) := by
  obtain ⟨vs,unique,n,hc⟩ := hc
  rw [Heap.items_ref hc] at hv ⊢
  refine (gives_object hc).bind ?_
  rw [Heap.refill,hc]
  have hnew : vs.contains v = false := by simpa using hv
  simp only [collectionCall,hnew,Bool.and_false]
  rfl

theorem gives_remove (hc : h.IsCollection c) {v : Value} (hv : v ∈ h.items (.ref c)) :
    Gives (dispatch p run (.ref c) "remove" [v]) h (.bool true)
      (h.refill c ((h.items (.ref c)).erase v)) := by
  obtain ⟨vs,unique,n,hc⟩ := hc
  rw [Heap.items_ref hc] at hv ⊢
  refine (gives_object hc).bind ?_
  rw [Heap.refill,hc]
  have hold : vs.contains v = true := by simpa using hv
  simp only [collectionCall,hold]
  rfl

theorem gives_remove_absent (hc : h.IsCollection c) {v : Value} (hv : v ∉ h.items (.ref c)) :
    Gives (dispatch p run (.ref c) "remove" [v]) h (.bool false) h := by
  obtain ⟨vs,unique,n,hc⟩ := hc
  rw [Heap.items_ref hc] at hv
  refine (gives_object hc).bind ?_
  have hnew : vs.contains v = false := by simpa using hv
  simp only [collectionCall,hnew]
  rfl

end Dispatch

section Code

variable (p : Program) (call : Value → String → List Value → Exec Value)
variable {self : Value} {env env' : List (String × Value)} {h h₁ h₂ h₃ : Heap} {v w : Value}
  {vs : List Value} {e e' : Expr} {es : List Expr} {n : String} {a c : Nat} {type : String}

theorem gives_var (hn : env.lookup n = some v) :
    Gives ((Expr.var n).eval p call ⟨self,env⟩) h v h := by
  rw [Expr.eval,hn]
  exact gives_pure v h

theorem gives_this : Gives (Expr.this.eval p call ⟨self,env⟩) h self h :=
  gives_pure _ h

theorem gives_null : Gives (Expr.null.eval p call ⟨self,env⟩) h .null h :=
  gives_pure _ h

theorem gives_bool (b : Bool) : Gives ((Expr.bool b).eval p call ⟨self,env⟩) h (.bool b) h :=
  gives_pure _ h

theorem gives_thisField (ha : h.IsEntity a type) (n : String) :
    Gives ((Expr.thisField n).eval p call ⟨.ref a,env⟩) h (h.field a n) h :=
  (gives_this p call).bind (Exec.gives_field ha n)

theorem gives_nil : Gives (evalAll p call ⟨self,env⟩ []) h [] h :=
  gives_pure _ h

theorem gives_cons (he : Gives (e.eval p call ⟨self,env⟩) h v h₁)
    (hes : Gives (evalAll p call ⟨self,env⟩ es) h₁ vs h₂) :
    Gives (evalAll p call ⟨self,env⟩ (e :: es)) h (v :: vs) h₂ :=
  he.bind (hes.bind (gives_pure _ _))

theorem gives_call {m : String} (he : Gives (e.eval p call ⟨self,env⟩) h v h₁)
    (hes : Gives (evalAll p call ⟨self,env⟩ es) h₁ vs h₂) (hc : Gives (call v m vs) h₂ w h₃) :
    Gives ((Expr.call e m es).eval p call ⟨self,env⟩) h w h₃ :=
  he.bind (hes.bind hc)

theorem gives_call_none {m : String} (he : Gives (e.eval p call ⟨self,env⟩) h v h₁)
    (hc : Gives (call v m []) h₁ w h₂) :
    Gives ((Expr.call e m []).eval p call ⟨self,env⟩) h w h₂ :=
  gives_call p call he (gives_nil p call) hc

theorem gives_call_one {m : String} {u : Value} (he : Gives (e.eval p call ⟨self,env⟩) h v h₁)
    (he' : Gives (e'.eval p call ⟨self,env⟩) h₁ u h₂) (hc : Gives (call v m [u]) h₂ w h₃) :
    Gives ((Expr.call e m [e']).eval p call ⟨self,env⟩) h w h₃ :=
  gives_call p call he (gives_cons p call he' (gives_nil p call)) hc

theorem gives_copy (he : Gives (e.eval p call ⟨self,env⟩) h (.ref c) h₁) (hc : h₁.IsCollection c)
    (type : String) : Gives ((Expr.createDiamond type [e]).eval p call ⟨self,env⟩) h (.ref h₁.size)
      (h₁.push (.collection (h₁.items (.ref c)) (isSetClass (type ++ "<>")) 0)) :=
  he.bind ((gives_items hc).bind (gives_create _))

theorem gives_empty (type : String) : Gives ((Expr.createDiamond type []).eval p call ⟨self,env⟩) h
    (.ref h.size) (h.push (.collection [] (isSetClass (type ++ "<>")) 0)) :=
  gives_create _

theorem gives_same (he : Gives (e.eval p call ⟨self,env⟩) h v h₁)
    (he' : Gives (e'.eval p call ⟨self,env⟩) h₁ w h₂) :
    Gives ((Expr.same e e').eval p call ⟨self,env⟩) h (.bool (v == w)) h₂ :=
  he.bind (he'.bind (gives_pure _ _))

theorem gives_notSame (he : Gives (e.eval p call ⟨self,env⟩) h v h₁)
    (he' : Gives (e'.eval p call ⟨self,env⟩) h₁ w h₂) :
    Gives ((Expr.notSame e e').eval p call ⟨self,env⟩) h (.bool (v != w)) h₂ :=
  he.bind (he'.bind (gives_pure _ _))

theorem gives_isNull (he : Gives (e.eval p call ⟨self,env⟩) h v h₁) :
    Gives (e.isNull.eval p call ⟨self,env⟩) h (.bool (v == .null)) h₁ :=
  gives_same p call he (gives_null p call)

theorem gives_notNull (he : Gives (e.eval p call ⟨self,env⟩) h v h₁) :
    Gives (e.notNull.eval p call ⟨self,env⟩) h (.bool (v != .null)) h₁ :=
  gives_notSame p call he (gives_null p call)

theorem gives_not {b : Bool} (he : Gives (e.eval p call ⟨self,env⟩) h (.bool b) h₁) :
    Gives ((Expr.not e).eval p call ⟨self,env⟩) h (.bool !b) h₁ :=
  he.bind (gives_pure _ _)

theorem gives_and_false (he : Gives (e.eval p call ⟨self,env⟩) h (.bool false) h₁) :
    Gives ((Expr.and (e :: es)).eval p call ⟨self,env⟩) h (.bool false) h₁ := by
  refine Gives.bind (v := false) ?_ (gives_pure _ _)
  exact he.bind ((gives_pure false _).bind (gives_pure _ _))

theorem gives_and_true {b : Bool} (he : Gives (e.eval p call ⟨self,env⟩) h (.bool true) h₁)
    (he' : Gives (e'.eval p call ⟨self,env⟩) h₁ (.bool b) h₂) :
    Gives ((Expr.and [e,e']).eval p call ⟨self,env⟩) h (.bool b) h₂ := by
  refine Gives.bind (v := b) ?_ (gives_pure _ _)
  refine he.bind ((gives_pure true _).bind (he'.bind ((gives_pure b _).bind ?_)))
  cases b with
  | false => exact gives_pure _ _
  | true => exact gives_pure _ _

theorem gives_or_true (he : Gives (e.eval p call ⟨self,env⟩) h (.bool true) h₁) :
    Gives ((Expr.or (e :: es)).eval p call ⟨self,env⟩) h (.bool true) h₁ := by
  refine Gives.bind (v := true) ?_ (gives_pure _ _)
  exact he.bind ((gives_pure true _).bind (gives_pure _ _))

theorem gives_or_false {b : Bool} (he : Gives (e.eval p call ⟨self,env⟩) h (.bool false) h₁)
    (he' : Gives (e'.eval p call ⟨self,env⟩) h₁ (.bool b) h₂) :
    Gives ((Expr.or [e,e']).eval p call ⟨self,env⟩) h (.bool b) h₂ := by
  refine Gives.bind (v := b) ?_ (gives_pure _ _)
  refine he.bind ((gives_pure false _).bind (he'.bind ((gives_pure b _).bind ?_)))
  cases b with
  | false => exact gives_pure _ _
  | true => exact gives_pure _ _

variable {s : Stmt} {ss ts : List Stmt} {flow : Flow}

theorem gives_done : Gives (execAll p call ⟨self,env⟩ []) h (.next env) h :=
  gives_pure _ h

theorem gives_next (hs : Gives (s.exec p call ⟨self,env⟩) h (.next env') h₁)
    (hss : Gives (execAll p call ⟨self,env'⟩ ss) h₁ flow h₂) :
    Gives (execAll p call ⟨self,env⟩ (s :: ss)) h flow h₂ :=
  hs.bind hss

theorem gives_only (hs : Gives (s.exec p call ⟨self,env⟩) h (.next env') h₁) :
    Gives (execAll p call ⟨self,env⟩ [s]) h (.next env') h₁ :=
  gives_next p call hs (gives_done p call)

theorem gives_return (hs : Gives (s.exec p call ⟨self,env⟩) h (.done v) h₁) :
    Gives (execAll p call ⟨self,env⟩ (s :: ss)) h (.done v) h₁ :=
  hs.bind (gives_pure _ _)

theorem gives_append (hss : Gives (execAll p call ⟨self,env⟩ ss) h (.next env') h₁)
    (hts : Gives (execAll p call ⟨self,env'⟩ ts) h₁ flow h₂) :
    Gives (execAll p call ⟨self,env⟩ (ss ++ ts)) h flow h₂ := by
  induction ss generalizing env h with
  | nil =>
    cases hss
    exact hts
  | cons s ss ih =>
    obtain ⟨flow',h',hs,hrest⟩ := Gives.of_bind hss
    cases flow' with
    | next env₁ => exact gives_next p call hs (ih hrest)
    | done v => cases hrest

theorem gives_when_true (he : Gives (e.eval p call ⟨self,env⟩) h (.bool true) h₁)
    (hss : Gives (execAll p call ⟨self,env⟩ ss) h₁ flow h₂) :
    Gives ((Stmt.when e ss).exec p call ⟨self,env⟩) h flow h₂ :=
  he.bind ((gives_pure true _).bind hss)

theorem gives_when_false (he : Gives (e.eval p call ⟨self,env⟩) h (.bool false) h₁) :
    Gives ((Stmt.when e ss).exec p call ⟨self,env⟩) h (.next env) h₁ :=
  he.bind ((gives_pure false _).bind (gives_done p call))

theorem gives_ret (he : Gives (e.eval p call ⟨self,env⟩) h v h₁) :
    Gives ((Stmt.ret (some e)).exec p call ⟨self,env⟩) h (.done v) h₁ :=
  he.bind (gives_pure _ _)

theorem gives_ret_none : Gives ((Stmt.ret none).exec p call ⟨self,env⟩) h (.done .null) h :=
  gives_pure _ _

theorem gives_eval (he : Gives (e.eval p call ⟨self,env⟩) h v h₁) :
    Gives ((Stmt.eval e).exec p call ⟨self,env⟩) h (.next env) h₁ :=
  he.bind (gives_pure _ _)

theorem gives_when_eval (he : Gives (e.eval p call ⟨self,env⟩) h (.bool true) h₁)
    (he' : Gives (e'.eval p call ⟨self,env⟩) h₁ v h₂) :
    Gives ((Stmt.when e [.eval e']).exec p call ⟨self,env⟩) h (.next env) h₂ :=
  gives_when_true p call he (gives_only p call (gives_eval p call he'))

theorem gives_declare (type : String) (he : Gives (e.eval p call ⟨self,env⟩) h v h₁) :
    Gives ((Stmt.declare type n e).exec p call ⟨self,env⟩) h (.next ((n,v) :: env)) h₁ :=
  he.bind (gives_pure _ _)

theorem gives_assignVar (he : Gives (e.eval p call ⟨self,env⟩) h v h₁) :
    Gives ((Stmt.assign (.var n) e).exec p call ⟨self,env⟩) h (.next ((n,v) :: env)) h₁ :=
  he.bind (gives_pure _ _)

theorem gives_comment (text : String) :
    Gives ((Stmt.comment text).exec p call ⟨self,env⟩) h (.next env) h :=
  gives_pure _ _

theorem gives_assignField (he : Gives (e.eval p call ⟨.ref a,env⟩) h v h₁)
    (ha : h₁.IsEntity a type) :
    Gives ((Stmt.assign (.thisField n) e).exec p call ⟨.ref a,env⟩) h (.next env)
      (h₁.assign a n v) :=
  he.bind ((gives_this p call).bind ((gives_assign ha n v).bind (gives_pure _ _)))

/-- A loop over a collection that its body leaves alone keeps what every turn of it keeps. -/
theorem exists_forEach_locals {items : List Value} {unique : Bool} {changes : Nat}
    (I : List Value → List (String × Value) → Heap → Prop)
    (he : Gives (e.eval p call ⟨self,env⟩) h (.ref c) h₁) (hI : I items env h₁)
    (hkeep : ∀ vs env h, I vs env h → h.get? c = some (.collection items unique changes))
    (hstep : ∀ v vs env h, I (v :: vs) env h → ∃ env' h',
      Gives (execAll p call ⟨self,(n,v) :: env⟩ ss) h (.next env') h' ∧ I vs env' h')
    (type : String) : ∃ env' h',
      Gives ((Stmt.forEach type n e ss).exec p call ⟨self,env⟩) h (.next env') h' ∧
        I [] env' h' := by
  -- by induction on the elements still to come, with the locals of earlier turns left open
  have hloop : ∀ vs env h, I vs env h → ∃ env' h',
      Gives (iterate (fun env => execAll p call ⟨self,env⟩ ss) n (.ref c) changes vs env) h
        (.next env') h' ∧ I [] env' h' := by
    intro vs
    induction vs with
    | nil => exact fun env h hI => ⟨env,h,gives_pure _ _,hI⟩
    | cons v vs ih =>
      intro env h hI
      obtain ⟨env₁,h₁,hbody,hI₁⟩ := hstep v vs env h hI
      obtain ⟨env₂,h₂,hrest,hI₂⟩ := ih env₁ h₁ hI₁
      refine ⟨env₂,h₂,?_,hI₂⟩
      rw [iterate]
      refine hbody.bind ((gives_changes (hkeep vs env₁ h₁ hI₁)).bind ?_)
      rw [if_pos rfl]
      exact hrest
  have hc := hkeep items env h₁ hI
  obtain ⟨env',h',hrun,hI'⟩ := hloop items env h₁ hI
  refine ⟨env',h',?_,hI'⟩
  refine he.bind ((gives_items ⟨_,_,_,hc⟩).bind ((gives_changes hc).bind ?_))
  rw [Heap.items_ref hc]
  exact hrun

/-- A loop whose locals do not matter. -/
theorem exists_forEach {items : List Value} {unique : Bool} {changes : Nat}
    (I : List Value → Heap → Prop) (he : Gives (e.eval p call ⟨self,env⟩) h (.ref c) h₁)
    (hI : I items h₁)
    (hkeep : ∀ vs h, I vs h → h.get? c = some (.collection items unique changes))
    (hstep : ∀ v vs env h, I (v :: vs) h → ∃ env' h',
      Gives (execAll p call ⟨self,(n,v) :: env⟩ ss) h (.next env') h' ∧ I vs h')
    (type : String) : ∃ env' h',
      Gives ((Stmt.forEach type n e ss).exec p call ⟨self,env⟩) h (.next env') h' ∧ I [] h' :=
  exists_forEach_locals p call (fun vs _ h => I vs h) he hI (fun vs _ => hkeep vs) hstep type

end Code

section Run

variable {p : Program} {d : Nat} {self v w : Value} {m : Method} {vs : List Value} {h h' : Heap}

theorem gives_run_done (hlen : m.params.length = vs.length)
    (hbody : Gives (execAll p (dispatch p (p.run d)) ⟨self,(m.params.map Param.name).zip vs⟩ m.body)
      h (.done v) h') : Gives (p.run (d + 1) self m vs) h v h' := by
  rw [Program.run,if_neg (fun hne => hne hlen)]
  exact hbody.bind (gives_pure _ _)

theorem gives_run_next {env : List (String × Value)} (hlen : m.params.length = vs.length)
    (hbody : Gives (execAll p (dispatch p (p.run d)) ⟨self,(m.params.map Param.name).zip vs⟩ m.body)
      h (.next env) h') : Gives (p.run (d + 1) self m vs) h .null h' := by
  rw [Program.run,if_neg (fun hne => hne hlen)]
  exact hbody.bind (gives_pure _ _)

/-- A method of one parameter sees its argument. -/
theorem frame_one {type name : String} (hm : m.params = [⟨type,name⟩]) (v : Value) :
    m.params.length = [v].length ∧ (m.params.map Param.name).zip [v] = [(name,v)] := by
  rw [hm]
  exact ⟨rfl,rfl⟩

theorem gives_run_one_done {type name : String} (hm : m.params = [⟨type,name⟩])
    (hbody : Gives (execAll p (dispatch p (p.run d)) ⟨self,[(name,v)]⟩ m.body) h (.done w) h') :
    Gives (p.run (d + 1) self m [v]) h w h' := by
  obtain ⟨hlen,hzip⟩ := frame_one hm v
  rw [← hzip] at hbody
  exact gives_run_done hlen hbody

theorem gives_run_one_next {type name : String} {env : List (String × Value)}
    (hm : m.params = [⟨type,name⟩])
    (hbody : Gives (execAll p (dispatch p (p.run d)) ⟨self,[(name,v)]⟩ m.body) h (.next env) h') :
    Gives (p.run (d + 1) self m [v]) h .null h' := by
  obtain ⟨hlen,hzip⟩ := frame_one hm v
  rw [← hzip] at hbody
  exact gives_run_next hlen hbody

/-- A method that refuses its argument returns false and does nothing else. -/
theorem gives_refused {type name : String} {c : Expr} {rest : List Stmt}
    (hm : m.params = [⟨type,name⟩]) (hbody : m.body = .returnIf c (some (.bool false)) :: rest)
    (hguard : Gives (c.eval p (dispatch p (p.run d)) ⟨self,[(name,v)]⟩) h (.bool true) h') :
    Gives (p.run (d + 1) self m [v]) h (.bool false) h' := by
  refine gives_run_one_done hm ?_
  rw [hbody]
  exact gives_return _ _ (gives_when_true _ _ hguard (gives_return _ _
    (gives_ret _ _ (gives_bool _ _ _))))

/-- A method that accepts its argument makes its change, goes on from there and returns true. -/
theorem gives_accepted {type name : String} {c change : Expr} {rest : List Stmt}
    {env : List (String × Value)} {h₁ h₂ : Heap} (hm : m.params = [⟨type,name⟩])
    (hbody : m.body = [.returnIf c (some (.bool false)),.eval change] ++ rest ++
      [.ret (some (.bool true))])
    (hguard : Gives (c.eval p (dispatch p (p.run d)) ⟨self,[(name,v)]⟩) h (.bool false) h₁)
    (hchange : Gives (change.eval p (dispatch p (p.run d)) ⟨self,[(name,v)]⟩) h₁ w h₂)
    (hrest : Gives (execAll p (dispatch p (p.run d)) ⟨self,[(name,v)]⟩ rest) h₂ (.next env) h') :
    Gives (p.run (d + 1) self m [v]) h (.bool true) h' := by
  refine gives_run_one_done hm ?_
  rw [hbody]
  refine gives_append _ _ (gives_append _ _ ?_ hrest)
    (gives_return _ _ (gives_ret _ _ (gives_bool _ _ _)))
  exact gives_next _ _ (gives_when_false _ _ hguard) (gives_only _ _ (gives_eval _ _ hchange))

end Run

end EntityLink.Java
