import EntityLink.Proofs.InverseCalls
import EntityLink.Proofs.LocalNames

namespace EntityLink
open Java Java.Exec Java.Heap

variable {p : Program} {l l' : Link} {d : Nat} {h : Heap} {X Y : Nat → Nat → Prop} {a b : Nat}
  {env : List (String × Value)}

theorem Link.adder_body {i : Inverse} (hi : l.inverse = some i) :
    l.adder.body =
      [.returnIf (.or [.isNull (.var l.elementParam),l.holds (.var l.elementParam)])
          (some (.bool false)),
        .eval (.call l.live "add" [.var l.elementParam])] ++ l.linkElement i ++
      [.ret (some (.bool true))] := by
  simp only [adder,hi]

theorem Link.afterRemoval_eq {i : Inverse} (hi : l.inverse = some i) :
    l.afterRemoval = [l.unlinkElement i] ++ (if l.policy.orphanRemoval then
      [.eval (.callThis l.names.orphanHook [.var l.elementParam])] else []) := by
  simp only [afterRemoval,hi]

/-- A new element refers to `this` afterwards, and to no other object unless it is shared. -/
theorem exists_linkElement (hp : p.Couples l l') (hx : l.side.many = true)
    (hname : l'.side.many = true ∨ l.elementParam ≠ Link.previousLocal l'.field)
    (hr : h.Represents l.side l'.side X Y) (ha : h.IsEntity a l.side.type)
    (hb : h.IsEntity b l'.side.type) (he : env.lookup l.elementParam = some (.ref b)) :
    ∃ env' h', Gives (execAll p (dispatch p (p.run (d + 2))) ⟨.ref a,env⟩
        (l.linkElement l'.asInverse)) h (.next env') h' ∧
      h.Becomes l.side l'.side
        (fun a' b' => X a' b' ∧ (l'.side.many = true ∨ (b' = b → Y b a' → a' = a)))
        (Function.update Y b (fun a' => a' = a ∨ (l'.side.many = true ∧ Y b a'))) h' := by
  cases hy : l'.side.many with
  | true =>
    obtain ⟨env',h',hrun,hbecomes⟩ := exists_linkElement_many (d := d) hp hy hr ha hb he
    refine ⟨env',h',hrun,hbecomes.congr ?_ ?_⟩
    · exact fun _ _ _ => ⟨fun hx => ⟨hx,.inl rfl⟩,And.left⟩
    · simp
  | false =>
    have hne := hname.resolve_left (ne_true_of_eq_false hy)
    obtain ⟨env',h',hrun,hbecomes⟩ := exists_linkElement_single (d := d + 1) hp hx hy hr ha hb he
      hne
    refine ⟨env',h',hrun,hbecomes.congr ?_ ?_⟩
    · simp
    · simp

theorem Java.Program.Couples.elementParam_ne (hp : p.Couples l l') (hshadow : l.adder.Unshadowed) :
    l'.side.many = true ∨ l.elementParam ≠ Link.previousLocal l'.field := by
  have hnames := hshadow ⟨l.targetType,l.elementParam⟩ (List.mem_singleton_self _)
  rw [Link.adder_body hp.there] at hnames
  cases hy : l'.side.many with
  | true => exact .inl rfl
  | false =>
    have hone : ¬ l'.asInverse.collection = true := ne_true_of_eq_false hy
    rw [Link.linkElement,if_neg hone] at hnames
    simp only [declaredAll,declaredAll_append,Stmt.declared_when,Stmt.returnIf,Stmt.declared,
      List.mem_append,List.mem_singleton,not_or] at hnames
    exact .inr hnames.1.2.1

/-- An element that is added leaves its previous owner. -/
theorem relinks_add (hmirror : h.Mirrors l.side l'.side X Y) (hb : h.IsEntity b l'.side.type)
    {h' : Heap}
    (hbecomes : h.Becomes l.side l'.side
      (fun a' b' => Function.update X a (fun b' => b' = b ∨ X a b') a' b' ∧
        (l'.side.many = true ∨ (b' = b → Y b a' → a' = a)))
      (Function.update Y b (fun a' => a' = a ∨ (l'.side.many = true ∧ Y b a'))) h') :
    h.Relinks l.side l'.side X Y a (fun _ => False) (fun b' => Value.ref b = .ref b') h' := by
  refine hbecomes.congr (fun a' b' ha' => ?_) (fun a' b' _ => ?_)
  · have hback : b' = b → (X a' b' ↔ Y b a') := fun h => h ▸ hmirror a' b ha' hb
    by_cases haa : a' = a
    · subst haa
      simp [Relinked,@eq_comm _ b]
    · rw [Function.update_of_ne haa]
      simp only [Relinked,haa,false_and,false_or,not_false_eq_true,true_and,imp_false,
        Value.ref.injEq]
      grind
  · by_cases hbb : b' = b
    · subst hbb
      simp [Relinked]
      grind
    · rw [Function.update_of_ne hbb]
      simp [Relinked,Ne.symm hbb]

theorem exists_adder (hp : p.Couples l l') (hx : l.side.many = true)
    (hshadow : l.adder.Unshadowed) (hr : h.Represents l.side l'.side X Y)
    (hmirror : h.Mirrors l.side l'.side X Y) (ha : h.IsEntity a l.side.type) {v : Value}
    (hvalue : h.Fits l'.side.type v) :
    ∃ t h', Gives (p.run (d + 3) (.ref a) l.adder [v]) h (.bool t) h' ∧
      h.Relinks l.side l'.side X Y a (fun _ => False) (fun b => v = .ref b) h' := by
  have hvar : Gives ((Expr.var l.elementParam).eval p (dispatch p (p.run (d + 2)))
      ⟨.ref a,[(l.elementParam,v)]⟩) h v h := gives_var _ _ List.lookup_cons_self
  have hisNull := gives_isNull _ _ hvar
  rcases hvalue with rfl | ⟨b,rfl,hb⟩
  · refine ⟨false,h,gives_refused rfl rfl (gives_or_true _ _ hisNull),hr.relinks_self hmirror ha ?_⟩
    simp
  · have hlookup : [(l.elementParam,Value.ref b)].lookup l.elementParam = some (.ref b) :=
      List.lookup_cons_self
    obtain ⟨t,h₁,hholds,ht,hb₁⟩ := exists_holds (d := d + 1) hp.left hx hr ha hlookup
    have hguard := gives_or_false _ _ hisNull hholds
    by_cases hold : X a b
    · rw [ht.mpr hold] at hguard
      refine ⟨false,h₁,gives_refused rfl rfl hguard,hb₁.trans (hb₁.represents.relinks_self
        (hmirror.within hb₁.within) ((hb₁.within.entity a _).mpr ha) (fun b' => ?_))⟩
      simpa using fun hb' : b = b' => hb' ▸ hold
    · rw [Bool.eq_false_iff.mpr (mt ht.mp hold)] at hguard
      obtain ⟨h₂,hadd,hb₂⟩ := exists_add (d := d + 1) hp.left hx hb₁.represents
        ((hb₁.within.entity a _).mpr ha) hlookup ((hb₁.within.entity b _).mpr hb) hold
      have hb₂' := hb₁.trans hb₂
      obtain ⟨env,h₃,hlink,hb₃⟩ := exists_linkElement (d := d) hp hx (hp.elementParam_ne hshadow)
        hb₂'.represents ((hb₂'.within.entity a _).mpr ha) ((hb₂'.within.entity b _).mpr hb)
        hlookup
      exact ⟨true,h₃,gives_accepted rfl (Link.adder_body hp.there) hguard hadd hlink,
        relinks_add hmirror hb (hb₂'.trans hb₃)⟩

/-- An element that left lets go of `this`, and the hook for orphans is told. -/
theorem exists_afterRemoval (hp : p.Couples l l') (hr : h.Represents l.side l'.side X Y)
    (ha : h.IsEntity a l.side.type) (hb : h.IsEntity b l'.side.type)
    (he : env.lookup l.elementParam = some (.ref b)) :
    ∃ h', Gives (execAll p (dispatch p (p.run (d + 1))) ⟨.ref a,env⟩ l.afterRemoval) h
        (.next env) h' ∧
      h.Becomes l.side l'.side X (Function.update Y b (fun a' => a' ≠ a ∧ Y b a')) h' := by
  obtain ⟨h',hunlink,hbecomes⟩ := exists_unlinkElement (a := a) (d := d) hp hr hb he
  refine ⟨h',?_,hbecomes⟩
  have ha' := (hbecomes.within.entity a _).mpr ha
  rw [Link.afterRemoval_eq hp.there]
  refine gives_append _ _ (gives_only _ _ hunlink) ?_
  split
  · rename_i horphan
    exact gives_only _ _ (gives_eval _ _ (gives_call_one _ _ (gives_this _ _) (gives_var _ _ he)
      (gives_orphanHook hp.left horphan ha' _)))
  · exact gives_done _ _

/-- An element that is removed and lets go is not linked any more. -/
theorem relinks_remove {h' : Heap} (hbecomes : h.Becomes l.side l'.side
      (Function.update X a (fun b' => b' ≠ b ∧ X a b'))
      (Function.update Y b (fun a' => a' ≠ a ∧ Y b a')) h') :
    h.Relinks l.side l'.side X Y a (fun b' => Value.ref b = .ref b') (fun _ => False) h' := by
  refine hbecomes.congr (fun a' b' _ => ?_) (fun a' b' _ => ?_)
  · by_cases haa : a' = a
    · subst haa
      simp [Relinked,@eq_comm _ b,and_comm]
    · simp [Relinked,haa]
  · by_cases hbb : b' = b
    · subst hbb
      simp [Relinked,and_comm]
    · simp [Relinked,hbb,Ne.symm hbb]

theorem exists_remover (hp : p.Couples l l') (hx : l.side.many = true)
    (hr : h.Represents l.side l'.side X Y) (hmirror : h.Mirrors l.side l'.side X Y)
    (ha : h.IsEntity a l.side.type) {v : Value}
    (hvalue : h.Fits l'.side.type v) :
    ∃ t h', Gives (p.run (d + 2) (.ref a) l.remover [v]) h (.bool t) h' ∧
      h.Relinks l.side l'.side X Y a (fun b => v = .ref b) (fun _ => False) h' := by
  have hvar : Gives ((Expr.var l.elementParam).eval p (dispatch p (p.run (d + 1)))
      ⟨.ref a,[(l.elementParam,v)]⟩) h v h := gives_var _ _ List.lookup_cons_self
  have hisNull := gives_isNull _ _ hvar
  rcases hvalue with rfl | ⟨b,rfl,hb⟩
  · refine ⟨false,h,gives_refused rfl rfl (gives_or_true _ _ hisNull),hr.relinks_self hmirror ha ?_⟩
    simp
  · have hlookup : [(l.elementParam,Value.ref b)].lookup l.elementParam = some (.ref b) :=
      List.lookup_cons_self
    obtain ⟨t,h₁,hholds,ht,hb₁⟩ := exists_holds (d := d) hp.left hx hr ha hlookup
    have hguard := gives_or_false _ _ hisNull (gives_not _ _ hholds)
    by_cases hold : X a b
    · rw [ht.mpr hold] at hguard
      obtain ⟨h₂,hremove,hb₂⟩ := exists_remove (d := d) hp.left hx hb₁.represents
        ((hb₁.within.entity a _).mpr ha) hlookup hold
      have hb₂' := hb₁.trans hb₂
      obtain ⟨h₃,hafter,hb₃⟩ := exists_afterRemoval (d := d) hp hb₂'.represents
        ((hb₂'.within.entity a _).mpr ha) ((hb₂'.within.entity b _).mpr hb) hlookup
      exact ⟨true,h₃,gives_accepted rfl rfl hguard hremove hafter,
        relinks_remove (hb₂'.trans hb₃)⟩
    · rw [Bool.eq_false_iff.mpr (mt ht.mp hold)] at hguard
      refine ⟨false,h₁,gives_refused rfl rfl hguard,hb₁.trans (hb₁.represents.relinks_self
        (hmirror.within hb₁.within) ((hb₁.within.entity a _).mpr ha) (fun b' => ?_))⟩
      simpa using fun hlink (hb' : b = b') => hold (hb' ▸ hlink)

theorem Link.clearer_body {i : Inverse} (hi : l.inverse = some i) :
    l.clearer.body = [
      .declare ("List<" ++ l.targetType ++ ">") ("removed" ++ Text.capitalize l.field)
        (.createDiamond "ArrayList" [l.live]),
      .eval (.call l.live "clear" []),
      .forEach l.targetType l.elementParam (.var ("removed" ++ Text.capitalize l.field))
        l.afterRemoval] := by
  have hafter : ¬ l.afterRemoval.isEmpty = true := by
    rw [Link.afterRemoval_eq hi]
    exact Bool.false_ne_true
  simp only [clearer,if_neg hafter]

/-- A copy of a collection is held by no field. -/
theorem exists_copy {call : Value → String → List Value → Exec Value} {self : Value} {e : Expr}
    {x y : Side} {c : Nat} {h₁ : Heap} (he : Gives (e.eval p call ⟨self,env⟩) h (.ref c) h₁)
    (hr : h₁.Represents x y X Y) (hc : h₁.IsCollection c) (type : String) :
    ∃ k unique h₂, Gives ((Expr.createDiamond type [e]).eval p call ⟨self,env⟩) h (.ref k) h₂ ∧
      h₁.Becomes x y X Y h₂ ∧ h₂.Loose k (.collection (h₁.items (.ref c)) unique 0) :=
  ⟨_,_,_,gives_copy p call he hc type,hr.push _ _ _,hr.tidy.loose_push⟩

/-- What holds while the elements `vs`, of those that left `a`, have still to let go. -/
structure Leaving (h : Heap) (x y : Side) (X Y : Nat → Nat → Prop) (a k : Nat) (copy : Object)
    (vs : List Value) (h' : Heap) : Prop where
  becomes : h.Becomes x y (fun a' b' => X a' b' ∧ a' ≠ a)
    (fun b' a' => Y b' a' ∧ (a' = a → .ref b' ∈ vs)) h'
  loose : h'.Loose k copy
  nodup : vs.Nodup
  typed : ∀ v ∈ vs, ∃ b, v = .ref b ∧ h.IsEntity b y.type

/-- One element after another lets go. -/
theorem exists_leaving_step (hp : p.Couples l l') (ha : h.IsEntity a l.side.type) {k : Nat}
    {items : List Value} {unique : Bool} {changes : Nat} {v : Value} {vs : List Value} {h₁ : Heap}
    (hl : Leaving h l.side l'.side X Y a k (.collection items unique changes) (v :: vs) h₁) :
    ∃ h', Gives (execAll p (dispatch p (p.run (d + 1))) ⟨.ref a,(l.elementParam,v) :: env⟩
        l.afterRemoval) h₁ (.next ((l.elementParam,v) :: env)) h' ∧
      Leaving h l.side l'.side X Y a k (.collection items unique changes) vs h' := by
  obtain ⟨b,rfl,hb⟩ := hl.typed v (List.mem_cons_self)
  obtain ⟨hnew,hnodup⟩ := List.nodup_cons.mp hl.nodup
  have hlookup : ((l.elementParam,Value.ref b) :: env).lookup l.elementParam = some (.ref b) :=
    List.lookup_cons_self
  obtain ⟨h',hrun,hb'⟩ := exists_afterRemoval (d := d) hp hl.becomes.represents
    ((hl.becomes.within.entity a _).mpr ha) ((hl.becomes.within.entity b _).mpr hb) hlookup
  refine ⟨h',hrun,(hl.becomes.trans hb').congr (fun _ _ _ => Iff.rfl) (fun a' b' _ => ?_),
    hb'.loose hl.loose,hnodup,fun w hw => hl.typed w (List.mem_cons_of_mem _ hw)⟩
  by_cases hbb : b' = b
  · subst hbb
    rw [Function.update_self]
    simp [hnew,and_comm]
  · simp [hbb]

/-- A cleared collection has left `a`, and all its elements have still to let go. -/
theorem leaving_all (hx : l.side.many = true) (hmirror : h.Mirrors l.side l'.side X Y)
    (ha : h.IsEntity a l.side.type) {k c : Nat} {copy : Object} {h₁ h₂ : Heap}
    (hb₁ : h.Becomes l.side l'.side X Y h₁) (hfield : h₁.field a l.side.field = .ref c)
    (hb₂ : h.Becomes l.side l'.side (Function.update X a (fun _ => False)) Y h₂)
    (hloose : h₂.Loose k copy) :
    Leaving h l.side l'.side X Y a k copy (h₁.items (.ref c)) h₂ := by
  have ha₁ := (hb₁.within.entity a _).mpr ha
  refine ⟨hb₂.congr ?_ ?_,hloose,hb₁.represents.nodup_items hx ha₁ hfield,?_⟩
  · intro a' b' _
    by_cases haa : a' = a
    · simp [haa]
    · simp [haa]
  · intro a' b' hb'
    refine ⟨fun hy => ⟨hy,fun haa => ?_⟩,And.left⟩
    rw [hb₁.represents.mem_items hx ha₁ hfield,hmirror a b' ha hb']
    exact haa ▸ hy
  · intro v hv
    obtain ⟨b,rfl,hb⟩ := hb₁.represents.typed_items hx ha₁ hfield v hv
    exact ⟨b,rfl,(hb₁.within.entity b _).mp hb⟩

theorem exists_clearer (hp : p.Couples l l') (hx : l.side.many = true)
    (hr : h.Represents l.side l'.side X Y) (hmirror : h.Mirrors l.side l'.side X Y)
    (ha : h.IsEntity a l.side.type) :
    ∃ h', Gives (p.run (d + 2) (.ref a) l.clearer []) h .null h' ∧
      h.Relinks l.side l'.side X Y a (fun _ => True) (fun _ => False) h' := by
  obtain ⟨c,h₁,hget,hb₁,hfield,hc⟩ := exists_manyGetter (d := d) hp.left hx hr ha
  have hlive : Gives (l.live.eval p (dispatch p (p.run (d + 1))) ⟨.ref a,[]⟩) h (.ref c) h₁ :=
    gives_call_none _ _ (gives_this _ _) hget
  obtain ⟨k,unique,h₂,hcopy,hb₂,hloose⟩ := exists_copy hlive hb₁.represents hc "ArrayList"
  have hb₂' := hb₁.trans hb₂
  obtain ⟨h₃,hclear,hb₃⟩ := exists_clear (d := d) hp.left hx hb₂'.represents
    ((hb₂'.within.entity a _).mpr ha) [("removed" ++ Text.capitalize l.field,.ref k)]
  have hstart := leaving_all hx hmirror ha hb₁ hfield (hb₂'.trans hb₃) (hb₃.loose hloose)
  have hvar : Gives ((Expr.var ("removed" ++ Text.capitalize l.field)).eval p
      (dispatch p (p.run (d + 1)))
      ⟨.ref a,[("removed" ++ Text.capitalize l.field,.ref k)]⟩) h₃ (.ref k) h₃ :=
    gives_var _ _ List.lookup_cons_self
  obtain ⟨env,h',hloop,hdone⟩ := exists_forEach _ _ _ hvar hstart (fun _ _ hl => hl.loose.1)
    (fun _ _ _ _ hl => ⟨_,exists_leaving_step (d := d) hp ha hl⟩) l.targetType
  have hbody : Gives (execAll p (dispatch p (p.run (d + 1))) ⟨.ref a,[]⟩ l.clearer.body) h
      (.next env) h' := by
    rw [Link.clearer_body hp.there]
    exact gives_next _ _ (gives_declare _ _ _ hcopy) (gives_next _ _ (gives_eval _ _ hclear)
      (gives_only _ _ hloop))
  refine ⟨h',gives_run_next rfl hbody,hdone.becomes.congr ?_ ?_⟩
  · simp [Relinked]
  · simp [Relinked]

end EntityLink
