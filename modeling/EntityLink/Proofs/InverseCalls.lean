import EntityLink.Proofs.EntryCalls

namespace EntityLink
open Java Java.Exec Java.Heap

/-- A program runs the accessors of two links, the second of which is the inverse side of the
first. -/
structure Java.Program.Couples (p : Program) (l l' : Link) : Prop where
  left : p.Serves l
  right : p.Serves l'
  there : l.inverse = some l'.asInverse
  kinds : l.kind.complements l'.kind = true

section Inverse

variable {p : Program} {l l' : Link} {d : Nat} {h : Heap} {X Y : Nat → Nat → Prop} {a b : Nat}
  {env : List (String × Value)} {n : String}

/-- The value lets go of `this`. -/
theorem exists_detach (hp : p.Couples l l') (hr : h.Represents l.side l'.side X Y)
    (hb : h.IsEntity b l'.side.type) (hback : Y b a) (hn : env.lookup n = some (.ref b)) :
    ∃ v h', Gives ((Link.detach l'.asInverse (.var n)).eval p (dispatch p (p.run (d + 1)))
        ⟨.ref a,env⟩) h v h' ∧
      h.Becomes l.side l'.side X (Function.update Y b (fun a' => a' ≠ a ∧ Y b a')) h' := by
  rw [Link.detach]
  split
  · rename_i hmany
    obtain ⟨h',hcall,hbecomes⟩ := exists_internalRemover (d := d) hp.right hmany hr.symm hb a
    exact ⟨.null,h',gives_call_one _ _ (gives_var _ _ hn) (gives_this _ _) hcall,hbecomes.symm⟩
  · rename_i hone
    have hsingle : l'.side.many = false := Bool.eq_false_iff.mpr hone
    have hcall := gives_singleInternalSetter (d := d) hp.right hsingle hb .null
    refine ⟨.null,_,gives_call_one _ _ (gives_var _ _ hn) (gives_null _ _) hcall,?_⟩
    exact (hr.symm.release hsingle hb hback).symm

/-- An element that left a collection lets go of `this`, if it still refers to it. -/
theorem exists_unlinkElement (hp : p.Couples l l') (hr : h.Represents l.side l'.side X Y)
    (hb : h.IsEntity b l'.side.type) (he : env.lookup l.elementParam = some (.ref b)) :
    ∃ h', Gives ((l.unlinkElement l'.asInverse).exec p (dispatch p (p.run (d + 1)))
        ⟨.ref a,env⟩) h (.next env) h' ∧
      h.Becomes l.side l'.side X (Function.update Y b (fun a' => a' ≠ a ∧ Y b a')) h' := by
  rw [Link.unlinkElement]
  split
  · rename_i hmany
    obtain ⟨h',hcall,hbecomes⟩ := exists_internalRemover (d := d) hp.right hmany hr.symm hb a
    exact ⟨h',gives_eval _ _ (gives_call_one _ _ (gives_var _ _ he) (gives_this _ _) hcall),
      hbecomes.symm⟩
  · rename_i hone
    have hsingle : l'.side.many = false := Bool.eq_false_iff.mpr hone
    have hget := gives_singleGetter (d := d) hp.right hsingle hb
    have hguard : Gives ((Expr.same (.call (.var l.elementParam) l'.names.getter []) .this).eval p
        (dispatch p (p.run (d + 1))) ⟨.ref a,env⟩) h
        (.bool (h.field b l'.side.field == .ref a)) h :=
      gives_same _ _ (gives_call_none _ _ (gives_var _ _ he) hget) (gives_this _ _)
    by_cases hback : Y b a
    · rw [(hr.symm.field_eq_iff hsingle hb a).mpr hback,beq_self_eq_true] at hguard
      have hcall := gives_singleInternalSetter (d := d) hp.right hsingle hb .null
      refine ⟨_,gives_when_eval _ _ hguard
        (gives_call_one _ _ (gives_var _ _ he) (gives_null _ _) hcall),?_⟩
      exact (hr.symm.release hsingle hb hback).symm
    · have hne := mt (hr.symm.field_eq_iff hsingle hb a).mp hback
      rw [beq_eq_false_iff_ne.mpr hne] at hguard
      refine ⟨h,gives_when_false _ _ hguard,(hr.symm.becomes.update_self ?_).symm⟩
      exact fun a' => ⟨fun ha' => ⟨fun h => hback (h ▸ ha'),ha'⟩,And.right⟩

/-- A new element that refers to many takes `this` to them. -/
theorem exists_linkElement_many (hp : p.Couples l l') (hy : l'.side.many = true)
    (hr : h.Represents l.side l'.side X Y) (ha : h.IsEntity a l.side.type)
    (hb : h.IsEntity b l'.side.type) (he : env.lookup l.elementParam = some (.ref b)) :
    ∃ env' h', Gives (execAll p (dispatch p (p.run (d + 2))) ⟨.ref a,env⟩
        (l.linkElement l'.asInverse)) h (.next env') h' ∧
      h.Becomes l.side l'.side X (Function.update Y b (fun a' => a' = a ∨ Y b a')) h' := by
  obtain ⟨h',hcall,hbecomes⟩ := exists_internalAdder (d := d) hp.right hy hr.symm hb ha
  have hmany : l'.asInverse.collection = true := hy
  rw [Link.linkElement,if_pos hmany]
  exact ⟨env,h',gives_only _ _ (gives_eval _ _
    (gives_call_one _ _ (gives_var _ _ he) (gives_this _ _) hcall)),hbecomes.symm⟩

/-- Letting go of `b` at its only owner leaves no owner but `a`. -/
theorem update_owner_iff {a₀ : Nat} (hown : a₀ ≠ a) (hback : Y b a₀)
    (honly : ∀ a', Y b a' → a' = a₀) (a' b' : Nat) :
    Function.update X a₀ (fun b' => b' ≠ b ∧ X a₀ b') a' b' ↔
      X a' b' ∧ (b' = b → Y b a' → a' = a) := by
  by_cases ha' : a' = a₀
  · subst ha'
    rw [Function.update_self]
    exact ⟨fun hx => ⟨hx.2,fun hb' => absurd hb' hx.1⟩,
      fun hx => ⟨fun hb' => hown (hx.2 hb' hback),hx.1⟩⟩
  · rw [Function.update_of_ne ha']
    exact ⟨fun hx => ⟨hx,fun _ hy' => absurd (honly a' hy') ha'⟩,And.left⟩

/-- Another owner of `b` is asked for and lets go of it. -/
theorem exists_leaveOwner (hp : p.Couples l l') (hy : l'.side.many = false)
    (hr : h.Represents l.side l'.side X Y) (hb : h.IsEntity b l'.side.type) {value : String}
    (hv : env.lookup value = some (.ref b)) {letGo : Expr}
    (hletGo : ∀ a₀, h.IsEntity a₀ l.side.type → Y b a₀ → a₀ ≠ a → ∃ v h',
      Gives (letGo.eval p (dispatch p (p.run (d + 1))) ⟨.ref a,(n,.ref a₀) :: env⟩) h v h' ∧
      h.Becomes l.side l'.side (Function.update X a₀ (fun b' => b' ≠ b ∧ X a₀ b')) Y h')
    (type : String) :
    ∃ w h', Gives (execAll p (dispatch p (p.run (d + 1))) ⟨.ref a,env⟩
        [.declare type n (.call (.var value) l'.names.getter []),
          .when (.and [.notNull (.var n),.notSame (.var n) .this]) [.eval letGo]]) h
        (.next ((n,w) :: env)) h' ∧
      h.Becomes l.side l'.side (fun a' b' => X a' b' ∧ (b' = b → Y b a' → a' = a)) Y h' := by
  have hget := gives_singleGetter (d := d) hp.right hy hb
  have hdeclare : Gives ((Stmt.declare type n (.call (.var value) l'.names.getter [])).exec p
      (dispatch p (p.run (d + 1))) ⟨.ref a,env⟩) h
      (.next ((n,h.field b l'.side.field) :: env)) h :=
    gives_declare _ _ _ (gives_call_none _ _ (gives_var _ _ hv) hget)
  have hn : ∀ w, ((n,w) :: env).lookup n = some w := fun w => List.lookup_cons_self
  have hstays : ∀ {h'}, (∀ a', Y b a' → a' = a) → h.Becomes l.side l'.side X Y h' →
      h.Becomes l.side l'.side (fun a' b' => X a' b' ∧ (b' = b → Y b a' → a' = a)) Y h' :=
    fun hown hbecomes => hbecomes.congr
      (fun a' _ _ => ⟨fun hx => ⟨hx,fun _ => hown a'⟩,And.left⟩) (fun _ _ _ => Iff.rfl)
  rcases hr.symm.field_cases hy hb with hnull | ⟨a₀,hfield,ha₀⟩
  · rw [hnull] at hdeclare
    refine ⟨.null,h,gives_next _ _ hdeclare (gives_only _ _ (gives_when_false _ _
      (gives_and_false _ _ (gives_notNull _ _ (gives_var _ _ (hn .null)))))),
      hstays ?_ hr.becomes⟩
    intro a' ha'
    rw [← hr.symm.field_eq_iff hy hb,hnull] at ha'
    cases ha'
  · have hback := (hr.symm.field_eq_iff hy hb a₀).mp hfield
    rw [hfield] at hdeclare
    have hguard : Gives ((Expr.and [.notNull (.var n),.notSame (.var n) .this]).eval p
        (dispatch p (p.run (d + 1))) ⟨.ref a,(n,.ref a₀) :: env⟩) h
        (.bool (Value.ref a₀ != .ref a)) h :=
      gives_and_true _ _ (gives_notNull _ _ (gives_var _ _ (hn _)))
        (gives_notSame _ _ (gives_var _ _ (hn _)) (gives_this _ _))
    by_cases hown : a₀ = a
    · rw [hown,bne_self_eq_false] at hguard
      rw [hown] at hdeclare hback
      refine ⟨.ref a,h,gives_next _ _ hdeclare (gives_only _ _ (gives_when_false _ _ hguard)),
        hstays ?_ hr.becomes⟩
      exact fun a' ha' => hr.symm.single_unique hy hb ha' hback
    · rw [bne_iff_ne.mpr (fun h => hown (Value.ref.inj h))] at hguard
      obtain ⟨v,h',hcall,hbecomes⟩ := hletGo a₀ ha₀ hback hown
      refine ⟨.ref a₀,h',gives_next _ _ hdeclare
        (gives_only _ _ (gives_when_eval _ _ hguard hcall)),
        hbecomes.congr (fun a' b' _ => ?_) (fun _ _ _ => Iff.rfl)⟩
      exact update_owner_iff hown hback
        (fun a' ha' => hr.symm.single_unique hy hb ha' hback) a' b'

/-- A new element that refers to one leaves the collection of its previous owner and refers to
`this`. -/
theorem exists_linkElement_single (hp : p.Couples l l') (hx : l.side.many = true)
    (hy : l'.side.many = false) (hr : h.Represents l.side l'.side X Y)
    (ha : h.IsEntity a l.side.type) (hb : h.IsEntity b l'.side.type)
    (he : env.lookup l.elementParam = some (.ref b))
    (hname : l.elementParam ≠ Link.previousLocal l'.field) :
    ∃ env' h', Gives (execAll p (dispatch p (p.run (d + 1))) ⟨.ref a,env⟩
        (l.linkElement l'.asInverse)) h (.next env') h' ∧
      h.Becomes l.side l'.side (fun a' b' => X a' b' ∧ (b' = b → Y b a' → a' = a))
        (Function.update Y b (fun a' => a' = a)) h' := by
  have hone : ¬ l'.asInverse.collection = true := ne_true_of_eq_false hy
  have he' : ∀ w, ((Link.previousLocal l'.field,w) :: env).lookup l.elementParam =
      some (.ref b) := by
    intro w
    rw [List.lookup_cons,beq_eq_false_iff_ne.mpr hname]
    exact he
  have hletGo : ∀ a₀, h.IsEntity a₀ l.side.type → Y b a₀ → a₀ ≠ a → ∃ v h',
      Gives ((Expr.call (.var (Link.previousLocal l'.field)) l.names.internalRemover
        [.var l.elementParam]).eval p (dispatch p (p.run (d + 1)))
        ⟨.ref a,(Link.previousLocal l'.field,.ref a₀) :: env⟩) h v h' ∧
      h.Becomes l.side l'.side (Function.update X a₀ (fun b' => b' ≠ b ∧ X a₀ b')) Y h' := by
    intro a₀ ha₀ _ _
    obtain ⟨h',hcall,hbecomes⟩ := exists_internalRemover (d := d) hp.left hx hr ha₀ b
    exact ⟨.null,h',gives_call_one _ _ (gives_var _ _ List.lookup_cons_self)
      (gives_var _ _ (he' _)) hcall,hbecomes⟩
  obtain ⟨w,h₁,hleave,hb₁⟩ := exists_leaveOwner hp hy hr hb he hletGo l.sourceType
  have ha₁ := (hb₁.within.entity a _).mpr ha
  have hb₁' := (hb₁.within.entity b _).mpr hb
  have hset := gives_singleInternalSetter (d := d) hp.right hy hb₁' (.ref a)
  have hassign := hb₁.represents.symm.assign hy hb₁' (.inr ⟨a,rfl,ha₁⟩)
  rw [Link.linkElement,if_neg hone]
  refine ⟨_,_,gives_append _ _ hleave (gives_only _ _ (gives_eval _ _
    (gives_call_one _ _ (gives_var _ _ (he' w)) (gives_this _ _) hset))),
    hb₁.trans (hassign.update_congr ?_).symm⟩
  exact fun a' => ⟨fun h => (Value.ref.inj h).symm,fun h => h ▸ rfl⟩

end Inverse

end EntityLink
