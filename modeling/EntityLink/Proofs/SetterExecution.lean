import EntityLink.Proofs.InverseCalls
import EntityLink.Proofs.LocalNames
import EntityLink.Proofs.MemberNaming

namespace EntityLink
open Java Java.Exec Java.Heap

variable {p : Program} {l l' : Link} {d : Nat} {h : Heap} {X Y : Nat → Nat → Prop} {a b : Nat}
  {env : List (String × Value)}

/-- Without a value there is nothing to link back. -/
theorem gives_attach_null (hv : env.lookup l.valueParam = some .null)
    (call : Value → String → List Value → Exec Value) (i : Inverse) :
    Gives ((l.attach i).exec p call ⟨.ref a,env⟩) h (.next env) h := by
  simp only [Link.attach]
  split
  · exact gives_when_false _ _ (gives_and_false _ _ (gives_notNull _ _ (gives_var _ _ hv)))
  · exact gives_when_false _ _ (gives_and_false _ _ (gives_notNull _ _ (gives_var _ _ hv)))

/-- A new value that refers to many takes `this` to them, unless it has it already. -/
theorem exists_attach_many (hp : p.Couples l l') (hy : l'.side.many = true)
    (hr : h.Represents l.side l'.side X Y) (ha : h.IsEntity a l.side.type)
    (hb : h.IsEntity b l'.side.type) (hv : env.lookup l.valueParam = some (.ref b)) :
    ∃ h', Gives ((l.attach l'.asInverse).exec p (dispatch p (p.run (d + 2))) ⟨.ref a,env⟩) h
        (.next env) h' ∧
      h.Becomes l.side l'.side X (Function.update Y b (fun a' => a' = a ∨ Y b a')) h' := by
  have hmany : l'.asInverse.collection = true := hy
  obtain ⟨c,h₁,hget,hb₁,hfield,hc⟩ := exists_manyGetter (d := d + 1) hp.right hy hr.symm hb
  have ha₁ := (hb₁.within.entity a _).mpr ha
  have hb₁' := (hb₁.within.entity b _).mpr hb
  have hmem := hb₁.represents.mem_items hy hb₁' hfield a
  have hnotNull : Gives ((Expr.notNull (.var l.valueParam)).eval p (dispatch p (p.run (d + 2)))
      ⟨.ref a,env⟩) h (.bool true) h := gives_notNull _ _ (gives_var _ _ hv)
  have hguard := gives_and_true _ _ hnotNull
    (gives_not _ _ (gives_call_one _ _ (gives_call_none _ _ (gives_var _ _ hv) hget)
      (gives_this _ _) (gives_contains hc (.ref a))))
  simp only [Link.attach,hmany,if_true]
  by_cases hback : Y b a
  · rw [List.contains_iff_mem.mpr (hmem.mpr hback)] at hguard
    refine ⟨h₁,gives_when_false _ _ hguard,(hb₁.update_self ?_).symm⟩
    exact fun a' => ⟨.inr,fun h => h.elim (fun h => h ▸ hback) id⟩
  · rw [Bool.eq_false_iff.mpr (mt (hmem.mp ∘ List.contains_iff_mem.mp) hback)] at hguard
    obtain ⟨h₂,hcall,hb₂⟩ := exists_internalAdder (d := d) hp.right hy hb₁.represents hb₁' ha₁
    exact ⟨h₂,gives_when_eval _ _ hguard
      (gives_call_one _ _ (gives_var _ _ hv) (gives_this _ _) hcall),(hb₁.trans hb₂).symm⟩

/-- A new value that refers to one refers to `this` instead, unless it does already. -/
theorem exists_attach_single (hp : p.Couples l l') (hy : l'.side.many = false)
    (hr : h.Represents l.side l'.side X Y) (ha : h.IsEntity a l.side.type)
    (hb : h.IsEntity b l'.side.type) (hv : env.lookup l.valueParam = some (.ref b)) :
    ∃ h', Gives ((l.attach l'.asInverse).exec p (dispatch p (p.run (d + 1))) ⟨.ref a,env⟩) h
        (.next env) h' ∧
      h.Becomes l.side l'.side X (Function.update Y b (fun a' => a' = a)) h' := by
  have hone : l'.asInverse.collection = false := hy
  have hget := gives_singleGetter (d := d) hp.right hy hb
  have hnotNull : Gives ((Expr.notNull (.var l.valueParam)).eval p (dispatch p (p.run (d + 1)))
      ⟨.ref a,env⟩) h (.bool true) h := gives_notNull _ _ (gives_var _ _ hv)
  have hguard := gives_and_true _ _ hnotNull
    (gives_notSame _ _ (gives_call_none _ _ (gives_var _ _ hv) hget) (gives_this _ _))
  have hfield := hr.symm.field_eq_iff hy hb a
  simp only [Link.attach,hone,Bool.false_eq_true,if_false]
  by_cases hback : Y b a
  · rw [hfield.mpr hback,bne_self_eq_false] at hguard
    refine ⟨h,gives_when_false _ _ hguard,(hr.symm.becomes.update_self ?_).symm⟩
    exact fun a' => ⟨fun hy' => hr.symm.single_unique hy hb hy' hback,fun h => h ▸ hback⟩
  · rw [bne_iff_ne.mpr (mt hfield.mp hback)] at hguard
    have hcall := gives_singleInternalSetter (d := d) hp.right hy hb (.ref a)
    refine ⟨_,gives_when_eval _ _ hguard
      (gives_call_one _ _ (gives_var _ _ hv) (gives_this _ _) hcall),
      ((hr.symm.assign hy hb (.inr ⟨a,rfl,ha⟩)).update_congr ?_).symm⟩
    exact fun a' => ⟨fun h => (Value.ref.inj h).symm,fun h => h ▸ rfl⟩

/-- The new value refers to `this` afterwards, beside others if it refers to many. -/
theorem exists_attach (hp : p.Couples l l') (hr : h.Represents l.side l'.side X Y)
    (ha : h.IsEntity a l.side.type) (hb : h.IsEntity b l'.side.type)
    (hv : env.lookup l.valueParam = some (.ref b)) :
    ∃ h', Gives ((l.attach l'.asInverse).exec p (dispatch p (p.run (d + 2))) ⟨.ref a,env⟩) h
        (.next env) h' ∧
      h.Becomes l.side l'.side X
        (Function.update Y b (fun a' => a' = a ∨ (l'.side.many = true ∧ Y b a'))) h' := by
  cases hy : l'.side.many with
  | true =>
    obtain ⟨h',hattach,hb'⟩ := exists_attach_many (d := d) hp hy hr ha hb hv
    refine ⟨h',hattach,(hb'.symm.update_congr (fun a' => ?_)).symm⟩
    exact or_congr_right (and_iff_right rfl).symm
  | false =>
    obtain ⟨h',hattach,hb'⟩ := exists_attach_single (d := d + 1) hp hy hr ha hb hv
    refine ⟨h',hattach,(hb'.symm.update_congr (fun a' => ?_)).symm⟩
    exact (or_iff_left (fun h => Bool.false_ne_true h.1)).symm

/-- One-to-one: the object that the new value referred to lets go of it. -/
theorem exists_releaseDisplaced (hp : p.Couples l l') (hx : l.side.many = false)
    (hy : l'.side.many = false) (hr : h.Represents l.side l'.side X Y)
    (hb : h.IsEntity b l'.side.type) (hmirror : ∀ a', Y b a' → a' ≠ a → X a' b)
    (hv : env.lookup l.valueParam = some (.ref b)) :
    ∃ w h', Gives ((l.releaseDisplaced l'.asInverse).exec p (dispatch p (p.run (d + 1)))
        ⟨.ref a,env⟩) h (.next (("displaced" ++ l.sourceType,w) :: env)) h' ∧
      h.Becomes l.side l'.side (fun a' b' => X a' b' ∧ (b' = b → Y b a' → a' = a)) Y h' := by
  have hletGo : ∀ a₀, h.IsEntity a₀ l.side.type → Y b a₀ → a₀ ≠ a → ∃ v h',
      Gives ((Expr.call (.var ("displaced" ++ l.sourceType)) l.names.internalSetter
        [.null]).eval p (dispatch p (p.run (d + 1)))
        ⟨.ref a,("displaced" ++ l.sourceType,.ref a₀) :: env⟩) h v h' ∧
      h.Becomes l.side l'.side (Function.update X a₀ (fun b' => b' ≠ b ∧ X a₀ b')) Y h' := by
    intro a₀ ha₀ hback hown
    have hcall := gives_singleInternalSetter (d := d) hp.left hx ha₀ .null
    exact ⟨.null,_,gives_call_one _ _ (gives_var _ _ List.lookup_cons_self) (gives_null _ _) hcall,
      hr.release hx ha₀ (hmirror a₀ hback hown)⟩
  obtain ⟨w,h',hleave,hbecomes⟩ := exists_leaveOwner hp hy hr hb hv hletGo l.sourceType
  exact ⟨w,h',gives_when_true _ _ (gives_notNull _ _ (gives_var _ _ hv)) hleave,hbecomes⟩

/-- The previous value, if there is one, lets go of `this`. -/
theorem exists_detachPrevious (hp : p.Couples l l') (hx : l.side.many = false)
    (hr : h.Represents l.side l'.side X Y)
    (hmirror : h.Mirrors l.side l'.side X Y)
    (ha : h.IsEntity a l.side.type)
    (hprevious : env.lookup (Link.previousLocal l.field) = some (h.field a l.side.field)) :
    ∃ h', Gives ((Stmt.when (.notNull (.var (Link.previousLocal l.field)))
        [.eval (Link.detach l'.asInverse (.var (Link.previousLocal l.field)))]).exec p
        (dispatch p (p.run (d + 1))) ⟨.ref a,env⟩) h (.next env) h' ∧
      h.Becomes l.side l'.side X
        (fun b' a' => Y b' a' ∧ ¬ (a' = a ∧ h.field a l.side.field = .ref b')) h' := by
  have hguard : Gives ((Expr.notNull (.var (Link.previousLocal l.field))).eval p
      (dispatch p (p.run (d + 1))) ⟨.ref a,env⟩) h (.bool (h.field a l.side.field != .null)) h :=
    gives_notNull _ _ (gives_var _ _ hprevious)
  rcases hr.field_cases hx ha with hnull | ⟨b,hfield,hb⟩
  · rw [hnull] at hguard ⊢
    refine ⟨h,gives_when_false _ _ hguard,hr.becomes.congr (fun _ _ _ => Iff.rfl) ?_⟩
    exact fun a' b' _ => ⟨fun hy => ⟨hy,fun h => Value.noConfusion h.2⟩,And.left⟩
  · have hlink := (hr.field_eq_iff hx ha b).mp hfield
    have hback := (hmirror a b ha hb).mp hlink
    rw [hfield] at hguard hprevious ⊢
    obtain ⟨v,h',hcall,hbecomes⟩ := exists_detach (d := d) hp hr hb hback hprevious
    refine ⟨h',gives_when_eval _ _ hguard hcall,hbecomes.congr (fun _ _ _ => Iff.rfl) ?_⟩
    intro a' b' _
    rw [Value.ref.injEq]
    by_cases hb' : b' = b
    · rw [hb',Function.update_self]
      exact ⟨fun h => ⟨h.2,fun h' => h.1 h'.1⟩,fun h => ⟨fun h' => h.2 ⟨h',rfl⟩,h.1⟩⟩
    · rw [Function.update_of_ne hb']
      exact ⟨fun h => ⟨h,fun h' => hb' h'.2.symm⟩,And.left⟩

/-- Fields for one value on both sides belong to a one-to-one. -/
theorem RelationKind.eq_oneToOne {k k' : RelationKind} (h : k.complements k' = true)
    (hk : k.isCollection = false) (hk' : k'.isCollection = false) : k = .oneToOne := by
  revert h hk hk'
  cases k <;> cases k' <;> decide

/-- Of the objects that refer to the new value `b`, only `a` is left. -/
theorem displaced_iff {u : Value} {a' b' : Nat} (hback : X a' b → Y b a') :
    (X a' b' ∧ (b' = b → Y b a' ∧ ¬ (a' = a ∧ u = .ref b) → a' = a)) ↔
      X a' b' ∧ (a' = a ∨ false = true ∨ Value.ref b ≠ .ref b') := by
  rw [ne_eq,Value.ref.injEq]
  refine and_congr_right (fun hx => ⟨fun h => ?_,fun h hb' _ => ?_⟩)
  · by_cases hown : a' = a
    · exact .inl hown
    · refine .inr (.inr (fun hb' => hown (h hb'.symm ⟨?_,fun h => hown h.1⟩)))
      exact hback (hb' ▸ hx)
  · exact h.resolve_right (fun h => h.elim Bool.false_ne_true (fun h => h hb'.symm))

/-- What a setter does before the field changes: the previous value lets go of `this`, and so does
of the new value, one-to-one, the object that it referred to. -/
theorem exists_release (hp : p.Couples l l') (hx : l.side.many = false)
    (hr : h.Represents l.side l'.side X Y)
    (hmirror : h.Mirrors l.side l'.side X Y)
    (ha : h.IsEntity a l.side.type) {v : Value}
    (hvalue : h.Fits l'.side.type v)
    (hprevious : env.lookup (Link.previousLocal l.field) = some (h.field a l.side.field))
    (hv : env.lookup l.valueParam = some v) :
    ∃ env' h', Gives (execAll p (dispatch p (p.run (d + 1))) ⟨.ref a,env⟩
        (.when (.notNull (.var (Link.previousLocal l.field)))
          [.eval (Link.detach l'.asInverse (.var (Link.previousLocal l.field)))] ::
        (if l.kind = .oneToOne ∧ l'.asInverse.collection = false then
          [l.releaseDisplaced l'.asInverse] else []))) h (.next env') h' ∧
      (∀ n, n ≠ "displaced" ++ l.sourceType ∨ l'.side.many = true →
        env'.lookup n = env.lookup n) ∧
      h.Becomes l.side l'.side
        (fun a' b' => X a' b' ∧ (a' = a ∨ l'.side.many = true ∨ v ≠ .ref b'))
        (fun b' a' => Y b' a' ∧ ¬ (a' = a ∧ h.field a l.side.field = .ref b')) h' := by
  obtain ⟨h₁,hdetach,hb₁⟩ := exists_detachPrevious (d := d) hp hx hr hmirror ha hprevious
  have hstays : (∀ a' b', X a' b' → a' = a ∨ l'.side.many = true ∨ v ≠ .ref b') →
      h.Becomes l.side l'.side
        (fun a' b' => X a' b' ∧ (a' = a ∨ l'.side.many = true ∨ v ≠ .ref b'))
        (fun b' a' => Y b' a' ∧ ¬ (a' = a ∧ h.field a l.side.field = .ref b')) h₁ :=
    fun hkeep => hb₁.congr (fun a' b' _ => ⟨fun hx => ⟨hx,hkeep a' b' hx⟩,And.left⟩)
      (fun _ _ _ => Iff.rfl)
  cases hy : l'.side.many with
  | true =>
    have hno : ¬ (l.kind = .oneToOne ∧ l'.asInverse.collection = false) := by
      rintro ⟨-,hone⟩
      exact absurd (hy.symm.trans hone) Bool.noConfusion
    rw [if_neg hno]
    rw [hy] at hstays
    exact ⟨env,h₁,gives_only _ _ hdetach,fun _ _ => rfl,hstays (fun _ _ _ => .inr (.inl rfl))⟩
  | false =>
    rw [if_pos ⟨RelationKind.eq_oneToOne hp.kinds hx hy,hy⟩]
    rw [hy] at hstays
    rcases hvalue with rfl | ⟨b,rfl,hb⟩
    · exact ⟨env,h₁,gives_next _ _ hdetach (gives_only _ _ (gives_when_false _ _
        (gives_notNull _ _ (gives_var _ _ hv)))),fun _ _ => rfl,
        hstays (fun _ _ _ => .inr (.inr Value.noConfusion))⟩
    · have hmirror₁ : ∀ a', (Y b a' ∧ ¬ (a' = a ∧ h.field a l.side.field = .ref b)) → a' ≠ a →
          X a' b :=
        fun a' hy' _ => (hmirror a' b (hr.symm.typed hb hy'.1) hb).mpr hy'.1
      obtain ⟨w,h₂,hrelease,hb₂⟩ := exists_releaseDisplaced (d := d) hp hx hy hb₁.represents
        ((hb₁.within.entity b _).mpr hb) hmirror₁ hv
      refine ⟨_,h₂,gives_next _ _ hdetach (gives_only _ _ hrelease),?_,
        (hb₁.trans hb₂).congr (fun a' b' ha' => displaced_iff (hmirror a' b ha' hb).mp)
          (fun _ _ _ => Iff.rfl)⟩
      intro n hn
      rw [List.lookup_cons,beq_eq_false_iff_ne.mpr (hn.resolve_right Bool.false_ne_true)]

/-- Telling an orphan changes nothing. -/
theorem gives_orphan (hp : p.Serves l) (ha : h.IsEntity a l.side.type) {v : Value}
    (hprevious : env.lookup (Link.previousLocal l.field) = some v) :
    Gives (execAll p (dispatch p (p.run (d + 1))) ⟨.ref a,env⟩
      (if l.policy.orphanRemoval then
        [Stmt.when (.notNull (.var (Link.previousLocal l.field)))
          [.eval (.callThis l.names.orphanHook [.var (Link.previousLocal l.field)])]] else [])) h
      (.next env) h := by
  have hvar : Gives ((Expr.var (Link.previousLocal l.field)).eval p (dispatch p (p.run (d + 1)))
      ⟨.ref a,env⟩) h v h := gives_var _ _ hprevious
  split
  · rename_i horphan
    have hcall := gives_call_one _ _ (gives_this _ _) hvar
      (gives_orphanHook (d := d) hp horphan ha v)
    have hguard := gives_notNull _ _ hvar
    cases hnull : v != .null with
    | false =>
      rw [hnull] at hguard
      exact gives_only _ _ (gives_when_false _ _ hguard)
    | true =>
      rw [hnull] at hguard
      exact gives_only _ _ (gives_when_eval _ _ hguard hcall)
  · exact gives_done _ _

theorem Link.singleSetter_body {i : Inverse} (hi : l.inverse = some i) :
    l.singleSetter.body =
      .returnIf (.same (.thisField l.field) (.var l.valueParam)) none ::
        ([.declare l.targetType (previousLocal l.field) (.thisField l.field)] ++
        (.when (.notNull (.var (previousLocal l.field)))
          [.eval (detach i (.var (previousLocal l.field)))] ::
          (if l.kind = .oneToOne ∧ i.collection = false then [l.releaseDisplaced i] else [])) ++
        [.assign (.thisField l.field) (.var l.valueParam)] ++ [l.attach i] ++
        (if l.policy.orphanRemoval then
          [Stmt.when (.notNull (.var (previousLocal l.field)))
            [.eval (.callThis l.names.orphanHook [.var (previousLocal l.field)])]] else [])) := by
  simp only [singleSetter,singleSetterBody,hi,Option.isSome_some,Bool.true_or,if_true]

theorem relinked_update (shared : Bool) (X : Nat → Nat → Prop) (a : Nat) (v : Value) :
    Function.update (fun a' b' => X a' b' ∧ (a' = a ∨ shared = true ∨ v ≠ .ref b')) a
      (fun b' => v = .ref b') = Relinked shared X a (fun _ => True) (fun b' => v = .ref b') := by
  funext a' b'
  by_cases ha' : a' = a
  · subst ha'
    simp [Relinked]
  · simp [Relinked,ha']

/-- Values other than the new one lose `a`, if they had it. -/
theorem relinked_back_ne {shared : Bool} {Y : Nat → Nat → Prop} {a b : Nat} {u v : Value}
    (hown : Y b a ↔ u = .ref b) (hv : v ≠ .ref b) (a' : Nat) :
    (Y b a' ∧ ¬ (a' = a ∧ u = .ref b)) ↔
      Relinked shared (fun a b => Y b a) a (fun _ => True) (fun b => v = .ref b) a' b := by
  by_cases ha' : a' = a
  · subst ha'
    simp [Relinked,hv,hown]
  · simp [Relinked,hv,ha']

/-- The new value has `a` beside the owners that it shares. -/
theorem relinked_back_new {shared : Bool} {Y : Nat → Nat → Prop} {a b : Nat} {u : Value}
    (a' : Nat) : (a' = a ∨ (shared = true ∧ Y b a' ∧ ¬ (a' = a ∧ u = .ref b))) ↔
      Relinked shared (fun a b => Y b a) a (fun _ => True) (fun b' => Value.ref b = .ref b')
        a' b := by
  by_cases ha' : a' = a
  · subst ha'
    simp [Relinked]
  · simp [Relinked,ha',and_comm]

theorem Java.Program.Couples.valueParam_ne (hp : p.Couples l l') (hx : l.side.many = false)
    (hshadow : l.singleSetter.Unshadowed) : l.valueParam ≠ Link.previousLocal l.field ∧
      (l.valueParam ≠ "displaced" ++ l.sourceType ∨ l'.side.many = true) := by
  have hnames := hshadow ⟨l.targetType,l.valueParam⟩ (List.mem_singleton_self _)
  rw [Link.singleSetter_body hp.there] at hnames
  simp only [declaredAll,declaredAll_append,Stmt.declared_when,Stmt.returnIf,Stmt.declared,
    List.mem_append,List.mem_singleton,not_or] at hnames
  refine ⟨hnames.2.1.1.1.1.1,?_⟩
  cases hy : l'.side.many with
  | true => exact .inr rfl
  | false =>
    have hdisplaced := hnames.2.1.1.1.2.2
    rw [if_pos ⟨RelationKind.eq_oneToOne hp.kinds hx hy,hy⟩,Link.releaseDisplaced] at hdisplaced
    simp only [declaredAll,Stmt.declared_when,Stmt.declared,List.mem_append,List.mem_singleton,
      not_or] at hdisplaced
    exact .inl hdisplaced.1.1

/-- Whether the argument of a setter is what the field holds. -/
theorem gives_sameValue (ha : h.IsEntity a l.side.type) (v : Value)
    (call : Value → String → List Value → Exec Value) :
    Gives ((Expr.same (.thisField l.field) (.var l.valueParam)).eval p call
      ⟨.ref a,[(l.valueParam,v)]⟩) h (.bool (h.field a l.side.field == v)) h :=
  gives_same _ _ (gives_thisField _ _ ha _) (gives_var _ _ List.lookup_cons_self)

/-- After the field has changed, the new value links back to `this`, if there is one. -/
theorem exists_attachValue (hp : p.Couples l l') (ha : h.IsEntity a l.side.type) {u v : Value}
    (hvalue : h.Fits l'.side.type v) (hv : env.lookup l.valueParam = some v)
    (hown : ∀ b, h.IsEntity b l'.side.type → (Y b a ↔ u = .ref b)) {h₁ : Heap}
    (hb₁ : h.Becomes l.side l'.side
      (Relinked l'.side.many X a (fun _ => True) (fun b => v = .ref b))
      (fun b' a' => Y b' a' ∧ ¬ (a' = a ∧ u = .ref b')) h₁) :
    ∃ h', Gives ((l.attach l'.asInverse).exec p (dispatch p (p.run (d + 2))) ⟨.ref a,env⟩) h₁
        (.next env) h' ∧
      h.Relinks l.side l'.side X Y a (fun _ => True) (fun b => v = .ref b) h' := by
  rcases hvalue with rfl | ⟨b,rfl,hb⟩
  · refine ⟨_,gives_attach_null hv _ _,hb₁.congr (fun _ _ _ => Iff.rfl) ?_⟩
    exact fun a' b' hb' => relinked_back_ne (hown b' hb') Value.noConfusion a'
  · obtain ⟨h',hattach,hb'⟩ := exists_attach (d := d) hp hb₁.represents
      ((hb₁.within.entity a _).mpr ha) ((hb₁.within.entity b _).mpr hb) hv
    refine ⟨h',hattach,(hb₁.trans hb').congr (fun _ _ _ => Iff.rfl) (fun a' b' hb'' => ?_)⟩
    by_cases hbb : b' = b
    · subst hbb
      rw [Function.update_self]
      exact relinked_back_new a'
    · rw [Function.update_of_ne hbb]
      exact relinked_back_ne (hown b' hb'') (fun h => hbb (Value.ref.inj h).symm) a'

/-- A setter runs to its end for a value that the field does not hold. -/
theorem exists_changeValue (hp : p.Couples l l') (hx : l.side.many = false)
    (hshadow : l.singleSetter.Unshadowed) (hr : h.Represents l.side l'.side X Y)
    (hmirror : h.Mirrors l.side l'.side X Y) (ha : h.IsEntity a l.side.type) {v : Value}
    (hvalue : h.Fits l'.side.type v) (hchanged : h.field a l.side.field ≠ v) :
    ∃ env h', Gives (execAll p (dispatch p (p.run (d + 2))) ⟨.ref a,[(l.valueParam,v)]⟩
        l.singleSetter.body) h (.next env) h' ∧
      h.Relinks l.side l'.side X Y a (fun _ => True) (fun b => v = .ref b) h' := by
  obtain ⟨hvalueName,hdisplaced⟩ := hp.valueParam_ne hx hshadow
  have hv : ((Link.previousLocal l.field,h.field a l.side.field) :: [(l.valueParam,v)]).lookup
      l.valueParam = some v := by
    rw [List.lookup_cons,beq_eq_false_iff_ne.mpr hvalueName]
    exact List.lookup_cons_self
  have hguard := gives_sameValue (p := p) ha v (dispatch p (p.run (d + 2)))
  rw [beq_eq_false_iff_ne.mpr hchanged] at hguard
  have hkeep : Gives (execAll p (dispatch p (p.run (d + 2))) ⟨.ref a,[(l.valueParam,v)]⟩
      [.declare l.targetType (Link.previousLocal l.field) (.thisField l.field)]) h
      (.next [(Link.previousLocal l.field,h.field a l.side.field),(l.valueParam,v)]) h :=
    gives_only _ _ (gives_declare _ _ _ (gives_thisField _ _ ha _))
  obtain ⟨env,h₁,hrelease,hlook,hb₁⟩ := exists_release (d := d + 1) hp hx hr hmirror ha hvalue
    List.lookup_cons_self hv
  -- What is declared meanwhile hides neither the previous value nor the new one.
  have hprevious₁ := (hlook _ (.inl (Link.previousLocal_ne_displaced l.field l.sourceType))).trans
    List.lookup_cons_self
  have hv₁ := (hlook _ hdisplaced).trans hv
  have ha₁ := (hb₁.within.entity a _).mpr ha
  have hassign : Gives (execAll p (dispatch p (p.run (d + 2))) ⟨.ref a,env⟩
      [.assign (.thisField l.field) (.var l.valueParam)]) h₁ (.next env)
      (h₁.assign a l.side.field v) :=
    gives_only _ _ (gives_assignField _ _ (gives_var _ _ hv₁) ha₁)
  have hb₂ := hb₁.trans (hb₁.represents.assign hx ha₁ (hb₁.within.fits hvalue))
  rw [relinked_update] at hb₂
  have hown : ∀ b, h.IsEntity b l'.side.type → (Y b a ↔ h.field a l.side.field = .ref b) := by
    intro b hb
    rw [hr.field_eq_iff hx ha]
    exact (hmirror a b ha hb).symm
  obtain ⟨h₃,hattach,hb₃⟩ := exists_attachValue (d := d) hp ha hvalue hv₁ hown hb₂
  have horphan := gives_orphan (d := d + 1) hp.left ((hb₃.within.entity a _).mpr ha) hprevious₁
  refine ⟨env,h₃,?_,hb₃⟩
  rw [Link.singleSetter_body hp.there]
  exact gives_next _ _ (gives_when_false _ _ hguard) (gives_append _ _ (gives_append _ _
    (gives_append _ _ (gives_append _ _ hkeep hrelease) hassign)
    (gives_only _ _ hattach)) horphan)

/-- The setter of a field for one value replaces what it links. -/
theorem exists_singleSetter (hp : p.Couples l l') (hx : l.side.many = false)
    (hshadow : l.singleSetter.Unshadowed) (hr : h.Represents l.side l'.side X Y)
    (hmirror : h.Mirrors l.side l'.side X Y) (ha : h.IsEntity a l.side.type) {v : Value}
    (hvalue : h.Fits l'.side.type v) :
    ∃ h', Gives (p.run (d + 3) (.ref a) l.singleSetter [v]) h .null h' ∧
      h.Relinks l.side l'.side X Y a (fun _ => True) (fun b => v = .ref b) h' := by
  by_cases hsame : h.field a l.side.field = v
  · have hguard := gives_sameValue (p := p) ha v (dispatch p (p.run (d + 2)))
    subst hsame
    rw [beq_self_eq_true] at hguard
    refine ⟨h,gives_run_one_done rfl ?_,hr.relinks_self hmirror ha (fun b => ?_)⟩
    · rw [Link.singleSetter_body hp.there]
      exact gives_return _ _ (gives_when_true _ _ hguard (gives_return _ _ (gives_ret_none _ _)))
    · simp [hr.field_eq_iff hx ha]
  · obtain ⟨env,h',hrun,hb⟩ := exists_changeValue (d := d) hp hx hshadow hr hmirror ha hvalue hsame
    exact ⟨h',gives_run_one_next rfl hrun,hb⟩

end EntityLink
