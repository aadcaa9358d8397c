import EntityLink.Proofs.CollectionExecution

namespace EntityLink
open Java Java.Exec Java.Heap

/-- What the setter of a collection offers to `a`: the elements of the argument, but not `a` itself
where a former element of `a` holds the argument, which `a` has left by then. -/
def Java.Heap.Offered (h : Heap) (y : Side) (X : Nat → Nat → Prop) (a : Nat) (v : Value) (b : Nat) :
    Prop :=
  .ref b ∈ h.items v ∧ (b = a → ∀ b', X a b' → h.field b' y.field ≠ v)

section Offer

variable {h h₁ : Heap} {x y : Side} {X Y : Nat → Nat → Prop} {a b c : Nat}

/-- The two sides do not hold the same collection. -/
theorem Java.Heap.Represents.field_ne (hr : h.Represents x y X Y)
    (ha : h.IsEntity a x.type) (hb : h.IsEntity b y.type) (hc : h.IsCollection c)
    (hfield : h.field a x.field = .ref c) : h.field b y.field ≠ .ref c := by
  intro hfield'
  obtain ⟨rfl,hsame⟩ := hr.tidy.unshared a x.field b y.field c hc hfield hfield'
  exact hr.apart (ha.type_unique hb) hsame

/-- A collection offers what it holds after `a` has let go of all its elements. -/
theorem offered_iff (hr : h.Represents x y X Y)
    (hmirror : h.Mirrors x y X Y) (ha : h.IsEntity a x.type) (hc : h.IsCollection c)
    (hother : h.field a x.field ≠ .ref c)
    (hb : h.Relinks x y X Y a (fun _ => True) (fun _ => False) h₁) (b : Nat) :
    .ref b ∈ h₁.items (.ref c) ↔ h.Offered y X a (.ref c) b := by
  by_cases hsite : ∃ a' n, h.Sites x y a' n ∧ h.field a' n = .ref c
  · obtain ⟨a',n,⟨ha',rfl⟩ | ⟨ha',rfl⟩,hfield⟩ := hsite
    -- held by another owner, which keeps its elements
    · obtain ⟨hbefore,hafter⟩ := Becomes.mem_items_iff hr hb ha' hc hfield b
      have hne : a' ≠ a := fun h => hother (h ▸ hfield)
      have hkept : ∀ b', X a b' → h.field b' y.field ≠ .ref c :=
        fun b' hb' => hr.field_ne ha' (hr.typed ha hb') hc hfield
      rw [Offered,hbefore,hafter]
      simpa [Relinked,hne] using fun _ _ => hkept
    -- held by a value: `a` has left it if it was there
    · obtain ⟨hbefore,hafter⟩ := Becomes.mem_items_iff hr.symm hb.symm ha' hc hfield b
      rw [Offered,hbefore,hafter]
      simp only [Relinked,and_false,false_or,and_true,not_false_eq_true,or_true]
      refine and_congr_right (fun hlink => ⟨fun hne hba => absurd hba hne,fun hleft hba => ?_⟩)
      exact hleft hba a' ((hmirror a a' ha ha').mpr (hba ▸ hlink)) hfield
  -- held by neither side
  · have hobject := hb.within.object c hc (fun a n hfield hs => hsite ⟨a,n,hs,hfield⟩)
    have hkept : ∀ b', X a b' → h.field b' y.field ≠ .ref c :=
      fun b' hb' hfield => hsite ⟨b',y.field,.inr ⟨hr.typed ha hb',rfl⟩,hfield⟩
    simpa [Offered,Heap.items,hobject] using fun _ _ => hkept

/-- What `a` holds already it is offered as it is. -/
theorem offered_self (hr : h.Represents x y X Y) (hx : x.many = true) (ha : h.IsEntity a x.type)
    (b : Nat) : h.Offered y X a (h.field a x.field) b ↔ X a b := by
  have hlinks : .ref b ∈ h.items (h.field a x.field) ↔ X a b := by
    rw [← links_many hx]
    exact hr.links a b ha
  refine ⟨fun hoffered => hlinks.mp hoffered.1,fun hlink => ⟨hlinks.mpr hlink,fun _ b' hb' => ?_⟩⟩
  rcases (hr.left a ha).opened hx with hnull | ⟨c,hfield,hc⟩
  · rw [← hlinks,hnull] at hlink
    cases hlink
  · rw [hfield]
    exact hr.field_ne ha (hr.typed ha hb') hc hfield

theorem not_offered_null (b : Nat) : ¬ h.Offered y X a .null b :=
  fun hoffered => absurd hoffered.1 List.not_mem_nil

end Offer

variable {p : Program} {l l' : Link} {d : Nat} {h h₁ : Heap} {X Y : Nat → Nat → Prop} {a c k : Nat}
  {env : List (String × Value)} {items vs : List Value} {unique : Bool} {v : Value}

/-- What holds while the elements `vs` of a copy have still to be added. -/
structure Filling (h : Heap) (x y : Side) (X Y : Nat → Nat → Prop) (a k : Nat)
    (items : List Value) (unique : Bool) (vs : List Value) (h' : Heap) : Prop where
  filled : ∃ added, added ++ vs = items ∧
    h.Relinks x y X Y a (fun _ => True) (fun b => .ref b ∈ added) h'
  loose : h'.Loose k (.collection items unique 0)

/-- One element after another is added. -/
theorem exists_filling_step (hp : p.Couples l l') (hx : l.side.many = true)
    (hshadow : l.adder.Unshadowed) (hmirror : h.Mirrors l.side l'.side X Y)
    (ha : h.IsEntity a l.side.type)
    (htyped : ∀ w ∈ items, h.Fits l'.side.type w)
    (hf : Filling h l.side l'.side X Y a k items unique (v :: vs) h₁) :
    ∃ h', Gives (execAll p (dispatch p (p.run (d + 3))) ⟨.ref a,(l.elementParam,v) :: env⟩
        [.eval (.callThis l.names.adder [.var l.elementParam])]) h₁
        (.next ((l.elementParam,v) :: env)) h' ∧
      Filling h l.side l'.side X Y a k items unique vs h' := by
  obtain ⟨added,hadded,hb⟩ := hf.filled
  have ha₁ := (hb.within.entity a _).mpr ha
  have hv : h₁.Fits l'.side.type v := by
    refine hb.within.fits (htyped v ?_)
    rw [← hadded]
    exact List.mem_append_right _ List.mem_cons_self
  obtain ⟨t,h₂,hrun,hb₂⟩ := exists_adder (d := d) hp hx hshadow hb.represents
    ((hmirror.within hb.within).relinked _ _ _ _) ha₁ hv
  have hm := hp.left.many hx (m := l.adder) (by simp [Link.manyAccessors,Link.collectionAccessors])
  refine ⟨h₂,gives_only _ _ (gives_eval _ _ (gives_call_one _ _ (gives_this _ _)
    (gives_var _ _ List.lookup_cons_self) (gives_dispatch ha₁ hm hrun))),
    ⟨added ++ [v],?_,(hb.take hb₂).gained_congr ?_⟩,hb₂.loose hf.loose⟩
  · rw [List.append_assoc]
    exact hadded
  · intro b
    rw [List.mem_append,List.mem_singleton,eq_comm]

/-- The elements of an argument are added, from a copy. -/
theorem exists_fill (hp : p.Couples l l') (hx : l.side.many = true)
    (hshadow : l.adder.Unshadowed) (hr : h.Represents l.side l'.side X Y)
    (hmirror : h.Mirrors l.side l'.side X Y) (ha : h.IsEntity a l.side.type)
    (hc : h.IsCollection c) (hother : h.field a l.side.field ≠ .ref c)
    (htyped : ∀ w ∈ h.items (.ref c), h.Fits l'.side.type w)
    (hb : h.Relinks l.side l'.side X Y a (fun _ => True) (fun _ => False) h₁)
    (hv : env.lookup l.valueParam = some (.ref c)) :
    ∃ env' h', Gives ((Stmt.forEach l.targetType l.elementParam
          (.createDiamond "ArrayList" [.var l.valueParam])
          [.eval (.callThis l.names.adder [.var l.elementParam])]).exec p
          (dispatch p (p.run (d + 3))) ⟨.ref a,env⟩) h₁ (.next env') h' ∧
      h.Relinks l.side l'.side X Y a (fun _ => True) (h.Offered l'.side X a (.ref c)) h' := by
  obtain ⟨k,unique,h₂,hcopy,hb₂,hloose⟩ := exists_copy (gives_var _ _ hv) hb.represents
    (hb.within.collection c hc) "ArrayList"
  have hsub := Becomes.items_subset hr hb (fun _ _ _ => of_relinked_none)
    (fun _ _ _ => of_relinked_none) hc
  have hstart : Filling h l.side l'.side X Y a k (h₁.items (.ref c)) unique (h₁.items (.ref c))
      h₂ :=
    ⟨⟨[],rfl,Relinks.gained_congr (hb.trans hb₂) (by simp)⟩,hloose⟩
  obtain ⟨env',h₃,hloop,hf⟩ := exists_forEach _ _ _ hcopy hstart (fun _ _ hf => hf.loose.1)
    (fun _ _ _ _ hf => ⟨_,exists_filling_step (d := d) hp hx hshadow hmirror ha
      (fun w hw => htyped w (hsub w hw)) hf⟩) l.targetType
  obtain ⟨added,hadded,hb₃⟩ := hf.filled
  refine ⟨env',h₃,hloop,hb₃.gained_congr (fun b => ?_)⟩
  rw [← offered_iff hr hmirror ha hc hother hb b,← hadded,List.append_nil]

/-- The setter of a collection replaces what it links. -/
theorem exists_manySetter (hp : p.Couples l l') (hx : l.side.many = true)
    (hshadow : l.adder.Unshadowed) (hr : h.Represents l.side l'.side X Y)
    (hmirror : h.Mirrors l.side l'.side X Y) (ha : h.IsEntity a l.side.type)
    (hvalue : v = .null ∨ ∃ c, v = .ref c ∧ h.IsCollection c)
    (htyped : ∀ w ∈ h.items v, h.Fits l'.side.type w) :
    ∃ h', Gives (p.run (d + 4) (.ref a) l.manySetter [v]) h .null h' ∧
      h.Relinks l.side l'.side X Y a (fun _ => True) (h.Offered l'.side X a v) h' := by
  have hvar : ∀ {h}, Gives ((Expr.var l.valueParam).eval p (dispatch p (p.run (d + 3)))
      ⟨.ref a,[(l.valueParam,v)]⟩) h v h := gives_var _ _ List.lookup_cons_self
  have hguard : Gives ((Expr.same (.var l.valueParam) (.thisField l.field)).eval p
      (dispatch p (p.run (d + 3))) ⟨.ref a,[(l.valueParam,v)]⟩) h
      (.bool (v == h.field a l.side.field)) h :=
    gives_same _ _ hvar (gives_thisField _ _ ha _)
  by_cases hsame : v = h.field a l.side.field
  · subst hsame
    rw [beq_self_eq_true] at hguard
    refine ⟨h,gives_run_one_done rfl (gives_return _ _ (gives_when_true _ _ hguard
      (gives_return _ _ (gives_ret_none _ _)))),hr.relinks_self hmirror ha (fun b => ?_)⟩
    simp [offered_self hr hx ha]
  · rw [beq_eq_false_iff_ne.mpr hsame] at hguard
    have hm := hp.left.many hx (m := l.clearer)
      (by simp [Link.manyAccessors,Link.collectionAccessors])
    obtain ⟨h₁,hrun,hb₁⟩ := exists_clearer (d := d + 1) hp hx hr hmirror ha
    have hclear : Gives ((Expr.callThis l.names.clearer []).eval p (dispatch p (p.run (d + 3)))
        ⟨.ref a,[(l.valueParam,v)]⟩) h .null h₁ :=
      gives_call_none _ _ (gives_this _ _) (gives_dispatch ha hm hrun)
    rcases hvalue with rfl | ⟨c,rfl,hc⟩
    · refine ⟨h₁,gives_run_one_next rfl (gives_next _ _ (gives_when_false _ _ hguard)
        (gives_next _ _ (gives_eval _ _ hclear) (gives_only _ _ (gives_when_false _ _
        (gives_notNull _ _ hvar))))),hb₁.gained_congr (fun b => ?_)⟩
      exact iff_of_false id (not_offered_null b)
    · have hlookup : [(l.valueParam,Value.ref c)].lookup l.valueParam = some (.ref c) :=
        List.lookup_cons_self
      obtain ⟨env,h₂,hloop,hb₂⟩ := exists_fill (d := d) hp hx hshadow hr hmirror ha hc
        (Ne.symm hsame) htyped hb₁ hlookup
      exact ⟨h₂,gives_run_one_next rfl (gives_next _ _ (gives_when_false _ _ hguard)
        (gives_next _ _ (gives_eval _ _ hclear) (gives_only _ _ (gives_when_true _ _
        (gives_notNull _ _ hvar) (gives_only _ _ hloop))))),hb₂⟩

end EntityLink
