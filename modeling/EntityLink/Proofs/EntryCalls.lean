import EntityLink.Link.Style
import EntityLink.Proofs.HeapLinks
import EntityLink.Proofs.RunningCode

namespace EntityLink
open Java Java.Exec Java.Heap

namespace Link

/-- The side of a pair that a link is. -/
def side (l : Link) : Side :=
  ⟨l.relationship.source,l.field,l.kind.isCollection⟩

/-- The style of the accessors of an association. -/
def style (l : Link) : AccessorStyle :=
  if l.kind.isCollection then .many else .single

/-- Whether the collections that the getter opens refuse elements that they hold. -/
def uniqueItems (l : Link) : Bool :=
  isSetClass (l.collectionKind.implementation ++ "<>")

/-- How the other side of a pair sees a link. -/
def asInverse (l : Link) : Inverse :=
  ⟨l.field,l.kind.isCollection,l.names⟩

end Link

/-- A program runs given methods for the entities of a type. -/
def Java.Program.Offers (p : Program) (type : String) (ms : List Method) : Prop :=
  ∀ m ∈ ms, p.method? type m.name = some m

/-- A program offers the accessors of a link that has an inverse side. -/
structure Java.Program.Serves (p : Program) (l : Link) : Prop where
  inverse : l.inverse.isSome = true
  offers : p.Offers l.side.type (l.accessors l.style)

section Single

variable {p : Program} {l : Link} {d : Nat} {h : Heap} {a : Nat}

theorem Link.style_single (hx : l.side.many = false) : l.style = .single := by
  rw [Link.style,show l.kind.isCollection = false from hx]
  rfl

theorem gives_singleGetter (hp : p.Serves l) (hx : l.side.many = false)
    (ha : h.IsEntity a l.side.type) :
    Gives (dispatch p (p.run (d + 1)) (.ref a) l.names.getter []) h (h.field a l.side.field) h := by
  have hm : l.singleGetter ∈ l.accessors l.style := by
    simp [Link.style_single hx,Link.accessors,Link.singleAccessors]
  refine gives_dispatch ha (hp.offers _ hm) (gives_run_done rfl ?_)
  exact gives_return _ _ (gives_ret _ _ (gives_thisField _ _ ha _))

theorem gives_singleInternalSetter (hp : p.Serves l) (hx : l.side.many = false)
    (ha : h.IsEntity a l.side.type) (v : Value) :
    Gives (dispatch p (p.run (d + 1)) (.ref a) l.names.internalSetter [v]) h .null
      (h.assign a l.side.field v) := by
  have hm : l.singleInternalSetter ∈ l.accessors l.style := by
    simp [Link.style_single hx,Link.accessors,Link.singleAccessors,hp.inverse]
  exact gives_dispatch ha (hp.offers _ hm) (gives_run_one_next rfl
    (gives_only _ _ (gives_assignField _ _ (gives_var _ _ List.lookup_cons_self) ha)))

/-- The hook for orphans does nothing by itself. -/
theorem gives_orphanHook (hp : p.Serves l) (horphan : l.policy.orphanRemoval = true)
    (ha : h.IsEntity a l.side.type) (v : Value) :
    Gives (dispatch p (p.run (d + 1)) (.ref a) l.names.orphanHook [v]) h .null h := by
  have hm : ∃ param, l.orphanHook param ∈ l.accessors l.style := by
    rw [Link.style]
    split
    · exact ⟨l.elementParam,by simp [Link.accessors,Link.manyAccessors,horphan]⟩
    · exact ⟨l.valueParam,by simp [Link.accessors,Link.singleAccessors,horphan]⟩
  obtain ⟨param,hm⟩ := hm
  exact gives_dispatch ha (hp.offers _ hm) (gives_run_one_next rfl
    (gives_only _ _ (gives_comment _ _ _)))

end Single

section Many

variable {p : Program} {l : Link} {y : Side} {X Y : Nat → Nat → Prop} {d : Nat} {h : Heap}
  {a b : Nat} {f : Frame}

theorem Link.style_many (hx : l.side.many = true) : l.style = .many := by
  rw [Link.style,show l.kind.isCollection = true from hx]
  rfl

theorem Java.Program.Serves.many (hp : p.Serves l) (hx : l.side.many = true) {m : Method}
    (hm : m ∈ l.manyAccessors) : p.method? l.side.type m.name = some m := by
  apply hp.offers
  rw [Link.style_many hx]
  exact hm

/-- The getter of a collection that is not there yet opens one. -/
theorem gives_manyGetter_null (hp : p.Serves l) (hx : l.side.many = true)
    (ha : h.IsEntity a l.side.type) (hnull : h.field a l.side.field = .null) :
    Gives (dispatch p (p.run (d + 1)) (.ref a) l.names.getter []) h (.ref h.size)
      (h.openCollection a l.side.field l.uniqueItems) := by
  have hm := hp.many hx (m := l.manyGetter) (by simp [Link.manyAccessors,Link.collectionAccessors])
  have hisNull : Gives ((Expr.isNull (.thisField l.field)).eval p (dispatch p (p.run d))
      ⟨.ref a,[]⟩) h (.bool (h.field a l.side.field == .null)) h :=
    gives_isNull _ _ (gives_thisField _ _ ha _)
  rw [hnull] at hisNull
  have hopened : (h.openCollection a l.side.field l.uniqueItems).field a l.side.field =
      .ref h.size := by
    rw [field_openCollection ha,if_pos ⟨rfl,rfl⟩]
  have hassign : Gives (execAll p (dispatch p (p.run d)) ⟨.ref a,[]⟩
      [.assign (.thisField l.field) (.createDiamond l.collectionKind.implementation [])]) h
      (.next []) (h.openCollection a l.side.field l.uniqueItems) :=
    gives_only _ _ (gives_assignField _ _ (gives_empty _ _ _) ((isEntity_push a _).mpr ha))
  have ha' : (h.openCollection a l.side.field l.uniqueItems).IsEntity a l.side.type :=
    ((within_openCollection ha hnull).entity a _).mpr ha
  refine gives_dispatch ha hm (gives_run_done rfl ?_)
  refine gives_next _ _ (gives_when_true _ _ hisNull hassign) ?_
  rw [← hopened]
  exact gives_return _ _ (gives_ret _ _ (gives_thisField _ _ ha' _))

/-- The getter of a collection that is there gives it. -/
theorem gives_manyGetter_ref (hp : p.Serves l) (hx : l.side.many = true)
    (ha : h.IsEntity a l.side.type) {c : Nat} (hfield : h.field a l.side.field = .ref c) :
    Gives (dispatch p (p.run (d + 1)) (.ref a) l.names.getter []) h (.ref c) h := by
  have hm := hp.many hx (m := l.manyGetter) (by simp [Link.manyAccessors,Link.collectionAccessors])
  have hisNull : Gives ((Expr.isNull (.thisField l.field)).eval p (dispatch p (p.run d))
      ⟨.ref a,[]⟩) h (.bool (h.field a l.side.field == .null)) h :=
    gives_isNull _ _ (gives_thisField _ _ ha _)
  rw [hfield] at hisNull
  refine gives_dispatch ha hm (gives_run_done rfl ?_)
  refine gives_next _ _ (gives_when_false _ _ hisNull) ?_
  rw [← hfield]
  exact gives_return _ _ (gives_ret _ _ (gives_thisField _ _ ha _))

/-- The getter of a collection opens it if need be. -/
theorem exists_manyGetter (hp : p.Serves l) (hx : l.side.many = true)
    (hr : h.Represents l.side y X Y) (ha : h.IsEntity a l.side.type) :
    ∃ c h', Gives (dispatch p (p.run (d + 1)) (.ref a) l.names.getter []) h (.ref c) h' ∧
      h.Becomes l.side y X Y h' ∧ h'.field a l.side.field = .ref c ∧ h'.IsCollection c := by
  rcases (hr.left a ha).opened hx with hnull | ⟨c,hfield,hc⟩
  · refine ⟨h.size,_,gives_manyGetter_null hp hx ha hnull,
      hr.openCollection hx ha hnull l.uniqueItems,?_,?_⟩
    · rw [field_openCollection ha,if_pos ⟨rfl,rfl⟩]
    · exact ⟨_,_,_,get?_openCollection_size ha⟩
  · exact ⟨c,h,gives_manyGetter_ref hp hx ha hfield,hr.becomes,hfield,hc⟩

variable {env : List (String × Value)}

/-- Whether the collection holds an element. -/
theorem exists_holds (hp : p.Serves l) (hx : l.side.many = true)
    (hr : h.Represents l.side y X Y) (ha : h.IsEntity a l.side.type)
    (he : env.lookup l.elementParam = some (.ref b)) :
    ∃ t h', Gives ((l.holds (.var l.elementParam)).eval p (dispatch p (p.run (d + 1)))
        ⟨.ref a,env⟩) h (.bool t) h' ∧ (t = true ↔ X a b) ∧ h.Becomes l.side y X Y h' := by
  obtain ⟨c,h₁,hget,hb,hfield,hc⟩ := exists_manyGetter (d := d) hp hx hr ha
  have ha₁ := (hb.within.entity a _).mpr ha
  refine ⟨(h₁.items (.ref c)).contains (.ref b),h₁,?_,?_,hb⟩
  · exact gives_call_one _ _ (gives_call_none _ _ (gives_this _ _) hget) (gives_var _ _ he)
      (gives_contains hc _)
  · rw [List.contains_iff_mem]
    exact hb.represents.mem_items hx ha₁ hfield b

/-- Adds an element that the collection does not hold. -/
theorem exists_add (hp : p.Serves l) (hx : l.side.many = true) (hr : h.Represents l.side y X Y)
    (ha : h.IsEntity a l.side.type) (he : env.lookup l.elementParam = some (.ref b))
    (hb : h.IsEntity b y.type) (hnew : ¬ X a b) :
    ∃ h', Gives ((Expr.call l.live "add" [.var l.elementParam]).eval p
        (dispatch p (p.run (d + 1))) ⟨.ref a,env⟩) h (.bool true) h' ∧
      h.Becomes l.side y (Function.update X a (fun b' => b' = b ∨ X a b')) Y h' := by
  obtain ⟨c,h₁,hget,hb₁,hfield,hc⟩ := exists_manyGetter (d := d) hp hx hr ha
  have ha₁ := (hb₁.within.entity a _).mpr ha
  have hmem := hb₁.represents.mem_items hx ha₁ hfield
  have hadd := mt (hmem b).mp hnew
  refine ⟨_,gives_call_one _ _ (gives_call_none _ _ (gives_this _ _) hget) (gives_var _ _ he)
    (gives_add hc hadd),?_⟩
  refine hb₁.trans ((hb₁.represents.refill hx ha₁ hfield hc ?_ ?_).update_congr ?_)
  · rw [List.nodup_append]
    refine ⟨hb₁.represents.nodup_items hx ha₁ hfield,List.pairwise_singleton _ _,?_⟩
    rintro v hv w hw rfl
    rw [List.mem_singleton.mp hw] at hv
    exact hadd hv
  · intro v hv
    rcases List.mem_append.mp hv with hv | hv
    · exact hb₁.represents.typed_items hx ha₁ hfield v hv
    · exact ⟨b,List.mem_singleton.mp hv,(hb₁.within.entity b _).mpr hb⟩
  · intro b'
    rw [List.mem_append,hmem b',List.mem_singleton,Value.ref.injEq]
    exact Or.comm

/-- What an object loses by a removal. -/
theorem becomes_refill_erase (hx : l.side.many = true) (hr : h.Represents l.side y X Y)
    (ha : h.IsEntity a l.side.type) {c : Nat} (hfield : h.field a l.side.field = .ref c)
    (hc : h.IsCollection c) :
    h.Becomes l.side y (Function.update X a (fun b' => b' ≠ b ∧ X a b')) Y
      (h.refill c ((h.items (.ref c)).erase (.ref b))) := by
  have hnodup := hr.nodup_items hx ha hfield
  refine (hr.refill hx ha hfield hc (hnodup.erase _) ?_).update_congr ?_
  · exact fun v hv => hr.typed_items hx ha hfield v (List.mem_of_mem_erase hv)
  · intro b'
    rw [hnodup.mem_erase_iff,hr.mem_items hx ha hfield,ne_eq,Value.ref.injEq]

/-- Removes an element that the collection holds. -/
theorem exists_remove (hp : p.Serves l) (hx : l.side.many = true) (hr : h.Represents l.side y X Y)
    (ha : h.IsEntity a l.side.type) (he : env.lookup l.elementParam = some (.ref b))
    (hold : X a b) :
    ∃ h', Gives ((Expr.call l.live "remove" [.var l.elementParam]).eval p
        (dispatch p (p.run (d + 1))) ⟨.ref a,env⟩) h (.bool true) h' ∧
      h.Becomes l.side y (Function.update X a (fun b' => b' ≠ b ∧ X a b')) Y h' := by
  obtain ⟨c,h₁,hget,hb₁,hfield,hc⟩ := exists_manyGetter (d := d) hp hx hr ha
  have ha₁ := (hb₁.within.entity a _).mpr ha
  have hremove := (hb₁.represents.mem_items hx ha₁ hfield b).mpr hold
  refine ⟨_,gives_call_one _ _ (gives_call_none _ _ (gives_this _ _) hget) (gives_var _ _ he)
    (gives_remove hc hremove),?_⟩
  exact hb₁.trans (becomes_refill_erase hx hb₁.represents ha₁ hfield hc)

/-- Empties the collection. -/
theorem exists_clear (hp : p.Serves l) (hx : l.side.many = true) (hr : h.Represents l.side y X Y)
    (ha : h.IsEntity a l.side.type) (env : List (String × Value)) :
    ∃ h', Gives ((Expr.call l.live "clear" []).eval p (dispatch p (p.run (d + 1)))
        ⟨.ref a,env⟩) h .null h' ∧
      h.Becomes l.side y (Function.update X a (fun _ => False)) Y h' := by
  obtain ⟨c,h₁,hget,hb₁,hfield,hc⟩ := exists_manyGetter (d := d) hp hx hr ha
  have ha₁ := (hb₁.within.entity a _).mpr ha
  refine ⟨_,gives_call_none _ _ (gives_call_none _ _ (gives_this _ _) hget) (gives_clear hc),?_⟩
  refine hb₁.trans ((hb₁.represents.refill hx ha₁ hfield hc List.nodup_nil ?_).update_congr ?_)
  · exact fun v hv => absurd hv List.not_mem_nil
  · exact fun b' => iff_of_false List.not_mem_nil id

theorem exists_internalAdder (hp : p.Serves l) (hx : l.side.many = true)
    (hr : h.Represents l.side y X Y) (ha : h.IsEntity a l.side.type) (hb : h.IsEntity b y.type) :
    ∃ h', Gives (dispatch p (p.run (d + 2)) (.ref a) l.names.internalAdder [.ref b]) h .null h' ∧
      h.Becomes l.side y (Function.update X a (fun b' => b' = b ∨ X a b')) Y h' := by
  have hm := hp.many hx (m := l.internalAdder) (by simp [Link.manyAccessors,hp.inverse])
  have he : ([(l.elementParam,Value.ref b)] : List (String × Value)).lookup l.elementParam =
      some (.ref b) := List.lookup_cons_self
  obtain ⟨t,h₁,hholds,ht,hb₁⟩ := exists_holds (d := d) hp hx hr ha he
  have hguard : Gives ((Expr.and [.notNull (.var l.elementParam),
      .not (l.holds (.var l.elementParam))]).eval p (dispatch p (p.run (d + 1)))
      ⟨.ref a,[(l.elementParam,.ref b)]⟩) h (.bool !t) h₁ :=
    gives_and_true _ _ (gives_notNull _ _ (gives_var _ _ he)) (gives_not _ _ hholds)
  by_cases hold : X a b
  · rw [ht.mpr hold] at hguard
    have hbody : Gives (execAll p (dispatch p (p.run (d + 1)))
        ⟨.ref a,[(l.elementParam,.ref b)]⟩ l.internalAdder.body) h
        (.next [(l.elementParam,.ref b)]) h₁ :=
      gives_only _ _ (gives_when_false _ _ hguard)
    refine ⟨h₁,gives_dispatch ha hm (gives_run_one_next rfl hbody),hb₁.update_self ?_⟩
    exact fun b' => ⟨.inr,fun h => h.elim (fun h => h ▸ hold) id⟩
  · rw [Bool.eq_false_iff.mpr (mt ht.mp hold)] at hguard
    obtain ⟨h₂,hadd,hb₂⟩ := exists_add (d := d) hp hx hb₁.represents
      ((hb₁.within.entity a _).mpr ha) he ((hb₁.within.entity b _).mpr hb) hold
    have hbody : Gives (execAll p (dispatch p (p.run (d + 1)))
        ⟨.ref a,[(l.elementParam,.ref b)]⟩ l.internalAdder.body) h
        (.next [(l.elementParam,.ref b)]) h₂ :=
      gives_only _ _ (gives_when_eval _ _ hguard hadd)
    exact ⟨h₂,gives_dispatch ha hm (gives_run_one_next rfl hbody),hb₁.trans hb₂⟩

theorem exists_internalRemover (hp : p.Serves l) (hx : l.side.many = true)
    (hr : h.Represents l.side y X Y) (ha : h.IsEntity a l.side.type) (b : Nat) :
    ∃ h', Gives (dispatch p (p.run (d + 1)) (.ref a) l.names.internalRemover [.ref b]) h .null h' ∧
      h.Becomes l.side y (Function.update X a (fun b' => b' ≠ b ∧ X a b')) Y h' := by
  have hm := hp.many hx (m := l.internalRemover) (by simp [Link.manyAccessors,hp.inverse])
  have he : ([(l.elementParam,Value.ref b)] : List (String × Value)).lookup l.elementParam =
      some (.ref b) := List.lookup_cons_self
  have hfield : Gives ((Expr.thisField l.field).eval p (dispatch p (p.run d))
      ⟨.ref a,[(l.elementParam,.ref b)]⟩) h (h.field a l.side.field) h :=
    gives_thisField _ _ ha _
  have hguard := gives_notNull _ _ hfield
  rcases (hr.left a ha).opened hx with hnull | ⟨c,hc,hcoll⟩
  · rw [hnull] at hguard
    have hbody : Gives (execAll p (dispatch p (p.run d)) ⟨.ref a,[(l.elementParam,.ref b)]⟩
        l.internalRemover.body) h (.next [(l.elementParam,.ref b)]) h :=
      gives_only _ _ (gives_when_false _ _ hguard)
    refine ⟨h,gives_dispatch ha hm (gives_run_one_next rfl hbody),hr.becomes.update_self ?_⟩
    intro b'
    have hempty : ¬ X a b' := by
      rw [← hr.links a b' ha,links_many hx,hnull]
      exact List.not_mem_nil
    exact iff_of_false hempty (fun h => hempty h.2)
  · rw [hc] at hfield hguard
    have hremove : ∀ {t h'},
        Gives (dispatch p (p.run d) (.ref c) "remove" [.ref b]) h (.bool t) h' →
        Gives (execAll p (dispatch p (p.run d)) ⟨.ref a,[(l.elementParam,.ref b)]⟩
          l.internalRemover.body) h (.next [(l.elementParam,.ref b)]) h' := by
      intro t h' hcall
      exact gives_only _ _ (gives_when_eval _ _ hguard
        (gives_call_one _ _ hfield (gives_var _ _ he) hcall))
    by_cases hold : X a b
    · have hmem := (hr.mem_items hx ha hc b).mpr hold
      exact ⟨_,gives_dispatch ha hm (gives_run_one_next rfl (hremove (gives_remove hcoll hmem))),
        becomes_refill_erase hx hr ha hc hcoll⟩
    · have hmem := mt (hr.mem_items hx ha hc b).mp hold
      refine ⟨h,gives_dispatch ha hm (gives_run_one_next rfl (hremove
        (gives_remove_absent hcoll hmem))),hr.becomes.update_self ?_⟩
      exact fun b' => ⟨fun hb' => ⟨fun h => hold (h ▸ hb'),hb'⟩,And.right⟩

end Many

end EntityLink
