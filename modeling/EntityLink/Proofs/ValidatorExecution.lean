import EntityLink.Proofs.OpenedCollections
import EntityLink.Proofs.SynchronizedPairs

namespace EntityLink
open Java Java.Exec Java.Heap

namespace Java.Heap

/-- An entity that refers back to `x` through the inverse side. -/
def RefersBack (h : Heap) (o : Relationship) (x : Nat) (v : Value) : Prop :=
  ∃ b, v = .ref b ∧ h.holds o.kind.isCollection b o.field (.ref x) = true

/-- Everything that the field of `x` holds refers back. Only a field for one value may hold null. -/
def Agrees (h : Heap) (r o : Relationship) (x : Nat) : Prop :=
  if r.kind.isCollection then ∀ v ∈ h.items (h.field x r.field), h.RefersBack o x v
  else h.field x r.field = .null ∨ h.RefersBack o x (h.field x r.field)

/-- The fields of a relationship hold what they are declared for. -/
def Types (h : Heap) (r : Relationship) : Prop :=
  ∀ x, h.IsEntity x r.source →
    if r.kind.isCollection then
      (h.field x r.field = .null ∨ ∃ c, h.field x r.field = .ref c ∧ h.IsCollection c) ∧
        ∀ v ∈ h.items (h.field x r.field), h.Fits r.target v
    else h.Fits r.target (h.field x r.field)

section

variable {F : Nat → String → Prop} {h h₁ : Heap} {r o : Relationship} {x b : Nat}

theorem not_refersBack_null : ¬ h.RefersBack o x .null := by
  rintro ⟨b,⟨⟩,-⟩

theorem refersBack_ref : h.RefersBack o x (.ref b) ↔
    h.holds o.kind.isCollection b o.field (.ref x) = true := by
  constructor
  · rintro ⟨b,⟨⟩,hb⟩
    exact hb
  · exact fun hb => ⟨b,rfl,hb⟩

theorem Types.many (ht : h.Types r) (hr : r.kind.isCollection = true)
    (hx : h.IsEntity x r.source) :
    (h.field x r.field = .null ∨ ∃ c, h.field x r.field = .ref c ∧ h.IsCollection c) ∧
      ∀ v ∈ h.items (h.field x r.field), h.Fits r.target v := by
  have hfield := ht x hx
  rwa [hr,if_pos rfl] at hfield

theorem Types.one (ht : h.Types r) (hr : r.kind.isCollection = false)
    (hx : h.IsEntity x r.source) : h.Fits r.target (h.field x r.field) := by
  have hfield := ht x hx
  rwa [hr,if_neg Bool.false_ne_true] at hfield

/-- A collection that is there is still there when others have been opened. -/
theorem Opens.opened (ho : h.Opens F h₁) {n : String}
    (hopen : h.field x n = .null ∨ ∃ c, h.field x n = .ref c ∧ h.IsCollection c) :
    h₁.field x n = .null ∨ ∃ c, h₁.field x n = .ref c ∧ h₁.IsCollection c := by
  rcases ho.field x n with hsame | ⟨-,-,c,hc,-,hcoll,-⟩
  · rw [hsame]
    exact hopen.imp_right (fun ⟨c,hc,hcoll⟩ => ⟨c,hc,ho.collection hcoll⟩)
  · exact .inr ⟨c,hc,hcoll⟩

end

end Java.Heap

/-- A program can check a relationship against its inverse side: it has the getters of both, whose
fields hold what they are declared for. Among these the collections are in `F`. -/
structure Java.Program.Checks (p : Program) (s : Settings) (F : Nat → String → Prop) (h : Heap)
    (r o : Relationship) : Prop where
  left : p.Serves (r.link s o)
  right : p.Serves (o.link s r)
  target : o.source = r.target
  typed : h.Types r
  typed_back : h.Types o
  opened : ∀ x, h.IsEntity x r.source → (F x r.field ↔ r.kind.isCollection = true)
  opened_back : ∀ b, h.IsEntity b o.source → (F b o.field ↔ o.kind.isCollection = true)

namespace Validators

/-- The verdict so far says whether `P` holds. -/
def Judged (env : List (String × Value)) (P : Prop) : Prop :=
  ∃ t, env.lookup "valid" = some (.bool t) ∧ (t = true ↔ P)

section Flag

variable {env : List (String × Value)} {P Q : Prop}

theorem Judged.congr (hj : Judged env P) (h : P ↔ Q) : Judged env Q := by
  obtain ⟨t,ht,hP⟩ := hj
  exact ⟨t,ht,hP.trans h⟩

/-- Another local does not change the verdict. -/
theorem Judged.cons (hj : Judged env P) {n : String} (hn : n ≠ "valid") (v : Value) :
    Judged ((n,v) :: env) P := by
  obtain ⟨t,ht,hP⟩ := hj
  have hne : ("valid" == n) = false := by simpa using hn.symm
  refine ⟨t,?_,hP⟩
  rw [List.lookup_cons,hne]
  exact ht

/-- A check that fails takes the verdict back. -/
theorem exists_invalidate (p : Program) (call : Value → String → List Value → Exec Value)
    {self : Value} {e : Expr} {h h' : Heap} {t : Bool} (hj : Judged env P)
    (he : Gives (e.eval p call ⟨self,env⟩) h (.bool t) h') (hQ : t = false ↔ Q) :
    ∃ env', Gives ((Stmt.when e [invalidate]).exec p call ⟨self,env⟩) h (.next env') h' ∧
      Judged env' (P ∧ Q) := by
  cases t with
  | false =>
    exact ⟨env,gives_when_false p call he,hj.congr (and_iff_left (hQ.mp rfl)).symm⟩
  | true =>
    have hassign : Gives (execAll p call ⟨self,env⟩ [invalidate]) h'
        (.next (("valid",.bool false) :: env)) h' :=
      gives_next p call (gives_assignVar p call (gives_bool p call false)) (gives_done p call)
    refine ⟨_,gives_when_true p call he hassign,false,List.lookup_cons_self,?_⟩
    exact iff_of_false Bool.false_ne_true (fun h => Bool.false_ne_true (hQ.mpr h.2).symm)

end Flag

section Checks

variable {p : Program} {s : Settings} {F : Nat → String → Prop} {h₀ h : Heap}
  {r o : Relationship} {x b d : Nat} {env : List (String × Value)} {P : Prop}

/-- The test whether a value refers back, for a value that is an entity. -/
theorem exists_missesBack (hp : p.Checks s F h₀ r o) (ho : h₀.Opens F h)
    (hx : h₀.IsEntity x r.source) (hb : h₀.IsEntity b r.target) {value : Expr}
    (hvalue : Gives (value.eval p (dispatch p (p.run (d + 1))) ⟨.ref x,env⟩) h (.ref b) h) :
    ∃ t h', Gives ((missesBack o value).eval p (dispatch p (p.run (d + 1))) ⟨.ref x,env⟩) h
      (.bool t) h' ∧ h.Opens F h' ∧ (t = false ↔ h₀.RefersBack o x (.ref b)) := by
  rw [← hp.target] at hb
  have hb' : h.IsEntity b o.source := (ho.entity b _).mpr hb
  rw [refersBack_ref]
  cases hmany : o.kind.isCollection with
  | false =>
    have hget := gives_singleGetter (d := d) hp.right hmany hb'
    refine ⟨h.field b o.field != .ref x,h,?_,.refl F h,?_⟩
    · rw [missesBack,hmany,if_neg Bool.false_ne_true]
      exact gives_notSame _ _ (gives_call_none _ _ hvalue hget) (gives_this _ _)
    · rw [← ho.holds_eq hx,holds_single,bne_eq_false_iff_eq]
      exact ⟨fun hback => ⟨Value.noConfusion,hback⟩,And.right⟩
  | true =>
    obtain ⟨c,h',hget,ho',hc,hitems⟩ := exists_manyGetter_opens (d := d) hp.right hmany hb'
      ((hp.opened_back b hb).mpr hmany) (ho.opened (hp.typed_back.many hmany hb).1)
    refine ⟨!(h'.items (.ref c)).contains (.ref x),h',?_,ho',?_⟩
    · rw [missesBack,hmany,if_pos rfl]
      exact gives_not _ _ (gives_call_one _ _ (gives_call_none _ _ hvalue hget) (gives_this _ _)
        (gives_contains hc _))
    · rw [← ho.holds_eq hx,holds_many,hitems,Bool.not_eq_false',List.contains_iff_mem]
      rfl

/-- The check of a field for one value. -/
theorem exists_perValue_one (hp : p.Checks s F h₀ r o) (hone : r.kind.isCollection = false)
    (ho : h₀.Opens F h) (hx : h₀.IsEntity x r.source) (hj : Judged env P) :
    ∃ env' h', Gives ((perValue r (missesBack o)).exec p (dispatch p (p.run (d + 1)))
      ⟨.ref x,env⟩) h (.next env') h' ∧ h.Opens F h' ∧ Judged env' (P ∧ h₀.Agrees r o x) := by
  have hkept : h.field x r.field = h₀.field x r.field := by
    refine (ho.field x r.field).resolve_right (fun hopened => ?_)
    rw [hp.opened x hx,hone] at hopened
    exact Bool.false_ne_true hopened.1
  have hfield : Gives ((Expr.thisField r.field).eval p (dispatch p (p.run (d + 1)))
      ⟨.ref x,env⟩) h (h₀.field x r.field) h := by
    rw [← hkept]
    exact gives_thisField _ _ ((ho.entity x _).mpr hx) _
  have hnotNull := gives_notNull _ _ hfield
  rw [perValue,hone,if_neg Bool.false_ne_true,Agrees,hone,if_neg Bool.false_ne_true]
  rcases hp.typed.one hone hx with hnull | ⟨b,href,hb⟩
  · rw [hnull] at hnotNull ⊢
    obtain ⟨env',hrun,hj'⟩ := exists_invalidate _ _ hj (gives_and_false _ _ hnotNull)
      (iff_of_true rfl (Or.inl rfl))
    exact ⟨env',h,hrun,.refl F h,hj'⟩
  · have hnonnull : Value.ref b ≠ .null := Value.noConfusion
    rw [href] at hfield hnotNull ⊢
    obtain ⟨t,h',hmisses,ho',ht⟩ := exists_missesBack hp ho hx hb hfield
    obtain ⟨env',hrun,hj'⟩ := exists_invalidate _ _ hj (gives_and_true _ _ hnotNull hmisses)
      (ht.trans (or_iff_right hnonnull).symm)
    exact ⟨env',h',hrun,ho',hj'⟩

/-- The check of one element. -/
theorem exists_elementCheck (hp : p.Checks s F h₀ r o) (ho : h₀.Opens F h)
    (hx : h₀.IsEntity x r.source) {n : String} (hn : n ≠ "valid") (hj : Judged env P) {v : Value}
    (hv : h₀.Fits r.target v) :
    ∃ env' h', Gives (execAll p (dispatch p (p.run (d + 1))) ⟨.ref x,(n,v) :: env⟩
      [.when (.or [.isNull (.var n),missesBack o (.var n)]) [invalidate]]) h (.next env') h' ∧
      h.Opens F h' ∧ Judged env' (P ∧ h₀.RefersBack o x v) := by
  have hvar : Gives ((Expr.var n).eval p (dispatch p (p.run (d + 1))) ⟨.ref x,(n,v) :: env⟩) h v
      h :=
    gives_var _ _ List.lookup_cons_self
  have hisNull := gives_isNull _ _ hvar
  rcases hv with rfl | ⟨b,rfl,hb⟩
  · obtain ⟨env',hrun,hj'⟩ := exists_invalidate _ _ (hj.cons hn _) (gives_or_true _ _ hisNull)
      (iff_of_false Bool.false_ne_true.symm not_refersBack_null)
    exact ⟨env',h,gives_only _ _ hrun,.refl F h,hj'⟩
  · obtain ⟨t,h',hmisses,ho',ht⟩ := exists_missesBack hp ho hx hb hvar
    obtain ⟨env',hrun,hj'⟩ := exists_invalidate _ _ (hj.cons hn _)
      (gives_or_false _ _ hisNull hmisses) ht
    exact ⟨env',h',gives_only _ _ hrun,ho',hj'⟩

/-- The check of a collection looks at every element. -/
theorem exists_perValue_many (hp : p.Checks s F h₀ r o) (hmany : r.kind.isCollection = true)
    (hn : safeIdentifier (Noun.singularize r.field) ≠ "valid") (ho : h₀.Opens F h)
    (hx : h₀.IsEntity x r.source) (hj : Judged env P) :
    ∃ env' h', Gives ((perValue r (missesBack o)).exec p (dispatch p (p.run (d + 1)))
      ⟨.ref x,env⟩) h (.next env') h' ∧ h.Opens F h' ∧ Judged env' (P ∧ h₀.Agrees r o x) := by
  obtain ⟨hopen,hfits⟩ := hp.typed.many hmany hx
  obtain ⟨c,h₁,hget,ho₁,⟨items,unique,changes,hc⟩,hitems⟩ := exists_manyGetter_opens (d := d)
    hp.left hmany ((ho.entity x _).mpr hx) ((hp.opened x hx).mpr hmany) (ho.opened hopen)
  have hall : items = h₀.items (h₀.field x r.field) := by
    rw [items_ref hc] at hitems
    exact hitems.trans (ho.items_field x r.field)
  -- the verdict and the elements still to come together decide the check
  let I : List Value → List (String × Value) → Heap → Prop := fun vs env h =>
    h₁.Opens F h ∧ (∀ v ∈ vs, h₀.Fits r.target v) ∧ ∃ Q, Judged env Q ∧
      ((Q ∧ ∀ v ∈ vs, h₀.RefersBack o x v) ↔ P ∧ ∀ v ∈ items, h₀.RefersBack o x v)
  have hstart : I items env h₁ := ⟨.refl F h₁,hall ▸ hfits,P,hj,Iff.rfl⟩
  have hsource : Gives ((Expr.callThis (MemberNames.ofField r.field true).getter []).eval p
      (dispatch p (p.run (d + 1))) ⟨.ref x,env⟩) h (.ref c) h₁ :=
    gives_call_none _ _ (gives_this _ _) hget
  have hkeep : ∀ vs env h, I vs env h → h.get? c = some (.collection items unique changes) :=
    fun vs env h hI => (hI.1.object c ⟨_,_,_,hc⟩).trans hc
  have hstep : ∀ v vs env h, I (v :: vs) env h → ∃ env' h', Gives (execAll p
      (dispatch p (p.run (d + 1)))
      ⟨.ref x,(safeIdentifier (Noun.singularize r.field),v) :: env⟩
      [.when (.or [.isNull (.var (safeIdentifier (Noun.singularize r.field))),
        missesBack o (.var (safeIdentifier (Noun.singularize r.field)))]) [invalidate]]) h
      (.next env') h' ∧ I vs env' h' := by
    rintro v vs env h ⟨ho',hfits',Q,hj',hQ⟩
    obtain ⟨env',h',hrun,ho'',hj''⟩ := exists_elementCheck (d := d) hp
      ((ho.trans ho₁).trans ho') hx hn hj' (hfits' v List.mem_cons_self)
    refine ⟨env',h',hrun,ho'.trans ho'',fun w hw => hfits' w (List.mem_cons_of_mem _ hw),_,
      hj'',?_⟩
    rw [and_assoc,← List.forall_mem_cons,hQ]
  obtain ⟨env',h',hrun,ho',-,Q,hj',hQ⟩ :=
    exists_forEach_locals _ _ I hsource hstart hkeep hstep r.targetSimple
  refine ⟨env',h',?_,ho₁.trans ho',hj'.congr ?_⟩
  · rw [perValue,hmany,if_pos rfl]
    exact hrun
  · rw [Agrees,hmany,if_pos rfl,← hall,← hQ]
    exact (and_iff_left (List.forall_mem_nil _)).symm

variable {a : Analysis}

/-- What one relationship adds to the verdict. -/
theorem exists_inverseChecks (hp : ∀ o, a.findInverse? r = some o → p.Checks s F h₀ r o)
    (hn : r.kind.isCollection = true → (a.findInverse? r).isSome = true →
      safeIdentifier (Noun.singularize r.field) ≠ "valid")
    (ho : h₀.Opens F h) (hx : h₀.IsEntity x r.source) (hj : Judged env P) :
    ∃ env' h', Gives (execAll p (dispatch p (p.run (d + 1))) ⟨.ref x,env⟩ (inverseChecks a r)) h
      (.next env') h' ∧ h.Opens F h' ∧
      Judged env' (P ∧ ∀ o, a.findInverse? r = some o → h₀.Agrees r o x) := by
  unfold inverseChecks
  cases hfind : a.findInverse? r with
  | none =>
    refine ⟨env,h,gives_done _ _,.refl F h,hj.congr (and_iff_left ?_).symm⟩
    exact fun o ho => absurd ho (Option.some_ne_none o).symm
  | some o =>
    have hvalue : ∃ env' h', Gives ((perValue r (missesBack o)).exec p
        (dispatch p (p.run (d + 1))) ⟨.ref x,env⟩) h (.next env') h' ∧ h.Opens F h' ∧
        Judged env' (P ∧ h₀.Agrees r o x) := by
      cases hmany : r.kind.isCollection with
      | false => exact exists_perValue_one (hp o hfind) hmany ho hx hj
      | true =>
        have hapart := hn hmany (by rw [hfind]; rfl)
        exact exists_perValue_many (hp o hfind) hmany hapart ho hx hj
    obtain ⟨env',h',hrun,ho',hj'⟩ := hvalue
    refine ⟨env',h',gives_next _ _ (gives_comment _ _ _) (gives_only _ _ hrun),
      ho',hj'.congr (and_congr_right' ?_)⟩
    simp

/-- The checks of several relationships run one after another. -/
theorem exists_checks {rs : List Relationship}
    (hp : ∀ r ∈ rs, ∀ o, a.findInverse? r = some o → p.Checks s F h₀ r o)
    (hn : ∀ r ∈ rs, r.kind.isCollection = true → (a.findInverse? r).isSome = true →
      safeIdentifier (Noun.singularize r.field) ≠ "valid")
    (hx : ∀ r ∈ rs, h₀.IsEntity x r.source) (ho : h₀.Opens F h) (hj : Judged env P) :
    ∃ env' h', Gives (execAll p (dispatch p (p.run (d + 1))) ⟨.ref x,env⟩
      (rs.flatMap (inverseChecks a))) h (.next env') h' ∧ h.Opens F h' ∧
      Judged env' (P ∧ ∀ r ∈ rs, ∀ o, a.findInverse? r = some o → h₀.Agrees r o x) := by
  induction rs generalizing env h P with
  | nil =>
    exact ⟨env,h,gives_done _ _,.refl F h,hj.congr (and_iff_left (List.forall_mem_nil _)).symm⟩
  | cons r rs ih =>
    simp only [List.forall_mem_cons] at hp hn hx ⊢
    obtain ⟨env₁,h₁,hrun₁,ho₁,hj₁⟩ := exists_inverseChecks (d := d) hp.1 hn.1 ho hx.1 hj
    obtain ⟨env₂,h₂,hrun₂,ho₂,hj₂⟩ := ih hp.2 hn.2 hx.2 (ho.trans ho₁) hj₁
    exact ⟨env₂,h₂,gives_append _ _ hrun₁ hrun₂,ho₁.trans ho₂,hj₂.congr and_assoc⟩

/-- The validator gives the verdict on all relationships that it checks. -/
theorem exists_validateRelationships {rs : List Relationship}
    (hp : ∀ r ∈ rs, ∀ o, a.findInverse? r = some o → p.Checks s F h r o)
    (hn : ∀ r ∈ rs, r.kind.isCollection = true → (a.findInverse? r).isSome = true →
      safeIdentifier (Noun.singularize r.field) ≠ "valid")
    (hx : ∀ r ∈ rs, h.IsEntity x r.source) :
    ∃ verdict h', Gives (p.run (d + 2) (.ref x) (validateRelationships a rs) []) h
      (.bool verdict) h' ∧ h.Opens F h' ∧
      (verdict = true ↔ ∀ r ∈ rs, ∀ o, a.findInverse? r = some o → h.Agrees r o x) := by
  have hstart : Judged [("valid",.bool true)] True := ⟨true,rfl,iff_of_true rfl trivial⟩
  obtain ⟨env',h',hchecks,ho,hj⟩ := exists_checks (d := d) hp hn hx (.refl F h) hstart
  obtain ⟨verdict,hverdict,hiff⟩ := hj.congr (iff_of_eq (true_and _))
  have hbody : Gives (execAll p (dispatch p (p.run (d + 1))) ⟨.ref x,[("valid",.bool true)]⟩
      (if (rs.flatMap (inverseChecks a)).isEmpty then [.comment "no bidirectional relationships"]
        else rs.flatMap (inverseChecks a))) h (.next env') h' := by
    split
    · rename_i hempty
      rw [List.isEmpty_iff.mp hempty] at hchecks
      exact gives_next _ _ (gives_comment _ _ _) hchecks
    · exact hchecks
  refine ⟨verdict,h',gives_run_done rfl ?_,ho,hiff⟩
  refine gives_next _ _ (gives_declare _ _ _ (gives_bool _ _ _)) ?_
  exact gives_append _ _ hbody (gives_return _ _ (gives_ret _ _ (gives_var _ _ hverdict)))

end Checks

end Validators

namespace Analysis

/-- The fields of associations with a target hold what they are declared for. -/
def WellTyped (a : Analysis) (h : Heap) : Prop :=
  ∀ r ∈ a.relationships, r.hasTarget = true → r.kind.isAssociation = true → h.Types r

/-- The fields that hold a collection of entities. -/
def Collects (a : Analysis) (h : Heap) (x : Nat) (n : String) : Prop :=
  ∃ r ∈ a.relationships, r.hasTarget = true ∧ r.kind.isCollection = true ∧
    h.IsEntity x r.source ∧ n = r.field

/-- Field names of their own tell collections from other associations. -/
theorem collects_iff {s : Settings} {c : Catalog} {r : Relationship} {h : Heap} {x : Nat}
    (hfields : ∀ e ∈ c.entities, (e.fields.map Field.name).Nodup)
    (hr : r ∈ (ofCatalog s c).relationships) (htarget : r.hasTarget = true)
    (hassoc : r.kind.isAssociation = true) (hx : h.IsEntity x r.source) :
    (ofCatalog s c).Collects h x r.field ↔ r.kind.isCollection = true := by
  constructor
  · rintro ⟨q,hq,-,hmany,hent,hfield⟩
    have hqassoc := RelationKind.isAssociation_of_isCollection hmany
    have hsame := eq_of_field_eq hfields hr hq (hx.type_unique hent) hfield
      (RelationKind.ne_inheritance hassoc) (RelationKind.ne_inheritance hqassoc)
    rw [hsame]
    exact hmany
  · exact fun hmany => ⟨r,hr,htarget,hmany,hx,rfl⟩

end Analysis

namespace Synthesis

variable {s : Settings} {c : Catalog} {r o : Relationship} {h : Heap}

/-- Generated classes can check a relationship against the inverse side that is found for it. -/
theorem checks (hfields : ∀ e ∈ c.entities, (e.fields.map Field.name).Nodup)
    (hlink : ∀ e ∈ c.entities, ∀ f ∈ e.fields, f.name ≠ Relationship.superclassField)
    (hnames : ∀ e ∈ (ofAnalysis s (.ofCatalog s c)).entities, (e.methods.map Method.name).Nodup)
    (hheap : (Analysis.ofCatalog s c).WellTyped h) (hr : r ∈ (Analysis.ofCatalog s c).relationships)
    (hfind : (Analysis.ofCatalog s c).findInverse? r = some o) :
    (ofAnalysis s (.ofCatalog s c)).program.Checks s ((Analysis.ofCatalog s c).Collects h) h r o := by
  obtain ⟨field,hfield,-⟩ := Option.bind_eq_some_iff.mp hfind
  have hbi := Analysis.bidirectional_of_inverseField hr hfield
  obtain ⟨o',ho,hpair,hthere,hback⟩ := Analysis.exists_mutual hfields hlink hr hbi
  obtain rfl : o = o' := Option.some.inj (hfind.symm.trans hthere)
  have hassoc := hpair.symm.facing.isAssociation
  have hoassoc := hpair.facing.isAssociation
  have htarget : r.hasTarget = true := (Bool.and_eq_true_iff.mp hpair.facing.left).2
  have hotarget : o.hasTarget = true := (Bool.and_eq_true_iff.mp hpair.symm.facing.left).2
  refine ⟨⟨?_,offers hr hpair hfind hnames⟩,⟨?_,offers ho hpair.symm hback hnames⟩,
    hpair.facing.source,hheap r hr htarget hassoc,hheap o ho hotarget hoassoc,
    fun x hx => Analysis.collects_iff hfields hr htarget hassoc hx,
    fun b hb => Analysis.collects_iff hfields ho hotarget hoassoc hb⟩
  · rw [hpair.inverse_link]
    rfl
  · rw [hpair.symm.inverse_link]
    rfl

/-- The one method that is named for it is the validator of relationships. -/
theorem eq_validateRelationships {e : GeneratedEntity}
    (he : e ∈ (ofAnalysis s (.ofCatalog s c)).entities) {m : Method}
    (hm : e.method? "validateRelationships" = some m) :
    m = Validators.validateRelationships (.ofCatalog s c)
      (Validators.checked (.ofCatalog s c) e.entity) := by
  have hname : m.name = "validateRelationships" := by simpa using List.find?_some hm
  have hmem := List.mem_of_find?_eq_some hm
  rw [methods_of_mem he] at hmem
  have hkind : m.kind = .validator := by
    apply kind_of_stem_begins hmem
    rw [hname]
    decide
  have hvalidator := mem_methodsOf_of_kind hmem hkind
  simp only [Validators.methodsOf,List.mem_append,List.mem_singleton,List.mem_ite_nil_right]
    at hvalidator
  have hcircular : circularValidator ≠ "validateRelationships" := by decide
  have hcascades : "validateCascadeTypeConsistency" ≠ "validateRelationships" := by decide
  rcases hvalidator with (hm | ⟨-,rfl⟩) | rfl
  · exact hm
  · exact absurd hname hcircular
  · exact absurd hname hcascades

end Synthesis

namespace Generation

/-- From every heap whose fields hold what they are declared for, the validator of relationships,
called on any object of its entity, ends without a fault. It returns true exactly where all that
the fields of the object hold refers back through the inverse sides. Nothing has changed but that
collections that were not there yet have been opened. -/
theorem validateRelationships_verdict {cancelled : Bool} {s : Settings} {c : Catalog}
    {g : Generation} (h : run cancelled s c = .ok g)
    (hfields : ∀ e ∈ c.entities, (e.fields.map Field.name).Nodup)
    (hlink : ∀ e ∈ c.entities, ∀ f ∈ e.fields, f.name ≠ Relationship.superclassField)
    (hnames : ∀ e ∈ g.synthesis.entities, (e.methods.map Method.name).Nodup)
    {e : GeneratedEntity} (he : e ∈ g.synthesis.entities)
    (hmethod : (e.method? "validateRelationships").isSome = true)
    (hvalid : ∀ r ∈ g.analysis.relationshipsOf e.entity, r.kind.isCollection = true →
      (g.analysis.findInverse? r).isSome = true →
      safeIdentifier (Noun.singularize r.field) ≠ "valid")
    {heap : Heap} (hheap : g.analysis.WellTyped heap) {x : Nat} (hx : heap.IsEntity x e.entity) :
    ∃ verdict heap', g.synthesis.program.call (.ref x) "validateRelationships" [] heap =
        .ok (.bool verdict,heap') ∧
      (verdict = true ↔ ∀ r ∈ g.analysis.relationshipsOf e.entity, r.hasTarget = true →
        r.kind.isAssociation = true → ∀ o, g.analysis.findInverse? r = some o →
          heap.Agrees r o x) ∧
      heap.Opens (g.analysis.Collects heap) heap' := by
  obtain rfl := eq_of_run h
  obtain ⟨m,hm⟩ := Option.isSome_iff_exists.mp hmethod
  obtain rfl := Synthesis.eq_validateRelationships he hm
  have hchecked : ∀ r ∈ Validators.checked (.ofCatalog s c) e.entity,
      r ∈ (Analysis.ofCatalog s c).relationshipsOf e.entity :=
    fun r hr => List.mem_of_mem_filter hr
  obtain ⟨verdict,heap',hrun,hopens,hiff⟩ := Validators.exists_validateRelationships (d := 14)
    (x := x) (fun r hr o hfind => Synthesis.checks hfields hlink hnames hheap
      (List.mem_of_mem_filter (hchecked r hr)) hfind)
    (fun r hr => hvalid r (hchecked r hr))
    (fun r hr => by
      have hsource : r.source = e.entity := by simpa using (List.mem_filter.mp (hchecked r hr)).2
      rw [hsource]
      exact hx)
  refine ⟨verdict,heap',?_,hiff.trans ?_,hopens⟩
  · exact gives_dispatch hx ((Synthesis.method?_program he _).trans hm) hrun
  · simp only [Validators.checked,List.mem_filter,Bool.and_eq_true,and_imp]
    rfl

/-- Three employees. The first still has the second among its reports, who by now has the third
one as manager. -/
def movedReport : Heap :=
  ⟨[.entity "Employee" (fun n => if n = "reports" then .ref 3 else .null),
    .entity "Employee" (fun n => if n = "manager" then .ref 2 else .null),
    .entity "Employee" (fun _ => .null),
    .collection [.ref 1] false 1]⟩

theorem movedReport_reports (x : Nat) :
    movedReport.field x "reports" = .ref 3 ∨ movedReport.field x "reports" = .null := by
  rcases x with _ | _ | _ | _ | x
  · exact .inl rfl
  · exact .inr rfl
  · exact .inr rfl
  · exact .inr rfl
  · exact .inr rfl

theorem movedReport_manager (x : Nat) :
    movedReport.field x "manager" = .ref 2 ∨ movedReport.field x "manager" = .null := by
  rcases x with _ | _ | _ | _ | x
  · exact .inr rfl
  · exact .inl rfl
  · exact .inr rfl
  · exact .inr rfl
  · exact .inr rfl

theorem reportingLine_kinds :
    ∀ r ∈ (ofCatalog Analysis.uncycled reportingLine).analysis.relationships,
      r.source = "Employee" ∧ r.target = "Employee" ∧
      (r.kind.isCollection = true ∧ r.field = "reports" ∨
        r.kind.isCollection = false ∧ r.field = "manager") := by
  decide +kernel

theorem movedReport_wellTyped :
    (ofCatalog Analysis.uncycled reportingLine).analysis.WellTyped movedReport := by
  intro r hr _ _ x _
  obtain ⟨-,htarget,⟨hmany,hfield⟩ | ⟨hone,hfield⟩⟩ := reportingLine_kinds r hr
  · rw [hmany,if_pos rfl,hfield,htarget]
    rcases movedReport_reports x with hheld | hnull
    · refine ⟨.inr ⟨3,hheld,_,_,_,rfl⟩,fun v hv => ?_⟩
      rw [hheld] at hv
      exact .inr ⟨1,List.mem_singleton.mp hv,_,rfl⟩
    · rw [hnull]
      exact ⟨.inl rfl,fun v hv => absurd hv List.not_mem_nil⟩
  · rw [hone,if_neg Bool.false_ne_true,hfield,htarget]
    rcases movedReport_manager x with hheld | hnull
    · exact .inr ⟨2,hheld,_,rfl⟩
    · exact .inl hnull

/-- The validator tells the first employee from the third, who has no reports yet. -/
theorem movedReport_verdict :
    run false Analysis.uncycled reportingLine = .ok (ofCatalog Analysis.uncycled reportingLine) ∧
    (ofCatalog Analysis.uncycled reportingLine).analysis.WellTyped movedReport ∧
    (∃ heap, (ofCatalog Analysis.uncycled reportingLine).synthesis.program.call (.ref 0)
      "validateRelationships" [] movedReport = .ok (.bool false,heap)) ∧
    ∃ heap, (ofCatalog Analysis.uncycled reportingLine).synthesis.program.call (.ref 2)
      "validateRelationships" [] movedReport = .ok (.bool true,heap) ∧
      heap.items (heap.field 2 "reports") = [] := by
  have hrun : run false Analysis.uncycled reportingLine =
      .ok (ofCatalog Analysis.uncycled reportingLine) := rfl
  obtain ⟨hfields,hlink⟩ := reportingLine_fields
  have hentity : ∃ e ∈ (ofCatalog Analysis.uncycled reportingLine).synthesis.entities,
      e.entity = "Employee" ∧ (e.method? "validateRelationships").isSome = true ∧
      ∀ r ∈ (ofCatalog Analysis.uncycled reportingLine).analysis.relationshipsOf e.entity,
        safeIdentifier (Noun.singularize r.field) ≠ "valid" := by
    decide +kernel
  have hreports : ∃ r ∈ (ofCatalog Analysis.uncycled reportingLine).analysis.relationshipsOf
      "Employee", r.hasTarget = true ∧ r.kind.isAssociation = true ∧
      r.kind.isCollection = true ∧ r.field = "reports" ∧
      ∃ o ∈ (ofCatalog Analysis.uncycled reportingLine).analysis.relationships,
        (ofCatalog Analysis.uncycled reportingLine).analysis.findInverse? r = some o ∧
        o.kind.isCollection = false ∧ o.field = "manager" := by
    decide +kernel
  obtain ⟨e,he,htype,hmethod,hvalid⟩ := hentity
  have hverdict := fun {x} => validateRelationships_verdict (x := x) hrun hfields hlink
    reportingLine_methods he hmethod (fun r hr _ _ => hvalid r hr) movedReport_wellTyped
  rw [htype] at hverdict
  refine ⟨hrun,movedReport_wellTyped,?_,?_⟩
  · obtain ⟨verdict,heap,hcall,hiff,-⟩ := hverdict (x := 0) ⟨_,rfl⟩
    obtain ⟨r,hr,htarget,hassoc,hmany,hfield,o,-,hfind,hone,hback⟩ := hreports
    have hfails : verdict ≠ true := by
      intro htrue
      have hagrees := hiff.mp htrue r hr htarget hassoc o hfind
      rw [Agrees,hmany,if_pos rfl,hfield] at hagrees
      have hrefers := refersBack_ref.mp (hagrees (.ref 1) (by decide))
      rw [hone,hback] at hrefers
      exact absurd hrefers (by decide)
    rw [eq_false_of_ne_true hfails] at hcall
    exact ⟨heap,hcall⟩
  · obtain ⟨verdict,heap,hcall,hiff,hopens⟩ := hverdict (x := 2) ⟨_,rfl⟩
    have hholds : verdict = true := by
      refine hiff.mpr (fun r hr _ _ o _ => ?_)
      obtain ⟨-,-,⟨hmany,hfield⟩ | ⟨hone,hfield⟩⟩ := reportingLine_kinds r
        (List.mem_of_mem_filter hr)
      · rw [Agrees,hmany,if_pos rfl,hfield]
        exact List.forall_mem_nil _
      · rw [Agrees,hone,if_neg Bool.false_ne_true,hfield]
        exact .inl rfl
    rw [hholds] at hcall
    exact ⟨heap,hcall,hopens.items_field 2 "reports"⟩

end Generation

end EntityLink
