import EntityLink.Proofs.InversePairing

namespace EntityLink.Pairing

/-- The pairing that position `j` finds at its turn of a pass over `rs` that began with `p`. -/
def foundAt (link : Relationship → Relationship → Bool) (rs : List Relationship) (p : Pairing)
    (j : Nat) : Pairing :=
  (rs.zipIdx.take j).foldl (step link rs) p

/-- What `r` may choose from at its turn: nothing when it is taken or cannot be paired. -/
def choices (link : Relationship → Relationship → Bool) (rs : List Relationship) (p : Pairing)
    (r : Relationship) (i : Nat) : List (Relationship × Nat) :=
  if p.partner? i = none ∧ isPairable r = true then candidates link rs p r i else []

/-- At its turn position `j` chose the one at `k`. -/
def Picks (link : Relationship → Relationship → Bool) (rs : List Relationship) (p : Pairing)
    (j k : Nat) : Prop :=
  ∃ o q xs, rs[j]? = some o ∧ choices link rs (foundAt link rs p j) o j = (q,k) :: xs

/-- In a pass that began with `p`, position `i` was one of several that a relationship could choose
from at its turn. -/
def ContendsIn (link : Relationship → Relationship → Bool) (rs : List Relationship) (p : Pairing)
    (i : Nat) : Prop :=
  ∃ j o, rs[j]? = some o ∧ 2 ≤ (choices link rs (foundAt link rs p j) o j).length ∧
    ∃ q, (q,i) ∈ choices link rs (foundAt link rs p j) o j

/-- The same for a whole run: named owners choose first, then, if wanted, names that match. -/
def Contends (inferByName : Bool) (rs : List Relationship) (i : Nat) : Prop :=
  ContendsIn linkedByOwner rs {} i ∨
    inferByName = true ∧ ContendsIn linkedByName rs (pass linkedByOwner rs {}) i

/-- Of the partners at `j` and `k`, which `p` did not have and `p'` has, `j` is the one that chose:
the first one of the two that is linked with the other. -/
structure Chose (Link : Relationship → Relationship → Prop) (rs : List Relationship)
    (p p' : Pairing) (j k : Nat) : Prop where
  free : p.partner? j = none
  partner : p'.partner? j = some k
  first : ∃ o q, rs[j]? = some o ∧ rs[k]? = some q ∧ Link o q ∧ (j < k ∨ ¬ Link q o)

/-- Position `i` was open to the choice at `j`: it leads back, and if it chose or was chosen itself,
then no earlier than `j`. -/
structure OpenTo (Link : Relationship → Relationship → Prop) (rs : List Relationship)
    (p p' : Pairing) (j i : Nat) : Prop where
  ne : i ≠ j
  free : p.partner? i = none
  facing : ∃ o q, rs[j]? = some o ∧ rs[i]? = some q ∧ Facing o q ∧ Link o q
  chose : ∀ m, Chose Link rs p p' i m → j ≤ i
  chosen : ∀ m, Chose Link rs p p' m i → j ≤ m

/-- Somebody chose to whom `i` was open, and another one too. -/
def RivalIn (Link : Relationship → Relationship → Prop) (rs : List Relationship)
    (p p' : Pairing) (i : Nat) : Prop :=
  ∃ j k i', Chose Link rs p p' j k ∧ OpenTo Link rs p p' j i ∧ OpenTo Link rs p p' j i' ∧ i' ≠ i

/-- The relationship at `i` had a rival for a partner by owner, or, if wanted, for one by name. -/
def Rival (inferByName : Bool) (rs : List Relationship) (i : Nat) : Prop :=
  RivalIn OwnerLinked rs {} (pass linkedByOwner rs {}) i ∨
    inferByName = true ∧
      RivalIn NameLinked rs (pass linkedByOwner rs {}) (ofRelationships true rs) i

/-- An association at position `i` that stays without a partner although another one leads back
and is linked with it by its owner. -/
structure LeftOver (inferByName : Bool) (rs : List Relationship) (i : Nat) (r : Relationship) :
    Prop where
  stands : ((ofRelationships inferByName rs).apply rs)[i]? = some r
  unpaired : r.bidirectional = false
  association : r.kind.isAssociation = true
  target : r.hasTarget = true
  inverse : ∃ j o, j ≠ i ∧ rs[j]? = some o ∧ o.kind.isAssociation = true ∧
    o.source = r.target ∧ o.target = r.source ∧ OwnerLinked r o

/-- `o` at position `j` leads back from where `r` leads, and was given the partner at `k`. -/
structure Engaged (inferByName : Bool) (rs : List Relationship) (r o : Relationship) (j k : Nat) :
    Prop where
  stands : rs[j]? = some o
  source : o.source = r.target
  target : o.target = r.source
  partner : (ofRelationships inferByName rs).partner? j = some k

/-- A possible inverse of `r` was the one to choose, and chose another partner. An owner links both
ways, so the one to choose is who stands first. With names it is the later one where the first does
not match it. -/
def PassedOver (inferByName : Bool) (rs : List Relationship) (r : Relationship) : Prop :=
  (∃ j k o, Engaged inferByName rs r o j k ∧ OwnerLinked r o ∧ j < k) ∨
  inferByName = true ∧ ∃ j k o q, Engaged inferByName rs r o j k ∧ rs[k]? = some q ∧
    NameLinked o r ∧ (pass linkedByOwner rs {}).partner? j = none ∧ (j < k ∨ ¬ NameLinked q o)

section Turns
variable {link : Relationship → Relationship → Bool} {rs : List Relationship} {p : Pairing}
  {r o : Relationship} {i j k : Nat}

theorem mem_choices {x : Relationship × Nat} : x ∈ choices link rs p r i ↔
    p.partner? i = none ∧ isPairable r = true ∧ x ∈ candidates link rs p r i := by
  rw [choices,List.mem_ite_nil_right,and_assoc]

/-- A step reports on its own choices and keeps what was reported before. -/
theorem ambiguities_step (link : Relationship → Relationship → Bool) (rs : List Relationship)
    (p : Pairing) (r : Relationship) (i : Nat) :
    (step link rs p (r,i)).ambiguities = p.ambiguities ++ report r (choices link rs p r i) := by
  have hstep := step_cases link rs p r i
  generalize step link rs p (r,i) = p' at hstep
  cases hstep with
  | taken h => rw [choices,if_neg (fun hc => h hc.1)]; exact (List.append_nil _).symm
  | unfit h => rw [choices,if_neg (by simp [h])]; exact (List.append_nil _).symm
  | alone h => rw [choices,h,ite_self]; exact (List.append_nil _).symm
  | paired o os free fit h => rw [choices,if_pos ⟨free,fit⟩,h]

theorem foundAt_succ (link : Relationship → Relationship → Bool) (p : Pairing)
    (hj : rs[j]? = some o) :
    foundAt link rs p (j + 1) = step link rs (foundAt link rs p j) (o,j) := by
  have hx : rs.zipIdx[j]? = some (o,j) := by
    rw [List.getElem?_zipIdx,hj]
    simp
  rw [foundAt,List.take_add_one,hx,List.foldl_append]
  rfl

theorem foundAt_grows (link : Relationship → Relationship → Bool) (rs : List Relationship)
    (p : Pairing) (h : j ≤ k) : Extends (foundAt link rs p j) (foundAt link rs p k) := by
  obtain ⟨d,rfl⟩ := Nat.exists_eq_add_of_le h
  rw [foundAt,foundAt,List.take_add,List.foldl_append]
  exact foldl_step_grows link rs _ _

theorem foundAt_grows_pass (link : Relationship → Relationship → Bool) (rs : List Relationship)
    (p : Pairing) (j : Nat) : Extends (foundAt link rs p j) (pass link rs p) := by
  have hpass : pass link rs p = (rs.zipIdx.drop j).foldl (step link rs) (foundAt link rs p j) := by
    rw [foundAt,← List.foldl_append,List.take_append_drop]
    rfl
  rw [hpass]
  exact foldl_step_grows link rs _ _

theorem foundAt_length (link : Relationship → Relationship → Bool) (rs : List Relationship)
    (p : Pairing) : foundAt link rs p rs.length = pass link rs p := by
  rw [foundAt,List.take_of_length_le (Nat.le_of_eq List.length_zipIdx)]
  rfl

theorem mem_report {os : List (Relationship × Nat)} {a : Ambiguity} : a ∈ report r os ↔
    2 ≤ os.length ∧ a = ⟨r.source,r.field,os.map (fun c => c.1.field)⟩ := by
  rw [report,List.mem_ite_nil_right,List.mem_singleton]

/-- What is reported until position `n` was reported before the pass, or at some turn of it. -/
theorem mem_ambiguities_foundAt {n : Nat} (h : n ≤ rs.length) {a : Ambiguity} :
    a ∈ (foundAt link rs p n).ambiguities ↔ a ∈ p.ambiguities ∨ ∃ j o, j < n ∧ rs[j]? = some o ∧
      a ∈ report o (choices link rs (foundAt link rs p j) o j) := by
  induction n with
  | zero => simp [foundAt]
  | succ n ih =>
    have hn : rs[n]? = some rs[n] := List.getElem?_eq_getElem h
    rw [foundAt_succ link p hn,ambiguities_step,List.mem_append,ih (Nat.le_of_succ_le h),or_assoc]
    refine or_congr_right ⟨?_,?_⟩
    · rintro (⟨j,o,hj,ho,ha⟩ | ha)
      · exact ⟨j,o,Nat.lt_succ_of_lt hj,ho,ha⟩
      · exact ⟨n,_,Nat.lt_succ_self n,hn,ha⟩
    · rintro ⟨j,o,hj,ho,ha⟩
      rcases Nat.lt_succ_iff_lt_or_eq.mp hj with hj | rfl
      · exact .inl ⟨j,o,hj,ho,ha⟩
      · obtain rfl := Option.some.inj (ho.symm.trans hn)
        exact .inr ha

/-- A pass lists the field names of those that contend in it. -/
theorem listed_pass_iff {name : String} :
    (∃ a ∈ (pass link rs p).ambiguities, name ∈ a.candidates) ↔
      (∃ a ∈ p.ambiguities, name ∈ a.candidates) ∨
      ∃ i q, rs[i]? = some q ∧ q.field = name ∧ ContendsIn link rs p i := by
  simp only [← foundAt_length link rs p,mem_ambiguities_foundAt (Nat.le_refl _),mem_report]
  constructor
  · rintro ⟨a,ha | ⟨j,o,-,ho,hlen,rfl⟩,hname⟩
    · exact .inl ⟨a,ha,hname⟩
    · obtain ⟨q,hq,rfl⟩ := List.mem_map.mp hname
      obtain ⟨-,hfit,hcand⟩ := mem_choices.mp hq
      exact .inr ⟨q.2,q.1,((mem_candidates hfit).mp hcand).1,rfl,j,o,ho,hlen,q.1,hq⟩
  · rintro (⟨a,ha,hname⟩ | ⟨i,q,hi,rfl,j,o,ho,hlen,q',hq⟩)
    · exact ⟨a,.inl ha,hname⟩
    · obtain ⟨-,hfit,hcand⟩ := mem_choices.mp hq
      obtain rfl := Option.some.inj (hi.symm.trans ((mem_candidates hfit).mp hcand).1)
      obtain ⟨hj,-⟩ := List.getElem?_eq_some_iff.mp ho
      exact ⟨_,.inr ⟨j,o,hj,ho,hlen,rfl⟩,List.mem_map.mpr ⟨_,hq,rfl⟩⟩

/-- The first choice and who made it are partners from then on. -/
theorem Picks.partner (h : Picks link rs p j k) :
    (foundAt link rs p (j + 1)).partner? j = some k ∧
      (foundAt link rs p (j + 1)).partner? k = some j := by
  obtain ⟨o,q,xs,ho,hx⟩ := h
  obtain ⟨hfree,hfit,hcand⟩ := mem_choices.mp (hx ▸ List.mem_cons_self)
  obtain ⟨-,hne,hopen,-⟩ := (mem_candidates hfit).mp hcand
  rw [choices,if_pos ⟨hfree,hfit⟩] at hx
  have hstep := step_cases link rs (foundAt link rs p j) o j
  rw [foundAt_succ link p ho]
  generalize step link rs (foundAt link rs p j) (o,j) = p' at hstep
  cases hstep with
  | taken h' => exact absurd hfree h'
  | unfit h' => exact absurd (h'.symm.trans hfit) Bool.false_ne_true
  | alone h' => rw [hx] at h'; cases h'
  | paired y ys _ _ h' =>
    rw [hx] at h'
    cases h'
    exact ⟨partner_append_left hfree,partner_append_right hopen hne.symm⟩

/-- Who found a partner before the turn of position `n` chose it before, or was chosen before. -/
theorem picks_of_foundAt {n : Nat} (hn : n ≤ rs.length) (hp : p.partner? j = none)
    (h : (foundAt link rs p n).partner? j = some k) :
    Picks link rs p j k ∧ j < n ∨ Picks link rs p k j ∧ k < n := by
  induction n with
  | zero =>
    rw [show foundAt link rs p 0 = p from rfl,hp] at h
    cases h
  | succ n ih =>
    have hr : rs[n]? = some rs[n] := List.getElem?_eq_getElem hn
    rw [foundAt_succ link p hr] at h
    have hold : (foundAt link rs p n).partner? j = some k →
        Picks link rs p j k ∧ j < n + 1 ∨ Picks link rs p k j ∧ k < n + 1 :=
      fun h => (ih (Nat.le_of_succ_le hn) h).imp (And.imp_right Nat.lt_succ_of_lt)
        (And.imp_right Nat.lt_succ_of_lt)
    have hstep := step_cases link rs (foundAt link rs p n) rs[n] n
    generalize step link rs (foundAt link rs p n) (rs[n],n) = p' at h hstep
    cases hstep with
    | taken | unfit | alone => exact hold h
    | paired o os free fit hc =>
      have hpicks : Picks link rs p n o.2 :=
        ⟨rs[n],o.1,os,hr,(if_pos ⟨free,fit⟩).trans hc⟩
      rcases partner_append_cases h with h | ⟨rfl,rfl⟩ | ⟨rfl,rfl⟩
      · exact hold h
      · exact .inl ⟨hpicks,Nat.lt_succ_self _⟩
      · exact .inr ⟨hpicks,Nat.lt_succ_self _⟩

/-- A position is free at a turn when it neither chose nor was chosen before. -/
theorem free_foundAt_iff (hj : j ≤ rs.length) : (foundAt link rs p j).partner? i = none ↔
    p.partner? i = none ∧ (∀ m, Picks link rs p i m → j ≤ i) ∧
      ∀ m, Picks link rs p m i → j ≤ m := by
  constructor
  · intro h
    refine ⟨(foundAt_grows link rs p (Nat.zero_le j)).free h,fun m hm => ?_,fun m hm => ?_⟩
    · by_contra hlt
      have hgrows := foundAt_grows link rs p (Nat.succ_le_of_lt (Nat.not_le.mp hlt))
      cases h.symm.trans (hgrows i m hm.partner.1)
    · by_contra hlt
      have hgrows := foundAt_grows link rs p (Nat.succ_le_of_lt (Nat.not_le.mp hlt))
      cases h.symm.trans (hgrows i m hm.partner.2)
  · rintro ⟨hp,hchose,hchosen⟩
    cases hpart : (foundAt link rs p j).partner? i with
    | none => rfl
    | some m =>
      rcases picks_of_foundAt hj hp hpart with ⟨hm,hlt⟩ | ⟨hm,hlt⟩
      · exact absurd (hchose m hm) (Nat.not_le.mpr hlt)
      · exact absurd (hchosen m hm) (Nat.not_le.mpr hlt)

/-- Nobody chooses who stood before and is linked with it: that one would have chosen first. -/
theorem lt_of_mem_choices (hback : link r o = true) (ho : rs[j]? = some o)
    (hr : (r,i) ∈ choices link rs (foundAt link rs p j) o j) : j < i := by
  obtain ⟨hfree,hfit,hcand⟩ := mem_choices.mp hr
  obtain ⟨hi,hne,hopen,hfacing,-⟩ := (mem_candidates hfit).mp hcand
  by_contra hlt
  have hij : i < j := Nat.lt_of_le_of_ne (Nat.not_lt.mp hlt) hne
  have hstep := step_cases link rs (foundAt link rs p i) r i
  rw [← foundAt_succ link p hi] at hstep
  have hgrows := foundAt_grows link rs p (Nat.succ_le_of_lt hij)
  have hmem : (o,j) ∈ candidates link rs (foundAt link rs p i) r i :=
    (mem_candidates hfacing.right).mpr ⟨ho,hne.symm,(hstep.grows.trans hgrows).free hfree,
      hfacing.symm,hback⟩
  rcases hstep.settles (hgrows.free hopen) with hunfit | hnobody
  · exact Bool.false_ne_true (hunfit.symm.trans hfacing.right)
  · rw [hnobody] at hmem
    exact List.not_mem_nil hmem

/-- Who chose is seen from the partners in the end. -/
theorem picks_iff_chose : Picks link rs p j k ↔
    Chose (fun r o => link r o = true) rs p (pass link rs p) j k := by
  have hfirst : ∀ {j k}, Picks link rs p j k → ∃ o q, rs[j]? = some o ∧ rs[k]? = some q ∧
      link o q = true ∧ (q,k) ∈ choices link rs (foundAt link rs p j) o j := by
    rintro j k ⟨o,q,xs,ho,hx⟩
    have hmem : (q,k) ∈ choices link rs (foundAt link rs p j) o j := hx ▸ List.mem_cons_self
    obtain ⟨-,hfit,hcand⟩ := mem_choices.mp hmem
    obtain ⟨hq,-,-,-,hlink⟩ := (mem_candidates hfit).mp hcand
    exact ⟨o,q,ho,hq,hlink,hmem⟩
  constructor
  · intro h
    obtain ⟨o,q,ho,hq,hlink,hmem⟩ := hfirst h
    obtain ⟨hfree,-⟩ := mem_choices.mp hmem
    refine ⟨(foundAt_grows link rs p (Nat.zero_le j)).free hfree,
      foundAt_grows_pass link rs p (j + 1) j k h.partner.1,o,q,ho,hq,hlink,?_⟩
    exact or_iff_not_imp_right.mpr
      (fun hback => lt_of_mem_choices (Classical.not_not.mp hback) ho hmem)
  · rintro ⟨hfree,hpartner,o,q,ho,hq,hlink,hbefore⟩
    rw [← foundAt_length link rs p] at hpartner
    rcases picks_of_foundAt (Nat.le_refl _) hfree hpartner with ⟨h,-⟩ | ⟨h,-⟩
    · exact h
    · -- Linked both ways, the two cannot each come before the other.
      obtain ⟨q',o',hq',ho',hback,hmem⟩ := hfirst h
      obtain rfl := Option.some.inj (hq.symm.trans hq')
      obtain rfl := Option.some.inj (ho.symm.trans ho')
      have hlt := lt_of_mem_choices hlink hq hmem
      exact absurd hlt (Nat.lt_asymm (hbefore.resolve_right (fun hno => hno hback)))

/-- What was chosen from is what was open. -/
theorem Picks.mem_choices_iff {q : Relationship} (h : Picks link rs p j k)
    (ho : rs[j]? = some o) : (q,i) ∈ choices link rs (foundAt link rs p j) o j ↔
      rs[i]? = some q ∧ OpenTo (fun r o => link r o = true) rs p (pass link rs p) j i := by
  obtain ⟨hj,-⟩ := List.getElem?_eq_some_iff.mp ho
  obtain ⟨o',q',xs,ho',hx⟩ := h
  obtain rfl := Option.some.inj (ho.symm.trans ho')
  obtain ⟨hfree,hfit,-⟩ := mem_choices.mp (hx ▸ List.mem_cons_self)
  rw [mem_choices,mem_candidates hfit,free_foundAt_iff (i := i) (Nat.le_of_lt hj)]
  simp only [picks_iff_chose]
  constructor
  · rintro ⟨-,-,hi,hne,⟨hp,hchose,hchosen⟩,hfacing,hlink⟩
    exact ⟨hi,hne,hp,⟨o,q,ho,hi,hfacing,hlink⟩,hchose,hchosen⟩
  · rintro ⟨hi,hopen⟩
    obtain ⟨o',q',ho',hi',hfacing,hlink⟩ := hopen.facing
    obtain rfl := Option.some.inj (ho.symm.trans ho')
    obtain rfl := Option.some.inj (hi.symm.trans hi')
    exact ⟨hfree,hfit,hi,hopen.ne,⟨hopen.free,hopen.chose,hopen.chosen⟩,hfacing,hlink⟩

/-- No position is offered twice. -/
theorem nodup_choices (link : Relationship → Relationship → Bool) (rs : List Relationship)
    (p : Pairing) (r : Relationship) (i : Nat) :
    ((choices link rs p r i).map Prod.snd).Nodup := by
  unfold choices
  split
  · have hpositions : (rs.zipIdx.map Prod.snd).Nodup := by
      rw [List.zipIdx_map_snd]
      exact List.nodup_range'
    exact hpositions.sublist (List.filter_sublist.map Prod.snd)
  · exact List.nodup_nil

theorem two_le_choices_iff {q : Relationship} (hq : (q,i) ∈ choices link rs p o j) :
    2 ≤ (choices link rs p o j).length ↔ ∃ q' i', (q',i') ∈ choices link rs p o j ∧ i' ≠ i := by
  have hnodup := nodup_choices link rs p o j
  generalize choices link rs p o j = xs at hq hnodup
  match xs with
  | [] => cases hq
  | [x] =>
    obtain rfl := List.mem_singleton.mp hq
    constructor
    · intro hlen
      exact absurd hlen (by simp)
    · rintro ⟨q',i',hmem,hne⟩
      cases List.mem_singleton.mp hmem
      exact absurd rfl hne
  | x :: y :: ys =>
    refine ⟨fun _ => ?_,fun _ => Nat.le_add_left 2 _⟩
    have hne : y.2 ≠ x.2 := fun heq => (List.nodup_cons.mp hnodup).1 (heq ▸ List.mem_cons_self)
    by_cases hxi : x.2 = i
    · exact ⟨y.1,y.2,List.mem_cons_of_mem x List.mem_cons_self,hxi ▸ hne⟩
    · exact ⟨x.1,x.2,List.mem_cons_self,hxi⟩

/-- Who contends is seen from the partners in the end. -/
theorem contendsIn_iff : ContendsIn link rs p i ↔
    RivalIn (fun r o => link r o = true) rs p (pass link rs p) i := by
  constructor
  · rintro ⟨j,o,ho,hlen,q,hq⟩
    obtain ⟨x,xs,hx⟩ := List.exists_cons_of_ne_nil (List.ne_nil_of_mem hq)
    have hpicks : Picks link rs p j x.2 := ⟨o,x.1,xs,ho,hx⟩
    obtain ⟨q',i',hq',hne⟩ := (two_le_choices_iff hq).mp hlen
    exact ⟨j,x.2,i',picks_iff_chose.mp hpicks,((hpicks.mem_choices_iff ho).mp hq).2,
      ((hpicks.mem_choices_iff ho).mp hq').2,hne⟩
  · rintro ⟨j,k,i',hchose,hopen,hopen',hne⟩
    have hpicks := picks_iff_chose.mpr hchose
    obtain ⟨o,q,ho,hi,-⟩ := hopen.facing
    obtain ⟨o',q',ho',hi',-⟩ := hopen'.facing
    have hmem := (hpicks.mem_choices_iff ho).mpr ⟨hi,hopen⟩
    have hmem' := (hpicks.mem_choices_iff ho).mpr ⟨hi',hopen'⟩
    exact ⟨j,o,ho,(two_le_choices_iff hmem).mpr ⟨q',i',hmem',hne⟩,q,hmem⟩

/-- Whoever is left over by a pass had a rival in it exactly when some relationship that was free
before, leads back and is linked with it chose another partner. -/
theorem rivalIn_iff_of_free (link : Relationship → Relationship → Bool) (hi : rs[i]? = some r)
    (hfree : (pass link rs p).partner? i = none)
    (hsymm : ∀ j k, (pass link rs p).partner? j = some k → (pass link rs p).partner? k = some j) :
    RivalIn (fun r o => link r o = true) rs p (pass link rs p) i ↔
      ∃ j k o q, rs[j]? = some o ∧ rs[k]? = some q ∧ Facing o r ∧ link o r = true ∧
        p.partner? j = none ∧ (pass link rs p).partner? j = some k ∧
        (j < k ∨ ¬ link q o = true) := by
  have hnobody : ∀ m, (pass link rs p).partner? i ≠ some m := fun m hm => by
    rw [hfree] at hm
    cases hm
  constructor
  · rintro ⟨j,k,-,hchose,hopen,-⟩
    obtain ⟨o,r',ho,hi',hfacing,hlink⟩ := hopen.facing
    obtain ⟨o',q,ho',hq,-,hfirst⟩ := hchose.first
    obtain rfl := Option.some.inj (hi.symm.trans hi')
    obtain rfl := Option.some.inj (ho.symm.trans ho')
    exact ⟨j,k,o,q,ho,hq,hfacing,hlink,hchose.free,hchose.partner,hfirst⟩
  · rintro ⟨j,k,o,q,ho,hq,hfacing,hlink,hp,hjk,hfirst⟩
    obtain ⟨hj,-⟩ := List.getElem?_eq_some_iff.mp ho
    have hturn : (foundAt link rs p j).partner? j = none := by
      refine (free_foundAt_iff (Nat.le_of_lt hj)).mpr ⟨hp,fun _ _ => Nat.le_refl j,fun m hm => ?_⟩
      obtain ⟨-,hmj,q',o',hq',ho',hback,-⟩ := picks_iff_chose.mp hm
      obtain rfl := Option.some.inj ((hsymm m j hmj).symm.trans hjk)
      obtain rfl := Option.some.inj (hq.symm.trans hq')
      obtain rfl := Option.some.inj (ho.symm.trans ho')
      exact Nat.le_of_lt (hfirst.resolve_right (fun hno => hno hback))
    have hne : i ≠ j := by
      rintro rfl
      exact hnobody k hjk
    have hmem : (r,i) ∈ choices link rs (foundAt link rs p j) o j :=
      mem_choices.mpr ⟨hturn,hfacing.left,(mem_candidates hfacing.left).mpr
        ⟨hi,hne,(foundAt_grows_pass link rs p j).free hfree,hfacing,hlink⟩⟩
    -- Somebody could be chosen, so somebody was, and the chosen one is the rival.
    obtain ⟨x,xs,hx⟩ := List.exists_cons_of_ne_nil (List.ne_nil_of_mem hmem)
    have hpicks : Picks link rs p j x.2 := ⟨o,x.1,xs,ho,hx⟩
    have hchose := picks_iff_chose.mp hpicks
    have hrival := (hpicks.mem_choices_iff ho).mp (hx ▸ List.mem_cons_self)
    refine ⟨j,x.2,x.2,hchose,((hpicks.mem_choices_iff ho).mp hmem).2,hrival.2,?_⟩
    intro hxi
    exact hnobody j (hsymm j i (hxi ▸ hchose.partner))

end Turns

section Runs
variable {inferByName : Bool} {rs : List Relationship} {r : Relationship} {i : Nat}

theorem owned_grows (inferByName : Bool) (rs : List Relationship) :
    Extends (pass linkedByOwner rs {}) (ofRelationships inferByName rs) := by
  unfold ofRelationships
  cases inferByName with
  | false => exact .refl _
  | true => exact foldl_step_grows _ rs _ _

/-- Ambiguities list the field names of those that contend, and no others. -/
theorem listed_iff {name : String} :
    (∃ a ∈ (ofRelationships inferByName rs).ambiguities, name ∈ a.candidates) ↔
      ∃ i q, rs[i]? = some q ∧ q.field = name ∧ Contends inferByName rs i := by
  have howned : (∃ a ∈ (pass linkedByOwner rs {}).ambiguities, name ∈ a.candidates) ↔
      ∃ i q, rs[i]? = some q ∧ q.field = name ∧ ContendsIn linkedByOwner rs {} i := by
    rw [listed_pass_iff]
    simp
  unfold ofRelationships Contends
  cases inferByName with
  | false => simp [howned]
  | true =>
    rw [if_pos rfl,listed_pass_iff,howned]
    simp only [true_and,and_or_left,exists_or]

/-- While an owner is named in vain, those linked with it have found their partners by owner. -/
theorem partner_owned {o : Relationship} {j k : Nat} (hi : rs[i]? = some r) (hj : rs[j]? = some o)
    (hfacing : Facing r o) (hlink : OwnerLinked r o)
    (hfree : (ofRelationships inferByName rs).partner? i = none)
    (h : (ofRelationships inferByName rs).partner? j = some k) :
    (pass linkedByOwner rs {}).partner? j = some k := by
  have hgrows := owned_grows inferByName rs
  cases hp : (pass linkedByOwner rs {}).partner? j with
  | some m => rw [← h,hgrows j m hp]
  | none =>
    have hne : i ≠ j := by
      rintro rfl
      rw [hfree] at h
      cases h
    have hmax : Maximal OwnerLinked rs (pass linkedByOwner rs {}) :=
      pass_maximal (fun _ _ => linkedByOwner_iff.mpr) rs {}
    exact absurd hlink (hmax i j r o hne hi hj (hgrows.free hfree) hp hfacing)

/-- Whoever is left over in the end had a rival by owner exactly when some linked one that leads
back comes before the partner that it got. -/
theorem rivalIn_owner_iff (hi : rs[i]? = some r) (hr : isPairable r = true)
    (hfree : (ofRelationships inferByName rs).partner? i = none) :
    RivalIn OwnerLinked rs {} (pass linkedByOwner rs {}) i ↔
      ∃ j k o, Engaged inferByName rs r o j k ∧ OwnerLinked r o ∧ j < k := by
  have hgrows := owned_grows inferByName rs
  have hvalid : Valid OwnerLinked rs (pass linkedByOwner rs {}) :=
    (valid_empty _ rs).pass (fun _ _ => linkedByOwner_iff.mp)
  have hrival := rivalIn_iff_of_free linkedByOwner hi (hgrows.free hfree) hvalid.symm
  simp only [linkedByOwner_iff] at hrival
  rw [hrival]
  constructor
  · rintro ⟨j,k,o,q,ho,hq,hfacing,hlink,-,hjk,hfirst⟩
    refine ⟨j,k,o,⟨ho,hfacing.target.symm,hfacing.source.symm,hgrows j k hjk⟩,hlink.symm,?_⟩
    obtain ⟨o',q',ho',hq',-,hpaired⟩ := hvalid.linked j k hjk
    obtain rfl := Option.some.inj (ho.symm.trans ho')
    obtain rfl := Option.some.inj (hq.symm.trans hq')
    exact hfirst.resolve_right (fun hno => hno (hpaired.elim OwnerLinked.symm id))
  · rintro ⟨j,k,o,⟨ho,hsource,htarget,hjk⟩,hlink,hlt⟩
    obtain ⟨o',q,ho',hq,hsides,-⟩ := (ofRelationships_valid inferByName rs).linked j k hjk
    obtain rfl := Option.some.inj (ho.symm.trans ho')
    have hfacing : Facing r o := ⟨hr,hsides.left,hsource,htarget⟩
    exact ⟨j,k,o,q,ho,hq,hfacing.symm,hlink.symm,rfl,
      partner_owned hi ho hfacing hlink hfree hjk,.inl hlt⟩

/-- It had a rival by name exactly when some relationship that found no partner by owner, leads back
and has a matching name chose another one. -/
theorem rivalIn_name_iff (hi : rs[i]? = some r) (hr : isPairable r = true)
    (hfree : (ofRelationships true rs).partner? i = none) :
    RivalIn NameLinked rs (pass linkedByOwner rs {}) (ofRelationships true rs) i ↔
      ∃ j k o q, Engaged true rs r o j k ∧ rs[k]? = some q ∧ NameLinked o r ∧
        (pass linkedByOwner rs {}).partner? j = none ∧ (j < k ∨ ¬ NameLinked q o) := by
  have hvalid := ofRelationships_valid true rs
  have hrival := rivalIn_iff_of_free linkedByName hi hfree hvalid.symm
  simp only [linkedByName_iff] at hrival
  refine hrival.trans ⟨?_,?_⟩
  · rintro ⟨j,k,o,q,ho,hq,hfacing,hlink,howned,hjk,hfirst⟩
    exact ⟨j,k,o,q,⟨ho,hfacing.target.symm,hfacing.source.symm,hjk⟩,hq,hlink,howned,hfirst⟩
  · rintro ⟨j,k,o,q,⟨ho,hsource,htarget,hjk⟩,hq,hlink,howned,hfirst⟩
    obtain ⟨o',_,ho',_,hsides,_⟩ := hvalid.linked j k hjk
    obtain rfl := Option.some.inj (ho.symm.trans ho')
    have hfacing : Facing r o := ⟨hr,hsides.left,hsource,htarget⟩
    exact ⟨j,k,o,q,ho,hq,hfacing.symm,hlink,howned,hjk,hfirst⟩

theorem LeftOver.free (h : LeftOver inferByName rs i r) :
    (ofRelationships inferByName rs).partner? i = none ∧ rs[i]? = some r := by
  have hstands := h.stands
  cases hp : (ofRelationships inferByName rs).partner? i with
  | none => exact ⟨rfl,(getElem?_apply_of_free hp).symm.trans hstands⟩
  | some j =>
    have hvalid := ofRelationships_valid inferByName rs
    obtain ⟨q,_,hq,_⟩ := hvalid.linked i j hp
    obtain ⟨o,-,hout⟩ := getElem?_apply_of_partner hvalid hp hq
    obtain rfl := Option.some.inj (hout.symm.trans hstands)
    exact absurd h.unpaired Bool.true_eq_false.mp

/-- Those that contend had a rival. -/
theorem contends_iff_rival : Contends inferByName rs i ↔ Rival inferByName rs i := by
  rw [Contends,Rival,contendsIn_iff,contendsIn_iff]
  simp only [linkedByOwner_iff,linkedByName_iff]
  rfl

/-- Whoever is left over had a rival exactly when it was passed over. -/
theorem LeftOver.rival_iff (h : LeftOver inferByName rs i r) :
    Rival inferByName rs i ↔ PassedOver inferByName rs r := by
  obtain ⟨hfree,hi⟩ := h.free
  have hr : isPairable r = true := Bool.and_eq_true_iff.mpr ⟨h.association,h.target⟩
  rw [Rival,PassedOver,rivalIn_owner_iff hi hr hfree]
  refine or_congr_right (and_congr_right ?_)
  rintro rfl
  exact rivalIn_name_iff hi hr hfree

/-- The field name of an association that is left over stands among the candidates of an ambiguity
exactly when it was passed over, or when another relationship of that field name had a rival. -/
theorem leftOver_listed_iff (h : LeftOver inferByName rs i r) :
    (∃ a ∈ (ofRelationships inferByName rs).ambiguities, r.field ∈ a.candidates) ↔
      PassedOver inferByName rs r ∨
      ∃ i' q, i' ≠ i ∧ rs[i']? = some q ∧ q.field = r.field ∧ Rival inferByName rs i' := by
  simp only [listed_iff,contends_iff_rival]
  rw [← h.rival_iff]
  constructor
  · rintro ⟨i',q,hq,hname,hrival⟩
    by_cases hii : i' = i
    · exact .inl (hii ▸ hrival)
    · exact .inr ⟨i',q,hii,hq,hname,hrival⟩
  · rintro (hrival | ⟨i',q,-,hq,hname,hrival⟩)
    · exact ⟨i,r,h.free.2,rfl,hrival⟩
    · exact ⟨i',q,hq,hname,hrival⟩

end Runs

/-- In `rivalLists` the employee's department has its turn first, and both lists are open to it. -/
theorem rivalLists_alumni_listed :
    LeftOver false rivalLists 2
      (.new "Department" "Employee" .oneToMany "alumni" "List<Employee>" (some "department")) ∧
    ∃ a ∈ (ofRelationships false rivalLists).ambiguities, "alumni" ∈ a.candidates := by
  have hleft : LeftOver false rivalLists 2
      (.new "Department" "Employee" .oneToMany "alumni" "List<Employee>" (some "department")) :=
    ⟨by decide,rfl,rfl,by decide,0,_,by decide,rfl,rfl,rfl,rfl,.inr rfl⟩
  exact ⟨hleft,(leftOver_listed_iff hleft).mpr
    (.inl (.inl ⟨0,1,_,⟨rfl,rfl,rfl,by decide⟩,.inr rfl,by decide⟩))⟩

/-- The same lists, declared before what they both lead to. -/
def listsFirst : List Relationship := [
  .new "Department" "Employee" .oneToMany "employees" "List<Employee>" (some "department"),
  .new "Department" "Employee" .oneToMany "alumni" "List<Employee>" (some "department"),
  .new "Employee" "Department" .manyToOne "department" "Department" none]

/-- The first list takes its owner without being asked to share it, and the second is left over
without a word. -/
theorem exists_unlisted_leftOver : ¬ ∀ (inferByName : Bool) (rs : List Relationship),
    (∀ r ∈ rs, r.bidirectional = false) → ∀ i r, LeftOver inferByName rs i r →
      ∃ a ∈ (ofRelationships inferByName rs).ambiguities, r.field ∈ a.candidates := by
  intro hall
  have hleft : LeftOver false listsFirst 1
      (.new "Department" "Employee" .oneToMany "alumni" "List<Employee>" (some "department")) :=
    ⟨by decide,rfl,rfl,by decide,2,_,by decide,rfl,rfl,rfl,rfl,.inr rfl⟩
  obtain ⟨a,ha,-⟩ := hall false listsFirst (by decide) 1 _ hleft
  have hnone : (ofRelationships false listsFirst).ambiguities = [] := by decide
  rw [hnone] at ha
  exact List.not_mem_nil ha

end EntityLink.Pairing
