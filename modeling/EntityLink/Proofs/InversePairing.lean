import EntityLink.Pairing
import Mathlib.Data.List.Basic

namespace EntityLink.Pairing

/-- One of two relationships names the field of the other as its owner. -/
def OwnerLinked (r o : Relationship) : Prop :=
  o.mappedBy = some r.field ∨ r.mappedBy = some o.field

/-- The field of `o` is called after the source of `r`, in the singular or the plural. -/
def NamedAfter (o r : Relationship) : Prop :=
  o.field = Text.decapitalize r.sourceSimple ∨
    o.field = Noun.pluralize (Text.decapitalize r.sourceSimple)

def NameLinked (r o : Relationship) : Prop :=
  r.mappedBy = none ∧ o.mappedBy = none ∧ r.kind.complements o.kind = true ∧ NamedAfter o r

theorem linkedByOwner_iff {r o : Relationship} : linkedByOwner r o = true ↔ OwnerLinked r o := by
  simp only [linkedByOwner,OwnerLinked,Bool.or_eq_true,beq_iff_eq]

theorem linkedByName_iff {r o : Relationship} : linkedByName r o = true ↔ NameLinked r o := by
  simp only [linkedByName,NameLinked,NamedAfter,Bool.and_eq_true,Bool.or_eq_true,beq_iff_eq,
    Option.isNone_iff_eq_none,and_assoc]

theorem OwnerLinked.symm {r o : Relationship} (h : OwnerLinked r o) : OwnerLinked o r :=
  Or.symm h

/-- Two relationships that may be inverse sides of each other, links aside. -/
structure Facing (r o : Relationship) : Prop where
  left : isPairable r = true
  right : isPairable o = true
  source : o.source = r.target
  target : o.target = r.source

theorem Facing.symm {r o : Relationship} (h : Facing r o) : Facing o r :=
  ⟨h.right,h.left,h.target.symm,h.source.symm⟩

theorem mem_candidates {link : Relationship → Relationship → Bool} {rs : List Relationship}
    {p : Pairing} {r o : Relationship} {i j : Nat} (hr : isPairable r = true) :
    (o,j) ∈ candidates link rs p r i ↔
      rs[j]? = some o ∧ j ≠ i ∧ p.partner? j = none ∧ Facing r o ∧ link r o = true := by
  simp only [candidates,List.mem_filter,List.mem_zipIdx_iff_getElem?,isOpposite,Bool.and_eq_true,
    bne_iff_ne,beq_iff_eq,Option.isNone_iff_eq_none]
  constructor
  · rintro ⟨hj,⟨⟨⟨hne,hfree⟩,ho⟩,hs,ht⟩,hl⟩
    exact ⟨hj,hne,hfree,⟨hr,ho,hs,ht⟩,hl⟩
  · rintro ⟨hj,hne,hfree,hf,hl⟩
    exact ⟨hj,⟨⟨⟨hne,hfree⟩,hf.right⟩,hf.source,hf.target⟩,hl⟩

/-- What is reported when `os` are the candidates for `r`. -/
def report (r : Relationship) (os : List (Relationship × Nat)) : List Ambiguity :=
  if 2 ≤ os.length then [⟨r.source,r.field,os.map (fun c => c.1.field)⟩] else []

/-- All that a step can do at position `i`, where `r` stands. -/
inductive Stepped (link : Relationship → Relationship → Bool) (rs : List Relationship)
    (p : Pairing) (r : Relationship) (i : Nat) : Pairing → Prop
  | taken (h : p.partner? i ≠ none) : Stepped link rs p r i p
  | unfit (h : isPairable r = false) : Stepped link rs p r i p
  | alone (h : candidates link rs p r i = []) : Stepped link rs p r i p
  | paired (o : Relationship × Nat) (os : List (Relationship × Nat)) (free : p.partner? i = none)
      (fit : isPairable r = true) (h : candidates link rs p r i = o :: os) :
      Stepped link rs p r i ⟨p.pairs ++ [(i,o.2)],p.ambiguities ++ report r (o :: os)⟩

theorem step_cases (link : Relationship → Relationship → Bool) (rs : List Relationship)
    (p : Pairing) (r : Relationship) (i : Nat) : Stepped link rs p r i (step link rs p (r,i)) := by
  unfold step
  split
  · rename_i h
    rcases Bool.or_eq_true_iff.mp h with h | h
    · exact .taken (Option.isSome_iff_ne_none.mp h)
    · exact .unfit (by simpa using h)
  · rename_i h
    obtain ⟨hfree,hfit⟩ : p.partner? i = none ∧ isPairable r = true := by simpa using h
    split
    · rename_i hc
      exact .alone hc
    · rename_i o hc
      have hstep := Stepped.paired o [] hfree hfit hc
      rwa [report,if_neg (by simp),List.append_nil] at hstep
    · rename_i o o' os hc
      have hstep := Stepped.paired o (o' :: os) hfree hfit hc
      rwa [report,if_pos (by simp)] at hstep

/-- A new pair answers for its two positions, unless they were paired before. -/
theorem partner_append (p : Pairing) (as : List Ambiguity) (i j k : Nat) :
    partner? ⟨p.pairs ++ [(i,j)],as⟩ k =
      (p.partner? k).or (if i = k then some j else if j = k then some i else none) := by
  simp only [partner?,List.findSome?_append,List.findSome?_cons,List.findSome?_nil]
  split <;> simp_all

section Append
variable {p : Pairing} {as : List Ambiguity} {i j k m : Nat}

theorem partner_append_left (hi : p.partner? i = none) :
    partner? ⟨p.pairs ++ [(i,j)],as⟩ i = some j := by
  rw [partner_append,hi,if_pos rfl]
  rfl

theorem partner_append_right (hj : p.partner? j = none) (hne : i ≠ j) :
    partner? ⟨p.pairs ++ [(i,j)],as⟩ j = some i := by
  rw [partner_append,hj,if_neg hne,if_pos rfl]
  rfl

/-- Behind a new pair each partner is an earlier one or one of the two. -/
theorem partner_append_cases (h : partner? ⟨p.pairs ++ [(i,j)],as⟩ k = some m) :
    p.partner? k = some m ∨ (k = i ∧ m = j) ∨ (k = j ∧ m = i) := by
  rw [partner_append] at h
  cases hp : p.partner? k with
  | some m' =>
    rw [hp] at h
    exact .inl h
  | none =>
    rw [hp,Option.none_or] at h
    split at h
    · exact .inr (.inl ⟨‹i = k›.symm,(Option.some.inj h).symm⟩)
    · split at h
      · exact .inr (.inr ⟨‹j = k›.symm,(Option.some.inj h).symm⟩)
      · cases h

end Append

/-- Later pairings keep all earlier partners. -/
def Extends (p p' : Pairing) : Prop :=
  ∀ i j, p.partner? i = some j → p'.partner? i = some j

theorem Extends.refl (p : Pairing) : Extends p p :=
  fun _ _ h => h

theorem Extends.trans {p p' p'' : Pairing} (h : Extends p p') (h' : Extends p' p'') :
    Extends p p'' :=
  fun i j hij => h' i j (h i j hij)

/-- A position without partner had none before. -/
theorem Extends.free {p p' : Pairing} (h : Extends p p') {i : Nat} (hi : p'.partner? i = none) :
    p.partner? i = none := by
  cases hp : p.partner? i with
  | none => rfl
  | some j => rw [h i j hp] at hi; cases hi

section Step
variable {link : Relationship → Relationship → Bool} {rs : List Relationship}
  {p p' : Pairing} {r : Relationship} {i : Nat}

theorem Stepped.grows (h : Stepped link rs p r i p') : Extends p p' := by
  cases h with
  | taken | unfit | alone => exact .refl p
  | paired o os =>
    intro k j hk
    rw [partner_append,hk]
    rfl

/-- After its step a position has a partner, or there is nobody left for it. -/
theorem Stepped.settles (h : Stepped link rs p r i p') (hi : p'.partner? i = none) :
    isPairable r = false ∨ candidates link rs p r i = [] := by
  cases h with
  | taken h => exact absurd hi h
  | unfit h => exact .inl h
  | alone h => exact .inr h
  | paired o os free =>
    rw [partner_append_left free] at hi
    cases hi

end Step

theorem foldl_step_grows (link : Relationship → Relationship → Bool) (rs : List Relationship)
    (xs : List (Relationship × Nat)) (p : Pairing) : Extends p (xs.foldl (step link rs) p) := by
  induction xs generalizing p with
  | nil => exact .refl p
  | cons x xs ih => exact (step_cases link rs p x.1 x.2).grows.trans (ih _)

/-- No two free relationships that face each other are linked. -/
def Maximal (Link : Relationship → Relationship → Prop) (rs : List Relationship)
    (p : Pairing) : Prop :=
  ∀ i j r o, i ≠ j → rs[i]? = some r → rs[j]? = some o → p.partner? i = none →
    p.partner? j = none → Facing r o → ¬ Link r o

theorem Maximal.mono {Link : Relationship → Relationship → Prop} {rs : List Relationship}
    {p p' : Pairing} (h : Maximal Link rs p) (hp : Extends p p') : Maximal Link rs p' :=
  fun i j r o hne hi hj hfi hfj hf => h i j r o hne hi hj (hp.free hfi) (hp.free hfj) hf

/-- Whoever is still free after a pass was free at its own turn, when all that are still free
were candidates. -/
theorem pass_maximal {link : Relationship → Relationship → Bool}
    {Link : Relationship → Relationship → Prop} (hl : ∀ r o, Link r o → link r o = true)
    (rs : List Relationship) (p : Pairing) : Maximal Link rs (pass link rs p) := by
  intro i j r o hne hi hj hfi hfj hf hlink
  have hx : (r,i) ∈ rs.zipIdx := List.mem_zipIdx_iff_getElem?.mpr hi
  obtain ⟨before,after,hsplit⟩ := List.append_of_mem hx
  rw [pass,hsplit,List.foldl_append,List.foldl_cons] at hfi hfj
  have hstep := step_cases link rs (before.foldl (step link rs) p) r i
  have hrest := foldl_step_grows link rs after
    (step link rs (before.foldl (step link rs) p) (r,i))
  have hmem : (o,j) ∈ candidates link rs (before.foldl (step link rs) p) r i :=
    (mem_candidates hf.left).mpr
      ⟨hj,hne.symm,(hstep.grows.trans hrest).free hfj,hf,hl r o hlink⟩
  rcases hstep.settles (hrest.free hfi) with hunfit | hnobody
  · exact absurd hf.left (by simp [hunfit])
  · rw [hnobody] at hmem
    exact absurd hmem List.not_mem_nil

/-- Every other position that could stand for an inverse of `r`, the one taken first. -/
def Reported (Link : Relationship → Relationship → Prop) (rs : List Relationship) (p : Pairing)
    (a : Ambiguity) : Prop :=
  ∃ i j r o, rs[i]? = some r ∧ a.source = r.source ∧ a.field = r.field ∧
    rs[j]? = some o ∧ p.partner? i = some j ∧ a.candidates.head? = some o.field ∧
    2 ≤ a.candidates.length ∧
    ∀ name ∈ a.candidates, ∃ q ∈ rs, q.field = name ∧ Facing r q ∧ Link r q

/-- Partners name each other, and are linked one way or the other. -/
structure Valid (Link : Relationship → Relationship → Prop) (rs : List Relationship)
    (p : Pairing) : Prop where
  symm : ∀ i j, p.partner? i = some j → p.partner? j = some i
  irrefl : ∀ i, p.partner? i ≠ some i
  linked : ∀ i j, p.partner? i = some j → ∃ r o, rs[i]? = some r ∧ rs[j]? = some o ∧
    Facing r o ∧ (Link r o ∨ Link o r)
  reported : ∀ a ∈ p.ambiguities, Reported Link rs p a

theorem valid_empty (Link : Relationship → Relationship → Prop) (rs : List Relationship) :
    Valid Link rs {} :=
  ⟨by simp [partner?],by simp [partner?],by simp [partner?],by simp⟩

theorem Reported.mono {Link : Relationship → Relationship → Prop} {rs : List Relationship}
    {p p' : Pairing} {a : Ambiguity} (h : Reported Link rs p a) (hp : Extends p p') :
    Reported Link rs p' a := by
  obtain ⟨i,j,r,o,hi,hs,hf,hj,hij,hrest⟩ := h
  exact ⟨i,j,r,o,hi,hs,hf,hj,hp i j hij,hrest⟩

section Valid
variable {link : Relationship → Relationship → Bool} {Link : Relationship → Relationship → Prop}
  {rs : List Relationship} {p p' : Pairing} {r : Relationship} {i : Nat}

/-- A report lists candidates, and more than one. -/
theorem reported_of_mem_report (hl : ∀ r o, link r o = true → Link r o) (hi : rs[i]? = some r)
    (hr : isPairable r = true) {o : Relationship × Nat} {os : List (Relationship × Nat)}
    (hc : candidates link rs p r i = o :: os) (hij : p'.partner? i = some o.2) {a : Ambiguity}
    (ha : a ∈ report r (o :: os)) : Reported Link rs p' a := by
  have hcand : ∀ q ∈ o :: os, rs[q.2]? = some q.1 ∧ Facing r q.1 ∧ Link r q.1 := by
    intro q hq
    rw [← hc] at hq
    obtain ⟨hj,_,_,hf,hq⟩ := (mem_candidates hr).mp hq
    exact ⟨hj,hf,hl r q.1 hq⟩
  unfold report at ha
  split at ha
  · rename_i hlen
    rw [List.mem_singleton] at ha
    subst ha
    refine ⟨i,o.2,r,o.1,hi,rfl,rfl,(hcand o List.mem_cons_self).1,hij,rfl,?_,?_⟩
    · rwa [List.length_map]
    · intro name hname
      obtain ⟨q,hq,rfl⟩ := List.mem_map.mp hname
      obtain ⟨hj,hf,hq⟩ := hcand q hq
      exact ⟨q.1,List.mem_of_getElem? hj,rfl,hf,hq⟩
  · exact absurd ha List.not_mem_nil

theorem Valid.step (h : Valid Link rs p) (hl : ∀ r o, link r o = true → Link r o)
    (hi : rs[i]? = some r) (hs : Stepped link rs p r i p') : Valid Link rs p' := by
  have hgrows := hs.grows
  cases hs with
  | taken | unfit | alone => exact h
  | paired o os free fit hc =>
    have hmem : o ∈ candidates link rs p r i := hc ▸ List.mem_cons_self
    obtain ⟨hj,hne,hfree,hfacing,hlink⟩ := (mem_candidates fit).mp hmem
    refine ⟨?_,?_,?_,?_⟩
    · intro k m hk
      rcases partner_append_cases hk with hk | ⟨rfl,rfl⟩ | ⟨rfl,rfl⟩
      · exact hgrows m k (h.symm k m hk)
      · exact partner_append_right hfree hne.symm
      · exact partner_append_left free
    · intro k hk
      rcases partner_append_cases hk with hk | ⟨rfl,he⟩ | ⟨rfl,he⟩
      · exact h.irrefl k hk
      · exact hne he.symm
      · exact hne he
    · intro k m hk
      rcases partner_append_cases hk with hk | ⟨rfl,rfl⟩ | ⟨rfl,rfl⟩
      · exact h.linked k m hk
      · exact ⟨r,o.1,hi,hj,hfacing,.inl (hl r o.1 hlink)⟩
      · exact ⟨o.1,r,hj,hi,hfacing.symm,.inr (hl r o.1 hlink)⟩
    · intro a ha
      rcases List.mem_append.mp ha with ha | ha
      · exact (h.reported a ha).mono hgrows
      · exact reported_of_mem_report hl hi fit hc (partner_append_left free) ha

theorem Valid.run (h : Valid Link rs p) (hl : ∀ r o, link r o = true → Link r o)
    {xs : List (Relationship × Nat)} (hxs : ∀ x ∈ xs, rs[x.2]? = some x.1) :
    Valid Link rs (xs.foldl (Pairing.step link rs) p) := by
  induction xs generalizing p with
  | nil => exact h
  | cons x xs ih =>
    have hx := hxs x List.mem_cons_self
    exact ih (h.step hl hx (step_cases link rs p x.1 x.2))
      (fun y hy => hxs y (List.mem_cons_of_mem x hy))

theorem Valid.pass (h : Valid Link rs p) (hl : ∀ r o, link r o = true → Link r o) :
    Valid Link rs (pass link rs p) :=
  h.run hl (fun _ hx => List.mem_zipIdx_iff_getElem?.mp hx)

end Valid

/-- The links that pairs are made by. -/
def MayLink (inferByName : Bool) (r o : Relationship) : Prop :=
  OwnerLinked r o ∨ inferByName = true ∧ NameLinked r o

theorem ofRelationships_valid (inferByName : Bool) (rs : List Relationship) :
    Valid (MayLink inferByName) rs (ofRelationships inferByName rs) := by
  have howned : Valid (MayLink inferByName) rs (pass linkedByOwner rs {}) :=
    (valid_empty _ rs).pass (fun _ _ hl => .inl (linkedByOwner_iff.mp hl))
  unfold ofRelationships
  cases inferByName with
  | false => exact howned
  | true => exact howned.pass (fun _ _ hl => .inr ⟨rfl,linkedByName_iff.mp hl⟩)

theorem ofRelationships_maximal (inferByName : Bool) (rs : List Relationship) :
    Maximal OwnerLinked rs (ofRelationships inferByName rs) ∧
      (inferByName = true → Maximal NameLinked rs (ofRelationships inferByName rs)) := by
  have howned : Maximal OwnerLinked rs (pass linkedByOwner rs {}) :=
    pass_maximal (fun _ _ => linkedByOwner_iff.mpr) rs {}
  unfold ofRelationships
  cases inferByName with
  | false => exact ⟨howned,fun h => by cases h⟩
  | true =>
    exact ⟨howned.mono (foldl_step_grows _ rs _ _),
      fun _ => pass_maximal (fun _ _ => linkedByName_iff.mpr) rs _⟩

theorem getElem?_apply (p : Pairing) (rs : List Relationship) (i : Nat) :
    (p.apply rs)[i]? = (rs[i]?).map (fun r =>
      match (p.partner? i).bind (rs[·]?) with
      | some o => r.pairedWith o.field
      | none => r) := by
  simp only [apply,List.getElem?_map,List.getElem?_zipIdx,Option.map_map,Nat.zero_add]
  rfl

/-- How a list `rs` of relationships comes out of pairing as `out`, with ambiguities `as`, when
`m` gives for each position the one it is matched with. -/
structure Matched (inferByName : Bool) (rs out : List Relationship) (as : List Ambiguity)
    (m : Nat → Option Nat) : Prop where
  involutive : ∀ i j, m i = some j → m j = some i
  irreflexive : ∀ i, m i ≠ some i
  length_eq : out.length = rs.length
  /-- A matched relationship changes in two fields only, any other in none. -/
  paired : ∀ i j r, m i = some j → rs[i]? = some r → ∃ o, rs[j]? = some o ∧
    out[i]? = some { r with bidirectional := true, inverseField := some o.field }
  single : ∀ i, m i = none → out[i]? = rs[i]?
  bidirectional_iff : ∀ i r, out[i]? = some r → (r.bidirectional = true ↔ (m i).isSome = true)
  linked : ∀ i j, m i = some j → ∃ r o, rs[i]? = some r ∧ rs[j]? = some o ∧ Facing r o ∧
    (OwnerLinked r o ∨ inferByName = true ∧ (NameLinked r o ∨ NameLinked o r))
  maximal : ∀ i j r o, i ≠ j → rs[i]? = some r → rs[j]? = some o → m i = none → m j = none →
    Facing r o → ¬ OwnerLinked r o ∧
      (inferByName = true → ¬ NameLinked r o ∧ ¬ NameLinked o r)
  /-- An ambiguity lists possible inverses of a paired relationship, at least two, and the one
  recorded first. -/
  ambiguous : ∀ a ∈ as, ∃ (i : Nat) (r : Relationship), out[i]? = some r ∧
    r.bidirectional = true ∧ a.source = r.source ∧ a.field = r.field ∧
    2 ≤ a.candidates.length ∧ a.candidates.head? = r.inverseField ∧ ∃ q, rs[i]? = some q ∧
      ∀ name ∈ a.candidates, ∃ o ∈ rs, o.field = name ∧ Facing q o ∧ MayLink inferByName q o

section Apply
variable {Link : Relationship → Relationship → Prop} {rs : List Relationship} {p : Pairing}

theorem getElem?_apply_of_partner (hp : Valid Link rs p) {i j : Nat} {r : Relationship}
    (hij : p.partner? i = some j) (hi : rs[i]? = some r) : ∃ o, rs[j]? = some o ∧
      (p.apply rs)[i]? = some { r with bidirectional := true, inverseField := some o.field } := by
  obtain ⟨_,o,_,hj,_⟩ := hp.linked i j hij
  refine ⟨o,hj,?_⟩
  rw [getElem?_apply,hi,hij]
  simp only [Option.bind_some,hj,Option.map_some,Relationship.pairedWith]

theorem getElem?_apply_of_free {i : Nat} (hi : p.partner? i = none) :
    (p.apply rs)[i]? = rs[i]? := by
  rw [getElem?_apply,hi]
  simp only [Option.bind_none,Option.map_id']

/-- What is reported stands on the relationship it is reported for. -/
theorem recorded_of_reported (hp : Valid Link rs p) {a : Ambiguity} (ha : a ∈ p.ambiguities) :
    ∃ (i : Nat) (r : Relationship), (p.apply rs)[i]? = some r ∧ r.bidirectional = true ∧
      a.source = r.source ∧ a.field = r.field ∧ 2 ≤ a.candidates.length ∧
      a.candidates.head? = r.inverseField ∧ ∃ q, rs[i]? = some q ∧
        ∀ name ∈ a.candidates, ∃ o ∈ rs, o.field = name ∧ Facing q o ∧ Link q o := by
  obtain ⟨i,j,r,o,hi,hs,hfield,hj,hij,hhead,hlen,hall⟩ := hp.reported a ha
  obtain ⟨o',hj',hout⟩ := getElem?_apply_of_partner hp hij hi
  rw [hj,Option.some.injEq] at hj'
  subst hj'
  exact ⟨i,_,hout,rfl,hs,hfield,hlen,hhead,r,hi,hall⟩

end Apply

/-- Pairing finds a matching that no pair can be added to, and records it on both sides. -/
theorem apply_ofRelationships_matched (inferByName : Bool) (rs : List Relationship)
    (h : ∀ r ∈ rs, r.bidirectional = false) :
    ∃ m, Matched inferByName rs ((ofRelationships inferByName rs).apply rs)
      (ofRelationships inferByName rs).ambiguities m := by
  have hvalid := ofRelationships_valid inferByName rs
  obtain ⟨howner,hname⟩ := ofRelationships_maximal inferByName rs
  refine ⟨(ofRelationships inferByName rs).partner?,hvalid.symm,hvalid.irrefl,?_,?_,?_,?_,?_,?_,?_⟩
  · rw [apply,List.length_map,List.length_zipIdx]
  · intro i j r hij hi
    exact getElem?_apply_of_partner hvalid hij hi
  · intro i hi
    exact getElem?_apply_of_free hi
  · intro i r hr
    cases hp : (ofRelationships inferByName rs).partner? i with
    | none =>
      rw [getElem?_apply_of_free hp] at hr
      simp [h r (List.mem_of_getElem? hr)]
    | some j =>
      obtain ⟨q,_,hi,_⟩ := hvalid.linked i j hp
      obtain ⟨o,_,hout⟩ := getElem?_apply_of_partner hvalid hp hi
      rw [hout,Option.some.injEq] at hr
      subst hr
      exact ⟨fun _ => rfl,fun _ => rfl⟩
  · intro i j hij
    obtain ⟨r,o,hi,hj,hf,hl⟩ := hvalid.linked i j hij
    refine ⟨r,o,hi,hj,hf,?_⟩
    rcases hl with (hl | ⟨hb,hl⟩) | (hl | ⟨hb,hl⟩)
    · exact .inl hl
    · exact .inr ⟨hb,.inl hl⟩
    · exact .inl hl.symm
    · exact .inr ⟨hb,.inr hl⟩
  · intro i j r o hne hi hj hfi hfj hf
    refine ⟨howner i j r o hne hi hj hfi hfj hf,fun hb => ⟨?_,?_⟩⟩
    · exact hname hb i j r o hne hi hj hfi hfj hf
    · exact hname hb j i o r hne.symm hj hi hfj hfi hf.symm
  · intro a ha
    exact recorded_of_reported hvalid ha

/-- Two lists of a department that both name one field of an employee as their owner. -/
def rivalLists : List Relationship := [
  .new "Employee" "Department" .manyToOne "department" "Department" none,
  .new "Department" "Employee" .oneToMany "employees" "List<Employee>" (some "department"),
  .new "Department" "Employee" .oneToMany "alumni" "List<Employee>" (some "department")]

theorem rivalLists_matched : (∀ r ∈ rivalLists, r.bidirectional = false) ∧
    ∃ m, Matched false rivalLists ((ofRelationships false rivalLists).apply rivalLists)
      [⟨"Employee","department",["employees","alumni"]⟩] m := by
  have hnone : ∀ r ∈ rivalLists, r.bidirectional = false := by decide
  have has : (ofRelationships false rivalLists).ambiguities =
      [⟨"Employee","department",["employees","alumni"]⟩] := by decide
  have hm := apply_ofRelationships_matched false rivalLists hnone
  rw [has] at hm
  exact ⟨hnone,hm⟩

end EntityLink.Pairing
