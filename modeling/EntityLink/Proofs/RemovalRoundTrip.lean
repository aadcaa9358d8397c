import EntityLink.Proofs.AdvisedRemoval

namespace EntityLink

namespace Relationship
open EntityLink.Cycle

/-- Each relationship leads to the source of the next, and the last to the source of the
first. -/
structure RoundTrip (l : List Relationship) : Prop where
  nonempty : l ≠ []
  closed : l.map target = (l.map source).rotate 1

variable {rs l : List Relationship} {r : Relationship}

theorem RoundTrip.endpoints_eq (hl : RoundTrip l) : l.map endpoints = stepsOf (l.map source) := by
  rw [stepsOf_eq_zip,← hl.closed]
  exact List.zip_map'.symm

theorem RoundTrip.target_mem (hl : RoundTrip l) (hr : r ∈ l) : r.target ∈ l.map source := by
  have hmem : r.target ∈ l.map target := List.mem_map_of_mem hr
  rw [hl.closed] at hmem
  exact List.mem_rotate.mp hmem

/-- On a round trip there is a way back from everywhere. -/
theorem RoundTrip.reaches {g : Graph} (hl : RoundTrip l)
    (hstep : ∀ r ∈ l, g.Reaches r.source r.target) (hr : r ∈ l) :
    g.Reaches r.target r.source := by
  apply Graph.reaches_of_steps (l := l.map source)
  · intro e he
    rw [← hl.endpoints_eq] at he
    obtain ⟨m,hm,rfl⟩ := List.mem_map.mp he
    exact hstep m hm
  · exact hl.target_mem hr
  · exact List.mem_map_of_mem hr

theorem reaches_target (hr : r ∈ rs) (hkind : r.kind ≠ .inheritance)
    (htarget : r.hasTarget = true) :
    (Graph.ofRelationships rs).Reaches r.source r.target := by
  by_cases hself : r.source = r.target
  · rw [hself]
    exact .refl
  · apply Relation.ReflTransGen.single
    refine Graph.mem_edges_ofRelationships.mpr ⟨r,hr,?_,rfl⟩
    simp [isEdge,isSelfReference,hkind,htarget,hself]

/-- What decides on a round trip of proper links whether a relationship is marked. That there is
a way back is no condition there. -/
theorem RoundTrip.marks_iff (hl : RoundTrip l) (hfrom : ∀ m ∈ l, ∃ q ∈ rs, q.key = m.key)
    (hkind : ∀ m ∈ l, m.kind ≠ .inheritance) (htarget : ∀ m ∈ l, m.hasTarget = true)
    (hr : r ∈ l) : Marks rs r ↔ r.source = r.target ∨
      ∃ f, firstEdge? rs r.endpoints = some f ∧ f.key = r.key := by
  have hstep : ∀ m ∈ l, (Graph.ofRelationships rs).Reaches m.source m.target := by
    intro m hm
    obtain ⟨q,hq,hkey⟩ := hfrom m hm
    obtain ⟨hs,ht,hk,-⟩ := RelationshipKey.mk.inj hkey
    rw [← hs,← ht]
    apply reaches_target hq
    · rw [hk]
      exact hkind m hm
    · rw [hasTarget,ht]
      exact htarget m hm
  have hself : r.isSelfLoop = true ↔ r.source = r.target := by
    simp [isSelfLoop,isSelfReference,hkind r hr,htarget r hr]
  rw [Marks,hself]
  constructor
  · rintro (hself | ⟨f,hf,hkey,-⟩)
    · exact .inl hself
    · exact .inr ⟨f,hf,hkey⟩
  · rintro (hself | ⟨f,hf,hkey⟩)
    · exact .inl hself
    · exact .inr ⟨f,hf,hkey,hl.reaches hstep hr⟩

theorem MayRemove.kind_ne (h : r.MayRemove) : r.kind ≠ .inheritance := by
  intro hkind
  have hpasses := h.2
  rw [hkind] at hpasses
  cases hpasses

end Relationship

namespace Analysis
open Relationship EntityLink.Cycle

/-- A round trip of removals is open exactly when it takes links that may remove and passes by
every mark. -/
theorem all_advise_iff {s : Settings} {c : Catalog} {l : List Relationship}
    (hs : s.detectCycles = true) (hl : ∀ r ∈ l, r ∈ (ofCatalog s c).relationships) :
    (∀ r ∈ l, r.AdvisesRemoval) ↔
      (∀ r ∈ l, r.MayRemove) ∧ ¬ ∃ r ∈ l, Marks (classified c) r := by
  constructor
  · intro hall
    have hboth := fun r hr => (advisesRemoval_iff (hl r hr)).mp (hall r hr)
    refine ⟨fun r hr => (hboth r hr).1,?_⟩
    rintro ⟨r,hr,hmarks⟩
    have hcircular := (circular_iff hs (hl r hr)).mpr hmarks
    exact ne_true_of_eq_false (hboth r hr).2 hcircular
  · rintro ⟨hmay,hfree⟩ r hr
    refine (advisesRemoval_iff (hl r hr)).mpr ⟨hmay r hr,eq_false_of_ne_true ?_⟩
    intro hcircular
    exact hfree ⟨r,hr,(circular_iff hs (hl r hr)).mp hcircular⟩

/-- Default cascade sets let no delete walk round a loop exactly when every round trip of links
that may remove comes by a mark. On a round trip whose links all have targets only references of
an entity to itself are marked, and links with the key of the first edge between their
entities; a second field between the same two entities is not. -/
theorem no_removal_round_trip_iff {cancelled : Bool} {s : Settings} {c : Catalog} {a : Analysis}
    (hs : s.detectCycles = true) (h : run cancelled s c = .ok a) :
    ((¬ ∃ l, RoundTrip l ∧ ∀ r ∈ l, r ∈ a.relationships ∧ r.AdvisesRemoval) ↔
      ∀ l, RoundTrip l → (∀ r ∈ l, r ∈ a.relationships ∧ r.MayRemove) →
        ∃ r ∈ l, Marks (classified c) r) ∧
    ∀ l, RoundTrip l → (∀ r ∈ l, r ∈ a.relationships ∧ r.MayRemove ∧ r.hasTarget = true) →
      ∀ r ∈ l, (Marks (classified c) r ↔ r.source = r.target ∨
        ∃ f, firstEdge? (classified c) r.endpoints = some f ∧ f.key = r.key) := by
  obtain rfl := eq_of_run h
  refine ⟨⟨fun hnone l hl hmay => ?_,fun hmarked => ?_⟩,fun l hl hmay r hr => ?_⟩
  · by_contra hfree
    have hadvise := (all_advise_iff hs (fun r hr => (hmay r hr).1)).mpr
      ⟨fun r hr => (hmay r hr).2,hfree⟩
    exact hnone ⟨l,hl,fun r hr => ⟨(hmay r hr).1,hadvise r hr⟩⟩
  · rintro ⟨l,hl,hall⟩
    obtain ⟨hmay,hfree⟩ := (all_advise_iff hs (fun r hr => (hall r hr).1)).mp
      (fun r hr => (hall r hr).2)
    exact hfree (hmarked l hl (fun r hr => ⟨(hall r hr).1,hmay r hr⟩))
  · refine hl.marks_iff (fun m hm => ?_) (fun m hm => (hmay m hm).2.1.kind_ne)
      (fun m hm => (hmay m hm).2.2) hr
    obtain ⟨q,hq,hsettles⟩ := exists_classified (hmay m hm).1
    exact ⟨q,hq,hsettles.key_eq⟩

/-- One field each way between two entities. -/
def mutualOrder : Catalog :=
  .ofList [
    { name := "Order", fields := [
      { name := "billing", type := "Address", annotations := [⟨"OneToOne",""⟩] }] },
    { name := "Address", fields := [
      { name := "lastBilled", type := "Order", annotations := [⟨"OneToOne",""⟩] }] }]

theorem mutualOrder_no_round_trip : ({} : Settings).detectCycles = true ∧
    run false {} mutualOrder = .ok (ofCatalog {} mutualOrder) ∧
    ¬ ∃ l, RoundTrip l ∧
      ∀ r ∈ l, r ∈ (ofCatalog {} mutualOrder).relationships ∧ r.AdvisesRemoval := by
  obtain ⟨hiff,hmarks⟩ := @no_removal_round_trip_iff false {} mutualOrder _ rfl rfl
  have hfirst : ∀ q ∈ classified mutualOrder, q.hasTarget = true ∧
      (firstEdge? (classified mutualOrder) q.endpoints).map key = some q.key := by
    decide +kernel
  refine ⟨rfl,rfl,hiff.mpr fun l hl hmay => ?_⟩
  have hproper : ∀ r ∈ l, r ∈ (ofCatalog {} mutualOrder).relationships ∧ r.MayRemove ∧
      r.hasTarget = true := by
    intro r hr
    obtain ⟨q,hq,hsettles⟩ := exists_classified (hmay r hr).1
    refine ⟨(hmay r hr).1,(hmay r hr).2,?_⟩
    rw [hasTarget,← (RelationshipKey.mk.inj hsettles.key_eq).2.1]
    exact (hfirst q hq).1
  obtain ⟨r,hr⟩ := List.exists_mem_of_ne_nil l hl.nonempty
  obtain ⟨q,hq,hsettles⟩ := exists_classified (hmay r hr).1
  obtain ⟨f,hf,hkey⟩ := Option.map_eq_some_iff.mp (hfirst q hq).2
  rw [endpoints_congr hsettles.key_eq] at hf
  exact ⟨r,hr,(hmarks l hl hproper r hr).mpr (.inr ⟨f,hf,hkey.trans hsettles.key_eq⟩)⟩

/-- A second one-to-one between the same two entities is not the first edge, and so passes its
removal on. -/
theorem exists_advised_beside_first {s : Settings} {c : Catalog} {q : Relationship}
    (hs : s.detectCycles = true) (hq : q ∈ classified c) (hkind : q.kind = .oneToOne)
    (howner : q.ownerSide = true) (hadvised : q.cascadeExplicit = false)
    (hself : q.isSelfLoop = false)
    (hsecond : (firstEdge? (classified c) q.endpoints).map key ≠ some q.key) :
    ∃ r ∈ (ofCatalog s c).relationships, r.endpoints = q.endpoints ∧ r.AdvisesRemoval := by
  obtain ⟨r,hr,hsettles⟩ := exists_settled s hq
  refine ⟨r,hr,(endpoints_congr hsettles.key_eq).symm,?_⟩
  refine (advisesRemoval_iff hr).mpr ⟨⟨?_,?_⟩,eq_false_of_ne_true ?_⟩
  · rw [hsettles.kept]
    exact hadvised
  · rw [hsettles.kept]
    simp only [hkind,howner,CascadeAdvice.passesRemoval]
  · intro hcircular
    rcases (marks_congr hsettles.key_eq).mpr ((circular_iff hs hr).mp hcircular) with
      h | ⟨f,hf,hkey,-⟩
    · exact ne_true_of_eq_false hself h
    · exact hsecond (by rw [hf,Option.map_some,hkey])

/-- Two fields each way between the same two entities. -/
def doublyMutualOrder : Catalog :=
  .ofList [
    { name := "Order", fields := [
      { name := "billing", type := "Address", annotations := [⟨"OneToOne",""⟩] },
      { name := "shipping", type := "Address", annotations := [⟨"OneToOne",""⟩] }] },
    { name := "Address", fields := [
      { name := "lastBilled", type := "Order", annotations := [⟨"OneToOne",""⟩] },
      { name := "lastShipped", type := "Order", annotations := [⟨"OneToOne",""⟩] }] }]

/-- The fields that come second make an open round trip. -/
theorem removal_round_trip_exists : ¬ ∀ (cancelled : Bool) (s : Settings) (c : Catalog)
    (a : Analysis), s.detectCycles = true → run cancelled s c = .ok a →
      ¬ ∃ l, RoundTrip l ∧ ∀ r ∈ l, r ∈ a.relationships ∧ r.AdvisesRemoval := by
  intro hall
  have hsecond (ends : String × String) (h : ends = ("Order","Address") ∨
      ends = ("Address","Order")) : ∃ r ∈ (ofCatalog {} doublyMutualOrder).relationships,
        r.endpoints = ends ∧ r.AdvisesRemoval := by
    obtain ⟨q,hq,rfl,hkind,howner,hadvised,hself,hkey⟩ :
        ∃ q ∈ classified doublyMutualOrder, q.endpoints = ends ∧ q.kind = .oneToOne ∧
          q.ownerSide = true ∧ q.cascadeExplicit = false ∧ q.isSelfLoop = false ∧
          (firstEdge? (classified doublyMutualOrder) q.endpoints).map key ≠ some q.key := by
      rcases h with rfl | rfl
      · decide +kernel
      · decide +kernel
    exact exists_advised_beside_first rfl hq hkind howner hadvised hself hkey
  obtain ⟨shipping,hs,hsends,hsadvised⟩ := hsecond ("Order","Address") (.inl rfl)
  obtain ⟨lastShipped,hl,hlends,hladvised⟩ := hsecond ("Address","Order") (.inr rfl)
  obtain ⟨hss,hst⟩ := Prod.mk.inj hsends
  obtain ⟨hls,hlt⟩ := Prod.mk.inj hlends
  refine hall false {} doublyMutualOrder _ rfl rfl
    ⟨[shipping,lastShipped],⟨List.cons_ne_nil _ _,?_⟩,?_⟩
  · simp [hss,hst,hls,hlt]
  · intro r hr
    rcases List.mem_pair.mp hr with rfl | rfl
    · exact ⟨hs,hsadvised⟩
    · exact ⟨hl,hladvised⟩

end Analysis

end EntityLink
