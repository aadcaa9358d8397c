import EntityLink.Analysis
import EntityLink.Proofs.LoopSearch
import Mathlib.Data.List.Basic

namespace EntityLink

/-- Whether a relationship is a cycle by itself. -/
def Relationship.isSelfLoop (r : Relationship) : Bool :=
  r.kind != .inheritance && r.hasTarget && r.isSelfReference

namespace Cycle

/-- The relationship that stands for a step: the first edge between the two entities. -/
def firstEdge? (rs : List Relationship) (ends : String × String) : Option Relationship :=
  rs.find? (fun r => r.isEdge && r.endpoints == ends)

theorem firstEdge_fields {rs : List Relationship} {e : String × String} {r : Relationship}
    (h : firstEdge? rs e = some r) : r ∈ rs ∧ r.isEdge = true ∧ r.endpoints = e := by
  have hp := List.find?_some h
  simp only [Bool.and_eq_true,beq_iff_eq] at hp
  exact ⟨List.mem_of_find?_eq_some h,hp⟩

theorem exists_firstEdge {rs : List Relationship} {e : String × String}
    (h : e ∈ (Graph.ofRelationships rs).edges) : ∃ r, firstEdge? rs e = some r := by
  obtain ⟨r,hr,hedge,he⟩ := Graph.mem_edges_ofRelationships.mp h
  apply Option.isSome_iff_exists.mp
  exact List.find?_isSome.mpr ⟨r,hr,by simp [hedge,he]⟩

theorem edgeAt_bind (rs : List Relationship) (e : String × String) :
    (edgeAt? rs e).bind (rs[·]?) = firstEdge? rs e :=
  List.find?_eq_bind_findIdx?_getElem?.symm

/-- Each edge has a position, and no two have the same. -/
theorem exists_edgeAt {rs : List Relationship} {e : String × String}
    (h : e ∈ (Graph.ofRelationships rs).edges) : ∃ i, edgeAt? rs e = some i := by
  obtain ⟨r,hr⟩ := exists_firstEdge h
  rw [← edgeAt_bind] at hr
  obtain ⟨i,hi,-⟩ := Option.bind_eq_some_iff.mp hr
  exact ⟨i,hi⟩

theorem edgeAt_inj {rs : List Relationship} {e e' : String × String} {i : Nat}
    (h : edgeAt? rs e = some i) (h' : edgeAt? rs e' = some i) : e = e' := by
  obtain ⟨_,hr,-⟩ := List.findIdx?_eq_some_iff_getElem.mp h
  obtain ⟨_,hr',-⟩ := List.findIdx?_eq_some_iff_getElem.mp h'
  simp only [Bool.and_eq_true,beq_iff_eq] at hr hr'
  exact hr.2.symm.trans hr'.2

/-- A walk along edges is read back from the relationships that stand for its steps. -/
theorem map_endpoints_firstEdges {rs : List Relationship} {es : List (String × String)}
    (h : ∀ e ∈ es, e ∈ (Graph.ofRelationships rs).edges) :
    (es.filterMap (firstEdge? rs)).map Relationship.endpoints = es := by
  induction es with
  | nil => rfl
  | cons e es ih =>
    obtain ⟨r,hr⟩ := exists_firstEdge (h e List.mem_cons_self)
    rw [List.filterMap_cons_some hr,List.map_cons,(firstEdge_fields hr).2.2,
      ih (fun e he => h e (List.mem_cons_of_mem _ he))]

/-- The cycle that a list of positions stands for. -/
def ofPositions (rs : List Relationship) (is : List Nat) : Cycle :=
  ⟨is.filterMap (rs[·]?)⟩

theorem members_ofPositions (rs : List Relationship) (walk : List String) :
    (ofPositions rs (positions rs walk)).members = (stepsOf walk).filterMap (firstEdge? rs) := by
  rw [ofPositions,positions,List.filterMap_filterMap]
  exact List.filterMap_congr (fun e _ => edgeAt_bind rs e)

section SimpleLoop
variable {rs : List Relationship} {l l' : List String}

theorem entities_ofPositions (h : (Graph.ofRelationships rs).SimpleLoop l) :
    (ofPositions rs (positions rs l)).entities = l := by
  have hends := congrArg (List.map Prod.fst) (map_endpoints_firstEdges h.steps)
  rw [map_fst_stepsOf,List.map_map] at hends
  rw [entities,members_ofPositions]
  exact hends

theorem targets_ofPositions (h : (Graph.ofRelationships rs).SimpleLoop l) :
    (ofPositions rs (positions rs l)).members.map Relationship.target = l.rotate 1 := by
  have hends := congrArg (List.map Prod.snd) (map_endpoints_firstEdges h.steps)
  rw [map_snd_stepsOf,List.map_map] at hends
  rw [members_ofPositions]
  exact hends

theorem length_ofPositions (h : (Graph.ofRelationships rs).SimpleLoop l) :
    (ofPositions rs (positions rs l)).members.length = l.length := by
  have hlen := congrArg List.length (entities_ofPositions h)
  rwa [entities,List.length_map] at hlen

/-- Loops of the same edges, in whatever order these were sorted, are the same loop begun
elsewhere. -/
theorem positions_perm_iff (h : (Graph.ofRelationships rs).SimpleLoop l)
    (h' : (Graph.ofRelationships rs).SimpleLoop l') :
    (positions rs l).Perm (positions rs l') ↔ l ~r l' := by
  have hsub {k k' : List String} (hk : (Graph.ofRelationships rs).SimpleLoop k)
      (hp : (positions rs k).Perm (positions rs k')) {e : String × String}
      (he : e ∈ stepsOf k) : e ∈ stepsOf k' := by
    obtain ⟨i,hi⟩ := exists_edgeAt (hk.steps e he)
    have hmem : i ∈ positions rs k := List.mem_filterMap.mpr ⟨e,he,hi⟩
    obtain ⟨e',he',hi'⟩ := List.mem_filterMap.mp (hp.mem_iff.mp hmem)
    rwa [edgeAt_inj hi hi']
  constructor
  · intro hp
    exact isRotated_of_same_steps h.nodup h'.nodup
      (fun e => ⟨hsub h hp,hsub h' hp.symm⟩)
  · intro hr
    exact (stepsOf_isRotated hr).perm.filterMap _

end SimpleLoop

theorem mergeSort_eq_iff_perm {l l' : List Nat} : l.mergeSort = l'.mergeSort ↔ l.Perm l' := by
  constructor
  · intro h
    exact (List.mergeSort_perm l _).symm.trans (h ▸ List.mergeSort_perm l' _)
  · intro h
    have hperm : l.mergeSort.Perm l'.mergeSort :=
      (List.mergeSort_perm l _).trans (h.trans (List.mergeSort_perm l' _).symm)
    have hsorted (k : List Nat) : k.mergeSort.Pairwise (fun a b => decide (a ≤ b) = true) :=
      List.pairwise_mergeSort (by simp; omega) (by simp; omega) k
    apply hperm.eq_of_pairwise ?_ (hsorted l) (hsorted l')
    intro a b _ _ hab hba
    exact Nat.le_antisymm (of_decide_eq_true hab) (of_decide_eq_true hba)

theorem mem_of_mem_distinctSets {seen ls : List (List Nat)} {l : List Nat}
    (h : l ∈ distinctSets.go seen ls) : l ∈ ls := by
  induction ls generalizing seen with
  | nil => exact absurd h List.not_mem_nil
  | cons k ks ih =>
    simp only [distinctSets.go] at h
    split at h
    · exact List.mem_cons_of_mem k (ih h)
    · rcases List.mem_cons.mp h with rfl | hk
      · exact List.mem_cons_self
      · exact List.mem_cons_of_mem k (ih hk)

/-- What is kept differs as a set from all that was seen and from all else that is kept. -/
theorem distinctSets_fresh (seen ls : List (List Nat)) :
    ((distinctSets.go seen ls).map (·.mergeSort)).Nodup ∧
      ∀ l ∈ distinctSets.go seen ls, l.mergeSort ∉ seen := by
  induction ls generalizing seen with
  | nil => exact ⟨List.nodup_nil,by simp [distinctSets.go]⟩
  | cons k ks ih =>
    simp only [distinctSets.go]
    split
    · exact ih seen
    · rename_i hnew
      obtain ⟨hnodup,hfresh⟩ := ih (k.mergeSort :: seen)
      constructor
      · rw [List.map_cons,List.nodup_cons]
        refine ⟨?_,hnodup⟩
        intro hk
        obtain ⟨l,hl,he⟩ := List.mem_map.mp hk
        exact hfresh l hl (List.mem_cons.mpr (.inl he))
      · intro l hl
        rcases List.mem_cons.mp hl with rfl | hl
        · simpa using hnew
        · exact fun hm => hfresh l hl (List.mem_cons_of_mem _ hm)

/-- Every list is seen, or kept under some order of its elements. -/
theorem exists_mem_distinctSets (seen : List (List Nat)) {ls : List (List Nat)} {l : List Nat}
    (h : l ∈ ls) : l.mergeSort ∈ seen ∨ ∃ k ∈ distinctSets.go seen ls, k.mergeSort = l.mergeSort := by
  induction ls generalizing seen with
  | nil => exact absurd h List.not_mem_nil
  | cons k ks ih =>
    simp only [distinctSets.go]
    split
    · rename_i hseen
      rcases List.mem_cons.mp h with rfl | hl
      · exact .inl (by simpa using hseen)
      · exact ih seen hl
    · rcases List.mem_cons.mp h with rfl | hl
      · exact .inr ⟨l,List.mem_cons_self,rfl⟩
      · rcases ih (k.mergeSort :: seen) hl with hs | ⟨j,hj,he⟩
        · rcases List.mem_cons.mp hs with he | hs
          · exact .inr ⟨k,List.mem_cons_self,he.symm⟩
          · exact .inl hs
        · exact .inr ⟨j,List.mem_cons_of_mem _ hj,he⟩

/-- Of all lists with the elements of a given one, exactly one is kept. -/
theorem count_distinctSets {ls : List (List Nat)} {l : List Nat} (h : l ∈ ls) :
    (distinctSets ls).countP (fun k => decide (k.Perm l)) = 1 := by
  obtain ⟨hnodup,-⟩ := distinctSets_fresh [] ls
  have hmem : l.mergeSort ∈ (distinctSets ls).map (·.mergeSort) := by
    rcases exists_mem_distinctSets [] h with hs | ⟨k,hk,he⟩
    · exact absurd hs List.not_mem_nil
    · exact List.mem_map.mpr ⟨k,hk,he⟩
  calc (distinctSets ls).countP (fun k => decide (k.Perm l))
      = (distinctSets ls).countP (fun k => k.mergeSort == l.mergeSort) := by
        apply List.countP_congr
        intro k _
        rw [decide_eq_true_eq,beq_iff_eq,mergeSort_eq_iff_perm]
    _ = ((distinctSets ls).map (·.mergeSort)).count l.mergeSort := by
        rw [List.count,List.countP_map]; rfl
    _ = 1 := List.count_eq_one_of_mem hnodup hmem

/-- The cycles of more than one relationship. -/
def longer (rs : List Relationship) : List Cycle :=
  (distinctSets ((Graph.ofRelationships rs).loops.map (positions rs))).map (ofPositions rs)

theorem loop_of_mem_longer {rs : List Relationship} {c : Cycle} (hc : c ∈ longer rs) :
    ∃ l, (Graph.ofRelationships rs).SimpleLoop l ∧ c = ofPositions rs (positions rs l) := by
  obtain ⟨is,his,rfl⟩ := List.mem_map.mp hc
  obtain ⟨l,hl,rfl⟩ := List.mem_map.mp (mem_of_mem_distinctSets his)
  exact ⟨l,Graph.mem_loops_iff.mp hl,rfl⟩

/-- Each simple loop is found, from one of its nodes and no other. -/
theorem count_longer {rs : List Relationship} {l : List String}
    (h : (Graph.ofRelationships rs).SimpleLoop l) :
    (longer rs).countP (fun c => decide (c.entities ~r l)) = 1 := by
  have hl : positions rs l ∈ (Graph.ofRelationships rs).loops.map (positions rs) :=
    List.mem_map_of_mem (Graph.mem_loops_iff.mpr h)
  rw [longer,List.countP_map,← count_distinctSets hl]
  apply List.countP_congr
  intro is his
  obtain ⟨k,hk,rfl⟩ := List.mem_map.mp (mem_of_mem_distinctSets his)
  have hloop := Graph.mem_loops_iff.mp hk
  rw [Function.comp_apply,decide_eq_true_eq,decide_eq_true_eq,entities_ofPositions hloop,
    positions_perm_iff hloop h]

theorem selfReferences_map (rs : List Relationship) :
    (selfReferences rs).map (ofPositions rs) =
      (rs.filter Relationship.isSelfLoop).map (fun r => ⟨[r]⟩) := by
  have hat : ∀ x ∈ rs.zipIdx, ofPositions rs [x.2] = ⟨[x.1]⟩ := by
    intro x hx
    have hr : rs[x.2]? = some x.1 := List.mem_zipIdx_iff_getElem?.mp hx
    rw [ofPositions,List.filterMap_cons_some hr]
    rfl
  calc (selfReferences rs).map (ofPositions rs)
      = (rs.zipIdx.filter (fun x => x.1.isSelfLoop)).map (fun x => ofPositions rs [x.2]) := by
        rw [selfReferences,List.map_map]; rfl
    _ = (rs.zipIdx.filter (fun x => x.1.isSelfLoop)).map (fun x => ⟨[x.1]⟩) :=
        List.map_congr_left (fun x hx => hat x (List.mem_of_mem_filter hx))
    _ = ((rs.zipIdx.map Prod.fst).filter Relationship.isSelfLoop).map (fun r => ⟨[r]⟩) := by
        rw [List.filter_map,List.map_map]; rfl
    _ = (rs.filter Relationship.isSelfLoop).map (fun r => ⟨[r]⟩) := by
        rw [List.zipIdx_map_fst]

theorem all_eq (rs : List Relationship) :
    all rs = (rs.filter Relationship.isSelfLoop).map (fun r => ⟨[r]⟩) ++ longer rs := by
  rw [← selfReferences_map]
  exact List.map_append

/-- Each member of a cycle of several entities is the first edge between its own two. -/
theorem firstEdge_of_mem {rs : List Relationship} {l : List String} {r : Relationship}
    (hr : r ∈ (ofPositions rs (positions rs l)).members) : firstEdge? rs r.endpoints = some r := by
  rw [members_ofPositions] at hr
  obtain ⟨e,-,he⟩ := List.mem_filterMap.mp hr
  rwa [(firstEdge_fields he).2.2]

/-- Steps along edges over distinct names are a simple loop. -/
theorem simpleLoop_of_edges {rs : List Relationship} {ns : List String} (h2 : 2 ≤ ns.length)
    (hn : ns.Nodup)
    (he : ∀ e ∈ ns.zip (ns.rotate 1), ∃ r ∈ rs, r.isEdge = true ∧ r.endpoints = e) :
    (Graph.ofRelationships rs).SimpleLoop ns := by
  refine ⟨?_,hn,?_⟩
  · rintro rfl
    exact absurd h2 (by decide)
  · intro e hs
    rw [stepsOf_eq_zip] at hs
    exact Graph.mem_edges_ofRelationships.mpr (he e hs)

theorem two_le_length_of_mem_longer {c : Cycle} (h : c ∈ longer rs) : 2 ≤ c.members.length := by
  obtain ⟨l,hl,rfl⟩ := loop_of_mem_longer h
  rw [length_ofPositions hl]
  exact hl.two_le_length

theorem filter_single_all (rs : List Relationship) :
    (all rs).filter (fun c => c.members.length == 1) =
      (rs.filter Relationship.isSelfLoop).map (fun r => ⟨[r]⟩) := by
  have hlonger : (longer rs).filter (fun c => c.members.length == 1) = [] := by
    apply List.filter_eq_nil_iff.mpr
    intro c hc
    have h2 := two_le_length_of_mem_longer hc
    simp only [beq_iff_eq]
    omega
  rw [all_eq,List.filter_append,hlonger,List.append_nil]
  apply List.filter_eq_self.mpr
  intro c hc
  obtain ⟨r,-,rfl⟩ := List.mem_map.mp hc
  rfl

/-- A cycle of one relationship visits one name only. -/
theorem countP_selfLoops (rs : List Relationship) {ns : List String} (h2 : 2 ≤ ns.length) :
    ((rs.filter Relationship.isSelfLoop).map (fun r => (⟨[r]⟩ : Cycle))).countP
      (fun c => decide (c.entities ~r ns)) = 0 := by
  apply List.countP_eq_zero.mpr
  intro c hc hrot
  obtain ⟨r,-,rfl⟩ := List.mem_map.mp hc
  have hlen := (of_decide_eq_true hrot).perm.length_eq
  simp only [entities,List.map_cons,List.map_nil,List.length_singleton] at hlen
  omega

/-- The search that is not cancelled finds the simple cycles of the entities, each once. Those of
one relationship are the references of an entity to itself. In any other the sources differ,
each target is the next source, and each relationship is the first edge between its entities.
Every closed walk along edges over distinct entities is one of them, under some first entity. -/
theorem detect_simple_cycles (rs : List Relationship) :
    ∃ cs, detect false rs = .ok cs ∧
      cs.filter (fun c => c.members.length == 1) =
        (rs.filter Relationship.isSelfLoop).map (fun r => ⟨[r]⟩) ∧
      (∀ c ∈ cs, c.members.length ≠ 1 →
        2 ≤ c.members.length ∧ c.entities.Nodup ∧
        c.members.map Relationship.target = c.entities.rotate 1 ∧
        ∀ r ∈ c.members, rs.find? (fun e => e.isEdge && e.endpoints == r.endpoints) = some r) ∧
      ∀ ns : List String, 2 ≤ ns.length → ns.Nodup →
        (∀ e ∈ ns.zip (ns.rotate 1), ∃ r ∈ rs, r.isEdge = true ∧ r.endpoints = e) →
        cs.countP (fun c => decide (c.entities ~r ns)) = 1 := by
  refine ⟨all rs,rfl,filter_single_all rs,?_,?_⟩
  · intro c hc hlen
    rw [all_eq] at hc
    rcases List.mem_append.mp hc with hc | hc
    · obtain ⟨r,-,rfl⟩ := List.mem_map.mp hc
      exact absurd rfl hlen
    · have h2 := two_le_length_of_mem_longer hc
      obtain ⟨l,hl,rfl⟩ := loop_of_mem_longer hc
      rw [entities_ofPositions hl,targets_ofPositions hl]
      exact ⟨h2,hl.nodup,rfl,fun r hr => firstEdge_of_mem hr⟩
  · intro ns h2 hn he
    rw [all_eq,List.countP_append,countP_selfLoops rs h2,
      count_longer (simpleLoop_of_edges h2 hn he)]

/-- Two loops that share a node. -/
def sharedNode : List Relationship := [
  .new "A" "B" .manyToOne "b" "B" none,
  .new "B" "A" .manyToOne "a" "A" none,
  .new "B" "C" .manyToOne "c" "C" none,
  .new "C" "B" .manyToOne "b" "B" none]

theorem sharedNode_detected : ∃ cs, detect false sharedNode = .ok cs ∧
    cs.filter (fun c => c.members.length == 1) = [] ∧
    cs.countP (fun c => decide (c.entities ~r ["A","B"])) = 1 ∧
    cs.countP (fun c => decide (c.entities ~r ["C","B"])) = 1 := by
  obtain ⟨cs,hcs,hself,-,hall⟩ := detect_simple_cycles sharedNode
  refine ⟨cs,hcs,hself,?_,?_⟩
  · exact hall ["A","B"] (by decide) (by decide) (by decide)
  · exact hall ["C","B"] (by decide) (by decide) (by decide)

end Cycle

end EntityLink
