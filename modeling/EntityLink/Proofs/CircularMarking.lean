import EntityLink.Proofs.CycleDetection
import Mathlib.Data.List.Forall2
import Mathlib.Logic.Relation

namespace EntityLink

namespace Graph
open EntityLink.Cycle

/-- There is a way from one entity to another along edges. -/
def Reaches (g : Graph) : String → String → Prop :=
  Relation.ReflTransGen (fun a b => (a,b) ∈ g.edges)

/-- A way that comes to a node twice can be cut short there. -/
theorem exists_path {g : Graph} {a b : String} (h : g.Reaches a b) :
    ∃ ns, g.IsPath (a :: ns) ∧ (a :: ns).getLast (List.cons_ne_nil a ns) = b := by
  induction h using Relation.ReflTransGen.head_induction_on with
  | refl => exact ⟨[],isPath_singleton g b,rfl⟩
  | @head a c hac _ ih =>
    obtain ⟨ns,hp,hlast⟩ := ih
    by_cases ha : a ∈ c :: ns
    · obtain ⟨before,after,hsplit⟩ := List.append_of_mem ha
      simp only [hsplit] at hp hlast
      rw [List.getLast_append_of_ne_nil _ (List.cons_ne_nil a after)] at hlast
      exact ⟨after,hp.right_of_append,hlast⟩
    · refine ⟨c :: ns,⟨List.nodup_cons.mpr ⟨ha,hp.nodup⟩,?_⟩,?_⟩
      · exact List.isChain_cons_cons.mpr ⟨hac,hp.chain⟩
      · rwa [List.getLast_cons_cons]

/-- The nodes of a closed walk reach each other. -/
theorem reaches_of_steps {g : Graph} {l : List String} (h : ∀ e ∈ stepsOf l, g.Reaches e.1 e.2)
    {a b : String} (ha : a ∈ l) (hb : b ∈ l) : g.Reaches a b := by
  cases l with
  | nil => exact absurd ha List.not_mem_nil
  | cons n ns =>
    have hchain := (forall_stepsOf_iff n ns).mp h
    have hto : g.Reaches a n := hchain.backwards_concat_induction (g.Reaches · n) _
      (fun _ _ he hy => he.trans hy) .refl a ha
    have hfrom : g.Reaches n b := hchain.left_of_append.induction (g.Reaches n) _
      (fun _ _ he hx => hx.trans he) (fun _ => .refl) b hb
    exact hto.trans hfrom

/-- An edge with a way back lies on a simple loop. -/
theorem exists_loop_of_edge {g : Graph} {a b : String} (he : (a,b) ∈ g.edges)
    (h : g.Reaches b a) : ∃ l, g.SimpleLoop l ∧ (a,b) ∈ stepsOf l := by
  obtain ⟨ns,hp,rfl⟩ := exists_path h
  exact ⟨b :: ns,hp.loop he,closing_mem_stepsOf b ns⟩

end Graph

namespace Cycle

/-- Where marking reaches: references of an entity to itself, and the key of the first edge
between two entities of which the second has a way back to the first. -/
def Marks (rs : List Relationship) (r : Relationship) : Prop :=
  r.isSelfLoop = true ∨ ∃ f, firstEdge? rs r.endpoints = some f ∧ f.key = r.key ∧
    (Graph.ofRelationships rs).Reaches r.target r.source

theorem contains_iff {c : Cycle} {r : Relationship} :
    c.contains r = true ↔ ∃ m ∈ c.members, m.key = r.key := by
  simp only [contains,List.any_eq_true,beq_iff_eq]

theorem isSelfLoop_congr {m r : Relationship} (h : m.key = r.key) :
    m.isSelfLoop = r.isSelfLoop := by
  obtain ⟨hs,ht,hk,-⟩ := RelationshipKey.mk.inj h
  simp only [Relationship.isSelfLoop,Relationship.hasTarget,Relationship.isSelfReference,hs,ht,hk]

theorem endpoints_congr {m r : Relationship} (h : m.key = r.key) :
    m.endpoints = r.endpoints := by
  obtain ⟨hs,ht,-,-⟩ := RelationshipKey.mk.inj h
  simp only [Relationship.endpoints,hs,ht]

theorem marks_congr {rs : List Relationship} {m r : Relationship} (h : m.key = r.key) :
    Marks rs m ↔ Marks rs r := by
  obtain ⟨hs,ht,-,-⟩ := RelationshipKey.mk.inj h
  rw [Marks,Marks,isSelfLoop_congr h,endpoints_congr h,h,hs,ht]

/-- A loop holds the first edge of each of its steps. -/
theorem firstEdge_mem_members {rs : List Relationship} {l : List String} {e : String × String}
    {f : Relationship} (he : e ∈ stepsOf l) (hf : firstEdge? rs e = some f) :
    f ∈ (ofPositions rs (positions rs l)).members := by
  rw [members_ofPositions]
  exact List.mem_filterMap.mpr ⟨e,he,hf⟩

theorem marks_of_contains {rs : List Relationship} {r : Relationship} {c : Cycle}
    (hc : c ∈ all rs) (hr : c.contains r = true) : Marks rs r := by
  obtain ⟨m,hm,hkey⟩ := contains_iff.mp hr
  rw [all_eq] at hc
  rcases List.mem_append.mp hc with hc | hc
  · obtain ⟨s,hs,rfl⟩ := List.mem_map.mp hc
    rw [List.mem_singleton.mp hm] at hkey
    rw [Marks,← isSelfLoop_congr hkey]
    exact .inl (List.mem_filter.mp hs).2
  · obtain ⟨l,hl,rfl⟩ := loop_of_mem_longer hc
    rw [members_ofPositions] at hm
    obtain ⟨e,he,hf⟩ := List.mem_filterMap.mp hm
    have hends : e = r.endpoints := (firstEdge_fields hf).2.2.symm.trans (endpoints_congr hkey)
    subst hends
    have hsource : r.source ∈ l := by
      rw [← map_fst_stepsOf l]
      exact List.mem_map.mpr ⟨_,he,rfl⟩
    have htarget : r.target ∈ l := by
      apply List.mem_rotate.mp
      rw [← map_snd_stepsOf l]
      exact List.mem_map.mpr ⟨_,he,rfl⟩
    exact .inr ⟨m,hf,hkey,
      Graph.reaches_of_steps (fun e he => .single (hl.steps e he)) htarget hsource⟩

theorem contains_of_marks {rs : List Relationship} {r : Relationship} (hr : r ∈ rs)
    (h : Marks rs r) : ∃ c ∈ all rs, c.contains r = true := by
  rw [all_eq]
  rcases h with hself | ⟨f,hf,hkey,hback⟩
  · refine ⟨⟨[r]⟩,List.mem_append_left _ ?_,contains_iff.mpr ⟨r,List.mem_cons_self,rfl⟩⟩
    exact List.mem_map.mpr ⟨r,List.mem_filter.mpr ⟨hr,hself⟩,rfl⟩
  · obtain ⟨hmem,hedge,hends⟩ := firstEdge_fields hf
    have he : (r.source,r.target) ∈ (Graph.ofRelationships rs).edges :=
      Graph.mem_edges_ofRelationships.mpr ⟨f,hmem,hedge,hends⟩
    obtain ⟨l,hl,hstep⟩ := Graph.exists_loop_of_edge he hback
    -- The search keeps this loop under some first node, and so with the same steps.
    have hkept : 0 < (longer rs).countP (fun c => decide (c.entities ~r l)) := by
      rw [count_longer hl]
      exact Nat.one_pos
    obtain ⟨c,hc,hrot⟩ := List.countP_pos_iff.mp hkept
    obtain ⟨k,hk,rfl⟩ := loop_of_mem_longer hc
    have hkl := of_decide_eq_true hrot
    rw [entities_ofPositions hk] at hkl
    have hstep' : (r.source,r.target) ∈ stepsOf k := (stepsOf_isRotated hkl).mem_iff.mpr hstep
    exact ⟨_,List.mem_append_right _ hc,contains_iff.mpr ⟨f,firstEdge_mem_members hstep' hf,hkey⟩⟩

/-- Some cycle contains a relationship exactly when it is one by itself, or shares the key of
the first edge between its entities and can be returned from. -/
theorem any_contains_iff {rs : List Relationship} {r : Relationship} (hr : r ∈ rs) :
    (all rs).any (·.contains r) = true ↔ Marks rs r := by
  rw [List.any_eq_true]
  constructor
  · rintro ⟨c,hc,hcr⟩
    exact marks_of_contains hc hcr
  · exact contains_of_marks hr

/-- There is a way from one entity to another along edges of a list. -/
def Leads (rs : List Relationship) : String → String → Prop :=
  Relation.ReflTransGen (fun a b => ∃ e ∈ rs, e.isEdge = true ∧ e.endpoints = (a,b))

theorem reaches_iff_leads {rs : List Relationship} {a b : String} :
    (Graph.ofRelationships rs).Reaches a b ↔ Leads rs a b := by
  simp only [Graph.Reaches,Graph.mem_edges_ofRelationships,Leads]

/-- Only links with a target are marked, inheritance links never. -/
theorem marks_iff {rs : List Relationship} {r : Relationship} :
    Marks rs r ↔ r.kind ≠ .inheritance ∧ r.hasTarget = true ∧ (r.source = r.target ∨
      ∃ f, firstEdge? rs r.endpoints = some f ∧ f.key = r.key ∧ Leads rs r.target r.source) := by
  rw [Marks,reaches_iff_leads]
  constructor
  · rintro (hself | ⟨f,hf,hkey,hback⟩)
    · simp only [Relationship.isSelfLoop,Relationship.isSelfReference,Bool.and_eq_true,
        bne_iff_ne,beq_iff_eq] at hself
      exact ⟨hself.1.1,hself.1.2,.inl hself.2⟩
    · have hedge := (firstEdge_fields hf).2.1
      obtain ⟨-,ht,hk,-⟩ := RelationshipKey.mk.inj hkey
      simp only [Relationship.isEdge,Relationship.hasTarget,Bool.and_eq_true,bne_iff_ne,ht,hk]
        at hedge
      exact ⟨hedge.1.1,hedge.1.2,.inr ⟨f,hf,hkey,hback⟩⟩
  · rintro ⟨hkind,htarget,hself | hedge⟩
    · left
      simp [Relationship.isSelfLoop,Relationship.isSelfReference,hkind,htarget,hself]
    · exact .inr hedge

/-- The search that is not cancelled marks what can be returned from: beside what was marked
before, references of an entity to itself and the key of the first edge between two entities of
which the second leads back to the first. Nothing but the mark changes. -/
theorem marked_iff_leads_back (rs : List Relationship) : ∃ cs, detect false rs = .ok cs ∧
    List.Forall₂ (fun r m => m = { r with circular := m.circular } ∧
      (m.circular = true ↔ r.circular = true ∨ r.kind ≠ .inheritance ∧ r.hasTarget = true ∧
        (r.source = r.target ∨ ∃ f,
          rs.find? (fun e => e.isEdge && e.endpoints == r.endpoints) = some f ∧
            f.key = r.key ∧ Leads rs r.target r.source)))
      rs (markCircular rs cs) := by
  refine ⟨all rs,rfl,?_⟩
  rw [markCircular,List.forall₂_map_right_iff,List.forall₂_same]
  intro r hr
  have hmarks := (any_contains_iff hr).trans marks_iff
  cases hany : (all rs).any (·.contains r) with
  | true =>
    rw [hany] at hmarks
    exact ⟨rfl,fun _ => .inr (hmarks.mp rfl),fun _ => rfl⟩
  | false =>
    rw [hany] at hmarks
    exact ⟨rfl,.inl,fun h => h.resolve_right (fun hback => nomatch hmarks.mpr hback)⟩

end Cycle

end EntityLink
