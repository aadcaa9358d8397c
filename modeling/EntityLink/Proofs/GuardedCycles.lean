import EntityLink.Proofs.GeneratedEntities

namespace EntityLink

namespace Cycle

variable {rs : List Relationship} {r : Relationship}

theorem Marks.bearsMembers (h : Marks rs r) : r.bearsMembers = true := by
  rcases h with hself | ⟨f,hf,hkey,-⟩
  · exact (Bool.and_eq_true_iff.mp hself).1
  · obtain ⟨-,hedge,-⟩ := firstEdge_fields hf
    obtain ⟨-,ht,hk,-⟩ := RelationshipKey.mk.inj hkey
    have hbears : f.bearsMembers = true := (Bool.and_eq_true_iff.mp hedge).1
    rw [Relationship.bearsMembers,Relationship.hasTarget,← hk,← ht]
    exact hbears

/-- From where a marked relationship leads, a marked one leads on: the way back begins with an
edge, and its first step can be returned from too. -/
theorem Marks.exists_next (hr : r ∈ rs) (h : Marks rs r) :
    ∃ o ∈ rs, o.source = r.target ∧ Marks rs o := by
  rcases h with hself | ⟨f,hf,hkey,hback⟩
  · exact ⟨r,hr,beq_iff_eq.mp (Bool.and_eq_true_iff.mp hself).2,.inl hself⟩
  · obtain ⟨hmem,hedge,hends⟩ := firstEdge_fields hf
    rcases hback.cases_head with hloop | ⟨n,hstep,hrest⟩
    · obtain ⟨hs,ht⟩ := Prod.mk.inj hends
      have hproper : f.isSelfReference = false := by simpa using (Bool.and_eq_true_iff.mp hedge).2
      rw [Relationship.isSelfReference,hs,ht,hloop,beq_self_eq_true] at hproper
      cases hproper
    · obtain ⟨o,ho⟩ := exists_firstEdge hstep
      obtain ⟨homem,-,hoends⟩ := firstEdge_fields ho
      obtain ⟨hos,hot⟩ := Prod.mk.inj hoends
      have hon : (r.source,r.target) ∈ (Graph.ofRelationships rs).edges :=
        Graph.mem_edges_ofRelationships.mpr ⟨f,hmem,hedge,hends⟩
      refine ⟨o,homem,hos,.inr ⟨o,hoends ▸ ho,rfl,?_⟩⟩
      rw [hos,hot]
      exact hrest.tail hon

end Cycle

namespace Analysis

variable {s : Settings} {c : Catalog} {r : Relationship}

theorem detectCycles_of_circular (hr : r ∈ (ofCatalog s c).relationships)
    (h : r.circular = true) : s.detectCycles = true := by
  obtain ⟨q,-,hsettles⟩ := exists_classified hr
  rw [hsettles.circular,cyclesOf] at h
  split at h
  · assumption
  · cases h

theorem bearsMembers_of_circular (hr : r ∈ (ofCatalog s c).relationships)
    (h : r.circular = true) : r.bearsMembers = true :=
  ((circular_iff (detectCycles_of_circular hr h) hr).mp h).bearsMembers

/-- Circular relationships go on: where one leads, another one begins. -/
theorem exists_circular_next (hr : r ∈ (ofCatalog s c).relationships) (h : r.circular = true) :
    ∃ o ∈ (ofCatalog s c).relationships, o.circular = true ∧ o.source = r.target := by
  have hs := detectCycles_of_circular hr h
  obtain ⟨q,hq,hsettles⟩ := exists_classified hr
  have hmarks := (Cycle.marks_congr hsettles.key_eq).mpr ((circular_iff hs hr).mp h)
  obtain ⟨p,hp,hsource,hp'⟩ := hmarks.exists_next hq
  obtain ⟨o,ho,hosettles⟩ := exists_settled s hp
  have hok : p.source = o.source := congrArg RelationshipKey.source hosettles.key_eq
  have hrk : q.target = r.target := congrArg RelationshipKey.target hsettles.key_eq
  refine ⟨o,ho,?_,hok.symm.trans (hsource.trans hrk)⟩
  exact (circular_iff hs ho).mpr ((Cycle.marks_congr hosettles.key_eq).mp hp')

end Analysis

namespace Synthesis
open Analysis

variable {s : Settings} {c : Catalog} {entity : String}

theorem guarded_partOf (hs : s.circularGuard = true) {r : Relationship}
    (hr : r ∈ (ofCatalog s c).relationships) :
    (partOf s (ofCatalog s c) r).guarded = r.circular := by
  cases hbears : r.bearsMembers with
  | true =>
    rw [partOf_of_style _ _ (styleOf_of_bearsMembers hr hbears)]
    simp only [Link.new,LinkPolicy.ofRelationship,hs,Bool.and_true]
  | false =>
    rw [(partOf_of_no_style _ _ (styleOf_of_no_members hbears)).2.2]
    symm
    apply eq_false_of_ne_true
    intro hcircular
    exact Bool.false_ne_true (hbears.symm.trans (bearsMembers_of_circular hr hcircular))

/-- An entity gets the guard for its circular relationships. -/
theorem implementsGuard_entityOf_iff (hs : s.circularGuard = true) :
    (entityOf s (ofCatalog s c) entity).implementsGuard = true ↔
      ∃ r ∈ (ofCatalog s c).relationships, r.circular = true ∧ r.source = entity := by
  have hany : (partsOf s (ofCatalog s c) entity).any (·.guarded) = true ↔
      ∃ r ∈ (ofCatalog s c).relationships, r.circular = true ∧ r.source = entity := by
    simp only [partsOf,relationshipsOf,List.any_map,List.any_eq_true,List.mem_filter,beq_iff_eq,
      Function.comp_apply]
    constructor
    · rintro ⟨r,⟨hr,hsource⟩,hguarded⟩
      rw [guarded_partOf hs hr] at hguarded
      exact ⟨r,hr,hguarded,hsource⟩
    · rintro ⟨r,hr,hcircular,hsource⟩
      exact ⟨r,⟨hr,hsource⟩,(guarded_partOf hs hr).trans hcircular⟩
  rw [← hany,GeneratedEntity.implementsGuard,entityOf]
  cases (partsOf s (ofCatalog s c) entity).any (·.guarded) with
  | true => simp
  | false => simp

theorem implementsGuard_of_mem {e : GeneratedEntity} (hs : s.circularGuard = true)
    (he : e ∈ (ofAnalysis s (ofCatalog s c)).entities) : e.implementsGuard = true ↔
      ∃ r ∈ (ofCatalog s c).relationships, r.circular = true ∧ r.source = e.entity := by
  rw [← implementsGuard_entityOf_iff hs,(exists_entityOf he).2.2]
  rfl

/-- The source of a circular relationship is generated, with the guard. -/
theorem exists_guarded_source (hs : s.circularGuard = true) {r : Relationship}
    (hr : r ∈ (ofCatalog s c).relationships) (hcircular : r.circular = true) :
    ∃ e ∈ (ofAnalysis s (ofCatalog s c)).entities, e.entity = r.source ∧
      e.implementsGuard = true := by
  have hfull : (entityOf s (ofCatalog s c) r.source).isEmpty = false := by
    apply eq_false_of_ne_true
    intro hempty
    have hlinks := ((isEmpty_entityOf_iff s c r.source).mp hempty).1
    have hmem := mem_linksOf.mpr ⟨hr,rfl,bearsMembers_of_circular hr hcircular⟩
    rw [hlinks] at hmem
    exact List.not_mem_nil hmem
  obtain ⟨e,he,hname⟩ := exists_generated (source_mem_entities hr) hfull
  exact ⟨e,he,hname,(implementsGuard_of_mem hs he).mpr ⟨r,hr,hcircular,hname.symm⟩⟩

end Synthesis

namespace Generation

/-- Where guards are wanted, those entities have one from which a circular relationship leads.
Each such relationship leads to one of them, so no missing guard is reported. -/
theorem cycles_guarded {cancelled : Bool} {s : Settings} {c : Catalog} {g : Generation}
    (hs : s.circularGuard = true) (h : run cancelled s c = .ok g) :
    (∀ e ∈ g.synthesis.entities, guardInterface ∈ e.interfaces ↔
      ∃ r ∈ g.analysis.relationships, r.circular = true ∧ r.source = e.entity) ∧
    (∀ r ∈ g.analysis.relationships, r.circular = true →
      ∃ e ∈ g.synthesis.entities, e.entity = r.target ∧ guardInterface ∈ e.interfaces) ∧
    ∀ f ∈ g.analysis.findings ++ g.synthesis.findings, f.kind ≠ .circularWithoutGuard := by
  obtain rfl := eq_of_run h
  have hguard : ∀ e : GeneratedEntity,
      e.implementsGuard = true ↔ guardInterface ∈ e.interfaces :=
    fun _ => List.contains_iff_mem
  have htarget : ∀ r ∈ (Analysis.ofCatalog s c).relationships, r.circular = true →
      ∃ e ∈ (Synthesis.ofAnalysis s (.ofCatalog s c)).entities, e.entity = r.target ∧
        e.implementsGuard = true := by
    intro r hr hcircular
    obtain ⟨o,ho,hocircular,hsource⟩ := Analysis.exists_circular_next hr hcircular
    rw [← hsource]
    exact Synthesis.exists_guarded_source hs ho hocircular
  refine ⟨fun e he => ?_,fun r hr hcircular => ?_,fun f hf => ?_⟩
  · exact (hguard e).symm.trans (Synthesis.implementsGuard_of_mem hs he)
  · obtain ⟨e,he,hname,himplements⟩ := htarget r hr hcircular
    exact ⟨e,he,hname,(hguard e).mp himplements⟩
  · intro hkind
    rcases List.mem_append.mp hf with hf | hf
    · rcases Analysis.kind_of_mem_findingsOf hf with ⟨-,h | h⟩ | ⟨-,h⟩
      · cases h.symm.trans hkind
      · cases h.symm.trans hkind
      · cases h.symm.trans hkind
    · rcases Synthesis.cases_of_mem_findings hf with
        ⟨-,h⟩ | ⟨-,r,hr,hcircular,hnone⟩ | ⟨h,-⟩
      · cases h.symm.trans hkind
      · obtain ⟨e,he,hname,himplements⟩ := htarget r hr hcircular
        exact hnone e he himplements hname
      · cases h.symm.trans hkind

/-- The team's lead refers back to the team, so both have the guard. -/
theorem ledTeam_guarded : ({} : Settings).circularGuard = true ∧
    run false {} Analysis.ledTeam = .ok (ofCatalog {} Analysis.ledTeam) ∧
    (∃ e ∈ (ofCatalog {} Analysis.ledTeam).synthesis.entities, e.entity = "Team" ∧
      guardInterface ∈ e.interfaces) ∧
    ∃ e ∈ (ofCatalog {} Analysis.ledTeam).synthesis.entities, e.entity = "Person" ∧
      guardInterface ∈ e.interfaces := by
  have hrun : run false {} Analysis.ledTeam = .ok (ofCatalog {} Analysis.ledTeam) := rfl
  obtain ⟨-,htarget,-⟩ := cycles_guarded (s := {}) rfl hrun
  have hlead : ∃ r ∈ (ofCatalog {} Analysis.ledTeam).analysis.relationships,
      r.circular = true ∧ r.target = "Person" := by
    decide +kernel
  have hteam : ∃ r ∈ (ofCatalog {} Analysis.ledTeam).analysis.relationships,
      r.circular = true ∧ r.target = "Team" := by
    decide +kernel
  obtain ⟨r,hr,hcircular,hperson⟩ := hlead
  obtain ⟨o,ho,hocircular,hback⟩ := hteam
  exact ⟨rfl,hrun,hback ▸ htarget o ho hocircular,hperson ▸ htarget r hr hcircular⟩

end Generation

end EntityLink
