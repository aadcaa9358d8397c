import EntityLink.Proofs.CircularMarking
import EntityLink.Proofs.InversePairing

namespace EntityLink

/-- How a relationship leaves classification: on no cycle and in no pair yet, on the side that
its kind and its `mappedBy` tell. -/
structure Relationship.Unsettled (r : Relationship) : Prop where
  circular : r.circular = false
  bidirectional : r.bidirectional = false
  inverseField : r.inverseField = none
  ownerSide : r.ownerSide = r.kind.ownsLink r.mappedBy

/-- How a relationship classified as `q` leaves the last stage when `cs` are the cycles to
mark. -/
structure Relationship.Settles (cs : List Cycle) (q r : Relationship) : Prop where
  kept : r = { q with circular := r.circular, bidirectional := r.bidirectional,
                      inverseField := r.inverseField, cascade := r.cascade }
  circular : r.circular = cs.any (·.contains q)
  explicit : q.cascadeExplicit = true → r.cascade = q.cascade
  advised : q.cascadeExplicit = false →
    r.cascade = CascadeAdvice.suggest ⟨r.kind,r.ownerSide,r.bidirectional,r.circular⟩

theorem Relationship.Settles.key_eq {cs : List Cycle} {q r : Relationship} (h : q.Settles cs r) :
    q.key = r.key := by
  rw [h.kept]
  rfl

namespace Catalog

theorem relationshipOf_unsettled (e : Entity) (f : Field) (kind : RelationKind)
    (target : String) (a : Attributes) : (relationshipOf e f kind target a).Unsettled :=
  ⟨rfl,rfl,rfl,rfl⟩

theorem relationship_unsettled {c : Catalog} {e : Entity} {f : Field} {r : Relationship}
    (h : c.relationship? e f = some r) : r.Unsettled := by
  unfold relationship? at h
  split at h
  · cases h
  · split at h
    · rename_i kind a _
      cases h
      exact relationshipOf_unsettled e f kind _ a
    · unfold implicitRelationship? at h
      obtain ⟨target,_,rfl⟩ := Option.map_eq_some_iff.mp h
      exact relationshipOf_unsettled e f _ target ⟨[]⟩

theorem inheritanceLink_unsettled {c : Catalog} {e : Entity} {r : Relationship}
    (h : c.inheritanceLink? e = some r) : r.Unsettled := by
  simp only [inheritanceLink?] at h
  split at h
  · cases h
    exact ⟨rfl,rfl,rfl,rfl⟩
  · cases h

end Catalog

theorem getElem?_markCircular (rs : List Relationship) (cs : List Cycle) (i : Nat) :
    (markCircular rs cs)[i]? =
      (rs[i]?).map (fun r => if cs.any (·.contains r) then r.markedCircular else r) :=
  List.getElem?_map

namespace Analysis

theorem mem_classified {c : Catalog} {r : Relationship} :
    r ∈ classified c ↔ ∃ e ∈ c.entities, e.kind = .entity ∧
      (c.inheritanceLink? e = some r ∨ ∃ f ∈ e.fields, c.relationship? e f = some r) := by
  simp only [classified,Catalog.classify,Catalog.classifyField,List.mem_flatMap,List.mem_filter,
    beq_iff_eq,List.mem_append,Option.mem_toList,List.mem_filterMap,and_assoc]

theorem classified_unsettled {c : Catalog} {r : Relationship} (h : r ∈ classified c) :
    r.Unsettled := by
  obtain ⟨e,_,_,h⟩ := mem_classified.mp h
  rcases h with h | ⟨f,_,h⟩
  · exact Catalog.inheritanceLink_unsettled h
  · exact Catalog.relationship_unsettled h

/-- Marking tells no more and no less than the cycles do of what was on none before. -/
theorem marked_eq {r : Relationship} (h : r.circular = false) (cs : List Cycle) :
    (if cs.any (·.contains r) then r.markedCircular else r) =
      { r with circular := cs.any (·.contains r) } := by
  cases cs.any (·.contains r) with
  | true => rfl
  | false =>
    cases r
    cases h
    rfl

theorem readvise_of_explicit {r : Relationship} (h : r.cascadeExplicit = true) :
    readvise r = r :=
  if_pos h

theorem readvise_of_advised {r : Relationship} (h : r.cascadeExplicit = false) :
    readvise r = { r with
      cascade := CascadeAdvice.suggest ⟨r.kind,r.ownerSide,r.bidirectional,r.circular⟩ } :=
  if_neg (ne_true_of_eq_false h)

/-- Advice settles what marking and pairing have changed. -/
theorem readvise_settles {cs : List Cycle} {q p : Relationship}
    (hp : p = { q with circular := cs.any (·.contains q), bidirectional := p.bidirectional,
                       inverseField := p.inverseField }) : q.Settles cs (readvise p) := by
  have hcircular : p.circular = cs.any (·.contains q) := by rw [hp]
  have hcascade : p.cascade = q.cascade := by rw [hp]
  have hexplicit : p.cascadeExplicit = q.cascadeExplicit := by rw [hp]
  cases h : p.cascadeExplicit with
  | true =>
    rw [readvise_of_explicit h]
    refine ⟨?_,hcircular,fun _ => hcascade,fun hq => ?_⟩
    · rw [hcircular,hcascade]
      exact hp
    · simp [hexplicit,hq] at h
  | false =>
    rw [readvise_of_advised h]
    refine ⟨?_,hcircular,fun hq => ?_,fun _ => rfl⟩
    · rw [hp]
    · simp [hexplicit,hq] at h

/-- Marking, pairing and advice keep every relationship at its position. -/
theorem exists_settled_at (s : Settings) {c : Catalog} {i : Nat} {q : Relationship}
    (hq : (classified c)[i]? = some q) : ∃ r, (ofCatalog s c).relationships[i]? = some r ∧
      q.Settles (cyclesOf s (classified c)) r := by
  have hfresh := classified_unsettled (List.mem_of_getElem? hq)
  simp only [ofCatalog,List.getElem?_map,Pairing.getElem?_apply,getElem?_markCircular,hq,
    Option.map_some,marked_eq hfresh.circular]
  refine ⟨_,rfl,readvise_settles ?_⟩
  split
  · rfl
  · rfl

theorem length_relationships (s : Settings) (c : Catalog) :
    (ofCatalog s c).relationships.length = (classified c).length := by
  simp only [ofCatalog,Pairing.apply,markCircular,List.length_map,List.length_zipIdx]

theorem exists_classified {s : Settings} {c : Catalog} {r : Relationship}
    (h : r ∈ (ofCatalog s c).relationships) :
    ∃ q ∈ classified c, q.Settles (cyclesOf s (classified c)) r := by
  obtain ⟨i,hi⟩ := List.mem_iff_getElem?.mp h
  obtain ⟨hlt,_⟩ := List.getElem?_eq_some_iff.mp hi
  rw [length_relationships] at hlt
  obtain ⟨r',hr',hsettles⟩ := exists_settled_at s (List.getElem?_eq_getElem hlt)
  rw [hi,Option.some.injEq] at hr'
  subst hr'
  exact ⟨_,List.getElem_mem hlt,hsettles⟩

theorem exists_settled (s : Settings) {c : Catalog} {q : Relationship} (h : q ∈ classified c) :
    ∃ r ∈ (ofCatalog s c).relationships, q.Settles (cyclesOf s (classified c)) r := by
  obtain ⟨i,hi⟩ := List.mem_iff_getElem?.mp h
  obtain ⟨r,hr,hsettles⟩ := exists_settled_at s hi
  exact ⟨r,List.mem_of_getElem? hr,hsettles⟩

theorem circular_iff {s : Settings} {c : Catalog} {r : Relationship} (hs : s.detectCycles = true)
    (h : r ∈ (ofCatalog s c).relationships) :
    r.circular = true ↔ Cycle.Marks (classified c) r := by
  obtain ⟨q,hq,hsettles⟩ := exists_classified h
  rw [hsettles.circular,cyclesOf,if_pos hs,Cycle.any_contains_iff hq]
  exact Cycle.marks_congr hsettles.key_eq

/-- A run that is not cancelled gives the whole analysis. -/
theorem eq_of_run {cancelled : Bool} {s : Settings} {c : Catalog} {a : Analysis}
    (h : run cancelled s c = .ok a) : a = ofCatalog s c := by
  unfold run at h
  split at h
  · cases h
  · exact (Except.ok.inj h).symm

/-- An analysis reports what could not be resolved or told apart, and attributed tables. -/
theorem kind_of_mem_findingsOf {severity : Severity} {rs : List Relationship}
    {as : List Ambiguity} {f : Finding} (h : f ∈ findingsOf severity rs as) :
    (f.severity = severity ∧ (f.kind = .unresolvedTarget ∨ f.kind = .ambiguousInverse)) ∨
      (f.severity = .info ∧ f.kind = .associationAttributes) := by
  simp only [findingsOf,List.mem_append,List.mem_flatMap,List.mem_map] at h
  rcases h with ⟨r,-,h | h⟩ | ⟨x,-,rfl⟩
  · rw [unresolved] at h
    obtain rfl := List.mem_singleton.mp (List.mem_ite_nil_right.mp h).2
    exact .inl ⟨rfl,.inl rfl⟩
  · rw [attributed] at h
    obtain rfl := List.mem_singleton.mp (List.mem_ite_nil_left.mp h).2
    exact .inr ⟨rfl,rfl⟩
  · exact .inl ⟨rfl,.inr rfl⟩

/-- Each classified relationship and what it has become stand at the same position. -/
theorem forall₂_settles (s : Settings) (c : Catalog) :
    List.Forall₂ (Relationship.Settles (cyclesOf s (classified c))) (classified c)
      (ofCatalog s c).relationships := by
  refine List.forall₂_iff_get.mpr ⟨(length_relationships s c).symm,fun i hq hr => ?_⟩
  obtain ⟨r,hr',hsettles⟩ := exists_settled_at s (List.getElem?_eq_getElem hq)
  rw [List.getElem?_eq_getElem hr,Option.some.injEq] at hr'
  subst hr'
  exact hsettles

/-- What a run returns are the classified relationships of its entities, in their order. Each may
have been marked and paired, and its cascade set advised unless that was written down; all else
stands as it was classified. -/
theorem relationships_settle {cancelled : Bool} {s : Settings} {c : Catalog} {a : Analysis}
    (h : run cancelled s c = .ok a) :
    List.Forall₂ (Relationship.Settles (cyclesOf s (classified c)))
      ((c.entities.filter (·.kind == .entity)).flatMap (fun e => (c.classify e).relationships))
      a.relationships := by
  obtain rfl := eq_of_run h
  exact forall₂_settles s c

/-- A team and its lead refer to each other. The team passes everything on, by its own word. -/
def ledTeam : Catalog :=
  .ofList [
    { name := "Team", fields := [
      { name := "lead", type := "Person", annotations := [⟨"OneToOne","cascade = ALL"⟩] }] },
    { name := "Person", fields := [
      { name := "team", type := "Team", annotations := [⟨"ManyToOne",""⟩] }] }]

/-- The written set stays on the cycle, where the advised one passes no removal on. -/
theorem ledTeam_settles : run false {} ledTeam = .ok (ofCatalog {} ledTeam) ∧
    (ofCatalog {} ledTeam).relationships.map (fun r => (r.circular,r.cascade.toList)) =
      [(true,[.all]),(true,[.persist,.merge])] ∧
    List.Forall₂ (Relationship.Settles (cyclesOf {} (classified ledTeam))) (classified ledTeam)
      (ofCatalog {} ledTeam).relationships := by
  have hrun : run false {} ledTeam = .ok (ofCatalog {} ledTeam) := rfl
  exact ⟨hrun,by decide +kernel,relationships_settle hrun⟩

end Analysis

end EntityLink
