import EntityLink.Proofs.AnalysisStages

namespace EntityLink

namespace CascadeAdvice

/-- Whether the default cascade set passes a removal on as long as no cycle is known. -/
def passesRemoval (kind : RelationKind) (ownerSide bidirectional : Bool) : Bool :=
  match kind with
  | .oneToOne => ownerSide
  | .oneToMany => !bidirectional
  | .embedded | .composition => true
  | _ => false

/-- A removal is never passed on along a cycle. -/
theorem suggest_covers_remove (kind : RelationKind) (ownerSide bidirectional circular : Bool) :
    (suggest ⟨kind,ownerSide,bidirectional,circular⟩).covers .remove =
      (passesRemoval kind ownerSide bidirectional && !circular) := by
  cases circular with
  | true =>
    rw [Bool.not_true,Bool.and_false]
    cases kind <;> rfl
  | false =>
    cases kind with
    | oneToOne => cases ownerSide <;> rfl
    | oneToMany => cases bidirectional <;> rfl
    | _ => rfl

/-- A removal is passed on out of an inverse side only by a one-to-many, as long as that has no
partner. -/
theorem passesRemoval_inverse {kind : RelationKind} {mappedBy : Option String}
    (h : kind.ownsLink mappedBy = false) (bidirectional : Bool) :
    passesRemoval kind false bidirectional = (kind == .oneToMany && !bidirectional) := by
  cases kind with
  | embedded => cases h
  | composition => cases h
  | _ => rfl

end CascadeAdvice

namespace Relationship

/-- The cascade set was chosen by default and passes a removal on. -/
def AdvisesRemoval (r : Relationship) : Prop :=
  r.cascadeExplicit = false ∧ r.cascade.covers .remove = true

/-- A relationship that gets its cascade set by default and passes a removal on unless it is
found to be circular. -/
def MayRemove (r : Relationship) : Prop :=
  r.cascadeExplicit = false ∧
    CascadeAdvice.passesRemoval r.kind r.ownerSide r.bidirectional = true

end Relationship

namespace Analysis
open Relationship

section Settled

variable {s : Settings} {c : Catalog} {r : Relationship}

theorem ownerSide_eq (h : r ∈ (ofCatalog s c).relationships) :
    r.ownerSide = r.kind.ownsLink r.mappedBy := by
  obtain ⟨q,hq,hsettles⟩ := exists_classified h
  rw [hsettles.kept]
  exact (classified_unsettled hq).ownerSide

theorem inverse_oneToMany_iff (h : r ∈ (ofCatalog s c).relationships)
    (hkind : r.kind = .oneToMany) : r.ownerSide = false ↔ r.mappedBy.isSome = true := by
  rw [ownerSide_eq h,hkind]
  simp [RelationKind.ownsLink,RelationKind.canBeInverse]

theorem covers_remove_eq (h : r ∈ (ofCatalog s c).relationships)
    (hadvised : r.cascadeExplicit = false) : r.cascade.covers .remove =
      (CascadeAdvice.passesRemoval r.kind r.ownerSide r.bidirectional && !r.circular) := by
  obtain ⟨q,-,hsettles⟩ := exists_classified h
  have hexplicit : q.cascadeExplicit = r.cascadeExplicit := by rw [hsettles.kept]
  rw [hsettles.advised (hexplicit.trans hadvised)]
  exact CascadeAdvice.suggest_covers_remove _ _ _ _

theorem advisesRemoval_iff (h : r ∈ (ofCatalog s c).relationships) :
    r.AdvisesRemoval ↔ r.MayRemove ∧ r.circular = false := by
  constructor
  · rintro ⟨hadvised,hcovers⟩
    rw [covers_remove_eq h hadvised,Bool.and_eq_true,Bool.not_eq_true'] at hcovers
    exact ⟨⟨hadvised,hcovers.1⟩,hcovers.2⟩
  · rintro ⟨⟨hadvised,hpasses⟩,hcircular⟩
    refine ⟨hadvised,?_⟩
    rw [covers_remove_eq h hadvised,hpasses,hcircular]
    rfl

theorem advisesRemoval_inverse_iff (h : r ∈ (ofCatalog s c).relationships)
    (hinverse : r.ownerSide = false) : r.AdvisesRemoval ↔ r.cascadeExplicit = false ∧
      r.kind = .oneToMany ∧ r.bidirectional = false ∧ r.circular = false := by
  have howns : r.kind.ownsLink r.mappedBy = false := (ownerSide_eq h).symm.trans hinverse
  rw [advisesRemoval_iff h,MayRemove,hinverse,CascadeAdvice.passesRemoval_inverse howns,
    Bool.and_eq_true,Bool.not_eq_true',beq_iff_eq,and_assoc,and_assoc]

end Settled

/-- Default cascade sets hold removals back on cycles and inverse sides exactly when every
one-to-many that names its owner, and gets its set by default, found a partner or a cycle. -/
theorem removal_held_back_iff {cancelled : Bool} {s : Settings} {c : Catalog} {a : Analysis}
    (h : run cancelled s c = .ok a) :
    (∀ r ∈ a.relationships, r.cascadeExplicit = false → r.circular = true ∨ r.ownerSide = false →
      r.cascade.covers .remove = false) ↔
    ∀ r ∈ a.relationships, r.cascadeExplicit = false → r.kind = .oneToMany →
      r.mappedBy.isSome = true → r.bidirectional = true ∨ r.circular = true := by
  obtain rfl := eq_of_run h
  constructor
  · intro hheld r hr hadvised hkind hnamed
    have hinverse := (inverse_oneToMany_iff hr hkind).mpr hnamed
    have hcovers := hheld r hr hadvised (.inr hinverse)
    by_contra hfree
    obtain ⟨hunpaired,hmarked⟩ := not_or.mp hfree
    have hadvises := (advisesRemoval_inverse_iff hr hinverse).mpr
      ⟨hadvised,hkind,eq_false_of_ne_true hunpaired,eq_false_of_ne_true hmarked⟩
    exact Bool.false_ne_true (hcovers.symm.trans hadvises.2)
  · intro hpaired r hr hadvised hcase
    apply eq_false_of_ne_true
    intro hcovers
    have hoff := ((advisesRemoval_iff hr).mp ⟨hadvised,hcovers⟩).2
    have hinverse := hcase.resolve_left (ne_true_of_eq_false hoff)
    obtain ⟨-,hkind,hunpaired,-⟩ := (advisesRemoval_inverse_iff hr hinverse).mp ⟨hadvised,hcovers⟩
    have hnamed := (inverse_oneToMany_iff hr hkind).mp hinverse
    rcases hpaired r hr hadvised hkind hnamed with hbi | hcircular
    · exact ne_true_of_eq_false hunpaired hbi
    · exact ne_true_of_eq_false hoff hcircular

/-- A badge that names as its owner a field that no holder has. -/
def unownedBadge : Catalog :=
  .ofList [
    { name := "Badge", fields := [
      { name := "holder", type := "Holder",
        annotations := [⟨"OneToOne","mappedBy = \"badge\""⟩] }] },
    { name := "Holder" }]

theorem unownedBadge_held_back : run false {} unownedBadge = .ok (ofCatalog {} unownedBadge) ∧
    (∃ r ∈ (ofCatalog {} unownedBadge).relationships,
      r.cascadeExplicit = false ∧ r.ownerSide = false) ∧
    ∀ r ∈ (ofCatalog {} unownedBadge).relationships, r.cascadeExplicit = false →
      r.circular = true ∨ r.ownerSide = false → r.cascade.covers .remove = false := by
  have hrun : run false {} unownedBadge = .ok (ofCatalog {} unownedBadge) := rfl
  refine ⟨hrun,by decide +kernel,(removal_held_back_iff hrun).mpr ?_⟩
  decide +kernel

/-- A department whose employees have no field for it. -/
def unownedDepartment : Catalog :=
  .ofList [
    { name := "Department", fields := [
      { name := "employees", type := "List<Employee>",
        annotations := [⟨"OneToMany","mappedBy = \"department\""⟩] }] },
    { name := "Employee" }]

/-- A department that names an owner in vain still passes its removal on. -/
theorem removal_not_held_back : ¬ ∀ (cancelled : Bool) (s : Settings) (c : Catalog) (a : Analysis),
    run cancelled s c = .ok a → ∀ r ∈ a.relationships, r.cascadeExplicit = false →
      r.circular = true ∨ r.ownerSide = false → r.cascade.covers .remove = false := by
  intro hall
  have hheld := hall false {} unownedDepartment _ rfl
  have hpasses : ∃ r ∈ (ofCatalog {} unownedDepartment).relationships,
      r.cascadeExplicit = false ∧ r.ownerSide = false ∧ r.cascade.covers .remove = true := by
    decide +kernel
  obtain ⟨r,hr,hadvised,hinverse,hcovers⟩ := hpasses
  exact Bool.false_ne_true ((hheld r hr hadvised (.inr hinverse)).symm.trans hcovers)

end Analysis

end EntityLink
