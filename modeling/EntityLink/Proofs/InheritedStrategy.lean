import EntityLink.Proofs.CatalogLookup
import EntityLink.Proofs.WellFormedRelationships
import Mathlib.Data.List.Chain
import Mathlib.Data.List.Perm.Subperm

namespace EntityLink.Catalog

variable {c : Catalog} {d e p : Entity} {ds : List Entity} {visited : List String}

/-- The superclass that one type names is this other one, an entity of the catalog. -/
def Extends (c : Catalog) (d p : Entity) : Prop :=
  p ∈ c.entities ∧ c.superclass? d = some p.name

/-- A way up from superclass to superclass that comes to no name twice. -/
structure Ascends (c : Catalog) (ds : List Entity) : Prop where
  linked : ds.IsChain c.Extends
  nodup : (ds.map Entity.name).Nodup

/-- An annotation is the first on a way up from an entity that declares inheritance. -/
def Inherits (c : Catalog) (e : Entity) (a : AnnotationText) : Prop :=
  ∃ ds d, c.Ascends (ds ++ [d]) ∧ (ds ++ [d]).head? = some e ∧
    d.annotated? "Inheritance" = some a ∧ ∀ p ∈ ds, p.annotated? "Inheritance" = none

section Superclass

theorem parent?_eq_some_iff : c.parent? d = some p ↔ c.Extends d p := by
  rw [parent?,Option.bind_eq_some_iff]
  constructor
  · rintro ⟨name,hname,hfound⟩
    have hp : p.name = name := by simpa using List.find?_some hfound
    exact ⟨List.mem_of_find?_eq_some hfound,hp ▸ hname⟩
  · rintro ⟨hmem,hname⟩
    exact ⟨p.name,hname,find?_of_mem hmem⟩

theorem exists_extends_iff : (∃ p, c.Extends d p) ↔ (c.superclass? d).isSome = true := by
  constructor
  · rintro ⟨p,-,hname⟩
    rw [hname]
    rfl
  · intro h
    obtain ⟨name,hname⟩ := Option.isSome_iff_exists.mp h
    obtain ⟨type,-,hresolve⟩ := Option.bind_eq_some_iff.mp hname
    obtain ⟨p,hp,-,rfl⟩ := hasEntity_of_resolve hresolve
    exact ⟨p,hp,hname⟩

end Superclass

section Ascent

theorem ascends_singleton (e : Entity) : c.Ascends [e] :=
  ⟨List.isChain_singleton e,List.nodup_singleton e.name⟩

theorem ascends_cons_cons : c.Ascends (e :: p :: ds) ↔
    c.Extends e p ∧ e.name ∉ (p :: ds).map Entity.name ∧ c.Ascends (p :: ds) := by
  constructor
  · rintro ⟨hlinked,hnodup⟩
    obtain ⟨hep,hlinked⟩ := List.isChain_cons_cons.mp hlinked
    obtain ⟨hnew,hnodup⟩ := List.nodup_cons.mp hnodup
    exact ⟨hep,hnew,hlinked,hnodup⟩
  · rintro ⟨hep,hnew,hlinked,hnodup⟩
    exact ⟨List.isChain_cons_cons.mpr ⟨hep,hlinked⟩,List.nodup_cons.mpr ⟨hnew,hnodup⟩⟩

/-- All but the first of a way up are entities of the catalog, each once. -/
theorem Ascends.length_le (h : c.Ascends (e :: ds)) : ds.length ≤ c.entities.length := by
  have hmem : ∀ {ds : List Entity} {e : Entity}, (e :: ds).IsChain c.Extends →
      ∀ p ∈ ds, p ∈ c.entities := by
    intro ds
    induction ds with
    | nil => exact fun _ p hp => absurd hp List.not_mem_nil
    | cons q ds ih =>
      intro e hlinked
      obtain ⟨heq,hlinked⟩ := List.isChain_cons_cons.mp hlinked
      exact List.forall_mem_cons.mpr ⟨heq.1,ih hlinked⟩
  have hnodup : ds.Nodup := (List.nodup_cons.mp (h.nodup.of_map Entity.name)).2
  exact (hnodup.subperm (hmem h.linked)).length_le

/-- A lineage goes on with the superclass, unless that name has come before. -/
theorem lineageFrom_eq (c : Catalog) (visited : List String) (e : Entity) :
    c.lineageFrom visited e = e :: (c.parent? e).elim [] (fun p =>
      if p.name ∈ e.name :: visited then [] else c.lineageFrom (e.name :: visited) p) := by
  rw [lineageFrom]
  split
  · rename_i hnone
    rw [hnone,Option.elim_none]
  · rename_i p hp
    rw [hp,Option.elim_some]

theorem cons_cons_prefix_lineageFrom_iff : e :: p :: ds <+: c.lineageFrom visited e ↔
    c.Extends e p ∧ p.name ∉ e.name :: visited ∧
      p :: ds <+: c.lineageFrom (e.name :: visited) p := by
  rw [lineageFrom_eq,List.cons_prefix_cons,eq_self_iff_true,true_and,← parent?_eq_some_iff]
  cases c.parent? e with
  | none => simp
  | some q =>
    rw [Option.elim_some,Option.some_inj]
    constructor
    · intro hbegins
      split at hbegins
      · exact absurd (List.prefix_nil.mp hbegins) (List.cons_ne_nil p ds)
      · rename_i hnew
        obtain rfl : p = q := by
          rw [lineageFrom_eq] at hbegins
          exact (List.cons_prefix_cons.mp hbegins).1
        exact ⟨rfl,hnew,hbegins⟩
    · rintro ⟨rfl,hnew,hbegins⟩
      rwa [if_neg hnew]

/-- A lineage goes as far up as it can without a name that has come before: its beginnings are
the ways up from there that avoid these names. -/
theorem prefix_lineageFrom_iff : e :: ds <+: c.lineageFrom visited e ↔
    c.Ascends (e :: ds) ∧ ∀ p ∈ ds, p.name ∉ visited := by
  induction ds generalizing e visited with
  | nil =>
    rw [lineageFrom_eq,List.cons_prefix_cons]
    simp [ascends_singleton]
  | cons p ds ih =>
    have hnames : (p.name ∉ e.name :: visited ∧ ∀ q ∈ ds, q.name ∉ e.name :: visited) ↔
        e.name ∉ (p :: ds).map Entity.name ∧ ∀ q ∈ p :: ds, q.name ∉ visited := by
      rw [← List.forall_mem_cons (p := fun q : Entity => q.name ∉ e.name :: visited)]
      simp only [List.mem_cons,List.mem_map,not_or,not_exists,not_and,forall_and,ne_comm]
    rw [cons_cons_prefix_lineageFrom_iff,ih,ascends_cons_cons]
    tauto

theorem prefix_lineage_iff : e :: ds <+: c.lineage e ↔ c.Ascends (e :: ds) := by
  rw [lineage,prefix_lineageFrom_iff]
  exact and_iff_left (fun _ _ => List.not_mem_nil)

theorem exists_lineage_eq (c : Catalog) (e : Entity) : ∃ ds, c.lineage e = e :: ds :=
  ⟨_,lineageFrom_eq c [] e⟩

theorem prefix_lineage_iff_of_ne_nil (hne : ds ≠ []) :
    ds <+: c.lineage e ↔ c.Ascends ds ∧ ds.head? = some e := by
  obtain ⟨d,ds,rfl⟩ := List.exists_cons_of_ne_nil hne
  constructor
  · intro hbegins
    obtain ⟨rest,hrest⟩ := exists_lineage_eq c e
    obtain rfl : d = e := by
      rw [hrest] at hbegins
      exact (List.cons_prefix_cons.mp hbegins).1
    exact ⟨prefix_lineage_iff.mp hbegins,rfl⟩
  · rintro ⟨hup,hd⟩
    obtain rfl := Option.some.inj hd
    exact prefix_lineage_iff.mpr hup

end Ascent

section Strategy

variable {a : AnnotationText}

/-- The first declaration in a lineage is the first on a way up. -/
theorem findSome?_lineage_iff :
    (c.lineage e).findSome? (·.annotated? "Inheritance") = some a ↔ c.Inherits e a := by
  have hup : ∀ {before : List Entity} {d : Entity}, before ++ [d] <+: c.lineage e ↔
      c.Ascends (before ++ [d]) ∧ (before ++ [d]).head? = some e :=
    prefix_lineage_iff_of_ne_nil (List.append_ne_nil_of_right_ne_nil _ (List.cons_ne_nil _ []))
  rw [List.findSome?_eq_some_iff]
  constructor
  · rintro ⟨before,d,after,hsplit,hd,hbefore⟩
    rw [List.append_cons] at hsplit
    obtain ⟨hascends,hfirst⟩ := hup.mp ⟨after,hsplit.symm⟩
    exact ⟨before,d,hascends,hfirst,hd,hbefore⟩
  · rintro ⟨before,d,hascends,hfirst,hd,hbefore⟩
    obtain ⟨after,hsplit⟩ := hup.mpr ⟨hascends,hfirst⟩
    rw [← List.append_cons] at hsplit
    exact ⟨before,d,after,hsplit.symm,hd,hbefore⟩

theorem inheritanceStrategy_of_inherits (h : c.Inherits e a) : c.inheritanceStrategy e =
    ((a.attributes.raw? "strategy").bind InheritanceStrategy.parse?).getD .singleTable := by
  rw [inheritanceStrategy,findSome?_lineage_iff.mpr h,Option.bind_some]

theorem inheritanceStrategy_of_none (h : ∀ a, ¬ c.Inherits e a) :
    c.inheritanceStrategy e = .singleTable := by
  have hnone : (c.lineage e).findSome? (·.annotated? "Inheritance") = none := by
    rw [Option.eq_none_iff_forall_ne_some]
    exact fun a ha => h a (findSome?_lineage_iff.mp ha)
  rw [inheritanceStrategy,hnone]
  rfl

end Strategy

section Link

variable {r : Relationship}

theorem isSome_inheritanceLink? : (∃ r, c.inheritanceLink? e = some r) ↔
    (∃ a, e.annotated? "Inheritance" = some a) ∨ ∃ p, c.Extends e p := by
  rw [exists_extends_iff,← Option.isSome_iff_exists,← Option.isSome_iff_exists,← Bool.or_eq_true,
    inheritanceLink?]
  split
  · rename_i h
    exact iff_of_true rfl h
  · rename_i h
    exact iff_of_false Bool.false_ne_true h

theorem of_inheritanceLink? (h : c.inheritanceLink? e = some r) :
    r.source = e.name ∧ r.kind = .inheritance ∧ r.target = (c.superclass? e).getD "" ∧
      ∃ i, r.inheritance = some i ∧ i.strategy = c.inheritanceStrategy e ∧
        i.declaredHere = (e.annotated? "Inheritance").isSome := by
  obtain ⟨-,h⟩ := Option.ite_none_right_eq_some.mp h
  obtain rfl := Option.some.inj h
  exact ⟨rfl,rfl,rfl,_,rfl,rfl,rfl⟩

/-- The lineage of an entity ends in every catalog, also where superclasses lead round: it has one
more member than the catalog at most, and its beginnings are the ways up that come to no name
twice. An entity has an inheritance link when it declares inheritance or extends an entity, which
is the target then. The strategy is that of the first declaration on the way up, and single-table
where that tells none or there is none. -/
theorem inheritanceLink_of_lineage (c : Catalog) (e : Entity) :
    ((∃ ds, c.lineage e = e :: ds ∧ ds.length ≤ c.entities.length) ∧
      ∀ ds, e :: ds <+: c.lineage e ↔ c.Ascends (e :: ds)) ∧
    ((∃ r, c.inheritanceLink? e = some r) ↔
      (∃ a, e.annotated? "Inheritance" = some a) ∨ ∃ p, c.Extends e p) ∧
    ∀ r, c.inheritanceLink? e = some r →
      r.source = e.name ∧ r.kind = .inheritance ∧
      (∀ p, c.Extends e p → r.target = p.name) ∧ ((∀ p, ¬ c.Extends e p) → r.target = "") ∧
      ∃ i, r.inheritance = some i ∧
        (i.declaredHere = true ↔ ∃ a, e.annotated? "Inheritance" = some a) ∧
        (∀ a, c.Inherits e a → i.strategy =
          ((a.attributes.raw? "strategy").bind InheritanceStrategy.parse?).getD .singleTable) ∧
        ((∀ a, ¬ c.Inherits e a) → i.strategy = .singleTable) := by
  refine ⟨⟨?_,fun _ => prefix_lineage_iff⟩,isSome_inheritanceLink?,fun r hr => ?_⟩
  · obtain ⟨ds,hds⟩ := exists_lineage_eq c e
    have hup : c.Ascends (e :: ds) := prefix_lineage_iff.mp (hds ▸ List.prefix_rfl)
    exact ⟨ds,hds,hup.length_le⟩
  · obtain ⟨hsource,hkind,htarget,i,hi,hstrategy,hdeclared⟩ := of_inheritanceLink? hr
    refine ⟨hsource,hkind,?_,?_,i,hi,?_,?_,?_⟩
    · intro p hp
      rw [htarget,hp.2,Option.getD_some]
    · intro hnone
      have hsuper : c.superclass? e = none := by
        by_contra h
        obtain ⟨p,hp⟩ := exists_extends_iff.mpr (Option.isSome_iff_ne_none.mpr h)
        exact hnone p hp
      rw [htarget,hsuper,Option.getD_none]
    · rw [hdeclared,Option.isSome_iff_exists]
    · exact fun a ha => hstrategy.trans (inheritanceStrategy_of_inherits ha)
    · exact fun hnone => hstrategy.trans (inheritanceStrategy_of_none hnone)

/-- Managers are employees, employees are persons, and persons are managers again. Only employees
declare inheritance. -/
def employee : Entity where
  name := "Employee"
  superclass := some "Person"
  annotations := [⟨"Inheritance","strategy = InheritanceType.JOINED"⟩]

def manager : Entity where
  name := "Manager"
  superclass := some "Employee"

def person : Entity where
  name := "Person"
  superclass := some "Manager"

/-- A type that names itself as its superclass. -/
def folder : Entity where
  name := "Folder"
  superclass := some "Folder"

def roundabout : Catalog :=
  .ofList [manager,employee,person,folder]

/-- Persons get the strategy of employees by way of managers, and folders none from themselves. -/
theorem roundabout_inheritance :
    (∃ r i, roundabout.inheritanceLink? person = some r ∧ r.inheritance = some i ∧
      roundabout.Extends person manager ∧ r.target = "Manager" ∧ i.declaredHere = false ∧
      roundabout.Inherits person ⟨"Inheritance","strategy = InheritanceType.JOINED"⟩ ∧
      i.strategy = .joined) ∧
    ∃ r i, roundabout.inheritanceLink? folder = some r ∧ r.inheritance = some i ∧
      (∀ a, ¬ roundabout.Inherits folder a) ∧ i.strategy = .singleTable := by
  have hmanager : roundabout.Extends person manager := ⟨by decide,by decide⟩
  have hemployee : roundabout.Extends manager employee := ⟨by decide,by decide⟩
  have hjoined : roundabout.Inherits person
      ⟨"Inheritance","strategy = InheritanceType.JOINED"⟩ := by
    refine ⟨[person,manager],employee,⟨?_,by decide⟩,rfl,by decide,by decide⟩
    exact List.isChain_cons_cons.mpr ⟨hmanager,List.isChain_pair.mpr hemployee⟩
  have hnone : ∀ a, ¬ roundabout.Inherits folder a := by
    have hlineage : roundabout.lineage folder = [folder] := by
      have hparent : roundabout.parent? folder = some folder := by decide
      rw [lineage,lineageFrom_eq,hparent,Option.elim_some,if_pos (by decide)]
    intro a
    rw [← findSome?_lineage_iff,hlineage]
    exact (Option.some_ne_none a).symm
  constructor
  · obtain ⟨-,hlinked,hlink⟩ := inheritanceLink_of_lineage roundabout person
    obtain ⟨r,hr⟩ := hlinked.mpr (.inr ⟨manager,hmanager⟩)
    obtain ⟨-,-,htarget,-,i,hi,hdeclared,hstrategy,-⟩ := hlink r hr
    have hhere : i.declaredHere = false := by
      rw [← Bool.not_eq_true,hdeclared]
      exact fun ⟨a,ha⟩ => Option.some_ne_none a ha.symm
    refine ⟨r,i,hr,hi,hmanager,htarget manager hmanager,hhere,hjoined,?_⟩
    rw [hstrategy _ hjoined]
    decide
  · obtain ⟨-,hlinked,hlink⟩ := inheritanceLink_of_lineage roundabout folder
    obtain ⟨r,hr⟩ := hlinked.mpr (.inr ⟨folder,by decide,by decide⟩)
    obtain ⟨-,-,-,-,i,hi,-,-,hsingle⟩ := hlink r hr
    exact ⟨r,i,hr,hi,hnone,hsingle hnone⟩

end Link

end EntityLink.Catalog
