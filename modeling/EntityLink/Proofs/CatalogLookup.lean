import EntityLink.Catalog
import EntityLink.Distinct
import Mathlib.Data.List.Induction
import Mathlib.Data.List.Nodup

namespace EntityLink
open Text

namespace Catalog

/-- The last declaration under a name. -/
def lastNamed? (es : List Entity) (name : String) : Option Entity :=
  (es.filter (·.name == name)).getLast?

/-- A name is the only one that is declared among those with this simple name. -/
def OnlyWithSimple (es : List Entity) (simple name : String) : Prop :=
  (name ∈ es.map Entity.name ∧ simpleName name = simple) ∧
    ∀ n ∈ es.map Entity.name, simpleName n = simple → n = name

variable {c : Catalog} {e : Entity} {es : List Entity} {name type : String}

section Declarations

theorem lastNamed?_append_singleton (es : List Entity) (e : Entity) (name : String) :
    lastNamed? (es ++ [e]) name = if e.name = name then some e else lastNamed? es name := by
  rw [lastNamed?,List.filter_append]
  by_cases h : e.name = name
  · simp [h]
  · simp [h,lastNamed?]

theorem exists_lastNamed (he : e ∈ es) (hname : e.name = name) :
    ∃ d, lastNamed? es name = some d := by
  have hmem : e ∈ es.filter (·.name == name) := List.mem_filter.mpr ⟨he,beq_iff_eq.mpr hname⟩
  exact ⟨_,List.getLast?_eq_some_getLast (List.ne_nil_of_mem hmem)⟩

theorem mem_of_lastNamed? (h : lastNamed? es name = some e) : e ∈ es ∧ e.name = name := by
  obtain ⟨hmem,hname⟩ := List.mem_filter.mp (List.mem_of_getLast? h)
  exact ⟨hmem,beq_iff_eq.mp hname⟩

theorem find?_declare (e : Entity) (ds : List Entity) (name : String) :
    (declare e ds).find? (·.name == name) =
      if e.name = name then some e else ds.find? (·.name == name) := by
  induction ds with
  | nil => by_cases h : e.name = name <;> simp [declare,h]
  | cons d ds ih =>
    rw [declare]
    by_cases hd : d.name = e.name
    · rw [if_pos hd]
      by_cases h : e.name = name
      · simp [h]
      · simp [h,hd]
    · rw [if_neg hd,List.find?_cons,ih]
      by_cases h : e.name = name
      · have hother : d.name ≠ name := h ▸ hd
        simp [h,beq_false_of_ne hother]
      · simp only [if_neg h,List.find?_cons]

theorem names_declare (e : Entity) (ds : List Entity) :
    (declare e ds).map Entity.name =
      if e.name ∈ ds.map Entity.name then ds.map Entity.name
      else ds.map Entity.name ++ [e.name] := by
  induction ds with
  | nil => rfl
  | cons d ds ih =>
    rw [declare]
    by_cases hd : d.name = e.name
    · simp [hd]
    · rw [if_neg hd,List.map_cons,ih,List.map_cons]
      by_cases h : e.name ∈ ds.map Entity.name
      · rw [if_pos h,if_pos (List.mem_cons_of_mem _ h)]
      · rw [if_neg h,if_neg (by simpa [Ne.symm hd] using h),List.cons_append]

theorem ofList_append_singleton (es : List Entity) (e : Entity) :
    ofList (es ++ [e]) = (ofList es).insert e := by
  rw [ofList,List.foldl_append]
  rfl

/-- Under each name the last declaration is found. -/
theorem find?_ofList (es : List Entity) (name : String) :
    (ofList es).find? name = lastNamed? es name := by
  induction es using List.reverseRecOn with
  | nil => rfl
  | append_singleton es e ih =>
    rw [ofList_append_singleton,lastNamed?_append_singleton,← ih]
    exact find?_declare e (ofList es).entities name

/-- The names are in the order in which they first came. -/
theorem names_ofList (es : List Entity) :
    (ofList es).entities.map Entity.name = distinct (es.map Entity.name) := by
  induction es using List.reverseRecOn with
  | nil => rfl
  | append_singleton es e ih =>
    rw [ofList_append_singleton,List.map_append,List.map_singleton,distinct_append_singleton,← ih]
    have hmem : e.name ∈ es.map Entity.name ↔ e.name ∈ (ofList es).entities.map Entity.name := by
      rw [ih,mem_distinct]
    simp only [hmem]
    exact names_declare e (ofList es).entities

end Declarations

section Lookup

theorem find?_of_mem (he : e ∈ c.entities) : c.find? e.name = some e := by
  obtain ⟨d,hd⟩ : ∃ d, c.entities.find? (·.name == e.name) = some d :=
    Option.isSome_iff_exists.mp (List.find?_isSome.mpr ⟨e,he,beq_self_eq_true e.name⟩)
  have hname : d.name = e.name := by simpa using List.find?_some hd
  rw [find?,hd,List.inj_on_of_nodup_map c.nodup (List.mem_of_find?_eq_some hd) he hname]

/-- A simple name is enough where no other type has it. -/
theorem bySimple?_eq_some_iff : c.bySimple? name = some e ↔
    (e ∈ c.entities ∧ e.simple = name) ∧ ∀ d ∈ c.entities, d.simple = name → d = e := by
  have hmem : ∀ d, d ∈ c.entities.filter (·.simple == name) ↔ d ∈ c.entities ∧ d.simple = name := by
    intro d
    rw [List.mem_filter,beq_iff_eq]
  have hnodup : (c.entities.filter (·.simple == name)).Nodup := (c.nodup.of_map _).filter _
  constructor
  · intro h
    unfold bySimple? at h
    split at h
    · rename_i d hd
      cases h
      rw [hd] at hmem
      exact ⟨(hmem e).mp (List.mem_singleton_self e),
        fun d hd hname => List.mem_singleton.mp ((hmem d).mpr ⟨hd,hname⟩)⟩
    · cases h
  · rintro ⟨he,honly⟩
    have hone : c.entities.filter (·.simple == name) = [e] := by
      apply List.perm_singleton.mp
      refine (List.perm_ext_iff_of_nodup hnodup (List.nodup_singleton e)).mpr (fun d => ?_)
      rw [hmem,List.mem_singleton]
      exact ⟨fun hd => honly d hd.1 hd.2,fun hd => hd ▸ he⟩
    rw [bySimple?,hone]

theorem resolve?_of_find? (h : c.find? (trim type) = some e) :
    c.resolve? type = if e.kind = .entity then some (trim type) else none := by
  have hname : e.name = trim type := by simpa using List.find?_some h
  rw [resolve?,h,Option.some_or]
  by_cases hkind : e.kind = .entity
  · simp [hkind,hname]
  · simp [hkind]

theorem resolve?_of_not_found (h : c.find? (trim type) = none) :
    c.resolve? type = some name ↔
      ∃ e, c.bySimple? (trim type) = some e ∧ e.kind = .entity ∧ e.name = name := by
  rw [resolve?,h,Option.none_or]
  simp only [Option.map_eq_some_iff,Option.filter_eq_some_iff,beq_iff_eq,and_assoc]

/-- By its simple name alone a type is meant when there is just one such name. -/
theorem bySimple?_ofList {simple : String} :
    (ofList es).bySimple? simple = some e ↔
      OnlyWithSimple es simple e.name ∧ lastNamed? es e.name = some e := by
  have hnames : ∀ n, n ∈ (ofList es).entities.map Entity.name ↔ n ∈ es.map Entity.name := by
    intro n
    rw [names_ofList,mem_distinct]
  rw [bySimple?_eq_some_iff,← find?_ofList]
  constructor
  · rintro ⟨⟨he,hsimple⟩,honly⟩
    refine ⟨⟨⟨(hnames _).mp (List.mem_map_of_mem he),hsimple⟩,fun n hn hs => ?_⟩,find?_of_mem he⟩
    obtain ⟨d,hd,rfl⟩ := List.mem_map.mp ((hnames n).mpr hn)
    rw [honly d hd hs]
  · rintro ⟨⟨⟨-,hsimple⟩,honly⟩,hfound⟩
    refine ⟨⟨List.mem_of_find?_eq_some hfound,hsimple⟩,fun d hd hs => ?_⟩
    have hname := honly d.name ((hnames _).mp (List.mem_map_of_mem hd)) hs
    have hd' := find?_of_mem hd
    rw [hname,hfound] at hd'
    exact (Option.some.inj hd').symm

end Lookup

/-- A catalog has each declared name once, where it first came and as it was last declared. A type
name that is declared means that declaration, if it is an entity. Any other means the entity whose
simple name it is, if no other declared name has that. -/
theorem resolve_ofList (es : List Entity) :
    (ofList es).entities.map Entity.name = distinct (es.map Entity.name) ∧
    ((ofList es).entities.map Entity.name).Nodup ∧
    (∀ e ∈ (ofList es).entities, lastNamed? es e.name = some e) ∧
    ∀ type, ((∃ e ∈ es, e.name = trim type) → ∃ d, lastNamed? es (trim type) = some d ∧
        (ofList es).resolve? type = if d.kind = .entity then some (trim type) else none) ∧
      ((∀ e ∈ es, e.name ≠ trim type) → ∀ name, (ofList es).resolve? type = some name ↔
        OnlyWithSimple es (trim type) name ∧
          ∃ d, lastNamed? es name = some d ∧ d.kind = .entity) := by
  refine ⟨names_ofList es,(ofList es).nodup,fun e he => ?_,fun type => ⟨?_,?_⟩⟩
  · rw [← find?_ofList]
    exact find?_of_mem he
  · rintro ⟨e,he,hname⟩
    obtain ⟨d,hd⟩ := exists_lastNamed he hname
    exact ⟨d,hd,resolve?_of_find? ((find?_ofList es _).trans hd)⟩
  · intro hnone name
    have hmissing : (ofList es).find? (trim type) = none := by
      rw [find?_ofList,Option.eq_none_iff_forall_ne_some]
      intro d hd
      exact hnone d (mem_of_lastNamed? hd).1 (mem_of_lastNamed? hd).2
    rw [resolve?_of_not_found hmissing]
    constructor
    · rintro ⟨e,he,hkind,rfl⟩
      obtain ⟨honly,hlast⟩ := bySimple?_ofList.mp he
      exact ⟨honly,e,hlast,hkind⟩
    · rintro ⟨honly,d,hlast,hkind⟩
      obtain ⟨-,rfl⟩ := mem_of_lastNamed? hlast
      exact ⟨d,bySimple?_ofList.mpr ⟨honly,hlast⟩,hkind,rfl⟩

/-- Accounts of two packages, and orders that are declared again as an entity. -/
def accounts : List Entity := [
  { name := "com.billing.Account" },
  { name := "com.billing.Order", kind := .mappedSuperclass },
  { name := "com.auth.Account", kind := .embeddable },
  { name := "com.billing.Order" }]

/-- Accounts have to be told apart by their packages, orders do not. -/
theorem resolve_ofList_accounts :
    (∃ e ∈ accounts, e.name = trim " com.auth.Account") ∧
    (∀ e ∈ accounts, e.name ≠ trim "Account") ∧ (∀ e ∈ accounts, e.name ≠ trim "Order ") ∧
    (ofList accounts).resolve? " com.auth.Account" = none ∧
    (∀ name, (ofList accounts).resolve? "Account" ≠ some name) ∧
    (ofList accounts).resolve? "Order " = some "com.billing.Order" := by
  have hqualified : ∃ e ∈ accounts, e.name = trim " com.auth.Account" := by decide
  have haccount : ∀ e ∈ accounts, e.name ≠ trim "Account" := by decide
  have horder : ∀ e ∈ accounts, e.name ≠ trim "Order " := by decide
  obtain ⟨-,-,-,hresolve⟩ := resolve_ofList accounts
  refine ⟨hqualified,haccount,horder,?_,fun name hname => ?_,?_⟩
  · obtain ⟨d,hlast,hd⟩ := (hresolve " com.auth.Account").1 hqualified
    have hkind : d.kind = .embeddable := by
      have hfound : lastNamed? accounts (trim " com.auth.Account") =
          some { name := "com.auth.Account", kind := .embeddable } := by decide
      rw [Option.some.inj (hlast.symm.trans hfound)]
    rw [hd,hkind]
    rfl
  · obtain ⟨⟨-,honly⟩,-⟩ := ((hresolve "Account").2 haccount name).mp hname
    have hbilling := honly "com.billing.Account" (by decide) (by decide)
    have hauth := honly "com.auth.Account" (by decide) (by decide)
    exact absurd (hbilling.trans hauth.symm) (by decide)
  · refine ((hresolve "Order ").2 horder _).mpr ⟨⟨by decide,by decide⟩,?_⟩
    exact ⟨{ name := "com.billing.Order" },by decide,rfl⟩

end Catalog

end EntityLink
