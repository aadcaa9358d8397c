import EntityLink.Entity

namespace EntityLink
open Text

/-- The persistent types that one analysis knows, in order of declaration, each under its own
qualified name. -/
structure Catalog where
  entities : List Entity
  nodup : (entities.map Entity.name).Nodup

namespace Catalog

/-- A name declared again takes the place of its earlier declaration. -/
def declare (e : Entity) : List Entity → List Entity
  | [] => [e]
  | d :: ds => if d.name = e.name then e :: ds else d :: declare e ds

theorem mem_names_declare {e : Entity} {ds : List Entity} {n : String} :
    n ∈ (declare e ds).map Entity.name ↔ n = e.name ∨ n ∈ ds.map Entity.name := by
  induction ds with
  | nil => simp [declare]
  | cons d ds ih =>
    simp only [declare]
    split
    next h =>
      simp only [List.map_cons,List.mem_cons,h]
      exact ⟨fun h => Or.elim h .inl (fun h => .inr (.inr h)),
        fun h => h.elim .inl (fun h => h.elim .inl .inr)⟩
    next h =>
      rw [List.map_cons,List.map_cons,List.mem_cons,List.mem_cons,ih]
      exact or_left_comm

theorem nodup_declare {e : Entity} {ds : List Entity} (h : (ds.map Entity.name).Nodup) :
    ((declare e ds).map Entity.name).Nodup := by
  induction ds with
  | nil => simp [declare]
  | cons d ds ih =>
    simp only [List.map_cons,List.nodup_cons] at h
    simp only [declare]
    split
    next he => simpa only [List.map_cons,List.nodup_cons,he] using he ▸ h
    next he =>
      simp only [List.map_cons,List.nodup_cons]
      refine ⟨fun hm => ?_,ih h.2⟩
      rcases mem_names_declare.mp hm with hn | hn
      · exact he hn
      · exact h.1 hn

def empty : Catalog :=
  ⟨[],List.nodup_nil⟩

def insert (c : Catalog) (e : Entity) : Catalog :=
  ⟨declare e c.entities,nodup_declare c.nodup⟩

def ofList (es : List Entity) : Catalog :=
  es.foldl insert empty

/-- The type declared under a qualified name. -/
def find? (c : Catalog) (name : String) : Option Entity :=
  c.entities.find? (·.name == name)

/-- The type with a simple name that no other type shares. -/
def bySimple? (c : Catalog) (name : String) : Option Entity :=
  match c.entities.filter (·.simple == name) with
  | [e] => some e
  | _ => none

/-- The qualified name of the entity that a type name means: a qualified name before a simple
one. A mapped superclass or an embeddable hides a name without being meant by it. -/
def resolve? (c : Catalog) (type : String) : Option String :=
  let name := trim type
  (((c.find? name).or (c.bySimple? name)).filter (·.kind == .entity)).map Entity.name

end Catalog

end EntityLink
