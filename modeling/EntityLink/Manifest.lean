import EntityLink.Catalog
import EntityLink.Toml

namespace EntityLink
open Datum

def AnnotationText.ofDatum (d : Datum) : Except Fault AnnotationText := do
  let text ← asText d
  match AnnotationText.parse? text with
  | some a => .ok a
  | none => .error (.badText text)

/-- A field as far as it has been read, with what it cannot do without. -/
structure Field.Draft where
  hasName : Bool := false
  hasType : Bool := false
  field : Field := { name := "", type := "" }

def Field.Draft.read (d : Field.Draft) (entry : String × Datum) : Except Fault Field.Draft :=
  match entry.1 with
  | "name" => do return { d with hasName := true, field.name := ← asText entry.2 }
  | "type" => do return { d with hasType := true, field.type := ← asText entry.2 }
  | "column" => do return { d with field.column := ← asText? entry.2 }
  | "nullable" => do return { d with field.nullable := ← asBool entry.2 }
  | "static" => do return { d with field.isStatic := ← asBool entry.2 }
  | "annotations" => do
    return { d with field.annotations := ← asList AnnotationText.ofDatum entry.2 }
  | "join_attributes" => do return { d with field.joinAttributes := ← asList asText entry.2 }
  | _ => .error .malformed

def Field.keys : List String :=
  ["name", "type", "column", "nullable", "static", "annotations", "join_attributes"]

/-- Reads a field descriptor; the first fault in the order of its entries is reported, and a
missing name or type after those. -/
def Field.ofDatum (d : Datum) : Except Fault Field := do
  let draft ← (← asRecord Field.keys d).foldlM Field.Draft.read {}
  if draft.hasName && draft.hasType then .ok draft.field else .error .malformed

def EntityKind.ofDatum : Datum → Except Fault EntityKind
  | .text "entity" => .ok .entity
  | .text "mapped_superclass" => .ok .mappedSuperclass
  | .text "embeddable" => .ok .embeddable
  | _ => .error .malformed

structure Entity.Draft where
  hasName : Bool := false
  entity : Entity := { name := "" }

def Entity.Draft.read (d : Entity.Draft) (entry : String × Datum) : Except Fault Entity.Draft :=
  match entry.1 with
  | "name" => do return { d with hasName := true, entity.name := ← asText entry.2 }
  | "kind" => do return { d with entity.kind := ← EntityKind.ofDatum entry.2 }
  | "table" => do return { d with entity.table := ← asText? entry.2 }
  | "superclass" => do return { d with entity.superclass := ← asText? entry.2 }
  | "annotations" => do
    return { d with entity.annotations := ← asList AnnotationText.ofDatum entry.2 }
  | "field" => do return { d with entity.fields := ← asList Field.ofDatum entry.2 }
  | _ => .error .malformed

def Entity.keys : List String :=
  ["name", "kind", "table", "superclass", "annotations", "field"]

def Entity.ofDatum (d : Datum) : Except Fault Entity := do
  let draft ← (← asRecord Entity.keys d).foldlM Entity.Draft.read {}
  if draft.hasName then .ok draft.entity else .error .malformed

/-- A manifest holds its entities under one key. -/
def Entity.ofManifest (entries : List (String × Datum)) : Except Fault (List Entity) :=
  entries.foldlM
    (fun _ e => if e.1 = "entity" then asList Entity.ofDatum e.2 else .error .malformed) []

/-- The catalog that the text of a manifest declares, unless it does not read as one. -/
def Catalog.parse? (text : String) : Option Catalog :=
  (Toml.parse? text).bind (fun es => ((Entity.ofManifest es).toOption).map Catalog.ofList)

end EntityLink
