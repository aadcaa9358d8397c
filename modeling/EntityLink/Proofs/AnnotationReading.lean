import EntityLink.Java.Printer
import EntityLink.Proofs.AnnotationGrammar
import EntityLink.Proofs.ArgumentText
import EntityLink.Relationship.Mapping

namespace EntityLink
open Text

namespace AnnotationText

/-- Names are words, with dots in them. -/
theorem not_mem_name {name : List Char} (h : isName isWord name = true) :
    ∀ c ∈ name, c ∉ Attributes.signs := by
  obtain ⟨-,-,-,-,hall⟩ := exists_of_isName isWord_wordClass h
  intro c hc hmem
  have hsigns : Attributes.signs.all (fun c => !continuesName isWord c) = true := by decide
  have hsign := List.all_eq_true.mp hsigns c hmem
  rw [hall c hc] at hsign
  cases hsign

end AnnotationText

namespace Java.AnnotationUse

/-- The text of the arguments in parentheses. -/
def argumentText (u : AnnotationUse) : String :=
  join ", " (u.arguments.map (fun p => p.1 ++ " = " ++ p.2))

/-- The annotation as a reader of the generated source finds it. -/
def asRead (u : AnnotationUse) : AnnotationText :=
  ⟨u.name,u.argumentText⟩

/-- An annotation that a reader finds complete: its name is one, and under distinct keys it has
values that keep to themselves. -/
structure Readable (u : AnnotationUse) : Prop where
  name : AnnotationText.isName isWord u.name.toList = true
  arguments : u.arguments ≠ []
  nodup : (u.arguments.map Prod.fst).Nodup
  key : ∀ k ∈ u.arguments.map Prod.fst, k ≠ "value" ∧ Attributes.isKey k.toList = true
  value : ∀ p ∈ u.arguments, Attributes.SelfContained p.2.toList

/-- It is enough to know all the keys that may come. -/
theorem Readable.of_sublist {name : String} {arguments : List (String × String)}
    {keys : List String} (hname : AnnotationText.isName isWord name.toList = true)
    (harguments : arguments ≠ []) (hsub : (arguments.map Prod.fst).Sublist keys)
    (hkeys : keys.Nodup ∧ ∀ k ∈ keys, k ≠ "value" ∧ Attributes.isKey k.toList = true)
    (hvalue : ∀ p ∈ arguments, Attributes.SelfContained p.2.toList) :
    (AnnotationUse.mk name arguments).Readable where
  name := hname
  arguments := harguments
  nodup := hkeys.1.sublist hsub
  key := fun k hk => hkeys.2 k (hsub.subset hk)
  value := hvalue

section Reading

variable {u : AnnotationUse}

/-- No key is `value`, so none is left out. -/
theorem Readable.render_eq (h : u.Readable) :
    u.render = "@" ++ u.name ++ "(" ++ u.argumentText ++ ")" := by
  obtain ⟨name,arguments⟩ := u
  match arguments with
  | [] => exact absurd rfl h.arguments
  | [(key,value)] =>
    have hkey : key ≠ "value" := (h.key key List.mem_cons_self).1
    simp only [render,if_neg hkey,argumentText,List.map_singleton,join]
  | p :: q :: ps => rfl

theorem Readable.selfContained_entry (h : u.Readable) :
    ∀ text ∈ u.arguments.map (fun p => p.1 ++ " = " ++ p.2),
      Attributes.SelfContained text.toList := by
  intro text htext
  obtain ⟨p,hp,rfl⟩ := List.mem_map.mp htext
  exact (h.value p hp).entry (h.key p.1 (List.mem_map_of_mem hp)).2

theorem Readable.toList_render (h : u.Readable) :
    u.render.toList = '@' :: (u.name.toList ++ ('(' :: u.argumentText.toList ++ [')'])) := by
  simp [h.render_eq]

/-- A rendered annotation is read with its name and all its arguments. -/
theorem Readable.parse?_render (h : u.Readable) :
    AnnotationText.parse? u.render = some u.asRead := by
  obtain ⟨-,htrim⟩ := Attributes.trimmed_join
    (mt List.map_eq_nil_iff.mp h.arguments) h.selfContained_entry
  have hgroup := AnnotationText.SpellsGroup.parenthesized u.argumentText.toList
  have hspells := AnnotationText.spells_tight isWord_wordClass h.name hgroup
  have harguments : trimChars u.argumentText.toList = u.argumentText.toList := htrim
  rw [← h.toList_render,harguments,String.ofList_toList,String.ofList_toList] at hspells
  exact (AnnotationText.parseWith?_eq_some_iff Matcher.backtracking_lawful).mpr hspells

theorem Readable.entries (h : u.Readable) : u.asRead.attributes.entries = u.arguments :=
  Attributes.entries_parse
    (fun p hp => ⟨(h.key p.1 (List.mem_map_of_mem hp)).2,h.value p hp⟩)

theorem Readable.raw?_of_mem (h : u.Readable) {key value : String}
    (hmem : (key,value) ∈ u.arguments) : u.asRead.attributes.raw? key = some value := by
  apply Attributes.raw?_of_mem
  · rw [h.entries]
    exact h.nodup
  · rw [h.entries]
    exact hmem

theorem Readable.raw?_of_not_mem (h : u.Readable) {key : String}
    (hmem : key ∉ u.arguments.map Prod.fst) : u.asRead.attributes.raw? key = none := by
  apply Attributes.raw?_of_not_mem
  rwa [h.entries]

/-- Rendered annotations may stand in a list of annotations. -/
theorem Readable.selfContained (h : u.Readable) : Attributes.SelfContained u.render.toList where
  nonempty := by
    rw [h.toList_render]
    exact List.cons_ne_nil _ _
  trimmed := by
    have hbetween := trimChars_between (trimChars_singleton rfl) (List.cons_ne_nil '@' [])
      (trimChars_singleton rfl) (List.cons_ne_nil ')' [])
      (u.name.toList ++ '(' :: u.argumentText.toList)
    rw [List.append_assoc] at hbetween
    rw [h.toList_render]
    exact hbetween
  closed := by
    have hword := AnnotationText.not_mem_name h.name
    have hclosed : Attributes.Closed 1 u.argumentText.toList :=
      Attributes.closed_join (fun text htext => (h.selfContained_entry text htext).closed.deepen)
    rw [h.toList_render]
    have hname : Attributes.Closed 0 ('@' :: u.name.toList) :=
      Attributes.closed_of_plain (List.forall_mem_cons.mpr ⟨by decide,hword⟩)
    exact hname.append hclosed.parentheses

end Reading

end Java.AnnotationUse

namespace Attributes

variable {a : Attributes} {key : String} {vs : List String}

theorem selfContained_bracedList (h : ∀ v ∈ vs, SelfContained v.toList) :
    SelfContained (bracedList vs).toList := by
  match vs with
  | [] => exact selfContained_braces h
  | [v] => exact h v List.mem_cons_self
  | v :: w :: vs => exact selfContained_braces h

/-- A list is read back whether its braces are left out or not. -/
theorem list_bracedList (hraw : a.raw? key = some (bracedList vs))
    (h : ∀ v ∈ vs, SelfContained v.toList ∧ v.toList.head? ≠ some '"' ∧
      v.toList.head? ≠ some '{') : a.list key = vs := by
  match vs with
  | [] => exact list_braces hraw (fun v hv => ⟨(h v hv).1,(h v hv).2.1⟩)
  | [v] =>
    obtain ⟨hself,hquote,hbrace⟩ := h v List.mem_cons_self
    exact list_single hraw hself hquote hbrace
  | v :: w :: vs => exact list_braces hraw (fun v hv => ⟨(h v hv).1,(h v hv).2.1⟩)

end Attributes

open Java

theorem readable_joinColumn (name : String) : (joinColumn name).Readable :=
  .of_sublist (by decide) (List.cons_ne_nil _ _) (List.Sublist.refl ["name"]) (by decide)
    (List.forall_mem_singleton.mpr (Attributes.selfContained_quote name))

theorem selfContained_joinColumnList (names : List String) :
    Attributes.SelfContained (joinColumnList names).toList := by
  apply Attributes.selfContained_bracedList
  intro text htext
  obtain ⟨name,-,rfl⟩ := List.mem_map.mp htext
  exact (readable_joinColumn name).selfContained

end EntityLink
