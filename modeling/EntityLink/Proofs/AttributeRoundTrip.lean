import EntityLink.Proofs.ArgumentText

namespace EntityLink.Attributes
open Text Java

section Assignment

variable {key value : String}

/-- A single assignment is the only entry. -/
theorem entries_parse_assignment (hkey : isKey key.toList = true)
    (hvalue : SelfContained value.toList) :
    (parse (key ++ " = " ++ value)).entries = [(key,value)] :=
  @entries_parse [(key,value)] (List.forall_mem_singleton.mpr ⟨hkey,hvalue⟩)

theorem raw?_parse_assignment (hkey : isKey key.toList = true)
    (hvalue : SelfContained value.toList) :
    (parse (key ++ " = " ++ value)).raw? key = some value := by
  apply raw?_of_mem
  · rw [entries_parse_assignment hkey hvalue]
    exact List.pairwise_singleton _ key
  · rw [entries_parse_assignment hkey hvalue]
    exact List.mem_singleton_self (key,value)

theorem raw?_parse_other {k : String} (hkey : isKey key.toList = true)
    (hvalue : SelfContained value.toList) (hk : k ≠ key) :
    (parse (key ++ " = " ++ value)).raw? k = none := by
  apply raw?_of_not_mem
  rw [entries_parse_assignment hkey hvalue]
  exact mt List.mem_singleton.mp hk

end Assignment

section Strings

/-- A written string comes back with the escapes that its quotes and backslashes were given. So it
comes back as it was only when it has none of them. -/
theorem parse_quote_reads_iff {key s : String} (hkey : isKey key.toList = true)
    (hblank : allBlank s = false) (htrim : trim s = s) :
    (parse (key ++ " = " ++ quote s)).string? key =
      some (String.ofList (s.toList.flatMap literal)) ∧
    (∀ k, k ≠ key → (parse (key ++ " = " ++ quote s)).raw? k = none) ∧
    ((parse (key ++ " = " ++ quote s)).string? key = some s ↔
      '"' ∉ s.toList ∧ '\\' ∉ s.toList) := by
  have hread : (parse (key ++ " = " ++ quote s)).string? key =
      some (String.ofList (s.toList.flatMap literal)) :=
    string?_literal (raw?_parse_assignment hkey (selfContained_quote s)) htrim hblank
  refine ⟨hread,fun k => raw?_parse_other hkey (selfContained_quote s),?_⟩
  rw [hread,← literals_eq_iff,Option.some.injEq]
  constructor
  · intro heq
    rw [← String.toList_ofList (l := s.toList.flatMap literal),heq]
  · intro heq
    rw [heq,String.ofList_toList]

/-- Commas, brackets and equals signs do no harm in a string. -/
theorem parse_quote_reads_rooms : isKey "name".toList = true ∧
    allBlank "rooms (upper), floor = 2" = false ∧
    trim "rooms (upper), floor = 2" = "rooms (upper), floor = 2" ∧
    (parse ("name" ++ " = " ++ quote "rooms (upper), floor = 2")).string? "name" =
      some "rooms (upper), floor = 2" := by
  have hkey : isKey "name".toList = true := by decide
  have hblank : allBlank "rooms (upper), floor = 2" = false := by decide
  have htrim : trim "rooms (upper), floor = 2" = "rooms (upper), floor = 2" := by decide
  obtain ⟨-,-,hiff⟩ := parse_quote_reads_iff hkey hblank htrim
  exact ⟨hkey,hblank,htrim,hiff.mpr (by decide)⟩

/-- The name `a"b` comes back as `a\"b`. -/
theorem exists_string_changed : ¬ ∀ s, allBlank s = false → trim s = s →
    (parse ("name = " ++ quote s)).string? "name" = some s ∧
    ∀ k, k ≠ "name" → (parse ("name = " ++ quote s)).raw? k = none := by
  intro hall
  have hread : (parse ("name = " ++ quote "a\"b")).string? "name" = some "a\\\"b" := by decide
  obtain ⟨hback,-⟩ := hall "a\"b" (by decide) (by decide)
  exact absurd (hread.symm.trans hback) (by decide)

end Strings

section Lists

/-- Assignments are told apart, and so are the elements of a list. -/
theorem parse_join_reads {pairs : List (String × String)} {key : String} {vs : List String}
    (hkeys : (pairs.map Prod.fst).Nodup)
    (hpairs : ∀ p ∈ pairs, isKey p.1.toList = true ∧ SelfContained p.2.toList)
    (hkey : isKey key.toList = true)
    (hvs : ∀ v ∈ vs, SelfContained v.toList ∧ v.toList.head? ≠ some '"') :
    (∀ p ∈ pairs, (parse (join ", " (pairs.map (fun p => p.1 ++ " = " ++ p.2)))).raw? p.1 =
      some p.2) ∧
    (∀ k, k ∉ pairs.map Prod.fst →
      (parse (join ", " (pairs.map (fun p => p.1 ++ " = " ++ p.2)))).raw? k = none) ∧
    (parse (key ++ " = " ++ ("\x7b" ++ join ", " vs ++ "\x7d"))).list key = vs := by
  have hentries := entries_parse hpairs
  have hraw := raw?_parse_assignment hkey (selfContained_braces (fun v hv => (hvs v hv).1))
  refine ⟨fun p hp => ?_,fun k hk => ?_,list_braces hraw hvs⟩
  · apply raw?_of_mem
    · rwa [hentries]
    · rwa [hentries]
  · apply raw?_of_not_mem
    rwa [hentries]

/-- What stands in quotes or brackets separates nothing. -/
theorem parse_join_reads_seats :
    let pairs := [("name","\"seats, taken\""),("uniqueConstraints","\x7b@Unique(\"\x7d,\")\x7d")]
    let columns := ["@JoinColumn(name = \"row,\")","@JoinColumn(name = \"(\", nullable = false)"]
    (pairs.map Prod.fst).Nodup ∧
    (∀ p ∈ pairs, isKey p.1.toList = true ∧ SelfContained p.2.toList) ∧
    isKey "joinColumns".toList = true ∧
    (∀ v ∈ columns, SelfContained v.toList ∧ v.toList.head? ≠ some '"') ∧
    (parse ("name = \"seats, taken\", " ++
      "uniqueConstraints = \x7b@Unique(\"\x7d,\")\x7d")).raw? "name" = some "\"seats, taken\"" ∧
    (parse ("joinColumns = \x7b@JoinColumn(name = \"row,\"), " ++
      "@JoinColumn(name = \"(\", nullable = false)\x7d")).list "joinColumns" = columns := by
  intro pairs columns
  have hkeys : (pairs.map Prod.fst).Nodup := by decide
  have hpairs : ∀ p ∈ pairs, isKey p.1.toList = true ∧ SelfContained p.2.toList := by decide
  have hkey : isKey "joinColumns".toList = true := by decide
  have hcolumns : ∀ v ∈ columns, SelfContained v.toList ∧ v.toList.head? ≠ some '"' := by decide
  obtain ⟨hraw,-,hlist⟩ := parse_join_reads hkeys hpairs hkey hcolumns
  exact ⟨hkeys,hpairs,hkey,hcolumns,hraw _ List.mem_cons_self,hlist⟩

end Lists

end EntityLink.Attributes
