namespace EntityLink

/-- The first occurrence of each value, in order. -/
def distinct [BEq α] : List α → List α
  | [] => []
  | a :: as => a :: (distinct as).filter (fun b => !(b == a))

theorem mem_distinct [BEq α] [LawfulBEq α] {x : α} {as : List α} : x ∈ distinct as ↔ x ∈ as := by
  induction as with
  | nil => simp [distinct]
  | cons a as ih =>
    simp only [distinct,List.mem_cons,List.mem_filter,ih,Bool.not_eq_true',beq_eq_false_iff_ne]
    exact ⟨fun h => h.imp id And.left,fun h => h.elim .inl
      (fun h => (Classical.em (x = a)).imp id (fun hne => ⟨h,hne⟩))⟩

theorem nodup_distinct [BEq α] [LawfulBEq α] (as : List α) : (distinct as).Nodup := by
  induction as with
  | nil => exact List.nodup_nil
  | cons a as ih =>
    rw [distinct,List.nodup_cons]
    exact ⟨by simp,ih.filter _⟩

/-- A value that came before is not listed again. -/
theorem distinct_append_singleton [BEq α] [LawfulBEq α] (as : List α) (a : α) :
    distinct (as ++ [a]) = if a ∈ as then distinct as else distinct as ++ [a] := by
  induction as with
  | nil => rfl
  | cons b as ih =>
    rw [List.cons_append,distinct,ih,distinct]
    by_cases has : a ∈ as
    · rw [if_pos has,if_pos (List.mem_cons_of_mem b has)]
    · rw [if_neg has,List.filter_append]
      by_cases hab : a = b
      · simp [hab]
      · simp [hab,has]

end EntityLink
