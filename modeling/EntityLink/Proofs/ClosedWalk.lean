import EntityLink.Cycle
import Mathlib.Data.List.Rotate

namespace EntityLink.Cycle

theorem stepsOf_eq_zip (l : List String) : stepsOf l = l.zip (l.rotate 1) := by
  cases l with
  | nil => rfl
  | cons n ns => rw [List.rotate_cons_succ,List.rotate_zero]; rfl

theorem map_fst_stepsOf (l : List String) : (stepsOf l).map Prod.fst = l := by
  rw [stepsOf_eq_zip]
  exact List.map_fst_zip (by simp)

theorem map_snd_stepsOf (l : List String) : (stepsOf l).map Prod.snd = l.rotate 1 := by
  rw [stepsOf_eq_zip]
  exact List.map_snd_zip (by simp)

/-- A walk that begins elsewhere takes its steps in the same cyclic order. -/
theorem stepsOf_rotate (l : List String) (k : Nat) :
    stepsOf (l.rotate k) = (stepsOf l).rotate k := by
  have hswap : (l.rotate k).rotate 1 = (l.rotate 1).rotate k := by
    rw [List.rotate_rotate,List.rotate_rotate,Nat.add_comm]
  rw [stepsOf_eq_zip,stepsOf_eq_zip,hswap]
  exact (List.zipWith_rotate_distrib Prod.mk l (l.rotate 1) k (by simp)).symm

theorem stepsOf_isRotated {l l' : List String} (h : l ~r l') : stepsOf l ~r stepsOf l' := by
  obtain ⟨k,rfl⟩ := h
  exact ⟨k,(stepsOf_rotate l k).symm⟩

theorem mem_stepsOf {l : List String} {e : String × String} :
    e ∈ stepsOf l ↔ ∃ i : Nat, l[i]? = some e.1 ∧ l[(i + 1) % l.length]? = some e.2 := by
  rw [stepsOf_eq_zip,List.mem_iff_getElem?]
  constructor
  · rintro ⟨i,hi⟩
    obtain ⟨h₁,h₂⟩ := List.getElem?_zip_eq_some.mp hi
    have hlt : i < l.length := (List.getElem?_eq_some_iff.mp h₁).1
    exact ⟨i,h₁,by rwa [List.getElem?_rotate hlt] at h₂⟩
  · rintro ⟨i,h₁,h₂⟩
    have hlt : i < l.length := (List.getElem?_eq_some_iff.mp h₁).1
    exact ⟨i,List.getElem?_zip_eq_some.mpr ⟨h₁,by rwa [List.getElem?_rotate hlt]⟩⟩

/-- The steps of a walk that returns to `n` are those of a chain from `n` to `n`. -/
theorem forall_stepsOf_iff {R : String → String → Prop} (n : String) (ns : List String) :
    (∀ e ∈ stepsOf (n :: ns), R e.1 e.2) ↔ List.IsChain R (n :: ns ++ [n]) := by
  have hchain (m : String) : (∀ e ∈ (m :: ns).zip (ns ++ [n]), R e.1 e.2) ↔
      List.IsChain R (m :: ns ++ [n]) := by
    induction ns generalizing m with
    | nil => simp
    | cons k ks ih =>
      rw [List.cons_append,List.zip_cons_cons,List.forall_mem_cons,ih k]
      simp only [List.cons_append,List.isChain_cons_cons]
  exact hchain n

/-- The last step leads back to the first node. -/
theorem closing_mem_stepsOf (n : String) (ns : List String) :
    ((n :: ns).getLast (List.cons_ne_nil n ns),n) ∈ stepsOf (n :: ns) := by
  have hlast (m : String) :
      ((m :: ns).getLast (List.cons_ne_nil m ns),n) ∈ (m :: ns).zip (ns ++ [n]) := by
    induction ns generalizing m with
    | nil => exact List.mem_cons_self
    | cons k ks ih => exact List.mem_cons_of_mem _ (ih k)
  exact hlast n

theorem mem_of_same_steps {l l' : List String} (h : ∀ e, e ∈ stepsOf l ↔ e ∈ stepsOf l')
    {n : String} (hn : n ∈ l) : n ∈ l' := by
  rw [← map_fst_stepsOf l] at hn
  obtain ⟨e,he,rfl⟩ := List.mem_map.mp hn
  rw [← map_fst_stepsOf l']
  exact List.mem_map_of_mem ((h e).mp he)

theorem length_of_same_steps {l l' : List String} (hl : l.Nodup) (hl' : l'.Nodup)
    (h : ∀ e, e ∈ stepsOf l ↔ e ∈ stepsOf l') : l.length = l'.length := by
  apply List.Perm.length_eq
  apply (List.perm_ext_iff_of_nodup hl hl').mpr
  intro n
  exact ⟨mem_of_same_steps h,mem_of_same_steps (fun e => (h e).symm)⟩

/-- Distinct nodes leave no choice: from the same first node the same steps lead along the
same walk. -/
theorem eq_of_same_steps {n : String} {ns ms : List String} (hl : (n :: ns).Nodup)
    (hl' : (n :: ms).Nodup) (h : ∀ e, e ∈ stepsOf (n :: ns) ↔ e ∈ stepsOf (n :: ms)) :
    n :: ns = n :: ms := by
  have hlen := length_of_same_steps hl hl' h
  apply List.ext_getElem?
  intro i
  induction i with
  | zero => rfl
  | succ i ih =>
    by_cases hi : i + 1 < (n :: ns).length
    · -- The step out of position `i` is a step of both walks, and leaves the same node in both.
      have hstep : ((n :: ns)[i],(n :: ns)[i + 1]) ∈ stepsOf (n :: ms) :=
        (h _).mp (mem_stepsOf.mpr ⟨i,List.getElem?_eq_getElem _,by
          rw [Nat.mod_eq_of_lt hi]; exact List.getElem?_eq_getElem hi⟩)
      obtain ⟨j,hj,hnext⟩ := mem_stepsOf.mp hstep
      have hat : (n :: ms)[i]? = some (n :: ns)[i] := by
        rw [← ih]; exact List.getElem?_eq_getElem _
      have hij : i = j := (List.getElem?_inj (by omega) hl').mp (hat.trans hj.symm)
      subst j
      rw [← hlen,Nat.mod_eq_of_lt hi] at hnext
      rw [hnext]
      exact List.getElem?_eq_getElem hi
    · rw [List.getElem?_eq_none (by omega),List.getElem?_eq_none (by omega)]

/-- Two walks over distinct nodes that take the same steps differ only in where they begin. -/
theorem isRotated_of_same_steps {l l' : List String} (hl : l.Nodup) (hl' : l'.Nodup)
    (h : ∀ e, e ∈ stepsOf l ↔ e ∈ stepsOf l') : l ~r l' := by
  cases l with
  | nil =>
    have hlen := length_of_same_steps hl hl' h
    rw [List.eq_nil_of_length_eq_zero hlen.symm]
  | cons n ns =>
    obtain ⟨before,after,rfl⟩ := List.append_of_mem (mem_of_same_steps h List.mem_cons_self)
    have hrot : before ++ n :: after ~r n :: (after ++ before) := List.isRotated_append
    have hsteps : ∀ e, e ∈ stepsOf (n :: ns) ↔ e ∈ stepsOf (n :: (after ++ before)) := by
      intro e
      rw [h e,(stepsOf_isRotated hrot).mem_iff]
    rw [eq_of_same_steps hl (hrot.nodup_iff.mp hl') hsteps]
    exact hrot.symm

end EntityLink.Cycle
