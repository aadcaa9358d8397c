import EntityLink.Proofs.EntryCalls

namespace EntityLink
open Java Java.Exec

namespace Java.Heap

/-- `h'` is `h` but for fields of `F` that were null and now hold a new, empty collection. -/
structure Opens (F : Nat → String → Prop) (h h' : Heap) : Prop where
  size : h.size ≤ h'.size
  entity : ∀ a type, h'.IsEntity a type ↔ h.IsEntity a type
  object : ∀ c, h.IsCollection c → h'.get? c = h.get? c
  items : ∀ v, h'.items v = h.items v
  field : ∀ a n, h'.field a n = h.field a n ∨ F a n ∧ h.field a n = .null ∧
    ∃ c, h'.field a n = .ref c ∧ h.size ≤ c ∧ h'.IsCollection c ∧ h'.items (.ref c) = []

namespace Opens

variable {F : Nat → String → Prop} {h h₁ h₂ : Heap} {a b c : Nat} {type n : String}

protected theorem refl (F : Nat → String → Prop) (h : Heap) : Opens F h h :=
  ⟨Nat.le_refl _,fun _ _ => Iff.rfl,fun _ _ => rfl,fun _ => rfl,fun _ _ => .inl rfl⟩

theorem collection (ho : Opens F h h₁) (hc : h.IsCollection c) : h₁.IsCollection c := by
  obtain ⟨items,unique,changes,hget⟩ := hc
  exact ⟨items,unique,changes,(ho.object c ⟨_,_,_,hget⟩).trans hget⟩

theorem trans (ho : Opens F h h₁) (ho' : Opens F h₁ h₂) : Opens F h h₂ where
  size := Nat.le_trans ho.size ho'.size
  entity a type := (ho'.entity a type).trans (ho.entity a type)
  object c hc := (ho'.object c (ho.collection hc)).trans (ho.object c hc)
  items v := (ho'.items v).trans (ho.items v)
  field a n := by
    rcases ho.field a n with hsame | ⟨hF,hnull,c,hc,hnew,hcoll,hempty⟩
    · rcases ho'.field a n with hsame' | ⟨hF,hnull,c,hc,hnew,hcoll,hempty⟩
      · exact .inl (hsame'.trans hsame)
      · exact .inr ⟨hF,hsame ▸ hnull,c,hc,Nat.le_trans ho.size hnew,hcoll,hempty⟩
    · rcases ho'.field a n with hsame' | ⟨-,hnull',-⟩
      · exact .inr ⟨hF,hnull,c,hsame'.trans hc,hnew,ho'.collection hcoll,
          (ho'.items _).trans hempty⟩
      · cases hc.symm.trans hnull'

/-- What a field holds many of stays the same, also where the collection is new. -/
theorem items_field (ho : Opens F h h₁) (a : Nat) (n : String) :
    h₁.items (h₁.field a n) = h.items (h.field a n) := by
  rcases ho.field a n with hsame | ⟨-,hnull,c,hc,-,-,hempty⟩
  · rw [hsame,ho.items]
  · rw [hnull,hc,hempty]
    rfl

/-- Which entities a field holds stays the same. -/
theorem holds_eq (ho : Opens F h h₁) (hb : h.IsEntity b type) (many : Bool) (a : Nat)
    (n : String) : h₁.holds many a n (.ref b) = h.holds many a n (.ref b) := by
  rw [holds,holds,ho.items_field]
  rcases ho.field a n with hsame | ⟨-,hnull,c,hc,hnew,-,-⟩
  · rw [hsame]
  · have hne : c ≠ b := Nat.ne_of_gt (Nat.lt_of_lt_of_le hb.lt_size hnew)
    have hother : (Value.ref c == .ref b) = false := by simpa using hne
    rw [hnull,hc,hother]
    rfl

end Opens

section Open

variable {F : Nat → String → Prop} {h : Heap} {a : Nat} {type n : String} {unique : Bool}

theorem isCollection_of_openCollection (ha : h.IsEntity a type) {c : Nat} (hne : c ≠ h.size)
    (hc : (h.openCollection a n unique).IsCollection c) : h.IsCollection c := by
  rw [openCollection,isCollection_assign ((isEntity_push a type).mpr ha)] at hc
  have hlt := hc.lt_size
  rw [size_push] at hlt
  have hlt : c < h.size := Nat.lt_of_le_of_ne (Nat.le_of_lt_succ hlt) hne
  simpa only [IsCollection,get?_push hlt] using hc

/-- The new collection is empty, so no value gains or loses elements by it. -/
theorem items_openCollection (ha : h.IsEntity a type) (v : Value) :
    (h.openCollection a n unique).items v = h.items v := by
  cases v with
  | null | bool | int => rfl
  | ref c =>
    by_cases hc : h.IsCollection c
    · simp only [Heap.items,get?_openCollection ha hc]
    · rw [items_eq_nil hc]
      by_cases hat : c = h.size
      · rw [hat,items_ref (get?_openCollection_size ha)]
      · exact items_eq_nil (mt (isCollection_of_openCollection ha hat) hc)

/-- Opening one collection. -/
theorem opens_openCollection (ha : h.IsEntity a type) (hnull : h.field a n = .null) (hF : F a n)
    (unique : Bool) : h.Opens F (h.openCollection a n unique) where
  size := by
    rw [openCollection,size_assign,size_push]
    exact Nat.le_succ _
  entity := (within_openCollection ha hnull).entity
  object c hc := get?_openCollection ha hc
  items := items_openCollection ha
  field b m := by
    have hnew : (h.openCollection a n unique).get? h.size = some (.collection [] unique 0) :=
      get?_openCollection_size ha
    rw [field_openCollection ha]
    split
    · rename_i hat
      obtain ⟨rfl,rfl⟩ := hat
      exact .inr ⟨hF,hnull,h.size,rfl,Nat.le_refl _,⟨_,_,_,hnew⟩,items_ref hnew⟩
    · exact .inl rfl

end Open

end Java.Heap

open Java.Heap

/-- The getter of a collection gives one with the elements that the field held. -/
theorem exists_manyGetter_opens {p : Program} {l : Link} {d : Nat} {h : Heap} {a : Nat}
    {F : Nat → String → Prop} (hp : p.Serves l) (hx : l.side.many = true)
    (ha : h.IsEntity a l.side.type) (hF : F a l.side.field)
    (hopen : h.field a l.side.field = .null ∨
      ∃ c, h.field a l.side.field = .ref c ∧ h.IsCollection c) :
    ∃ c h', Gives (dispatch p (p.run (d + 1)) (.ref a) l.names.getter []) h (.ref c) h' ∧
      h.Opens F h' ∧ h'.IsCollection c ∧ h'.items (.ref c) = h.items (h.field a l.side.field) := by
  rcases hopen with hnull | ⟨c,hfield,hc⟩
  · have hnew : (h.openCollection a l.side.field l.uniqueItems).get? h.size =
        some (.collection [] l.uniqueItems 0) :=
      get?_openCollection_size ha
    refine ⟨h.size,_,gives_manyGetter_null hp hx ha hnull,
      opens_openCollection ha hnull hF l.uniqueItems,⟨_,_,_,hnew⟩,?_⟩
    rw [items_ref hnew,hnull]
    rfl
  · exact ⟨c,h,gives_manyGetter_ref hp hx ha hfield,.refl F h,hc,by rw [hfield]⟩

end EntityLink
