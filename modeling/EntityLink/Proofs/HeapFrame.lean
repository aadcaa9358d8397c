import EntityLink.Java.Heap

namespace EntityLink.Java.Heap

/-- An entity of a type stands at an address. -/
def IsEntity (h : Heap) (a : Nat) (type : String) : Prop :=
  ∃ fields, h.get? a = some (.entity type fields)

/-- Null, or a reference to an entity of a type. -/
def Fits (h : Heap) (type : String) (v : Value) : Prop :=
  v = .null ∨ ∃ b, v = .ref b ∧ h.IsEntity b type

/-- A collection stands at an address. -/
def IsCollection (h : Heap) (c : Nat) : Prop :=
  ∃ items unique changes, h.get? c = some (.collection items unique changes)

/-- Fields lead nowhere outside the heap, and no two of them hold the same collection. -/
structure Tidy (h : Heap) : Prop where
  closed : ∀ a n c, h.field a n = .ref c → c < h.size
  unshared : ∀ a n b m c, h.IsCollection c → h.field a n = .ref c → h.field b m = .ref c →
    a = b ∧ n = m

/-- An object that no field holds. -/
def Loose (h : Heap) (a : Nat) (o : Object) : Prop :=
  h.get? a = some o ∧ ∀ b n, h.field b n ≠ .ref a

/-- How `h'` differs from `h` after changes to some fields and to the collections stored there.
No collection of `h` is put into a field or taken out of one. -/
structure Within (S : Nat → String → Prop) (h h' : Heap) : Prop where
  entity : ∀ a type, h'.IsEntity a type ↔ h.IsEntity a type
  collection : ∀ c, h.IsCollection c → h'.IsCollection c
  field : ∀ a n, ¬ S a n → h'.field a n = h.field a n
  stored : ∀ a n c, h.IsCollection c → (h'.field a n = .ref c ↔ h.field a n = .ref c)
  object : ∀ c, h.IsCollection c → (∀ a n, h.field a n = .ref c → ¬ S a n) →
    h'.get? c = h.get? c

section Kinds

variable {h : Heap} {a c : Nat} {type type' : String}

theorem lt_size_of_get? {o : Object} (ho : h.get? a = some o) : a < h.size :=
  (List.getElem?_eq_some_iff.mp ho).1

theorem IsEntity.lt_size (ha : h.IsEntity a type) : a < h.size := by
  obtain ⟨fields,ha⟩ := ha
  exact lt_size_of_get? ha

theorem IsCollection.lt_size (hc : h.IsCollection c) : c < h.size := by
  obtain ⟨items,unique,changes,hc⟩ := hc
  exact lt_size_of_get? hc

theorem IsEntity.not_collection (ha : h.IsEntity a type) : ¬ h.IsCollection a := by
  rintro ⟨items,unique,changes,hc⟩
  obtain ⟨fields,ha⟩ := ha
  rw [ha] at hc
  cases hc

theorem IsEntity.ne_collection (ha : h.IsEntity a type) (hc : h.IsCollection c) : a ≠ c := by
  rintro rfl
  exact ha.not_collection hc

theorem IsEntity.type_unique (ha : h.IsEntity a type) (ha' : h.IsEntity a type') :
    type = type' := by
  obtain ⟨fields,ha⟩ := ha
  obtain ⟨fields',ha'⟩ := ha'
  rw [ha] at ha'
  cases ha'
  rfl

theorem field_of_get? {fields : String → Value} (ha : h.get? a = some (.entity type fields))
    (n : String) : h.field a n = fields n := by
  simp only [field,ha]

theorem field_of_not_entity (ha : ∀ type, ¬ h.IsEntity a type) (n : String) :
    h.field a n = .null := by
  unfold field
  split
  · rename_i hget
    exact absurd ⟨_,hget⟩ (ha _)
  · rfl

theorem items_ref {items : List Value} {unique : Bool} {changes : Nat}
    (hc : h.get? c = some (.collection items unique changes)) : h.items (.ref c) = items := by
  simp only [Heap.items,hc]

theorem items_eq_nil (hc : ¬ h.IsCollection c) : h.items (.ref c) = [] := by
  simp only [Heap.items]
  split
  · rename_i hget
    exact absurd ⟨_,_,_,hget⟩ hc
  · rfl

end Kinds

namespace Within

variable {S S' : Nat → String → Prop} {h h₁ h₂ : Heap}

protected theorem refl (S : Nat → String → Prop) (h : Heap) : Within S h h :=
  ⟨fun _ _ => Iff.rfl,fun _ hc => hc,fun _ _ _ => rfl,fun _ _ _ _ => Iff.rfl,fun _ _ _ => rfl⟩

theorem trans (hw : Within S h h₁) (hw' : Within S h₁ h₂) : Within S h h₂ where
  entity a type := (hw'.entity a type).trans (hw.entity a type)
  collection c hc := hw'.collection c (hw.collection c hc)
  field a n hn := (hw'.field a n hn).trans (hw.field a n hn)
  stored a n c hc := (hw'.stored a n c (hw.collection c hc)).trans (hw.stored a n c hc)
  object c hc hfree := by
    have hfree' : ∀ a n, h₁.field a n = .ref c → ¬ S a n := fun a n hn =>
      hfree a n ((hw.stored a n c hc).mp hn)
    exact (hw'.object c (hw.collection c hc) hfree').trans (hw.object c hc hfree)

theorem mono (hw : Within S h h₁) (hS : ∀ a n, S a n → S' a n) : Within S' h h₁ where
  entity := hw.entity
  collection := hw.collection
  field a n hn := hw.field a n (fun h => hn (hS a n h))
  stored := hw.stored
  object c hc hfree := hw.object c hc (fun a n hn h => hfree a n hn (hS a n h))

theorem fits (hw : Within S h h₁) {type : String} {v : Value} (hv : h.Fits type v) :
    h₁.Fits type v :=
  hv.imp_right (fun ⟨b,hvb,hb⟩ => ⟨b,hvb,(hw.entity b type).mpr hb⟩)

/-- A field that is left alone holds the same elements as before. -/
theorem items_field (hw : Within S h h₁) (ht : h.Tidy) {a : Nat} {n : String} (hn : ¬ S a n) :
    h₁.items (h₁.field a n) = h.items (h.field a n) := by
  rw [hw.field a n hn]
  cases hv : h.field a n with
  | null | bool | int => rfl
  | ref c =>
    by_cases hc : h.IsCollection c
    · have hfree : ∀ b m, h.field b m = .ref c → ¬ S b m := by
        intro b m hb
        obtain ⟨rfl,rfl⟩ := ht.unshared a n b m c hc hv hb
        exact hn
      simp only [Heap.items,hw.object c hc hfree]
    · have hc' : ¬ h₁.IsCollection c := by
        intro hc'
        cases hget : h.get? c with
        | none =>
          have hlt := ht.closed a n c hv
          exact absurd (List.getElem?_eq_none_iff.mp hget) (Nat.not_le_of_lt hlt)
        | some o =>
          cases o with
          | entity type fields =>
            exact ((hw.entity c type).mpr ⟨fields,hget⟩).not_collection hc'
          | collection items unique changes => exact hc ⟨items,unique,changes,hget⟩
      rw [items_eq_nil hc,items_eq_nil hc']

end Within

/-- The heap after an assignment to a field. -/
def assign (h : Heap) (a : Nat) (n : String) (v : Value) : Heap :=
  match h.get? a with
  | some (.entity type fields) => h.set a (.entity type (fun m => if m = n then v else fields m))
  | _ => h

/-- The heap after a change to what a collection holds. -/
def refill (h : Heap) (c : Nat) (items : List Value) : Heap :=
  match h.get? c with
  | some (.collection _ unique changes) => h.set c (.collection items unique (changes + 1))
  | _ => h

/-- The heap after a field was given a new empty collection. -/
def openCollection (h : Heap) (a : Nat) (n : String) (unique : Bool) : Heap :=
  (h.push (.collection [] unique 0)).assign a n (.ref h.size)

section Assign

variable {h : Heap} {a : Nat} {type n : String} {v : Value}

theorem get?_assign (ha : h.IsEntity a type) {b : Nat} (hb : b ≠ a) :
    (h.assign a n v).get? b = h.get? b := by
  have hlt := ha.lt_size
  obtain ⟨fields,hget⟩ := ha
  simp only [assign,hget,get?_set hlt,if_neg hb]

theorem size_assign : (h.assign a n v).size = h.size := by
  unfold assign
  split
  · exact size_set
  · rfl

theorem isEntity_assign (ha : h.IsEntity a type) (b : Nat) (type' : String) :
    (h.assign a n v).IsEntity b type' ↔ h.IsEntity b type' := by
  by_cases hb : b = a
  · subst hb
    have hlt := ha.lt_size
    obtain ⟨fields,hget⟩ := ha
    simp [IsEntity,assign,hget,get?_set hlt]
  · simp only [IsEntity,get?_assign ha hb]

theorem isCollection_assign (ha : h.IsEntity a type) (c : Nat) :
    (h.assign a n v).IsCollection c ↔ h.IsCollection c := by
  by_cases hc : c = a
  · subst hc
    exact iff_of_false ((isEntity_assign ha c type).mpr ha).not_collection ha.not_collection
  · simp only [IsCollection,get?_assign ha hc]

theorem field_assign (ha : h.IsEntity a type) (b : Nat) (m : String) :
    (h.assign a n v).field b m = if b = a ∧ m = n then v else h.field b m := by
  by_cases hb : b = a
  · subst hb
    have hlt := ha.lt_size
    obtain ⟨fields,hget⟩ := ha
    simp only [Heap.field,assign,hget,get?_set hlt,if_true,true_and]
  · rw [if_neg (fun h => hb h.1)]
    simp only [Heap.field,get?_assign ha hb]

/-- Assigning a value that is no stored collection keeps a heap tidy. -/
theorem Tidy.assign (ht : h.Tidy) (ha : h.IsEntity a type)
    (hv : ∀ c, v = .ref c → c < h.size ∧ (h.IsCollection c → ∀ b m, h.field b m ≠ .ref c)) :
    (h.assign a n v).Tidy where
  closed b m c hm := by
    rw [field_assign ha] at hm
    rw [size_assign]
    split at hm
    · exact (hv c hm).1
    · exact ht.closed b m c hm
  unshared b m b' m' c hc hm hm' := by
    rw [isCollection_assign ha] at hc
    rw [field_assign ha] at hm hm'
    split at hm
    · rename_i hat
      split at hm'
      · rename_i hat'
        exact ⟨hat.1.trans hat'.1.symm,hat.2.trans hat'.2.symm⟩
      · exact absurd hm' ((hv c hm).2 hc b' m')
    · split at hm'
      · exact absurd hm ((hv c hm').2 hc b m)
      · exact ht.unshared b m b' m' c hc hm hm'

theorem within_assign (ha : h.IsEntity a type)
    (hold : ∀ c, h.field a n = .ref c → ¬ h.IsCollection c)
    (hv : ∀ c, v = .ref c → ¬ h.IsCollection c) :
    Within (fun b m => b = a ∧ m = n) h (h.assign a n v) where
  entity := isEntity_assign ha
  collection c hc := (isCollection_assign ha c).mpr hc
  field b m hn := by rw [field_assign ha,if_neg hn]
  stored b m c hc := by
    rw [field_assign ha]
    split
    · rename_i hat
      rw [hat.1,hat.2]
      exact iff_of_false (fun h => hv c h hc) (fun h => hold c h hc)
    · exact Iff.rfl
  object c hc _ := get?_assign ha (ha.ne_collection hc).symm

end Assign

section Refill

variable {h : Heap} {c : Nat} {items : List Value}

theorem get?_refill (hc : h.IsCollection c) {b : Nat} (hb : b ≠ c) :
    (h.refill c items).get? b = h.get? b := by
  have hlt := hc.lt_size
  obtain ⟨items',unique,changes,hget⟩ := hc
  simp only [refill,hget,get?_set hlt,if_neg hb]

theorem size_refill : (h.refill c items).size = h.size := by
  unfold refill
  split
  · exact size_set
  · rfl

theorem isCollection_refill (hc : h.IsCollection c) (b : Nat) :
    (h.refill c items).IsCollection b ↔ h.IsCollection b := by
  by_cases hb : b = c
  · subst hb
    have hlt := hc.lt_size
    refine iff_of_true ?_ hc
    obtain ⟨items',unique,changes,hget⟩ := hc
    simp [IsCollection,refill,hget,get?_set hlt]
  · simp only [IsCollection,get?_refill hc hb]

theorem isEntity_refill (hc : h.IsCollection c) (a : Nat) (type : String) :
    (h.refill c items).IsEntity a type ↔ h.IsEntity a type := by
  by_cases ha : a = c
  · subst ha
    refine iff_of_false (fun ha => ha.not_collection ?_) (fun ha => ha.not_collection hc)
    exact (isCollection_refill hc a).mpr hc
  · simp only [IsEntity,get?_refill hc ha]

theorem field_refill (hc : h.IsCollection c) (a : Nat) (n : String) :
    (h.refill c items).field a n = h.field a n := by
  by_cases ha : a = c
  · subst ha
    rw [field_of_not_entity,field_of_not_entity]
    · exact fun type hent => hent.not_collection hc
    · exact fun type hent => ((isEntity_refill hc a type).mp hent).not_collection hc
  · simp only [Heap.field,get?_refill hc ha]

theorem items_refill (hc : h.IsCollection c) : (h.refill c items).items (.ref c) = items := by
  have hlt := hc.lt_size
  obtain ⟨items',unique,changes,hget⟩ := hc
  simp only [Heap.items,refill,hget,get?_set hlt,if_true]

theorem Tidy.refill (ht : h.Tidy) (hc : h.IsCollection c) : (h.refill c items).Tidy where
  closed a n b hn := by
    rw [field_refill hc] at hn
    rw [size_refill]
    exact ht.closed a n b hn
  unshared a n a' n' b hb hn hn' := by
    rw [field_refill hc] at hn hn'
    exact ht.unshared a n a' n' b ((isCollection_refill hc b).mp hb) hn hn'

theorem within_refill (hc : h.IsCollection c) {a : Nat} {n : String}
    (hn : h.field a n = .ref c) : Within (fun b m => b = a ∧ m = n) h (h.refill c items) where
  entity := isEntity_refill hc
  collection b hb := (isCollection_refill hc b).mpr hb
  field b m _ := field_refill hc b m
  stored b m d _ := by rw [field_refill hc]
  object b _ hfree := by
    apply get?_refill hc
    rintro rfl
    exact hfree a n hn ⟨rfl,rfl⟩

end Refill

section Open

variable {h : Heap} {a : Nat} {type n : String} {items : List Value} {unique : Bool}
  {changes : Nat}

theorem get?_push_eq_none {o : Object} {b : Nat} (hb : h.size < b) : (h.push o).get? b = none := by
  simp only [get?,push]
  exact List.getElem?_eq_none_iff.mpr (by simpa [size] using Nat.succ_le_of_lt hb)

theorem isEntity_push (b : Nat) (type' : String) :
    (h.push (.collection items unique changes)).IsEntity b type' ↔ h.IsEntity b type' := by
  rcases Nat.lt_trichotomy b h.size with hb | rfl | hb
  · simp only [IsEntity,get?_push hb]
  · refine iff_of_false ?_ (fun hb => Nat.lt_irrefl _ hb.lt_size)
    rintro ⟨fields,hget⟩
    rw [get?_push_size] at hget
    cases hget
  · refine iff_of_false ?_ (fun hent => Nat.lt_asymm hb hent.lt_size)
    rintro ⟨fields,hget⟩
    rw [get?_push_eq_none hb] at hget
    cases hget

theorem isCollection_push {c : Nat} (hc : h.IsCollection c) (o : Object) :
    (h.push o).IsCollection c := by
  have hlt := hc.lt_size
  simpa only [IsCollection,get?_push hlt] using hc

theorem field_push (b : Nat) (m : String) :
    (h.push (.collection items unique changes)).field b m = h.field b m := by
  by_cases hb : b < h.size
  · simp only [Heap.field,get?_push hb]
  · have hno : ∀ type', ¬ h.IsEntity b type' := fun type' hent => hb hent.lt_size
    rw [field_of_not_entity hno,field_of_not_entity]
    exact fun type' hent => hno type' ((isEntity_push b type').mp hent)

theorem Tidy.push (ht : h.Tidy) : (h.push (.collection items unique changes)).Tidy where
  closed b m c hm := by
    rw [field_push] at hm
    rw [size_push]
    exact Nat.lt_succ_of_lt (ht.closed b m c hm)
  unshared b m b' m' c hc hm hm' := by
    rw [field_push] at hm hm'
    have hlt := ht.closed b m c hm
    refine ht.unshared b m b' m' c ?_ hm hm'
    simpa only [IsCollection,get?_push hlt] using hc

theorem Tidy.loose_push (ht : h.Tidy) :
    (h.push (.collection items unique changes)).Loose h.size
      (.collection items unique changes) := by
  refine ⟨get?_push_size,fun b m hm => ?_⟩
  rw [field_push] at hm
  exact Nat.lt_irrefl _ (ht.closed b m _ hm)

theorem within_push (S : Nat → String → Prop) :
    Within S h (h.push (.collection items unique changes)) where
  entity := isEntity_push
  collection _ hc := isCollection_push hc _
  field b m _ := field_push b m
  stored b m _ _ := by rw [field_push]
  object c hc _ := get?_push hc.lt_size

theorem field_openCollection (ha : h.IsEntity a type) (b : Nat) (m : String) :
    (h.openCollection a n unique).field b m =
      if b = a ∧ m = n then .ref h.size else h.field b m := by
  rw [openCollection,field_assign ((isEntity_push a type).mpr ha),field_push]

/-- A collection that is there is left alone when another one is opened. -/
theorem get?_openCollection (ha : h.IsEntity a type) {c : Nat} (hc : h.IsCollection c) :
    (h.openCollection a n unique).get? c = h.get? c := by
  rw [openCollection,get?_assign ((isEntity_push a type).mpr ha) (ha.ne_collection hc).symm,
    get?_push hc.lt_size]

theorem get?_openCollection_size (ha : h.IsEntity a type) :
    (h.openCollection a n unique).get? h.size = some (.collection [] unique 0) := by
  have hne : h.size ≠ a := Nat.ne_of_gt ha.lt_size
  rw [openCollection,get?_assign ((isEntity_push a type).mpr ha) hne,get?_push_size]

theorem Tidy.openCollection (ht : h.Tidy) (ha : h.IsEntity a type) :
    (h.openCollection a n unique).Tidy := by
  apply ht.push.assign ((isEntity_push a type).mpr ha)
  rintro c ⟨⟩
  refine ⟨by rw [size_push]; exact Nat.lt_succ_self _,fun _ b m hm => ?_⟩
  rw [field_push] at hm
  exact Nat.lt_irrefl _ (ht.closed b m _ hm)

theorem within_openCollection (ha : h.IsEntity a type) (hnull : h.field a n = .null) :
    Within (fun b m => b = a ∧ m = n) h (h.openCollection a n unique) where
  entity b type' := (isEntity_assign ((isEntity_push a type).mpr ha) b type').trans
    (isEntity_push b type')
  collection c hc := (isCollection_assign ((isEntity_push a type).mpr ha) c).mpr
    (isCollection_push hc _)
  field b m hm := by rw [field_openCollection ha,if_neg hm]
  stored b m c hc := by
    rw [field_openCollection ha]
    split
    · rename_i hat
      rw [hat.1,hat.2,hnull]
      refine iff_of_false ?_ Value.noConfusion
      rintro ⟨⟩
      exact Nat.lt_irrefl _ hc.lt_size
    · exact Iff.rfl
  object _ hc _ := get?_openCollection ha hc

end Open

end EntityLink.Java.Heap
