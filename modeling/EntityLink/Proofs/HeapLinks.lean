import EntityLink.Proofs.HeapFrame
import Mathlib.Logic.Function.Basic

namespace EntityLink

/-- A field that all entities of a type have, for one value or for many. -/
structure Side where
  type : String
  field : String
  many : Bool
  deriving DecidableEq, Repr

namespace Java.Heap

/-- Whether the field of `a` holds `b`, or a collection that has `b` in it. -/
def Links (h : Heap) (x : Side) (a b : Nat) : Prop :=
  h.holds x.many a x.field (.ref b) = true

/-- What the field of one entity may hold: null, an entity of the target type, or a collection
of such entities that are all different. -/
structure KeepsAt (h : Heap) (x : Side) (target : String) (a : Nat) : Prop where
  opened : x.many = true → h.field a x.field = .null ∨
    ∃ c, h.field a x.field = .ref c ∧ h.IsCollection c
  nodup : x.many = true → (h.items (h.field a x.field)).Nodup
  typed : ∀ v, h.holds x.many a x.field v = true → ∃ b, v = .ref b ∧ h.IsEntity b target

/-- What one side links, the other links back. -/
def Mirrors (h : Heap) (x y : Side) (X Y : Nat → Nat → Prop) : Prop :=
  ∀ a b, h.IsEntity a x.type → h.IsEntity b y.type → (X a b ↔ Y b a)

/-- A tidy heap in which two sides hold each other: `b` is in the field of `a` on one side just
when `a` is in the field of `b` on the other. -/
structure Consistent (h : Heap) (x y : Side) : Prop where
  tidy : h.Tidy
  left : ∀ a, h.IsEntity a x.type → h.KeepsAt x y.type a
  right : ∀ b, h.IsEntity b y.type → h.KeepsAt y x.type b
  mirrored : h.Mirrors x y (h.Links x) (h.Links y)

/-- A tidy heap in which `X` tells what one side links, and `Y` what the other links back. -/
structure Represents (h : Heap) (x y : Side) (X Y : Nat → Nat → Prop) : Prop where
  apart : x.type = y.type → x.field ≠ y.field
  tidy : h.Tidy
  left : ∀ a, h.IsEntity a x.type → h.KeepsAt x y.type a
  right : ∀ b, h.IsEntity b y.type → h.KeepsAt y x.type b
  links : ∀ a b, h.IsEntity a x.type → (h.Links x a b ↔ X a b)
  back : ∀ a b, h.IsEntity b y.type → (h.Links y b a ↔ Y b a)

/-- The fields of both sides. -/
def Sites (h : Heap) (x y : Side) (a : Nat) (n : String) : Prop :=
  (h.IsEntity a x.type ∧ n = x.field) ∨ (h.IsEntity a y.type ∧ n = y.field)

/-- What comes out of a change to the fields of both sides. -/
structure Becomes (h : Heap) (x y : Side) (X Y : Nat → Nat → Prop) (h' : Heap) : Prop where
  within : Within (h.Sites x y) h h'
  represents : h'.Represents x y X Y

section Reading

variable {h : Heap} {x : Side} {a b : Nat}

theorem links_single (hx : x.many = false) : h.Links x a b ↔ h.field a x.field = .ref b := by
  rw [Links,holds,hx]
  simp

theorem links_many (hx : x.many = true) : h.Links x a b ↔ .ref b ∈ h.items (h.field a x.field) := by
  rw [Links,holds,hx]
  simp

theorem holds_single {n : String} {v : Value} :
    h.holds false a n v = true ↔ v ≠ .null ∧ h.field a n = v := by
  simp [holds]

theorem holds_many {n : String} {v : Value} :
    h.holds true a n v = true ↔ v ∈ h.items (h.field a n) := by
  simp [holds]

/-- A field that is left alone keeps what it holds. -/
theorem Within.holds_eq {S : Nat → String → Prop} {h' : Heap} (hw : Within S h h') (ht : h.Tidy)
    {n : String} (hn : ¬ S a n) (many : Bool) (v : Value) :
    h'.holds many a n v = h.holds many a n v := by
  rw [holds,holds,hw.items_field ht hn,hw.field a n hn]

theorem Within.keepsAt {S : Nat → String → Prop} {h' : Heap} (hw : Within S h h') (ht : h.Tidy)
    (hn : ¬ S a x.field) {target : String} (hk : h.KeepsAt x target a) :
    h'.KeepsAt x target a where
  opened hx := by
    rw [hw.field a _ hn]
    exact (hk.opened hx).imp_right (fun ⟨c,hc,hcoll⟩ => ⟨c,hc,hw.collection c hcoll⟩)
  nodup hx := by
    rw [hw.items_field ht hn]
    exact hk.nodup hx
  typed v hv := by
    rw [hw.holds_eq ht hn] at hv
    obtain ⟨b,rfl,hb⟩ := hk.typed v hv
    exact ⟨b,rfl,(hw.entity b target).mpr hb⟩

end Reading

section Pairs

variable {h h₁ h₂ : Heap} {x y : Side} {X Y X' Y' : Nat → Nat → Prop} {a : Nat}

theorem sites_comm : h.Sites x y = h.Sites y x := by
  funext a n
  exact propext Or.comm

theorem Within.sites_eq {S : Nat → String → Prop} (hw : Within S h h₁) :
    h₁.Sites x y = h.Sites x y := by
  funext a n
  simp only [Sites,hw.entity]

namespace Represents

protected theorem symm (hr : h.Represents x y X Y) : h.Represents y x Y X :=
  ⟨fun htype hfield => hr.apart htype.symm hfield.symm,hr.tidy,hr.right,hr.left,
    fun a b => hr.back b a,fun a b => hr.links b a⟩

theorem congr (hr : h.Represents x y X Y)
    (hX : ∀ a b, h.IsEntity a x.type → (X a b ↔ X' a b))
    (hY : ∀ a b, h.IsEntity b y.type → (Y b a ↔ Y' b a)) : h.Represents x y X' Y' :=
  ⟨hr.apart,hr.tidy,hr.left,hr.right,fun a b ha => (hr.links a b ha).trans (hX a b ha),
    fun a b hb => (hr.back a b hb).trans (hY a b hb)⟩

/-- Only entities of the target type are linked. -/
theorem typed (hr : h.Represents x y X Y) (ha : h.IsEntity a x.type) {b : Nat} (hab : X a b) :
    h.IsEntity b y.type := by
  obtain ⟨b',⟨⟩,hb⟩ := (hr.left a ha).typed (.ref b) ((hr.links a b ha).mpr hab)
  exact hb

theorem mem_items (hr : h.Represents x y X Y) (hx : x.many = true) (ha : h.IsEntity a x.type)
    {c : Nat} (hfield : h.field a x.field = .ref c) (b : Nat) :
    .ref b ∈ h.items (.ref c) ↔ X a b := by
  rw [← hfield,← links_many hx]
  exact hr.links a b ha

theorem nodup_items (hr : h.Represents x y X Y) (hx : x.many = true) (ha : h.IsEntity a x.type)
    {c : Nat} (hfield : h.field a x.field = .ref c) : (h.items (.ref c)).Nodup := by
  rw [← hfield]
  exact (hr.left a ha).nodup hx

theorem typed_items (hr : h.Represents x y X Y) (hx : x.many = true) (ha : h.IsEntity a x.type)
    {c : Nat} (hfield : h.field a x.field = .ref c) :
    ∀ v ∈ h.items (.ref c), ∃ b, v = .ref b ∧ h.IsEntity b y.type := by
  intro v hv
  apply (hr.left a ha).typed v
  rw [hx,holds_many,hfield]
  exact hv

protected theorem becomes (hr : h.Represents x y X Y) : h.Becomes x y X Y h :=
  ⟨.refl _ h,hr⟩

/-- A change to the field of one entity changes what this entity links, and nothing else. -/
theorem change (hr : h.Represents x y X Y) (ha : h.IsEntity a x.type)
    (hw : Within (fun b n => b = a ∧ n = x.field) h h₁) (ht : h₁.Tidy)
    (hk : h₁.KeepsAt x y.type a) {P : Nat → Prop} (hP : ∀ b, h₁.Links x a b ↔ P b) :
    h.Becomes x y (Function.update X a P) Y h₁ where
  within := hw.mono (by rintro b n ⟨rfl,rfl⟩; exact .inl ⟨ha,rfl⟩)
  represents := by
    have hother : ∀ b, h.IsEntity b y.type → ¬ (b = a ∧ y.field = x.field) := by
      rintro b hb ⟨rfl,hfield⟩
      exact hr.apart (ha.type_unique hb) hfield.symm
    refine ⟨hr.apart,ht,?_,?_,?_,?_⟩
    · intro b hb
      rw [hw.entity] at hb
      by_cases hba : b = a
      · rw [hba]
        exact hk
      · exact hw.keepsAt hr.tidy (fun hat => hba hat.1) (hr.left b hb)
    · intro b hb
      rw [hw.entity] at hb
      exact hw.keepsAt hr.tidy (hother b hb) (hr.right b hb)
    · intro b b' hb
      rw [hw.entity] at hb
      by_cases hba : b = a
      · rw [hba,Function.update_self]
        exact hP b'
      · rw [Function.update_of_ne hba,Links,hw.holds_eq hr.tidy (fun hat => hba hat.1)]
        exact hr.links b b' hb
    · intro b b' hb'
      rw [hw.entity] at hb'
      rw [Links,hw.holds_eq hr.tidy (hother b' hb')]
      exact hr.back b b' hb'

/-- A field for one value takes a new one. -/
theorem assign (hr : h.Represents x y X Y) (hx : x.many = false) (ha : h.IsEntity a x.type)
    {v : Value} (hv : h.Fits y.type v) :
    h.Becomes x y (Function.update X a (fun b => v = .ref b)) Y (h.assign a x.field v) := by
  have hentity : ∀ c, v = .ref c → h.IsEntity c y.type := by
    intro c hc
    rcases hv with hnull | ⟨b,hb,hent⟩
    · rw [hc] at hnull
      cases hnull
    · rw [hc] at hb
      cases hb
      exact hent
  have hfield : (h.assign a x.field v).field a x.field = v := by
    rw [field_assign ha,if_pos ⟨rfl,rfl⟩]
  have hold : ∀ c, h.field a x.field = .ref c → ¬ h.IsCollection c := by
    intro c hc
    have hlink := (links_single hx).mpr hc
    exact (hr.typed ha ((hr.links a c ha).mp hlink)).not_collection
  have hw := within_assign ha hold (fun c hc => (hentity c hc).not_collection)
  refine hr.change ha hw (hr.tidy.assign ha ?_) ⟨?_,?_,?_⟩ ?_
  · intro c hc
    exact ⟨(hentity c hc).lt_size,fun hcoll => absurd hcoll (hentity c hc).not_collection⟩
  · rw [hx]
    exact fun h => absurd h Bool.false_ne_true
  · rw [hx]
    exact fun h => absurd h Bool.false_ne_true
  · intro w hw'
    rw [hx,holds_single,hfield] at hw'
    obtain ⟨hnonnull,rfl⟩ := hw'
    obtain ⟨b,rfl,hb⟩ := hv.resolve_left hnonnull
    exact ⟨b,rfl,(hw.entity b y.type).mpr hb⟩
  · intro b
    rw [links_single hx,hfield]

/-- A collection takes new elements. -/
theorem refill (hr : h.Represents x y X Y) (hx : x.many = true) (ha : h.IsEntity a x.type)
    {c : Nat} (hfield : h.field a x.field = .ref c) (hc : h.IsCollection c) {items : List Value}
    (hnodup : items.Nodup) (htyped : ∀ v ∈ items, ∃ b, v = .ref b ∧ h.IsEntity b y.type) :
    h.Becomes x y (Function.update X a (fun b => .ref b ∈ items)) Y (h.refill c items) := by
  have hfield' : (h.refill c items).field a x.field = .ref c := by
    rw [field_refill hc,hfield]
  have hitems : (h.refill c items).items ((h.refill c items).field a x.field) = items := by
    rw [hfield',items_refill hc]
  have hw : Within (fun b n => b = a ∧ n = x.field) h (h.refill c items) :=
    within_refill hc hfield
  refine hr.change ha hw (hr.tidy.refill hc) ⟨?_,?_,?_⟩ ?_
  · exact fun _ => .inr ⟨c,hfield',(isCollection_refill hc c).mpr hc⟩
  · intro _
    rw [hitems]
    exact hnodup
  · intro v hv
    rw [hx,holds_many,hitems] at hv
    obtain ⟨b,rfl,hb⟩ := htyped v hv
    exact ⟨b,rfl,(hw.entity b y.type).mpr hb⟩
  · intro b
    rw [links_many hx,hitems]

/-- A collection that is opened links nothing yet. -/
theorem openCollection (hr : h.Represents x y X Y) (hx : x.many = true)
    (ha : h.IsEntity a x.type) (hnull : h.field a x.field = .null) (unique : Bool) :
    h.Becomes x y X Y (h.openCollection a x.field unique) := by
  have hfield : (h.openCollection a x.field unique).field a x.field = .ref h.size := by
    rw [field_openCollection ha,if_pos ⟨rfl,rfl⟩]
  have hget : (h.openCollection a x.field unique).get? h.size = some (.collection [] unique 0) :=
    get?_openCollection_size ha
  have hitems : (h.openCollection a x.field unique).items
      ((h.openCollection a x.field unique).field a x.field) = [] := by
    rw [hfield,items_ref hget]
  have hempty : ∀ b, ¬ X a b := by
    intro b hab
    have hlink := (hr.links a b ha).mpr hab
    rw [links_many hx,hnull] at hlink
    cases hlink
  have hw : Within (fun b n => b = a ∧ n = x.field) h (h.openCollection a x.field unique) :=
    within_openCollection ha hnull
  have hbecomes := hr.change (P := fun _ => False) ha hw (hr.tidy.openCollection ha) ⟨?_,?_,?_⟩ ?_
  · refine ⟨hbecomes.within,hbecomes.represents.congr ?_ (fun _ _ _ => Iff.rfl)⟩
    intro b b' _
    by_cases hba : b = a
    · rw [hba,Function.update_self]
      exact iff_of_false id (hempty b')
    · rw [Function.update_of_ne hba]
  · exact fun _ => .inr ⟨h.size,hfield,_,_,_,hget⟩
  · intro _
    rw [hitems]
    exact List.nodup_nil
  · intro v hv
    rw [hx,holds_many,hitems] at hv
    cases hv
  · intro b
    rw [links_many hx,hitems]
    exact iff_of_false List.not_mem_nil id

/-- What a field for one value holds is what it links. -/
theorem field_eq_iff (hr : h.Represents x y X Y) (hx : x.many = false)
    (ha : h.IsEntity a x.type) (b : Nat) :
    h.field a x.field = .ref b ↔ X a b := by
  rw [← links_single hx]
  exact hr.links a b ha

theorem single_unique (hr : h.Represents x y X Y) (hx : x.many = false)
    (ha : h.IsEntity a x.type) {b b' : Nat} (hb : X a b) (hb' : X a b') : b = b' := by
  have hfield := (hr.field_eq_iff hx ha b).mpr hb
  rw [(hr.field_eq_iff hx ha b').mpr hb'] at hfield
  exact (Value.ref.inj hfield).symm

/-- A field for one value is null, or holds an entity. -/
theorem field_cases (hr : h.Represents x y X Y) (hx : x.many = false)
    (ha : h.IsEntity a x.type) : h.field a x.field = .null ∨
      ∃ b, h.field a x.field = .ref b ∧ h.IsEntity b y.type := by
  by_cases hnull : h.field a x.field = .null
  · exact .inl hnull
  · have hholds := holds_single.mpr ⟨hnull,rfl⟩
    rw [← hx] at hholds
    exact .inr ((hr.left a ha).typed _ hholds)

/-- Only a field for many values holds a collection. -/
theorem many_of_field (hr : h.Represents x y X Y) (ha : h.IsEntity a x.type) {c : Nat}
    (hc : h.IsCollection c) (hfield : h.field a x.field = .ref c) : x.many = true := by
  cases hx : x.many with
  | true => rfl
  | false =>
    have hlink := (hr.field_eq_iff hx ha c).mp hfield
    exact absurd hc (hr.typed ha hlink).not_collection

/-- A field for one value lets go of it. -/
theorem release (hr : h.Represents x y X Y) (hx : x.many = false) (ha : h.IsEntity a x.type)
    {b : Nat} (hab : X a b) :
    h.Becomes x y (Function.update X a (fun b' => b' ≠ b ∧ X a b')) Y
      (h.assign a x.field .null) := by
  have hb := hr.assign hx ha (.inl rfl)
  rwa [show (fun b => Value.null = .ref b) = fun b' => b' ≠ b ∧ X a b' from ?_] at hb
  funext b'
  refine propext (iff_of_false Value.noConfusion ?_)
  rintro ⟨hne,hb'⟩
  exact hne (hr.single_unique hx ha hb' hab)

/-- A collection that no field holds links nothing. -/
theorem push (hr : h.Represents x y X Y) (items : List Value) (unique : Bool) (changes : Nat) :
    h.Becomes x y X Y (h.push (.collection items unique changes)) := by
  have hw : Within (fun _ _ => False) h (h.push (.collection items unique changes)) :=
    within_push _
  refine ⟨hw.mono (fun _ _ hf => hf.elim),⟨hr.apart,hr.tidy.push,?_,?_,?_,?_⟩⟩
  · intro a ha
    exact hw.keepsAt hr.tidy id (hr.left a ((hw.entity a _).mp ha))
  · intro b hb
    exact hw.keepsAt hr.tidy id (hr.right b ((hw.entity b _).mp hb))
  · intro a b ha
    rw [Links,hw.holds_eq hr.tidy id]
    exact hr.links a b ((hw.entity a _).mp ha)
  · intro a b hb
    rw [Links,hw.holds_eq hr.tidy id]
    exact hr.back a b ((hw.entity b _).mp hb)

end Represents

namespace Becomes

theorem trans (hb : h.Becomes x y X Y h₁) (hb' : h₁.Becomes x y X' Y' h₂) :
    h.Becomes x y X' Y' h₂ := by
  refine ⟨hb.within.trans ?_,hb'.represents⟩
  rw [← hb.within.sites_eq]
  exact hb'.within

protected theorem symm (hb : h.Becomes x y X Y h₁) : h.Becomes y x Y X h₁ :=
  ⟨sites_comm ▸ hb.within,hb.represents.symm⟩

theorem congr (hb : h.Becomes x y X Y h₁) (hX : ∀ a b, h.IsEntity a x.type → (X a b ↔ X' a b))
    (hY : ∀ a b, h.IsEntity b y.type → (Y b a ↔ Y' b a)) : h.Becomes x y X' Y' h₁ :=
  ⟨hb.within,hb.represents.congr (fun a b ha => hX a b ((hb.within.entity a _).mp ha))
    (fun a b hb' => hY a b ((hb.within.entity b _).mp hb'))⟩

theorem update_congr {a : Nat} {P Q : Nat → Prop}
    (hb : h.Becomes x y (Function.update X a P) Y h₁) (hPQ : ∀ b, P b ↔ Q b) :
    h.Becomes x y (Function.update X a Q) Y h₁ := by
  rwa [← show P = Q from funext (fun b => propext (hPQ b))]

/-- What links as it did is not changed. -/
theorem update_self {a : Nat} {P : Nat → Prop} (hb : h.Becomes x y X Y h₁)
    (hP : ∀ b, X a b ↔ P b) : h.Becomes x y (Function.update X a P) Y h₁ := by
  rwa [← show X a = P from funext (fun b => propext (hP b)),Function.update_eq_self]

/-- A collection that no field holds is left alone. -/
theorem loose (hb : h.Becomes x y X Y h₁) {k : Nat} {items : List Value} {unique : Bool}
    {changes : Nat} (hk : h.Loose k (.collection items unique changes)) :
    h₁.Loose k (.collection items unique changes) := by
  have hcoll : h.IsCollection k := ⟨_,_,_,hk.1⟩
  exact ⟨(hb.within.object k hcoll (fun a n hn => absurd hn (hk.2 a n))).trans hk.1,
    fun a n => mt (hb.within.stored a n k hcoll).mp (hk.2 a n)⟩

/-- What a collection holds that a field holds, before and after a change. -/
theorem mem_items_iff (hr : h.Represents x y X Y) (hb : h.Becomes x y X' Y' h₁)
    (ha : h.IsEntity a x.type) {c : Nat} (hc : h.IsCollection c)
    (hfield : h.field a x.field = .ref c) (b : Nat) :
    (.ref b ∈ h.items (.ref c) ↔ X a b) ∧ (.ref b ∈ h₁.items (.ref c) ↔ X' a b) := by
  have hx := hr.many_of_field ha hc hfield
  exact ⟨hr.mem_items hx ha hfield b,hb.represents.mem_items hx ((hb.within.entity a _).mpr ha)
    ((hb.within.stored a _ c hc).mpr hfield) b⟩

theorem items_subset_left (hr : h.Represents x y X Y) (hb : h.Becomes x y X' Y' h₁)
    (hX : ∀ a b, h.IsEntity a x.type → X' a b → X a b) {c : Nat} (hc : h.IsCollection c)
    (ha : h.IsEntity a x.type) (hfield : h.field a x.field = .ref c) :
    ∀ v ∈ h₁.items (.ref c), v ∈ h.items (.ref c) := by
  have ha₁ := (hb.within.entity a _).mpr ha
  have hfield₁ := (hb.within.stored a x.field c hc).mpr hfield
  intro v hv
  obtain ⟨b,rfl,-⟩ :=
    hb.represents.typed_items (hr.many_of_field ha hc hfield) ha₁ hfield₁ v hv
  obtain ⟨hbefore,hafter⟩ := mem_items_iff hr hb ha hc hfield b
  exact hbefore.mpr (hX a b ha (hafter.mp hv))

/-- Where links are only taken away, collections gain no elements. -/
theorem items_subset (hr : h.Represents x y X Y) (hb : h.Becomes x y X' Y' h₁)
    (hX : ∀ a b, h.IsEntity a x.type → X' a b → X a b)
    (hY : ∀ b a, h.IsEntity b y.type → Y' b a → Y b a) {c : Nat} (hc : h.IsCollection c) :
    ∀ v ∈ h₁.items (.ref c), v ∈ h.items (.ref c) := by
  by_cases hsite : ∃ a n, h.Sites x y a n ∧ h.field a n = .ref c
  · obtain ⟨a,n,⟨ha,rfl⟩ | ⟨ha,rfl⟩,hfield⟩ := hsite
    · exact items_subset_left hr hb hX hc ha hfield
    · exact items_subset_left hr.symm hb.symm hY hc ha hfield
  · have hobject := hb.within.object c hc (fun a n hfield hs => hsite ⟨a,n,hs,hfield⟩)
    intro v hv
    simpa only [Heap.items,hobject] using hv

end Becomes

protected theorem Consistent.symm (hc : h.Consistent x y) : h.Consistent y x :=
  ⟨hc.tidy,hc.right,hc.left,fun b a hb ha => (hc.mirrored a b ha hb).symm⟩

/-- Before any field is assigned, nothing is linked. -/
theorem consistent_of_unset (hunset : ∀ a n, h.field a n = .null) (x y : Side) :
    h.Consistent x y := by
  have hempty : ∀ many a n v, h.holds many a n v = false := by
    intro many a n v
    cases many with
    | false => simp [holds,hunset,@eq_comm _ Value.null]
    | true => simp [holds,hunset,Heap.items]
  have hkeeps : ∀ x target a, h.KeepsAt x target a := by
    intro x target a
    refine ⟨fun _ => .inl (hunset a _),fun _ => ?_,fun v hv => ?_⟩
    · rw [hunset]
      exact List.nodup_nil
    · rw [hempty] at hv
      cases hv
  refine ⟨⟨?_,?_⟩,fun a _ => hkeeps x _ a,fun b _ => hkeeps y _ b,fun a b _ _ => ?_⟩
  · intro a n c hc
    rw [hunset] at hc
    cases hc
  · intro a n b m c _ hc
    rw [hunset] at hc
    cases hc
  · simp only [Links,hempty]

/-- What the links of a consistent heap are. -/
theorem Consistent.represents (hc : h.Consistent x y)
    (hapart : x.type = y.type → x.field ≠ y.field) :
    h.Represents x y (h.Links x) (h.Links y) :=
  ⟨hapart,hc.tidy,hc.left,hc.right,fun _ _ _ => Iff.rfl,fun _ _ _ => Iff.rfl⟩

/-- A heap is consistent if the relations it represents mirror each other. -/
theorem Represents.consistent (hr : h.Represents x y X Y) (hmirror : h.Mirrors x y X Y) :
    h.Consistent x y :=
  ⟨hr.tidy,hr.left,hr.right,fun a b ha hb =>
    (hr.links a b ha).trans ((hmirror a b ha hb).trans (hr.back a b hb).symm)⟩

end Pairs

section Relinking

variable {h h₁ : Heap} {x y : Side} {X Y : Nat → Nat → Prop} {a b : Nat} {lost gained : Nat → Prop}

/-- What is linked after `a` has let go of some values and taken others. Where a value refers to one
object only, it is taken from its previous owner. -/
def Relinked (shared : Bool) (X : Nat → Nat → Prop) (a : Nat) (lost gained : Nat → Prop)
    (a' b' : Nat) : Prop :=
  (a' = a ∧ gained b') ∨ (X a' b' ∧ ¬ (a' = a ∧ lost b') ∧ (shared = true ∨ a' = a ∨ ¬ gained b'))

theorem of_relinked_none {shared : Bool} {a' b' : Nat}
    (hlink : Relinked shared X a lost (fun _ => False) a' b') : X a' b' :=
  hlink.elim (fun hgained => hgained.2.elim) And.left

/-- `a` lets go of some values and takes others, and the values link it accordingly. -/
def Relinks (h : Heap) (x y : Side) (X Y : Nat → Nat → Prop) (a : Nat) (lost gained : Nat → Prop)
    (h' : Heap) : Prop :=
  h.Becomes x y (Relinked y.many X a lost gained)
    (fun b' a' => Relinked y.many (fun a b => Y b a) a lost gained a' b') h'

/-- Values that refer to one object only have no other owner. -/
theorem Represents.owner_unique (hr : h.Represents x y X Y) (hmirror : h.Mirrors x y X Y)
    (ha : h.IsEntity a x.type) (hab : X a b) {a' : Nat} (ha' : h.IsEntity a' x.type)
    (ha'b : X a' b) : y.many = true ∨ a' = a := by
  have hb := hr.typed ha hab
  cases hy : y.many with
  | true => exact .inl rfl
  | false =>
    exact .inr (hr.symm.single_unique hy hb ((hmirror a' b ha' hb).mp ha'b)
      ((hmirror a b ha hb).mp hab))

/-- Nothing changes if `a` takes only what it has and lets go only of what it takes. -/
theorem Represents.relinks_self (hr : h.Represents x y X Y) (hmirror : h.Mirrors x y X Y)
    (ha : h.IsEntity a x.type)
    (hown : ∀ b, X a b ↔ gained b ∨ (X a b ∧ ¬ lost b)) : h.Relinks x y X Y a lost gained h := by
  have hlinked : ∀ a' b', h.IsEntity a' x.type →
      (X a' b' ↔ Relinked y.many X a lost gained a' b') := by
    intro a' b' ha'
    by_cases haa : a' = a
    · subst haa
      simpa [Relinked] using hown b'
    · simp only [Relinked,haa,false_and,not_false_eq_true,true_and,false_or]
      refine ⟨fun hx => ⟨hx,?_⟩,And.left⟩
      rw [or_iff_not_imp_right,not_not]
      intro hgained
      exact (hr.owner_unique hmirror ha ((hown b').mpr (.inl hgained)) ha' hx).resolve_right haa
  refine hr.becomes.congr hlinked (fun a' b' hb' => ?_)
  by_cases ha' : h.IsEntity a' x.type
  · rw [← hmirror a' b' ha' hb',hlinked a' b' ha']
    simp only [Relinked,hmirror a' b' ha' hb']
  · have hback : ¬ Y b' a' := fun hy => ha' (hr.symm.typed hb' hy)
    have hne : a' ≠ a := fun haa => ha' (haa ▸ ha)
    simp only [Relinked,hback,hne,false_and,or_false]

theorem Relinks.lost_gained_congr {lost' gained' : Nat → Prop}
    (hb : h.Relinks x y X Y a lost gained h₁) (hlost : ∀ b, lost b ↔ lost' b)
    (hgained : ∀ b, gained b ↔ gained' b) : h.Relinks x y X Y a lost' gained' h₁ := by
  rwa [← show lost = lost' from funext (fun b => propext (hlost b)),
    ← show gained = gained' from funext (fun b => propext (hgained b))]

theorem Relinks.gained_congr {gained' : Nat → Prop} (hb : h.Relinks x y X Y a lost gained h₁)
    (hgained : ∀ b, gained b ↔ gained' b) : h.Relinks x y X Y a lost gained' h₁ :=
  hb.lost_gained_congr (fun _ => Iff.rfl) hgained

theorem relinked_take (shared : Bool) (X : Nat → Nat → Prop) (a : Nat)
    (lost gained more : Nat → Prop) (a' b' : Nat) :
    Relinked shared (Relinked shared X a lost gained) a (fun _ => False) more a' b' ↔
      Relinked shared X a lost (fun b => gained b ∨ more b) a' b' := by
  simp only [Relinked,and_false,not_false_eq_true,true_and]
  grind

/-- What is taken after another change adds to what was taken by it. -/
theorem Relinks.take (hb : h.Relinks x y X Y a lost gained h₁) {more : Nat → Prop} {h₂ : Heap}
    (hb' : h₁.Relinks x y (Relinked y.many X a lost gained)
      (fun b' a' => Relinked y.many (fun a b => Y b a) a lost gained a' b') a (fun _ => False)
      more h₂) :
    h.Relinks x y X Y a lost (fun b => gained b ∨ more b) h₂ :=
  (hb.trans hb').congr (fun a' b' _ => relinked_take _ _ _ _ _ _ a' b')
    (fun a' b' _ => relinked_take _ _ _ _ _ _ a' b')

theorem Mirrors.relinked (hmirror : h.Mirrors x y X Y) (shared : Bool) (a : Nat)
    (lost gained : Nat → Prop) : h.Mirrors x y (Relinked shared X a lost gained)
      (fun b' a' => Relinked shared (fun a b => Y b a) a lost gained a' b') := by
  intro a' b' ha' hb'
  simp only [Relinked,hmirror a' b' ha' hb']

theorem Mirrors.within (hmirror : h.Mirrors x y X Y) {S : Nat → String → Prop}
    (hw : Within S h h₁) : h₁.Mirrors x y X Y :=
  fun a b ha hb => hmirror a b ((hw.entity a _).mp ha) ((hw.entity b _).mp hb)

theorem Relinks.consistent (hb : h.Relinks x y X Y a lost gained h₁)
    (hmirror : h.Mirrors x y X Y) : h₁.Consistent x y :=
  hb.represents.consistent ((hmirror.within hb.within).relinked _ _ _ _)

end Relinking

end Java.Heap

end EntityLink
