import EntityLink.Proofs.SynchronizedPairs

namespace EntityLink
open Java Java.Exec Java.Heap

/-- The field of `a` holds in a later heap what a collection held before: its elements other than
null, each of them once. -/
structure Java.Heap.Replaced (h : Heap) (v : Value) (h' : Heap) (a : Nat) (n : String) : Prop where
  nodup : (h'.items (h'.field a n)).Nodup
  elements : ∀ w, w ∈ h'.items (h'.field a n) ↔ w ∈ h.items v ∧ w ≠ .null

section Setter

variable {s : Settings} {r o : Relationship} {p : Program} {h h' : Heap} {a c : Nat}

/-- The setter of a collection runs, and links what it is offered. -/
theorem exists_setter (hp : p.Implements s r o) (hmany : r.kind.isCollection = true)
    (hh : h.Consistent (r.link s o).side (o.link s r).side) (ha : h.IsEntity a r.source)
    (hc : h.IsCollection c) (hfits : ∀ w ∈ h.items (.ref c), h.Fits o.source w) :
    ∃ h', p.call (.ref a) (r.link s o).names.setter [.ref c] h = .ok (.null,h') ∧
      h.Relinks (r.link s o).side (o.link s r).side (h.Links (r.link s o).side)
        (h.Links (o.link s r).side) a (fun _ => True)
        (h.Offered (o.link s r).side (h.Links (r.link s o).side) a (.ref c)) h' := by
  have hmem : ∀ m ∈ (r.link s o).collectionAccessors,
      m ∈ (r.link s o).accessors (r.link s o).style := by
    intro m hm
    rw [Link.style_many (l := r.link s o) hmany]
    exact List.mem_append_left _ (List.mem_append_left _ hm)
  have hadder := hp.left_unshadowed (r.link s o).adder
    (hmem _ (by simp [Link.collectionAccessors]))
  have hsetter := hmem (r.link s o).manySetter (by simp [Link.collectionAccessors])
  obtain ⟨h',hrun,hb⟩ := exists_manySetter (d := 12) hp.couples hmany hadder
    (hh.represents hp.apart) hh.mirrored ha (.inr ⟨c,rfl,hc⟩) hfits
  exact ⟨h',gives_dispatch ha (hp.left _ hsetter) hrun,hb⟩

section Relinked

variable {x y : Side} {X Y : Nat → Nat → Prop} {v : Value}

/-- What is held after the setter is what the argument offered. -/
theorem mem_items_offered (hx : x.many = true) (ha : h.IsEntity a x.type)
    (hfits : ∀ w ∈ h.items v, h.Fits y.type w)
    (hb : h.Relinks x y X Y a (fun _ => True) (h.Offered y X a v) h') (w : Value) :
    w ∈ h'.items (h'.field a x.field) ↔ w ∈ h.items v ∧ w ≠ .null ∧
      (w = .ref a → ∀ b, X a b → h.field b y.field ≠ v) := by
  have ha' := (hb.within.entity a _).mpr ha
  have hlinked : ∀ b, .ref b ∈ h'.items (h'.field a x.field) ↔ h.Offered y X a v b := by
    intro b
    rw [← links_many hx,hb.represents.links a b ha']
    simp [Relinked]
  constructor
  · intro hw
    obtain ⟨b,rfl,-⟩ := (hb.represents.left a ha').typed w (by rwa [hx,holds_many])
    obtain ⟨hheld,hleft⟩ := (hlinked b).mp hw
    exact ⟨hheld,Value.noConfusion,fun hba => hleft (Value.ref.inj hba)⟩
  · rintro ⟨hheld,hnull,hleft⟩
    obtain ⟨b,rfl,-⟩ := (hfits w hheld).resolve_left hnull
    exact (hlinked b).mpr ⟨hheld,fun hba => hleft (congrArg Value.ref hba)⟩

/-- Where an element of `a` holds a collection on the other side, that collection has `a` in it. -/
theorem mem_items_of_field (hr : h.Represents x y X Y) (hmirror : h.Mirrors x y X Y)
    (ha : h.IsEntity a x.type) (hc : h.IsCollection c) {b : Nat} (hlink : X a b)
    (hfield : h.field b y.field = .ref c) : y.many = true ∧ .ref a ∈ h.items (.ref c) := by
  have hb := hr.typed ha hlink
  have hy := hr.symm.many_of_field hb hc hfield
  refine ⟨hy,?_⟩
  rw [hr.symm.mem_items hy hb hfield]
  exact (hmirror a b ha hb).mp hlink

/-- The setter holds all of its argument unless an element of `a` holds the argument on the other
side. Such an argument has `a` in it, and has it no longer when it is read. -/
theorem replaced_iff (hr : h.Represents x y X Y) (hmirror : h.Mirrors x y X Y) (hx : x.many = true)
    (ha : h.IsEntity a x.type) (hc : h.IsCollection c)
    (hfits : ∀ w ∈ h.items (.ref c), h.Fits y.type w)
    (hb : h.Relinks x y X Y a (fun _ => True) (h.Offered y X a (.ref c)) h') :
    h.Replaced (.ref c) h' a x.field ↔ ∀ b, X a b → h.field b y.field ≠ .ref c := by
  have helements := mem_items_offered hx ha hfits hb
  constructor
  · intro hreplaced b hlink hfield
    obtain ⟨-,hheld⟩ := mem_items_of_field hr hmirror ha hc hlink hfield
    have hkept := (hreplaced.elements (.ref a)).mpr ⟨hheld,Value.noConfusion⟩
    exact ((helements (.ref a)).mp hkept).2.2 rfl b hlink hfield
  · intro hother
    refine ⟨(hb.represents.left a ((hb.within.entity a _).mpr ha)).nodup hx,fun w => ?_⟩
    rw [helements,and_congr_right_iff]
    exact fun _ => and_iff_left (fun _ => hother)

end Relinked

/-- The setter of a collection leaves its object with the elements of the argument, each once and
null left out. Only where an element that the object had holds the argument on the other side, the
object itself is missing. -/
theorem setter_replaces_iff (hp : p.Implements s r o) (hmany : r.kind.isCollection = true)
    (hh : h.Consistent (r.link s o).side (o.link s r).side) (ha : h.IsEntity a r.source)
    (hc : h.IsCollection c) (hfits : ∀ w ∈ h.items (.ref c), h.Fits o.source w) :
    ∃ h', p.call (.ref a) (r.link s o).names.setter [.ref c] h = .ok (.null,h') ∧
      (h'.items (h'.field a r.field)).Nodup ∧
      (∀ w, w ∈ h'.items (h'.field a r.field) ↔ w ∈ h.items (.ref c) ∧ w ≠ .null ∧
        (w = .ref a → ∀ b, .ref b ∈ h.items (h.field a r.field) → h.field b o.field ≠ .ref c)) ∧
      (h.Replaced (.ref c) h' a r.field ↔
        ∀ b, .ref b ∈ h.items (h.field a r.field) → h.field b o.field ≠ .ref c) := by
  obtain ⟨h',hcall,hb⟩ := exists_setter hp hmany hh ha hc hfits
  have hlinks : ∀ b, h.Links (r.link s o).side a b ↔ .ref b ∈ h.items (h.field a r.field) :=
    fun b => links_many hmany
  have helements := mem_items_offered hmany ha hfits hb
  have hreplaced := replaced_iff (hh.represents hp.apart) hh.mirrored hmany ha hc hfits hb
  simp only [hlinks] at helements hreplaced
  exact ⟨h',hcall,(hb.represents.left a ((hb.within.entity a _).mpr ha)).nodup hmany,helements,
    hreplaced⟩

/-- Nothing is lost between entities of different types, nor where the other side holds one object
only. -/
theorem setter_replaces (hp : p.Implements s r o) (hmany : r.kind.isCollection = true)
    (hh : h.Consistent (r.link s o).side (o.link s r).side) (ha : h.IsEntity a r.source)
    (hc : h.IsCollection c) (hfits : ∀ w ∈ h.items (.ref c), h.Fits o.source w)
    (hother : r.source ≠ o.source ∨ o.kind.isCollection = false) :
    ∃ h', p.call (.ref a) (r.link s o).names.setter [.ref c] h = .ok (.null,h') ∧
      h.Replaced (.ref c) h' a r.field := by
  obtain ⟨h',hcall,hb⟩ := exists_setter hp hmany hh ha hc hfits
  have hr := hh.represents hp.apart
  refine ⟨h',hcall,(replaced_iff hr hh.mirrored hmany ha hc hfits hb).mpr ?_⟩
  intro b hlink hfield
  obtain ⟨hy,hheld⟩ := mem_items_of_field hr hh.mirrored ha hc hlink hfield
  rcases hother with htype | hone
  · obtain ⟨_,⟨⟩,ha'⟩ := (hfits _ hheld).resolve_left Value.noConfusion
    exact htype (ha.type_unique ha')
  · exact absurd hy (ne_true_of_eq_false hone)

end Setter

/-- Only `a` has a field assigned, and holds in it a collection of which `b` is the only element. -/
structure Java.Heap.OneOwner (h : Heap) (n : String) (a b c : Nat) : Prop where
  collection : h.IsCollection c
  field : h.field a n = .ref c
  items : h.items (.ref c) = [.ref b]
  others : ∀ a', a' ≠ a → h.field a' n = .null

section OneOwner

variable {h : Heap} {n : String} {a b c : Nat}

theorem Java.Heap.OneOwner.mem_items (hn : h.OneOwner n a b c) (a' : Nat) (v : Value) :
    v ∈ h.items (h.field a' n) ↔ a' = a ∧ v = .ref b := by
  by_cases haa : a' = a
  · rw [haa,hn.field,hn.items,List.mem_singleton]
    exact (and_iff_right rfl).symm
  · rw [hn.others a' haa]
    exact iff_of_false List.not_mem_nil (fun h => haa h.1)

theorem Java.Heap.OneOwner.keepsAt (hn : h.OneOwner n a b c) {type : String}
    (hb : h.IsEntity b type) (a' : Nat) : h.KeepsAt ⟨type,n,true⟩ type a' where
  opened _ := by
    by_cases haa : a' = a
    · exact .inr ⟨c,haa ▸ hn.field,hn.collection⟩
    · exact .inl (hn.others a' haa)
  nodup _ := by
    by_cases haa : a' = a
    · rw [haa,hn.field,hn.items]
      exact List.pairwise_singleton _ _
    · rw [hn.others a' haa]
      exact List.nodup_nil
  typed v hv := by
    rw [holds_many,hn.mem_items] at hv
    exact ⟨b,hv.2,hb⟩

end OneOwner

namespace Generation

/-- Employees advise each other, many to many. -/
def mentoring : Catalog :=
  .ofList [
    { name := "Employee", fields := [
      { name := "mentees", type := "List<Employee>", annotations := [⟨"ManyToMany",""⟩] },
      { name := "mentors", type := "List<Employee>",
        annotations := [⟨"ManyToMany","mappedBy = \"mentees\""⟩] }] }]

/-- Three employees. The first advises the second, and the third is on their own. -/
def mentored : Heap :=
  ⟨[.entity "Employee" (fun n => if n = "mentees" then .ref 3 else .null),
    .entity "Employee" (fun n => if n = "mentors" then .ref 4 else .null),
    .entity "Employee" (fun _ => .null),
    .collection [.ref 1] false 1,
    .collection [.ref 0] false 1]⟩

theorem mentored_field (a : Nat) (n : String) : mentored.field a n =
    if a = 0 ∧ n = "mentees" then .ref 3 else if a = 1 ∧ n = "mentors" then .ref 4 else .null := by
  rcases a with _ | _ | _ | _ | _ | a
  · simp [mentored,Heap.field,Heap.get?]
  · simp [mentored,Heap.field,Heap.get?]
  · rfl
  · rfl
  · rfl
  · rfl

theorem mentored_mentees : mentored.OneOwner "mentees" 0 1 3 where
  collection := ⟨_,_,_,rfl⟩
  field := rfl
  items := rfl
  others a ha := by simp [mentored_field,ha]

theorem mentored_mentors : mentored.OneOwner "mentors" 1 0 4 where
  collection := ⟨_,_,_,rfl⟩
  field := rfl
  items := rfl
  others a ha := by simp [mentored_field,ha]

theorem mentored_consistent :
    mentored.Consistent ⟨"Employee","mentees",true⟩ ⟨"Employee","mentors",true⟩ := by
  have hfield : ∀ a n c, mentored.field a n = .ref c →
      (a = 0 ∧ n = "mentees" ∧ c = 3) ∨ (a = 1 ∧ n = "mentors" ∧ c = 4) := by
    intro a n c h
    rw [mentored_field] at h
    split at h
    · rename_i h'
      cases h
      exact .inl ⟨h'.1,h'.2,rfl⟩
    · split at h
      · rename_i h'
        cases h
        exact .inr ⟨h'.1,h'.2,rfl⟩
      · cases h
  refine ⟨⟨fun a n c h => ?_,fun a n b m c _ h h' => ?_⟩,
    fun a _ => mentored_mentees.keepsAt ⟨_,rfl⟩ a,fun b _ => mentored_mentors.keepsAt ⟨_,rfl⟩ b,
    fun a b _ _ => ?_⟩
  · rcases hfield a n c h with ⟨-,-,rfl⟩ | ⟨-,-,rfl⟩
    · decide
    · decide
  · rcases hfield a n c h with ⟨rfl,rfl,rfl⟩ | ⟨rfl,rfl,rfl⟩
    · rcases hfield b m 3 h' with ⟨rfl,rfl,-⟩ | ⟨-,-,h⟩
      · exact ⟨rfl,rfl⟩
      · cases h
    · rcases hfield b m 4 h' with ⟨-,-,h⟩ | ⟨rfl,rfl,-⟩
      · cases h
      · exact ⟨rfl,rfl⟩
  · rw [links_many rfl,links_many rfl,mentored_mentees.mem_items,mentored_mentors.mem_items]
    simp [and_comm]

/-- The two sides as they are generated fit the heap. -/
theorem mentoring_implements :
    ∃ r ∈ (ofCatalog Analysis.uncycled mentoring).analysis.relationships,
      ∃ o ∈ (ofCatalog Analysis.uncycled mentoring).analysis.relationships,
      (ofCatalog Analysis.uncycled mentoring).synthesis.program.Implements
        Analysis.uncycled r o ∧
      mentored.Consistent (r.link Analysis.uncycled o).side (o.link Analysis.uncycled r).side ∧
      r.kind.isCollection = true ∧ r.source = "Employee" ∧ o.source = "Employee" ∧
      r.field = "mentees" ∧ o.field = "mentors" ∧
      (r.link Analysis.uncycled o).names.setter = "setMentees" := by
  have hpair : ∃ r ∈ (ofCatalog Analysis.uncycled mentoring).analysis.relationships,
      ∃ o ∈ (ofCatalog Analysis.uncycled mentoring).analysis.relationships,
      r.Partners o ∧ r.kind.complements o.kind = true ∧
      (ofCatalog Analysis.uncycled mentoring).analysis.findInverse? r = some o ∧
      (ofCatalog Analysis.uncycled mentoring).analysis.findInverse? o = some r ∧
      ((r.link Analysis.uncycled o).signatures ++
        (o.link Analysis.uncycled r).signatures).Nodup ∧
      (∀ m ∈ (r.link Analysis.uncycled o).accessors (r.link Analysis.uncycled o).style,
        m.Unshadowed) ∧
      (∀ m ∈ (o.link Analysis.uncycled r).accessors (o.link Analysis.uncycled r).style,
        m.Unshadowed) ∧
      (r.link Analysis.uncycled o).side = ⟨"Employee","mentees",true⟩ ∧
      (o.link Analysis.uncycled r).side = ⟨"Employee","mentors",true⟩ ∧
      (r.link Analysis.uncycled o).names.setter = "setMentees" := by
    decide +kernel
  have hnames : ∀ e ∈ (ofCatalog Analysis.uncycled mentoring).synthesis.entities,
      (e.methods.map Method.name).Nodup := by
    decide +kernel
  obtain ⟨r,hr,o,ho,hpartners,hkinds,hthere,hback,hsignatures,hleft,hright,hside,hside',hname⟩ :=
    hpair
  have hp := Synthesis.implements hr ho hpartners hkinds hthere hback hnames hsignatures hleft
    hright
  refine ⟨r,hr,o,ho,hp,?_,congrArg Side.many hside,congrArg Side.type hside,
    congrArg Side.type hside',congrArg Side.field hside,congrArg Side.field hside',hname⟩
  rw [hside,hside']
  exact mentored_consistent

theorem mentored_fits : ∀ w ∈ mentored.items (.ref 4), mentored.Fits "Employee" w :=
  List.forall_mem_singleton.mpr (.inr ⟨0,rfl,_,rfl⟩)

/-- The third employee takes over the mentors of the second as mentees. -/
theorem mentored_setMentees :
    ∃ r ∈ (ofCatalog Analysis.uncycled mentoring).analysis.relationships,
      ∃ o ∈ (ofCatalog Analysis.uncycled mentoring).analysis.relationships,
      (ofCatalog Analysis.uncycled mentoring).synthesis.program.Implements
        Analysis.uncycled r o ∧
      mentored.Consistent (r.link Analysis.uncycled o).side (o.link Analysis.uncycled r).side ∧
      mentored.IsEntity 2 r.source ∧ mentored.IsCollection 4 ∧
      (∀ w ∈ mentored.items (.ref 4), mentored.Fits o.source w) ∧
      ∃ h', (ofCatalog Analysis.uncycled mentoring).synthesis.program.call (.ref 2) "setMentees"
          [.ref 4] mentored = .ok (.null,h') ∧
        mentored.Replaced (.ref 4) h' 2 "mentees" := by
  obtain ⟨r,hr,o,ho,hp,hh,hmany,hsource,htarget,hfield,-,hname⟩ := mentoring_implements
  have ha : mentored.IsEntity 2 r.source := hsource ▸ ⟨_,rfl⟩
  have hc : mentored.IsCollection 4 := mentored_mentors.collection
  have hfits : ∀ w ∈ mentored.items (.ref 4), mentored.Fits o.source w := htarget ▸ mentored_fits
  obtain ⟨h',hcall,-,-,hiff⟩ := setter_replaces_iff hp hmany hh ha hc hfits
  rw [hname] at hcall
  rw [hfield] at hiff
  refine ⟨r,hr,o,ho,hp,hh,ha,hc,hfits,h',hcall,hiff.mpr (fun b hb => ?_)⟩
  cases ((mentored_mentees.mem_items 2 (.ref b)).mp hb).1

/-- The first employee, who advises the second, is given the mentors of the second as mentees. That
is the first employee alone, but they are read after all mentees have been let go. -/
theorem exists_element_lost : ¬ ∀ (p : Program) (s : Settings) (r o : Relationship) (h : Heap)
    (a c : Nat), p.Implements s r o → r.kind.isCollection = true →
    h.Consistent (r.link s o).side (o.link s r).side → h.IsEntity a r.source →
    h.IsCollection c → (∀ w ∈ h.items (.ref c), h.Fits o.source w) →
    ∃ h', p.call (.ref a) (r.link s o).names.setter [.ref c] h = .ok (.null,h') ∧
      h.Replaced (.ref c) h' a r.field := by
  intro hall
  obtain ⟨r,hr,o,ho,hp,hh,hmany,hsource,htarget,hfield,hfield',-⟩ := mentoring_implements
  have ha : mentored.IsEntity 0 r.source := hsource ▸ ⟨_,rfl⟩
  have hc : mentored.IsCollection 4 := mentored_mentors.collection
  have hfits : ∀ w ∈ mentored.items (.ref 4), mentored.Fits o.source w := htarget ▸ mentored_fits
  obtain ⟨h',hcall,hreplaced⟩ := hall _ _ r o mentored 0 4 hp hmany hh ha hc hfits
  obtain ⟨h₁,hcall₁,hb⟩ := exists_setter hp hmany hh ha hc hfits
  cases hcall.symm.trans hcall₁
  have hapart := (replaced_iff (hh.represents hp.apart) hh.mirrored hmany ha hc hfits hb).mp
    hreplaced
  have hmentee : mentored.Links (r.link Analysis.uncycled o).side 0 1 := by
    rw [links_many hmany]
    show .ref 1 ∈ mentored.items (mentored.field 0 r.field)
    rw [hfield]
    exact List.mem_singleton_self _
  have hmentors : mentored.field 1 o.field = .ref 4 := by
    rw [hfield']
    exact mentored_mentors.field
  exact hapart 1 hmentee hmentors

end Generation

end EntityLink
