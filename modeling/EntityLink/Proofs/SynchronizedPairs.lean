import EntityLink.Proofs.CallResolution
import EntityLink.Proofs.CollectionReplacement
import EntityLink.Proofs.SetterExecution
import EntityLink.Synthesis.Program

namespace EntityLink
open Java Java.Exec Java.Heap

namespace Link

variable {l : Link} {m : Method}

/-- The names of the accessors, each with the type that declares it. -/
def signatures (l : Link) : List (String × String) :=
  (l.accessors l.style).map (fun m => (l.side.type,m.name))

/-- The arguments of a public mutator: null or an entity of the target type, for the setter of a
collection null or a collection of these, and none to clear. -/
def Takes (l : Link) (h : Heap) (target : String) : MethodKind → List Value → Prop
  | .clearer, vs => vs = []
  | .setter, vs => ∃ v, vs = [v] ∧ if l.side.many then
      (v = .null ∨ ∃ c, v = .ref c ∧ h.IsCollection c) ∧ ∀ w ∈ h.items v, h.Fits target w
    else h.Fits target v
  | _, vs => ∃ v, vs = [v] ∧ h.Fits target v

/-- What an object lets go of in a public mutator. -/
def Loses : MethodKind → List Value → Nat → Prop
  | .setter, _, _ | .clearer, _, _ => True
  | .remover, vs, b => .ref b ∈ vs
  | _, _, _ => False

/-- What an object takes in a public mutator. -/
def Gains (l : Link) (h : Heap) (y : Side) (a : Nat) : MethodKind → List Value → Nat → Prop
  | .setter, vs, b =>
    if l.side.many then ∃ v ∈ vs, h.Offered y (h.Links l.side) a v b else .ref b ∈ vs
  | .adder, vs, b => .ref b ∈ vs
  | _, _, _ => False

theorem eq_singleSetter (hm : m ∈ l.singleAccessors) (hmut : m.kind.isPublicMutator = true) :
    m = l.singleSetter := by
  simp only [singleAccessors,List.mem_append,List.mem_cons,List.not_mem_nil,or_false,
    List.mem_ite_nil_right] at hm
  rcases hm with ((rfl | rfl) | ⟨-,rfl⟩) | ⟨-,rfl⟩
  · cases hmut
  · rfl
  · cases hmut
  · cases hmut

theorem eq_many_mutator (hm : m ∈ l.manyAccessors) (hmut : m.kind.isPublicMutator = true) :
    m = l.manySetter ∨ m = l.adder ∨ m = l.remover ∨ m = l.clearer := by
  simp only [manyAccessors,collectionAccessors,List.mem_append,List.mem_cons,List.not_mem_nil,
    or_false,List.mem_ite_nil_right] at hm
  rcases hm with ((rfl | hm) | ⟨-,rfl | rfl | rfl⟩) | ⟨-,rfl⟩
  · cases hmut
  · exact hm
  · cases hmut
  · cases hmut
  · cases hmut
  · cases hmut

end Link

section Mutation

variable {p : Program} {l l' : Link} {h : Heap} {a : Nat} {m : Method} {vs : List Value}

/-- Each public mutator of a pair lets go of and takes what it should. -/
theorem exists_mutation (hp : p.Couples l l')
    (hapart : l.side.type = l'.side.type → l.side.field ≠ l'.side.field)
    (hshadow : ∀ m ∈ l.accessors l.style, m.Unshadowed) (hh : h.Consistent l.side l'.side)
    (ha : h.IsEntity a l.side.type) (hm : m ∈ l.accessors l.style)
    (hmut : m.kind.isPublicMutator = true) (hvs : l.Takes h l'.side.type m.kind vs) :
    ∃ v h', Gives (p.call (.ref a) m.name vs) h v h' ∧
      h.Relinks l.side l'.side (h.Links l.side) (h.Links l'.side) a (Link.Loses m.kind vs)
        (l.Gains h l'.side a m.kind vs) h' := by
  suffices ∃ v h', Gives (p.run Program.depth (.ref a) m vs) h v h' ∧
      h.Relinks l.side l'.side (h.Links l.side) (h.Links l'.side) a (Link.Loses m.kind vs)
        (l.Gains h l'.side a m.kind vs) h' by
    obtain ⟨v,h',hrun,hb⟩ := this
    exact ⟨v,h',gives_dispatch ha (hp.left.offers m hm) hrun,hb⟩
  have hr := hh.represents hapart
  have hmirror := hh.mirrored
  cases hx : l.side.many with
  | false =>
    rw [Link.style_single hx] at hm hshadow
    obtain rfl := Link.eq_singleSetter hm hmut
    obtain ⟨v,rfl,hv⟩ := hvs
    rw [hx,if_neg Bool.false_ne_true] at hv
    obtain ⟨h',hrun,hb⟩ := exists_singleSetter (d := 13) hp hx (hshadow _ hm) hr hmirror ha hv
    refine ⟨.null,h',hrun,hb.lost_gained_congr (fun _ => Iff.rfl) (fun b => ?_)⟩
    simp [Link.Gains,hx,Link.singleSetter,eq_comm]
  | true =>
    rw [Link.style_many hx] at hm hshadow
    have hadder : l.adder.Unshadowed := by
      apply hshadow
      simp [Link.accessors,Link.manyAccessors,Link.collectionAccessors]
    rcases Link.eq_many_mutator hm hmut with rfl | rfl | rfl | rfl
    · obtain ⟨v,rfl,hv⟩ := hvs
      rw [if_pos hx] at hv
      obtain ⟨h',hrun,hb⟩ := exists_manySetter (d := 12) hp hx hadder hr hmirror ha hv.1 hv.2
      refine ⟨.null,h',hrun,hb.lost_gained_congr (fun _ => Iff.rfl) (fun b => ?_)⟩
      simp [Link.Gains,hx,Link.manySetter]
    · obtain ⟨v,rfl,hv⟩ := hvs
      obtain ⟨t,h',hrun,hb⟩ := exists_adder (d := 13) hp hx hadder hr hmirror ha hv
      refine ⟨.bool t,h',hrun,hb.lost_gained_congr (fun _ => Iff.rfl) (fun b => ?_)⟩
      simp [Link.Gains,Link.adder,eq_comm]
    · obtain ⟨v,rfl,hv⟩ := hvs
      obtain ⟨t,h',hrun,hb⟩ := exists_remover (d := 14) hp hx hr hmirror ha hv
      refine ⟨.bool t,h',hrun,hb.lost_gained_congr (fun b => ?_) (fun _ => Iff.rfl)⟩
      simp [Link.Loses,Link.remover,eq_comm]
    · obtain rfl := hvs
      obtain ⟨h',hrun,hb⟩ := exists_clearer (d := 14) hp hx hr hmirror ha
      exact ⟨.null,h',hrun,hb⟩

end Mutation

section Pairs

variable {s : Settings} {r o : Relationship} {p : Program}

/-- A relationship as it is generated for a given inverse side. -/
def Relationship.link (s : Settings) (r o : Relationship) : Link :=
  Link.new s r (some o)

/-- A program has the accessors of two relationships that are paired with each other. Each of them
has a name of its own, and none declares a local called like a parameter. -/
structure Java.Program.Implements (p : Program) (s : Settings) (r o : Relationship) : Prop where
  partners : r.Partners o
  kinds : r.kind.complements o.kind = true
  left : p.Offers r.source ((r.link s o).accessors (r.link s o).style)
  right : p.Offers o.source ((o.link s r).accessors (o.link s r).style)
  names : ((r.link s o).signatures ++ (o.link s r).signatures).Nodup
  left_unshadowed : ∀ m ∈ (r.link s o).accessors (r.link s o).style, m.Unshadowed
  right_unshadowed : ∀ m ∈ (o.link s r).accessors (o.link s r).style, m.Unshadowed

theorem RelationKind.complements_comm (k k' : RelationKind) :
    k.complements k' = k'.complements k := by
  cases k <;> cases k' <;> rfl

theorem Relationship.Partners.inverse_link (h : r.Partners o) :
    (r.link s o).inverse = some (o.link s r).asInverse := by
  have hnames : (o.link s r).names = (Inverse.ofRelationship o).names :=
    Link.names_new h.facing.isAssociation
  rw [Link.asInverse,hnames,Relationship.link,Link.new,h.left]
  rfl

theorem Relationship.getter_mem_signatures (s : Settings) (r o : Relationship) :
    (r.source,"get" ++ Text.capitalize r.field) ∈ (r.link s o).signatures := by
  refine List.mem_map.mpr ?_
  cases hx : (r.link s o).side.many with
  | false =>
    rw [Link.style_single hx]
    exact ⟨(r.link s o).singleGetter,by simp [Link.accessors,Link.singleAccessors],rfl⟩
  | true =>
    rw [Link.style_many hx]
    exact ⟨(r.link s o).manyGetter,
      by simp [Link.accessors,Link.manyAccessors,Link.collectionAccessors],rfl⟩

namespace Java.Program.Implements

protected theorem symm (hp : p.Implements s r o) : p.Implements s o r where
  partners := hp.partners.symm
  kinds := (RelationKind.complements_comm _ _).trans hp.kinds
  left := hp.right
  right := hp.left
  names := List.nodup_append_comm.mp hp.names
  left_unshadowed := hp.right_unshadowed
  right_unshadowed := hp.left_unshadowed

theorem couples (hp : p.Implements s r o) : p.Couples (r.link s o) (o.link s r) where
  left := ⟨by rw [hp.partners.inverse_link]; rfl,hp.left⟩
  right := ⟨by rw [hp.partners.symm.inverse_link]; rfl,hp.right⟩
  there := hp.partners.inverse_link
  kinds := hp.kinds

/-- Fields of one entity are told apart by their getters. -/
theorem apart (hp : p.Implements s r o) (htype : r.source = o.source) : r.field ≠ o.field := by
  intro hfield
  have hleft := r.getter_mem_signatures s o
  rw [htype,hfield] at hleft
  exact List.disjoint_of_nodup_append hp.names hleft (o.getter_mem_signatures s r)

end Java.Program.Implements

variable {h : Heap} {a : Nat} {m : Method} {vs : List Value}

/-- From every consistent heap each public mutator of a paired relationship, called on any object
of its source with any arguments that fit, ends without a fault in a consistent heap. The object
has let go of what the mutator is to take away and has taken what it is to give, and no other
field than those of the pair has changed. -/
theorem mutators_synchronize (hp : p.Implements s r o)
    (hh : h.Consistent (r.link s o).side (o.link s r).side) (ha : h.IsEntity a r.source)
    (hm : m ∈ (r.link s o).accessors (r.link s o).style) (hmut : m.kind.isPublicMutator = true)
    (hvs : (r.link s o).Takes h o.source m.kind vs) :
    ∃ v h', p.call (.ref a) m.name vs h = .ok (v,h') ∧
      h'.Consistent (r.link s o).side (o.link s r).side ∧
      h.Relinks (r.link s o).side (o.link s r).side (h.Links (r.link s o).side)
        (h.Links (o.link s r).side) a (Link.Loses m.kind vs)
        ((r.link s o).Gains h (o.link s r).side a m.kind vs) h' := by
  obtain ⟨v,h',hcall,hb⟩ := exists_mutation hp.couples hp.apart hp.left_unshadowed hh ha hm hmut hvs
  exact ⟨v,h',hcall,hb.consistent hh.mirrored,hb⟩

/-- A call of a public mutator on an object of the source. -/
def Java.Program.Mutates (p : Program) (s : Settings) (r o : Relationship) (h h' : Heap) : Prop :=
  ∃ a m vs v, h.IsEntity a r.source ∧ m ∈ (r.link s o).accessors (r.link s o).style ∧
    m.kind.isPublicMutator = true ∧ (r.link s o).Takes h o.source m.kind vs ∧
    p.call (.ref a) m.name vs h = .ok (v,h')

theorem consistent_of_mutates (hp : p.Implements s r o)
    (hh : h.Consistent (r.link s o).side (o.link s r).side) {h' : Heap}
    (hstep : p.Mutates s r o h h') : h'.Consistent (r.link s o).side (o.link s r).side := by
  obtain ⟨a,m,vs,v,ha,hm,hmut,hvs,hcall⟩ := hstep
  obtain ⟨w,h₁,hgives,hb⟩ := exists_mutation hp.couples hp.apart hp.left_unshadowed hh ha hm
    hmut hvs
  cases hcall.symm.trans hgives
  exact hb.consistent hh.mirrored

/-- However often the two sides of a pair are changed, they stay consistent. -/
theorem consistent_of_mutations (hp : p.Implements s r o)
    (hh : h.Consistent (r.link s o).side (o.link s r).side) {h' : Heap}
    (hrun : Relation.ReflTransGen (fun h h' => p.Mutates s r o h h' ∨ p.Mutates s o r h h') h h') :
    h'.Consistent (r.link s o).side (o.link s r).side := by
  induction hrun with
  | refl => exact hh
  | tail _ hstep ih =>
    rcases hstep with hstep | hstep
    · exact consistent_of_mutates hp ih hstep
    · exact (consistent_of_mutates hp.symm ih.symm hstep).symm

end Pairs

section Generated

variable {s : Settings} {c : Catalog} {r o : Relationship}

theorem Link.style_of_kind (l : Link) (h : l.kind.isAssociation = true) :
    AccessorStyle.of? l.kind = some l.style := by
  rw [Link.style]
  cases hk : l.kind with
  | none | inheritance | embedded | composition =>
    rw [hk] at h
    cases h
  | oneToOne | oneToMany | manyToOne | manyToMany => rfl

theorem Java.find?_name_eq_some {ms : List Method} {m : Method}
    (hnames : (ms.map Method.name).Nodup) (hm : m ∈ ms) : ms.find? (·.name == m.name) = some m := by
  obtain ⟨x,hx⟩ : ∃ x, ms.find? (·.name == m.name) = some x :=
    Option.isSome_iff_exists.mp (List.find?_isSome.mpr ⟨m,hm,beq_self_eq_true _⟩)
  have hname : x.name = m.name := by simpa using List.find?_some hx
  rw [hx,List.inj_on_of_nodup_map hnames (List.mem_of_find?_eq_some hx) hm hname]

/-- An object runs the methods of the generated entity that it is of. -/
theorem Synthesis.method?_program {e : GeneratedEntity}
    (he : e ∈ (ofAnalysis s (.ofCatalog s c)).entities) (name : String) :
    (ofAnalysis s (.ofCatalog s c)).program.method? e.entity name = e.method? name := by
  obtain ⟨e',hfound⟩ : ∃ e', (ofAnalysis s (.ofCatalog s c)).entities.find?
      (·.entity == e.entity) = some e' :=
    Option.isSome_iff_exists.mp (List.find?_isSome.mpr ⟨e,he,beq_self_eq_true _⟩)
  have htype : e'.entity = e.entity := by simpa using List.find?_some hfound
  show ((ofAnalysis s (.ofCatalog s c)).entities.find? (·.entity == e.entity)).bind
    (·.method? name) = e.method? name
  rw [hfound,Option.bind_some,GeneratedEntity.method?,GeneratedEntity.method?,
    methods_of_mem (List.mem_of_find?_eq_some hfound),methods_of_mem he,htype]

/-- Generated classes whose methods have different names run the accessors of paired
relationships. -/
theorem Synthesis.offers (hr : r ∈ (Analysis.ofCatalog s c).relationships) (hpair : r.Partners o)
    (hfind : (Analysis.ofCatalog s c).findInverse? r = some o)
    (hnames : ∀ e ∈ (ofAnalysis s (.ofCatalog s c)).entities, (e.methods.map Method.name).Nodup) :
    (ofAnalysis s (.ofCatalog s c)).program.Offers r.source
      ((r.link s o).accessors (r.link s o).style) := by
  intro m hm
  have hstyle : AccessorStyle.of? r.kind = some (r.link s o).style :=
    (r.link s o).style_of_kind hpair.symm.facing.isAssociation
  have hentity := mem_entityOf_of_accessor (s := s) hr hpair hstyle (m := m) (hfind ▸ hm)
  obtain ⟨e,he,htype,hmem⟩ := exists_entity (Analysis.source_mem_entities hr) hentity
  rw [← htype,method?_program he]
  exact find?_name_eq_some (hnames e he) hmem

/-- Generated classes have the accessors of relationships that find each other. -/
theorem Synthesis.implements (hr : r ∈ (Analysis.ofCatalog s c).relationships)
    (ho : o ∈ (Analysis.ofCatalog s c).relationships) (hpair : r.Partners o)
    (hkinds : r.kind.complements o.kind = true)
    (hthere : (Analysis.ofCatalog s c).findInverse? r = some o)
    (hback : (Analysis.ofCatalog s c).findInverse? o = some r)
    (hnames : ∀ e ∈ (ofAnalysis s (.ofCatalog s c)).entities, (e.methods.map Method.name).Nodup)
    (hsignatures : ((r.link s o).signatures ++ (o.link s r).signatures).Nodup)
    (hleft : ∀ m ∈ (r.link s o).accessors (r.link s o).style, m.Unshadowed)
    (hright : ∀ m ∈ (o.link s r).accessors (o.link s r).style, m.Unshadowed) :
    (ofAnalysis s (.ofCatalog s c)).program.Implements s r o :=
  ⟨hpair,hkinds,offers hr hpair hthere hnames,offers ho hpair.symm hback hnames,hsignatures,hleft,
    hright⟩

end Generated

namespace Generation

/-- Three employees without a manager and without reports. -/
def strangers : Heap :=
  ⟨List.replicate 3 (.entity "Employee" (fun _ => .null))⟩

theorem strangers_unset (a : Nat) (n : String) : strangers.field a n = .null := by
  rcases a with _ | _ | _ | a
  · rfl
  · rfl
  · rfl
  · rfl

theorem strangers_isEntity {a : Nat} (ha : a < 3) : strangers.IsEntity a "Employee" := by
  match a,ha with
  | 0,_ | 1,_ | 2,_ => exact ⟨_,rfl⟩

theorem reportingLine_methods :
    ∀ e ∈ (ofCatalog Analysis.uncycled reportingLine).synthesis.entities,
      (e.methods.map Method.name).Nodup := by
  decide +kernel

/-- Employees as they are generated keep reports and manager in step. -/
theorem reportingLine_implements :
    ∃ r ∈ (ofCatalog Analysis.uncycled reportingLine).analysis.relationships,
      ∃ o ∈ (ofCatalog Analysis.uncycled reportingLine).analysis.relationships,
      (ofCatalog Analysis.uncycled reportingLine).synthesis.program.Implements
        Analysis.uncycled r o ∧
      r.source = "Employee" ∧ o.source = "Employee" ∧
      (o.link Analysis.uncycled r).side.many = false ∧
      ∃ m ∈ (r.link Analysis.uncycled o).accessors (r.link Analysis.uncycled o).style,
        m.kind = .adder ∧ m.name = "addReport" := by
  have hpair : ∃ r ∈ (ofCatalog Analysis.uncycled reportingLine).analysis.relationships,
      ∃ o ∈ (ofCatalog Analysis.uncycled reportingLine).analysis.relationships,
      r.Partners o ∧ r.kind.complements o.kind = true ∧
      (ofCatalog Analysis.uncycled reportingLine).analysis.findInverse? r = some o ∧
      (ofCatalog Analysis.uncycled reportingLine).analysis.findInverse? o = some r ∧
      ((r.link Analysis.uncycled o).signatures ++
        (o.link Analysis.uncycled r).signatures).Nodup ∧
      (∀ m ∈ (r.link Analysis.uncycled o).accessors (r.link Analysis.uncycled o).style,
        m.Unshadowed) ∧
      (∀ m ∈ (o.link Analysis.uncycled r).accessors (o.link Analysis.uncycled r).style,
        m.Unshadowed) ∧
      r.source = "Employee" ∧ o.source = "Employee" ∧
      (o.link Analysis.uncycled r).side.many = false ∧
      ∃ m ∈ (r.link Analysis.uncycled o).accessors (r.link Analysis.uncycled o).style,
        m.kind = .adder ∧ m.name = "addReport" := by
    decide +kernel
  obtain ⟨r,hr,o,ho,hpartners,hkinds,hthere,hback,hsignatures,hleft,hright,hside⟩ := hpair
  exact ⟨r,hr,o,ho,Synthesis.implements hr ho hpartners hkinds hthere hback
    reportingLine_methods hsignatures hleft hright,hside⟩

/-- A report who is added by a second manager leaves the reports of the first one. -/
theorem reportingLine_addReport :
    ∃ r ∈ (ofCatalog Analysis.uncycled reportingLine).analysis.relationships,
      ∃ o ∈ (ofCatalog Analysis.uncycled reportingLine).analysis.relationships,
      (ofCatalog Analysis.uncycled reportingLine).synthesis.program.Implements
        Analysis.uncycled r o ∧
      strangers.Consistent (r.link Analysis.uncycled o).side (o.link Analysis.uncycled r).side ∧
      ∃ v h₁, (ofCatalog Analysis.uncycled reportingLine).synthesis.program.call (.ref 0)
          "addReport" [.ref 2] strangers = .ok (v,h₁) ∧
        h₁.Links (r.link Analysis.uncycled o).side 0 2 ∧
        ∃ w h₂, (ofCatalog Analysis.uncycled reportingLine).synthesis.program.call (.ref 1)
            "addReport" [.ref 2] h₁ = .ok (w,h₂) ∧
          h₂.Consistent (r.link Analysis.uncycled o).side (o.link Analysis.uncycled r).side ∧
          h₂.Links (o.link Analysis.uncycled r).side 2 1 ∧
          ¬ h₂.Links (r.link Analysis.uncycled o).side 0 2 := by
  obtain ⟨r,hr,o,ho,hp,hsource,htarget,hone,m,hm,hkind,hname⟩ := reportingLine_implements
  have hh := consistent_of_unset strangers_unset (r.link Analysis.uncycled o).side
    (o.link Analysis.uncycled r).side
  have hmut : m.kind.isPublicMutator = true := by rw [hkind]; rfl
  have htakes : ∀ {h : Heap}, h.IsEntity 2 "Employee" →
      (r.link Analysis.uncycled o).Takes h o.source m.kind [.ref 2] := by
    intro h hentity
    rw [hkind,htarget]
    exact ⟨.ref 2,rfl,.inr ⟨2,rfl,hentity⟩⟩
  have hfirst : strangers.IsEntity 0 r.source := hsource ▸ strangers_isEntity (by decide)
  obtain ⟨v,h₁,hcall₁,hh₁,hb₁⟩ := mutators_synchronize hp hh hfirst hm hmut
    (htakes (strangers_isEntity (by decide)))
  have hentity₁ : ∀ {a}, a < 3 → h₁.IsEntity a "Employee" :=
    fun ha => (hb₁.within.entity _ _).mpr (strangers_isEntity ha)
  have hsecond : h₁.IsEntity 1 r.source := hsource ▸ hentity₁ (by decide)
  obtain ⟨w,h₂,hcall₂,hh₂,hb₂⟩ := mutators_synchronize hp hh₁ hsecond hm hmut
    (htakes (hentity₁ (by decide)))
  have hfirst₁ : h₁.IsEntity 0 r.source := (hb₁.within.entity _ _).mpr hfirst
  have hfirst₂ : h₂.IsEntity 0 r.source := (hb₂.within.entity _ _).mpr hfirst₁
  have hreport₂ : h₂.IsEntity 2 o.source := by
    rw [hb₂.within.entity,htarget]
    exact hentity₁ (by decide)
  rw [hname] at hcall₁ hcall₂
  refine ⟨r,hr,o,ho,hp,hh,v,h₁,hcall₁,?_,w,h₂,hcall₂,hh₂,?_,?_⟩
  · rw [hb₁.represents.links 0 2 hfirst₁,hkind]
    exact .inl ⟨rfl,List.mem_singleton_self _⟩
  · rw [hb₂.represents.back 1 2 hreport₂,hkind]
    exact .inl ⟨rfl,List.mem_singleton_self _⟩
  · rw [hb₂.represents.links 0 2 hfirst₂,hkind,hone]
    rintro (⟨hsame,-⟩ | ⟨-,-,hshared | hsame | hlost⟩)
    · cases hsame
    · cases hshared
    · cases hsame
    · exact hlost (List.mem_singleton_self _)

end Generation

end EntityLink
