import EntityLink.Graph.Numbered
import Mathlib.Data.Finset.Card
import Mathlib.Data.List.Basic
import Mathlib.Data.List.Induction
import Mathlib.Data.List.Nodup

namespace EntityLink

/-- Lists a value that is not listed yet. -/
def addNew [BEq α] [LawfulBEq α] (as : List α) (a : α) : List α :=
  if a ∈ as then as else as ++ [a]

theorem distinct_append_new [BEq α] [LawfulBEq α] (as : List α) (a : α) :
    distinct (as ++ [a]) = addNew (distinct as) a := by
  simp only [addNew,mem_distinct,distinct_append_singleton]

namespace Graph

/-- The entities that relationships are about: every source, and the target of every edge. -/
def entitiesOf (rs : List Relationship) : Finset String :=
  (rs.map Relationship.source ++ (rs.filter Relationship.isEdge).map Relationship.target).toFinset

/-- The pairs of entities that edges join. -/
def edgesOf (rs : List Relationship) : Finset (String × String) :=
  ((rs.filter Relationship.isEdge).map Relationship.endpoints).toFinset

/-- Where the edges of an entity lead, as often as they do. -/
def targetsOf (rs : List Relationship) (entity : String) : List String :=
  (rs.filter (fun r => r.isEdge && r.source == entity)).map Relationship.target

def withNode (g : Graph) (n : String) : Graph :=
  { g with nodes := addNew g.nodes n }

def withEdge (g : Graph) (e : String × String) : Graph :=
  { g with edges := addNew g.edges e }

def withRelationship (g : Graph) (r : Relationship) : Graph :=
  if r.isEdge then ((g.withNode r.source).withNode r.target).withEdge r.endpoints
  else g.withNode r.source

variable {g : Graph} {rs : List Relationship} {r : Relationship} {m n : String}
  {e : String × String}

/-- The graph of one more relationship is that of the others with what is new added. -/
theorem ofRelationships_append_singleton (rs : List Relationship) (r : Relationship) :
    ofRelationships (rs ++ [r]) = (ofRelationships rs).withRelationship r := by
  by_cases hedge : r.isEdge = true
  · -- Source and target come in one after the other, so the target may be the source just added.
    have htwo (ns : List String) :
        distinct (ns ++ [r.source,r.target]) = addNew (addNew (distinct ns) r.source) r.target := by
      rw [List.append_cons,distinct_append_new,distinct_append_new]
    simp [withRelationship,ofRelationships,withNode,withEdge,hedge,htwo,distinct_append_new]
  · simp [withRelationship,ofRelationships,withNode,hedge,distinct_append_new]

theorem mem_nodes_iff : n ∈ (ofRelationships rs).nodes ↔ n ∈ entitiesOf rs := by
  simp only [ofRelationships,entitiesOf,mem_distinct,List.mem_flatMap,List.mem_toFinset,
    List.mem_append,List.mem_map,List.mem_filter]
  constructor
  · rintro ⟨r,hr,hn⟩
    split at hn
    · rename_i hedge
      rcases List.mem_pair.mp hn with rfl | rfl
      · exact .inl ⟨r,hr,rfl⟩
      · exact .inr ⟨r,⟨hr,hedge⟩,rfl⟩
    · exact .inl ⟨r,hr,(List.mem_singleton.mp hn).symm⟩
  · rintro (⟨r,hr,rfl⟩ | ⟨r,⟨hr,hedge⟩,rfl⟩)
    · exact ⟨r,hr,by split <;> simp⟩
    · exact ⟨r,hr,by simp [hedge]⟩

theorem mem_edges_iff : e ∈ (ofRelationships rs).edges ↔ e ∈ edgesOf rs := by
  rw [ofRelationships,edgesOf,mem_distinct,List.mem_toFinset]

theorem length_eq_card [DecidableEq α] {l : List α} {s : Finset α} (hl : l.Nodup)
    (h : ∀ a, a ∈ l ↔ a ∈ s) : l.length = s.card := by
  have hset : l.toFinset = s := Finset.ext (fun a => List.mem_toFinset.trans (h a))
  rw [← hset,List.toFinset_card_of_nodup hl]

theorem nodup_nodes (rs : List Relationship) : (ofRelationships rs).nodes.Nodup :=
  nodup_distinct _

theorem nodup_edges (rs : List Relationship) : (ofRelationships rs).edges.Nodup :=
  nodup_distinct _

theorem neighbours_withEdge (g : Graph) (e : String × String) (n : String) :
    (g.withEdge e).neighbours n =
      if e.1 = n then addNew (g.neighbours n) e.2 else g.neighbours n := by
  by_cases hn : e.1 = n
  · subst hn
    by_cases he : e ∈ g.edges
    · have hmem : e.2 ∈ g.neighbours e.1 := mem_neighbours.mpr he
      simp [withEdge,addNew,he,hmem]
    · simp [withEdge,addNew,he,neighbours]
  · by_cases he : e ∈ g.edges <;> simp [withEdge,addNew,he,neighbours,hn]

theorem targetsOf_append_singleton (rs : List Relationship) (r : Relationship) (n : String) :
    targetsOf (rs ++ [r]) n =
      if r.isEdge = true ∧ r.source = n then targetsOf rs n ++ [r.target] else targetsOf rs n := by
  by_cases hedge : r.isEdge = true <;> by_cases hn : r.source = n <;>
    simp [targetsOf,hedge,hn]

/-- Where an entity's edges lead is told once for each target, by its first edge. -/
theorem neighbours_ofRelationships (rs : List Relationship) (n : String) :
    (ofRelationships rs).neighbours n = distinct (targetsOf rs n) := by
  induction rs using List.reverseRecOn with
  | nil => rfl
  | append_singleton rs r ih =>
    rw [ofRelationships_append_singleton,targetsOf_append_singleton,withRelationship]
    by_cases hedge : r.isEdge = true
    · rw [if_pos hedge,neighbours_withEdge]
      show (if r.source = n then addNew ((ofRelationships rs).neighbours n) r.target
        else (ofRelationships rs).neighbours n) = _
      by_cases hn : r.source = n
      · rw [if_pos hn,if_pos ⟨hedge,hn⟩,distinct_append_new,ih]
      · rw [if_neg hn,if_neg (fun h => hn h.2),ih]
    · rw [if_neg hedge,if_neg (fun h => hedge h.1)]
      exact ih

/-- The entities that an edge joins are nodes. -/
structure HasEnds (g : Graph) (e : String × String) : Prop where
  source : e.1 ∈ g.nodes
  target : e.2 ∈ g.nodes

/-- An edge under the numbers of the entities that it joins. -/
def numbered (g : Graph) (e : String × String) : Nat × Nat :=
  (g.nodes.idxOf e.1,g.nodes.idxOf e.2)

theorem idxOf_withNode (hm : m ∈ g.nodes) (n : String) :
    (g.withNode n).nodes.idxOf m = g.nodes.idxOf m := by
  show (addNew g.nodes n).idxOf m = _
  unfold addNew
  split
  · rfl
  · exact List.idxOf_append_of_mem hm

theorem mem_withNode : m ∈ (g.withNode n).nodes ↔ m ∈ g.nodes ∨ m = n := by
  show m ∈ addNew g.nodes n ↔ _
  unfold addNew
  split
  · rename_i hn
    exact ⟨.inl,fun h => h.elim id (fun hm => hm ▸ hn)⟩
  · simp

theorem HasEnds.withNode (h : g.HasEnds e) (n : String) : (g.withNode n).HasEnds e :=
  ⟨mem_withNode.mpr (.inl h.source),mem_withNode.mpr (.inl h.target)⟩

theorem HasEnds.withEdge (h : g.HasEnds e) (e' : String × String) : (g.withEdge e').HasEnds e :=
  ⟨h.source,h.target⟩

/-- New nodes come last, so the nodes that edges join keep their numbers. -/
theorem map_numbered_withNode (h : ∀ e ∈ g.edges, g.HasEnds e) (n : String) :
    (g.withNode n).edges.map (g.withNode n).numbered = g.edges.map g.numbered := by
  apply List.map_congr_left
  intro e he
  rw [numbered,idxOf_withNode (h e he).source,idxOf_withNode (h e he).target]
  rfl

theorem HasEnds.eq_of_numbered {e' : String × String} (he : g.HasEnds e)
    (h : g.numbered e = g.numbered e') : e = e' := by
  obtain ⟨hsource,htarget⟩ := Prod.mk.inj h
  exact Prod.ext ((List.idxOf_inj he.source).mp hsource) ((List.idxOf_inj he.target).mp htarget)

theorem HasEnds.mem_map_numbered (he : g.HasEnds e) :
    g.numbered e ∈ g.edges.map g.numbered ↔ e ∈ g.edges := by
  constructor
  · intro h
    obtain ⟨e',he',hsame⟩ := List.mem_map.mp h
    rwa [he.eq_of_numbered hsame.symm]
  · exact List.mem_map_of_mem

theorem lookup_zipIdx (l : List String) (k : Nat) (n : String) :
    (l.zipIdx k).lookup n = if n ∈ l then some (l.idxOf n + k) else none := by
  induction l generalizing k with
  | nil => rfl
  | cons a l ih =>
    rw [List.zipIdx_cons,List.lookup_cons,ih]
    by_cases hn : n = a
    · simp [hn]
    · have hplace : (a :: l).idxOf n + k = l.idxOf n + (k + 1) := by
        rw [List.idxOf_cons_ne l (Ne.symm hn)]
        omega
      simp [hn,beq_false_of_ne hn,hplace]

end Graph

namespace NumberedGraph
open EntityLink.Graph
variable {σ : Type} {S : GraphStore σ} {g : NumberedGraph σ} {v : Graph} {n : String}

/-- Under their numbers the store keeps the nodes and the edges of a graph, each in order, and
the number of an entity is its place among the nodes. -/
structure Represents (S : GraphStore σ) (g : NumberedGraph σ) (v : Graph) : Prop where
  numbers : g.numbers = v.nodes.zipIdx
  holds : S.Holds g.store v.nodes (v.edges.map v.numbered)
  ends : ∀ e ∈ v.edges, v.HasEnds e

theorem Represents.number?_eq (h : g.Represents S v) (n : String) :
    g.number? n = if n ∈ v.nodes then some (v.nodes.idxOf n) else none := by
  rw [number?,h.numbers,lookup_zipIdx]
  rfl

/-- An entity has its number whether it was a node before or not. -/
theorem Represents.ensureNode (hS : S.Lawful) (h : g.Represents S v) (n : String) :
    (g.ensureNode S n).1 = (v.withNode n).nodes.idxOf n ∧
      (g.ensureNode S n).2.Represents S (v.withNode n) := by
  have hnumber := h.number?_eq n
  by_cases hn : n ∈ v.nodes
  · have hsame : v.withNode n = v := by
      rw [withNode,addNew,if_pos hn]
    rw [if_pos hn] at hnumber
    rw [NumberedGraph.ensureNode,hnumber,hsame]
    exact ⟨rfl,h⟩
  · obtain ⟨hnew,hholds⟩ := hS.addNode n h.holds
    have hnodes : (v.withNode n).nodes = v.nodes ++ [n] := if_neg hn
    rw [if_neg hn] at hnumber
    rw [NumberedGraph.ensureNode,hnumber]
    refine ⟨?_,?_,?_,?_⟩
    · rw [hnodes,List.idxOf_append_of_notMem hn,List.idxOf_cons_self]
      exact hnew
    · rw [hnodes,List.zipIdx_append,← h.numbers,Nat.zero_add,← hnew]
      rfl
    · rw [hnodes,map_numbered_withNode h.ends]
      exact hholds
    · exact fun e he => (h.ends e he).withNode n

/-- An edge between nodes is there after it was added, once. -/
theorem Represents.link? (hS : S.Lawful) (h : g.Represents S v) {e : String × String}
    (he : v.HasEnds e) :
    ∃ g', g.link? S (v.nodes.idxOf e.1) (v.nodes.idxOf e.2) = some g' ∧
      g'.Represents S (v.withEdge e) := by
  have hasEdge : S.hasEdge g.store (v.nodes.idxOf e.1) (v.nodes.idxOf e.2) = true ↔ e ∈ v.edges :=
    (h.holds.hasEdge _ _).trans he.mem_map_numbered
  by_cases hold : e ∈ v.edges
  · have hsame : v.withEdge e = v := by
      rw [withEdge,addNew,if_pos hold]
    rw [hsame]
    exact ⟨g,if_pos (hasEdge.mpr hold),h⟩
  · obtain ⟨store,hstore,hholds⟩ := hS.addEdge h.holds (List.idxOf_lt_length_iff.mpr he.source)
      (List.idxOf_lt_length_iff.mpr he.target)
    have hedges : (v.withEdge e).edges = v.edges ++ [e] := if_neg hold
    refine ⟨{ g with store := store },?_,h.numbers,?_,?_⟩
    · rw [NumberedGraph.link?,if_neg (fun hh => hold (hasEdge.mp hh)),hstore]
      rfl
    · rw [hedges,List.map_append]
      exact hholds
    · intro e' he'
      rw [hedges] at he'
      rcases List.mem_append.mp he' with he' | he'
      · exact (h.ends e' he').withEdge e
      · exact List.mem_singleton.mp he' ▸ he.withEdge e

/-- One more relationship is taken in, and the graph stays the one that is told by names. -/
theorem Represents.add? (hS : S.Lawful) (h : g.Represents S v) (r : Relationship) :
    ∃ g', g.add? S r = some g' ∧ g'.Represents S (v.withRelationship r) := by
  obtain ⟨hsource,hg⟩ := h.ensureNode hS r.source
  rw [withRelationship]
  by_cases hedge : r.isEdge = true
  · obtain ⟨htarget,hg'⟩ := hg.ensureNode hS r.target
    have hold : r.source ∈ (v.withNode r.source).nodes := mem_withNode.mpr (.inr rfl)
    have hends : ((v.withNode r.source).withNode r.target).HasEnds r.endpoints :=
      ⟨mem_withNode.mpr (.inl hold),mem_withNode.mpr (.inr rfl)⟩
    obtain ⟨g',hlink,hr⟩ := hg'.link? hS hends
    have hadd : g.add? S r = ((g.ensureNode S r.source).2.ensureNode S r.target).2.link? S
        (g.ensureNode S r.source).1 ((g.ensureNode S r.source).2.ensureNode S r.target).1 :=
      if_pos hedge
    refine ⟨g',?_,by rwa [if_pos hedge]⟩
    -- The source got its number before the target came, and has it still.
    rw [hadd,hsource,htarget,← idxOf_withNode hold r.target]
    exact hlink
  · exact ⟨_,if_neg hedge,by rwa [if_neg hedge]⟩

/-- No list of relationships is refused. With numbers for names the graph built is the one that
cycles are sought in. -/
theorem exists_ofRelationships? (hS : S.Lawful) (rs : List Relationship) :
    ∃ g, ofRelationships? S rs = some g ∧ g.Represents S (Graph.ofRelationships rs) := by
  induction rs using List.reverseRecOn with
  | nil => exact ⟨_,rfl,rfl,hS.empty,fun e he => absurd he List.not_mem_nil⟩
  | append_singleton rs r ih =>
    obtain ⟨g,hg,hr⟩ := ih
    obtain ⟨g',hg',hr'⟩ := hr.add? hS r
    refine ⟨g',?_,ofRelationships_append_singleton rs r ▸ hr'⟩
    calc ofRelationships? S (rs ++ [r])
        = (ofRelationships? S rs).bind (fun g => [r].foldlM (add? S) g) := List.foldlM_append
      _ = g.add? S r := by
        rw [hg,Option.bind_some,List.foldlM_cons]
        exact Option.bind_fun_some _
      _ = some g' := hg'

/-- Newest edges come first in the store, so in the end the oldest do. -/
theorem Represents.neighbours (h : g.Represents S v) (n : String) :
    g.neighbours S (v.nodes.idxOf n) = (v.neighbours n).map v.nodes.idxOf := by
  have hsame : ∀ e ∈ v.edges, (v.nodes.idxOf e.1 == v.nodes.idxOf n) = (e.1 == n) := by
    intro e he
    rw [Bool.eq_iff_iff,beq_iff_eq,beq_iff_eq]
    exact List.idxOf_inj (h.ends e he).source
  calc g.neighbours S (v.nodes.idxOf n)
      = ((v.edges.map v.numbered).filter (·.1 == v.nodes.idxOf n)).map (·.2) := by
        rw [NumberedGraph.neighbours,h.holds.successors,List.reverse_reverse]
    _ = (v.edges.filter (fun e => v.nodes.idxOf e.1 == v.nodes.idxOf n)).map
          (fun e => v.nodes.idxOf e.2) := by
        rw [List.filter_map,List.map_map]
        rfl
    _ = (v.edges.filter (·.1 == n)).map (fun e => v.nodes.idxOf e.2) := by
        rw [List.filter_congr hsame]
    _ = (v.neighbours n).map v.nodes.idxOf := by
        rw [Graph.neighbours,List.map_map]
        rfl

theorem mapM_map_eq_some {f : α → Option β} {k : β → α} {l : List β}
    (h : ∀ b ∈ l, f (k b) = some b) :
    (l.map k).mapM f = some l := by
  induction l with
  | nil => rfl
  | cons b l ih =>
    rw [List.map_cons,List.mapM_cons,h b List.mem_cons_self,
      ih (fun b hb => h b (List.mem_cons_of_mem _ hb))]
    rfl

theorem Represents.dependencies? (h : g.Represents S v) (n : String) :
    g.dependencies? S n = some (v.neighbours n) := by
  rw [NumberedGraph.dependencies?,h.number?_eq]
  by_cases hn : n ∈ v.nodes
  · rw [if_pos hn]
    show (g.neighbours S (v.nodes.idxOf n)).mapM (S.name? g.store) = _
    rw [h.neighbours n]
    apply mapM_map_eq_some
    intro m hm
    rw [h.holds.name?]
    exact List.getElem?_idxOf (h.ends _ (mem_neighbours.mp hm)).target
  · rw [if_neg hn]
    have hnone : v.neighbours n = [] := by
      apply List.eq_nil_iff_forall_not_mem.mpr
      intro m hm
      exact hn (h.ends _ (mem_neighbours.mp hm)).source
    rw [hnone]

theorem Represents.idxOf_of_name? (h : g.Represents S v) (hv : v.nodes.Nodup) {i : Nat}
    (hi : S.name? g.store i = some n) : n ∈ v.nodes ∧ v.nodes.idxOf n = i := by
  rw [h.holds.name?] at hi
  obtain ⟨hlt,rfl⟩ := List.getElem?_eq_some_iff.mp hi
  exact ⟨List.getElem_mem hlt,hv.idxOf_getElem i hlt⟩

/-- Each entity is at one node, and only entities are at nodes. -/
theorem Represents.existsUnique_name? (h : g.Represents S v) (hv : v.nodes.Nodup) :
    (∃! i, S.name? g.store i = some n) ↔ n ∈ v.nodes := by
  constructor
  · rintro ⟨i,hi,-⟩
    exact (h.idxOf_of_name? hv hi).1
  · intro hn
    refine ⟨v.nodes.idxOf n,?_,fun j hj => (h.idxOf_of_name? hv hj).2.symm⟩
    show S.name? g.store (v.nodes.idxOf n) = some n
    rw [h.holds.name?,List.getElem?_idxOf hn]

theorem Represents.nodup_map_neighbours (h : g.Represents S v) (hv : (v.neighbours n).Nodup) :
    ((v.neighbours n).map v.nodes.idxOf).Nodup := by
  apply hv.map_on
  intro a ha b _ hab
  exact (List.idxOf_inj (h.ends _ (mem_neighbours.mp ha)).target).mp hab

/-- Between two nodes there is one edge if there is one between their entities, and else none. -/
theorem Represents.count_successors (h : g.Represents S v) (hv : v.nodes.Nodup) {i j : Nat}
    {a b : String} (hone : (v.neighbours a).Nodup) (ha : S.name? g.store i = some a)
    (hb : S.name? g.store j = some b) :
    (S.successors g.store i).count j = if (a,b) ∈ v.edges then 1 else 0 := by
  obtain ⟨-,rfl⟩ := h.idxOf_of_name? hv ha
  obtain ⟨hbn,rfl⟩ := h.idxOf_of_name? hv hb
  have hmem : v.nodes.idxOf b ∈ (v.neighbours a).map v.nodes.idxOf ↔ (a,b) ∈ v.edges := by
    rw [List.mem_map,← mem_neighbours]
    constructor
    · rintro ⟨c,hc,hcb⟩
      rwa [← (List.idxOf_inj (h.ends _ (mem_neighbours.mp hc)).target).mp hcb]
    · exact fun hb => ⟨b,hb,rfl⟩
  calc (S.successors g.store (v.nodes.idxOf a)).count (v.nodes.idxOf b)
      = (g.neighbours S (v.nodes.idxOf a)).count (v.nodes.idxOf b) := List.count_reverse.symm
    _ = if v.nodes.idxOf b ∈ (v.neighbours a).map v.nodes.idxOf then 1 else 0 := by
        rw [h.neighbours,(h.nodup_map_neighbours hone).count]
    _ = if (a,b) ∈ v.edges then 1 else 0 := if_congr hmem rfl rfl

/-- A lawful store refuses no list of relationships. The graph built has one node for each entity
that is a source or the target of an edge, and no other, and one edge for each pair of entities
that an edge of the list joins. What an entity depends on is told once, in the order of its first
edges, and an entity that is no node depends on nothing. -/
theorem ofRelationships_once_in_order (hS : S.Lawful) (rs : List Relationship) :
    ∃ g, ofRelationships? S rs = some g ∧
      (∀ n, (∃! i, S.name? g.store i = some n) ↔ n ∈ entitiesOf rs) ∧
      (∀ i n, S.name? g.store i = some n → n ∈ entitiesOf rs) ∧
      g.entityCount S = (entitiesOf rs).card ∧
      (∀ i j a b, S.name? g.store i = some a → S.name? g.store j = some b →
        (S.successors g.store i).count j = if (a,b) ∈ edgesOf rs then 1 else 0) ∧
      g.edgeCount S = (edgesOf rs).card ∧
      (∀ n, g.dependencies? S n = some (distinct (targetsOf rs n))) ∧
      ∀ n, n ∉ entitiesOf rs → g.dependencies? S n = some [] := by
  obtain ⟨g,hg,h⟩ := exists_ofRelationships? hS rs
  have hnodes := nodup_nodes rs
  have hdeps (n : String) : g.dependencies? S n = some (distinct (targetsOf rs n)) := by
    rw [h.dependencies?,neighbours_ofRelationships]
  refine ⟨g,hg,?_,?_,?_,?_,?_,hdeps,?_⟩
  · intro n
    rw [h.existsUnique_name? hnodes,mem_nodes_iff]
  · intro i n hi
    exact mem_nodes_iff.mp (h.idxOf_of_name? hnodes hi).1
  · rw [entityCount,h.holds.nodeCount]
    exact length_eq_card hnodes (fun n => mem_nodes_iff)
  · intro i j a b ha hb
    have hone : ((Graph.ofRelationships rs).neighbours a).Nodup :=
      neighbours_ofRelationships rs a ▸ nodup_distinct _
    rw [h.count_successors hnodes hone ha hb]
    exact if_congr mem_edges_iff rfl rfl
  · rw [edgeCount,h.holds.edgeCount,List.length_map]
    exact length_eq_card (nodup_edges rs) (fun e => mem_edges_iff)
  · intro n hn
    rw [NumberedGraph.dependencies?,h.number?_eq,if_neg (fun hmem => hn (mem_nodes_iff.mp hmem))]

/-- Two links to one office with another between them, and three relationships that are no edges:
a superclass, a link without target and a reference of an entity to itself. -/
def officeLinks : List Relationship := [
  .new "Manager" "Employee" .inheritance "superclass" "Employee" none,
  .new "Employee" "Office" .manyToOne "office" "Office" none,
  .new "Employee" "Manager" .manyToOne "boss" "Manager" none,
  .new "Employee" "" .manyToOne "broken" "Missing" none,
  .new "Employee" "Office" .manyToOne "homeOffice" "Office" none,
  .new "Employee" "Employee" .manyToOne "mentor" "Employee" none]

theorem officeLinks_once_in_order : GraphStore.plain.Lawful ∧
    ∃ g, ofRelationships? .plain officeLinks = some g ∧
      g.entityCount .plain = 3 ∧ g.edgeCount .plain = 2 ∧
      g.dependencies? .plain "Employee" = some ["Office","Manager"] ∧
      g.dependencies? .plain "Visitor" = some [] := by
  obtain ⟨g,hg,-,-,hentities,-,hedges,hdeps,hnone⟩ :=
    ofRelationships_once_in_order GraphStore.plain_lawful officeLinks
  refine ⟨GraphStore.plain_lawful,g,hg,?_,?_,?_,?_⟩
  · rw [hentities]
    decide
  · rw [hedges]
    decide
  · rw [hdeps]
    decide
  · exact hnone "Visitor" (by decide)

end NumberedGraph

end EntityLink
