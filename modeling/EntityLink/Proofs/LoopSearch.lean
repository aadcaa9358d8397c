import EntityLink.Proofs.ClosedWalk
import Mathlib.Data.List.Chain

namespace EntityLink.Graph
open EntityLink.Cycle

/-- What the search holds on the way to a node: distinct nodes, each with an edge to the next. -/
structure IsPath (g : Graph) (l : List String) : Prop where
  nodup : l.Nodup
  chain : l.IsChain (fun a b => (a,b) ∈ g.edges)

/-- A closed walk over distinct nodes. -/
structure SimpleLoop (g : Graph) (l : List String) : Prop where
  nonempty : l ≠ []
  nodup : l.Nodup
  steps : ∀ e ∈ stepsOf l, e ∈ g.edges

theorem isPath_singleton (g : Graph) (n : String) : g.IsPath [n] :=
  ⟨List.nodup_singleton n,List.isChain_singleton n⟩

theorem IsPath.extend {g : Graph} {path : List String} {n m : String}
    (h : g.IsPath (path ++ [n])) (he : (n,m) ∈ g.edges) (hnew : m ∉ path ++ [n]) :
    g.IsPath (path ++ [n] ++ [m]) := by
  constructor
  · exact List.Nodup.append h.nodup (List.nodup_singleton m) (by simpa using hnew)
  · apply List.isChain_append.mpr
    refine ⟨h.chain,List.isChain_singleton m,?_⟩
    intro a ha b hb
    rw [List.getLast?_concat,Option.mem_some_iff] at ha
    rw [List.head?_singleton,Option.mem_some_iff] at hb
    subst ha hb
    exact he

/-- An edge from the end of a path back to its beginning makes a loop of it. -/
theorem IsPath.loop {g : Graph} {n : String} {ns : List String} (h : g.IsPath (n :: ns))
    (he : ((n :: ns).getLast (List.cons_ne_nil n ns),n) ∈ g.edges) : g.SimpleLoop (n :: ns) := by
  refine ⟨List.cons_ne_nil n ns,h.nodup,?_⟩
  apply (forall_stepsOf_iff (R := fun a b => (a,b) ∈ g.edges) n ns).mpr
  apply List.isChain_append.mpr
  refine ⟨h.chain,List.isChain_singleton n,?_⟩
  intro a ha b hb
  rw [List.getLast?_eq_some_getLast (List.cons_ne_nil n ns),Option.mem_some_iff] at ha
  rw [List.head?_singleton,Option.mem_some_iff] at hb
  subst ha hb
  exact he

theorem IsPath.right_of_append {g : Graph} {l l' : List String} (h : g.IsPath (l ++ l')) :
    g.IsPath l' :=
  ⟨(List.nodup_append.mp h.nodup).2.1,h.chain.right_of_append⟩

/-- An edge back to a node on the path closes the part of the path from there. -/
theorem IsPath.close {g : Graph} {path : List String} {n m : String}
    (h : g.IsPath (path ++ [n])) (he : (n,m) ∈ g.edges) (hm : m ∈ path ++ [n]) :
    g.SimpleLoop ((path ++ [n]).dropWhile (· != m)) := by
  have hlast : (path ++ [n]).getLast? = some n := List.getLast?_concat
  obtain ⟨before,after,hsplit⟩ := List.append_of_mem hm
  rw [hsplit] at h hlast ⊢
  have hbefore : ∀ a ∈ before, (a != m) = true := by
    intro a ha
    have hne := (List.nodup_append.mp h.nodup).2.2 a ha m List.mem_cons_self
    exact bne_iff_ne.mpr hne
  have hdrop : (before ++ m :: after).dropWhile (· != m) = m :: after := by
    rw [List.dropWhile_append_of_pos hbefore,List.dropWhile_cons_of_neg (by simp)]
  rw [List.getLast?_append_of_ne_nil _ (List.cons_ne_nil m after),
    List.getLast?_eq_some_getLast (List.cons_ne_nil m after),Option.some.injEq] at hlast
  rw [hdrop]
  exact h.right_of_append.loop (by rwa [hlast])

theorem mem_loopsFrom {g : Graph} {path l : List String} {n : String} :
    l ∈ g.loopsFrom path n ↔ ∃ m, (n,m) ∈ g.edges ∧
      if m ∈ path ++ [n] then l = (path ++ [n]).dropWhile (· != m)
      else l ∈ g.loopsFrom (path ++ [n]) m := by
  rw [loopsFrom,List.mem_flatMap]
  constructor
  · rintro ⟨⟨m,hm⟩,-,hl⟩
    refine ⟨m,mem_neighbours.mp hm,?_⟩
    split at hl
    · rw [if_pos ‹_›]; exact List.mem_singleton.mp hl
    · rw [if_neg ‹_›]; exact hl
  · rintro ⟨m,he,hl⟩
    refine ⟨⟨m,mem_neighbours.mpr he⟩,List.mem_attach _ _,?_⟩
    split at hl
    · rw [if_pos ‹_›]; exact List.mem_singleton.mpr hl
    · rw [if_neg ‹_›]; exact hl

/-- Whatever path led to a node, the walk on from it closes simple loops only. -/
theorem simpleLoop_of_mem_loopsFrom {g : Graph} {path l : List String} {n : String}
    (hp : g.IsPath (path ++ [n])) (hl : l ∈ g.loopsFrom path n) : g.SimpleLoop l := by
  induction path, n using loopsFrom.induct g with
  | case1 path n ih =>
    obtain ⟨m,he,hm⟩ := mem_loopsFrom.mp hl
    split at hm
    · rename_i hon
      subst hm
      exact hp.close he hon
    · rename_i hnew
      exact ih ⟨m,mem_neighbours.mpr he⟩ hnew (hp.extend he hnew) hm

/-- The search goes along every path: whatever simple way `ws` leads on from `n`, an edge from
its end back to a node `m` that was passed closes the loop that begins at `m`. -/
theorem mem_loopsFrom_of_path {g : Graph} {path ws : List String} {n m : String}
    (hp : g.IsPath (path ++ n :: ws)) (he : ((n :: ws).getLast (List.cons_ne_nil n ws),m) ∈ g.edges)
    (hm : m ∈ path ++ n :: ws) : (path ++ n :: ws).dropWhile (· != m) ∈ g.loopsFrom path n := by
  induction ws generalizing path n with
  | nil => exact mem_loopsFrom.mpr ⟨m,he,by rw [if_pos hm]⟩
  | cons k ws ih =>
    have hassoc : path ++ n :: k :: ws = path ++ [n] ++ k :: ws := by simp
    have hedge : (n,k) ∈ g.edges := (List.isChain_cons_cons.mp hp.chain.right_of_append).1
    rw [hassoc] at hp hm ⊢
    have hnew : k ∉ path ++ [n] := by
      intro hk
      exact (List.nodup_append.mp hp.nodup).2.2 k hk k List.mem_cons_self rfl
    refine mem_loopsFrom.mpr ⟨k,hedge,?_⟩
    rw [if_neg hnew]
    exact ih hp (by rwa [List.getLast_cons_cons] at he) hm

theorem SimpleLoop.mem_loopsFrom {g : Graph} {n : String} {ns : List String}
    (h : g.SimpleLoop (n :: ns)) : n :: ns ∈ g.loopsFrom [] n := by
  have hchain := (forall_stepsOf_iff (R := fun a b => (a,b) ∈ g.edges) n ns).mp h.steps
  have hpath : g.IsPath ([] ++ n :: ns) := ⟨h.nodup,hchain.left_of_append⟩
  have hclose : ((n :: ns).getLast (List.cons_ne_nil n ns),n) ∈ g.edges :=
    (List.isChain_append.mp hchain).2.2 _ (List.getLast?_eq_some_getLast _) n rfl
  have hloop := mem_loopsFrom_of_path hpath hclose List.mem_cons_self
  rwa [List.nil_append,List.dropWhile_cons_of_neg (by simp)] at hloop

theorem mem_edges_ofRelationships {rs : List Relationship} {e : String × String} :
    e ∈ (ofRelationships rs).edges ↔ ∃ r ∈ rs, r.isEdge = true ∧ r.endpoints = e := by
  simp only [ofRelationships,mem_distinct,List.mem_map,List.mem_filter,and_assoc]

theorem source_mem_nodes {rs : List Relationship} {e : String × String}
    (he : e ∈ (ofRelationships rs).edges) : e.1 ∈ (ofRelationships rs).nodes := by
  obtain ⟨r,hr,hedge,rfl⟩ := mem_edges_ofRelationships.mp he
  refine mem_distinct.mpr (List.mem_flatMap.mpr ⟨r,hr,?_⟩)
  rw [if_pos hedge]
  exact List.mem_cons_self

/-- The walks from all nodes close exactly the simple loops, each from any node of it. -/
theorem mem_loops_iff {rs : List Relationship} {l : List String} :
    l ∈ (ofRelationships rs).loops ↔ (ofRelationships rs).SimpleLoop l := by
  constructor
  · intro hl
    obtain ⟨n,-,hn⟩ := List.mem_flatMap.mp hl
    exact simpleLoop_of_mem_loopsFrom (isPath_singleton _ n) hn
  · intro h
    cases l with
    | nil => exact absurd rfl h.nonempty
    | cons n ns =>
      obtain ⟨e,he,hn⟩ : ∃ e ∈ stepsOf (n :: ns), e.1 = n := by
        apply List.mem_map.mp
        rw [map_fst_stepsOf]
        exact List.mem_cons_self
      have hnode := source_mem_nodes (h.steps e he)
      rw [hn] at hnode
      exact List.mem_flatMap.mpr ⟨n,hnode,h.mem_loopsFrom⟩

/-- No edge leads from an entity to itself, so a loop has two nodes at least. -/
theorem SimpleLoop.two_le_length {rs : List Relationship} {l : List String}
    (h : (ofRelationships rs).SimpleLoop l) : 2 ≤ l.length := by
  match l, h with
  | [], h => exact absurd rfl h.nonempty
  | [n], h =>
    obtain ⟨r,-,hedge,he⟩ := mem_edges_ofRelationships.mp (h.steps (n,n) List.mem_cons_self)
    obtain ⟨hs,ht⟩ := Prod.mk.inj he
    simp [Relationship.isEdge,Relationship.isSelfReference,hs,ht] at hedge
  | _ :: _ :: _, _ => exact Nat.le_add_left 2 _

end EntityLink.Graph
