import EntityLink.Graph

namespace EntityLink.Graph

/-- The loops that a depth-first walk from `n` closes, given the path that led to `n`. At each
node the neighbours are tried in order; one that lies on the path closes the loop that begins
there, any other is walked on from. -/
def loopsFrom (g : Graph) (path : List String) (n : String) : List (List String) :=
  (g.neighbours n).attach.flatMap (fun m =>
    if m.1 ∈ path ++ [n] then [(path ++ [n]).dropWhile (· != m.1)]
    else loopsFrom g (path ++ [n]) m.1)
termination_by (g.edges.filter (fun e => decide (e.2 ∉ path ++ [n]))).length
decreasing_by
  rename_i hm
  have hsub : g.edges.filter (fun e => decide (e.2 ∉ path ++ [n] ++ [m.1])) =
      (g.edges.filter (fun e => decide (e.2 ∉ path ++ [n]))).filter
        (fun e => decide (e.2 ≠ m.1)) := by
    rw [List.filter_filter]
    apply List.filter_congr
    intro e _
    rw [Bool.eq_iff_iff]
    simp only [List.mem_append,List.mem_singleton,not_or,decide_eq_true_eq,Bool.and_eq_true]
    exact ⟨fun h => ⟨h.2,h.1⟩,fun h => ⟨h.2,h.1⟩⟩
  rw [hsub]
  apply List.length_filter_lt_length_iff_exists.mpr
  exact ⟨(n,m.1),List.mem_filter.mpr ⟨mem_neighbours.mp m.2,by simpa using hm⟩,by simp⟩

/-- Every loop that the walks from all nodes close. One loop may be found from several nodes. -/
def loops (g : Graph) : List (List String) :=
  g.nodes.flatMap (g.loopsFrom [])

end EntityLink.Graph
