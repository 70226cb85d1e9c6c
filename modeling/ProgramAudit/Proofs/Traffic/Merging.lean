import ProgramAudit.Proofs.Traffic.Counts

/-!
Parallel edges and their summary. A summary is told by two things about the edges: which keys they have,
in the order of the first appearances, and what the edges of each key count together. Two lists of edges
that agree in both have one summary, and a list agrees in both with its own summary.
-/

namespace ProgramAudit.Traffic.CallGraph

variable {edges left right : List CallEdge} {key : EdgeKey}

/-- What the edges of a key count together. -/
def countOf (key : EdgeKey) (edges : List CallEdge) : Int :=
  ((edges.filter (keyOf · == key)).map CallEdge.count).sum

theorem countOf_append (key : EdgeKey) (left right : List CallEdge) :
    countOf key (left ++ right) = countOf key left + countOf key right := by
  simp [countOf]

theorem countOf_of_not_mem (h : key ∉ edges.map keyOf) : countOf key edges = 0 := by
  have hnone : edges.filter (keyOf · == key) = [] := by
    refine List.filter_eq_nil_iff.mpr fun edge hedge heq => h ?_
    exact eq_of_beq heq ▸ List.mem_map_of_mem hedge
  rw [countOf, hnone]
  rfl

/-- One edge for each key that is there, with all that the edges of the key count. -/
def merged (edges : List CallEdge) : List CallEdge :=
  (distinct (edges.map keyOf)).map fun key => ofEntry (key, countOf key edges)

theorem map_keyOf_merged (edges : List CallEdge) :
    (merged edges).map keyOf = distinct (edges.map keyOf) := by
  rw [merged, List.map_map]
  exact List.map_id' _

theorem count_of_mem_merged {edge : CallEdge} (h : edge ∈ merged edges) :
    edge.count = countOf (keyOf edge) edges := by
  obtain ⟨key, -, rfl⟩ := List.mem_map.mp h
  rfl

/-- Of one key a merged list has one edge or none. -/
theorem countOf_merged (key : EdgeKey) (edges : List CallEdge) :
    countOf key (merged edges) = countOf key edges := by
  have hfilter : (merged edges).filter (keyOf · == key) =
      ((distinct (edges.map keyOf)).filter (· == key)).map fun key =>
        ofEntry (key, countOf key edges) := List.filter_map
  rw [countOf, hfilter, List.filter_beq]
  by_cases hkey : key ∈ edges.map keyOf
  · rw [List.count_eq_one_of_mem (nodup_distinct _) (mem_distinct.mpr hkey)]
    exact Int.add_zero _
  · rw [List.count_eq_zero_of_not_mem (mt mem_distinct.mp hkey), countOf_of_not_mem hkey]
    rfl

theorem merged_congr (hkeys : distinct (left.map keyOf) = distinct (right.map keyOf))
    (hcounts : ∀ key, countOf key left = countOf key right) : merged left = merged right := by
  simp only [merged, hkeys, hcounts]

theorem merged_merged (edges : List CallEdge) : merged (merged edges) = merged edges := by
  refine merged_congr ?_ fun key => countOf_merged key edges
  rw [map_keyOf_merged, distinct_of_nodup (nodup_distinct _)]

/-- What is new behind a list is new behind its merged form. -/
theorem merged_append (left right : List CallEdge) :
    merged (left ++ right) = merged (merged left ++ merged right) := by
  refine merged_congr ?_ fun key => ?_
  · have hleft : distinct (distinct (left.map keyOf)) = distinct (left.map keyOf) :=
      distinct_of_nodup (nodup_distinct _)
    have hright : distinct (distinct (right.map keyOf)) = distinct (right.map keyOf) :=
      distinct_of_nodup (nodup_distinct _)
    simp only [List.map_append, map_keyOf_merged, distinct_append, hleft, hright, mem_distinct]
  · simp only [countOf_append, countOf_merged]

/-! ### The summary of a graph -/

theorem foldl_add_count (edges : List CallEdge) (held : Option Int) (h : edges ≠ []) :
    edges.foldl (fun found edge => some (Option.getD found 0 + edge.count)) held =
      some (held.getD 0 + (edges.map CallEdge.count).sum) := by
  induction edges generalizing held with
  | nil => exact absurd rfl h
  | cons edge edges ih =>
      rw [List.foldl_cons, List.map_cons, List.sum_cons]
      by_cases hrest : edges = []
      · subst hrest
        simp
      · rw [ih _ hrest, Option.getD_some, Int.add_assoc]

/-- The table of a fold holds for each key what its edges count together. -/
theorem get?_foldl_addEdge (h : key ∈ edges.map keyOf) :
    Table.get? key (edges.foldl addEdge []) = some (countOf key edges) := by
  have hsome : edges.filter (keyOf · == key) ≠ [] := by
    obtain ⟨edge, hedge, rfl⟩ := List.mem_map.mp h
    exact List.ne_nil_of_mem (List.mem_filter.mpr ⟨hedge, beq_self_eq_true _⟩)
  calc Table.get? key (edges.foldl addEdge [])
      = (edges.filter (keyOf · == key)).foldl
          (fun found edge => some (found.getD 0 + edge.count)) none :=
        Table.get?_foldl_adjust keyOf (fun edge count => count.getD 0 + edge.count) edges []
    _ = some (0 + ((edges.filter (keyOf · == key)).map CallEdge.count).sum) :=
        foldl_add_count _ none hsome
    _ = some (countOf key edges) := by rw [Int.zero_add]; rfl

theorem summary_eq_merged (graph : CallGraph) : graph.summary = merged graph.edges := by
  have hkeys : Table.keys (graph.edges.foldl addEdge []) = distinct (graph.edges.map keyOf) :=
    Table.keys_foldl_adjust keyOf (fun edge count => count.getD 0 + edge.count) graph.edges []
  have htable : graph.edges.foldl addEdge [] =
      (Table.keys (graph.edges.foldl addEdge [])).map fun key => (key, countOf key graph.edges) := by
    refine Table.eq_map_keys (hkeys ▸ nodup_distinct _) fun key hkey => ?_
    rw [hkeys, mem_distinct] at hkey
    exact get?_foldl_addEdge hkey
  rw [summary, htable, hkeys, List.map_map]
  rfl

/-- **A summary merges parallel edges and nothing else.** It has each key of the edges once, in the
order of the first appearances, and under each key the sum of what its edges count, so that all edges
together count as much as before. The summary of a summary is the same again, and the summary of two
lists of edges, one behind the other, is that of their summaries. -/
theorem summary_merges (graph : CallGraph) (left right : List CallEdge) :
    let summaryOf (edges : List CallEdge) := ({ graph with edges } : CallGraph).summary
    ((graph.summary.map keyOf).Nodup ∧
      (∀ key, key ∈ graph.summary.map keyOf ↔ key ∈ graph.edges.map keyOf) ∧
      (graph.summary.map keyOf).Pairwise fun first second =>
        (graph.edges.map keyOf).idxOf first < (graph.edges.map keyOf).idxOf second) ∧
    (∀ edge ∈ graph.summary, edge.count =
      ((graph.edges.filter (keyOf · == keyOf edge)).map CallEdge.count).sum) ∧
    (graph.summary.map CallEdge.count).sum = (graph.edges.map CallEdge.count).sum ∧
    summaryOf graph.summary = graph.summary ∧
    summaryOf (left ++ right) = summaryOf (summaryOf left ++ summaryOf right) := by
  intro summaryOf
  have hmerged (edges : List CallEdge) : summaryOf edges = merged edges := summary_eq_merged _
  have hkeys : graph.summary.map keyOf = distinct (graph.edges.map keyOf) := by
    rw [summary_eq_merged, map_keyOf_merged]
  refine ⟨⟨?_, fun key => ?_, ?_⟩, fun edge hedge => ?_, sum_summary graph, ?_, ?_⟩
  · rw [hkeys]
    exact nodup_distinct _
  · rw [hkeys, mem_distinct]
  · rw [hkeys]
    exact pairwise_idxOf_distinct _
  · rw [summary_eq_merged] at hedge
    exact count_of_mem_merged hedge
  · rw [hmerged, summary_eq_merged, merged_merged]
  · simp only [hmerged]
    exact merged_append left right

end ProgramAudit.Traffic.CallGraph
