import ProgramAudit.Proofs.Failure
import ProgramAudit.Proofs.Table
import ProgramAudit.Traffic.CallGraph

/-!
What a graph shows of its traffic. It is drawn of traffic that can be read throughout, with an edge for
each instruction that connects two accounts, and is empty otherwise. So the graph of one stretch of
traffic behind another is made of the graphs of both.
-/

namespace ProgramAudit.Traffic

open Result

namespace Footprint

/-- Accounts that a graph can be drawn of: they are there, and the first two are addresses. -/
inductive Legible : Option (List Json) → Prop
  | nil : Legible (some [])
  | single (account : Json) : Legible (some [account])
  | pair (source target : String) (others : List Json) :
    Legible (some (.str source :: .str target :: others))

/-- A transaction that is there, with accounts that a graph can be drawn of. -/
inductive Readable : Option Footprint → Prop
  | some {footprint : Footprint} (h : ∀ accounts ∈ footprint.accounts, Legible accounts) :
    Readable (some footprint)

theorem fails_edge? {kind : Kind} {accounts : Option (List Json)} :
    Fails (edge? kind accounts) ↔ ¬Legible accounts := by
  match accounts with
  | none => exact iff_of_true (failsBy_error.mpr trivial) nofun
  | some [] => exact iff_of_false not_failsBy_ok (not_not_intro .nil)
  | some [account] => exact iff_of_false not_failsBy_ok (not_not_intro (.single account))
  | some (source :: target :: others) =>
      cases source with
      | str source =>
          cases target with
          | str target =>
              exact iff_of_false not_failsBy_ok (not_not_intro (.pair source target others))
          | _ => exact iff_of_true (failsBy_error.mpr trivial) nofun
      | _ => exact iff_of_true (failsBy_error.mpr trivial) nofun

theorem fails_edges {footprint : Option Footprint} :
    Fails (edges footprint) ↔ ¬Readable footprint := by
  cases footprint with
  | none => exact iff_of_true (failsBy_error.mpr trivial) nofun
  | some footprint =>
      have hsteps : Fails (edges (some footprint)) ↔
          ∃ accounts ∈ footprint.accounts, ¬Legible accounts := by
        refine (fails_bind fun found _ => ?_).trans ((or_iff_left not_false).trans ?_)
        · exact iff_of_false not_failsBy_ok id
        · rw [fails_mapM]
          simp only [fails_edge?]
      rw [hsteps]
      constructor
      · rintro ⟨accounts, haccounts, hillegible⟩ ⟨hlegible⟩
        exact hillegible (hlegible accounts haccounts)
      · intro hunreadable
        by_contra hnone
        push Not at hnone
        exact hunreadable (.some hnone)

/-- What an instruction with at least two accounts connects, in a transaction of a kind. -/
structure Link where
  kind : Kind
  source : Json
  target : Json

def link? (kind : Kind) : Option (List Json) → Option Link
  | some (source :: target :: _) => some { kind, source, target }
  | _ => none

def links : Option Footprint → List Link
  | none => []
  | some footprint => footprint.accounts.filterMap (link? footprint.kind)

/-- An edge for one instruction, under the kind of its transaction. -/
structure Shows (edge : CallEdge) (link : Link) : Prop where
  source : link.source = .str edge.source
  target : link.target = .str edge.target
  action : edge.action = link.kind.word
  count : edge.count = 1

theorem shows_edge? {kind : Kind} {accounts : Option (List Json)} {found : Option CallEdge}
    (h : edge? kind accounts = .ok found) :
    List.Forall₂ Shows found.toList (link? kind accounts).toList := by
  match accounts with
  | none => cases h
  | some [] =>
      cases h
      exact .nil
  | some [account] =>
      cases h
      exact .nil
  | some (source :: target :: others) =>
      unfold edge? at h
      dsimp only at h
      split at h
      · cases h
        exact .cons ⟨rfl, rfl, rfl, rfl⟩ .nil
      · cases h

theorem shows_accounts {kind : Kind} {accounts : List (Option (List Json))}
    {found : List (Option CallEdge)} (h : accounts.mapM (edge? kind) = .ok found) :
    List.Forall₂ Shows (found.filterMap id) (accounts.filterMap (link? kind)) := by
  rw [List.filterMap_eq_flatMap_toList, List.filterMap_eq_flatMap_toList]
  replace h := mapM_eq_ok.mp h
  induction h with
  | nil => exact .nil
  | cons hfirst _ ih =>
      rw [List.flatMap_cons, List.flatMap_cons]
      exact List.rel_append (shows_edge? hfirst) ih

theorem shows_edges {footprint : Option Footprint} {found : List CallEdge}
    (h : edges footprint = .ok found) : List.Forall₂ Shows found (links footprint) := by
  cases footprint with
  | none => cases h
  | some footprint =>
      obtain ⟨each, heach, hfound⟩ := bind_eq_ok.mp h
      rw [← pure_eq_ok.mp hfound]
      exact shows_accounts heach

end Footprint

namespace CallGraph

open Footprint

variable {root : String} {footprints : List (Option Footprint)} {edges : List CallEdge}

theorem fails_edgesOf :
    Fails (edgesOf footprints) ↔ ∃ footprint ∈ footprints, ¬Readable footprint := by
  refine (fails_bind fun found _ => ?_).trans ((or_iff_left not_false).trans ?_)
  · exact iff_of_false not_failsBy_ok id
  · rw [fails_mapM]
    simp only [fails_edges]

/-- One edge for each instruction with two accounts, in their order. By induction over the
transactions. -/
theorem shows_edgesOf (h : edgesOf footprints = .ok edges) :
    List.Forall₂ Shows edges (footprints.flatMap links) := by
  obtain ⟨each, heach, hedges⟩ := bind_eq_ok.mp h
  rw [← pure_eq_ok.mp hedges]
  replace heach := mapM_eq_ok.mp heach
  clear h hedges
  induction heach with
  | nil => exact .nil
  | cons hfirst _ ih =>
      rw [List.flatten_cons, List.flatMap_cons]
      exact List.rel_append (shows_edges hfirst) ih

/-- The edges of two stretches of traffic are those of the first and behind them those of the second. -/
theorem edgesOf_append (first second : List (Option Footprint)) :
    edgesOf (first ++ second) = do
      let left ← edgesOf first
      let right ← edgesOf second
      return left ++ right := by
  unfold edgesOf
  rw [List.mapM_append]
  cases first.mapM Footprint.edges with
  | error failure => rfl
  | ok left =>
      cases second.mapM Footprint.edges with
      | error failure => rfl
      | ok right => exact congrArg Except.ok List.flatten_append

/-! ### Nodes -/

theorem nodes_ofEdges (root : String) (edges : List CallEdge) : (ofEdges root edges).nodes =
    root :: (distinct (edges.flatMap ends)).filter (· ∉ [root]) :=
  distinct_append [root] (edges.flatMap ends)

theorem mem_nodes_ofEdges {node : String} : node ∈ (ofEdges root edges).nodes ↔
    node = root ∨ ∃ edge ∈ edges, node = edge.source ∨ node = edge.target := by
  change node ∈ distinct (root :: edges.flatMap ends) ↔ _
  simp [mem_distinct, ends]

/-- The second of two graphs adds the nodes that the first one has not. -/
theorem nodes_ofEdges_append (root : String) (left right : List CallEdge) :
    (ofEdges root (left ++ right)).nodes = (ofEdges root left).nodes ++
      (ofEdges root right).nodes.filter (· ∉ (ofEdges root left).nodes) := by
  have hroot : root ∈ (ofEdges root left).nodes := mem_nodes_ofEdges.mpr (.inl rfl)
  have hmem (node : String) : node ∈ root :: left.flatMap ends ↔ node ∈ (ofEdges root left).nodes :=
    mem_distinct.symm
  have hsplit : (ofEdges root (left ++ right)).nodes = (ofEdges root left).nodes ++
      (distinct (right.flatMap ends)).filter (· ∉ (ofEdges root left).nodes) := by
    change distinct (root :: (left ++ right).flatMap ends) = _
    rw [List.flatMap_append, ← List.cons_append, distinct_append]
    simp only [hmem]
    rfl
  rw [hsplit, nodes_ofEdges root right, List.filter_cons_of_neg (by simpa using hroot),
    List.filter_filter]
  congr 1
  refine List.filter_congr fun node _ => ?_
  by_cases hnode : node = root
  · simp [hnode, hroot]
  · simp [hnode]

/-! ### Graphs -/

/-- The graph of traffic that can be read. -/
structure Draws (root : String) (footprints : List (Option Footprint)) (graph : CallGraph) : Prop where
  computed : graph.computed = true
  rooted : graph.root = root
  first : graph.nodes.head? = some root
  nodup : graph.nodes.Nodup
  nodes : ∀ node, node ∈ graph.nodes ↔
    node = root ∨ ∃ edge ∈ graph.edges, node = edge.source ∨ node = edge.target
  edges : List.Forall₂ Shows graph.edges (footprints.flatMap links)

theorem draws_ofEdges (h : edgesOf footprints = .ok edges) :
    Draws root footprints (ofEdges root edges) where
  computed := rfl
  rooted := rfl
  first := by rw [nodes_ofEdges]; rfl
  nodup := nodup_distinct _
  nodes _ := mem_nodes_ofEdges
  edges := shows_edgesOf h

theorem ofFootprints_of_readable (root : String)
    (h : ∀ footprint ∈ footprints, Readable footprint) :
    ∃ edges, edgesOf footprints = .ok edges ∧ ofFootprints root footprints = ofEdges root edges := by
  obtain hfails | ⟨edges, hedges⟩ := fails_or_exists (edgesOf footprints)
  · obtain ⟨footprint, hfootprint, hunreadable⟩ := fails_edgesOf.mp hfails
    exact absurd (h footprint hfootprint) hunreadable
  · refine ⟨edges, hedges, ?_⟩
    unfold ofFootprints
    rw [hedges]

theorem ofFootprints_of_unreadable (h : ¬∀ footprint ∈ footprints, Readable footprint) :
    ofFootprints root footprints = empty root := by
  push Not at h
  obtain ⟨failure, hfailure, -⟩ := fails_edgesOf.mpr h
  unfold ofFootprints
  rw [hfailure]

theorem computed_iff : (ofFootprints root footprints).computed = true ↔
    ∀ footprint ∈ footprints, Readable footprint := by
  by_cases h : ∀ footprint ∈ footprints, Readable footprint
  · obtain ⟨edges, -, hgraph⟩ := ofFootprints_of_readable root h
    rw [hgraph]
    exact iff_of_true rfl h
  · rw [ofFootprints_of_unreadable h]
    exact iff_of_false Bool.false_ne_true h

/-- Transactions that were read from an endpoint can all be read here. -/
theorem computed_ofWindow (root : String) (window : List Classified) :
    (ofWindow root window).computed = true := by
  refine computed_iff.mpr fun footprint hfootprint => ?_
  obtain ⟨classified, -, rfl⟩ := List.mem_map.mp hfootprint
  refine .some fun accounts haccounts => ?_
  obtain ⟨instruction, -, rfl⟩ := List.mem_map.mp haccounts
  match instruction.accounts with
  | [] => exact .nil
  | [account] => exact .single (.str account)
  | source :: target :: others => exact .pair source target (others.map .str)

theorem draws_ofFootprints (h : (ofFootprints root footprints).computed = true) :
    Draws root footprints (ofFootprints root footprints) := by
  obtain ⟨edges, hedges, hgraph⟩ := ofFootprints_of_readable root (computed_iff.mp h)
  rw [hgraph]
  exact draws_ofEdges hedges

theorem ofFootprints_append {first second : List (Option Footprint)}
    (h : (ofFootprints root (first ++ second)).computed = true) :
    (ofFootprints root (first ++ second)).edges =
        (ofFootprints root first).edges ++ (ofFootprints root second).edges ∧
      (ofFootprints root (first ++ second)).nodes = (ofFootprints root first).nodes ++
        (ofFootprints root second).nodes.filter (· ∉ (ofFootprints root first).nodes) := by
  obtain ⟨hfirst, hsecond⟩ := List.forall_mem_append.mp (computed_iff.mp h)
  obtain ⟨left, hleft, hfirst⟩ := ofFootprints_of_readable root hfirst
  obtain ⟨right, hright, hsecond⟩ := ofFootprints_of_readable root hsecond
  obtain ⟨both, hboth, hgraph⟩ := ofFootprints_of_readable root (computed_iff.mp h)
  rw [edgesOf_append, hleft, hright] at hboth
  cases hboth
  rw [hgraph, hfirst, hsecond]
  exact ⟨rfl, nodes_ofEdges_append root left right⟩

/-- **Graphs of traffic add up.** The graph of two stretches of traffic is computed exactly if the
graphs of both are, and it is empty otherwise. Its edges are those of the first and behind them those
of the second, and its nodes those of the first and behind them the new ones of the second. A graph is
computed exactly if all traffic can be read. Then its root comes first, no node comes twice, its nodes
are the root and the ends of its edges, and it has one edge for each instruction with at least two
accounts, in their order and under the kind of their transaction. -/
theorem ofFootprints_add_up (root : String) (first second : List (Option Footprint)) :
    let graph := ofFootprints root
    ((graph (first ++ second)).computed = true ↔
      (graph first).computed = true ∧ (graph second).computed = true) ∧
    ((graph (first ++ second)).computed = false → graph (first ++ second) = empty root) ∧
    ((graph (first ++ second)).computed = true →
      (graph (first ++ second)).edges = (graph first).edges ++ (graph second).edges ∧
      (graph (first ++ second)).nodes =
        (graph first).nodes ++ (graph second).nodes.filter (· ∉ (graph first).nodes)) ∧
    ∀ footprints, ((graph footprints).computed = true ↔
        ∀ footprint ∈ footprints, Readable footprint) ∧
      ((graph footprints).computed = true → Draws root footprints (graph footprints)) := by
  intro graph
  refine ⟨?_, fun hcomputed => ?_, ofFootprints_append, fun footprints => ?_⟩
  · calc (graph (first ++ second)).computed = true
        ↔ ∀ footprint ∈ first ++ second, Readable footprint := computed_iff
      _ ↔ (∀ footprint ∈ first, Readable footprint) ∧ ∀ footprint ∈ second, Readable footprint :=
          List.forall_mem_append
      _ ↔ (graph first).computed = true ∧ (graph second).computed = true :=
          and_congr computed_iff.symm computed_iff.symm
  · apply ofFootprints_of_unreadable
    intro hreadable
    cases hcomputed.symm.trans (computed_iff.mpr hreadable)
  · exact ⟨computed_iff, draws_ofFootprints⟩

end CallGraph

end ProgramAudit.Traffic
