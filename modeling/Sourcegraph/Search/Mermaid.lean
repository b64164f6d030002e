import Sourcegraph.Search.Sexp

/-! The Mermaid printer of search jobs (`PrettyMermaid`, src/unnamed/part_004:327-456). It
walks the job tree as `SexpFormat` does, with two counters: `id`, the number of the next
node, and `subgraphId`, the number of the next subgraph, which starts at 10000. A
composite job is a subgraph holding a node for itself, an edge to each of its parts and
the parts.

The chart it draws is a tree: its nodes are numbered in the order they are written,
every node but the first has exactly one edge coming in, from a node written before it,
and the subgraphs are numbered in order and nest. Its panics are those of `SexpFormat`,
message for message. -/

namespace Sourcegraph.Search

/-- A line of the chart, as the helpers of `PrettyMermaid` write it. -/
inductive Line where
  | edge (src dst : Nat)
  | node (id : Nat) (label : String)
  | subgraph (id : Nat) (label : String)
  | endSubgraph
  deriving DecidableEq, Repr

/-- The text of a line. -/
def Line.text : Line → String
  | .edge src dst => toString src ++ "-->" ++ toString dst ++ "\n"
  | .node id label => toString id ++ "[" ++ label ++ "]\n"
  | .subgraph id label => "subgraph " ++ toString id ++ "[" ++ label ++ "]\n"
  | .endSubgraph => "end\n"

/-- The buffer, as the lines written so far, and the counters `id` and `subgraphId`. -/
structure Chart where
  lines : List Line
  id : Nat
  subgraphId : Nat
  deriving DecidableEq, Repr

/-- `writeEdge`. -/
def writeEdge (c : Chart) (src dst : Nat) : Chart := { c with lines := c.lines ++ [.edge src dst] }

/-- `writeNode`, on the counter `id`. -/
def writeNode (c : Chart) (label : String) : Chart :=
  { c with lines := c.lines ++ [.node c.id label], id := c.id + 1 }

/-- `openSubgraph`, on the counter `subgraphId`. -/
def openSubgraph (c : Chart) (label : String) : Chart :=
  let label := if label = "" then "&nbsp" else label
  { c with lines := c.lines ++ [.subgraph c.subgraphId label], subgraphId := c.subgraphId + 1 }

/-- `closeSubgraph`. -/
def closeSubgraph (c : Chart) : Chart := { c with lines := c.lines ++ [.endSubgraph] }

section Printer

variable (durationString : Int → String)

mutual
/-- The closure `writeMermaid` of `PrettyMermaid`. A panic is an error carrying its message. -/
def writeMermaid : Job → Chart → Except String Chart
  | .leaf name, c => .ok (writeNode c name)
  | .and children, c => do
    let c := openSubgraph c ""
    let srcId := c.id
    let c := writeNode c "AND"
    let c ← writeMermaidChildren srcId children c
    pure (closeSubgraph c)
  | .or children, c => do
    let c := openSubgraph c ""
    let srcId := c.id
    let c := writeNode c "OR"
    let c ← writeMermaidChildren srcId children c
    pure (closeSubgraph c)
  | .priority required optional, c => do
    let c := openSubgraph c ""
    let srcId := c.id
    let c := writeNode c "PRIORITY"
    let requiredId := c.id
    let c := writeEdge c srcId requiredId
    let c := writeNode c "REQUIRED"
    let c := writeEdge c requiredId c.id
    let c ← writeMermaid required c
    let optionalId := c.id
    let c := writeEdge c srcId optionalId
    let c := writeNode c "OPTIONAL"
    let c := writeEdge c optionalId c.id
    let c ← writeMermaid optional c
    pure (closeSubgraph c)
  | .parallel children, c => do
    let c := openSubgraph c ""
    let srcId := c.id
    let c := writeNode c "PARALLEL"
    let c ← writeMermaidChildren srcId children c
    pure (closeSubgraph c)
  | .timeout t child, c => do
    let c := openSubgraph c ""
    let srcId := c.id
    let c := writeNode c "TIMEOUT"
    let c := writeEdge c srcId c.id
    let c := writeNode c (durationString t)
    let c := writeEdge c srcId c.id
    let c ← writeMermaid child c
    pure (closeSubgraph c)
  | .limit n child, c => do
    let c := openSubgraph c ""
    let srcId := c.id
    let c := writeNode c "LIMIT"
    let c := writeEdge c srcId c.id
    let c := writeNode c (toString n)
    let c := writeEdge c srcId c.id
    let c ← writeMermaid child c
    pure (closeSubgraph c)
  | .subRepoPermsFilter child, c => do
    let c := openSubgraph c ""
    let srcId := c.id
    let c := writeNode c "FILTER"
    let c := writeEdge c srcId c.id
    let c := writeNode c "SubRepoPermissions"
    let c := writeEdge c srcId c.id
    let c ← writeMermaid child c
    pure (closeSubgraph c)
  | .other type, _ => .error (unsupportedJob type)

/-- The loop over the children: an edge from `srcId` to the next node, then the child. -/
def writeMermaidChildren (srcId : Nat) : List Job → Chart → Except String Chart
  | [], c => .ok c
  | child :: rest, c => do
    let c ← writeMermaid child (writeEdge c srcId c.id)
    writeMermaidChildren srcId rest c
end

/-- `PrettyMermaid`. -/
def prettyMermaid (job : Job) : Except String String :=
  (writeMermaid durationString job ⟨[], 0, 10000⟩).map fun c =>
    "flowchart TB\n" ++ String.join (c.lines.map Line.text)

end Printer

example : prettyMermaid toString (.limit 5 (.leaf "RepoSearch")) =
    .ok "flowchart TB\nsubgraph 10000[&nbsp]\n0[LIMIT]\n0-->1\n1[5]\n0-->2\n2[RepoSearch]\nend\n" := rfl

/-! ## The shape of the chart -/

/-- The number of a node line. -/
def Line.nodeId? : Line → Option Nat
  | .node id _ => some id
  | _ => none

/-- The ends of an edge line. -/
def Line.edge? : Line → Option (Nat × Nat)
  | .edge src dst => some (src, dst)
  | _ => none

/-- The number of a subgraph line. -/
def Line.subgraphId? : Line → Option Nat
  | .subgraph id _ => some id
  | _ => none

/-- The nodes of the lines, in order. -/
def nodeIds (ls : List Line) : List Nat := ls.filterMap Line.nodeId?

/-- The edges of the lines, in order. -/
def edges (ls : List Line) : List (Nat × Nat) := ls.filterMap Line.edge?

/-- The subgraphs of the lines, in order. -/
def subgraphIds (ls : List Line) : List Nat := ls.filterMap Line.subgraphId?

/-- Lines whose subgraph openings and `end` lines nest like parentheses. -/
inductive Nested : List Line → Prop
  | nil : Nested []
  | edge {src dst : Nat} {ls : List Line} : Nested ls → Nested (.edge src dst :: ls)
  | node {id : Nat} {label : String} {ls : List Line} : Nested ls → Nested (.node id label :: ls)
  | group {id : Nat} {label : String} {inner ls : List Line} :
    Nested inner → Nested ls → Nested (.subgraph id label :: inner ++ .endSubgraph :: ls)

theorem Nested.append {as bs : List Line} (ha : Nested as) (hb : Nested bs) : Nested (as ++ bs) := by
  induction ha with
  | nil => exact hb
  | edge _ ih => exact .edge ih
  | node _ ih => exact .node ih
  | group hin _ _ ih => simpa using Nested.group hin ih

@[simp] theorem nodeIds_append (as bs : List Line) : nodeIds (as ++ bs) = nodeIds as ++ nodeIds bs :=
  List.filterMap_append as bs _
@[simp] theorem edges_append (as bs : List Line) : edges (as ++ bs) = edges as ++ edges bs :=
  List.filterMap_append as bs _
@[simp] theorem subgraphIds_append (as bs : List Line) :
    subgraphIds (as ++ bs) = subgraphIds as ++ subgraphIds bs :=
  List.filterMap_append as bs _

@[simp] theorem nodeIds_nil : nodeIds [] = [] := rfl
@[simp] theorem edges_nil : edges [] = [] := rfl
@[simp] theorem subgraphIds_nil : subgraphIds [] = [] := rfl
@[simp] theorem nodeIds_node (id : Nat) (label : String) (ls : List Line) :
    nodeIds (.node id label :: ls) = id :: nodeIds ls := rfl
@[simp] theorem nodeIds_edge (src dst : Nat) (ls : List Line) : nodeIds (.edge src dst :: ls) = nodeIds ls := rfl
@[simp] theorem nodeIds_subgraph (id : Nat) (label : String) (ls : List Line) :
    nodeIds (.subgraph id label :: ls) = nodeIds ls := rfl
@[simp] theorem nodeIds_end (ls : List Line) : nodeIds (.endSubgraph :: ls) = nodeIds ls := rfl
@[simp] theorem edges_node (id : Nat) (label : String) (ls : List Line) :
    edges (.node id label :: ls) = edges ls := rfl
@[simp] theorem edges_edge (src dst : Nat) (ls : List Line) :
    edges (.edge src dst :: ls) = (src, dst) :: edges ls := rfl
@[simp] theorem edges_subgraph (id : Nat) (label : String) (ls : List Line) :
    edges (.subgraph id label :: ls) = edges ls := rfl
@[simp] theorem edges_end (ls : List Line) : edges (.endSubgraph :: ls) = edges ls := rfl
@[simp] theorem subgraphIds_node (id : Nat) (label : String) (ls : List Line) :
    subgraphIds (.node id label :: ls) = subgraphIds ls := rfl
@[simp] theorem subgraphIds_edge (src dst : Nat) (ls : List Line) :
    subgraphIds (.edge src dst :: ls) = subgraphIds ls := rfl
@[simp] theorem subgraphIds_subgraph (id : Nat) (label : String) (ls : List Line) :
    subgraphIds (.subgraph id label :: ls) = id :: subgraphIds ls := rfl
@[simp] theorem subgraphIds_end (ls : List Line) : subgraphIds (.endSubgraph :: ls) = subgraphIds ls := rfl

/-- Lists that are permutations of two adjacent ranges make up the range of both. -/
theorem perm_range'_append {l₁ l₂ : List Nat} {s a b c n : Nat} (h₁ : l₁.Perm (List.range' s a))
    (h₂ : l₂.Perm (List.range' c b)) (hc : c = s + a) (hn : n = a + b) : (l₁ ++ l₂).Perm (List.range' s n) := by
  subst hc hn
  rw [Nat.add_comm a b, ← List.range'_append_1]
  exact h₁.append h₂

/-- A number put before a permutation of the range after it. -/
theorem perm_range'_cons {l : List Nat} {s c n n' : Nat} (h : l.Perm (List.range' c n)) (hc : c = s + 1)
    (hn : n' = n + 1) : (s :: l).Perm (List.range' s n') := by
  subst hc hn
  rw [List.range'_succ]
  exact h.cons s

/-- What one call of `writeMermaid` appends from node `k` and subgraph `g`: the nodes `k`
to `k + n`, each once; one edge into each of them but `k`, and none elsewhere; every edge
from a node of the call to a later one; the subgraphs `g` to `g + s - 1`, each once, and
nested. -/
structure Segment (k n g s : Nat) (new : List Line) : Prop where
  nodes : (nodeIds new).Perm (List.range' k (n + 1))
  targets : ((edges new).map Prod.snd).Perm (List.range' (k + 1) n)
  sources : ∀ e ∈ edges new, k ≤ e.1 ∧ e.1 < e.2
  subgraphs : (subgraphIds new).Perm (List.range' g s)
  nested : Nested new

/-- What the loop over the children of node `src` appends from node `k`: the nodes `k` to
`k + n - 1`, an edge into each of them, every edge leaving `src` or a node of the loop for
a later one, and the subgraphs `g` to `g + s - 1`, nested. -/
structure Parts (src k n g s : Nat) (new : List Line) : Prop where
  nodes : (nodeIds new).Perm (List.range' k n)
  targets : ((edges new).map Prod.snd).Perm (List.range' k n)
  sources : ∀ e ∈ edges new, (e.1 = src ∨ k ≤ e.1) ∧ e.1 < e.2
  subgraphs : (subgraphIds new).Perm (List.range' g s)
  nested : Nested new

theorem segment_leaf (k g : Nat) (label : String) : Segment k 0 g 0 [.node k label] where
  nodes := .refl _
  targets := .refl _
  sources := by simp
  subgraphs := .refl _
  nested := .node .nil

theorem parts_nil (src k g : Nat) : Parts src k 0 g 0 [] where
  nodes := .nil
  targets := .nil
  sources := by simp
  subgraphs := .nil
  nested := .nil

theorem Parts.cons {src k n m g s t : Nat} {as bs : List Line} (hsrc : src < k)
    (ha : Segment k n g s as) (hb : Parts src (k + n + 1) m (g + s) t bs) :
    Parts src k (n + 1 + m) g (s + t) (.edge src k :: (as ++ bs)) where
  nodes := by
    rw [nodeIds_edge, nodeIds_append]
    exact perm_range'_append ha.nodes hb.nodes (by omega) rfl
  targets := by
    simp only [edges_edge, edges_append, List.map_cons, List.map_append]
    exact perm_range'_cons (perm_range'_append ha.targets hb.targets (by omega) rfl) rfl (by omega)
  sources e he := by
    simp only [edges_edge, edges_append, List.mem_cons, List.mem_append] at he
    rcases he with rfl | he | he
    · exact ⟨.inl rfl, hsrc⟩
    · exact ⟨.inr (ha.sources e he).1, (ha.sources e he).2⟩
    · exact ⟨(hb.sources e he).1.imp id (by omega), (hb.sources e he).2⟩
  subgraphs := by
    rw [subgraphIds_edge, subgraphIds_append]
    exact perm_range'_append ha.subgraphs hb.subgraphs rfl rfl
  nested := .edge (ha.nested.append hb.nested)

/-- A composite job with a list of children draws a segment around its parts. -/
theorem Segment.group {k n g s : Nat} (label : String) {bs : List Line} (hb : Parts k (k + 1) n (g + 1) s bs) :
    Segment k n g (s + 1) (.subgraph g "&nbsp" :: .node k label :: (bs ++ [.endSubgraph])) where
  nodes := by
    simp only [nodeIds_subgraph, nodeIds_node, nodeIds_append, nodeIds_end, nodeIds_nil, List.append_nil]
    exact perm_range'_cons hb.nodes rfl rfl
  targets := by
    simpa only [edges_subgraph, edges_node, edges_append, edges_end, edges_nil, List.append_nil] using hb.targets
  sources e he := by
    simp only [edges_subgraph, edges_node, edges_append, edges_end, edges_nil, List.append_nil] at he
    have := hb.sources e he
    omega
  subgraphs := by
    simp only [subgraphIds_subgraph, subgraphIds_node, subgraphIds_append, subgraphIds_end, subgraphIds_nil,
      List.append_nil]
    exact perm_range'_cons hb.subgraphs rfl rfl
  nested := .group (.node hb.nested) .nil

/-- A composite job with a label and one child draws a segment around the child. -/
theorem Segment.wrap {k n g s : Nat} (label atom : String) {as : List Line} (ha : Segment (k + 2) n (g + 1) s as) :
    Segment k (n + 2) g (s + 1) (.subgraph g "&nbsp" :: .node k label :: .edge k (k + 1) :: .node (k + 1) atom ::
      .edge k (k + 2) :: (as ++ [.endSubgraph])) where
  nodes := by
    simp only [nodeIds_subgraph, nodeIds_node, nodeIds_edge, nodeIds_append, nodeIds_end, nodeIds_nil,
      List.append_nil]
    exact perm_range'_cons (perm_range'_cons ha.nodes rfl rfl) rfl rfl
  targets := by
    simp only [edges_subgraph, edges_node, edges_edge, edges_append, edges_end, edges_nil, List.append_nil,
      List.map_cons]
    exact perm_range'_cons (perm_range'_cons ha.targets rfl rfl) rfl rfl
  sources e he := by
    simp only [edges_subgraph, edges_node, edges_edge, edges_append, edges_end, edges_nil, List.append_nil,
      List.mem_cons] at he
    rcases he with rfl | rfl | he
    all_goals first
      | (dsimp only; omega)
      | (have h := ha.sources e he; omega)
  subgraphs := by
    simp only [subgraphIds_subgraph, subgraphIds_node, subgraphIds_edge, subgraphIds_append, subgraphIds_end,
      subgraphIds_nil, List.append_nil]
    exact perm_range'_cons ha.subgraphs rfl rfl
  nested := .group (.node (.edge (.node (.edge ha.nested)))) .nil

/-- The priority job draws a segment around its required and its optional job. -/
theorem Segment.priority {k n m g s t : Nat} {as bs : List Line} (ha : Segment (k + 2) n (g + 1) s as)
    (hb : Segment (k + n + 4) m (g + 1 + s) t bs) :
    Segment k (n + m + 4) g (s + t + 1) (.subgraph g "&nbsp" :: (.node k "PRIORITY" :: .edge k (k + 1) ::
      .node (k + 1) "REQUIRED" :: .edge (k + 1) (k + 2) :: (as ++ .edge k (k + n + 3) :: .node (k + n + 3) "OPTIONAL" ::
      .edge (k + n + 3) (k + n + 4) :: bs) ++ [.endSubgraph])) where
  nodes := by
    simp only [nodeIds_subgraph, nodeIds_node, nodeIds_edge, nodeIds_append, nodeIds_end, nodeIds_nil,
      List.append_nil]
    have hr : (nodeIds as ++ (k + n + 3) :: nodeIds bs).Perm (List.range' (k + 2) (n + m + 3)) :=
      perm_range'_append ha.nodes (perm_range'_cons hb.nodes rfl rfl) (by omega) (by omega)
    exact perm_range'_cons (perm_range'_cons hr rfl rfl) rfl rfl
  targets := by
    simp only [edges_subgraph, edges_node, edges_edge, edges_append, edges_end, edges_nil, List.append_nil,
      List.map_cons, List.map_append]
    have hr : (((edges as).map Prod.snd) ++ (k + n + 3) :: (k + n + 4) :: (edges bs).map Prod.snd).Perm
        (List.range' (k + 3) (n + m + 2)) :=
      perm_range'_append ha.targets (perm_range'_cons (perm_range'_cons hb.targets rfl rfl) rfl rfl) (by omega)
        (by omega)
    exact perm_range'_cons (perm_range'_cons hr rfl rfl) rfl rfl
  sources e he := by
    simp only [edges_subgraph, edges_node, edges_edge, edges_append, edges_end, edges_nil, List.append_nil,
      List.mem_cons, List.mem_append] at he
    rcases he with rfl | rfl | he | rfl | rfl | he
    all_goals first
      | (dsimp only; omega)
      | (have h := ha.sources e he; omega)
      | (have h := hb.sources e he; omega)
  subgraphs := by
    simp only [subgraphIds_subgraph, subgraphIds_node, subgraphIds_edge, subgraphIds_append, subgraphIds_end,
      subgraphIds_nil, List.append_nil]
    exact perm_range'_cons (perm_range'_append ha.subgraphs hb.subgraphs rfl rfl) rfl (by omega)
  nested := .group (.node (.edge (.node (.edge (ha.nested.append (.edge (.node (.edge hb.nested)))))))) .nil

section Writer

variable (durationString : Int → String)

/-- A composite job with a list of children, given what writing the children appends. -/
theorem group_ok (label : String) (children : List Job) (c : Chart)
    (ih : ∀ src c', src < c'.id → ∃ n s new, writeMermaidChildren durationString src children c' =
      .ok ⟨c'.lines ++ new, c'.id + n, c'.subgraphId + s⟩ ∧ Parts src c'.id n c'.subgraphId s new) :
    ∃ n s new, (do
      let c' ← writeMermaidChildren durationString (openSubgraph c "").id children (writeNode (openSubgraph c "") label)
      pure (closeSubgraph c') : Except String Chart) = .ok ⟨c.lines ++ new, c.id + n + 1, c.subgraphId + s⟩ ∧
      Segment c.id n c.subgraphId s new := by
  obtain ⟨n, s, new, hw, hs⟩ := ih (openSubgraph c "").id (writeNode (openSubgraph c "") label)
    (by simp [writeNode, openSubgraph])
  refine ⟨n, s + 1, _, ?_, Segment.group label hs⟩
  rw [hw]
  simp only [bind, Except.bind, pure, Except.pure, closeSubgraph, writeNode, openSubgraph,
    List.append_assoc, List.singleton_append, List.cons_append, if_pos, List.nil_append,
    Except.ok.injEq, Chart.mk.injEq, true_and]
  omega

/-- A composite job with a label and one child, given what writing the child appends. -/
theorem wrap_ok (label atom : String) (child : Job) (c : Chart)
    (ih : ∀ c', ∃ n s new, writeMermaid durationString child c' =
      .ok ⟨c'.lines ++ new, c'.id + n + 1, c'.subgraphId + s⟩ ∧ Segment c'.id n c'.subgraphId s new) :
    ∃ n s new, (do
      let c := openSubgraph c ""
      let srcId := c.id
      let c := writeNode c label
      let c := writeEdge c srcId c.id
      let c := writeNode c atom
      let c := writeEdge c srcId c.id
      let c ← writeMermaid durationString child c
      pure (closeSubgraph c) : Except String Chart) = .ok ⟨c.lines ++ new, c.id + n + 1, c.subgraphId + s⟩ ∧
      Segment c.id n c.subgraphId s new := by
  obtain ⟨n, s, new, hw, hs⟩ := ih ⟨c.lines ++ [.subgraph c.subgraphId "&nbsp", .node c.id label,
    .edge c.id (c.id + 1), .node (c.id + 1) atom, .edge c.id (c.id + 1 + 1)], c.id + 1 + 1, c.subgraphId + 1⟩
  refine ⟨n + 2, s + 1, _, ?_, Segment.wrap label atom hs⟩
  simp only [writeEdge, writeNode, openSubgraph, if_pos, List.append_assoc, List.singleton_append,
    List.cons_append, List.nil_append] at hw ⊢
  rw [hw]
  simp only [bind, Except.bind, pure, Except.pure, closeSubgraph, List.append_assoc, List.singleton_append,
    List.cons_append, List.nil_append, Except.ok.injEq, Chart.mk.injEq, true_and]
  omega

/-- The priority job, given what writing its required and its optional job appends. -/
theorem priority_ok (required optional : Job) (c : Chart)
    (ihr : ∀ c', ∃ n s new, writeMermaid durationString required c' =
      .ok ⟨c'.lines ++ new, c'.id + n + 1, c'.subgraphId + s⟩ ∧ Segment c'.id n c'.subgraphId s new)
    (iho : ∀ c', ∃ n s new, writeMermaid durationString optional c' =
      .ok ⟨c'.lines ++ new, c'.id + n + 1, c'.subgraphId + s⟩ ∧ Segment c'.id n c'.subgraphId s new) :
    ∃ n s new, writeMermaid durationString (.priority required optional) c =
      .ok ⟨c.lines ++ new, c.id + n + 1, c.subgraphId + s⟩ ∧ Segment c.id n c.subgraphId s new := by
  obtain ⟨n, s, as, ha, hsa⟩ := ihr ⟨c.lines ++ [.subgraph c.subgraphId "&nbsp", .node c.id "PRIORITY",
    .edge c.id (c.id + 1), .node (c.id + 1) "REQUIRED", .edge (c.id + 1) (c.id + 1 + 1)], c.id + 1 + 1,
    c.subgraphId + 1⟩
  obtain ⟨m, t, bs, hb, hsb⟩ := iho ⟨c.lines ++ .subgraph c.subgraphId "&nbsp" :: .node c.id "PRIORITY" ::
    .edge c.id (c.id + 1) :: .node (c.id + 1) "REQUIRED" :: .edge (c.id + 1) (c.id + 1 + 1) ::
    (as ++ [.edge c.id (c.id + n + 3), .node (c.id + n + 3) "OPTIONAL", .edge (c.id + n + 3) (c.id + n + 3 + 1)]),
    c.id + n + 3 + 1, c.subgraphId + 1 + s⟩
  refine ⟨n + m + 4, s + t + 1, _, ?_, Segment.priority hsa hsb⟩
  simp only [writeMermaid, writeEdge, writeNode, openSubgraph, if_pos, List.append_assoc, List.singleton_append,
    List.cons_append, List.nil_append] at ha hb ⊢
  rw [ha]
  simp only [bind, Except.bind, List.append_assoc, List.singleton_append, List.cons_append, List.nil_append]
  rw [show c.id + 1 + 1 + n + 1 = c.id + n + 3 by omega, hb]
  simp only [pure, Except.pure, closeSubgraph, List.append_assoc, List.singleton_append, List.cons_append,
    List.nil_append, Except.ok.injEq, Chart.mk.injEq, true_and]
  omega

mutual
/-- Writing a job the printer knows appends a segment: `writeMermaid` returns, having
written the nodes from its `id` on and the subgraphs from its `subgraphId` on. -/
theorem writeMermaid_ok : ∀ (j : Job) (c : Chart), j.unsupported = none →
    ∃ n s new, writeMermaid durationString j c = .ok ⟨c.lines ++ new, c.id + n + 1, c.subgraphId + s⟩ ∧
      Segment c.id n c.subgraphId s new
  | .leaf _, _, _ => ⟨0, 0, _, rfl, segment_leaf _ _ _⟩
  | .and children, c, h => by
    rw [writeMermaid]
    exact group_ok durationString "AND" children c fun src c' hsrc => writeMermaidChildren_ok children src c' h hsrc
  | .or children, c, h => by
    rw [writeMermaid]
    exact group_ok durationString "OR" children c fun src c' hsrc => writeMermaidChildren_ok children src c' h hsrc
  | .parallel children, c, h => by
    rw [writeMermaid]
    exact group_ok durationString "PARALLEL" children c fun src c' hsrc =>
      writeMermaidChildren_ok children src c' h hsrc
  | .priority required optional, c, h => by
    rw [Job.unsupported, Option.orElse_eq_none] at h
    exact priority_ok durationString required optional c (fun c' => writeMermaid_ok required c' h.1)
      (fun c' => writeMermaid_ok optional c' h.2)
  | .timeout t child, c, h => by
    rw [writeMermaid]
    exact wrap_ok durationString "TIMEOUT" (durationString t) child c fun c' => writeMermaid_ok child c' h
  | .limit n child, c, h => by
    rw [writeMermaid]
    exact wrap_ok durationString "LIMIT" (toString n) child c fun c' => writeMermaid_ok child c' h
  | .subRepoPermsFilter child, c, h => by
    rw [writeMermaid]
    exact wrap_ok durationString "FILTER" "SubRepoPermissions" child c fun c' => writeMermaid_ok child c' h
  | .other _, _, h => by simp [Job.unsupported] at h

/-- Writing the children of node `src` appends their segments, each after an edge from `src`. -/
theorem writeMermaidChildren_ok : ∀ (js : List Job) (src : Nat) (c : Chart), Job.unsupportedIn js = none →
    src < c.id → ∃ n s new, writeMermaidChildren durationString src js c =
      .ok ⟨c.lines ++ new, c.id + n, c.subgraphId + s⟩ ∧ Parts src c.id n c.subgraphId s new
  | [], src, c, _, _ => ⟨0, 0, [], by simp [writeMermaidChildren], parts_nil _ _ _⟩
  | j :: js, src, c, h, hsrc => by
    simp only [Job.unsupportedIn, Option.orElse_eq_none] at h
    obtain ⟨n, s, as, ha, hsa⟩ := writeMermaid_ok j (writeEdge c src c.id) h.1
    obtain ⟨m, t, bs, hb, hsb⟩ := writeMermaidChildren_ok js src
      ⟨(writeEdge c src c.id).lines ++ as, (writeEdge c src c.id).id + n + 1,
        (writeEdge c src c.id).subgraphId + s⟩ h.2 (by simp only [writeEdge]; omega)
    refine ⟨n + 1 + m, s + t, .edge src c.id :: (as ++ bs), ?_, Parts.cons hsrc hsa hsb⟩
    simp only [writeMermaidChildren]
    rw [ha]
    simp only [bind, Except.bind]
    rw [hb]
    simp only [writeEdge, List.append_assoc, List.singleton_append, List.cons_append, List.nil_append,
      Except.ok.injEq, Chart.mk.injEq, true_and]
    omega
end

end Writer


section Panics

variable (durationString : Int → String)

mutual
/-- `writeMermaid` panics with the message of the first job it does not know. -/
theorem writeMermaid_unsupported : ∀ (j : Job) (c : Chart) {type : String}, j.unsupported = some type →
    writeMermaid durationString j c = .error (unsupportedJob type)
  | .leaf _, _, _, h => by simp [Job.unsupported] at h
  | .and children, c, _, h => by
    rw [writeMermaid]
    simp only [writeMermaidChildren_unsupported children _ _ h, bind, Except.bind]
  | .or children, c, _, h => by
    rw [writeMermaid]
    simp only [writeMermaidChildren_unsupported children _ _ h, bind, Except.bind]
  | .parallel children, c, _, h => by
    rw [writeMermaid]
    simp only [writeMermaidChildren_unsupported children _ _ h, bind, Except.bind]
  | .priority required optional, c, _, h => by
    rw [Job.unsupported] at h
    cases hr : required.unsupported with
    | some t =>
      rw [hr, Option.some_orElse, Option.some.injEq] at h
      subst h
      simp only [writeMermaid]
      rw [writeMermaid_unsupported required _ hr]
      rfl
    | none =>
      rw [hr, Option.none_orElse] at h
      obtain ⟨n, s, as, ha, -⟩ := writeMermaid_ok durationString required ⟨c.lines ++ [.subgraph c.subgraphId "&nbsp",
        .node c.id "PRIORITY", .edge c.id (c.id + 1), .node (c.id + 1) "REQUIRED", .edge (c.id + 1) (c.id + 1 + 1)],
        c.id + 1 + 1, c.subgraphId + 1⟩ hr
      simp only [writeMermaid, writeEdge, writeNode, openSubgraph, if_pos, List.append_assoc, List.singleton_append,
        List.cons_append, List.nil_append] at ha ⊢
      rw [ha]
      simp only [bind, Except.bind]
      rw [writeMermaid_unsupported optional _ h]
  | .timeout _ child, c, _, h => by
    simp only [writeMermaid]
    rw [writeMermaid_unsupported child _ h]
    rfl
  | .limit _ child, c, _, h => by
    simp only [writeMermaid]
    rw [writeMermaid_unsupported child _ h]
    rfl
  | .subRepoPermsFilter child, c, _, h => by
    simp only [writeMermaid]
    rw [writeMermaid_unsupported child _ h]
    rfl
  | .other _, _, _, h => by
    simp only [Job.unsupported, Option.some.injEq] at h
    subst h
    rfl

/-- The loop over the children panics at the first job it does not know. -/
theorem writeMermaidChildren_unsupported : ∀ (js : List Job) (src : Nat) (c : Chart) {type : String},
    Job.unsupportedIn js = some type → writeMermaidChildren durationString src js c = .error (unsupportedJob type)
  | [], _, _, _, h => by simp [Job.unsupportedIn] at h
  | j :: js, src, c, _, h => by
    rw [Job.unsupportedIn] at h
    cases hj : j.unsupported with
    | some t =>
      rw [hj, Option.some_orElse, Option.some.injEq] at h
      subst h
      simp only [writeMermaidChildren]
      rw [writeMermaid_unsupported j _ hj]
      rfl
    | none =>
      rw [hj, Option.none_orElse] at h
      obtain ⟨n, s, as, ha, -⟩ := writeMermaid_ok durationString j (writeEdge c src c.id) hj
      simp only [writeMermaidChildren]
      rw [ha]
      simp only [bind, Except.bind]
      rw [writeMermaidChildren_unsupported js src _ h]
end

end Panics

/-! ## What `PrettyMermaid` draws -/

/-- The nodes reached from node `0` along edges. -/
inductive Reaches (es : List (Nat × Nat)) : Nat → Prop
  | root : Reaches es 0
  | step {a b : Nat} : Reaches es a → (a, b) ∈ es → Reaches es b

/-- When the edges go into the nodes `1` to `n - 1` and each from an earlier node, every
node below `n` is reached from node `0`. -/
theorem reaches_of_targets {es : List (Nat × Nat)} {n : Nat} (ht : (es.map Prod.snd).Perm (List.range' 1 (n - 1)))
    (hlt : ∀ e ∈ es, e.1 < e.2) : ∀ k < n, Reaches es k := by
  intro k
  induction k using Nat.strong_induction_on with
  | _ k ih =>
    intro hk
    rcases k with _ | k
    · exact .root
    have hmem : k + 1 ∈ List.range' 1 (n - 1) := List.mem_range'_1.mpr ⟨by omega, by omega⟩
    obtain ⟨e, he, hek⟩ := List.mem_map.mp (ht.mem_iff.mpr hmem)
    have hlt' := hlt e he
    exact .step (ih e.1 (by omega) (by omega)) (hek ▸ he)

section Chart

variable (durationString : Int → String)

/-- **The chart is a tree.** For every job the printers know, `PrettyMermaid` returns the text
of a chart with at least the node `0`, whose nodes are `0` to `c.id - 1`, each drawn once;
whose edges go into the nodes `1` to `c.id - 1`, one into each; where every edge goes from
a node to a later one, so that every node is reached from node `0`; and whose subgraphs,
numbered `10000` to `c.subgraphId - 1`, each opened once, nest. -/
theorem prettyMermaid_tree (j : Job) (hj : j.unsupported = none) :
    ∃ c : Chart, prettyMermaid durationString j = .ok ("flowchart TB\n" ++ String.join (c.lines.map Line.text)) ∧
      0 < c.id ∧ (nodeIds c.lines).Perm (List.range c.id) ∧
      ((edges c.lines).map Prod.snd).Perm (List.range' 1 (c.id - 1)) ∧
      (∀ e ∈ edges c.lines, e.1 < e.2) ∧ (∀ k < c.id, Reaches (edges c.lines) k) ∧
      (subgraphIds c.lines).Perm (List.range' 10000 (c.subgraphId - 10000)) ∧
      Nested c.lines := by
  obtain ⟨n, s, new, hw, hs⟩ := writeMermaid_ok durationString j ⟨[], 0, 10000⟩ hj
  dsimp only at hs
  have ht : ((edges new).map Prod.snd).Perm (List.range' 1 (n + 1 - 1)) := by simpa using hs.targets
  have hlt : ∀ e ∈ edges new, e.1 < e.2 := fun e he => (hs.sources e he).2
  refine ⟨⟨new, n + 1, 10000 + s⟩, by simp [prettyMermaid, hw, Except.map], Nat.succ_pos n, ?_, ht, hlt,
    reaches_of_targets ht hlt, ?_, hs.nested⟩
  all_goals dsimp only
  · rw [List.range_eq_range']
    exact hs.nodes
  · simpa using hs.subgraphs

/-- The tree theorem at a limited repo search. -/
theorem prettyMermaid_tree_limit : Job.unsupported (.limit 5 (.leaf "RepoSearch")) = none ∧
    ∃ c : Chart, prettyMermaid toString (.limit 5 (.leaf "RepoSearch")) =
        .ok ("flowchart TB\n" ++ String.join (c.lines.map Line.text)) ∧
      0 < c.id ∧ (nodeIds c.lines).Perm (List.range c.id) ∧
      ((edges c.lines).map Prod.snd).Perm (List.range' 1 (c.id - 1)) ∧
      (∀ e ∈ edges c.lines, e.1 < e.2) ∧ (∀ k < c.id, Reaches (edges c.lines) k) ∧
      (subgraphIds c.lines).Perm (List.range' 10000 (c.subgraphId - 10000)) ∧
      Nested c.lines :=
  ⟨rfl, prettyMermaid_tree toString _ rfl⟩

/-- **Ids collide past 10000 nodes.** For every job the printers know, a number names both a
node and a subgraph of `PrettyMermaid`'s chart exactly when the chart has more than 10000
nodes and a subgraph. -/
theorem prettyMermaid_ids_collide (j : Job) (hj : j.unsupported = none) :
    ∃ lines : List Line, prettyMermaid durationString j = .ok ("flowchart TB\n" ++ String.join (lines.map Line.text)) ∧
      ((∃ i, i ∈ nodeIds lines ∧ i ∈ subgraphIds lines) ↔ 10000 < (nodeIds lines).length ∧ subgraphIds lines ≠ []) := by
  obtain ⟨n, s, new, hw, hs⟩ := writeMermaid_ok durationString j ⟨[], 0, 10000⟩ hj
  dsimp only at hs
  have hn : (nodeIds new).Perm (List.range' 0 (n + 1)) := hs.nodes
  have hg : (subgraphIds new).Perm (List.range' 10000 s) := hs.subgraphs
  refine ⟨new, by simp [prettyMermaid, hw, Except.map], ?_⟩
  rw [hn.length_eq, List.length_range', ← List.length_pos, hg.length_eq, List.length_range']
  simp only [hn.mem_iff, hg.mem_iff, List.mem_range'_1]
  constructor
  · rintro ⟨i, hi, hi'⟩; omega
  · intro h; exact ⟨10000, by omega, by omega⟩

/-- The collision theorem at a limited repo search, whose three nodes do not reach 10000. -/
theorem prettyMermaid_ids_collide_limit : Job.unsupported (.limit 5 (.leaf "RepoSearch")) = none ∧
    ∃ lines : List Line, prettyMermaid toString (.limit 5 (.leaf "RepoSearch")) =
        .ok ("flowchart TB\n" ++ String.join (lines.map Line.text)) ∧
      ((∃ i, i ∈ nodeIds lines ∧ i ∈ subgraphIds lines) ↔
        10000 < (nodeIds lines).length ∧ subgraphIds lines ≠ []) :=
  ⟨rfl, prettyMermaid_ids_collide toString _ rfl⟩

/-- **Both printers panic alike.** On every job, `PrettyMermaid` panics exactly when
`SexpFormat` does, whatever its separator and indent, and with the same message, which names
the `SexpFormat` printer. -/
theorem prettyMermaid_error_iff (j : Job) (sep indent msg : String) :
    prettyMermaid durationString j = .error msg ↔ sexpFormat durationString j sep indent = .error msg := by
  rw [sexpFormat_eq]
  cases h : j.unsupported with
  | some type => simp [prettyMermaid, writeMermaid_unsupported durationString j _ h, Except.map]
  | none =>
    obtain ⟨n, s, new, hw, -⟩ := writeMermaid_ok durationString j ⟨[], 0, 10000⟩ h
    simp [prettyMermaid, hw, Except.map]

end Chart

end Sourcegraph.Search
