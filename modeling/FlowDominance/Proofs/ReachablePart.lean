import FlowDominance.Proofs.CandidateAgreement
import FlowDominance.Proofs.PaddedSuccessors

/-!
# What an analysis depends on

Two graphs that agree on the part that can be reached from the entry are analysed alike.
Agreement is asked of the lists of successors, which are followed in order, and of the
predecessors only as sets: a predecessor that cannot be reached does not count, nor does it
matter how often and in which order the others are listed.  The two directions need not fit
together.
-/

namespace FlowDominance

open FlowGraph Semidominator

/-- On what `graph` reaches from its entry, `other` has the same lists of successors and the
same reachable predecessors. -/
structure FlowGraph.Agrees (graph other : FlowGraph) : Prop where
  nodeCount_eq : other.nodeCount = graph.nodeCount
  entry_eq : other.entry = graph.entry
  successors_eq : ∀ start node, graph.entry = some start → graph.contains node = true →
    graph.Reaches start node → other.successors node = graph.successors node
  mem_predecessors_iff : ∀ start source target, graph.entry = some start →
    graph.contains source = true → graph.Reaches start source →
      graph.contains target = true → graph.Reaches start target →
        (source ∈ graph.predecessors target ↔ source ∈ other.predecessors target)

variable {graph other : FlowGraph} {numbering : Numbering} {start node : Node}

namespace FlowGraph.Agrees

variable (agrees : graph.Agrees other)
include agrees

section

variable (designated : graph.entry = some start)
include designated

theorem pads : other.Pads graph start where
  nodeCount_eq := agrees.nodeCount_eq
  exists_extra node inside reached := by
    refine ⟨[], ?_, fun target member => absurd member List.not_mem_nil⟩
    rw [List.append_nil]
    exact agrees.successors_eq start node designated inside reached

theorem sameCandidates (depthFirst : graph.DepthFirst start numbering) :
    SameCandidates graph other numbering := by
  apply sameCandidates_of_discovered depthFirst.lawful
  intro source target sourceKnown targetKnown
  exact agrees.mem_predecessors_iff start source target designated
    (depthFirst.contains_of_rank_pos sourceKnown) ((depthFirst.rank_pos_iff source).mp sourceKnown)
    (depthFirst.contains_of_rank_pos targetKnown) ((depthFirst.rank_pos_iff target).mp targetKnown)

end

end FlowGraph.Agrees

/-- Graphs that agree on what can be reached are analysed alike: the runs note the same, and
end with the same analysis or the same fault.  So the order of predecessors, repeated,
unreachable or foreign ones among them, and whatever is said about unreachable nodes have no
effect, also where the two directions of adjacency contradict each other. -/
theorem analyse_eq_of_agrees (agrees : graph.Agrees other) (options : Options) :
    graph.analyse options = other.analyse options := by
  symm
  apply FlowGraph.analyse_eq options agrees.nodeCount_eq agrees.entry_eq
  · intro start _ designated
    exact number_of_pads (agrees.pads designated)
  · intro start numbering designated depthFirst
    exact agrees.sameCandidates designated depthFirst

/-! ### A graph that contradicts itself -/

/-- The edge from the entry to the last of the three reachable nodes is missing among its
predecessors. -/
def lopsided : FlowGraph :=
  .ofAdjacency 4 (some ⟨0⟩) #[[⟨1⟩, ⟨2⟩], [⟨2⟩], [⟨1⟩], [⟨0⟩]] #[[], [⟨0⟩, ⟨2⟩], [⟨1⟩], []]

/-- The reachable part of `lopsided` with its predecessors shuffled and others added, and
with other edges at the unreachable node. -/
def lopsidedShuffled : FlowGraph :=
  .ofAdjacency 4 (some ⟨0⟩) #[[⟨1⟩, ⟨2⟩], [⟨2⟩], [⟨1⟩], [⟨3⟩, ⟨7⟩]]
    #[[⟨3⟩], [⟨2⟩, ⟨0⟩, ⟨7⟩, ⟨2⟩], [⟨3⟩, ⟨1⟩, ⟨1⟩], [⟨2⟩]]

theorem index_lt_of_reaches_lopsided (reached : lopsided.Reaches ⟨0⟩ node) : node.index < 3 := by
  obtain ⟨nodes, path⟩ := reached
  have listed : ∀ index < 3, ∀ target ∈ lopsided.successors ⟨index⟩, target.index < 3 := by decide
  have closed (source target : Node) (first : source.index < 3)
      (edge : lopsided.Edge source target) : target.index < 3 :=
    listed source.index first target edge.2
  exact path.forall_mem_of_closed closed (by decide) node path.target_mem

theorem analyse_lopsidedShuffled :
    lopsided.analyse .strict = lopsidedShuffled.analyse .strict := by
  have successors : ∀ index < 3,
      lopsidedShuffled.successors ⟨index⟩ = lopsided.successors ⟨index⟩ := by decide
  have predecessors : ∀ source < 3, ∀ target < 3,
      (⟨source⟩ ∈ lopsided.predecessors ⟨target⟩ ↔
        ⟨source⟩ ∈ lopsidedShuffled.predecessors ⟨target⟩) := by decide
  have agrees : lopsided.Agrees lopsidedShuffled :=
    { nodeCount_eq := rfl
      entry_eq := rfl
      successors_eq := by
        rintro start node ⟨⟩ - reached
        exact successors node.index (index_lt_of_reaches_lopsided reached)
      mem_predecessors_iff := by
        rintro start source target ⟨⟩ - sourceReached - targetReached
        exact predecessors source.index (index_lt_of_reaches_lopsided sourceReached)
          target.index (index_lt_of_reaches_lopsided targetReached) }
  exact analyse_eq_of_agrees agrees .strict

end FlowDominance
