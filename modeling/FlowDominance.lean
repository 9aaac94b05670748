import FlowDominance.Analysis
import FlowDominance.BlockGraph
import FlowDominance.BlockGraph.History
import FlowDominance.DominatorTree
import FlowDominance.Fault
import FlowDominance.FlowGraph
import FlowDominance.FlowGraph.Path
import FlowDominance.ImmediateDominator
import FlowDominance.Node
import FlowDominance.NodeMap
import FlowDominance.Numbering
import FlowDominance.Numbering.Ancestry
import FlowDominance.Numbering.Check
import FlowDominance.Numbering.Discovery
import FlowDominance.Numbering.Recursion
import FlowDominance.Options
import FlowDominance.Semidominator
import FlowDominance.Semidominator.Candidate
import FlowDominance.StampSet
import FlowDominance.Trace
import FlowDominance.Proofs.LawfulNumbering
import FlowDominance.Proofs.TreeOrder
import FlowDominance.Proofs.DepthFirstSearch
import FlowDominance.Proofs.NumberingLaws
import FlowDominance.Proofs.CandidateSearch
import FlowDominance.Proofs.LoopInvariant
import FlowDominance.Proofs.SemidominatorTable
import FlowDominance.Proofs.RelativeDominatorTable
import FlowDominance.Proofs.ClosestDominator
import FlowDominance.Proofs.ImmediateDominatorTable
import FlowDominance.Proofs.DerivedAnalysis
import FlowDominance.Proofs.DominatorWalk
import FlowDominance.Proofs.PassingChecks
import FlowDominance.Proofs.AnalysisVerdict
import FlowDominance.Proofs.EdgeRecords
import FlowDominance.Proofs.DominanceQueries
import FlowDominance.Proofs.FaultClassification
import FlowDominance.Proofs.OptionalChecks
import FlowDominance.Proofs.RecursiveDiscovery
import FlowDominance.Proofs.PaddedSuccessors
import FlowDominance.Proofs.CandidateAgreement
import FlowDominance.Proofs.ReachablePart
import FlowDominance.Proofs.RedundantEdges
import FlowDominance.Proofs.GroupedLists
import FlowDominance.Proofs.ChildLists
import FlowDominance.Proofs.RootedTree
import FlowDominance.Proofs.Renaming
import FlowDominance.Proofs.RenamedAnalysis
import FlowDominance.Proofs.GrowthHistory
import FlowDominance.Proofs.RebuiltGraph
import FlowDominance.Proofs.BackwardSearch
import FlowDominance.Proofs.BoundedAnswers
import FlowDominance.Proofs.DominatorPosition
import FlowDominance.Proofs.CommonDominators
import FlowDominance.Proofs.TieBreaking
import FlowDominance.Proofs.UpwardSearch
import FlowDominance.Node.Link
import FlowDominance.Proofs.LinkWalks
import FlowDominance.Proofs.InheritedDominators
import FlowDominance.Proofs.WalkLimits
import FlowDominance.Proofs.CheckedNumbering
import FlowDominance.Proofs.SearchSteps
import FlowDominance.Proofs.TablesInStep
import FlowDominance.Proofs.IndependentSearches
import FlowDominance.Proofs.RunRecords
