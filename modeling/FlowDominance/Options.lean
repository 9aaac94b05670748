/-!
# Options of an analysis

The search for semidominators takes time in the order of nodes times edges, so by
default large graphs are refused.  Two checks can be asked for on top, one of the
depth-first numbering and one of the finished dominator tree; a check that finds
an inconsistency makes the analysis fail.
-/

namespace FlowDominance

/-- How an analysis is to be run. -/
structure Options where
  /-- The largest number of nodes a graph may have; zero means that there is no limit. -/
  nodeLimit : Nat
  checksNumbering : Bool
  checksTree : Bool
  deriving DecidableEq

namespace Options

def usualNodeLimit : Nat := 65536

def standard : Options where
  nodeLimit := usualNodeLimit
  checksNumbering := false
  checksTree := false

def strict : Options where
  nodeLimit := usualNodeLimit
  checksNumbering := true
  checksTree := true

def unchecked : Options where
  nodeLimit := 0
  checksNumbering := false
  checksTree := false

def refuses (options : Options) (nodeCount : Nat) : Bool :=
  options.nodeLimit ≠ 0 && options.nodeLimit < nodeCount

theorem refuses_iff {options : Options} {nodeCount : Nat} :
    options.refuses nodeCount = true ↔
      options.nodeLimit ≠ 0 ∧ options.nodeLimit < nodeCount := by
  simp [refuses]

end Options

end FlowDominance
