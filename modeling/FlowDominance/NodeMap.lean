import FlowDominance.Fault

/-!
# Tables with one cell for each node

A `NodeMap` holds one value for each of the nodes `n0`, …, `n(size - 1)`.  It can be
asked in two ways.  `find?` accepts every node and answers `none` for one without
a cell.  `read`, `write` and `update` are for callers that rely on the cell being
there, and report `Fault.outOfBounds` when it is not; no caller ever continues
with an invented value.

The lemmas below describe each operation by what `find?` answers afterwards.
-/

namespace FlowDominance

/-- A table with one value for each node numbered below its size. -/
structure NodeMap (α : Type) where
  /-- The values in the order of the nodes' numbers. -/
  values : Array α
  deriving DecidableEq

namespace NodeMap

variable {α : Type}

def replicate (size : Nat) (value : α) : NodeMap α :=
  ⟨Array.replicate size value⟩

/-- The table of `size` cells in which the cell of each node holds `value node`. -/
def ofFn (size : Nat) (value : Node → α) : NodeMap α :=
  ⟨Array.ofFn fun position : Fin size => value ⟨position⟩⟩

def size (table : NodeMap α) : Nat :=
  table.values.size

@[inline] def find? (table : NodeMap α) (node : Node) : Option α :=
  table.values[node.index]?

/-- The value in the cell of `node`, which must exist. -/
@[inline] def read (table : NodeMap α) (node : Node) : Except Fault α :=
  if bound : node.index < table.values.size then
    .ok table.values[node.index]
  else
    .error (.outOfBounds table.values.size node.index)

/-- The table after the cell of `node`, which must exist, receives `value`. -/
def write (table : NodeMap α) (node : Node) (value : α) : Except Fault (NodeMap α) :=
  if bound : node.index < table.values.size then
    .ok ⟨table.values.set node.index value⟩
  else
    .error (.outOfBounds table.values.size node.index)

/-- The table after the value in the cell of `node`, which must exist, is replaced
by its image under `change`. -/
def update (table : NodeMap α) (node : Node) (change : α → α) :
    Except Fault (NodeMap α) :=
  if node.index < table.values.size then
    .ok ⟨table.values.modify node.index change⟩
  else
    .error (.outOfBounds table.values.size node.index)

/-- The number of cells whose value satisfies `test`. -/
def countWhere (table : NodeMap α) (test : α → Bool) : Nat :=
  table.values.countP test

@[simp] theorem size_replicate (size : Nat) (value : α) :
    (replicate size value).size = size := by
  simp [replicate, NodeMap.size]

@[simp] theorem size_ofFn (size : Nat) (value : Node → α) :
    (ofFn size value).size = size := by
  simp [ofFn, NodeMap.size]

theorem ext_find? {table other : NodeMap α} (same : ∀ node, table.find? node = other.find? node) :
    table = other := by
  obtain ⟨values⟩ := table
  obtain ⟨otherValues⟩ := other
  congr 1
  apply Array.ext_getElem?
  intro index
  exact same ⟨index⟩

theorem find?_eq_none_iff {table : NodeMap α} {node : Node} :
    table.find? node = none ↔ table.size ≤ node.index := by
  simp [find?, size]

theorem find?_isSome_iff {table : NodeMap α} {node : Node} :
    (table.find? node).isSome ↔ node.index < table.size := by
  simp [find?, size]

theorem exists_find?_of_lt {table : NodeMap α} {node : Node} (inside : node.index < table.size) :
    ∃ value, table.find? node = some value :=
  Option.isSome_iff_exists.mp (find?_isSome_iff.mpr inside)

theorem lt_size_of_join_find? {table : NodeMap (Option α)} {node : Node} {value : α}
    (held : (table.find? node).join = some value) : node.index < table.size := by
  rcases Nat.lt_or_ge node.index table.size with inside | outside
  · exact inside
  · rw [find?_eq_none_iff.mpr outside] at held
    cases held

theorem find?_replicate (size : Nat) (value : α) (node : Node) :
    (replicate size value).find? node = if node.index < size then some value else none := by
  simp [find?, replicate, Array.getElem?_replicate]

theorem find?_ofFn (size : Nat) (value : Node → α) (node : Node) :
    (ofFn size value).find? node = if node.index < size then some (value node) else none := by
  simp [find?, ofFn, Array.getElem?_ofFn]

/-- Reading succeeds exactly on the nodes that have a cell, with its value. -/
theorem read_eq_ok_iff {table : NodeMap α} {node : Node} {value : α} :
    table.read node = .ok value ↔ table.find? node = some value := by
  unfold read find?
  split
  · next bound => simp [Array.getElem?_eq_getElem bound]
  · next bound => simp [Array.getElem?_eq_none (Nat.le_of_not_lt bound)]

theorem read_of_size_le {table : NodeMap α} {node : Node} (outside : table.size ≤ node.index) :
    table.read node = .error (.outOfBounds table.size node.index) :=
  dif_neg (Nat.not_lt.mpr outside)

theorem write_of_size_le {table : NodeMap α} {node : Node} (value : α)
    (outside : table.size ≤ node.index) :
    table.write node value = .error (.outOfBounds table.size node.index) :=
  dif_neg (Nat.not_lt.mpr outside)

theorem exists_write_of_lt {table : NodeMap α} {node : Node} (value : α)
    (inside : node.index < table.size) : ∃ written, table.write node value = .ok written :=
  ⟨_, dif_pos inside⟩

theorem lt_size_of_write {table written : NodeMap α} {node : Node} {value : α}
    (success : table.write node value = .ok written) : node.index < table.size := by
  rcases Nat.lt_or_ge node.index table.size with inside | outside
  · exact inside
  · rw [write_of_size_le value outside] at success
    cases success

theorem size_of_write {table written : NodeMap α} {node : Node} {value : α}
    (success : table.write node value = .ok written) : written.size = table.size := by
  unfold write at success
  split at success
  · cases success
    simp [size]
  · cases success

/-- After a write the written cell holds the new value and no other cell has changed. -/
theorem find?_of_write {table written : NodeMap α} {node : Node} {value : α}
    (success : table.write node value = .ok written) (other : Node) :
    written.find? other = if other = node then some value else table.find? other := by
  unfold write at success
  split at success
  · cases success
    by_cases same : other = node
    · subst same
      simp [find?]
    · have apart : node.index ≠ other.index := fun equal =>
        same (by cases other; cases node; simp_all)
      simp [find?, apart, same]
  · cases success

theorem countWhere_lt_of_write {table written : NodeMap α} {node : Node} {old value : α}
    {test : α → Bool} (success : table.write node value = .ok written)
    (before : table.find? node = some old) (satisfied : test old = true)
    (failed : test value = false) : written.countWhere test < table.countWhere test := by
  unfold write at success
  split at success
  · next bound =>
      cases success
      have cell : table.values[node.index] = old := by
        simpa [find?, Array.getElem?_eq_getElem bound] using before
      have positive : 0 < table.values.countP test :=
        Array.countP_pos_iff.mpr ⟨old, cell ▸ Array.getElem_mem bound, satisfied⟩
      simp only [countWhere, Array.countP_set, cell, satisfied, failed, if_true,
        Bool.false_eq_true, if_false]
      omega
  · cases success

theorem exists_update_of_lt {table : NodeMap α} {node : Node} (change : α → α)
    (inside : node.index < table.size) : ∃ updated, table.update node change = .ok updated :=
  ⟨_, if_pos inside⟩

theorem size_of_update {table updated : NodeMap α} {node : Node} {change : α → α}
    (success : table.update node change = .ok updated) : updated.size = table.size := by
  unfold update at success
  split at success
  · cases success
    simp [size]
  · cases success

/-- After an update the cell of the node holds the image of its value and no other
cell has changed. -/
theorem find?_of_update {table updated : NodeMap α} {node : Node} {change : α → α}
    (success : table.update node change = .ok updated) (other : Node) :
    updated.find? other =
      if other = node then (table.find? other).map change else table.find? other := by
  unfold update at success
  split at success
  · cases success
    by_cases same : other = node
    · subst same
      simp [find?, Array.getElem?_modify]
    · have apart : node.index ≠ other.index := fun equal =>
        same (by cases other; cases node; simp_all)
      simp [find?, Array.getElem?_modify, apart, same]
  · cases success

end NodeMap

end FlowDominance
