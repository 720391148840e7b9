import RegisterTables.RegisterGroup

/-!
# The index of environments

The distinct environment labels of a list of observations, in strictly ascending order. The order is
part of the type, so a label can be looked up by halving the range in which it may stand.
-/

namespace RegisterTables

/-- Distinct environment labels in strictly ascending order. -/
structure EnvironmentIndex where
  /-- The labels. -/
  labels : Array String
  /-- Each label is below all later ones. -/
  ascending : labels.toList.Pairwise (· < ·)

namespace EnvironmentIndex

/-- The labels that occur in a list of observations. -/
def ofObservations (l : List Observation) : EnvironmentIndex where
  labels := (Ascending.ofList (l.map Observation.environment)).toArray
  ascending := Ascending.pairwise_ofList _

/-- The number of labels. -/
def size (index : EnvironmentIndex) : Nat :=
  index.labels.size

/-- Whether there is no label. -/
def isEmpty (index : EnvironmentIndex) : Bool :=
  index.labels.isEmpty

/-- The position of a label, if it is in the index. -/
def position? (index : EnvironmentIndex) (label : String) : Option Nat :=
  search 0 index.labels.size (Nat.le_refl _)
where
  /-- Looks for the label at the positions from `lo` up to, and without, `hi`. -/
  search (lo hi : Nat) (h : hi ≤ index.labels.size) : Option Nat :=
    if _ : lo < hi then
      let mid := (lo + hi) / 2
      have _ : mid < hi := by omega
      let found := index.labels[mid]
      if label < found then search lo mid (by omega)
      else if label = found then some mid
      else search (mid + 1) hi h
    else none
  termination_by hi - lo

/-- The labels of the index that belong to environments of the group, in the order of the index. -/
def restrict (index : EnvironmentIndex) (g : RegisterGroup) : List String :=
  index.labels.toList.filter (· ∈ g.environments)

variable {l : List Observation} {label : String}

@[simp] theorem mem_labels_ofObservations :
    label ∈ (ofObservations l).labels.toList ↔ ∃ o ∈ l, o.environment = label := by
  simp [ofObservations]

@[simp] theorem mem_restrict {index : EnvironmentIndex} {g : RegisterGroup} :
    label ∈ index.restrict g ↔ label ∈ index.labels.toList ∧ label ∈ g.environments := by
  simp [restrict]

theorem pairwise_restrict (index : EnvironmentIndex) (g : RegisterGroup) :
    (index.restrict g).Pairwise (· < ·) :=
  index.ascending.filter _

end EnvironmentIndex

end RegisterTables
