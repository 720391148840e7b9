import RegisterTables.Ascending
import RegisterTables.Observation

/-!
# Groups of observations

The observations of a list, taken apart by register. Each group keeps the order of the list, and the
groups stand in strictly ascending order of their registers. The first observation of a register
fixes the order of its fields.
-/

namespace RegisterTables

/-- All observations of one register. -/
structure RegisterGroup where
  /-- The register. -/
  register : String
  /-- The field names of the first observation, in its order. -/
  fieldOrder : List String
  /-- The observations, in the order in which they were listed. -/
  observations : List Observation
deriving DecidableEq, Repr

namespace RegisterGroup

/-- The group of an observation whose register was not met before. -/
def ofFirst (o : Observation) : RegisterGroup where
  register := o.register
  fieldOrder := o.fields.names
  observations := [o]

/-- Adds a later observation of the same register. -/
def push (g : RegisterGroup) (o : Observation) : RegisterGroup :=
  { g with observations := g.observations ++ [o] }

/-- The labels of the environments that reported the register, in strictly ascending order. -/
def environments (g : RegisterGroup) : List String :=
  Ascending.ofList (g.observations.map Observation.environment)

@[simp] theorem mem_environments {g : RegisterGroup} {label : String} :
    label ∈ g.environments ↔ ∃ o ∈ g.observations, o.environment = label := by
  simp [environments]

theorem pairwise_environments (g : RegisterGroup) : g.environments.Pairwise (· < ·) :=
  Ascending.pairwise_ofList _

/-- Adds an observation to the group of its register among groups in ascending order; a register
that was not met before gets a group of its own at its place. -/
def add (o : Observation) : List RegisterGroup → List RegisterGroup
  | [] => [ofFirst o]
  | g :: gs =>
    if o.register < g.register then ofFirst o :: g :: gs
    else if o.register = g.register then g.push o :: gs
    else g :: add o gs

end RegisterGroup

/-- The observations of a list by register, the registers in strictly ascending order. -/
def groupObservations (l : List Observation) : List RegisterGroup :=
  l.foldl (fun groups o => RegisterGroup.add o groups) []

@[simp] theorem groupObservations_nil : groupObservations [] = [] := rfl

@[simp] theorem groupObservations_concat (l : List Observation) (o : Observation) :
    groupObservations (l ++ [o]) = RegisterGroup.add o (groupObservations l) := by
  simp [groupObservations]

end RegisterTables
