/-!
# Observations

An observation is what one environment reported of one register: its fields in the order in which
they were written, each with its value as text. The order of the fields drives the order of the
rows in the table of a register, so it is part of the data, and a name may occur more than once.
-/

namespace RegisterTables

/-- Named values, in the order in which they were written. -/
@[ext] structure Fields where
  /-- The names with their values; a name may occur more than once. -/
  entries : List (String × String) := []
deriving DecidableEq, Repr

/-- What one environment reported of one register. -/
@[ext] structure Observation where
  /-- The label of the environment. -/
  environment : String
  /-- The name of the register. -/
  register : String
  /-- The fields of the register; its own name is not among them. -/
  fields : Fields
deriving DecidableEq, Repr

namespace Fields

/-- The value of the first entry of that name. -/
def get? (f : Fields) (name : String) : Option String :=
  f.entries.lookup name

/-- The names in their order, repeated ones as often as they occur. -/
def names (f : Fields) : List String :=
  f.entries.map Prod.fst

/-- Whether an entry has that name. -/
def contains (f : Fields) (name : String) : Bool :=
  (f.get? name).isSome

/-- Adds an entry at the end. -/
def push (f : Fields) (name value : String) : Fields :=
  ⟨f.entries ++ [(name, value)]⟩

/-- The number of entries. -/
def size (f : Fields) : Nat :=
  f.entries.length

/-- Whether there is no entry. -/
def isEmpty (f : Fields) : Bool :=
  f.entries.isEmpty

variable {f : Fields} {m n v : String}

@[simp] theorem names_push : (f.push n v).names = f.names ++ [n] := by
  simp [names, push]

@[simp] theorem size_push : (f.push n v).size = f.size + 1 := by
  simp [size, push]

theorem contains_iff_mem_names : f.contains n = true ↔ n ∈ f.names := by
  simp [contains, get?, names]

/-- A new entry is found only where no earlier one has its name. -/
theorem get?_push : (f.push n v).get? m = (f.get? m).or (if m = n then some v else none) := by
  simp only [get?, push, List.lookup_append]
  by_cases h : m = n
  · simp [h]
  · have hb : (m == n) = false := by simpa using h
    simp [List.lookup_cons, h, hb]

end Fields

end RegisterTables
