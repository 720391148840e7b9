import RegisterTables.Proofs.ByteOrder
import RegisterTables.Proofs.Grouping
import Mathlib.Algebra.GroupWithZero.Nat

/-!
# Groups take a list apart

Each observation of a list goes to one group, that of its register, and in each group the
observations stand as they stood in the list. `IsPartitionOf` says so of any list of groups, by the
flat list alone, and `isPartitionOf_iff_eq` says that the groups of a list are the only ones of that
description. Nothing is asked of the observations: labels and names may be empty, and registers may
be interleaved in any way.

A group is kept under its register, and since the registers ascend, none has two groups. The group
of a register is settled by the description (`RegisterGroup.IsGroupOf.eq_ofRegister`), and so are
the registers that have one. How many observations there are in all groups is an invariant of adding
one: the sum of the sizes grows by one wherever the observation goes (`sum_length_add`).
-/

namespace RegisterTables

/-! ### Positions -/

/-- The positions at which a list has observations of the register, in ascending order. -/
def positionsOf (l : List Observation) (register : String) : List ℕ :=
  (List.range l.length).filter fun i => l[i]?.map Observation.register = some register

variable {l : List Observation} {register : String}

theorem mem_positionsOf {i : ℕ} :
    i ∈ positionsOf l register ↔ ∃ o, l[i]? = some o ∧ o.register = register := by
  unfold positionsOf
  rw [List.mem_filter, decide_eq_true_iff, Option.map_eq_some_iff, List.mem_range]
  constructor
  · rintro ⟨-, h⟩
    exact h
  · rintro ⟨o, ho, hregister⟩
    obtain ⟨hi, -⟩ := List.getElem?_eq_some_iff.1 ho
    exact ⟨hi, o, ho, hregister⟩

/-- The observations of a register are those at its positions. -/
theorem filter_register_eq (l : List Observation) (register : String) :
    (l.filter (·.register = register)).map some = (positionsOf l register).map (l[·]?) := by
  induction l using List.reverseRecOn with
  | nil => rfl
  | append_singleton l o ih =>
    have hlast : (l ++ [o])[l.length]? = some o := List.getElem?_concat_length
    -- Up to the last one, positions lead to the same observations as before.
    have hbefore : ∀ i ∈ List.range l.length, (l ++ [o])[i]? = l[i]? := by
      intro i hi
      exact List.getElem?_append_left (List.mem_range.1 hi)
    have hfilter : (List.range l.length).filter
          (fun i => (l ++ [o])[i]?.map Observation.register = some register)
        = positionsOf l register := by
      apply List.filter_congr
      intro i hi
      rw [hbefore i hi]
    have hpositions : positionsOf (l ++ [o]) register
        = positionsOf l register ++ if o.register = register then [l.length] else [] := by
      unfold positionsOf
      rw [List.length_append, List.length_singleton, List.range_succ, List.filter_append, hfilter]
      by_cases h : o.register = register <;> simp [positionsOf, h]
    have hsame : (positionsOf l register).map ((l ++ [o])[·]?)
        = (positionsOf l register).map (l[·]?) := by
      apply List.map_congr_left
      intro i hi
      exact hbefore i (List.mem_of_mem_filter hi)
    rw [List.filter_append, List.map_append, ih, hpositions, List.map_append, hsame]
    by_cases h : o.register = register <;> simp [h]

/-! ### Partitions -/

/-- The group has what the list says of its register. -/
structure RegisterGroup.IsGroupOf (g : RegisterGroup) (l : List Observation) : Prop where
  /-- It has a first observation, so there is something to compare the later ones with. The fields
  of the first one, repeats included, make the order of the fields. -/
  exists_first : ∃ first later,
    g.observations = first :: later ∧ g.fieldOrder = first.fields.names
  /-- It has all observations of the register, and no others, in the order of the list. -/
  observations_eq : g.observations = l.filter (·.register = g.register)
  /-- It has one for each position of the register. -/
  at_positions : g.observations.map some = (positionsOf l g.register).map (l[·]?)

/-- The groups take the list apart by register. -/
structure IsPartitionOf (groups : List RegisterGroup) (l : List Observation) : Prop where
  /-- The registers ascend, so none has two groups. -/
  registers_ascending : (groups.map RegisterGroup.register).Pairwise
    fun a b => Text.bytes a < Text.bytes b
  /-- There is a group for each register that occurs, and for no other. -/
  mem_registers : ∀ register, register ∈ groups.map RegisterGroup.register ↔
    ∃ o ∈ l, o.register = register
  /-- Each group is that of its register. -/
  isGroupOf : ∀ g ∈ groups, g.IsGroupOf l
  /-- Each position belongs to one group. -/
  existsUnique : ∀ i < l.length, ∃! g, g ∈ groups ∧ i ∈ positionsOf l g.register
  /-- The sizes of the groups add up to that of the list. -/
  sum_length : (groups.map (·.observations.length)).sum = l.length

/-! ### The description fixes the groups -/

/-- A group is settled by its register. -/
theorem RegisterGroup.IsGroupOf.eq_ofRegister {g : RegisterGroup} (h : g.IsGroupOf l) :
    g = ofRegister l g.register := by
  obtain ⟨first, later, hcons, hfields⟩ := h.exists_first
  have hfirst : l.find? (·.register = g.register) = some first := by
    rw [← List.head?_filter, ← h.observations_eq, hcons, List.head?_cons]
  have hobservations := h.observations_eq
  cases g with
  | mk register fieldOrder observations =>
    show _ = RegisterGroup.mk _ _ _
    rw [hfirst, Option.map_some, Option.getD_some, ← hfields, ← hobservations]

/-- Groups that take a list apart are those of the registers that occur. -/
theorem IsPartitionOf.eq_groupObservations {groups : List RegisterGroup}
    (h : IsPartitionOf groups l) : groups = groupObservations l := by
  have hregisters : groups.map RegisterGroup.register
      = Ascending.ofList (l.map Observation.register) := by
    have hascending := h.registers_ascending.imp Text.bytes_lt_iff.1
    apply hascending.eq_of_mem_iff (Ascending.pairwise_ofList _)
    intro register
    rw [h.mem_registers, Ascending.mem_ofList, List.mem_map]
  calc groups
      = groups.map fun g => RegisterGroup.ofRegister l g.register := by
        conv_lhs => rw [← List.map_id groups]
        exact List.map_congr_left fun g hg => (h.isGroupOf g hg).eq_ofRegister
    _ = (groups.map RegisterGroup.register).map (RegisterGroup.ofRegister l) := by
        rw [List.map_map]
        rfl
    _ = groupObservations l := by rw [hregisters, groupObservations_eq]

/-! ### The groups meet the description -/

/-- One observation more makes the groups larger by one, whichever of them it goes to. -/
theorem RegisterGroup.sum_length_add (o : Observation) (groups : List RegisterGroup) :
    ((add o groups).map (·.observations.length)).sum
      = (groups.map (·.observations.length)).sum + 1 := by
  induction groups with
  | nil => rfl
  | cons g groups ih =>
    unfold add
    split_ifs
    · -- It gets a group of its own in front of the others.
      simp only [List.map_cons, List.sum_cons, ofFirst, List.length_singleton]
      omega
    · simp only [List.map_cons, List.sum_cons, push, List.length_append, List.length_singleton]
      omega
    · simp only [List.map_cons, List.sum_cons, ih]
      omega

/-- The sizes of the groups add up to that of the list. -/
theorem sum_length_groupObservations (l : List Observation) :
    ((groupObservations l).map (·.observations.length)).sum = l.length := by
  induction l using List.reverseRecOn with
  | nil => rfl
  | append_singleton l o ih =>
    rw [groupObservations_concat, RegisterGroup.sum_length_add, ih, List.length_append,
      List.length_singleton]

/-- Each group is that of its register. -/
theorem isGroupOf_of_mem_groupObservations {g : RegisterGroup} (h : g ∈ groupObservations l) :
    g.IsGroupOf l := by
  obtain ⟨hoccurs, hofRegister⟩ := exists_of_mem_groupObservations h
  have hobservations : g.observations = l.filter (·.register = g.register) := by
    conv_lhs => rw [hofRegister]
    rfl
  constructor
  · rw [hofRegister]
    exact RegisterGroup.exists_cons_ofRegister hoccurs
  · exact hobservations
  · rw [hobservations, filter_register_eq]

/-- A position belongs to the group of the register that is observed there. -/
theorem existsUnique_of_lt_length {i : ℕ} (hi : i < l.length) :
    ∃! g, g ∈ groupObservations l ∧ i ∈ positionsOf l g.register := by
  have hat : l[i]? = some l[i] := List.getElem?_eq_getElem hi
  refine ⟨.ofRegister l l[i].register, ⟨?_, ?_⟩, ?_⟩
  · rw [groupObservations_eq]
    apply List.mem_map_of_mem
    rw [Ascending.mem_ofList]
    exact List.mem_map_of_mem (List.getElem_mem hi)
  · exact mem_positionsOf.2 ⟨l[i], hat, rfl⟩
  · rintro g ⟨hg, hposition⟩
    obtain ⟨o, ho, hregister⟩ := mem_positionsOf.1 hposition
    obtain rfl : l[i] = o := Option.some.inj (hat.symm.trans ho)
    rw [hregister]
    exact (exists_of_mem_groupObservations hg).2

/-- **Grouping takes a list apart.** The groups of a list are the one list of groups that ascends by
register, has the observations of each register in the order of the list, and has every position in
one group. -/
theorem isPartitionOf_iff_eq (groups : List RegisterGroup) (l : List Observation) :
    IsPartitionOf groups l ↔ groups = groupObservations l := by
  constructor
  · intro h
    exact h.eq_groupObservations
  · rintro rfl
    constructor
    · rw [map_register_groupObservations]
      exact (Ascending.pairwise_ofList _).imp Text.bytes_lt_iff.2
    · intro register
      rw [map_register_groupObservations, Ascending.mem_ofList, List.mem_map]
    · intro g hg
      exact isGroupOf_of_mem_groupObservations hg
    · intro i hi
      exact existsUnique_of_lt_length hi
    · exact sum_length_groupObservations l

end RegisterTables
