import RegisterTables.Proofs.ByteOrder
import RegisterTables.Proofs.Grouping

/-!
# The index of environments is a sorted set

`EnvironmentIndex.isIndexOf_ofObservations` says what an index of a list is good for. It has the
labels of the list in ascending order, a label is found exactly at the position where it stands, and
what a group leaves of the index keeps the order of the index.

A label is looked up by halving the range of positions in which it may stand. As the labels ascend,
the half that is given up holds only labels below, or only labels above, the one that is looked for,
so no step loses it (`position?.search_eq_some_iff`). This needs no more than the order that is part
of the type: it holds of every index, also of one without labels.
-/

namespace RegisterTables.EnvironmentIndex

variable {index : EnvironmentIndex} {label : String}

/-! ### The search -/

/-- Labels ascend with their positions. -/
theorem labels_lt_labels (index : EnvironmentIndex) {i j : ℕ} (hij : i < j)
    (hj : j < index.labels.size) : index.labels[i] < index.labels[j] := by
  have hpairwise := List.pairwise_iff_getElem.1 index.ascending
  exact hpairwise i j (by rw [Array.length_toList]; omega) hj hij

/-- A position with a larger label is a later one. -/
theorem lt_of_labels_lt (index : EnvironmentIndex) {i j : ℕ} (hi : i < index.labels.size)
    (hj : j < index.labels.size) (h : index.labels[i] < index.labels[j]) : i < j := by
  by_contra hij
  rcases Nat.lt_or_eq_of_le (not_lt.1 hij) with hji | rfl
  · exact lt_asymm h (index.labels_lt_labels hji hi)
  · exact lt_irrefl _ h

/-- The search finds a label where it stands, if that is in the range of positions looked at. -/
theorem position?.search_eq_some_iff (lo hi : ℕ) (h : hi ≤ index.labels.size) (i : ℕ) :
    position?.search index label lo hi h = some i ↔
      lo ≤ i ∧ i < hi ∧ index.labels[i]? = some label := by
  fun_induction position?.search index label lo hi h with
  | case1 lo hi hle hlt mid hmid found hbelow ih =>
    -- All labels from the middle on are above the one looked for.
    rw [ih]
    constructor
    · rintro ⟨hlo, hi', hat⟩
      exact ⟨hlo, by omega, hat⟩
    · rintro ⟨hlo, hi', hat⟩
      obtain ⟨hsize, rfl⟩ := Array.getElem?_eq_some_iff.1 hat
      have himid : i < mid := index.lt_of_labels_lt hsize (by omega) hbelow
      exact ⟨hlo, himid, hat⟩
  | case2 lo hi hle hlt mid hmid found hbelow heq =>
    have hlomid : lo ≤ mid := by
      show lo ≤ (lo + hi) / 2
      omega
    constructor
    · intro hsome
      obtain rfl : mid = i := Option.some.inj hsome
      refine ⟨hlomid, hmid, ?_⟩
      rw [Array.getElem?_eq_getElem (by omega), heq]
    · rintro ⟨-, hi', hat⟩
      obtain ⟨hsize, hlabel⟩ := Array.getElem?_eq_some_iff.1 hat
      have hsame : index.labels[i] = index.labels[mid] := hlabel.trans heq
      rcases lt_trichotomy i mid with hlt' | rfl | hgt
      · exact absurd hsame (ne_of_lt (index.labels_lt_labels hlt' (by omega)))
      · rfl
      · exact absurd hsame (ne_of_gt (index.labels_lt_labels hgt hsize))
  | case3 lo hi hle hlt mid hmid found hbelow hne ih =>
    -- All labels up to the middle are below the one looked for.
    have habove : found < label := lt_of_le_of_ne (not_lt.1 hbelow) (Ne.symm hne)
    have hlomid : lo ≤ mid := by
      show lo ≤ (lo + hi) / 2
      omega
    rw [ih]
    constructor
    · rintro ⟨hlo, hi', hat⟩
      exact ⟨by omega, hi', hat⟩
    · rintro ⟨hlo, hi', hat⟩
      obtain ⟨hsize, rfl⟩ := Array.getElem?_eq_some_iff.1 hat
      have hmidi : mid < i := index.lt_of_labels_lt (by omega) hsize habove
      exact ⟨hmidi, hi', hat⟩
  | case4 lo hi hle hlt =>
    constructor
    · intro hsome
      cases hsome
    · rintro ⟨hlo, hi', -⟩
      omega

/-- A label has the position at which it stands. -/
theorem position?_eq_some_iff {i : ℕ} :
    index.position? label = some i ↔ index.labels[i]? = some label := by
  unfold position?
  rw [position?.search_eq_some_iff]
  constructor
  · rintro ⟨-, -, hat⟩
    exact hat
  · intro hat
    obtain ⟨hsize, -⟩ := Array.getElem?_eq_some_iff.1 hat
    exact ⟨Nat.zero_le i, hsize, hat⟩

/-- Only a label that is not in the index has no position. -/
theorem position?_eq_none_iff : index.position? label = none ↔ label ∉ index.labels.toList := by
  rw [Option.eq_none_iff_forall_ne_some, List.mem_iff_getElem?]
  simp only [ne_eq, position?_eq_some_iff, Array.getElem?_toList, not_exists]

/-- Ascending labels of the index have ascending positions. -/
theorem exists_positions {labels : List String} (hascending : labels.Pairwise (· < ·))
    (hmem : ∀ label ∈ labels, label ∈ index.labels.toList) :
    ∃ positions : List ℕ,
      labels.map index.position? = positions.map some ∧ positions.Pairwise (· < ·) := by
  have hfound : ∀ label ∈ labels, ∃ i, index.position? label = some i := by
    intro label hlabel
    rw [← Option.isSome_iff_exists, Option.isSome_iff_ne_none, ne_eq, position?_eq_none_iff, not_not]
    exact hmem label hlabel
  refine ⟨labels.map fun label => (index.position? label).getD 0, ?_, ?_⟩
  · rw [List.map_map]
    apply List.map_congr_left
    intro label hlabel
    obtain ⟨i, hi⟩ := hfound label hlabel
    rw [Function.comp_apply, hi, Option.getD_some]
  · rw [List.pairwise_map]
    apply hascending.imp_of_mem
    intro a b ha hb hab
    obtain ⟨i, hi⟩ := hfound a ha
    obtain ⟨j, hj⟩ := hfound b hb
    obtain ⟨hisize, rfl⟩ := Array.getElem?_eq_some_iff.1 (position?_eq_some_iff.1 hi)
    obtain ⟨hjsize, rfl⟩ := Array.getElem?_eq_some_iff.1 (position?_eq_some_iff.1 hj)
    rw [hi, hj, Option.getD_some, Option.getD_some]
    exact index.lt_of_labels_lt hisize hjsize hab

/-! ### The index of a list -/

/-- The labels are what the group leaves of the index. -/
structure IsRestriction (labels : List String) (index : EnvironmentIndex) (g : RegisterGroup) :
    Prop where
  /-- They ascend strictly. -/
  ascending : labels.Pairwise fun a b => Text.bytes a < Text.bytes b
  /-- They are in the index and are labels of observations of the group. -/
  mem_iff : ∀ label, label ∈ labels ↔
    label ∈ index.labels.toList ∧ ∃ o ∈ g.observations, o.environment = label
  /-- Each has a position in the index, and the positions ascend. -/
  positions : ∃ positions : List ℕ,
    labels.map index.position? = positions.map some ∧ positions.Pairwise (· < ·)

/-- The index is a sorted set of the labels of the list, in which they can be looked up. -/
structure IsIndexOf (index : EnvironmentIndex) (l : List Observation) : Prop where
  /-- The labels ascend strictly. -/
  labels_ascending : index.labels.toList.Pairwise fun a b => Text.bytes a < Text.bytes b
  /-- They are the labels of the observations. -/
  mem_labels : ∀ label, label ∈ index.labels.toList ↔ ∃ o ∈ l, o.environment = label
  /-- A label has the position at which it stands. -/
  position_some : ∀ label i, index.position? label = some i ↔ index.labels[i]? = some label
  /-- Only a label that no observation has is without a position. -/
  position_none : ∀ label, index.position? label = none ↔ ∀ o ∈ l, o.environment ≠ label
  /-- Any group leaves of the index what it has in common with it. -/
  restrict_any : ∀ g, IsRestriction (index.restrict g) index g
  /-- A group of the list leaves all of its own environments, none of them lost. -/
  restrict_own : ∀ g ∈ groupObservations l, index.restrict g = g.environments ∧
    ∀ o ∈ g.observations, o.environment ∈ index.restrict g

/-- What a group leaves of an index are the labels that they share. -/
theorem isRestriction_restrict (index : EnvironmentIndex) (g : RegisterGroup) :
    IsRestriction (index.restrict g) index g := by
  constructor
  · exact (index.pairwise_restrict g).imp Text.bytes_lt_iff.2
  · intro label
    rw [mem_restrict, RegisterGroup.mem_environments]
  · apply exists_positions (index.pairwise_restrict g)
    intro label hlabel
    exact (mem_restrict.1 hlabel).1

/-- **The index of a list** is the sorted set of its labels. Looking up a label gives its position,
if it has one, and the labels that a group leaves keep their order. -/
theorem isIndexOf_ofObservations (l : List Observation) : (ofObservations l).IsIndexOf l := by
  have hmem (label : String) :
      label ∈ (ofObservations l).labels.toList ↔ ∃ o ∈ l, o.environment = label :=
    mem_labels_ofObservations
  constructor
  · exact (ofObservations l).ascending.imp Text.bytes_lt_iff.2
  · exact hmem
  · intro label i
    exact position?_eq_some_iff
  · intro label
    rw [position?_eq_none_iff, hmem]
    simp only [not_exists, not_and, ne_eq]
  · intro g
    exact isRestriction_restrict _ g
  · intro g hg
    have hown : (ofObservations l).restrict g = g.environments := by
      apply restrict_ofObservations
      intro o ho
      rw [(exists_of_mem_groupObservations hg).2] at ho
      exact (RegisterGroup.mem_observations_ofRegister.1 ho).1
    refine ⟨hown, ?_⟩
    intro o ho
    rw [hown, RegisterGroup.mem_environments]
    exact ⟨o, ho, rfl⟩

end RegisterTables.EnvironmentIndex
