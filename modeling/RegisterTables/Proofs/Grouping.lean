import RegisterTables.Report.Build
import Mathlib.Data.List.Induction
import Mathlib.Data.List.Sort
import Mathlib.Data.String.Basic

/-!
# Groups as functions of the flat list

A strictly ascending list is determined by its members. The groups of a list of observations are
therefore settled by two facts: which registers occur, and which observations are of a register.
`groupObservations_eq` says so in one equation: the groups are those of the occurring registers, in
ascending order, and the group of a register is read off the list by `RegisterGroup.ofRegister`.

The equation is the invariant of the fold: adding an observation at the end of the list changes
the group of its register and no other one, and puts a register that is new at its place.

In the same way the columns of a table, taken out of the index of all environments, are the
environments of its group (`EnvironmentIndex.restrict_ofObservations`).
-/

namespace RegisterTables

/-! ### Strictly ascending lists -/

/-- Putting a name into a set comes to the same as listing it last. -/
theorem Ascending.insert_ofList (s : String) (l : List String) :
    insert s (ofList l) = ofList (l ++ [s]) := by
  have hleft := pairwise_insert (s := s) (pairwise_ofList l)
  have hright := pairwise_ofList (l ++ [s])
  refine hleft.eq_of_mem_iff hright ?_
  intro t
  rw [mem_insert, mem_ofList, mem_ofList, List.mem_append, List.mem_singleton, or_comm]

/-- A name goes between those below and those above it, whether it was there before or not. -/
theorem Ascending.exists_insert_eq (s : String) {l : List String} (h : l.Pairwise (· < ·)) :
    ∃ left right, (∀ t ∈ left, t < s) ∧ (∀ t ∈ right, s < t) ∧ insert s l = left ++ s :: right ∧
      (s ∈ l → l = left ++ s :: right) ∧ (s ∉ l → l = left ++ right) := by
  induction l with
  | nil => exact ⟨[], [], by simp, by simp, rfl, by simp, by simp⟩
  | cons u l ih =>
    obtain ⟨hu, hl⟩ := List.pairwise_cons.1 h
    rcases lt_trichotomy s u with hlt | rfl | hgt
    · -- All names are above, so it goes first.
      have habove : ∀ t ∈ u :: l, s < t :=
        List.forall_mem_cons.2 ⟨hlt, fun t ht => lt_trans hlt (hu t ht)⟩
      refine ⟨[], u :: l, by simp, habove, ?_, ?_, fun _ => rfl⟩
      · rw [insert, if_pos hlt, List.nil_append]
      · intro hs
        exact absurd (habove s hs) (lt_irrefl s)
    · refine ⟨[], l, by simp, hu, ?_, fun _ => rfl, ?_⟩
      · rw [insert, if_neg (lt_irrefl s), if_pos rfl, List.nil_append]
      · intro hs
        exact absurd List.mem_cons_self hs
    · obtain ⟨left, right, hleft, hright, hinsert, hmem, hnotMem⟩ := ih hl
      have hne : s ≠ u := ne_of_gt hgt
      refine ⟨u :: left, right, List.forall_mem_cons.2 ⟨hgt, hleft⟩, hright, ?_, ?_, ?_⟩
      · rw [insert, if_neg (lt_asymm hgt), if_neg hne, hinsert, List.cons_append]
      · intro hs
        rw [List.cons_append, ← hmem ((List.mem_cons.1 hs).resolve_left hne)]
      · intro hs
        rw [List.cons_append, ← hnotMem (mt (List.mem_cons_of_mem u) hs)]

/-- Lists with the same members are the same as sets. -/
theorem Ascending.ofList_congr {l m : List String} (h : ∀ s, s ∈ l ↔ s ∈ m) :
    ofList l = ofList m := by
  refine (pairwise_ofList l).eq_of_mem_iff (pairwise_ofList m) ?_
  intro s
  rw [mem_ofList, mem_ofList, h]

/-- Leaving names out of a list leaves them out of the set. -/
theorem Ascending.ofList_filter (p : String → Bool) (l : List String) :
    ofList (l.filter p) = (ofList l).filter p := by
  refine (pairwise_ofList _).eq_of_mem_iff ((pairwise_ofList l).filter p) ?_
  intro s
  rw [mem_ofList, List.mem_filter, List.mem_filter, mem_ofList]

/-! ### The group of a register -/

namespace RegisterGroup

/-- The group of a register, read off a list of observations. -/
def ofRegister (l : List Observation) (register : String) : RegisterGroup where
  register := register
  fieldOrder := ((l.find? (·.register = register)).map (·.fields.names)).getD []
  observations := l.filter (·.register = register)

@[simp] theorem register_ofRegister (l : List Observation) (register : String) :
    (ofRegister l register).register = register := rfl

@[simp] theorem mem_observations_ofRegister {l : List Observation} {register : String}
    {o : Observation} :
    o ∈ (ofRegister l register).observations ↔ o ∈ l ∧ o.register = register := by
  simp [ofRegister]

@[simp] theorem mem_environments_ofRegister {l : List Observation} {register label : String} :
    label ∈ (ofRegister l register).environments ↔
      ∃ o ∈ l, o.register = register ∧ o.environment = label := by
  simp [and_assoc]

/-- The observations of an environment in the group of a register. -/
theorem filter_observations_ofRegister (l : List Observation) (register environment : String) :
    (ofRegister l register).observations.filter (·.environment = environment)
      = l.filter fun o => o.register = register ∧ o.environment = environment := by
  rw [ofRegister, List.filter_filter]
  apply List.filter_congr
  intro o _
  rw [Bool.and_comm, Bool.decide_and]

/-- The first observation of a register is the one that fixes the fields of its group. -/
theorem exists_cons_ofRegister {l : List Observation} {register : String}
    (h : ∃ o ∈ l, o.register = register) :
    ∃ first rest, (ofRegister l register).observations = first :: rest ∧
      (ofRegister l register).fieldOrder = first.fields.names := by
  obtain ⟨o, ho, hregister⟩ := h
  have hmem : o ∈ l.filter (·.register = register) :=
    List.mem_filter.2 ⟨ho, decide_eq_true hregister⟩
  obtain ⟨first, rest, hcons⟩ := List.exists_cons_of_ne_nil (List.ne_nil_of_mem hmem)
  have hfirst : l.find? (·.register = register) = some first := by
    rw [← List.head?_filter, hcons, List.head?_cons]
  refine ⟨first, rest, hcons, ?_⟩
  rw [ofRegister, hfirst, Option.map_some, Option.getD_some]

/-- The group of a register depends on the observations of that register alone. -/
theorem ofRegister_congr {l m : List Observation} {register : String}
    (h : l.filter (·.register = register) = m.filter (·.register = register)) :
    ofRegister l register = ofRegister m register := by
  have hfirst : l.find? (·.register = register) = m.find? (·.register = register) := by
    rw [← List.head?_filter, h, List.head?_filter]
  rw [ofRegister, ofRegister, hfirst, h]

variable {l : List Observation} {o : Observation} {register : String}

/-- An observation of another register leaves a group as it is. -/
theorem ofRegister_concat_of_ne (h : o.register ≠ register) :
    ofRegister (l ++ [o]) register = ofRegister l register := by
  simp [ofRegister, h]

/-- The groups of registers other than that of an observation stay as they are. -/
theorem map_ofRegister_concat {registers : List String} (h : o.register ∉ registers) :
    registers.map (ofRegister (l ++ [o])) = registers.map (ofRegister l) :=
  List.map_congr_left fun _ hmem => ofRegister_concat_of_ne fun heq => h (heq ▸ hmem)

/-- A later observation of a register goes to the end of its group. -/
theorem ofRegister_concat_of_mem (h : o.register ∈ l.map Observation.register) :
    ofRegister (l ++ [o]) o.register = (ofRegister l o.register).push o := by
  obtain ⟨p, hp, hpo⟩ := List.mem_map.1 h
  have hfind : (l.find? (·.register = o.register)).isSome := by
    rw [List.find?_isSome]
    exact ⟨p, hp, by simpa using hpo⟩
  obtain ⟨first, hfirst⟩ := Option.isSome_iff_exists.1 hfind
  simp [ofRegister, push, hfirst]

/-- The first observation of a register makes a group of its own. -/
theorem ofRegister_concat_of_notMem (h : o.register ∉ l.map Observation.register) :
    ofRegister (l ++ [o]) o.register = ofFirst o := by
  have hne : ∀ p ∈ l, p.register ≠ o.register := fun p hp heq =>
    h (heq ▸ List.mem_map_of_mem hp)
  have hfind : l.find? (·.register = o.register) = none :=
    List.find?_eq_none.2 fun p hp => by simpa using hne p hp
  have hfilter : l.filter (·.register = o.register) = [] :=
    List.filter_eq_nil_iff.2 fun p hp => by simpa using hne p hp
  simp [ofRegister, ofFirst, hfind, hfilter]

/-- Adding an observation to the groups of some registers, in ascending order, among which its own
one is exactly if it occurred before. -/
theorem add_map_ofRegister (l : List Observation) (o : Observation) (registers : List String)
    (hasc : registers.Pairwise (· < ·))
    (hmem : o.register ∈ l.map Observation.register ↔ o.register ∈ registers) :
    add o (registers.map (ofRegister l)) =
      (Ascending.insert o.register registers).map (ofRegister (l ++ [o])) := by
  induction registers with
  | nil =>
    rw [List.map_nil, add, Ascending.insert, List.map_singleton,
      ofRegister_concat_of_notMem (by simp [hmem])]
  | cons r registers ih =>
    obtain ⟨hr, hasc'⟩ := List.pairwise_cons.1 hasc
    rw [List.map_cons, add, register_ofRegister, Ascending.insert]
    rcases lt_trichotomy o.register r with hlt | heq | hgt
    · have hnot : o.register ∉ r :: registers := by
        rintro (_ | ⟨_, h⟩)
        · exact lt_irrefl _ hlt
        · exact lt_asymm hlt (hr _ h)
      rw [if_pos hlt, if_pos hlt, List.map_cons, map_ofRegister_concat hnot, List.map_cons,
        ofRegister_concat_of_notMem (mt hmem.1 hnot)]
    · subst heq
      have hnot : o.register ∉ registers := fun h => lt_irrefl _ (hr _ h)
      rw [if_neg (lt_irrefl _), if_neg (lt_irrefl _), if_pos rfl, if_pos rfl, List.map_cons,
        map_ofRegister_concat hnot, ofRegister_concat_of_mem (hmem.2 List.mem_cons_self)]
    · rw [if_neg (lt_asymm hgt), if_neg (lt_asymm hgt), if_neg hgt.ne', if_neg hgt.ne',
        List.map_cons, ofRegister_concat_of_ne hgt.ne', ih hasc']
      rw [hmem, List.mem_cons, or_iff_right hgt.ne']

end RegisterGroup

/-- **The groups of a list** are those of the registers that occur, in ascending order. -/
theorem groupObservations_eq (l : List Observation) :
    groupObservations l =
      (Ascending.ofList (l.map Observation.register)).map (RegisterGroup.ofRegister l) := by
  induction l using List.reverseRecOn with
  | nil => rfl
  | append_singleton l o ih =>
    have hadd := RegisterGroup.add_map_ofRegister l o _ (Ascending.pairwise_ofList _)
      (Ascending.mem_ofList (l := l.map Observation.register)).symm
    rw [groupObservations_concat, ih, hadd, Ascending.insert_ofList, List.map_append,
      List.map_singleton]

/-- The registers of the groups are those that occur, in ascending order. -/
theorem map_register_groupObservations (l : List Observation) :
    (groupObservations l).map RegisterGroup.register
      = Ascending.ofList (l.map Observation.register) := by
  rw [groupObservations_eq, List.map_map]
  exact List.map_id _

/-- Each group is that of a register of the list. -/
theorem exists_of_mem_groupObservations {l : List Observation} {g : RegisterGroup}
    (h : g ∈ groupObservations l) :
    (∃ o ∈ l, o.register = g.register) ∧ g = RegisterGroup.ofRegister l g.register := by
  rw [groupObservations_eq] at h
  obtain ⟨register, hregister, rfl⟩ := List.mem_map.1 h
  rw [Ascending.mem_ofList] at hregister
  exact ⟨List.mem_map.1 hregister, rfl⟩

/-! ### The columns of a group -/

/-- For a group of the same list, no environment is lost when the index is restricted. -/
theorem EnvironmentIndex.restrict_ofObservations {l : List Observation} {g : RegisterGroup}
    (h : ∀ o ∈ g.observations, o ∈ l) : (ofObservations l).restrict g = g.environments := by
  refine (pairwise_restrict _ _).eq_of_mem_iff g.pairwise_environments ?_
  intro label
  rw [mem_restrict, mem_labels_ofObservations, and_iff_right_iff_imp,
    RegisterGroup.mem_environments]
  rintro ⟨o, ho, hlabel⟩
  exact ⟨o, h o ho, hlabel⟩

end RegisterTables
