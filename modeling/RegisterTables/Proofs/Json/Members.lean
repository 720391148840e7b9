import RegisterTables.Json.Value
import Mathlib.Data.List.Induction
import Mathlib.Data.List.Nodup

/-!
# Repeated names in an object

Members are put together one after the other. `Json.Value.ofMembers_eq` says what comes of it with
no reference to that: each name has its place where it first occurs, and the value that it was last
given.

Both parts of a member are followed through the steps on their own. The names of the outcome are the
distinct names (`Json.Value.map_fst_ofMembers`), looking a name up finds its last value
(`Json.Value.lookup_ofMembers`), and a list without repeated names is determined by these two.
-/

namespace RegisterTables.Json

variable {α β : Type}

/-- Each name with its last value, in the order in which the names first occur. -/
def lastValues (l : List (String × α)) : List (String × α) :=
  (l.map Prod.fst).eraseDups.filterMap fun name => (l.reverse.lookup name).map fun v => (name, v)

theorem lookup_cons_of_ne {name other : String} (h : other ≠ name) (v : α)
    (l : List (String × α)) : ((name, v) :: l).lookup other = l.lookup other := by
  rw [List.lookup_cons, beq_eq_false_iff_ne.2 h]

/-- Where no name is repeated, what is found under the name of a member is its value. -/
theorem lookup_of_mem {l : List (String × α)} (h : (l.map Prod.fst).Nodup) {m : String × α}
    (hm : m ∈ l) : l.lookup m.1 = some m.2 := by
  induction l with
  | nil => cases hm
  | cons p l ih =>
    rw [List.map_cons, List.nodup_cons] at h
    rcases List.mem_cons.1 hm with rfl | hm
    · exact List.lookup_cons_self
    · have hne : m.1 ≠ p.1 := by
        intro heq
        exact h.1 (heq ▸ List.mem_map_of_mem hm)
      rw [lookup_cons_of_ne hne p.2 l]
      exact ih h.2 hm

/-- A list without repeated names is made of its names and what is found under them. -/
theorem filterMap_lookup {l : List (String × α)} (h : (l.map Prod.fst).Nodup) :
    (l.map Prod.fst).filterMap (fun name => (l.lookup name).map fun v => (name, v)) = l := by
  have hfound : ∀ m ∈ l, ((l.lookup m.1).map fun v => (m.1, v)) = some m := by
    intro m hm
    rw [lookup_of_mem h hm]
    rfl
  rw [List.filterMap_map]
  exact (List.filterMap_congr hfound).trans List.filterMap_some

namespace Value

/-! ### One member -/

theorem map_fst_insert (name : String) (v : Value) (l : List (String × Value)) :
    (insert name v l).map Prod.fst
      = if name ∈ l.map Prod.fst then l.map Prod.fst else l.map Prod.fst ++ [name] := by
  induction l with
  | nil => rfl
  | cons p l ih =>
    obtain ⟨n, w⟩ := p
    rw [insert]
    by_cases hn : n = name
    · rw [if_pos hn, if_pos (by simp [hn]), List.map_cons, List.map_cons]
    · rw [if_neg hn, List.map_cons, ih, List.map_cons]
      by_cases hmem : name ∈ l.map Prod.fst
      · rw [if_pos hmem, if_pos (List.mem_cons_of_mem _ hmem)]
      · rw [if_neg hmem, if_neg (by simpa [Ne.symm hn] using hmem), List.cons_append]

/-- A value under a new name goes to the end. -/
theorem insert_of_notMem {name : String} {v : Value} {l : List (String × Value)}
    (h : name ∉ l.map Prod.fst) : insert name v l = l ++ [(name, v)] := by
  induction l with
  | nil => rfl
  | cons p l ih =>
    obtain ⟨n, w⟩ := p
    rw [List.map_cons, List.mem_cons, not_or] at h
    rw [insert, if_neg (Ne.symm h.1), ih h.2, List.cons_append]

theorem nodup_insert (name : String) (v : Value) {l : List (String × Value)}
    (h : (l.map Prod.fst).Nodup) : ((insert name v l).map Prod.fst).Nodup := by
  rw [map_fst_insert]
  by_cases hmem : name ∈ l.map Prod.fst
  · rwa [if_pos hmem]
  · rw [if_neg hmem, ← List.concat_eq_append]
    exact h.concat hmem

theorem lookup_insert (name other : String) (v : Value) (l : List (String × Value)) :
    (insert name v l).lookup other = if other = name then some v else l.lookup other := by
  induction l with
  | nil =>
    by_cases hother : other = name
    · rw [if_pos hother, hother, insert, List.lookup_cons_self]
    · rw [if_neg hother, insert, lookup_cons_of_ne hother]
  | cons p l ih =>
    obtain ⟨n, w⟩ := p
    rw [insert]
    by_cases hn : n = name
    · subst hn
      rw [if_pos rfl]
      by_cases hother : other = n
      · rw [if_pos hother, hother, List.lookup_cons_self]
      · rw [if_neg hother, lookup_cons_of_ne hother, lookup_cons_of_ne hother]
    · rw [if_neg hn]
      by_cases hother : other = n
      · rw [hother, List.lookup_cons_self, if_neg hn, List.lookup_cons_self]
      · rw [lookup_cons_of_ne hother, lookup_cons_of_ne hother, ih]

/-! ### All members -/

theorem ofMembers_append_singleton (l : List (String × Value)) (name : String) (v : Value) :
    ofMembers (l ++ [(name, v)]) = insert name v (ofMembers l) := by
  rw [ofMembers, List.foldl_append]
  rfl

/-- Members with names of their own are put together as they are. -/
theorem ofMembers_of_nodup {l : List (String × Value)} (h : (l.map Prod.fst).Nodup) :
    ofMembers l = l := by
  induction l using List.reverseRecOn with
  | nil => rfl
  | append_singleton l p ih =>
    obtain ⟨name, v⟩ := p
    rw [List.map_append, List.map_singleton, List.nodup_append] at h
    obtain ⟨hnodup, -, hdisjoint⟩ := h
    have hname : name ∉ l.map Prod.fst := fun hmem =>
      hdisjoint name hmem name List.mem_cons_self rfl
    rw [ofMembers_append_singleton, ih hnodup, insert_of_notMem hname]

/-- The names are those that occur, in the order of their first occurrences. -/
theorem map_fst_ofMembers (l : List (String × Value)) :
    (ofMembers l).map Prod.fst = (l.map Prod.fst).eraseDups := by
  induction l using List.reverseRecOn with
  | nil => rfl
  | append_singleton l p ih =>
    obtain ⟨name, v⟩ := p
    rw [ofMembers_append_singleton, map_fst_insert, ih, List.map_append, List.eraseDups_append,
      List.map_singleton, List.removeAll]
    by_cases hmem : name ∈ l.map Prod.fst
    · rw [if_pos (List.mem_eraseDups.2 hmem), List.filter_cons_of_neg (by simpa using hmem),
        List.filter_nil, List.eraseDups_nil, List.append_nil]
    · rw [if_neg (mt List.mem_eraseDups.1 hmem), List.filter_cons_of_pos (by simpa using hmem),
        List.filter_nil]
      rfl

/-- No name is left twice. -/
theorem nodup_ofMembers (l : List (String × Value)) : ((ofMembers l).map Prod.fst).Nodup := by
  induction l using List.reverseRecOn with
  | nil => exact List.nodup_nil
  | append_singleton l p ih =>
    rw [ofMembers_append_singleton]
    exact nodup_insert p.1 p.2 ih

/-- What is found under a name is its last value. -/
theorem lookup_ofMembers (l : List (String × Value)) (name : String) :
    (ofMembers l).lookup name = l.reverse.lookup name := by
  induction l using List.reverseRecOn with
  | nil => rfl
  | append_singleton l p ih =>
    obtain ⟨n, v⟩ := p
    rw [ofMembers_append_singleton, lookup_insert, ih, List.reverse_append, List.reverse_singleton,
      List.singleton_append]
    by_cases hn : name = n
    · rw [if_pos hn, hn, List.lookup_cons_self]
    · rw [if_neg hn, lookup_cons_of_ne hn]

/-- **Repeated names.** Each name stands where it first occurs, with its last value. -/
theorem ofMembers_eq (l : List (String × Value)) : ofMembers l = lastValues l := by
  rw [← filterMap_lookup (nodup_ofMembers l), map_fst_ofMembers, lastValues]
  exact List.filterMap_congr fun name _ => by rw [lookup_ofMembers]

end Value

/-! ### Last values -/

theorem lookup_filterMap (f : String → Option α) (names : List String) (name : String) :
    (names.filterMap fun n => (f n).map fun v => (n, v)).lookup name
      = if name ∈ names then f name else none := by
  induction names with
  | nil => rfl
  | cons n names ih =>
    rw [List.filterMap_cons]
    by_cases hn : name = n
    · subst hn
      rw [if_pos List.mem_cons_self]
      cases hf : f name with
      | none =>
        rw [Option.map_none, ih, hf, ite_self]
      | some v => rw [Option.map_some, List.lookup_cons_self]
    · have hmem : name ∈ n :: names ↔ name ∈ names := by simp [hn]
      cases hf : f n with
      | none => rw [Option.map_none, ih]; simp only [hmem]
      | some v => rw [Option.map_some, lookup_cons_of_ne hn, ih]; simp only [hmem]

/-- What is found under a name is its last value. -/
theorem lookup_lastValues (l : List (String × α)) (name : String) :
    (lastValues l).lookup name = l.reverse.lookup name := by
  rw [lastValues, lookup_filterMap]
  by_cases hmem : name ∈ (l.map Prod.fst).eraseDups
  · rw [if_pos hmem]
  · rw [if_neg hmem, eq_comm, List.lookup_eq_none_iff]
    intro p hp
    rw [bne_iff_ne]
    rintro rfl
    exact hmem (List.mem_eraseDups.2 (List.mem_map_of_mem (List.mem_reverse.1 hp)))

theorem lookup_map (f : α → β) (l : List (String × α)) (name : String) :
    (l.map fun m => (m.1, f m.2)).lookup name = (l.lookup name).map f := by
  induction l with
  | nil => rfl
  | cons m l ih =>
    rw [List.map_cons, List.lookup_cons, List.lookup_cons, ih]
    cases name == m.1 <;> rfl

/-- The last values are chosen by the names alone. -/
theorem lastValues_map (f : α → β) (l : List (String × α)) :
    lastValues (l.map fun m => (m.1, f m.2)) = (lastValues l).map fun m => (m.1, f m.2) := by
  rw [lastValues, lastValues, List.map_filterMap, List.map_map]
  apply List.filterMap_congr
  intro name _
  rw [← List.map_reverse, lookup_map, Option.map_map, Option.map_map]
  rfl

end RegisterTables.Json
