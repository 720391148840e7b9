/-!
# Strictly ascending lists of names

A set of names is kept as the list of its members in strictly ascending order, by code point. Two
such lists with the same members are equal, so a set has one representation and no output depends
on the order in which names were met.
-/

namespace RegisterTables.Ascending

/-- Puts a name at its place. A name that is already there changes nothing. -/
def insert (s : String) : List String → List String
  | [] => [s]
  | t :: l =>
    if s < t then s :: t :: l
    else if s = t then t :: l
    else t :: insert s l

/-- The distinct members of a list, in strictly ascending order. -/
def ofList (l : List String) : List String :=
  l.foldr insert []

/-- The members of the first list that the second one lacks, in their order. -/
def diff (l m : List String) : List String :=
  l.filter (· ∉ m)

/-! ### Members -/

@[simp] theorem mem_insert {s t : String} {l : List String} :
    t ∈ insert s l ↔ t = s ∨ t ∈ l := by
  induction l with
  | nil => simp [insert]
  | cons u l ih =>
    unfold insert
    split
    · simp
    · split
      · rename_i h; subst h; simp
      · simp only [List.mem_cons, ih]; grind

@[simp] theorem mem_ofList {s : String} {l : List String} : s ∈ ofList l ↔ s ∈ l := by
  induction l with
  | nil => simp [ofList]
  | cons t l ih => simpa [ofList] using or_congr_right ih

@[simp] theorem mem_diff {s : String} {l m : List String} : s ∈ diff l m ↔ s ∈ l ∧ s ∉ m := by
  simp [diff]

/-! ### Order -/

theorem pairwise_insert {s : String} {l : List String} (h : l.Pairwise (· < ·)) :
    (insert s l).Pairwise (· < ·) := by
  induction l with
  | nil => simp [insert]
  | cons t l ih =>
    obtain ⟨ht, hl⟩ := List.pairwise_cons.1 h
    unfold insert
    split
    · rename_i hst
      refine List.pairwise_cons.2 ⟨fun u hu => ?_, h⟩
      rcases List.mem_cons.1 hu with rfl | hu
      · exact hst
      · exact String.lt_trans hst (ht u hu)
    · split
      · exact h
      · rename_i hst hne
        refine List.pairwise_cons.2 ⟨fun u hu => ?_, ih hl⟩
        rcases mem_insert.1 hu with rfl | hu
        · exact Std.lt_of_le_of_ne (String.not_lt.1 hst) (Ne.symm hne)
        · exact ht u hu

theorem pairwise_ofList (l : List String) : (ofList l).Pairwise (· < ·) := by
  induction l with
  | nil => simp [ofList]
  | cons s l ih => exact pairwise_insert ih

end RegisterTables.Ascending
