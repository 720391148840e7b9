import RegisterTables.Path
import Mathlib.Data.List.Induction

/-!
# The name of a file and its extension

A path is cut into parts by its slashes, and putting the slashes back gives the path
(`Path.eq_append_of_parts`). The name of a file is the last part that does not stand for the
directory in front of it. So a path that leads to a name is made of a directory, the name, and
nothing but slashes and slashes with a single period behind it (`Path.fileName?_eq_some_iff`).

The extension of a name is what follows its last period, if anything stands in front of that
(`Path.extension?_eq_some_iff`).
-/

namespace RegisterTables.Path

/-! ### Parts of a path -/

theorem isIdle_iff {part : List Char} : isIdle part = true ↔ part = [] ∨ part = ['.'] := by
  unfold isIdle
  rw [Bool.or_eq_true, List.isEmpty_iff, beq_iff_eq]

/-- A slash is in no part. -/
theorem slash_notMem_of_mem_parts {path part : List Char} (h : part ∈ parts path) :
    '/' ∉ part := by
  induction path generalizing part with
  | nil =>
    rw [parts, List.mem_singleton] at h
    rw [h]
    exact List.not_mem_nil
  | cons c cs ih =>
    by_cases hc : c = '/'
    · rw [hc, parts_slash] at h
      rcases List.mem_cons.1 h with rfl | h
      · exact List.not_mem_nil
      · exact ih h
    · -- The character belongs to the first part of the rest.
      obtain ⟨p, ps, hps⟩ := List.exists_cons_of_ne_nil (parts_ne_nil cs)
      rw [parts_cons_of_ne hc hps] at h
      rcases List.mem_cons.1 h with rfl | h
      · have hp : '/' ∉ p := ih (hps ▸ List.mem_cons_self)
        rw [List.mem_cons, not_or]
        exact ⟨Ne.symm hc, hp⟩
      · exact ih (hps ▸ List.mem_cons_of_mem _ h)

/-- A slash anywhere ends a part. -/
theorem parts_append_slash_cons (before rest : List Char) :
    parts (before ++ '/' :: rest) = parts before ++ parts rest := by
  induction before with
  | nil => rw [List.nil_append, parts_slash]; rfl
  | cons c cs ih =>
    by_cases hc : c = '/'
    · rw [hc, List.cons_append, parts_slash, parts_slash, ih, List.cons_append]
    · obtain ⟨p, ps, hps⟩ := List.exists_cons_of_ne_nil (parts_ne_nil cs)
      have hlonger : parts (cs ++ '/' :: rest) = p :: (ps ++ parts rest) := by
        rw [ih, hps, List.cons_append]
      rw [List.cons_append, parts_cons_of_ne hc hlonger, parts_cons_of_ne hc hps, List.cons_append]

/-- A path is its first part followed by the others, with a slash in front of each of them. -/
theorem eq_append_of_parts {path first : List Char} {later : List (List Char)}
    (h : parts path = first :: later) : path = first ++ later.flatMap ('/' :: ·) := by
  induction path generalizing first later with
  | nil =>
    obtain ⟨rfl, rfl⟩ := List.cons.inj h
    rfl
  | cons c cs ih =>
    obtain ⟨p, ps, hps⟩ := List.exists_cons_of_ne_nil (parts_ne_nil cs)
    have hcs := ih hps
    by_cases hc : c = '/'
    · rw [hc, parts_slash, hps] at h
      obtain ⟨rfl, rfl⟩ := List.cons.inj h
      rw [hc, List.nil_append, List.flatMap_cons, List.cons_append, ← hcs]
    · rw [parts_cons_of_ne hc hps] at h
      obtain ⟨rfl, rfl⟩ := List.cons.inj h
      rw [List.cons_append, ← hcs]

/-- Parts that follow each other with slashes between them are found again. -/
theorem parts_append_flatMap {name : List Char} {after : List (List Char)} (hname : '/' ∉ name)
    (hafter : ∀ part ∈ after, '/' ∉ part) :
    parts (name ++ after.flatMap ('/' :: ·)) = name :: after := by
  induction after generalizing name with
  | nil => rw [List.flatMap_nil, List.append_nil, parts_of_not_mem hname]
  | cons part after ih =>
    obtain ⟨hpart, hafter⟩ := List.forall_mem_cons.1 hafter
    rw [List.flatMap_cons, List.cons_append, parts_append_slash hname, ih hpart hafter]

/-! ### The name of a file -/

/-- The path leads to that name: behind a directory, if there is one, and in front of parts that
stand for the directory in front of them. -/
structure EndsIn (path dir name : List Char) (after : List (List Char)) : Prop where
  /-- The path is made of these. -/
  path_eq : path = dir ++ (name ++ after.flatMap ('/' :: ·))
  /-- A slash stands between the directory and the name. -/
  dir_ends : dir = [] ∨ ∃ parent, dir = parent ++ ['/']
  /-- There is no slash in the name. -/
  slash_notMem : '/' ∉ name
  /-- The parts that follow are idle. -/
  after_idle : ∀ part ∈ after, isIdle part = true

/-- The parts of a path that leads to a name. -/
theorem EndsIn.exists_parts {path dir name : List Char} {after : List (List Char)}
    (h : EndsIn path dir name after) : ∃ before, parts path = before ++ name :: after := by
  have hafter : ∀ part ∈ after, '/' ∉ part := by
    intro part hpart
    rcases isIdle_iff.1 (h.after_idle part hpart) with rfl | rfl
    · exact List.not_mem_nil
    · decide
  have hparts := parts_append_flatMap h.slash_notMem hafter
  rcases h.dir_ends with hdir | ⟨parent, hdir⟩
  · refine ⟨[], ?_⟩
    rw [h.path_eq, hdir, List.nil_append, List.nil_append, hparts]
  · refine ⟨parts parent, ?_⟩
    rw [h.path_eq, hdir, List.append_assoc, List.singleton_append, parts_append_slash_cons, hparts]

/-- A part with only idle ones behind it is what the path leads to. -/
theorem exists_endsIn_of_parts {path name : List Char} {before after : List (List Char)}
    (h : parts path = before ++ name :: after) (hafter : ∀ part ∈ after, isIdle part = true) :
    ∃ dir, EndsIn path dir name after := by
  have hmem : name ∈ parts path := by
    rw [h]
    exact List.mem_append_right _ List.mem_cons_self
  have hname : '/' ∉ name := slash_notMem_of_mem_parts hmem
  cases before with
  | nil => exact ⟨[], eq_append_of_parts h, .inl rfl, hname, hafter⟩
  | cons first before =>
    refine ⟨first ++ before.flatMap ('/' :: ·) ++ ['/'], ?_, .inr ⟨_, rfl⟩, hname, hafter⟩
    have hpath : path = first ++ (before ++ name :: after).flatMap ('/' :: ·) :=
      eq_append_of_parts h
    rw [hpath, List.flatMap_append, List.flatMap_cons]
    simp only [List.append_assoc, List.cons_append, List.nil_append]

/-- The name of a file is the last part that stands for more than the directory in front of it,
unless that leads back. -/
theorem fileName?_eq_some_iff {path name : List Char} :
    fileName? path = some name ↔
      name ≠ ['.', '.'] ∧ isIdle name = false ∧ ∃ dir after, EndsIn path dir name after := by
  have hlast : ((parts path).filter (!isIdle ·)).getLast? = some name ↔
      isIdle name = false ∧ ∃ dir after, EndsIn path dir name after := by
    rw [List.getLast?_filter, List.find?_eq_some_iff_append]
    simp only [Bool.not_eq_true', Bool.not_not]
    constructor
    · rintro ⟨hname, after, before, hparts, hafter⟩
      have hforward : parts path = before.reverse ++ name :: after.reverse := by
        rw [← List.reverse_reverse (parts path), hparts]
        simp
      obtain ⟨dir, hends⟩ := exists_endsIn_of_parts hforward fun part hpart =>
        hafter part (List.mem_reverse.1 hpart)
      exact ⟨hname, dir, after.reverse, hends⟩
    · rintro ⟨hname, dir, after, hends⟩
      obtain ⟨before, hparts⟩ := hends.exists_parts
      refine ⟨hname, after.reverse, before.reverse, ?_, ?_⟩
      · rw [hparts]
        simp
      · intro part hpart
        exact hends.after_idle part (List.mem_reverse.1 hpart)
  rw [← hlast]
  unfold fileName?
  cases hfound : ((parts path).filter (!isIdle ·)).getLast? with
  | none =>
    constructor
    · intro h
      cases h
    · rintro ⟨-, h⟩
      exact h
  | some found =>
    dsimp only
    split_ifs with hback
    · -- The part that was found leads back.
      constructor
      · intro h
        cases h
      · rintro ⟨hname, h⟩
        exact absurd (Option.some.inj h ▸ hback) hname
    · constructor
      · intro h
        obtain rfl := Option.some.inj h
        exact ⟨hback, rfl⟩
      · rintro ⟨-, h⟩
        exact h

/-! ### The extension of a name -/

/-- What follows the last period of a name; all of it, if there is none. -/
def afterPeriod (name : List Char) : List Char :=
  (name.reverse.takeWhile (· != '.')).reverse

theorem afterPeriod_concat_period (l : List Char) : afterPeriod (l ++ ['.']) = [] := by
  unfold afterPeriod
  rw [List.reverse_concat, List.takeWhile_cons_of_neg (by decide), List.reverse_nil]

theorem afterPeriod_concat_of_ne {c : Char} (hc : c ≠ '.') (l : List Char) :
    afterPeriod (l ++ [c]) = afterPeriod l ++ [c] := by
  have hkept : (c != '.') = true := bne_iff_ne.2 hc
  unfold afterPeriod
  rw [List.reverse_concat, List.takeWhile_cons, if_pos hkept, List.reverse_cons]

theorem period_notMem_afterPeriod (name : List Char) : '.' ∉ afterPeriod name := by
  induction name using List.reverseRecOn with
  | nil => exact List.not_mem_nil
  | append_singleton l c ih =>
    by_cases hc : c = '.'
    · rw [hc, afterPeriod_concat_period]
      exact List.not_mem_nil
    · rw [afterPeriod_concat_of_ne hc, List.mem_append, List.mem_singleton, not_or]
      exact ⟨ih, Ne.symm hc⟩

/-- Either there is no period in a name, or what follows the last one does so. -/
theorem afterPeriod_cases (name : List Char) :
    afterPeriod name = name ∨ ∃ stem, name = stem ++ '.' :: afterPeriod name := by
  induction name using List.reverseRecOn with
  | nil => exact .inl rfl
  | append_singleton l c ih =>
    by_cases hc : c = '.'
    · rw [hc, afterPeriod_concat_period]
      exact .inr ⟨l, rfl⟩
    · rw [afterPeriod_concat_of_ne hc]
      rcases ih with hall | ⟨stem, hstem⟩
      · exact .inl (by rw [hall])
      · refine .inr ⟨stem, ?_⟩
        conv_lhs => rw [hstem]
        rw [List.append_assoc, List.cons_append]

theorem afterPeriod_append {suffix : List Char} (h : '.' ∉ suffix) (stem : List Char) :
    afterPeriod (stem ++ '.' :: suffix) = suffix := by
  induction suffix using List.reverseRecOn with
  | nil => exact afterPeriod_concat_period stem
  | append_singleton l c ih =>
    rw [List.mem_append, List.mem_singleton, not_or] at h
    rw [← List.cons_append, ← List.append_assoc, afterPeriod_concat_of_ne (Ne.symm h.2), ih h.1]

/-- The extension of a name is what follows its last period, unless nothing stands in front of
that. -/
theorem extension?_eq_some_iff {name suffix : List Char} :
    extension? name = some suffix ↔
      '.' ∉ suffix ∧ ∃ stem, stem ≠ [] ∧ name = stem ++ '.' :: suffix := by
  show (if (afterPeriod name).length + 1 < name.length then some (afterPeriod name) else none)
    = some suffix ↔ _
  constructor
  · intro h
    split_ifs at h with hlength
    obtain rfl := Option.some.inj h
    refine ⟨period_notMem_afterPeriod name, ?_⟩
    rcases afterPeriod_cases name with hall | ⟨stem, hstem⟩
    · rw [hall] at hlength
      omega
    · refine ⟨stem, ?_, hstem⟩
      rintro rfl
      have hlengths := congrArg List.length hstem
      rw [List.nil_append, List.length_cons] at hlengths
      omega
  · rintro ⟨hsuffix, stem, hstem, rfl⟩
    have hpos : 0 < stem.length := List.length_pos_iff.2 hstem
    rw [afterPeriod_append hsuffix, if_pos]
    rw [List.length_append, List.length_cons]
    omega

end RegisterTables.Path
