import RegisterTables.FileTree
import RegisterTables.Proofs.Failure
import RegisterTables.Proofs.Path

/-!
# Writing a file and reading it back

`FileTree.isWritten_of_write`: a file that is written can be read under the same path, and nothing
else in the tree has changed. The path may lead through directories and back out of them, and the
file may have been there before.

Both paths are walked part by part, the one of the writer up to the directory of the file, the one
of the reader to the file itself. A walk only ever asks where the directories are
(`FileTree.walk_put`), and no file is put in the place of one (`FileTree.exists_of_locate`), so the
reader still finds its way.
-/

namespace RegisterTables

namespace Location

/-- A location with a name at its end is that of no given directory. -/
theorem isGiven_concat (l : Location) {name : String} (hslash : name ≠ "/")
    (hparent : name ≠ "..") :
    isGiven (l ++ [name]) = false := by
  have htop : l ++ [name] ≠ top := by
    intro h
    have hlast := congrArg List.getLast? h
    rw [List.getLast?_concat, top, List.getLast?_singleton, Option.some.injEq] at hlast
    exact hslash hlast
  rw [isGiven, Bool.or_eq_false_iff, decide_eq_false_iff_not, List.all_append,
    Bool.and_eq_false_iff]
  refine ⟨htop, .inr ?_⟩
  simpa using hparent

/-- A part that is a name leads into the directory. -/
theorem step_of_name (l : Location) {part : List Char} (hidle : Path.isIdle part = false)
    (hparent : part ≠ ['.', '.']) : l.step part = l ++ [String.ofList part] := by
  rw [step, hidle, if_neg Bool.false_ne_true, if_neg hparent]

end Location

namespace FileTree

variable {t : FileTree} {path : String} {l : Location}

/-! ### Changing one file -/

/-- A file that is put at a location is what is there, and all other locations are as before. -/
theorem node?_put_eq (node : FileNode) (hl : l.isGiven = false) (k : Location) :
    (t.put l node).node? k = if k = l then some node else t.node? k := by
  by_cases hk : k.isGiven = true
  · -- A given directory stays one, whatever the entries are.
    have hne : k ≠ l := by
      rintro rfl
      exact Bool.false_ne_true (hl.symm.trans hk)
    rw [if_neg hne, node?, node?, if_pos hk, if_pos hk]
  · exact node?_put t node (Bool.eq_false_iff.2 hk)

/-- A directory stays a directory if something is put elsewhere. -/
theorem checkDirectory_put (node : FileNode) (hl : l.isGiven = false)
    (hnode : t.node? l ≠ some .directory) {k : Location} (h : t.checkDirectory k = .ok ()) :
    (t.put l node).checkDirectory k = .ok () := by
  have hdirectory : t.node? k = some .directory := by
    unfold checkDirectory at h
    split at h
    · cases h
    · cases h
    · assumption
  have hne : k ≠ l := by
    rintro rfl
    exact hnode hdirectory
  rw [checkDirectory, node?_put_eq node hl, if_neg hne, hdirectory]

/-! ### Walking -/

theorem walk_cons {k d : Location} {part : List Char} {ps : List (List Char)} :
    t.walk k (part :: ps) = .ok d ↔
      t.checkDirectory k = .ok () ∧ t.walk (k.step part) ps = .ok d := by
  rw [walk, bind_eq_ok]
  exact ⟨fun ⟨_, hcheck, hrest⟩ => ⟨hcheck, hrest⟩, fun ⟨hcheck, hrest⟩ => ⟨(), hcheck, hrest⟩⟩

/-- A walk may be taken in two parts. -/
theorem walk_append {k d d' : Location} {ps qs : List (List Char)} (h : t.walk k ps = .ok d)
    (h' : t.walk d qs = .ok d') : t.walk k (ps ++ qs) = .ok d' := by
  induction ps generalizing k with
  | nil =>
    rw [walk, Except.ok.injEq] at h
    rwa [List.nil_append, h]
  | cons part ps ih =>
    obtain ⟨hcheck, hrest⟩ := walk_cons.1 h
    exact walk_cons.2 ⟨hcheck, ih hrest⟩

/-- A walk goes the same way if something is put where no directory is. -/
theorem walk_put (node : FileNode) (hl : l.isGiven = false) (hnode : t.node? l ≠ some .directory)
    {k d : Location} {ps : List (List Char)} (h : t.walk k ps = .ok d) :
    (t.put l node).walk k ps = .ok d := by
  induction ps generalizing k with
  | nil => exact h
  | cons part ps ih =>
    obtain ⟨hcheck, hrest⟩ := walk_cons.1 h
    exact walk_cons.2 ⟨checkDirectory_put node hl hnode hcheck, ih hrest⟩

/-! ### The location of a new file -/

/-- The parts of a path that are still to be walked hold no slash. -/
theorem slash_notMem_of_mem_start {cs part : List Char} (h : part ∈ (start cs).2) : '/' ∉ part := by
  unfold start at h
  split at h
  · exact Path.slash_notMem_of_mem_parts h
  · exact Path.slash_notMem_of_mem_parts h

/-- A list with nothing to drop at its end has its last element there. -/
theorem eq_concat_of_dropWhile_reverse {α : Type} {p : α → Bool} {l before : List α} {last : α}
    (h : l.reverse.dropWhile p = last :: before) (htake : l.reverse.takeWhile p = []) :
    l = before.reverse ++ [last] := by
  have happend := List.takeWhile_append_dropWhile (p := p) (l := l.reverse)
  rw [htake, h, List.nil_append] at happend
  rw [← List.reverse_cons, happend, List.reverse_reverse]

/-- **Where a file is created**: under a name in a directory to which the other parts of the path
lead, and not in the place of a directory. -/
theorem exists_of_locate (h : t.locate path = .ok l) :
    path.isEmpty = false ∧ ∃ before last directory,
      (start path.toList).2 = before ++ [last] ∧
      t.walk (start path.toList).1 before = .ok directory ∧
      t.checkDirectory directory = .ok () ∧
      Path.isIdle last = false ∧ last ≠ ['.', '.'] ∧
      l = directory ++ [String.ofList last] ∧ t.node? l ≠ some .directory := by
  cases hempty : path.isEmpty with
  | true =>
    simp only [locate, hempty, if_true] at h
    cases h
  | false =>
    refine ⟨rfl, ?_⟩
    simp only [locate, hempty, Bool.false_eq_true, if_false] at h
    split at h
    · cases h
    · next last before hparts =>
      obtain ⟨directory, hwalk, h⟩ := bind_eq_ok.1 h
      obtain ⟨_, hcheck, h⟩ := bind_eq_ok.1 h
      split at h
      · cases h
      · next hlast =>
        simp only [Bool.or_eq_true, Bool.not_eq_true', decide_eq_true_eq, not_or,
          Bool.not_eq_false, Bool.not_eq_true, List.isEmpty_iff] at hlast
        obtain ⟨⟨htrailing, hidle⟩, hparent⟩ := hlast
        have hsplit := eq_concat_of_dropWhile_reverse hparts htrailing
        refine ⟨before.reverse, last, directory, hsplit, hwalk, hcheck, hidle, hparent, ?_⟩
        split at h
        · cases h
        · next hnode =>
          obtain rfl := Except.ok.inj h
          exact ⟨rfl, hnode⟩

/-- The name of a new file is not one of a given directory. -/
theorem isGiven_of_locate (h : t.locate path = .ok l) : l.isGiven = false := by
  obtain ⟨-, before, last, directory, hsplit, -, -, -, hparent, rfl, -⟩ := exists_of_locate h
  have hslash : '/' ∉ last := slash_notMem_of_mem_start (hsplit ▸ List.mem_concat_self)
  refine Location.isGiven_concat directory ?_ ?_
  · intro h
    have hchars : last = ['/'] := by simpa using congrArg String.toList h
    rw [hchars] at hslash
    exact hslash List.mem_cons_self
  · intro h
    exact hparent (by simpa using congrArg String.toList h)

/-! ### Writing and reading -/

/-- The second tree is the first one with these bytes in the file at a path. -/
structure IsWritten (t t' : FileTree) (path : String) (bytes : ByteArray) : Prop where
  /-- The path leads to a file with the bytes. -/
  read_eq : t'.read path = .ok bytes
  /-- The location to which the path led before is the only one that has changed. -/
  node?_eq : ∃ l, t.locate path = .ok l ∧
    ∀ k, t'.node? k = if k = l then some (.file bytes) else t.node? k

/-- **What is written can be read**, and nothing else has changed. -/
theorem isWritten_of_write {t' : FileTree} {bytes : ByteArray} (h : t.write path bytes = .ok t') :
    t.IsWritten t' path bytes := by
  obtain ⟨l, hlocate, hput⟩ := bind_eq_ok.1 h
  obtain rfl : t.put l (.file bytes) = t' := Except.ok.inj hput
  have hgiven := isGiven_of_locate hlocate
  refine ⟨?_, l, hlocate, node?_put_eq _ hgiven⟩
  obtain ⟨hempty, before, last, directory, hsplit, hwalk, hcheck, hidle, hparent, hl, hnode⟩ :=
    exists_of_locate hlocate
  -- The reader walks to the directory as the writer did, and then takes one more step.
  have hstep : (t.put l (.file bytes)).walk directory [last] = .ok l := by
    refine walk_cons.2 ⟨checkDirectory_put _ hgiven hnode hcheck, ?_⟩
    rw [walk, Location.step_of_name directory hidle hparent, hl]
  have hfound :
      (t.put l (.file bytes)).walk (start path.toList).1 (start path.toList).2 = .ok l := by
    rw [hsplit]
    exact walk_append (walk_put _ hgiven hnode hwalk) hstep
  have hfile : (t.put l (.file bytes)).node? l = some (.file bytes) := by
    rw [node?_put_eq _ hgiven, if_pos rfl]
  rw [read]
  simp only [hempty, Bool.false_eq_true, if_false, bind, Except.bind, pure, Except.pure, hfound,
    hfile]

end FileTree

end RegisterTables
