/-!
# Paths

A path is text, and slashes cut it into parts. A part that is empty or a single period stands for
the directory in front of it.
-/

namespace RegisterTables.Path

/-- The parts of a path between its slashes, of which there is one more than slashes. -/
def parts : List Char → List (List Char)
  | [] => [[]]
  | c :: cs =>
    if c = '/' then [] :: parts cs
    else
      match parts cs with
      | [] => [[c]]
      | p :: ps => (c :: p) :: ps

/-- Whether the part stands for the directory in front of it. -/
def isIdle (part : List Char) : Bool :=
  part.isEmpty || part == ['.']

/-- The last part that is not idle, unless it leads to the parent of a directory. -/
def fileName? (path : List Char) : Option (List Char) :=
  match ((parts path).filter (!isIdle ·)).getLast? with
  | none => none
  | some name => if name = ['.', '.'] then none else some name

/-- What follows the last period of a name, unless the name has no other character in front of
it. -/
def extension? (name : List Char) : Option (List Char) :=
  let suffix := (name.reverse.takeWhile (· != '.')).reverse
  if suffix.length + 1 < name.length then some suffix else none

theorem parts_ne_nil (path : List Char) : parts path ≠ [] := by
  unfold parts
  split
  · simp
  · split
    · simp
    · split <;> simp

theorem parts_cons_of_ne {c : Char} {cs p : List Char} {ps : List (List Char)} (hc : c ≠ '/')
    (h : parts cs = p :: ps) : parts (c :: cs) = (c :: p) :: ps := by
  simp [parts, hc, h]

@[simp] theorem parts_slash (cs : List Char) : parts ('/' :: cs) = [] :: parts cs := by
  simp [parts]

theorem parts_of_not_mem {path : List Char} (h : '/' ∉ path) : parts path = [path] := by
  induction path with
  | nil => rfl
  | cons c cs ih =>
    obtain ⟨hc, hcs⟩ := not_or.1 (mt List.mem_cons.2 h)
    exact parts_cons_of_ne (Ne.symm hc) (ih hcs)

/-- A slash ends the part in front of it. -/
theorem parts_append_slash {p : List Char} (h : '/' ∉ p) (rest : List Char) :
    parts (p ++ '/' :: rest) = p :: parts rest := by
  induction p with
  | nil => simp
  | cons c cs ih =>
    obtain ⟨hc, hcs⟩ := not_or.1 (mt List.mem_cons.2 h)
    exact parts_cons_of_ne (Ne.symm hc) (ih hcs)

end RegisterTables.Path
