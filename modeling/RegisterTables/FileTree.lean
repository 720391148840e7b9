import RegisterTables.Path

/-!
# File trees

The files that a program sees from its working directory. A file is known by its location: the names
that lead to it. A path is walked part by part, and each part but the last has to be a directory, so
a path may fail although its parts would cancel out. There are no links and no permissions, and any
name will do for a file, however long it is and even with a NUL inside, where a system refuses to
create the file.

The directories above the working directory, and the one at the top, exist and hold nothing else
until something is put there.
-/

namespace RegisterTables

/-- Why a file cannot be opened. -/
inductive FileError where
  /-- Nothing is there. -/
  | notFound
  /-- A directory is there. -/
  | isDirectory
  /-- A file stands where a directory is wanted. -/
  | notDirectory
deriving DecidableEq, Repr

/-- The wording of an error. -/
def FileError.message : FileError → String
  | notFound => "No such file or directory (os error 2)"
  | isDirectory => "Is a directory (os error 21)"
  | notDirectory => "Not a directory (os error 20)"

/-- What may be at a location. -/
inductive FileNode where
  /-- A file with its bytes. -/
  | file (bytes : ByteArray)
  /-- A directory. -/
  | directory

/-- The names that lead to a file, from the working directory or from the top. -/
abbrev Location := List String

/-- Files and directories by their locations. -/
structure FileTree where
  /-- The locations in use, each of which occurs once. -/
  entries : List (Location × FileNode) := []

namespace Location

/-- The directory at the top. -/
def top : Location := ["/"]

/-- The location of the directory that a directory is in. -/
def parent (l : Location) : Location :=
  if l = top then top
  else if l.all (· = "..") then l ++ [".."]
  else l.dropLast

/-- Whether the location is a directory in any tree. -/
def isGiven (l : Location) : Bool :=
  l = top || l.all (· = "..")

/-- The location that a part of a path leads to. -/
def step (l : Location) (part : List Char) : Location :=
  if Path.isIdle part then l
  else if part = ['.', '.'] then l.parent
  else l ++ [String.ofList part]

end Location

namespace FileTree

/-- What is at a location. -/
def node? (t : FileTree) (l : Location) : Option FileNode :=
  if l.isGiven then some .directory else t.entries.lookup l

/-- Checks that a directory is at the location. -/
def checkDirectory (t : FileTree) (l : Location) : Except FileError Unit :=
  match t.node? l with
  | none => .error .notFound
  | some (.file _) => .error .notDirectory
  | some .directory => .ok ()

/-- Follows the parts of a path from a location, which has to be a directory if there are any. -/
def walk (t : FileTree) (l : Location) : List (List Char) → Except FileError Location
  | [] => .ok l
  | part :: parts => do
    t.checkDirectory l
    t.walk (l.step part) parts

/-- The parts of a path, and where they start. -/
def start (path : List Char) : Location × List (List Char) :=
  match path with
  | '/' :: rest => (Location.top, Path.parts rest)
  | path => ([], Path.parts path)

/-- The bytes of the file at a path. -/
def read (t : FileTree) (path : String) : Except FileError ByteArray := do
  if path.isEmpty then throw .notFound
  let (l, parts) := start path.toList
  let l ← t.walk l parts
  match t.node? l with
  | none => throw .notFound
  | some .directory => throw .isDirectory
  | some (.file bytes) => return bytes

/-- The location at which a file is created for a path. Nothing is created where a directory is, nor
for a path that can only be one of a directory. -/
def locate (t : FileTree) (path : String) : Except FileError Location := do
  if path.isEmpty then throw .notFound
  let (l, parts) := start path.toList
  let trailing := parts.reverse.takeWhile List.isEmpty
  match parts.reverse.dropWhile List.isEmpty with
  | [] => throw .isDirectory
  | last :: before =>
    let directory ← t.walk l before.reverse
    t.checkDirectory directory
    if !trailing.isEmpty || Path.isIdle last || last = ['.', '.'] then throw .isDirectory
    let l := directory ++ [String.ofList last]
    match t.node? l with
    | some .directory => throw .isDirectory
    | _ => return l

/-- The tree with something at a location, in place of what was there. -/
def put (t : FileTree) (l : Location) (node : FileNode) : FileTree where
  entries := go t.entries
where
  /-- Puts the node in place of the first one of the location, or else at the end. -/
  go : List (Location × FileNode) → List (Location × FileNode)
    | [] => [(l, node)]
    | (k, n) :: entries => if k = l then (k, node) :: entries else (k, n) :: go entries

/-- Putting something at a location changes what is there and nothing else. -/
theorem node?_put (t : FileTree) {l k : Location} (node : FileNode) (h : k.isGiven = false) :
    (t.put l node).node? k = if k = l then some node else t.node? k := by
  simp only [node?, h, Bool.false_eq_true, ↓reduceIte, put]
  by_cases hk : k = l
  · subst hk
    simp only [↓reduceIte]
    induction t.entries with
    | nil => simp [put.go]
    | cons e entries ih =>
      obtain ⟨m, n⟩ := e
      simp only [put.go]
      split
      · rename_i hm
        simp [hm]
      · rename_i hm
        have hb : (k == m) = false := by simpa using Ne.symm hm
        simpa [List.lookup_cons, hb] using ih
  · have hb : (k == l) = false := by simpa using hk
    simp only [hk, ↓reduceIte]
    induction t.entries with
    | nil => simp [put.go, List.lookup_cons, hb]
    | cons e entries ih =>
      obtain ⟨m, n⟩ := e
      simp only [put.go]
      split
      · rename_i hm
        simp [List.lookup_cons, hm, hb]
      · simp only [List.lookup_cons, ih]

/-- The tree with a file of these bytes at a path. -/
def write (t : FileTree) (path : String) (bytes : ByteArray) : Except FileError FileTree := do
  return t.put (← t.locate path) (.file bytes)

/-- The tree with a directory at a location, if nothing is there yet. -/
def putDirectory (t : FileTree) (l : Location) : FileTree :=
  if (t.node? l).isSome then t else t.put l .directory

/-- The tree with a directory at a location, and at all locations that lead to it. -/
def putDirectories (t : FileTree) (l : Location) : FileTree :=
  (List.range l.length).foldl (fun t n => t.putDirectory (l.take (n + 1))) t

/-- The tree with something at a location, and with directories at all locations that lead to it. -/
def add (t : FileTree) (l : Location) (node : FileNode) : FileTree :=
  (t.putDirectories l.dropLast).put l node

end FileTree

end RegisterTables
