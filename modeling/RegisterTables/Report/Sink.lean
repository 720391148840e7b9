import RegisterTables.Report.Markdown

/-!
# Writing a report into a sink

A sink takes bytes until it is full. A single write that does not fit is cut short where the sink is
full, also within a character, and the rest is offered again, which fails; a write of nothing is never
offered. A report is written piece by piece and flushed once at the end, and the first failure ends
it.
-/

namespace RegisterTables

/-- Why a sink takes no more bytes, in its own words. -/
structure Sink.Fault where
  /-- The wording. -/
  message : String
deriving DecidableEq, Repr

/-- A sink for bytes. -/
structure Sink where
  /-- The number of bytes that the sink takes in all, if there is a limit. -/
  limit : Option Nat := none
  /-- What a write comes to for which there is no room. -/
  fault : Sink.Fault := ⟨"sink is full"⟩
  /-- The bytes taken so far. -/
  accepted : ByteArray := .empty
  /-- How many bytes the sink had taken at each flush, in the order of the flushes. -/
  flushedAt : List Nat := []

/-- A computation that writes into a sink. What it wrote before a failure stays written. -/
abbrev WriteM := ExceptT Sink.Fault (StateM Sink)

namespace Sink

/-- How often the sink was flushed. -/
def flushes (s : Sink) : Nat :=
  s.flushedAt.length

/-- How many of `n` bytes the sink still takes. -/
def room (s : Sink) (n : Nat) : Nat :=
  match s.limit with
  | none => n
  | some limit => min n (limit - s.accepted.size)

/-- The bytes of the sink followed by as many of the given ones as it still takes. -/
def fill (s : Sink) (bytes : ByteArray) : Sink :=
  { s with accepted := s.accepted ++ bytes.extract 0 (s.room bytes.size) }

/-- A single write. The sink takes the first bytes, as many as it has room for, and tells how many
these are; where it takes none, the write comes to the fault of the sink. -/
def offer (bytes : ByteArray) : WriteM { n : Nat // 0 < n } := do
  let s ← get
  if h : 0 < s.room bytes.size then
    set (s.fill bytes)
    return ⟨s.room bytes.size, h⟩
  else
    throw s.fault

/-- Writes all of the bytes: those that a single write left are offered again. -/
def writeBytes (bytes : ByteArray) : WriteM Unit :=
  if _ : bytes.size = 0 then pure ()
  else do
    let ⟨taken, _⟩ ← offer bytes
    writeBytes (bytes.extract taken bytes.size)
termination_by bytes.size
decreasing_by
  rw [ByteArray.size_extract]
  omega

/-- Writes a text. -/
def write (text : String) : WriteM Unit :=
  writeBytes text.toUTF8

/-- Hands all bytes on. -/
def flush : WriteM Unit :=
  modify fun s => { s with flushedAt := s.flushedAt ++ [s.accepted.size] }

/-- Writes texts one after the other. -/
def writeAll : List String → WriteM Unit
  | [] => pure ()
  | text :: texts => do
    write text
    writeAll texts

end Sink

/-- Writes the text of the report and flushes the sink. -/
def Report.writeTo (r : Report) : WriteM Unit := do
  Sink.writeAll r.pieces
  Sink.flush

end RegisterTables
