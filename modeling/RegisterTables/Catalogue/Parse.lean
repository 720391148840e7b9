import RegisterTables.Catalogue.Aarch64
import RegisterTables.Catalogue.FromJson
import RegisterTables.Catalogue.FromToml
import RegisterTables.Event

/-!
# Reading catalogues

A catalogue becomes the list of its observations, in the order in which they are written. The text
is read in full before the first observation is made of it, so a text that does not follow its
grammar is found out first, whatever else is wrong with it.
-/

namespace RegisterTables.Catalogue

/-- The outline of a text in a format, or what is wrong with the text. -/
def outline (text : String) : Format → Except String Outline
  | .toml =>
    match Toml.Table.parse text with
    | .ok t => .ok (Outline.ofToml t)
    | .error fault => .error fault.message
  | .json =>
    match (Json.Expr.parse? text).bind Outline.ofJson? with
    | some o => .ok o
    | none => .error "not a catalogue in JSON"

/-- The number of environments of an outline. -/
def Outline.size : Outline → Nat
  | none => 0
  | some environments => environments.length

/-- The observations of an outline. The index in an error is the number of the observations before
it. -/
def Outline.observations (o : Outline) (format : Format) : Except Error (List Observation) :=
  let reading := o.read
  match reading.flaw? with
  | some flaw => .error (.malformedObservation reading.observations.length (flaw.reason format))
  | none => .ok reading.observations

/-- Reads a catalogue. The origin is only a name for the text in errors and events. -/
def parse (origin text : String) (format : Format) : Logged (List Observation) :=
  match outline text format with
  | .error detail => ⟨.error (.unparsable origin detail), []⟩
  | .ok o =>
    match o.observations format with
    | .error e => ⟨.error e, []⟩
    | .ok observations =>
      ⟨.ok observations, [.loadedCatalogue origin o.size observations.length]⟩

/-- Reads the catalogue in a file, given the bytes of the file or why there are none. -/
def parseFile (path : String) : Except String ByteArray → Logged (List Observation)
  | .error cause => ⟨.error (.unreadable path cause), []⟩
  | .ok bytes =>
    match String.fromUTF8? bytes with
    | none => ⟨.error (.unreadable path "stream did not contain valid UTF-8"), []⟩
    | some text => parse path text (Format.ofPath path)

/-- Reads the built-in catalogue. -/
def builtin : Logged (List Observation) :=
  parse "<builtin aarch64>" aarch64 .toml

end RegisterTables.Catalogue
