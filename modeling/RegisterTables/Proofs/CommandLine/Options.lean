import RegisterTables.Proofs.CommandLine.Effects
import RegisterTables.Proofs.Toml.Lexing

/-!
# What the options of a report mean

`CommandLine.run_render`: the options of the command that renders mean the same in any order, and a
switch means the same however often it is given. A run with them reads the catalogue, builds the
report with the title, policy and registers that were asked for, and saves or prints it. Without any
option the name of the command may be left out.

The values are arbitrary texts. Each is read right behind its option, so it does not matter if it
looks like an option, a request for help or the name of a command.

The settings that are read are those that the options make one by one (`RenderOption.set`), which
are then looked up field by field (`RenderOption.foldl_set`).
-/

namespace RegisterTables.CommandLine

/-! ### Options and their spelling -/

/-- An option of the command that renders. -/
inductive RenderOption where
  /-- Where to save the report. -/
  | output (path : String)
  /-- The title of the report. -/
  | title (text : String)
  /-- Cells in the order of the catalogue. -/
  | sourceOrder
  /-- No uniform rows. -/
  | differingOnly
  /-- A register to include. -/
  | register (name : String)
deriving DecidableEq

namespace RenderOption

/-- The arguments that spell an option. -/
def arguments : RenderOption → List String
  | output path => ["--output", path]
  | title text => ["--title", text]
  | sourceOrder => ["--source-order"]
  | differingOnly => ["--differing-only"]
  | register name => ["--register", name]

/-- The path of an option that is one. -/
def path? : RenderOption → Option String
  | output path => some path
  | _ => none

/-- The title of an option that is one. -/
def title? : RenderOption → Option String
  | title text => some text
  | _ => none

/-- The register of an option that is one. -/
def register? : RenderOption → Option String
  | register name => some name
  | _ => none

/-- What an option does to the settings. -/
def set (s : RenderSettings) : RenderOption → RenderSettings
  | output path => { s with output? := some path }
  | title text => { s with title? := some text }
  | sourceOrder => { s with policy := .sourceOrder }
  | differingOnly => { s with differingOnly := true }
  | register name => { s with registers := s.registers ++ [name] }

end RenderOption

/-- What a report may be asked for. -/
structure RenderChoice where
  /-- Where to save the report; it is printed if there is no path. -/
  path? : Option String := none
  /-- The title, if it is not the usual one. -/
  title? : Option String := none
  /-- Whether the cells stand in the order of the catalogue. -/
  sourceOrder : Bool := false
  /-- Whether uniform rows are left out. -/
  differingOnly : Bool := false
  /-- The registers to include; all if the list is empty. -/
  registers : List String := []

namespace RenderChoice

/-- The options that the report is built with. -/
def options (c : RenderChoice) : ReportOptions where
  title := c.title?.getD "Some system registers"
  policy := if c.sourceOrder then .sourceOrder else .aligned
  differingOnly := c.differingOnly
  registers := c.registers

/-- A list of options spells a choice: in any order it holds each path and title once, a switch at
least once if it is chosen, and each register in its order. -/
structure IsSpelledBy (c : RenderChoice) (os : List RenderOption) : Prop where
  path : os.filterMap RenderOption.path? = c.path?.toList
  title : os.filterMap RenderOption.title? = c.title?.toList
  sourceOrder : .sourceOrder ∈ os ↔ c.sourceOrder
  differingOnly : .differingOnly ∈ os ↔ c.differingOnly
  registers : os.filterMap RenderOption.register? = c.registers

end RenderChoice

/-- The arguments that name a catalogue, or none. -/
def catalogueArguments : Option String → List String
  | some path => ["--catalogue", path]
  | none => []

/-! ### Reading options -/

namespace RenderOption

/-- The settings after some options. The path and the title are the last ones given. -/
theorem foldl_set (os : List RenderOption) (s : RenderSettings) :
    os.foldl set s =
      { output? := (os.filterMap path?).getLast?.or s.output?
        title? := (os.filterMap title?).getLast?.or s.title?
        policy := if .sourceOrder ∈ os then .sourceOrder else s.policy
        differingOnly := decide (.differingOnly ∈ os) || s.differingOnly
        registers := s.registers ++ os.filterMap register? } := by
  induction os generalizing s with
  | nil => simp
  | cons o os ih =>
    -- What a later option says goes before what this one has set.
    rw [List.foldl_cons, ih]
    cases o <;> simp [set, path?, title?, register?, List.getLast?_cons, List.filterMap_cons]

/-- There is at most one path and at most one title among what has been read and what is still to
be read. -/
def IsFresh (s : RenderSettings) (os : List RenderOption) : Prop :=
  (s.output?.toList ++ os.filterMap path?).length ≤ 1 ∧
    (s.title?.toList ++ os.filterMap title?).length ≤ 1

/-- A text that may be given once is given now, was given before, or comes later. -/
theorem length_toList_or_le {given? : Option String} {value? : RenderOption → Option String}
    {o : RenderOption} {os : List RenderOption}
    (h : (given?.toList ++ (o :: os).filterMap value?).length ≤ 1) :
    (given?.toList ++ [o].filterMap value?).length ≤ 1 ∧
      (((value? o).or given?).toList ++ os.filterMap value?).length ≤ 1 := by
  cases hvalue : value? o <;> cases given? <;> simp [hvalue] at h ⊢ <;> omega

/-- Reading an option, and its value whatever it looks like. -/
theorem scan_arguments {o : RenderOption} {s : RenderSettings} (h : IsFresh s [o])
    (rest : List String) :
    scan renderOption? s false false (o.arguments ++ rest)
      = scan renderOption? (set s o) false false rest := by
  cases o with
  | output path =>
    -- No path was given before, since there would be two of them now.
    have hnone : s.output? = none := by
      cases hs : s.output? <;> simp_all [IsFresh, path?]
    simp [arguments, scan, asksForHelp, renderOption?, once, set, hnone]
  | title text =>
    have hnone : s.title? = none := by
      cases hs : s.title? <;> simp_all [IsFresh, title?]
    simp [arguments, scan, asksForHelp, renderOption?, once, set, hnone]
  | sourceOrder => simp [arguments, scan, asksForHelp, renderOption?, set]
  | differingOnly => simp [arguments, scan, asksForHelp, renderOption?, set]
  | register name => simp [arguments, scan, asksForHelp, renderOption?, set]

/-- An option that is read moves from one side to the other. -/
theorem IsFresh.set {o : RenderOption} {os : List RenderOption} {s : RenderSettings}
    (h : IsFresh s (o :: os)) : IsFresh s [o] ∧ IsFresh (set s o) os := by
  obtain ⟨hpath, hpaths⟩ := length_toList_or_le h.1
  obtain ⟨htitle, htitles⟩ := length_toList_or_le h.2
  have houtput? : (RenderOption.set s o).output? = o.path?.or s.output? := by cases o <;> rfl
  have htitle? : (RenderOption.set s o).title? = o.title?.or s.title? := by cases o <;> rfl
  refine ⟨⟨hpath, htitle⟩, ?_⟩
  rw [IsFresh, houtput?, htitle?]
  exact ⟨hpaths, htitles⟩

/-- Options are read one by one. -/
theorem scan_flatMap_arguments {os : List RenderOption} {s : RenderSettings} (h : IsFresh s os) :
    scan renderOption? s false false (os.flatMap arguments)
      = .finished (os.foldl RenderOption.set s) false := by
  induction os generalizing s with
  | nil => rfl
  | cons o os ih =>
    obtain ⟨hhead, htail⟩ := h.set
    rw [List.flatMap_cons, List.foldl_cons, scan_arguments hhead, ih htail]

end RenderOption

/-! ### Runs with options -/

variable {c : RenderChoice} {os : List RenderOption}

/-- Options that spell a choice set what is chosen. -/
theorem RenderChoice.IsSpelledBy.foldl_set (h : c.IsSpelledBy os) :
    os.foldl RenderOption.set { } =
      { output? := c.path?
        title? := c.title?
        policy := if c.sourceOrder then .sourceOrder else .aligned
        differingOnly := c.differingOnly
        registers := c.registers } := by
  have hdiffering : decide (.differingOnly ∈ os) = c.differingOnly := by
    rw [decide_eq_decide.2 h.differingOnly, Bool.decide_coe]
  have hlast (text? : Option String) : text?.toList.getLast?.or none = text? := by
    cases text? <;> rfl
  rw [RenderOption.foldl_set, h.path, h.title, h.registers, hdiffering, hlast, hlast,
    Bool.or_false, List.nil_append]
  simp only [h.sourceOrder]

/-- Options that spell a choice can be read. -/
theorem RenderChoice.IsSpelledBy.isFresh (h : c.IsSpelledBy os) : RenderOption.IsFresh { } os := by
  unfold RenderOption.IsFresh
  rw [h.path, h.title]
  constructor
  · cases c.path? <;> simp
  · cases c.title? <;> simp

theorem scan_catalogueArguments (catalogue? : Option String) (rest : List String) :
    scan programOption? { } false false (catalogueArguments catalogue? ++ rest)
      = scan programOption? ⟨catalogue?⟩ false false rest := by
  cases catalogue? with
  | none => rfl
  | some path => simp [catalogueArguments, scan, asksForHelp, programOption?, once]

/-- The name of a command is no option. -/
theorem scan_render (catalogue? : Option String) (rest : List String) :
    scan programOption? ⟨catalogue?⟩ false false ("render" :: rest)
      = .operand ⟨catalogue?⟩ false "render" rest := by
  unfold scan
  simp [asksForHelp]

/-- What the arguments of a report ask for. -/
theorem ofArguments_render (catalogue? : Option String) (h : c.IsSpelledBy os) :
    Request.ofArguments
        (catalogueArguments catalogue? ++ "render" :: os.flatMap RenderOption.arguments)
      = .run ⟨catalogue?, .render c.path? c.options⟩ := by
  rw [Request.ofArguments, scan_catalogueArguments, scan_render]
  simp only [commandRequest, RenderOption.scan_flatMap_arguments h.isFresh, h.foldl_set,
    RenderSettings.options, RenderChoice.options]
  cases c.title? <;> rfl

/-- The command that renders is the usual one. -/
theorem ofArguments_catalogueArguments (catalogue? : Option String) :
    Request.ofArguments (catalogueArguments catalogue?)
      = Request.ofArguments (catalogueArguments catalogue? ++ ["render"]) := by
  have hscan : scan programOption? { } false false (catalogueArguments catalogue?)
      = .finished ⟨catalogue?⟩ false := by
    have h := scan_catalogueArguments catalogue? []
    rwa [List.append_nil] at h
  rw [Request.ofArguments, hscan, Request.ofArguments, scan_catalogueArguments, scan_render]
  rfl

/-- **The options of a report mean the same in any order.** -/
theorem run_render (catalogue? : Option String) (files : FileTree) (h : c.IsSpelledBy os) :
    run (catalogueArguments catalogue? ++ "render" :: os.flatMap RenderOption.arguments) files
      = rendering files catalogue? c.path? c.options ∧
    (os = [] →
      run (catalogueArguments catalogue?) files
        = rendering files catalogue? c.path? c.options) := by
  refine ⟨run_eq_rendering (ofArguments_render catalogue? h), ?_⟩
  rintro rfl
  have hrequest := ofArguments_render catalogue? h
  rw [List.flatMap_nil, ← ofArguments_catalogueArguments] at hrequest
  exact run_eq_rendering hrequest

set_option maxRecDepth 8000 in
/-- Values that look like options, like commands and like requests for help. The catalogue lists the
registers that are asked for in another order, and a further one between them. -/
theorem run_render_misleading :
    let c : RenderChoice :=
      { path? := some "--help", title? := some "--", sourceOrder := true,
        registers := ["render", "--register"] }
    let os : List RenderOption :=
      [.register "render", .sourceOrder, .title "--", .register "--register", .sourceOrder,
        .output "--help"]
    let catalogue := "environment=[\x7bname='e',register=[\x7bname='render',x='1'\x7d," ++
      "\x7bname='help'\x7d,\x7bx='2',name='--register'\x7d]\x7d]"
    let files : FileTree := ⟨[(["help"], .file catalogue.toUTF8)]⟩
    let report := "# --\n\n\n## 0. Register `--register`\n\n0. e\n\n| Field\\Env | `0` |\n" ++
      "|---| ---|\n| `x` | 2 |\n\n## 1. Register `render`\n\n0. e\n\n| Field\\Env | `0` |\n" ++
      "|---| ---|\n| `x` | 1 |\n"
    c.IsSpelledBy os ∧
      run ["--catalogue", "help", "render", "--register", "render", "--source-order", "--title",
          "--", "--register", "--register", "--source-order", "--output", "--help"] files
        = rendering files (some "help") c.path? c.options ∧
      rendering files (some "help") c.path? c.options
        = (.done "", ⟨[(["help"], .file catalogue.toUTF8), (["--help"], .file report.toUTF8)]⟩) := by
  intro c os catalogue files report
  have hspelled : c.IsSpelledBy os := ⟨rfl, rfl, by decide, by decide, rfl⟩
  refine ⟨hspelled, (run_render (some "help") files hspelled).1, ?_⟩
  let l : List Observation :=
    [⟨"e", "render", ⟨[("x", "1")]⟩⟩, ⟨"e", "help", ⟨[]⟩⟩, ⟨"e", "--register", ⟨[("x", "2")]⟩⟩]
  let r : Report :=
    ⟨"--", [⟨0, "--register", ["e"], [⟨"x", ["2"]⟩]⟩, ⟨1, "render", ["e"], [⟨"x", ["1"]⟩]⟩]⟩
  have hlexemes : Toml.lexemes catalogue = Toml.placed 0
      [.word "environment".toList, .equals, .leftBracket, .leftBrace, .word "name".toList, .equals,
        .string ['e'] false, .comma, .word "register".toList, .equals, .leftBracket,
        .leftBrace, .word "name".toList, .equals, .string "render".toList false, .comma,
        .word ['x'], .equals, .string ['1'] false, .rightBrace, .comma,
        .leftBrace, .word "name".toList, .equals, .string "help".toList false, .rightBrace, .comma,
        .leftBrace, .word ['x'], .equals, .string ['2'] false, .comma,
        .word "name".toList, .equals, .string "--register".toList false, .rightBrace,
        .rightBracket, .rightBrace, .rightBracket] := by
    decide +kernel
  have hparsed : (Catalogue.parse "help" catalogue .toml).result = .ok l := by
    unfold Catalogue.parse Catalogue.outline Toml.Table.parse
    rw [hlexemes]
    cbv
  have hloaded : loaded files (some "help") = Catalogue.parse "help" catalogue .toml := by
    have hcontents : contents files "help" = .ok catalogue.toUTF8 := by decide +kernel
    have htext : String.fromUTF8? catalogue.toUTF8 = some catalogue := by decide +kernel
    unfold loaded Catalogue.parseFile
    simp only [hcontents, htext]
    rfl
  have hbuilt : (c.options.build l).result = .ok r := by decide
  unfold rendering
  rw [hloaded, hparsed]
  simp only [hbuilt]
  cbv

end RegisterTables.CommandLine
