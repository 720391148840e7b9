import RegisterTables.Report.Build

/-!
# Arguments of the command line

An argument list is options, then the name of a command, then the options of that command. An option
is a switch, which may be repeated, or takes the next argument as its value, whatever that looks
like. A double hyphen ends the options but not the list; a name may still follow it.

A request for help stands for the whole list, but only if the list makes sense and no option follows
the request.
-/

namespace RegisterTables.CommandLine

/-- What to do with a catalogue. -/
inductive Action where
  /-- Write the report, into a file if there is a path. -/
  | render (output? : Option String) (options : ReportOptions)
  /-- List the labels of the environments. -/
  | environments
  /-- List the registers, with the number of environments that reported each. -/
  | registers
deriving DecidableEq, Repr

/-- What the program is asked to do. -/
structure Command where
  /-- The path of the catalogue; the built-in one if there is none. -/
  catalogue? : Option String := none
  /-- What to do with it. -/
  action : Action := .render none { }
deriving DecidableEq, Repr

/-- What an argument list asks for. -/
inductive Request where
  /-- The help text. -/
  | help
  /-- A run of the program. -/
  | run (command : Command)
  /-- Nothing, since the list makes no sense. -/
  | invalid
deriving DecidableEq, Repr

/-! ### Options -/

/-- What an option does to the settings read so far. -/
inductive Effect (σ : Type) where
  /-- Stands alone. -/
  | switch (apply : σ → σ)
  /-- Takes a value, and may refuse to. -/
  | value (apply : String → σ → Option σ)

/-- What is left of an argument list behind its leading options. -/
inductive Scan (σ : Type) where
  /-- Nothing is left. -/
  | finished (settings : σ) (helped : Bool)
  /-- An argument that is no option, and those that follow it. -/
  | operand (settings : σ) (helped : Bool) (name : String) (rest : List String)
  /-- An option is unknown, lacks its value, is repeated, or follows a request for help. -/
  | invalid

/-- Whether the argument asks for help. -/
def asksForHelp (argument : String) : Bool :=
  argument = "--help" || argument = "help"

/-- Reads leading options. Help may have been asked for before, and the options may have ended. -/
def scan {σ : Type} (effect? : String → Option (Effect σ)) (settings : σ) (helped ended : Bool) :
    List String → Scan σ
  | [] => .finished settings helped
  | argument :: rest =>
    if !ended && asksForHelp argument then scan effect? settings true ended rest
    else if !ended && argument.startsWith "-" then
      if argument = "--" then scan effect? settings helped true rest
      else if helped then .invalid
      else
        match effect? argument, rest with
        | some (.switch apply), rest => scan effect? (apply settings) helped ended rest
        | some (.value apply), value :: rest =>
          match apply value settings with
          | some settings => scan effect? settings helped ended rest
          | none => .invalid
        | _, _ => .invalid
    else .operand settings helped argument rest

/-! ### Commands -/

/-- The settings of the program. -/
structure Settings where
  /-- The path of the catalogue. -/
  catalogue? : Option String := none

/-- The settings of the command that renders. -/
structure RenderSettings where
  /-- The path of the report. -/
  output? : Option String := none
  /-- The title of the report. -/
  title? : Option String := none
  /-- How the cells are matched with the columns. -/
  policy : ColumnPolicy := .aligned
  /-- Whether uniform rows are left out. -/
  differingOnly : Bool := false
  /-- The registers to include. -/
  registers : List String := []

/-- The options that a report is built with. -/
def RenderSettings.options (s : RenderSettings) : ReportOptions :=
  let options : ReportOptions :=
    { policy := s.policy, differingOnly := s.differingOnly, registers := s.registers }
  match s.title? with
  | some title => { options with title := title }
  | none => options

/-- Sets something that may be set only once. -/
def once {σ : Type} (get : σ → Option String) (set : String → σ → σ) : Effect σ :=
  .value fun value s => if (get s).isSome then none else some (set value s)

/-- The options of the program. -/
def programOption? : String → Option (Effect Settings)
  | "--catalogue" =>
    some (once Settings.catalogue? fun path s => { s with catalogue? := some path })
  | _ => none

/-- The options of the command that renders. -/
def renderOption? : String → Option (Effect RenderSettings)
  | "--output" => some (once RenderSettings.output? fun path s => { s with output? := some path })
  | "--title" => some (once RenderSettings.title? fun title s => { s with title? := some title })
  | "--source-order" => some (.switch fun s => { s with policy := .sourceOrder })
  | "--differing-only" => some (.switch fun s => { s with differingOnly := true })
  | "--register" => some (.value fun name s => some { s with registers := s.registers ++ [name] })
  | _ => none

/-- The options of a command that has none. -/
def noOption? : String → Option (Effect Unit) :=
  fun _ => none

/-- What the arguments of a command ask for, which have to be options. -/
def commandRequest {σ : Type} (effect? : String → Option (Effect σ)) (settings : σ) (helped : Bool)
    (rest : List String) (catalogue? : Option String) (action : σ → Action) : Request :=
  match scan effect? settings helped false rest with
  | .finished settings helped => if helped then .help else .run ⟨catalogue?, action settings⟩
  | _ => .invalid

/-- What an argument list asks for. -/
def Request.ofArguments (arguments : List String) : Request :=
  match scan programOption? { } false false arguments with
  | .finished settings helped =>
    if helped then .help else .run { catalogue? := settings.catalogue? }
  | .operand settings helped "render" rest =>
    commandRequest renderOption? { } helped rest settings.catalogue? fun s =>
      .render s.output? s.options
  | .operand settings helped "environments" rest =>
    commandRequest noOption? () helped rest settings.catalogue? fun _ => .environments
  | .operand settings helped "registers" rest =>
    commandRequest noOption? () helped rest settings.catalogue? fun _ => .registers
  | _ => .invalid

end RegisterTables.CommandLine
