import Mathlib
import RegisterTables.CommandLine.Run
import RegisterTables.Proofs.FileTree

/-!
# What a run prints and writes

`CommandLine.run_effects`: a run that fails prints nothing and leaves all files as they are, and it
fails exactly if the arguments make no sense, the catalogue cannot be read, the report cannot be
built, or its file cannot be created. A run that succeeds changes at most one file, the one that the
report is to be saved in, and then it prints nothing. The report is that of the catalogue as it was
before the run, so it may even be saved in the place of the catalogue.

A run that renders is written out once, stage by stage (`CommandLine.rendering`), and so is what
each way of failing or succeeding comes to (`CommandLine.Fails`, `CommandLine.Succeeds`). That
saving changes a single file, and that this file can be read, is said by
`FileTree.isWritten_of_write`.
-/

namespace RegisterTables.CommandLine

/-! ### Stages of a run -/

/-- Reading the catalogue at a path of the tree, or the built-in one. -/
def loaded (files : FileTree) (catalogue? : Option String) : Logged (List Observation) :=
  match catalogue? with
  | some path => Catalogue.parseFile path (contents files path)
  | none => Catalogue.builtin

/-- A run that renders, stage by stage: the catalogue is read, the report is built, and it is saved
or printed. -/
def rendering (files : FileTree) (catalogue? output? : Option String) (options : ReportOptions) :
    Ending × FileTree :=
  match (loaded files catalogue?).result with
  | .error e => (.failed (.catalogue catalogue? e), files)
  | .ok l =>
    match (options.build l).result with
    | .error e => (.failed (.report e), files)
    | .ok r =>
      match output? with
      | none => (.done r.markdown, files)
      | some path =>
        match files.write path r.markdown.toUTF8 with
        | .error e => (.failed (.creating path e.message), files)
        | .ok files' => (.done "", files')

variable {arguments : List String} {files : FileTree} {catalogue? output? : Option String}
  {action : Action} {options : ReportOptions} {l : List Observation}

/-- A request for help is answered. -/
theorem run_of_help (h : Request.ofArguments arguments = .help) :
    run arguments files = (.help, files) := by
  unfold run perform
  rw [h]
  rfl

/-- Arguments that make no sense come to nothing. -/
theorem run_of_invalid (h : Request.ofArguments arguments = .invalid) :
    run arguments files = (.usage, files) := by
  unfold run perform
  rw [h]
  rfl

/-- The catalogue is loaded from the tree, which stays as it is. -/
theorem run_load (files : FileTree) (c : Command) :
    (c.load treeSystem).run files = (loaded files c.catalogue?, files) := by
  unfold Command.load loaded
  cases c.catalogue? with
  | none => rfl
  | some path => rfl

/-- A run of a command carries out what the command comes to. -/
theorem run_of_request {c : Command} (h : Request.ofArguments arguments = .run c) :
    run arguments files
      = ((c.response (loaded files c.catalogue?)).carryOut treeSystem).run files := by
  have hload := run_load files c
  unfold run perform
  rw [h]
  show (StateT.run (c.load treeSystem >>= fun logged =>
    (c.response logged).carryOut treeSystem) files).run = _
  rw [StateT.run_bind, hload]
  rfl

/-- A command whose catalogue cannot be read. -/
theorem run_of_loaded_error {e : Error}
    (h : Request.ofArguments arguments = .run ⟨catalogue?, action⟩)
    (he : (loaded files catalogue?).result = .error e) :
    run arguments files = (.failed (.catalogue catalogue? e), files) := by
  rw [run_of_request h, Command.response]
  simp only [he]
  rfl

/-- A command whose catalogue can be read does what its action comes to. -/
theorem run_of_loaded (h : Request.ofArguments arguments = .run ⟨catalogue?, action⟩)
    (hl : (loaded files catalogue?).result = .ok l) :
    run arguments files = ((action.response l).carryOut treeSystem).run files := by
  rw [run_of_request h, Command.response]
  simp only [hl]

/-- Saving a text leaves the tree with the file, or as it was. -/
theorem run_carryOut_save (files : FileTree) (path text : String) :
    ((Response.save path text).carryOut treeSystem).run files =
      match files.write path text.toUTF8 with
      | .error e => (.failed (.creating path e.message), files)
      | .ok files' => (.done "", files') := by
  unfold Response.carryOut treeSystem
  dsimp only
  rw [StateT.run_bind, StateT.run_modifyGet]
  cases files.write path text.toUTF8 with
  | error e => rfl
  | ok files' => rfl

/-- A command that renders goes through its stages. -/
theorem run_eq_rendering
    (h : Request.ofArguments arguments = .run ⟨catalogue?, .render output? options⟩) :
    run arguments files = rendering files catalogue? output? options := by
  cases hl : (loaded files catalogue?).result with
  | error e => rw [run_of_loaded_error h hl, rendering, hl]
  | ok l =>
    rw [run_of_loaded h hl, rendering, hl]
    cases hr : (options.build l).result with
    | error e =>
      simp only [Action.response, hr]
      rfl
    | ok r =>
      cases output? with
      | none =>
        simp only [Action.response, hr]
        rfl
      | some path =>
        simp only [Action.response, hr]
        exact run_carryOut_save files path r.markdown

/-! ### Failing and succeeding -/

/-- Why a run on a tree fails. -/
inductive Fails (arguments : List String) (files : FileTree) : Prop where
  /-- The arguments make no sense. -/
  | arguments (h : Request.ofArguments arguments = .invalid)
  /-- The catalogue cannot be read. -/
  | catalogue {catalogue? : Option String} {action : Action} {e : Error}
      (h : Request.ofArguments arguments = .run ⟨catalogue?, action⟩)
      (he : (loaded files catalogue?).result = .error e)
  /-- The report cannot be built. -/
  | report {catalogue? output? : Option String} {options : ReportOptions} {l : List Observation}
      {e : Error} (h : Request.ofArguments arguments = .run ⟨catalogue?, .render output? options⟩)
      (hl : (loaded files catalogue?).result = .ok l) (he : (options.build l).result = .error e)
  /-- The file of the report cannot be created. -/
  | creating {catalogue? : Option String} {path : String} {options : ReportOptions}
      {l : List Observation} {r : Report} {e : FileError}
      (h : Request.ofArguments arguments = .run ⟨catalogue?, .render (some path) options⟩)
      (hl : (loaded files catalogue?).result = .ok l) (hr : (options.build l).result = .ok r)
      (he : files.locate path = .error e)

/-- What a run on a tree prints if it succeeds, and the tree that it leaves. -/
inductive Succeeds (arguments : List String) (files : FileTree) : String → FileTree → Prop where
  /-- Help was asked for. -/
  | help (h : Request.ofArguments arguments = .help) : Succeeds arguments files helpText files
  /-- The environments of the catalogue are listed. -/
  | environments {catalogue? : Option String} {l : List Observation}
      (h : Request.ofArguments arguments = .run ⟨catalogue?, .environments⟩)
      (hl : (loaded files catalogue?).result = .ok l) :
      Succeeds arguments files (environmentList l) files
  /-- The registers of the catalogue are listed. -/
  | registers {catalogue? : Option String} {l : List Observation}
      (h : Request.ofArguments arguments = .run ⟨catalogue?, .registers⟩)
      (hl : (loaded files catalogue?).result = .ok l) :
      Succeeds arguments files (registerList l) files
  /-- The report is printed. -/
  | print {catalogue? : Option String} {options : ReportOptions} {l : List Observation} {r : Report}
      (h : Request.ofArguments arguments = .run ⟨catalogue?, .render none options⟩)
      (hl : (loaded files catalogue?).result = .ok l) (hr : (options.build l).result = .ok r) :
      Succeeds arguments files r.markdown files
  /-- The report is saved, and the file at its path is the only one that changes. -/
  | save {catalogue? : Option String} {path : String} {options : ReportOptions}
      {l : List Observation} {r : Report} {files' : FileTree}
      (h : Request.ofArguments arguments = .run ⟨catalogue?, .render (some path) options⟩)
      (hl : (loaded files catalogue?).result = .ok l) (hr : (options.build l).result = .ok r)
      (hwritten : files.IsWritten files' path r.markdown.toUTF8) :
      Succeeds arguments files "" files'

/-- A run that fails says why, and does nothing else. -/
theorem Fails.exists_run_eq (h : Fails arguments files) :
    ∃ ending : Ending, run arguments files = (ending, files) ∧
      ending.status ≠ 0 ∧ ending.output = "" := by
  cases h with
  | arguments h => exact ⟨.usage, run_of_invalid h, Nat.one_ne_zero, rfl⟩
  | catalogue h he => exact ⟨_, run_of_loaded_error h he, Nat.one_ne_zero, rfl⟩
  | @report catalogue? output? options l e h hl he =>
    refine ⟨.failed (.report e), ?_, Nat.one_ne_zero, rfl⟩
    rw [run_eq_rendering h, rendering, hl]
    simp only [he]
  | @creating catalogue? path options l r e h hl hr he =>
    refine ⟨.failed (.creating path e.message), ?_, Nat.one_ne_zero, rfl⟩
    have hwrite : files.write path r.markdown.toUTF8 = .error e := by
      rw [FileTree.write, he]
      rfl
    rw [run_eq_rendering h, rendering, hl]
    simp only [hr, hwrite]

/-- A run that does not fail succeeds. -/
theorem succeeds_of_not_fails (h : ¬Fails arguments files) :
    (run arguments files).1.status = 0 ∧
      Succeeds arguments files (run arguments files).1.output (run arguments files).2 := by
  cases hrequest : Request.ofArguments arguments with
  | invalid => exact absurd (.arguments hrequest) h
  | help =>
    rw [run_of_help hrequest]
    exact ⟨rfl, .help hrequest⟩
  | run command =>
    obtain ⟨catalogue?, action⟩ := command
    cases hl : (loaded files catalogue?).result with
    | error e => exact absurd (.catalogue hrequest hl) h
    | ok l =>
      cases action with
      | environments =>
        rw [run_of_loaded hrequest hl]
        exact ⟨rfl, .environments hrequest hl⟩
      | registers =>
        rw [run_of_loaded hrequest hl]
        exact ⟨rfl, .registers hrequest hl⟩
      | render output? options =>
        cases hr : (options.build l).result with
        | error e => exact absurd (.report hrequest hl hr) h
        | ok r =>
          rw [run_eq_rendering hrequest, rendering, hl]
          simp only [hr]
          cases output? with
          | none => exact ⟨rfl, .print hrequest hl hr⟩
          | some path =>
            cases hlocate : files.locate path with
            | error e => exact absurd (.creating hrequest hl hr hlocate) h
            | ok location =>
              have hwrite : files.write path r.markdown.toUTF8
                  = .ok (files.put location (.file r.markdown.toUTF8)) := by
                rw [FileTree.write, hlocate]
                rfl
              simp only [hwrite]
              exact ⟨rfl, .save hrequest hl hr (FileTree.isWritten_of_write hwrite)⟩

/-! ### Effects -/

/-- **A failing run leaves no trace, and a successful one writes exactly the report.** Whatever the
arguments and the files are, the status tells whether the run failed. -/
theorem run_effects (arguments : List String) (files : FileTree) :
    ((run arguments files).1.status ≠ 0 ↔ Fails arguments files) ∧
    ((run arguments files).1.status ≠ 0 →
      (run arguments files).1.output = "" ∧ (run arguments files).2 = files) ∧
    ((run arguments files).1.status = 0 →
      Succeeds arguments files (run arguments files).1.output (run arguments files).2) := by
  by_cases hfails : Fails arguments files
  · obtain ⟨ending, hrun, hstatus, houtput⟩ := hfails.exists_run_eq
    rw [hrun]
    exact ⟨⟨fun _ => hfails, fun _ => hstatus⟩, fun _ => ⟨houtput, rfl⟩,
      fun hzero => absurd hzero hstatus⟩
  · obtain ⟨hstatus, hsucceeds⟩ := succeeds_of_not_fails hfails
    exact ⟨⟨fun hne => absurd hstatus hne, fun h => absurd h hfails⟩,
      fun hne => absurd hstatus hne, fun _ => hsucceeds⟩

set_option maxRecDepth 8000 in
/-- A report that is saved in the place of its own catalogue, under another path. -/
theorem run_effects_in_place :
    let arguments := ["--catalogue", "d/../c.json", "render", "--output", "./c.json"]
    let catalogue := "\x7b\"environments\": [\x7b\"env\": \"E\", " ++
      "\"registers\": [\x7b\"name\": \"R\", \"x\": \"1\"\x7d]\x7d]\x7d"
    let files : FileTree := ⟨[(["d"], .directory), (["c.json"], .file catalogue.toUTF8)]⟩
    let report := "# Some system registers\n\n\n## 0. Register `R`\n\n0. E\n\n" ++
      "| Field\\Env | `0` |\n|---| ---|\n| `x` | 1 |\n"
    (run arguments files).1.status = 0 ∧
      Succeeds arguments files (run arguments files).1.output (run arguments files).2 ∧
      (run arguments files).1.output = "" ∧
      (run arguments files).2 = ⟨[(["d"], .directory), (["c.json"], .file report.toUTF8)]⟩ := by
  intro arguments catalogue files report
  have hrun : run arguments files
      = (.done "", ⟨[(["d"], .directory), (["c.json"], .file report.toUTF8)]⟩) := by
    cbv
  have hstatus : (run arguments files).1.status = 0 := by
    rw [hrun]
    rfl
  refine ⟨hstatus, (run_effects arguments files).2.2 hstatus, ?_, ?_⟩
  · rw [hrun]
    rfl
  · rw [hrun]

end RegisterTables.CommandLine
