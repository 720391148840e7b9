import RegisterTables.Proofs.Catalogue.Reading
import RegisterTables.Proofs.Catalogue.TomlLines
import RegisterTables.Proofs.Toml.Assembly

/-!
# Catalogues in TOML are read as they were written

`Catalogue.parse_tomlText`: a list of environments that is written as a TOML text is read back from
it, whatever the strings hold and however they are spelled. Each register becomes an observation, in
the order of the text, with its fields in the order of their lines.

The tables of a text are kept by the names of their keys, so the order of the fields comes from the
places of these (`Catalogue.writtenOrder_eq`), which ascend within a paragraph
(`Catalogue.pairwise_bodyFrom`). The headers of the registers of an environment follow its own
header, which makes runs of them (`Catalogue.map_tail_blocksFrom`): an environment without registers
has a run of its own as well.
-/

namespace RegisterTables.Catalogue

open Toml (Key Expr Body Block Run Table Value Spelling)

/-! ### The order of the text -/

/-- The places of the keys ascend. -/
theorem pairwise_writtenOrder (t : Table) :
    (writtenOrder t).Pairwise fun a b => decide (a.1.place ≤ b.1.place) = true := by
  refine List.pairwise_mergeSort ?_ ?_ t
  · intro a b c hab hbc
    exact decide_eq_true (le_trans (of_decide_eq_true hab) (of_decide_eq_true hbc))
  · intro a b
    rw [Bool.or_eq_true, decide_eq_true_eq, decide_eq_true_eq]
    exact le_total _ _

/-- The order in which the keys ascend is the order in which they are written. -/
theorem writtenOrder_eq {t written : Table} (hperm : written.Perm t)
    (hascending : written.Pairwise fun a b => a.1.place < b.1.place) :
    writtenOrder t = written := by
  have hwritten : (writtenOrder t).Perm written := (List.mergeSort_perm t _).trans hperm.symm
  have hplaces : (written.map (·.1.place)).Nodup :=
    List.pairwise_map.2 (hascending.imp fun h => Nat.ne_of_lt h)
  refine List.Perm.eq_of_pairwise ?_ (pairwise_writtenOrder t)
    (hascending.imp fun h => decide_eq_true (Nat.le_of_lt h)) hwritten
  -- No two entries have the same place, so the order leaves no choice.
  intro x y hx hy hxy hyx
  refine List.inj_on_of_nodup_map hplaces (hwritten.mem_iff.1 hx) hy ?_
  exact le_antisymm (of_decide_eq_true hxy) (of_decide_eq_true hyx)

/-! ### The table of a paragraph -/

/-- The value of a string. Nothing else is written. -/
def stringValue : Expr → Value
  | .string s => .string s
  | _ => .string ""

/-- The entries of a table in the order of their lines. -/
def writtenFrom (n : ℕ) (entries : List (String × String)) : Table :=
  (bodyFrom n entries).map fun p => (p.1, stringValue p.2)

/-- The table of some lines. -/
def tableFrom (n : ℕ) (entries : List (String × String)) : Table :=
  Table.insertEach [] (writtenFrom n entries)

theorem map_name_bodyFrom (n : ℕ) (entries : List (String × String)) :
    (bodyFrom n entries).map (·.1.name) = entries.map Prod.fst := by
  induction entries generalizing n with
  | nil => rfl
  | cons entry entries ih => rw [bodyFrom, List.map_cons, ih, List.map_cons]

theorem exists_string_of_mem_bodyFrom {n : ℕ} {entries : List (String × String)} {p : Key × Expr}
    (h : p ∈ bodyFrom n entries) : n ≤ p.1.place ∧ ∃ s, p.2 = .string s := by
  induction entries generalizing n with
  | nil => simp [bodyFrom] at h
  | cons entry entries ih =>
    rcases List.mem_cons.1 h with rfl | h
    · exact ⟨Nat.le_refl n, _, rfl⟩
    · exact ⟨Nat.le_trans (Nat.le_add_right n 6) (ih h).1, (ih h).2⟩

/-- The keys stand in the order of their lines. -/
theorem pairwise_bodyFrom (n : ℕ) (entries : List (String × String)) :
    (bodyFrom n entries).Pairwise fun a b => a.1.place < b.1.place := by
  induction entries generalizing n with
  | nil => exact List.Pairwise.nil
  | cons entry entries ih =>
    refine List.pairwise_cons.2 ⟨?_, ih (n + 6)⟩
    intro p hp
    have hplace : n + 6 ≤ p.1.place := (exists_string_of_mem_bodyFrom hp).1
    show n < p.1.place
    omega

theorem isPlain_bodyFrom (n : ℕ) {entries : List (String × String)}
    (h : (entries.map Prod.fst).Nodup) : (bodyFrom n entries).IsPlain stringValue := by
  refine ⟨?_, ?_, by rwa [map_name_bodyFrom]⟩
  · intro p hp
    obtain ⟨-, s, hs⟩ := exists_string_of_mem_bodyFrom hp
    obtain ⟨key, e⟩ := p
    subst hs
    rfl
  · intro p hp
    obtain ⟨-, s, hs⟩ := exists_string_of_mem_bodyFrom hp
    rw [hs, Expr.value, stringValue]

theorem map_content_writtenFrom (n : ℕ) (entries : List (String × String)) :
    (writtenFrom n entries).map (fun p => (p.1.name, contentOfToml p.2))
      = entries.map fun f => (f.1, .string f.2) := by
  induction entries generalizing n with
  | nil => rfl
  | cons entry entries ih =>
    rw [writtenFrom, bodyFrom, List.map_cons, List.map_cons, ← writtenFrom, ih, List.map_cons]
    rfl

/-- The members of a table are found in the order of their lines, not of their names. -/
theorem registerOfToml_tableFrom (n : ℕ) (entries : List (String × String)) :
    registerOfToml (.table (tableFrom n entries))
      = some (entries.map fun f => (f.1, .string f.2)) := by
  have hperm : (writtenFrom n entries).Perm (tableFrom n entries) :=
    (Table.perm_insertEach [] _).symm
  have hascending : (writtenFrom n entries).Pairwise fun a b => a.1.place < b.1.place :=
    List.pairwise_map.2 (pairwise_bodyFrom n entries)
  rw [registerOfToml, writtenOrder_eq hperm hascending]
  exact congrArg some (map_content_writtenFrom n entries)

/-! ### Registers -/

namespace RegisterRecord

/-- The lines of a register: its name, and its fields. -/
def entries (r : RegisterRecord) : List (String × String) :=
  (nameKey, r.name) :: r.fields

theorem nodup_entries (r : RegisterRecord) : (r.entries.map Prod.fst).Nodup :=
  List.nodup_cons.2 ⟨r.nameKey_notMem, r.nodup⟩

/-- The entry of a register in an outline. -/
def entry (r : RegisterRecord) : RegisterEntry :=
  some (r.entries.map fun f => (f.1, .string f.2))

/-- The entry of a register makes its observation. -/
theorem read_entry (label : String) (r : RegisterRecord) :
    r.entry.read label = .ofObservation (r.observation label) := by
  have htexts : fieldTexts (r.entries.map fun f => (f.1, .string f.2)) = r.fields := by
    have hfields (fields : List (String × String)) (h : nameKey ∉ fields.map Prod.fst) :
        fieldTexts (fields.map fun f => (f.1, .string f.2)) = fields := by
      induction fields with
      | nil => rfl
      | cons f fields ih =>
        rw [List.map_cons, List.mem_cons, not_or] at h
        rw [List.map_cons, fieldTexts, List.filterMap_cons, if_neg (Ne.symm h.1)]
        exact congrArg (f :: ·) (ih h.2)
    rw [entries, List.map_cons, fieldTexts, List.filterMap_cons, if_pos rfl]
    exact hfields r.fields r.nameKey_notMem
  have hname : (r.entries.map fun f => (f.1, Content.string f.2)).lookup nameKey
      = some (.string r.name) := by
    rw [entries, List.map_cons, List.lookup_cons_self]
  rw [entry, RegisterEntry.read_eq_ofObservation hname, htexts]
  · rfl
  · intro m hm _
    obtain ⟨f, -, rfl⟩ := List.mem_map.1 hm
    rfl

end RegisterRecord

/-- The tables of registers are found below their headers, and make the entries of the registers. -/
theorem mapM_registers (depth n : ℕ) (rs : List RegisterRecord) :
    ∃ tables : List Table,
      ((blocksFrom n (rs.map RegisterRecord.paragraph)).map fun b => (b.tail.tail, [])).mapM
        (fun r : Run => Table.assemble depth r.1.body r.2) = .ok tables ∧
      tables.map (fun t => registerOfToml (.table t)) = rs.map RegisterRecord.entry := by
  induction rs generalizing n with
  | nil => exact ⟨[], rfl, rfl⟩
  | cons r rs ih =>
    obtain ⟨tables, htables, hentries⟩ := ih (n + r.paragraph.tokens.length)
    have htable := (isPlain_bodyFrom (n + r.paragraph.headerTokens.length)
      r.nodup_entries).assemble_nil depth
    refine ⟨tableFrom (n + r.paragraph.headerTokens.length) r.entries :: tables, ?_, ?_⟩
    · rw [List.map_cons, blocksFrom, List.map_cons, List.mapM_cons, htables]
      show (Table.assemble depth (bodyFrom _ r.entries) []).bind _ = _
      rw [htable]
      rfl
    · rw [List.map_cons, registerOfToml_tableFrom, hentries, List.map_cons]
      rfl

/-! ### Blocks -/

theorem blocksFrom_append (n : ℕ) (ps qs : List Paragraph) :
    blocksFrom n (ps ++ qs)
      = blocksFrom n ps ++ blocksFrom (n + (ps.flatMap Paragraph.tokens).length) qs := by
  induction ps generalizing n with
  | nil => rfl
  | cons p ps ih =>
    rw [List.cons_append, blocksFrom, ih, blocksFrom, List.cons_append, List.flatMap_cons,
      List.length_append, Nat.add_assoc]

theorem exists_of_mem_blocksFrom {n : ℕ} {ps : List Paragraph} {b : Block}
    (h : b ∈ blocksFrom n ps) : ∃ p ∈ ps, ∃ m, b = p.block m := by
  induction ps generalizing n with
  | nil => simp [blocksFrom] at h
  | cons p ps ih =>
    rcases List.mem_cons.1 h with rfl | h
    · exact ⟨p, List.mem_cons_self, n, rfl⟩
    · obtain ⟨q, hq, hb⟩ := ih h
      exact ⟨q, List.mem_cons_of_mem _ hq, hb⟩

theorem exists_block_mem_blocksFrom {ps : List Paragraph} {p : Paragraph} (h : p ∈ ps) (n : ℕ) :
    ∃ m, p.block m ∈ blocksFrom n ps := by
  induction ps generalizing n with
  | nil => simp at h
  | cons q ps ih =>
    rcases List.mem_cons.1 h with rfl | h
    · exact ⟨n, List.mem_cons_self⟩
    · obtain ⟨m, hm⟩ := ih h (n + q.tokens.length)
      exact ⟨m, List.mem_cons_of_mem _ hm⟩

/-- All headers lead into the list of environments. -/
theorem startsWith_environment {n : ℕ} {ps : List Paragraph} :
    ∀ b ∈ blocksFrom n ps, b.StartsWith "environment" := by
  intro b hb
  obtain ⟨p, -, m, rfl⟩ := exists_of_mem_blocksFrom hb
  cases p with
  | environment label => exact ⟨_, _, rfl, rfl⟩
  | register name fields => exact ⟨_, _, rfl, rfl⟩

/-! ### Environments -/

namespace EnvironmentRecord

/-- The number of tokens of an environment with its registers. -/
def tokenCount (e : EnvironmentRecord) : ℕ :=
  ((paragraphs [e]).flatMap Paragraph.tokens).length

/-- The headers of the registers of an environment whose first token is at `n`, behind the part that
leads to the environment. -/
def registerBlocks (n : ℕ) (e : EnvironmentRecord) : List Block :=
  (blocksFrom (n + (Paragraph.environment e.label).tokens.length)
    (e.registers.map RegisterRecord.paragraph)).map Block.tail

/-- The headers of an environment whose first token is at `n`. -/
def run (n : ℕ) (e : EnvironmentRecord) : Run :=
  (((Paragraph.environment e.label).block n).tail, e.registerBlocks n)

/-- The entry of an environment in an outline. -/
def entry (e : EnvironmentRecord) : Option EnvironmentEntry :=
  some ⟨some e.label, some (e.registers.map RegisterRecord.entry)⟩

/-- The headers of registers lead on from the environment into its list of registers. -/
theorem startsWith_register (n : ℕ) (e : EnvironmentRecord) :
    ∀ b ∈ e.registerBlocks n, b.StartsWith "register" := by
  intro b hb
  obtain ⟨b', hb', rfl⟩ := List.mem_map.1 hb
  obtain ⟨p, hp, m, rfl⟩ := exists_of_mem_blocksFrom hb'
  obtain ⟨r, -, rfl⟩ := List.mem_map.1 hp
  exact ⟨_, _, rfl, rfl⟩

/-- The headers of the registers behind the parts that lead to them: each is a run on its own. -/
def registerRuns (n : ℕ) (e : EnvironmentRecord) : List Run :=
  (blocksFrom (n + (Paragraph.environment e.label).tokens.length)
    (e.registers.map RegisterRecord.paragraph)).map fun b => (b.tail.tail, [])

theorem map_tail_registerBlocks (n : ℕ) (e : EnvironmentRecord) :
    (e.registerBlocks n).map Block.tail = (e.registerRuns n).flatMap Run.blocks := by
  rw [registerBlocks, registerRuns, List.map_map, List.flatMap_map]
  exact List.map_eq_flatMap

theorem isElement_registerRuns (n : ℕ) (e : EnvironmentRecord) :
    ∀ r ∈ e.registerRuns n, r.IsElement := by
  intro r hr
  obtain ⟨b, hb, rfl⟩ := List.mem_map.1 hr
  obtain ⟨p, hp, m, rfl⟩ := exists_of_mem_blocksFrom hb
  obtain ⟨q, -, rfl⟩ := List.mem_map.1 hp
  exact ⟨rfl, rfl, by simp⟩

/-- The headers of an environment make an element. -/
theorem isElement_run (n : ℕ) (e : EnvironmentRecord) : (e.run n).IsElement := by
  refine ⟨rfl, rfl, ?_⟩
  intro b hb
  obtain ⟨key, path, hpath, -⟩ := e.startsWith_register n b hb
  rw [Block.isDefinition, hpath]
  rfl

theorem blocks_run (n : ℕ) (e : EnvironmentRecord) :
    (e.run n).blocks = (blocksFrom n (paragraphs [e])).map Block.tail := by
  rw [paragraphs, List.flatMap_singleton]
  rfl

/-- The table of an environment that has only its name. -/
theorem environmentOfToml_tableFrom (n : ℕ) (label : String) :
    environmentOfToml (.table (tableFrom n [("name", label)])) = some ⟨some label, some []⟩ := rfl

/-- The table of an environment that has an array of registers as well. -/
theorem environmentOfToml_tableFrom_insert (n : ℕ) (label : String) {key : Key}
    (hkey : key.name = "register") (items : List Value) :
    environmentOfToml (.table ((tableFrom n [("name", label)]).insert key (.array items)))
      = some ⟨some label, some (items.map registerOfToml)⟩ := by
  have hnew : (tableFrom n [("name", label)]).contains key.name = false := by
    rw [hkey]
    rfl
  have hget (name : String) := Table.get?_insert hnew (.array items) name
  have hlabel : ((tableFrom n [("name", label)]).insert key (.array items)).get? "name"
      = some (.string label) := by
    rw [hget, hkey]
    rfl
  have hregisters : ((tableFrom n [("name", label)]).insert key (.array items)).get? "register"
      = some (.array items) := by
    rw [hget, if_pos hkey]
  rw [environmentOfToml, arrayOfToml, Format.labelKey, Format.registersKey, hlabel, hregisters]
  rfl

/-- The headers of an environment make a table with its entry. Registers need a level of their
own. -/
theorem exists_table {depth : ℕ} (n : ℕ) (e : EnvironmentRecord)
    (hdepth : e.registers ≠ [] → depth ≠ 0) :
    ∃ t, Table.assemble depth (e.run n).1.body (e.run n).2 = .ok t ∧
      environmentOfToml (.table t) = e.entry := by
  have hbody : (bodyFrom (n + 6) [("name", e.label)]).IsPlain stringValue :=
    isPlain_bodyFrom (n + 6) (by simp)
  show ∃ t, Table.assemble depth (bodyFrom (n + 6) [("name", e.label)]) (e.registerBlocks n)
    = .ok t ∧ _
  -- Without registers no header leads further, and any depth will do.
  by_cases hrs : e.registers = []
  · refine ⟨tableFrom (n + 6) [("name", e.label)], ?_, ?_⟩
    · rw [registerBlocks, hrs]
      exact hbody.assemble_nil depth
    · rw [environmentOfToml_tableFrom, entry, hrs, List.map_nil]
  · obtain ⟨depth, rfl⟩ := Nat.exists_eq_succ_of_ne_zero (hdepth hrs)
    obtain ⟨tables, htables, hentries⟩ :=
      mapM_registers depth (n + (Paragraph.environment e.label).tokens.length) e.registers
    have hname : "register" ∉ (bodyFrom (n + 6) [("name", e.label)]).map (·.1.name) := by
      rw [map_name_bodyFrom, List.map_singleton, List.mem_singleton]
      show "register" ≠ "name"
      decide
    have hne : (e.registerRuns n) ≠ [] := by
      obtain ⟨r, rs, hcons⟩ := List.exists_cons_of_ne_nil hrs
      simp [registerRuns, hcons, blocksFrom]
    obtain ⟨key, hkey, htable⟩ := Table.assemble_elements hbody hname (e.startsWith_register n)
      (e.map_tail_registerBlocks n) hne (e.isElement_registerRuns n) htables
    refine ⟨_, htable, ?_⟩
    show environmentOfToml (.table ((tableFrom (n + 6) [("name", e.label)]).insert key _)) = _
    rw [environmentOfToml_tableFrom_insert _ _ hkey, List.map_map, entry, ← hentries]
    rfl

end EnvironmentRecord

/-! ### The catalogue -/

/-- The runs of environments, the first of which starts at token `n`. -/
def runsFrom (n : ℕ) : List EnvironmentRecord → List Run
  | [] => []
  | e :: es => e.run n :: runsFrom (n + e.tokenCount) es

theorem paragraphs_cons (e : EnvironmentRecord) (es : List EnvironmentRecord) :
    paragraphs (e :: es) = paragraphs [e] ++ paragraphs es := by
  rw [paragraphs, paragraphs, paragraphs, List.flatMap_singleton, List.flatMap_cons]

/-- The headers of a catalogue are the runs of its environments. -/
theorem map_tail_blocksFrom (n : ℕ) (es : List EnvironmentRecord) :
    (blocksFrom n (paragraphs es)).map Block.tail = (runsFrom n es).flatMap Run.blocks := by
  induction es generalizing n with
  | nil => rfl
  | cons e es ih =>
    rw [paragraphs_cons, blocksFrom_append, List.map_append, ← e.blocks_run, runsFrom,
      List.flatMap_cons, ← EnvironmentRecord.tokenCount, ih]

theorem isElement_runsFrom (n : ℕ) (es : List EnvironmentRecord) :
    ∀ r ∈ runsFrom n es, r.IsElement := by
  induction es generalizing n with
  | nil => simp [runsFrom]
  | cons e es ih =>
    intro r hr
    rcases List.mem_cons.1 hr with rfl | hr
    · exact e.isElement_run n
    · exact ih (n + e.tokenCount) r hr

/-- The tables of environments make their entries. -/
theorem mapM_runsFrom {depth : ℕ} (n : ℕ) (es : List EnvironmentRecord)
    (hdepth : ∀ e ∈ es, e.registers ≠ [] → depth ≠ 0) :
    ∃ tables : List Table,
      (runsFrom n es).mapM (fun r : Run => Table.assemble depth r.1.body r.2) = .ok tables ∧
      tables.map (fun t => environmentOfToml (.table t)) = es.map EnvironmentRecord.entry := by
  induction es generalizing n with
  | nil => exact ⟨[], rfl, rfl⟩
  | cons e es ih =>
    obtain ⟨t, ht, hentry⟩ := e.exists_table n (hdepth e List.mem_cons_self)
    obtain ⟨tables, htables, hentries⟩ :=
      ih (n + e.tokenCount) fun e' he' => hdepth e' (List.mem_cons_of_mem _ he')
    refine ⟨t :: tables, ?_, ?_⟩
    · rw [runsFrom, List.mapM_cons, ht, htables]
      rfl
    · rw [List.map_cons, List.map_cons, hentry, hentries]

/-- A header is as long as the nesting of its table. -/
theorem length_path_le {n : ℕ} {ps : List Paragraph} {p : Paragraph} (h : p ∈ ps) :
    (p.path 0).length ≤ (((blocksFrom n ps).map (·.path.length)).max?.getD 0) := by
  obtain ⟨m, hm⟩ := exists_block_mem_blocksFrom h n
  have hlength : (p.path 0).length = (p.block m).path.length := by cases p <;> rfl
  rw [hlength]
  exact List.le_max?_getD_of_mem (List.mem_map_of_mem hm)

/-- The table of a document of environments has their entries. -/
theorem exists_ofDocument (es : List EnvironmentRecord) :
    ∃ t, Table.ofDocument ⟨[], blocksFrom 0 (paragraphs es)⟩ = .ok t ∧
      Outline.ofToml t = some (es.map EnvironmentRecord.entry) := by
  rw [Table.ofDocument]
  by_cases hes : es = []
  · subst hes
    exact ⟨[], rfl, rfl⟩
  obtain ⟨e, es', hcons⟩ := List.exists_cons_of_ne_nil hes
  have henvironment : .environment e.label ∈ paragraphs es := by
    rw [hcons, paragraphs, List.flatMap_cons]
    simp
  -- The longest header has a part for the environment, and another one if there is a register.
  have hdepth := length_path_le (n := 0) henvironment
  generalize hd : ((blocksFrom 0 (paragraphs es)).map (·.path.length)).max?.getD 0 = d at hdepth ⊢
  obtain ⟨depth, rfl⟩ := Nat.exists_eq_succ_of_ne_zero (Nat.ne_of_gt hdepth)
  have hinner : ∀ e ∈ es, e.registers ≠ [] → depth ≠ 0 := by
    intro e he hrs
    obtain ⟨r, rs, hr⟩ := List.exists_cons_of_ne_nil hrs
    have hregister : r.paragraph ∈ paragraphs es := by
      refine List.mem_flatMap.2 ⟨e, he, List.mem_cons_of_mem _ ?_⟩
      rw [hr]
      exact List.mem_map_of_mem List.mem_cons_self
    have hlong := length_path_le (n := 0) hregister
    rw [hd] at hlong
    have htwo : (r.paragraph.path 0).length = 2 := rfl
    omega
  obtain ⟨tables, htables, hentries⟩ := mapM_runsFrom 0 es hinner
  have hplain : Body.IsPlain [] stringValue := ⟨by simp, by simp, List.nodup_nil⟩
  have hname : "environment" ∉ ([] : Body).map (·.1.name) := List.not_mem_nil
  obtain ⟨key, hkey, htable⟩ := Table.assemble_elements hplain hname
    startsWith_environment (map_tail_blocksFrom 0 es) (by simp [hcons, runsFrom])
    (isElement_runsFrom 0 es) htables
  refine ⟨_, htable, ?_⟩
  obtain ⟨keyName, place⟩ := key
  obtain rfl : keyName = "environment" := hkey
  rw [← hentries]
  show some ((tables.map Value.table).map environmentOfToml) = _
  rw [List.map_map]
  rfl

/-- **Catalogues in TOML are read as they were written.** From the text of a list of environments,
whose strings may be spelled in any way, one observation is read for each register, in the order of
the text, with its fields in the order of their lines. All environments are counted, also those
without registers. -/
theorem parse_tomlText (spelling : Spelling) (origin : String) (es : List EnvironmentRecord) :
    parse origin (tomlText spelling es) .toml
      = ⟨.ok (recordedObservations es),
          [.loadedCatalogue origin es.length (recordedObservations es).length]⟩ := by
  obtain ⟨t, ht, houtline⟩ := exists_ofDocument es
  have hparse : Table.parse (tomlText spelling es) = .ok t := by
    rw [Table.parse, Toml.lexemes_eq_placed, ofText_tomlText, ofLexemes_paragraphs]
    exact ht
  have hread : Outline.read (some (es.map EnvironmentRecord.entry))
      = ⟨recordedObservations es, none⟩ :=
    read_map fun e _ r _ => r.read_entry e.label
  have houtlined : outline (tomlText spelling es) .toml
      = .ok (some (es.map EnvironmentRecord.entry)) := by
    rw [outline, hparse, ← houtline]
  rw [parse_eq_ok houtlined hread, Outline.size, List.length_map]

end RegisterTables.Catalogue
