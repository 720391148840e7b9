import Mathlib
import RegisterTables.Proofs.Catalogue.Parsed

/-!
# The first flaw is the one that is reported

Environments, their registers and the members of these are gone through in three loops, and all of
them stop at the first flaw. `readParsed_stopsAt` says where that is for parsed catalogues in either
format. If reading fails, it stops at an environment or at the entry of a register (`StopsAt`): the
catalogue in front of that place can be read, the index in the error is the number of entries there,
and nothing that stands behind the place has a part in the error. Reading succeeds exactly if there
is no such place.

What is read depends on the outline alone, and there the first flaw is known (`HasFirstFlaw`). So
the proof carries it back: where the outline has a flaw, the catalogue has a place
(`exists_of_map_eq_append_cons`), and a catalogue that differs behind the place has an outline with
the same first flaw.
-/

namespace RegisterTables.Catalogue

variable {format : Format}

/-- Reading environments stops with an error, at one of them or at an entry of its registers. -/
inductive StopsAt : List (ParsedEnvironment format) → Error → Prop where
  /-- It stops at an environment that is not proper. -/
  | environment {before after : List (ParsedEnvironment format)} {e : ParsedEnvironment format}
      {reason : String} (he : ¬e.IsProper)
      (hbefore : ∃ os, readParsed before = .ok os ∧ os.length = registerCount before)
      (hafter : ∀ after', readParsed (before ++ e :: after')
        = .error (.malformedObservation (registerCount before) reason)) :
      StopsAt (before ++ e :: after) (.malformedObservation (registerCount before) reason)
  /-- It stops at the entry of a register that is none. -/
  | register {before after : List (ParsedEnvironment format)} {e : ParsedEnvironment format}
      {registersBefore registersAfter : List (ParsedRegister format)} {r : ParsedRegister format}
      {reason : String} (he : e.IsProper)
      (hregisters : e.registers = registersBefore ++ r :: registersAfter) (hr : ¬r.IsSound)
      (hbefore : ∃ os, readParsed (before ++ [e.withRegisters registersBefore]) = .ok os ∧
        os.length = registerCount before + registersBefore.length)
      (hafter : ∀ r' registersAfter' after', r.AgreesUpToField r' →
        readParsed (before ++ e.withRegisters (registersBefore ++ r' :: registersAfter') :: after')
          = .error
            (.malformedObservation (registerCount before + registersBefore.length) reason)) :
      StopsAt (before ++ e :: after)
        (.malformedObservation (registerCount before + registersBefore.length) reason)

/-! ### Reading parsed catalogues -/

/-- Environments are read as observations exactly if their outlines make them. -/
theorem readParsed_eq_ok_iff {es : List (ParsedEnvironment format)} {os : List Observation} :
    readParsed es = .ok os ↔ Make (es.map ParsedEnvironment.entry) os := by
  rw [← readEnvironments_eq_iff, readParsed, Outline.observations, Outline.read]
  rcases readEnvironments 0 (es.map ParsedEnvironment.entry) with ⟨os', flaw?⟩
  cases flaw? <;> simp

/-- If environments cannot be read, their outlines have a first flaw. -/
theorem exists_hasFirstFlaw_of_readParsed {es : List (ParsedEnvironment format)} {e : Error}
    (h : readParsed es = .error e) :
    ∃ n flaw, HasFirstFlaw (es.map ParsedEnvironment.entry) n flaw ∧
      e = .malformedObservation n (flaw.reason format) := by
  rw [readParsed, Outline.observations, Outline.read] at h
  rcases readEnvironments_cases (es.map ParsedEnvironment.entry) with
    ⟨os, -, hread⟩ | ⟨os, flaw, hflaw, hread⟩
  · rw [hread] at h
    cases h
  · rw [hread] at h
    exact ⟨_, flaw, hflaw, (Except.error.inj h).symm⟩

/-- The first flaw of the outlines is reported. -/
theorem readParsed_of_hasFirstFlaw {es : List (ParsedEnvironment format)} {n : ℕ} {flaw : Flaw}
    (h : HasFirstFlaw (es.map ParsedEnvironment.entry) n flaw) :
    readParsed es = .error (.malformedObservation n (flaw.reason format)) := by
  obtain ⟨os, rfl, hread⟩ := h.exists_readEnvironments
  rw [readParsed, Outline.observations, Outline.read, hread]

/-- Environments make as many observations as there are entries of registers. -/
theorem length_eq_registerCount {es : List (ParsedEnvironment format)} {os : List Observation}
    (h : Make (es.map ParsedEnvironment.entry) os) : os.length = registerCount es := by
  induction es generalizing os with
  | nil =>
    cases h
    rfl
  | cons e es ih =>
    obtain ⟨label, entries, os, os', hentry, hentries, hrest, rfl⟩ := make_cons_iff.1 h
    obtain rfl := ParsedEnvironment.map_entry_registers hentry
    rw [List.length_append, ih hrest, ← hentries.length_eq, List.length_map, registerCount,
      registerCount, List.flatMap_cons, List.length_append]

/-- Environments make observations exactly if each of them is sound. -/
theorem exists_make_iff {es : List (ParsedEnvironment format)} :
    (∃ os, Make (es.map ParsedEnvironment.entry) os) ↔ ∀ e ∈ es, e.IsSound := by
  induction es with
  | nil => exact ⟨fun _ => List.forall_mem_nil _, fun _ => ⟨[], .nil⟩⟩
  | cons e es ih =>
    rw [List.forall_mem_cons, ← ih]
    constructor
    · rintro ⟨os, h⟩
      obtain ⟨label, entries, os, os', hentry, hentries, hrest, rfl⟩ := make_cons_iff.1 h
      obtain rfl := ParsedEnvironment.map_entry_registers hentry
      refine ⟨⟨ParsedEnvironment.isProper_iff.2 ⟨label, _, hentry⟩, fun r hr => ?_⟩, os', hrest⟩
      exact (ParsedRegister.isSound_iff label).2
        (exists_forall₂_iff.1 ⟨os, hentries⟩ _ (List.mem_map_of_mem hr))
    · rintro ⟨⟨hproper, hsound⟩, os', hrest⟩
      obtain ⟨label, entries, hentry⟩ := ParsedEnvironment.isProper_iff.1 hproper
      obtain rfl := ParsedEnvironment.map_entry_registers hentry
      have hentries : ∀ entry ∈ e.registers.map ParsedRegister.entry, ∃ o, entry.Makes label o :=
        List.forall_mem_map.2 fun r hr => (ParsedRegister.isSound_iff label).1 (hsound r hr)
      obtain ⟨os, hos⟩ := exists_forall₂_iff.2 hentries
      exact ⟨os ++ os', make_cons_iff.2 ⟨label, _, os, os', hentry, hos, hrest, rfl⟩⟩

/-! ### Where reading stops -/

/-- An environment that has a flaw of its own is not proper. -/
theorem not_isProper_of_offends {e : ParsedEnvironment format} {index : ℕ} {flaw : Flaw}
    (h : Offends index e.entry flaw) : ¬e.IsProper := by
  rw [ParsedEnvironment.isProper_iff]
  rintro ⟨label, entries, hentry⟩
  rw [hentry] at h
  cases h

/-- An entry that has a flaw is no register. -/
theorem not_isSound_of_offends {r : ParsedRegister format} {label : String} {flaw : Flaw}
    (h : r.entry.Offends label flaw) : ¬r.IsSound := by
  rw [ParsedRegister.isSound_iff label]
  rintro ⟨o, ho⟩
  have hread := RegisterEntry.read_eq_ofObservation_iff.2 ho
  rw [RegisterEntry.read_eq_ofFlaw_iff.2 h] at hread
  exact absurd (congrArg Reading.flaw? hread) (Option.some_ne_none flaw)

/-- A list whose image has an element in some place has an element there. -/
theorem exists_of_map_eq_append_cons {α β : Type} {f : α → β} {l : List α} {before after : List β}
    {b : β} (h : l.map f = before ++ b :: after) :
    ∃ before₀ a after₀, l = before₀ ++ a :: after₀ ∧ before₀.map f = before ∧ f a = b ∧
      after₀.map f = after := by
  obtain ⟨before₀, rest, rfl, rfl, hrest⟩ := List.map_eq_append_iff.1 h
  obtain ⟨a, after₀, rfl, rfl, rfl⟩ := List.map_eq_cons_iff.1 hrest
  exact ⟨before₀, a, after₀, rfl, rfl, rfl, rfl⟩

/-- Environments whose outlines have a first flaw stop there. -/
theorem stopsAt_of_hasFirstFlaw {es : List (ParsedEnvironment format)} {n : ℕ} {flaw : Flaw}
    (h : HasFirstFlaw (es.map ParsedEnvironment.entry) n flaw) :
    StopsAt es (.malformedObservation n (flaw.reason format)) := by
  generalize hlist : es.map ParsedEnvironment.entry = list at h
  cases h with
  | @environment before' after' entry os flaw hbefore hoffends =>
    obtain ⟨before, e, after, rfl, rfl, rfl, rfl⟩ := exists_of_map_eq_append_cons hlist
    have hcount := length_eq_registerCount hbefore
    rw [hcount]
    refine .environment (not_isProper_of_offends hoffends)
      ⟨os, readParsed_eq_ok_iff.2 hbefore, hcount⟩ fun after' => ?_
    refine readParsed_of_hasFirstFlaw ?_
    rw [List.map_append, List.map_cons, ← hcount]
    exact .environment hbefore hoffends
  | @register before' after' label registersBefore' registersAfter' entry os os' flaw hbefore
      hregisters hoffends =>
    -- The outline is taken apart twice, at the environment and at the entry of its register.
    obtain ⟨before, e, after, rfl, rfl, hentry, rfl⟩ := exists_of_map_eq_append_cons hlist
    have hmap := ParsedEnvironment.map_entry_registers hentry
    obtain ⟨registersBefore, r, registersAfter, hsplit, rfl, rfl, rfl⟩ :=
      exists_of_map_eq_append_cons hmap.symm
    have hne : e.registers ≠ [] := by
      rw [hsplit]
      exact List.append_ne_nil_of_right_ne_nil _ (List.cons_ne_nil _ _)
    have hwith := ParsedEnvironment.entry_withRegisters hentry hne
    have hcount := length_eq_registerCount hbefore
    have hlength : os'.length = registersBefore.length := by
      rw [← hregisters.length_eq, List.length_map]
    rw [hcount, hlength]
    refine .register (ParsedEnvironment.isProper_iff.2 ⟨label, _, hentry⟩) hsplit
      (not_isSound_of_offends hoffends) ⟨os ++ os', ?_, ?_⟩ ?_
    · -- With the registers in front of the flaw, the environment makes their observations.
      rw [readParsed_eq_ok_iff, List.map_append, List.map_singleton, hwith]
      refine hbefore.append ?_
      rw [← List.append_nil os']
      exact .cons hregisters .nil
    · rw [List.length_append, hcount, hlength]
    · -- An entry that agrees up to the field is read alike, so its flaw is the same.
      intro r' registersAfter' after' hagrees
      refine readParsed_of_hasFirstFlaw ?_
      have hoffends' : r'.entry.Offends label flaw := by
        rw [← RegisterEntry.read_eq_ofFlaw_iff, ParsedRegister.read_entry_of_agrees hagrees]
        exact RegisterEntry.read_eq_ofFlaw_iff.2 hoffends
      rw [List.map_append, List.map_cons, hwith, List.map_append, List.map_cons, ← hcount,
        ← hlength]
      exact .register hbefore hregisters hoffends'

/-- **The first flaw is the one that is reported.** A text is read as the catalogue that it is
parsed to. If that fails, it stops at a place such that what stands in front of it is read, as many
entries as the index of the error says, and what stands behind it does not matter. It succeeds
exactly if all environments are sound, and then it makes an observation of each entry. -/
theorem readParsed_stopsAt (format : Format) (es : List (ParsedEnvironment format)) :
    (∀ e, readParsed es = .error e → StopsAt es e) ∧
    ((∀ e ∈ es, e.IsSound) ↔ ∃ os, readParsed es = .ok os ∧ os.length = registerCount es) ∧
    ∀ origin text, IsParsedTo text es → (parse origin text format).result = readParsed es := by
  refine ⟨fun e h => ?_, ?_, fun origin text h => result_parse_of_isParsedTo h origin⟩
  · obtain ⟨n, flaw, hflaw, rfl⟩ := exists_hasFirstFlaw_of_readParsed h
    exact stopsAt_of_hasFirstFlaw hflaw
  · rw [← exists_make_iff]
    constructor
    · rintro ⟨os, hmake⟩
      exact ⟨os, readParsed_eq_ok_iff.2 hmake, length_eq_registerCount hmake⟩
    · rintro ⟨os, hread, -⟩
      exact ⟨os, readParsed_eq_ok_iff.1 hread⟩

/-- The second register of the second environment has two fields that are no scalars, and they are
not written in the order of their names. -/
theorem readParsed_stopsAt_notScalar :
    let text := "[[environment]]\nname='a'\n[[environment]]\nname='e'\n" ++
      "[[environment.register]]\nname='R'\n[[environment.register]]\nb=[]\nname='S'\na=[]"
    let s : Toml.Value :=
      .table [(⟨"a", 49⟩, .array []), (⟨"b", 40⟩, .array []), (⟨"name", 45⟩, .string "S")]
    let es : List (ParsedEnvironment .toml) :=
      [Toml.Value.table [(⟨"name", 6⟩, .string "a")],
        Toml.Value.table [(⟨"name", 16⟩, .string "e"),
          (⟨"register", 24⟩, .array [.table [(⟨"name", 28⟩, .string "R")], s])]]
    let e : Error := .malformedObservation 1 "field `b` of S in \"e\" is not a scalar"
    IsParsedTo text es ∧ (parse "c" text .toml).result = .error e ∧ StopsAt es e := by
  intro text s es e
  have hlexemes : Toml.lexemes text = Toml.placed 0
      [.leftBracket, .leftBracket, .word "environment".toList, .rightBracket, .rightBracket,
        .newline, .word "name".toList, .equals, .string ['a'] false, .newline,
        .leftBracket, .leftBracket, .word "environment".toList, .rightBracket, .rightBracket,
        .newline, .word "name".toList, .equals, .string ['e'] false, .newline,
        .leftBracket, .leftBracket, .word "environment".toList, .period, .word "register".toList,
        .rightBracket, .rightBracket, .newline,
        .word "name".toList, .equals, .string ['R'] false, .newline,
        .leftBracket, .leftBracket, .word "environment".toList, .period, .word "register".toList,
        .rightBracket, .rightBracket, .newline,
        .word ['b'], .equals, .leftBracket, .rightBracket, .newline,
        .word "name".toList, .equals, .string ['S'] false, .newline,
        .word ['a'], .equals, .leftBracket, .rightBracket] := by
    decide +kernel
  have hparsed : IsParsedTo text es := by
    refine ⟨[(⟨"environment", 2⟩, .array es)], ?_, rfl⟩
    rw [Toml.Table.parse, hlexemes]
    cbv
  have houtline : es.map ParsedEnvironment.entry = [some ⟨some "a", some []⟩,
      some ⟨some "e", some [some [("name", .string "R")],
        some [("b", .compound), ("name", .string "S"), ("a", .compound)]]⟩] := by
    cbv
  have hread : readParsed es = .error e := by
    rw [readParsed, houtline]
    decide +kernel
  obtain ⟨hstops, -, hresult⟩ := readParsed_stopsAt .toml es
  exact ⟨hparsed, (hresult "c" text hparsed).trans hread, hstops e hread⟩

end RegisterTables.Catalogue
