import RegisterTables.Proofs.Building
import Mathlib.Data.Finset.Card

/-!
# Every answer of building

Building has three answers, and the list and the registers asked for decide between them alone. It
rejects an observation without a label or a name, then a register that does not occur, and else it
makes a report. Several things may be wrong at once; which of them is answered follows from three
orders: that of the list, the label before the name, and that of the registers asked for
(`ReportOptions.build_answers`).

The first flaw is found by going along the list, so it is said first what one observation more in
front does (`IsFirstMalformed.cons`), and the whole search follows by induction
(`malformed?.go_eq_some_iff`).
-/

namespace RegisterTables

/-! ### The first observation that is rejected -/

/-- What is wrong with an observation that lacks its label or its name; a missing label counts
before a missing name. -/
def Observation.rejection (o : Observation) : String :=
  if o.environment = "" then "empty environment label" else "empty register name"

/-- At this position stands the first observation without a label or without a name, and the reason
says what it lacks. -/
structure IsFirstMalformed (l : List Observation) (index : ℕ) (reason : String) : Prop where
  /-- The observation at the position lacks its label or its name. -/
  malformed : ∃ o, l[index]? = some o ∧ (o.environment = "" ∨ o.register = "") ∧
    reason = o.rejection
  /-- Those before it have both. -/
  before : ∀ i < index, ∀ o, l[i]? = some o → o.environment ≠ "" ∧ o.register ≠ ""

theorem Observation.reason_of_flaw? {o : Observation} {flaw : Flaw} (h : o.flaw? = some flaw) :
    (o.environment = "" ∨ o.register = "") ∧ flaw.reason = o.rejection := by
  unfold flaw? at h
  unfold rejection
  split_ifs at h with henv hreg
  · obtain rfl := Option.some.inj h
    exact ⟨.inl henv, by rw [if_pos henv]; rfl⟩
  · obtain rfl := Option.some.inj h
    exact ⟨.inr hreg, by rw [if_neg henv]; rfl⟩

namespace IsFirstMalformed

variable {l : List Observation} {o : Observation} {index : ℕ} {reason : String}

/-- Where there is a first malformed observation, not all can be reported. -/
theorem not_reportable (h : IsFirstMalformed l index reason) :
    ¬∀ o ∈ l, o.environment ≠ "" ∧ o.register ≠ "" := by
  obtain ⟨⟨o, ho, hempty, -⟩, -⟩ := h
  intro hl
  exact absurd hempty (not_or.2 (hl o (List.mem_of_getElem? ho)))

/-- An observation with a flaw is the first one if it stands in front. -/
theorem cons_of_flaw? {flaw : Observation.Flaw} (h : o.flaw? = some flaw) :
    IsFirstMalformed (o :: l) index reason ↔ index = 0 ∧ reason = flaw.reason := by
  obtain ⟨hempty, hreason⟩ := Observation.reason_of_flaw? h
  constructor
  · rintro ⟨⟨p, hp, -, hrejection⟩, hbefore⟩
    have hindex : index = 0 := by
      by_contra hne
      obtain ⟨henv, hreg⟩ := hbefore 0 (Nat.pos_of_ne_zero hne) o rfl
      exact hempty.elim henv hreg
    subst hindex
    obtain rfl := Option.some.inj hp
    exact ⟨rfl, hrejection.trans hreason.symm⟩
  · rintro ⟨rfl, rfl⟩
    exact ⟨⟨o, rfl, hempty, hreason⟩, fun i hi => absurd hi (Nat.not_lt_zero i)⟩

/-- An observation that can be reported moves the first flaw by one. -/
theorem cons_of_isReportable (h : o.IsReportable) :
    IsFirstMalformed (o :: l) index reason ↔ ∃ i, index = i + 1 ∧ IsFirstMalformed l i reason := by
  constructor
  · rintro ⟨⟨p, hp, hempty, hrejection⟩, hbefore⟩
    cases index with
    | zero =>
      obtain rfl := Option.some.inj hp
      exact absurd hempty (not_or.2 h)
    | succ i => exact ⟨i, rfl, ⟨p, hp, hempty, hrejection⟩,
        fun j hj => hbefore (j + 1) (Nat.succ_lt_succ hj)⟩
  · rintro ⟨i, rfl, hmalformed, hbefore⟩
    refine ⟨hmalformed, fun j hj q hq => ?_⟩
    cases j with
    | zero =>
      obtain rfl := Option.some.inj hq
      exact h
    | succ j => exact hbefore j (Nat.lt_of_succ_lt_succ hj) q hq

end IsFirstMalformed

theorem malformed?.go_eq_some_iff {l : List Observation} {i : ℕ} {e : Error} :
    malformed?.go i l = some e ↔
      ∃ index reason, e = .malformedObservation (i + index) reason ∧
        IsFirstMalformed l index reason := by
  induction l generalizing i with
  | nil =>
    constructor
    · intro h
      cases h
    · rintro ⟨index, reason, -, ⟨o, ho, -⟩, -⟩
      cases ho
  | cons o l ih =>
    rw [malformed?.go]
    cases hflaw : o.flaw? with
    | some flaw =>
      -- The search ends here, and no other position can be the first one.
      simp only [IsFirstMalformed.cons_of_flaw? hflaw]
      constructor
      · intro h
        exact ⟨0, flaw.reason, (Option.some.inj h).symm, rfl, rfl⟩
      · rintro ⟨_, _, rfl, rfl, rfl⟩
        rfl
    | none =>
      have hreportable := Observation.flaw?_eq_none_iff.1 hflaw
      -- The search goes on from `i + 1`, where the positions of the rest begin.
      simp only [IsFirstMalformed.cons_of_isReportable hreportable]
      rw [ih]
      constructor
      · rintro ⟨index, reason, rfl, h⟩
        exact ⟨index + 1, reason, by rw [Nat.add_assoc, Nat.add_comm 1], index, rfl, h⟩
      · rintro ⟨_, reason, rfl, index, rfl, h⟩
        exact ⟨index, reason, by rw [Nat.add_assoc, Nat.add_comm 1], h⟩

/-- The observation that is rejected is the first malformed one. -/
theorem malformed?_eq_some_iff {l : List Observation} {e : Error} :
    malformed? l = some e ↔
      ∃ index reason, e = .malformedObservation index reason ∧ IsFirstMalformed l index reason := by
  rw [malformed?, malformed?.go_eq_some_iff]
  simp only [Nat.zero_add]

/-- At most one observation is the first malformed one. -/
theorem IsFirstMalformed.unique {l : List Observation} {index index' : ℕ} {reason reason' : String}
    (h : IsFirstMalformed l index reason) (h' : IsFirstMalformed l index' reason') :
    index = index' ∧ reason = reason' := by
  have hsome := malformed?_eq_some_iff.2 ⟨index, reason, rfl, h⟩
  rw [malformed?_eq_some_iff.2 ⟨index', reason', rfl, h'⟩] at hsome
  cases hsome
  exact ⟨rfl, rfl⟩

/-! ### How many there are -/

/-- A set has as many names as there are different ones in the list. -/
theorem Ascending.length_ofList (l : List String) : (ofList l).length = l.toFinset.card := by
  have hnodup : (ofList l).Nodup := (pairwise_ofList l).imp ne_of_lt
  have hset : (ofList l).toFinset = l.toFinset := by
    ext s
    rw [List.mem_toFinset, List.mem_toFinset, mem_ofList]
  rw [← hset, List.toFinset_card_of_nodup hnodup]

/-- What is logged once the observations are grouped: how many there are, and of how many different
registers and environments. -/
def groupingEvent (l : List Observation) : Event :=
  .groupedObservations l.length (l.map Observation.register).toFinset.card
    (l.map Observation.environment).toFinset.card

theorem groupingEvent_eq (l : List Observation) :
    groupingEvent l = .groupedObservations l.length (groupObservations l).length
      (EnvironmentIndex.ofObservations l).size := by
  have hregisters : (groupObservations l).length = (l.map Observation.register).toFinset.card := by
    rw [← Ascending.length_ofList, ← map_register_groupObservations, List.length_map]
  have henvironments : (EnvironmentIndex.ofObservations l).size
      = (l.map Observation.environment).toFinset.card := by
    rw [← Ascending.length_ofList]
    rfl
  rw [groupingEvent, hregisters, henvironments]

/-! ### The answers -/

/-- The register is the first one asked for that no observation is of. -/
structure IsFirstUnknown (registers : List String) (l : List Observation) (register : String) :
    Prop where
  /-- It is asked for, and those asked for before it occur. -/
  before : ∃ before after, registers = before ++ register :: after ∧
    ∀ known ∈ before, ∃ o ∈ l, o.register = known
  /-- No observation is of it. -/
  unknown : ∀ o ∈ l, o.register ≠ register

theorem find?_notMem_eq_some_iff {registers : List String} {l : List Observation}
    {register : String} :
    registers.find? (· ∉ l.map Observation.register) = some register ↔
      IsFirstUnknown registers l register := by
  rw [List.find?_eq_some_iff_append]
  constructor
  · rintro ⟨hunknown, before, after, hsplit, hbefore⟩
    refine ⟨⟨before, after, hsplit, fun known hknown => ?_⟩, fun o ho heq => ?_⟩
    · simpa using hbefore known hknown
    · exact of_decide_eq_true hunknown (List.mem_map.2 ⟨o, ho, heq⟩)
  · rintro ⟨⟨before, after, hsplit, hbefore⟩, hunknown⟩
    refine ⟨decide_eq_true fun hmem => ?_, before, after, hsplit, fun known hknown => ?_⟩
    · obtain ⟨o, ho, heq⟩ := List.mem_map.1 hmem
      exact hunknown o ho heq
    · simpa using hbefore known hknown

theorem IsFirstUnknown.unique {registers : List String} {l : List Observation}
    {register register' : String} (h : IsFirstUnknown registers l register)
    (h' : IsFirstUnknown registers l register') : register = register' :=
  Option.some.inj ((find?_notMem_eq_some_iff.2 h).symm.trans (find?_notMem_eq_some_iff.2 h'))

/-- Where there is a first unknown register, not all registers asked for occur. -/
theorem IsFirstUnknown.not_known {registers : List String} {l : List Observation}
    {register : String} (h : IsFirstUnknown registers l register) :
    ¬∀ register ∈ registers, ∃ o ∈ l, o.register = register := by
  obtain ⟨before, after, rfl, -⟩ := h.before
  intro hknown
  obtain ⟨o, ho, heq⟩ := hknown register List.mem_append_cons_self
  exact h.unknown o ho heq

namespace ReportOptions

/-- The answer is the one that a list of observations and the registers asked for call for. -/
structure IsAnswer (options : ReportOptions) (l : List Observation) (answer : Logged Report) :
    Prop where
  /-- The first malformed observation is rejected, whatever registers are asked for. -/
  malformed : ∀ index reason, answer.result = .error (.malformedObservation index reason) ↔
    IsFirstMalformed l index reason
  /-- Nothing is logged before that. -/
  silent : ∀ index reason, answer.result = .error (.malformedObservation index reason) →
    answer.events = []
  /-- If there is none, the first unknown register is. -/
  unknown : ∀ register, answer.result = .error (.unknownRegister register) ↔
    (∀ o ∈ l, o.environment ≠ "" ∧ o.register ≠ "") ∧
      IsFirstUnknown options.registers l register
  /-- Only the grouping is logged before that. -/
  grouped : ∀ register, answer.result = .error (.unknownRegister register) →
    answer.events = [groupingEvent l] ∧ (groupingEvent l).level = .debug
  /-- If there is no such register either, there is a report. -/
  built : (∃ r, answer.result = .ok r) ↔
    (∀ o ∈ l, o.environment ≠ "" ∧ o.register ≠ "") ∧
      ∀ register ∈ options.registers, ∃ o ∈ l, o.register = register

variable {options : ReportOptions} {l : List Observation}

theorem isAnswer_of_malformed {index : ℕ} {reason : String} (h : IsFirstMalformed l index reason) :
    options.IsAnswer l ⟨.error (.malformedObservation index reason), []⟩ where
  malformed i r := by
    constructor
    · intro heq
      cases heq
      exact h
    · intro h'
      obtain ⟨rfl, rfl⟩ := h.unique h'
      rfl
  silent _ _ _ := rfl
  unknown _ := ⟨fun heq => (by cases heq), fun h' => absurd h'.1 h.not_reportable⟩
  grouped _ heq := by cases heq
  built := ⟨fun ⟨_, heq⟩ => (by cases heq), fun h' => absurd h'.1 h.not_reportable⟩

theorem isAnswer_of_unknown (hl : ∀ o ∈ l, o.environment ≠ "" ∧ o.register ≠ "")
    {register : String} (h : IsFirstUnknown options.registers l register) :
    options.IsAnswer l ⟨.error (.unknownRegister register), [groupingEvent l]⟩ where
  malformed _ _ := ⟨fun heq => (by cases heq), fun h' => absurd hl h'.not_reportable⟩
  silent _ _ heq := by cases heq
  unknown register' := by
    constructor
    · intro heq
      cases heq
      exact ⟨hl, h⟩
    · rintro ⟨-, h'⟩
      rw [h.unique h']
  grouped _ _ := ⟨rfl, rfl⟩
  built := ⟨fun ⟨_, heq⟩ => (by cases heq), fun h' => absurd h'.2 h.not_known⟩

theorem isAnswer_of_known (hl : ∀ o ∈ l, o.environment ≠ "" ∧ o.register ≠ "")
    (h : ∀ register ∈ options.registers, ∃ o ∈ l, o.register = register) (r : Report)
    (events : List Event) : options.IsAnswer l ⟨.ok r, events⟩ where
  malformed _ _ := ⟨fun heq => (by cases heq), fun h' => absurd hl h'.not_reportable⟩
  silent _ _ heq := by cases heq
  unknown _ := ⟨fun heq => (by cases heq), fun h' => absurd h h'.2.not_known⟩
  grouped _ heq := by cases heq
  built := ⟨fun _ => ⟨hl, h⟩, fun _ => ⟨r, rfl⟩⟩

/-- **The three answers of building**, each exactly where it is due. -/
theorem build_answers (options : ReportOptions) (l : List Observation) :
    options.IsAnswer l (options.build l) := by
  -- A flaw hides what registers are asked for, so the list comes first.
  cases hmalformed : malformed? l with
  | some e =>
    obtain ⟨index, reason, rfl, hfirst⟩ := malformed?_eq_some_iff.1 hmalformed
    rw [build, hmalformed]
    exact isAnswer_of_malformed hfirst
  | none =>
    have hl : ∀ o ∈ l, o.environment ≠ "" ∧ o.register ≠ "" := malformed?_eq_none_iff.1 hmalformed
    cases hfind : options.registers.find? (· ∉ l.map Observation.register) with
    | some register =>
      rw [build_of_unknown hl hfind, ← groupingEvent_eq]
      exact isAnswer_of_unknown hl (find?_notMem_eq_some_iff.1 hfind)
    | none =>
      have hknown : ∀ register ∈ options.registers, ∃ o ∈ l, o.register = register := by
        simpa using hfind
      rw [build_of_known hl hknown]
      exact isAnswer_of_known hl hknown _ _

/-- The second observation lacks both, the third one lacks its name, and the register asked for does
not occur. -/
example :
    let options : ReportOptions := { registers := ["Q"] }
    let l : List Observation := [⟨"a", "R", ⟨[]⟩⟩, ⟨"", "", ⟨[]⟩⟩, ⟨"b", "", ⟨[]⟩⟩]
    (options.build l).result = .error (.malformedObservation 1 "empty environment label") ∧
      (options.build l).events = [] := by
  decide

end ReportOptions

end RegisterTables
