import RegisterTables.Proofs.Failure
import RegisterTables.Toml.Table

/-!
# What holds of every entry

A table is put together from the bodies of a document: entries of dotted keys are gathered, headers
are cut into branches, and elements become arrays. None of this touches a key whose value has no
parts, so what holds of all of them in the document holds of all of them in the table, however deep
they are in either (`Table.allEntries_ofDocument`).
-/

namespace RegisterTables.Toml

/-- Whether a value has no parts. -/
def Value.isScalar : Value → Bool
  | .array _ | .table _ => false
  | _ => true

/-- All entries within a value that have no parts have a property. -/
inductive Value.AllEntries (Q : Key → Value → Prop) : Value → Prop where
  | scalar {v : Value} (h : v.isScalar = true) : AllEntries Q v
  | array {items : List Value} (h : ∀ v ∈ items, AllEntries Q v) : AllEntries Q (.array items)
  | table {t : Table} (hscalars : ∀ p ∈ t, p.2.isScalar = true → Q p.1 p.2)
      (hparts : ∀ p ∈ t, AllEntries Q p.2) : AllEntries Q (.table t)

/-- All entries within a value as it is written have a property, if they have no parts. -/
inductive Expr.AllEntries (Q : Key → Value → Prop) : Expr → Prop where
  | string (text : String) : AllEntries Q (.string text)
  | bool (b : Bool) : AllEntries Q (.bool b)
  | number (text : String) : AllEntries Q (.number text)
  | array {items : List Expr} (h : ∀ e ∈ items, AllEntries Q e) : AllEntries Q (.array items)
  | inline {body : Body}
      (hscalars : ∀ p ∈ body, ∀ v, p.2.value = .ok v → v.isScalar = true → Q p.1 v)
      (hparts : ∀ p ∈ body, AllEntries Q p.2) : AllEntries Q (.inline body)
  | group {body : Body}
      (hscalars : ∀ p ∈ body, ∀ v, p.2.value = .ok v → v.isScalar = true → Q p.1 v)
      (hparts : ∀ p ∈ body, AllEntries Q p.2) : AllEntries Q (.group body)

variable {Q : Key → Value → Prop}

/-- All entries of a table and within its values have a property, if they have no parts. -/
def Table.AllEntries (Q : Key → Value → Prop) (t : Table) : Prop :=
  ∀ p ∈ t, (p.2.isScalar = true → Q p.1 p.2) ∧ p.2.AllEntries Q

/-- All entries of a body and within its values have a property, if they have no parts. -/
def Body.AllEntries (Q : Key → Value → Prop) (body : Body) : Prop :=
  ∀ p ∈ body, (∀ v, p.2.value = .ok v → v.isScalar = true → Q p.1 v) ∧ p.2.AllEntries Q

theorem Value.allEntries_table_iff {t : Table} :
    Value.AllEntries Q (.table t) ↔ t.AllEntries Q := by
  constructor
  · intro h
    cases h with
    | scalar h => cases h
    | table hscalars hparts => exact fun p hp => ⟨hscalars p hp, hparts p hp⟩
  · exact fun h => .table (fun p hp => (h p hp).1) fun p hp => (h p hp).2

theorem Value.allEntries_array_iff {items : List Value} :
    Value.AllEntries Q (.array items) ↔ ∀ v ∈ items, v.AllEntries Q := by
  constructor
  · intro h
    cases h with
    | scalar h => cases h
    | array h => exact h
  · exact .array

theorem Expr.allEntries_group_iff {body : Body} :
    Expr.AllEntries Q (.group body) ↔ body.AllEntries Q := by
  constructor
  · intro h
    cases h with
    | group hscalars hparts => exact fun p hp => ⟨hscalars p hp, hparts p hp⟩
  · exact fun h => .group (fun p hp => (h p hp).1) fun p hp => (h p hp).2

/-! ### Values as they are written -/

/-- The items of an array have their values one by one. -/
theorem Expr.values_eq_mapM (items : List Expr) : Expr.values items = items.mapM Expr.value := by
  induction items with
  | nil => rfl
  | cons e items ih => rw [Expr.values, List.mapM_cons, ih]

/-- Entries are added under their keys. -/
theorem Table.exists_of_mem_insertAll {t t' : Table} {body : Body}
    (h : t.insertAll body = .ok t') :
    ∀ p ∈ t', p ∈ t ∨ ∃ e, (p.1, e) ∈ body ∧ e.value = .ok p.2 := by
  induction body generalizing t with
  | nil =>
    rw [insertAll] at h
    obtain rfl := Except.ok.inj h
    exact fun p hp => .inl hp
  | cons q body ih =>
    obtain ⟨key, e⟩ := q
    rw [insertAll] at h
    split at h
    · cases h
    · obtain ⟨v, hv, h⟩ := bind_eq_ok.1 h
      intro p hp
      rcases ih h p hp with hmem | ⟨e', he', hvalue⟩
      · rcases mem_insert.1 hmem with rfl | hmem
        · exact .inr ⟨e, List.mem_cons_self, hv⟩
        · exact .inl hmem
      · exact .inr ⟨e', List.mem_cons_of_mem _ he', hvalue⟩

/-- What is written has the property of its entries as a value, too. -/
theorem Expr.AllEntries.value {e : Expr} (h : e.AllEntries Q) {v : Value} (hv : e.value = .ok v) :
    v.AllEntries Q := by
  have htable {body : Body} {t : Table} (ht : Table.insertAll [] body = .ok t)
      (hscalars : ∀ p ∈ body, ∀ v, p.2.value = .ok v → v.isScalar = true → Q p.1 v)
      (hparts : ∀ p ∈ body, ∀ {v}, p.2.value = .ok v → v.AllEntries Q) :
      Value.AllEntries Q (.table t) := by
    refine Value.allEntries_table_iff.2 fun p hp => ?_
    rcases Table.exists_of_mem_insertAll ht p hp with hmem | ⟨e, he, hvalue⟩
    · cases hmem
    · exact ⟨hscalars _ he _ hvalue, hparts _ he hvalue⟩
  induction h generalizing v with
  | string text =>
    rw [Expr.value] at hv
    obtain rfl := Except.ok.inj hv
    exact .scalar rfl
  | bool b =>
    rw [Expr.value] at hv
    obtain rfl := Except.ok.inj hv
    exact .scalar rfl
  | number text =>
    rw [Expr.value] at hv
    obtain rfl := Except.ok.inj hv
    exact .scalar rfl
  | array _ ih =>
    rw [Expr.value] at hv
    obtain ⟨vs, hvs, hv⟩ := bind_eq_ok.1 hv
    obtain rfl := Except.ok.inj hv
    rw [Expr.values_eq_mapM] at hvs
    refine .array fun v hmem => ?_
    obtain ⟨e, he, hvalue⟩ := exists_of_mem_mapM hvs v hmem
    exact ih e he hvalue
  | inline hscalars _ ih =>
    rw [Expr.value] at hv
    obtain ⟨t, ht, hv⟩ := bind_eq_ok.1 hv
    obtain rfl := Except.ok.inj hv
    exact htable ht hscalars ih
  | group hscalars _ ih =>
    rw [Expr.value] at hv
    obtain ⟨t, ht, hv⟩ := bind_eq_ok.1 hv
    obtain rfl := Except.ok.inj hv
    exact htable ht hscalars ih

/-- Entries that are added to a table have the property there. -/
theorem Table.AllEntries.insertAll {t t' : Table} {body : Body} (ht : t.AllEntries Q)
    (hbody : body.AllEntries Q) (h : t.insertAll body = .ok t') : t'.AllEntries Q := by
  intro p hp
  rcases exists_of_mem_insertAll h p hp with hmem | ⟨e, he, hvalue⟩
  · exact ht p hmem
  · obtain ⟨hscalar, hparts⟩ := hbody _ he
    exact ⟨hscalar _ hvalue, hparts.value hvalue⟩

/-! ### Groups of dotted keys -/

/-- Adding a group keeps what holds of all bodies. -/
theorem Group.forall_mem_add {P : Body → Prop} {g : Group} {groups : List Group} (hg : P g.body)
    (hgroups : ∀ h ∈ groups, P h.body) : ∀ h ∈ g.add groups, P h.body := by
  induction groups with
  | nil => exact List.forall_mem_singleton.2 hg
  | cons h groups ih =>
    obtain ⟨hh, hrest⟩ := List.forall_mem_cons.1 hgroups
    rw [add]
    split
    · exact List.forall_mem_cons.2 ⟨hg, hgroups⟩
    · split
      · exact List.forall_mem_cons.2 ⟨hg, hrest⟩
      · exact List.forall_mem_cons.2 ⟨hh, ih hrest⟩

/-- The groups of a body have the property of its entries. -/
theorem Body.AllEntries.ofBody {body : Body} (h : body.AllEntries Q) :
    ∀ g ∈ Group.ofBody body, g.body.AllEntries Q := by
  have hfound : ∀ g ∈ body.filterMap Group.ofEntry?, g.body.AllEntries Q := by
    intro g hg
    obtain ⟨⟨key, e⟩, hmem, he⟩ := List.mem_filterMap.1 hg
    cases e with
    | group inner =>
      obtain rfl := Option.some.inj he
      exact Expr.allEntries_group_iff.1 (h _ hmem).2
    | _ => cases he
  have hfold (gs groups : List Group) (hgs : ∀ g ∈ gs, g.body.AllEntries Q)
      (hgroups : ∀ g ∈ groups, g.body.AllEntries Q) :
      ∀ g ∈ gs.foldl (fun groups g => g.add groups) groups, g.body.AllEntries Q := by
    induction gs generalizing groups with
    | nil => exact hgroups
    | cons g gs ih =>
      obtain ⟨hg, hgs⟩ := List.forall_mem_cons.1 hgs
      exact ih _ hgs (Group.forall_mem_add hg hgroups)
  exact hfold _ [] hfound (List.forall_mem_nil _)

/-- A group of dotted keys has parts. -/
theorem Expr.isScalar_of_value_group {body : Body} {v : Value}
    (h : Expr.value (.group body) = .ok v) : v.isScalar = false := by
  rw [Expr.value] at h
  obtain ⟨t, -, hv⟩ := bind_eq_ok.1 h
  obtain rfl := Except.ok.inj hv
  rfl

/-- A group is an entry with the property of its entries. -/
theorem Body.allEntries_singleton_group (key : Key) {body : Body} (h : body.AllEntries Q) :
    Body.AllEntries Q [(key, .group body)] := by
  refine List.forall_mem_singleton.2 ⟨?_, Expr.allEntries_group_iff.2 h⟩
  intro v hv hscalar
  exact absurd ((Expr.isScalar_of_value_group hv).symm.trans hscalar) Bool.false_ne_true

/-- Groups are entries again. -/
theorem Body.allEntries_map_entry {groups : List Group}
    (h : ∀ g ∈ groups, g.body.AllEntries Q) : Body.AllEntries Q (groups.map Group.entry) := by
  intro p hp
  obtain ⟨g, hg, rfl⟩ := List.mem_map.1 hp
  exact allEntries_singleton_group g.key (h g hg) _ (List.mem_singleton_self _)

/-- Changing a group keeps what holds of all entries if the change does. -/
theorem Body.AllEntries.alterGroup {f : Body → Except Fault Body}
    (hf : ∀ {inner inner'}, Body.AllEntries Q inner → f inner = .ok inner' → inner'.AllEntries Q)
    {key : Key} {body body' : Body} (hbody : body.AllEntries Q)
    (h : body.alterGroup key f = .ok body') : body'.AllEntries Q := by
  induction body generalizing body' with
  | nil =>
    obtain ⟨inner, hinner, h⟩ := bind_eq_ok.1 h
    obtain rfl := Except.ok.inj h
    exact allEntries_singleton_group key (hf (List.forall_mem_nil _) hinner)
  | cons p body ih =>
    obtain ⟨k, e⟩ := p
    obtain ⟨hp, hrest⟩ := List.forall_mem_cons.1 hbody
    unfold Body.alterGroup at h
    split at h
    · split at h
      · obtain ⟨inner, hinner, h⟩ := bind_eq_ok.1 h
        obtain rfl := Except.ok.inj h
        have hgroup := hf (Expr.allEntries_group_iff.1 hp.2) hinner
        exact List.forall_mem_append.2 ⟨allEntries_singleton_group k hgroup, hrest⟩
      · cases h
    · obtain ⟨body'', hbody'', h⟩ := bind_eq_ok.1 h
      obtain rfl := Except.ok.inj h
      exact List.forall_mem_cons.2 ⟨hp, ih hrest hbody''⟩

/-- A value goes under the last part of its key. -/
theorem Body.AllEntries.insert {e : Expr} {key : Key}
    (hscalar : ∀ v, e.value = .ok v → v.isScalar = true → Q key v) (hparts : e.AllEntries Q)
    (init : List Key) {body body' : Body} (hbody : body.AllEntries Q)
    (h : Body.insert e (init ++ [key]) body = .ok body') : body'.AllEntries Q := by
  induction init generalizing body body' with
  | nil =>
    rw [List.nil_append, Body.insert] at h
    obtain rfl := Except.ok.inj h
    exact List.forall_mem_append.2 ⟨hbody, List.forall_mem_singleton.2 ⟨hscalar, hparts⟩⟩
  | cons k init ih =>
    rw [List.cons_append, Body.insert] at h
    · exact hbody.alterGroup ih h
    · simp

/-! ### Headers -/

/-- The entries below all headers have a property, if they have no parts. -/
def Block.AllEntries (Q : Key → Value → Prop) (blocks : List Block) : Prop :=
  ∀ b ∈ blocks, b.body.AllEntries Q

/-- Branches keep the entries of their headers. -/
theorem Block.AllEntries.ofBlocks {blocks : List Block} (h : Block.AllEntries Q blocks) :
    ∀ branch ∈ Branch.ofBlocks blocks, Block.AllEntries Q branch.blocks := by
  have hadd {branches : List Branch} {b : Block} (hb : b.body.AllEntries Q)
      (hbranches : ∀ branch ∈ branches, Block.AllEntries Q branch.blocks) :
      ∀ branch ∈ Branch.add branches b, Block.AllEntries Q branch.blocks := by
    unfold Branch.add
    split
    · exact hbranches
    · next key path _ =>
      have hsingle : Block.AllEntries Q [{ b with path := path }] :=
        List.forall_mem_singleton.2 hb
      dsimp only
      split
      · intro branch hbranch
        obtain ⟨branch', hmem, rfl⟩ := List.mem_map.1 hbranch
        split
        · exact List.forall_mem_append.2 ⟨hbranches branch' hmem, hsingle⟩
        · exact hbranches branch' hmem
      · exact List.forall_mem_append.2 ⟨hbranches, List.forall_mem_singleton.2 hsingle⟩
  have hfold (blocks : List Block) (branches : List Branch) (hblocks : Block.AllEntries Q blocks)
      (hbranches : ∀ branch ∈ branches, Block.AllEntries Q branch.blocks) :
      ∀ branch ∈ blocks.foldl Branch.add branches, Block.AllEntries Q branch.blocks := by
    induction blocks generalizing branches with
    | nil => exact hbranches
    | cons b blocks ih =>
      obtain ⟨hb, hblocks⟩ := List.forall_mem_cons.1 hblocks
      exact ih _ hblocks (hadd hb hbranches)
  exact hfold blocks [] h (List.forall_mem_nil _)

/-- Runs are cut from the headers. -/
theorem Block.mem_of_mem_runs {blocks : List Block} :
    ∀ r ∈ Block.runs blocks, r.1 ∈ blocks ∧ ∀ b ∈ r.2, b ∈ blocks := by
  induction blocks with
  | nil => exact List.forall_mem_nil _
  | cons b blocks ih =>
    have hrest : ∀ r ∈ Block.runs blocks, r.1 ∈ b :: blocks ∧ ∀ b' ∈ r.2, b' ∈ b :: blocks := by
      intro r hr
      obtain ⟨hfirst, hfurther⟩ := ih r hr
      exact ⟨List.mem_cons_of_mem _ hfirst, fun b' hb' => List.mem_cons_of_mem _ (hfurther b' hb')⟩
    rw [Block.runs]
    split
    · refine List.forall_mem_cons.2 ⟨⟨List.mem_cons_self, fun b' hb' => ?_⟩, hrest⟩
      exact List.mem_cons_of_mem _ (List.takeWhile_subset _ hb')
    · exact hrest

section

variable {assemble : Body → List Block → Except Fault Table}

/-- A way to make tables keeps what holds of all entries. -/
def KeepsEntries (Q : Key → Value → Prop) (assemble : Body → List Block → Except Fault Table) :
    Prop :=
  ∀ {body blocks t}, Body.AllEntries Q body → Block.AllEntries Q blocks →
    assemble body blocks = .ok t → t.AllEntries Q

/-- A branch is a table, or an array of tables, with the entries of its headers and its group. -/
theorem Branch.allEntries_value (hassemble : KeepsEntries Q assemble) {b : Branch} {group : Body}
    {v : Value} (hblocks : Block.AllEntries Q b.blocks) (hgroup : group.AllEntries Q)
    (h : b.value assemble group = .ok v) : v.isScalar = false ∧ v.AllEntries Q := by
  have hfilter (p : Block → Bool) : Block.AllEntries Q (b.blocks.filter p) :=
    fun d hd => hblocks d (List.mem_of_mem_filter hd)
  have htable {body : Body} {p : Block → Bool} (hbody : body.AllEntries Q)
      (h : (do return Value.table (← assemble body (b.blocks.filter p))) = .ok v) :
      v.isScalar = false ∧ v.AllEntries Q := by
    obtain ⟨t, ht, hv⟩ := bind_eq_ok.1 h
    obtain rfl := Except.ok.inj hv
    exact ⟨rfl, Value.allEntries_table_iff.2 (hassemble hbody (hfilter p) ht)⟩
  simp only [Branch.value] at h
  split at h
  · split at h
    · obtain ⟨tables, htables, hv⟩ := bind_eq_ok.1 h
      obtain rfl := Except.ok.inj hv
      refine ⟨rfl, Value.allEntries_array_iff.2 fun w hw => ?_⟩
      obtain ⟨t, ht, rfl⟩ := List.mem_map.1 hw
      obtain ⟨r, hr, hassembled⟩ := exists_of_mem_mapM htables t ht
      obtain ⟨hfirst, hfurther⟩ := Block.mem_of_mem_runs r hr
      exact Value.allEntries_table_iff.2 (hassemble (hblocks _ hfirst)
        (fun d hd => hblocks d (hfurther d hd)) hassembled)
    · cases h
  · split at h
    · exact htable hgroup h
    · next d hdefinitions =>
      have hd : d ∈ b.blocks := by
        refine List.mem_of_mem_filter (p := Block.isDefinition) ?_
        rw [hdefinitions]
        exact List.mem_singleton_self d
      exact htable (List.forall_mem_append.2 ⟨hblocks d hd, hgroup⟩) h
    · cases h

/-- Branches and groups that are added to a table keep what holds of all entries. -/
theorem Table.AllEntries.addBranches (hassemble : KeepsEntries Q assemble) {t t' : Table}
    {groups : List Group} {branches : List Branch} (ht : t.AllEntries Q)
    (hgroups : ∀ g ∈ groups, g.body.AllEntries Q)
    (hbranches : ∀ b ∈ branches, Block.AllEntries Q b.blocks)
    (h : t.addBranches assemble groups branches = .ok t') : t'.AllEntries Q := by
  induction branches generalizing t groups with
  | nil => exact ht.insertAll (Body.allEntries_map_entry hgroups) h
  | cons b branches ih =>
    obtain ⟨hb, hbranches⟩ := List.forall_mem_cons.1 hbranches
    simp only [Table.addBranches] at h
    split at h
    · cases h
    · split at h
      · cases h
      · obtain ⟨v, hv, h⟩ := bind_eq_ok.1 h
        have hgroup : Body.AllEntries Q
            (((groups.find? (·.key.name = b.key.name)).map Group.body).getD []) := by
          cases hfind : groups.find? (·.key.name = b.key.name) with
          | none => exact List.forall_mem_nil _
          | some g => exact hgroups g (List.mem_of_find?_eq_some hfind)
        obtain ⟨hcompound, hvalue⟩ := Branch.allEntries_value hassemble hb hgroup hv
        -- A branch has parts, so of its own key nothing is asked.
        have hinserted : Table.AllEntries Q (t.insert b.key v) := by
          intro p hp
          rcases mem_insert.1 hp with rfl | hp
          · exact ⟨fun hscalar => absurd (hcompound.symm.trans hscalar) Bool.false_ne_true, hvalue⟩
          · exact ht p hp
        exact ih hinserted (fun g hg => hgroups g (List.mem_of_mem_filter hg)) hbranches h

end

/-- **A table keeps what holds of all entries** of its body and below its headers. -/
theorem Table.keepsEntries_assemble (depth : ℕ) : KeepsEntries Q (Table.assemble depth) := by
  have hplain {body : Body} {t : Table} (hbody : body.AllEntries Q)
      (ht : Table.insertAll [] body.plain = .ok t) : t.AllEntries Q := by
    refine Table.AllEntries.insertAll (List.forall_mem_nil _) (fun p hp => ?_) ht
    exact hbody p (List.mem_of_mem_filter hp)
  -- What a branch is made of is assembled in the same way, one part of a header further in.
  induction depth with
  | zero =>
    intro body blocks t hbody hblocks h
    obtain ⟨plain, hplainTable, h⟩ := bind_eq_ok.1 h
    exact (hplain hbody hplainTable).insertAll (Body.allEntries_map_entry hbody.ofBody) h
  | succ depth ih =>
    intro body blocks t hbody hblocks h
    obtain ⟨plain, hplainTable, h⟩ := bind_eq_ok.1 h
    exact (hplain hbody hplainTable).addBranches ih hbody.ofBody hblocks.ofBlocks h

/-- The table of a document keeps what holds of all its entries. -/
theorem Table.allEntries_ofDocument {d : Document} {t : Table} (hroot : d.root.AllEntries Q)
    (hblocks : Block.AllEntries Q d.blocks) (h : ofDocument d = .ok t) : t.AllEntries Q :=
  Table.keepsEntries_assemble _ hroot hblocks h

end RegisterTables.Toml
