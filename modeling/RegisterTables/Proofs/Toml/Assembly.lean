import RegisterTables.Proofs.Failure
import RegisterTables.Toml.Table
import Mathlib.Data.List.Nodup
import Mathlib.Data.String.Basic

/-!
# Tables made of elements

When all headers below a table start with the same part, they make a single branch of it. If the
branch consists of elements, each followed by the headers that lead further into it, it is an array
with a table for each element. `Toml.Table.assemble_elements` puts this together: the table is that
of its plain entries with the array at the place of its name.

Nothing is said about dotted keys there, so the bodies are taken to be plain: no entry of them is a
group. Whatever the bodies are, a table is kept by its names (`Toml.Table.ascends_of_parse`).
-/

namespace RegisterTables.Toml

/-! ### Plain bodies -/

/-- The entries are no groups of dotted keys, each has a value, and no name occurs twice. -/
structure Body.IsPlain (body : Body) (val : Expr → Value) : Prop where
  /-- No entry is a group. -/
  no_group : ∀ p ∈ body, Group.ofEntry? p = none
  /-- Each entry has a value. -/
  value : ∀ p ∈ body, p.2.value = .ok (val p.2)
  /-- No name occurs twice. -/
  nodup : (body.map (·.1.name)).Nodup

namespace Table

theorem contains_eq_false_iff {t : Table} {name : String} :
    t.contains name = false ↔ name ∉ t.map (·.1.name) := by
  simp [contains]

/-- Puts entries into a table one by one. -/
def insertEach (t entries : Table) : Table :=
  entries.foldl (fun t p => t.insert p.1 p.2) t

/-- The entries come to those of the table. -/
theorem perm_insertEach (t entries : Table) : (t.insertEach entries).Perm (t ++ entries) := by
  induction entries generalizing t with
  | nil =>
    rw [List.append_nil]
    exact .refl t
  | cons p entries ih =>
    have hinserted : (t.insert p.1 p.2 ++ entries).Perm (p :: t ++ entries) :=
      (perm_insert t p.1 p.2).append_right entries
    exact (ih _).trans (hinserted.trans List.perm_middle.symm)

/-- Names are no less distinct after an entry was moved into the table. -/
theorem nodup_insert {t : Table} {key : Key} {v : Value} {names : List String}
    (h : (t.map (·.1.name) ++ key.name :: names).Nodup) :
    ((t.insert key v).map (·.1.name) ++ names).Nodup := by
  have hperm : ((t.insert key v).map (·.1.name) ++ names).Perm
      (key.name :: t.map (·.1.name) ++ names) :=
    ((perm_insert t key v).map _).append_right names
  exact (hperm.trans List.perm_middle.symm).nodup_iff.2 h

/-- An entry with a name of its own goes to the place of its name. -/
theorem insertAll_cons {t : Table} {key : Key} {names : List String} {e : Expr} {w : Value}
    (body : Body) (hnodup : (t.map (·.1.name) ++ key.name :: names).Nodup)
    (hvalue : e.value = .ok w) :
    t.insertAll ((key, e) :: body) = (t.insert key w).insertAll body := by
  have hnew : t.contains key.name = false := by
    rw [contains_eq_false_iff]
    intro hmem
    exact (List.nodup_append.1 hnodup).2.2 _ hmem _ List.mem_cons_self rfl
  rw [insertAll, hnew, hvalue]
  rfl

/-- Entries with names of their own go to the places of their names. -/
theorem insertAll_of_nodup {val : Expr → Value} (t : Table) (body : Body)
    (hvalue : ∀ p ∈ body, p.2.value = .ok (val p.2))
    (hnodup : (t.map (·.1.name) ++ body.map (·.1.name)).Nodup) :
    t.insertAll body = .ok (t.insertEach (body.map fun p => (p.1, val p.2))) := by
  induction body generalizing t with
  | nil => rw [insertAll, List.map_nil, insertEach, List.foldl_nil]
  | cons p body ih =>
    obtain ⟨key, e⟩ := p
    have hrest := ih (t.insert key (val e)) (fun p hp => hvalue p (List.mem_cons_of_mem _ hp))
      (nodup_insert hnodup)
    rw [insertAll_cons body hnodup (hvalue _ List.mem_cons_self), hrest]
    rfl

end Table

namespace Body.IsPlain

variable {body : Body} {val : Expr → Value}

theorem plain_eq (h : body.IsPlain val) : body.plain = body :=
  List.filter_eq_self.2 fun p hp => by rw [h.no_group p hp]; rfl

theorem ofBody_eq (h : body.IsPlain val) : Group.ofBody body = [] := by
  have hnone : body.filterMap Group.ofEntry? = [] := List.filterMap_eq_nil_iff.2 h.no_group
  rw [Group.ofBody, hnone]
  rfl

/-- The table of a plain body. -/
theorem insertAll_eq (h : body.IsPlain val) :
    Table.insertAll [] body = .ok (Table.insertEach [] (body.map fun p => (p.1, val p.2))) :=
  Table.insertAll_of_nodup [] body h.value h.nodup

/-- A plain body without headers below it is a table of its entries, however deep it may be nested.
-/
theorem assemble_nil (h : body.IsPlain val) (depth : ℕ) :
    Table.assemble depth body [] = .ok (Table.insertEach [] (body.map fun p => (p.1, val p.2))) := by
  cases depth with
  | zero =>
    rw [Table.assemble, h.plain_eq, h.insertAll_eq, h.ofBody_eq]
    rfl
  | succ depth =>
    rw [Table.assemble, h.plain_eq, h.insertAll_eq, h.ofBody_eq]
    rfl

end Body.IsPlain

/-! ### Branches -/

/-- The block with the first part of its header dropped. -/
def Block.tail (b : Block) : Block :=
  { b with path := b.path.tail }

/-- The header starts with that part. -/
def Block.StartsWith (name : String) (b : Block) : Prop :=
  ∃ key path, b.path = key :: path ∧ key.name = name

theorem Branch.foldl_add {name : String} {key : Key} (hkey : key.name = name)
    (before blocks : List Block) (h : ∀ b ∈ blocks, b.StartsWith name) :
    blocks.foldl add [⟨key, before⟩] = [⟨key, before ++ blocks.map Block.tail⟩] := by
  induction blocks generalizing before with
  | nil => rw [List.foldl_nil, List.map_nil, List.append_nil]
  | cons b blocks ih =>
    obtain ⟨key', path, hpath, hname⟩ := h b List.mem_cons_self
    have hadd : add [⟨key, before⟩] b = [⟨key, before ++ [b.tail]⟩] := by
      simp [add, hpath, hkey, hname, Block.tail]
    rw [List.foldl_cons, hadd, ih _ fun b hb => h b (List.mem_cons_of_mem _ hb), List.map_cons,
      List.append_assoc, List.singleton_append]

/-- Headers that start with the same part make one branch. -/
theorem Branch.ofBlocks_of_startsWith {name : String} {blocks : List Block} (hne : blocks ≠ [])
    (h : ∀ b ∈ blocks, b.StartsWith name) :
    ∃ key : Key, key.name = name ∧ ofBlocks blocks = [⟨key, blocks.map Block.tail⟩] := by
  cases blocks with
  | nil => exact absurd rfl hne
  | cons b blocks =>
    obtain ⟨key, path, hpath, hname⟩ := h b List.mem_cons_self
    have hadd : add [] b = [⟨key, [b.tail]⟩] := by
      simp [add, hpath, Block.tail]
    refine ⟨key, hname, ?_⟩
    rw [ofBlocks, List.foldl_cons, hadd,
      foldl_add hname _ _ fun b hb => h b (List.mem_cons_of_mem _ hb)]
    rfl

/-! ### Elements -/

/-- A header that ends here, with the headers that lead further in. -/
abbrev Run := Block × List Block

/-- The headers of a run. -/
def Run.blocks (r : Run) : List Block :=
  r.1 :: r.2

/-- The first header ends here and begins an element, and the other ones lead further. -/
structure Run.IsElement (r : Run) : Prop where
  /-- The first header ends here. -/
  isDefinition : r.1.isDefinition = true
  /-- It begins an element. -/
  isElement : r.1.isElement = true
  /-- The others lead further. -/
  further : ∀ b ∈ r.2, b.isDefinition = false

/-- Headers are cut where their runs were put together. -/
theorem Block.runs_flatMap {rs : List Run} (h : ∀ r ∈ rs, r.IsElement) :
    Block.runs (rs.flatMap Run.blocks) = rs := by
  have hskip (bs rest : List Block) (hbs : ∀ b ∈ bs, b.isDefinition = false) :
      Block.runs (bs ++ rest) = Block.runs rest := by
    induction bs with
    | nil => rfl
    | cons b bs ih =>
      rw [List.cons_append, Block.runs, if_neg (by simp [hbs b List.mem_cons_self]),
        ih fun b hb => hbs b (List.mem_cons_of_mem _ hb)]
  induction rs with
  | nil => rfl
  | cons r rs ih =>
    obtain ⟨hdef, -, hfurther⟩ := h r List.mem_cons_self
    have hrest := ih fun r hr => h r (List.mem_cons_of_mem _ hr)
    -- What follows a run is the definition of the next one, or nothing.
    have htake : (r.2 ++ rs.flatMap Run.blocks).takeWhile (!·.isDefinition) = r.2 := by
      rw [List.takeWhile_append_of_pos fun b hb => by simp [hfurther b hb]]
      cases rs with
      | nil => simp
      | cons r' rs =>
        have hdef' := (h r' (by simp)).isDefinition
        simp [Run.blocks, hdef']
    rw [List.flatMap_cons, Run.blocks, List.cons_append, Block.runs, if_pos hdef, htake,
      hskip _ _ hfurther, hrest]

/-- The headers that end in a branch of elements are the first ones of its runs. -/
theorem Block.filter_isDefinition_flatMap {rs : List Run} (h : ∀ r ∈ rs, r.IsElement) :
    (rs.flatMap Run.blocks).filter Block.isDefinition = rs.map Prod.fst := by
  induction rs with
  | nil => rfl
  | cons r rs ih =>
    obtain ⟨hdef, -, hfurther⟩ := h r List.mem_cons_self
    have hnone : r.2.filter Block.isDefinition = [] :=
      List.filter_eq_nil_iff.2 fun b hb => by simp [hfurther b hb]
    rw [List.flatMap_cons, List.filter_append, ih fun r hr => h r (List.mem_cons_of_mem _ hr),
      Run.blocks, List.filter_cons_of_pos hdef, hnone, List.map_cons, List.singleton_append]

/-- A branch of elements is an array with a table for each of them. -/
theorem Branch.value_of_elements {assemble : Body → List Block → Except Fault Table} (key : Key)
    {rs : List Run} (hne : rs ≠ []) (h : ∀ r ∈ rs, r.IsElement) {tables : List Table}
    (htables : rs.mapM (fun r => assemble r.1.body r.2) = .ok tables) :
    Branch.value assemble ⟨key, rs.flatMap Run.blocks⟩ [] = .ok (.array (tables.map .table)) := by
  have hfirst : (rs.flatMap Run.blocks).head?.all Block.isDefinition = true := by
    cases rs with
    | nil => rfl
    | cons r rs => simpa [Run.blocks] using (h r List.mem_cons_self).isDefinition
  have hall : (!(rs.map Prod.fst).isEmpty && (rs.map Prod.fst).all Block.isElement) = true := by
    rw [Bool.and_eq_true, Bool.not_eq_true', List.isEmpty_eq_false_iff, List.all_map,
      List.all_eq_true]
    exact ⟨mt List.map_eq_nil_iff.1 hne, fun r hr => (h r hr).isElement⟩
  rw [Branch.value]
  simp only [Block.filter_isDefinition_flatMap h, hall, hfirst, if_true, Block.runs_flatMap h,
    htables]
  rfl

/-! ### Tables are kept by name -/

/-- The names ascend. -/
def Table.Ascends (t : Table) : Prop :=
  t.Pairwise fun p q => p.1.name < q.1.name

theorem Table.Ascends.insert {t : Table} (h : t.Ascends) {key : Key}
    (hnew : t.contains key.name = false) (v : Value) : (t.insert key v).Ascends := by
  induction t with
  | nil => exact List.pairwise_singleton _ _
  | cons p t ih =>
    rw [contains_eq_false_iff, List.map_cons, List.mem_cons, not_or, ← contains_eq_false_iff] at hnew
    obtain ⟨hp, ht⟩ := List.pairwise_cons.1 h
    unfold Table.insert
    split_ifs with hlt
    · refine List.pairwise_cons.2 ⟨fun q hq => ?_, h⟩
      rcases List.mem_cons.1 hq with rfl | hq
      · exact hlt
      · exact lt_trans hlt (hp q hq)
    · have hgt : p.1.name < key.name := lt_of_le_of_ne (not_lt.1 hlt) (Ne.symm hnew.1)
      refine List.pairwise_cons.2 ⟨fun q hq => ?_, ih ht hnew.2⟩
      rcases mem_insert.1 hq with rfl | hq
      · exact hgt
      · exact hp q hq

theorem Table.Ascends.insertAll {t t' : Table} (ht : t.Ascends) {body : Body}
    (h : t.insertAll body = .ok t') : t'.Ascends := by
  induction body generalizing t with
  | nil =>
    rw [Table.insertAll] at h
    obtain rfl := Except.ok.inj h
    exact ht
  | cons q body ih =>
    rw [Table.insertAll] at h
    split at h
    · cases h
    · next hnew =>
      obtain ⟨v, -, h⟩ := bind_eq_ok.1 h
      exact ih (ht.insert (Bool.eq_false_iff.2 hnew) v) h

theorem Table.Ascends.addBranches {assemble : Body → List Block → Except Fault Table}
    {t t' : Table} (ht : t.Ascends) {groups : List Group} {branches : List Branch}
    (h : t.addBranches assemble groups branches = .ok t') : t'.Ascends := by
  induction branches generalizing t groups with
  | nil => exact ht.insertAll h
  | cons b branches ih =>
    simp only [Table.addBranches] at h
    split at h
    · cases h
    · split at h
      · cases h
      · next hnew =>
        obtain ⟨v, -, h⟩ := bind_eq_ok.1 h
        exact ih (ht.insert (Bool.eq_false_iff.2 hnew) v) h

/-- A table that is made of a body and headers is kept by its names, at any depth. -/
theorem Table.ascends_of_assemble {depth : ℕ} {body : Body} {blocks : List Block} {t : Table}
    (h : Table.assemble depth body blocks = .ok t) : t.Ascends := by
  cases depth with
  | zero =>
    obtain ⟨plain, hplain, h⟩ := bind_eq_ok.1 h
    exact (Table.Ascends.insertAll .nil hplain).insertAll h
  | succ depth =>
    obtain ⟨plain, hplain, h⟩ := bind_eq_ok.1 h
    exact (Table.Ascends.insertAll .nil hplain).addBranches h

/-- **The table of a text** has its entries in ascending order of their names. -/
theorem Table.ascends_of_parse {text : String} {t : Table} (h : Table.parse text = .ok t) :
    t.Ascends := by
  obtain ⟨d, -, h⟩ := bind_eq_ok.1 h
  exact ascends_of_assemble h

/-! ### The table above -/

/-- **Elements below a table.** Headers that start with the same part, and are cut into runs of
elements behind it, add an array of that name to a plain table. -/
theorem Table.assemble_elements {val : Expr → Value} {depth : ℕ} {body : Body} {name : String}
    {blocks : List Block} {rs : List Run} {tables : List Table} (hbody : body.IsPlain val)
    (hname : name ∉ body.map (·.1.name)) (hstarts : ∀ b ∈ blocks, b.StartsWith name)
    (hruns : blocks.map Block.tail = rs.flatMap Run.blocks) (hne : rs ≠ [])
    (helements : ∀ r ∈ rs, r.IsElement)
    (htables : rs.mapM (fun r => assemble depth r.1.body r.2) = .ok tables) :
    ∃ key : Key, key.name = name ∧ assemble (depth + 1) body blocks = .ok
      ((insertEach [] (body.map fun p => (p.1, val p.2))).insert key
        (.array (tables.map .table))) := by
  have hblocks : blocks ≠ [] := by
    rintro rfl
    cases rs with
    | nil => exact hne rfl
    | cons r rs => simp [Run.blocks] at hruns
  obtain ⟨key, hkey, hbranches⟩ := Branch.ofBlocks_of_startsWith hblocks hstarts
  have hnew : (insertEach [] (body.map fun p => (p.1, val p.2))).contains key.name = false := by
    have hperm := perm_insertEach [] (body.map fun p => (p.1, val p.2))
    rw [contains_eq_false_iff, hkey, (hperm.map _).mem_iff, List.nil_append, List.map_map]
    exact hname
  have hvalue := Branch.value_of_elements key hne helements htables
  refine ⟨key, hkey, ?_⟩
  rw [assemble, hbody.plain_eq, hbody.insertAll_eq, hbody.ofBody_eq, hbranches, hruns]
  simp only [bind, Except.bind, addBranches, List.find?_nil, Option.isSome_none, Bool.false_and,
    hnew, Option.map_none, Option.getD_none, hvalue]
  rfl

end RegisterTables.Toml
