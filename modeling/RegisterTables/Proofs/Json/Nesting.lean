import RegisterTables.Proofs.Json.Members
import RegisterTables.Proofs.Json.Writing

/-!
# Trees as JSON values

What an expression that shows a tree stands for, and when it stands for anything. Strings may be
spelled in any way, integers are written with their digits, and the names of an object are pairwise
distinct. Then the only thing that can be wrong with the expression is that it is nested too deep:
`Json.Tree.ofExpr?_of_isShownBy` says that it stands for the tree as a value up to the depth that is
allowed, and for nothing beyond.
-/

namespace RegisterTables.Json.Tree

/-! ### Proper trees -/

mutual

/-- All integers have 64 bits with sign, and the names of each object are pairwise distinct. -/
def IsProper : Tree → Prop
  | string _ => True
  | bool _ => True
  | integer i => -2 ^ 63 ≤ i ∧ i < 2 ^ 63
  | array items => ItemsProper items
  | object members => (members.map Prod.fst).Nodup ∧ MembersProper members

/-- All items are proper. -/
def ItemsProper : List Tree → Prop
  | [] => True
  | v :: items => v.IsProper ∧ ItemsProper items

/-- All values of members are proper. -/
def MembersProper : List (String × Tree) → Prop
  | [] => True
  | (_, v) :: members => v.IsProper ∧ MembersProper members

end

theorem itemsProper_iff {items : List Tree} : ItemsProper items ↔ ∀ v ∈ items, v.IsProper := by
  induction items with
  | nil => simp [ItemsProper]
  | cons v items ih => rw [ItemsProper, ih, List.forall_mem_cons]

mutual

/-- How deep a tree is nested: how many lists and objects lie within each other. -/
def depth : Tree → ℕ
  | string _ => 0
  | bool _ => 0
  | integer _ => 0
  | array items => itemsDepth items + 1
  | object members => membersDepth members + 1

/-- How deep the items of a list are nested. -/
def itemsDepth : List Tree → ℕ
  | [] => 0
  | v :: items => max v.depth (itemsDepth items)

/-- How deep the members of an object are nested. -/
def membersDepth : List (String × Tree) → ℕ
  | [] => 0
  | (_, v) :: members => max v.depth (membersDepth members)

end

/-- The items of a list are nested as deep as the deepest one. -/
theorem itemsDepth_le_iff {items : List Tree} {d : ℕ} :
    itemsDepth items ≤ d ↔ ∀ v ∈ items, v.depth ≤ d := by
  induction items with
  | nil => simp [itemsDepth]
  | cons v items ih => rw [itemsDepth, Nat.max_le, ih, List.forall_mem_cons]

/-- The members of an object are nested as deep as the deepest one. -/
theorem membersDepth_le_iff {members : List (String × Tree)} {d : ℕ} :
    membersDepth members ≤ d ↔ ∀ m ∈ members, m.2.depth ≤ d := by
  induction members with
  | nil => simp [membersDepth]
  | cons m members ih => rw [membersDepth, Nat.max_le, ih, List.forall_mem_cons]

/-! ### Values and expressions -/

mutual

/-- The tree as a value. -/
def value : Tree → Value
  | string s => .string s
  | bool b => .bool b
  | integer i => .number (toString i)
  | array items => .array (itemsValue items)
  | object members => .object (membersValue members)

/-- The items of a list as values. -/
def itemsValue : List Tree → List Value
  | [] => []
  | v :: items => v.value :: itemsValue items

/-- The members of an object with their values. -/
def membersValue : List (String × Tree) → List (String × Value)
  | [] => []
  | (name, v) :: members => (name, v.value) :: membersValue members

end

mutual

/-- The tree is written so, whatever the spelling of its strings. -/
def IsShownBy : Tree → Expr → Prop
  | string s, e => ∃ units, e = .string units ∧ text? units = some s
  | bool b, e => e = .bool b
  | integer i, e => e = .number (.ofInt i)
  | array items, e => ∃ es, e = .array es ∧ ItemsShownBy items es
  | object members, e => ∃ l, e = .object l ∧ MembersShownBy members l

/-- The items of a list are written so. -/
def ItemsShownBy : List Tree → List Expr → Prop
  | [], es => es = []
  | v :: items, es => ∃ e es', es = e :: es' ∧ v.IsShownBy e ∧ ItemsShownBy items es'

/-- The members of an object are written so, in their order. -/
def MembersShownBy : List (String × Tree) → List (List TextUnit × Expr) → Prop
  | [], l => l = []
  | (name, v) :: members, l =>
    ∃ units e l', l = (units, e) :: l' ∧ text? units = some name ∧ v.IsShownBy e ∧
      MembersShownBy members l'

end

variable (spelling : Spelling)

mutual

/-- A tree is shown by the expression that is read of its text. -/
theorem isShownBy_expr : (v : Tree) → v.IsShownBy (v.expr spelling)
  | string s => ⟨_, rfl, text?_units spelling s⟩
  | bool _ => rfl
  | integer _ => rfl
  | array items => ⟨_, rfl, itemsShownBy_itemsExpr items⟩
  | object members => ⟨_, rfl, membersShownBy_membersExpr members⟩

theorem itemsShownBy_itemsExpr : (items : List Tree) → ItemsShownBy items (itemsExpr spelling items)
  | [] => rfl
  | v :: items => ⟨_, _, rfl, isShownBy_expr v, itemsShownBy_itemsExpr items⟩

theorem membersShownBy_membersExpr :
    (members : List (String × Tree)) → MembersShownBy members (membersExpr spelling members)
  | [] => rfl
  | (name, v) :: members =>
    ⟨_, _, _, rfl, text?_units spelling name, isShownBy_expr v, membersShownBy_membersExpr members⟩

end

/-! ### What an expression stands for -/

theorem map_fst_membersValue (members : List (String × Tree)) :
    (membersValue members).map Prod.fst = members.map Prod.fst := by
  induction members with
  | nil => rfl
  | cons m members ih =>
    obtain ⟨name, v⟩ := m
    rw [membersValue, List.map_cons, List.map_cons, ih]

/-- Two parts stand for something together if neither of them is nested too deep. -/
theorem bind_of_le {α β γ : Type} (f : α → β → γ) (a : α) (b : β) (m n d : ℕ) :
    ((if m ≤ d then some a else none).bind fun x => (if n ≤ d then some b else none).map (f x))
      = if max m n ≤ d then some (f a b) else none := by
  by_cases hm : m ≤ d
  · by_cases hn : n ≤ d
    · rw [if_pos hm, if_pos hn, if_pos (Nat.max_le.2 ⟨hm, hn⟩)]
      rfl
    · rw [if_pos hm, if_neg hn, if_neg fun hle => hn (Nat.max_le.1 hle).2]
      rfl
  · rw [if_neg hm, if_neg fun hle => hm (Nat.max_le.1 hle).1]
    rfl

theorem ofItems?_cons (d : ℕ) (e : Expr) (es : List Expr) :
    Value.ofItems? d (e :: es)
      = (Value.ofExpr? d e).bind fun v => (Value.ofItems? d es).map (v :: ·) := by
  rw [Value.ofItems?]
  cases Value.ofExpr? d e <;> cases Value.ofItems? d es <;> rfl

theorem ofMembers?_cons {units : List TextUnit} {name : String} (hname : text? units = some name)
    (d : ℕ) (e : Expr) (l : List (List TextUnit × Expr)) :
    Value.ofMembers? d ((units, e) :: l)
      = (Value.ofExpr? d e).bind fun v => (Value.ofMembers? d l).map ((name, v) :: ·) := by
  rw [Value.ofMembers?, hname]
  cases Value.ofExpr? d e <;> cases Value.ofMembers? d l <;> rfl

mutual

/-- **An expression stands for its tree unless it is nested too deep.** -/
theorem ofExpr?_of_isShownBy (v : Tree) {e : Expr} (hproper : v.IsProper) (h : v.IsShownBy e)
    (d : ℕ) : Value.ofExpr? d e = if v.depth ≤ d then some v.value else none := by
  match v with
  | string s =>
    obtain ⟨units, rfl, hunits⟩ := h
    rw [Value.ofExpr?, hunits, depth, if_pos (Nat.zero_le d)]
    rfl
  | bool b =>
    obtain rfl := h
    rw [Value.ofExpr?, depth, if_pos (Nat.zero_le d), value]
  | integer i =>
    obtain rfl := h
    obtain ⟨hlow, hhigh⟩ := hproper
    rw [Value.ofExpr?, Number.text?_ofInt hlow (by omega), depth, if_pos (Nat.zero_le d)]
    rfl
  | array items =>
    obtain ⟨es, rfl, hitems⟩ := h
    -- The list takes one level for itself and leaves the others to its items.
    cases d with
    | zero => rfl
    | succ d =>
      have hvalues := ofItems?_of_itemsShownBy items hproper hitems d
      rw [Value.ofExpr?, hvalues, depth]
      by_cases hle : itemsDepth items ≤ d
      · rw [if_pos hle, if_pos (Nat.succ_le_succ hle), value, Option.map_some]
      · rw [if_neg hle, if_neg (mt Nat.le_of_succ_le_succ hle), Option.map_none]
  | object members =>
    obtain ⟨l, rfl, hmembers⟩ := h
    cases d with
    | zero => rfl
    | succ d =>
      have hvalues := ofMembers?_of_membersShownBy members hproper.2 hmembers d
      have hnodup : ((membersValue members).map Prod.fst).Nodup := by
        rw [map_fst_membersValue]
        exact hproper.1
      rw [Value.ofExpr?, hvalues, depth]
      by_cases hle : membersDepth members ≤ d
      · rw [if_pos hle, if_pos (Nat.succ_le_succ hle), value, Option.map_some,
          Value.ofMembers_of_nodup hnodup]
      · rw [if_neg hle, if_neg (mt Nat.le_of_succ_le_succ hle), Option.map_none]

theorem ofItems?_of_itemsShownBy (items : List Tree) {es : List Expr} (hproper : ItemsProper items)
    (h : ItemsShownBy items es) (d : ℕ) :
    Value.ofItems? d es = if itemsDepth items ≤ d then some (itemsValue items) else none := by
  match items with
  | [] =>
    obtain rfl := h
    rw [Value.ofItems?, itemsDepth, if_pos (Nat.zero_le d), itemsValue]
  | v :: items =>
    obtain ⟨e, es', rfl, hv, hitems⟩ := h
    rw [ofItems?_cons, ofExpr?_of_isShownBy v hproper.1 hv,
      ofItems?_of_itemsShownBy items hproper.2 hitems, itemsDepth, itemsValue]
    exact bind_of_le List.cons v.value (itemsValue items) _ _ d

theorem ofMembers?_of_membersShownBy (members : List (String × Tree))
    {l : List (List TextUnit × Expr)} (hproper : MembersProper members)
    (h : MembersShownBy members l) (d : ℕ) :
    Value.ofMembers? d l
      = if membersDepth members ≤ d then some (membersValue members) else none := by
  match members with
  | [] =>
    obtain rfl := h
    rw [Value.ofMembers?, membersDepth, if_pos (Nat.zero_le d), membersValue]
  | (name, v) :: members =>
    obtain ⟨units, e, l', rfl, hname, hv, hmembers⟩ := h
    rw [ofMembers?_cons hname, ofExpr?_of_isShownBy v hproper.1 hv,
      ofMembers?_of_membersShownBy members hproper.2 hmembers, membersDepth, membersValue]
    exact bind_of_le (fun v l => (name, v) :: l) v.value (membersValue members) _ _ d

end

end RegisterTables.Json.Tree
