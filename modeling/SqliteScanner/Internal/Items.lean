import SqliteScanner.Internal.Lexing

/-!
# Items between parentheses

A definition in SQL is often a list of items between parentheses, with commas between them, and the
items have parentheses and commas of their own. `splitItems` reads such a list: it counts
parentheses, and splits at the commas that are in no other pair of them.

An item is *whole* if it is not split (`Whole`). This is a condition on the item alone that can be
checked part by part, and `splitItems_intercalate` says that a list of whole items is read back.

`outer` is what stands in no parentheses in an item.
-/

namespace Lexing

/-- The depth of parentheses after the tokens, unless one is closed that has not been opened. -/
def nesting : List Token → ℕ → Option ℕ
  | [], d => some d
  | t :: ts, d =>
    if t = .symbol .lparen then nesting ts (d + 1)
    else if t = .symbol .rparen then if d = 0 then none else nesting ts (d - 1)
    else nesting ts d

/-- The items up to the closing parenthesis, and the tokens after it. The last argument is what has
been read of the current item. -/
def splitItems : List Token → ℕ → List Token → Option (List (List Token) × List Token)
  | [], _, _ => none
  | t :: ts, d, item =>
    if t = .symbol .lparen then splitItems ts (d + 1) (item ++ [t])
    else if t = .symbol .rparen then
      if d = 0 then some ([item], ts) else splitItems ts (d - 1) (item ++ [t])
    else if t = .symbol .comma ∧ d = 0 then
      (splitItems ts 0 []).map fun r => (item :: r.1, r.2)
    else splitItems ts d (item ++ [t])

/-- The tokens that are in no parentheses. -/
def outer : List Token → ℕ → List Token
  | [], _ => []
  | t :: ts, d =>
    if t = .symbol .lparen then outer ts (d + 1)
    else if t = .symbol .rparen then outer ts (d - 1)
    else if d = 0 then t :: outer ts d
    else outer ts d

/-- A token that is neither a parenthesis nor a comma. -/
def Token.IsAtom (t : Token) : Prop :=
  t ≠ .symbol .lparen ∧ t ≠ .symbol .rparen ∧ t ≠ .symbol .comma

instance (t : Token) : Decidable t.IsAtom := inferInstanceAs (Decidable (_ ∧ _))

/-- Tokens that are not split. -/
def Whole (ts : List Token) : Prop :=
  ∀ rest item, splitItems (ts ++ rest) 0 item = splitItems rest 0 (item ++ ts)

/-! ### Whole items -/

section Whole

variable {ts us rest : List Token} {t : Token}

theorem whole_nil : Whole [] := by
  intro rest item
  simp

theorem Token.IsAtom.whole (h : t.IsAtom) : Whole [t] := by
  intro rest item
  simp [splitItems, h.1, h.2.1, h.2.2]

theorem Whole.append (hts : Whole ts) (hus : Whole us) : Whole (ts ++ us) := by
  intro rest item
  rw [List.append_assoc, hts, hus, List.append_assoc]

theorem whole_of_forall (h : ∀ t ∈ ts, t.IsAtom) : Whole ts := by
  induction ts with
  | nil => exact whole_nil
  | cons t ts ih =>
    have hatom : t.IsAtom := h t List.mem_cons_self
    exact hatom.whole.append (ih fun u hu => h u (List.mem_cons_of_mem t hu))

/-- Nothing is split within parentheses. -/
theorem splitItems_of_nesting {d d' : ℕ} (h : nesting ts d = some d') (item : List Token) :
    splitItems (ts ++ rest) (d + 1) item = splitItems rest (d' + 1) (item ++ ts) := by
  induction ts generalizing d item with
  | nil =>
    cases h
    simp
  | cons t ts ih =>
    rw [nesting] at h
    rw [List.cons_append, splitItems]
    split at h
    · case isTrue hopen =>
      rw [if_pos hopen, ih h, List.append_assoc, List.singleton_append]
    · case isFalse hopen =>
      rw [if_neg hopen]
      split at h
      · case isTrue hclose =>
        rw [if_pos hclose, if_neg (Nat.succ_ne_zero d)]
        split at h
        · cases h
        · case isFalse hd =>
          obtain ⟨k, rfl⟩ : ∃ k, d = k + 1 := Nat.exists_eq_add_one_of_ne_zero hd
          rw [Nat.add_sub_cancel] at h ⊢
          rw [ih h, List.append_assoc, List.singleton_append]
      · case isFalse hclose =>
        rw [if_neg hclose, if_neg (fun hcomma => Nat.succ_ne_zero d hcomma.2), ih h,
          List.append_assoc, List.singleton_append]

theorem whole_paren (h : nesting ts 0 = some 0) :
    Whole (.symbol .lparen :: (ts ++ [.symbol .rparen])) := by
  intro rest item
  rw [List.cons_append, List.append_assoc, List.singleton_append, splitItems, if_pos rfl,
    splitItems_of_nesting h, splitItems, if_neg (by decide), if_pos rfl, if_neg (by decide)]
  simp

/-- **A list of whole items is read back.** -/
theorem splitItems_intercalate {items : List (List Token)} (hne : items ≠ [])
    (h : ∀ item ∈ items, Whole item) :
    splitItems ([.symbol .comma].intercalate items ++ .symbol .rparen :: rest) 0 [] =
      some (items, rest) := by
  induction items with
  | nil => exact absurd rfl hne
  | cons item items ih =>
    have hitem : Whole item := h item List.mem_cons_self
    cases items with
    | nil =>
      rw [List.intercalate_singleton, hitem, splitItems, if_neg (by decide), if_pos rfl, if_pos rfl]
      rfl
    | cons next items =>
      have hrest := ih (List.cons_ne_nil next items) fun i hi => h i (List.mem_cons_of_mem item hi)
      rw [List.intercalate_cons_cons, List.append_assoc, List.append_assoc, hitem,
        List.singleton_append, splitItems, if_neg (by decide), if_neg (by decide),
        if_pos ⟨rfl, rfl⟩, hrest]
      rfl

end Whole

/-! ### What stands in no parentheses -/

section Outer

variable {ts us : List Token}

theorem outer_cons {t : Token} (h : t.IsAtom) : outer (t :: ts) 0 = t :: outer ts 0 := by
  rw [outer, if_neg h.1, if_neg h.2.1, if_pos rfl]

theorem outer_of_nesting {d d' : ℕ} (h : nesting ts d = some d') :
    outer (ts ++ us) (d + 1) = outer us (d' + 1) := by
  induction ts generalizing d with
  | nil =>
    cases h
    rfl
  | cons t ts ih =>
    rw [nesting] at h
    rw [List.cons_append, outer]
    split at h
    · case isTrue hopen => rw [if_pos hopen, ih h]
    · case isFalse hopen =>
      rw [if_neg hopen]
      split at h
      · case isTrue hclose =>
        rw [if_pos hclose]
        split at h
        · cases h
        · case isFalse hd =>
          obtain ⟨k, rfl⟩ := Nat.exists_eq_succ_of_ne_zero hd
          exact ih h
      · case isFalse hclose =>
        rw [if_neg hclose, if_neg (Nat.succ_ne_zero d), ih h]

theorem outer_paren (h : nesting ts 0 = some 0) :
    outer (.symbol .lparen :: (ts ++ (.symbol .rparen :: us))) 0 = outer us 0 := by
  rw [outer, if_pos rfl, outer_of_nesting h, outer, if_neg (by decide), if_pos rfl]

end Outer

/-! ### Writing lists -/

section Intercalate

variable {α β : Type}

/-- A map that respects appending does so for lists with something in between. -/
theorem map_intercalate {f : List α → List β} (hnil : f [] = [])
    (happend : ∀ xs ys, f (xs ++ ys) = f xs ++ f ys) (sep : List α) (items : List (List α)) :
    f (sep.intercalate items) = (f sep).intercalate (items.map f) := by
  induction items with
  | nil => simpa using hnil
  | cons item items ih =>
    cases items with
    | nil => simp
    | cons next items =>
      rw [List.intercalate_cons_cons, happend, happend, ih]
      simp only [List.map_cons, List.intercalate_cons_cons]

/-- The pieces of a list of items. -/
def itemPieces (items : List (List Piece)) : List Piece :=
  [.token (.symbol .comma), .space].intercalate items

theorem render_itemPieces (items : List (List Piece)) :
    render (itemPieces items) = [',', ' '].intercalate (items.map render) :=
  map_intercalate rfl render_append _ items

theorem tokens_itemPieces (items : List (List Piece)) :
    tokens (itemPieces items) = [.symbol .comma].intercalate (items.map tokens) :=
  map_intercalate rfl tokens_append _ items

/-- Items that can stand before a comma and before a parenthesis can be written one after the
other. -/
theorem separated_itemPieces {items : List (List Piece)}
    (h : ∀ item ∈ items, Separated item (some ',') ∧ Separated item (some ')')) :
    Separated (itemPieces items) (some ')') := by
  unfold itemPieces
  induction items with
  | nil => simp [Separated]
  | cons item items ih =>
    cases items with
    | nil =>
      rw [List.intercalate_singleton]
      exact (h item List.mem_cons_self).2
    | cons next items =>
      have hrest := ih fun i hi => h i (List.mem_cons_of_mem item hi)
      rw [List.intercalate_cons_cons, List.append_assoc]
      exact (h item List.mem_cons_self).1.append ⟨trivial, rfl, trivial, rfl, hrest⟩

end Intercalate

end Lexing
