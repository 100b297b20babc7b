import SqliteScanner.Internal.Precedence

/-!
# Operands and their places

A writer of SQL puts the text of an operand between other texts, and does not look at it again. Whether
the operand is still read as it was meant depends on how strongly it binds and on the place it is put
in. `Binds x n` says that a term is read as it is written, and that it binds at least as strongly as
`n`. There is one rule for each way to put terms together.

A `Context` is a term with one place left out. What stands before and after the place are texts
(`text_fill`), so that filling a place is concatenation. `grouped_fill` says when a term can be
exchanged for another one: if it binds at least as strongly. So it is enough to look at a place once,
filled with the weakest operand that it is made for.

## Main definitions

* `Term.Binds` — read as written, and bound at least so strongly
* `ReadsAs` — what is read from a text
* `Context`, `Context.fill` — terms with a place for an operand

## Main results

* `grouped_fill` — the operand of a grouped term can be exchanged for a stronger one
* `readsAs_fill` — what is read from the text before, the operand's and the text after
-/

namespace Precedence

open Lexing

/-! ### Binding -/

/-- The term is read as it is written, and it binds at least as strongly as `n`. -/
def Term.Binds (x : Term .expr) (n : ℕ) : Prop := x.Grouped ∧ n ≤ x.level

/-- A text is read as a term, and no comment starts in it. -/
def ReadsAs (s : Text) (x : Term .expr) : Prop := read s = some x ∧ commented none s = false

section Binds

variable {x y z l r : Term .expr} {m n : ℕ}

theorem Term.Binds.mono (h : x.Binds m) (hn : n ≤ m) : x.Binds n := ⟨h.1, Nat.le_trans hn h.2⟩

theorem readsAs_text (h : x.Grouped) : ReadsAs x.text x := ⟨read_text h, commented_text h⟩

theorem binds_binary (op : BinaryOp) (hl : l.Binds op.level) (hr : r.Binds (op.level + 1)) :
    (Term.binary op l r).Binds op.level :=
  ⟨⟨hl.1, hr.1, hl.2, hr.2⟩, le_rfl⟩

theorem BinaryOp.level_lt_collateLevel (op : BinaryOp) : op.level < collateLevel := by
  cases op <;> decide

/-- What binds as strongly as `COLLATE` can be an operand of every binary operator. -/
theorem Term.Binds.binary (hl : l.Binds collateLevel) (hr : r.Binds collateLevel) (op : BinaryOp) :
    (Term.binary op l r).Binds op.level :=
  binds_binary op (hl.mono (Nat.le_of_lt op.level_lt_collateLevel))
    (hr.mono op.level_lt_collateLevel)

theorem binds_between (hx : x.Binds rangeLevel) (hy : y.Binds (rangeLevel + 1))
    (hz : z.Binds (rangeLevel + 1)) : (x.between y z).Binds rangeLevel :=
  ⟨⟨hx.1, hy.1, hz.1, hx.2, hy.2, hz.2⟩, le_rfl⟩

end Binds

/-! ### Lists -/

/-- The arguments of a call. -/
def args : List (Term .expr) → Term .args
  | [] => .nil
  | x :: xs => .cons x (args xs)

/-- The branches of a `CASE`. -/
def whens : List (Term .expr × Term .expr) → Term .whens
  | [] => .noWhen
  | (condition, result) :: rest => .when condition result (whens rest)

def optional : Option (Term .expr) → Term .opt
  | none => .absent
  | some x => .present x

theorem grouped_args {xs : List (Term .expr)} : (args xs).Grouped ↔ ∀ x ∈ xs, x.Grouped := by
  induction xs with
  | nil => simp [args, Term.Grouped]
  | cons x xs ih => rw [args, Term.Grouped, ih, List.forall_mem_cons]

theorem grouped_whens {branches : List (Term .expr × Term .expr)} :
    (whens branches).Grouped ↔ ∀ b ∈ branches, b.1.Grouped ∧ b.2.Grouped := by
  induction branches with
  | nil => simp [whens, Term.Grouped]
  | cons b branches ih =>
    obtain ⟨condition, result⟩ := b
    rw [whens, Term.Grouped, ih, List.forall_mem_cons, and_assoc]

theorem grouped_optional {o : Option (Term .expr)} : (optional o).Grouped ↔ ∀ x ∈ o, x.Grouped := by
  cases o <;> simp [optional, Term.Grouped]

/-- Terms with an operator between them. -/
def chain (op : BinaryOp) (first : Term .expr) (rest : List (Term .expr)) : Term .expr :=
  rest.foldl (.binary op) first

theorem binds_chain (op : BinaryOp) {first : Term .expr} {rest : List (Term .expr)}
    (hfirst : first.Binds op.level) (hrest : ∀ x ∈ rest, x.Binds (op.level + 1)) :
    (chain op first rest).Binds op.level := by
  induction rest generalizing first with
  | nil => exact hfirst
  | cons x rest ih =>
    rw [List.forall_mem_cons] at hrest
    exact ih (binds_binary op hfirst hrest.1) hrest.2

theorem text_binary (op : BinaryOp) (l r : Term .expr) :
    (Term.binary op l r).text = l.text ++ (render (spaced op.tokens) ++ (' ' :: r.text)) := by
  simp [Term.text, Term.pieces, render, Piece.text]

theorem intercalate_append_cons {α : Type*} (separator a b : List α) (l : List (List α)) :
    separator.intercalate ((a ++ b) :: l) = a ++ separator.intercalate (b :: l) := by
  cases l with
  | nil => rw [List.intercalate_singleton, List.intercalate_singleton]
  | cons c l =>
    simp only [List.intercalate_cons_cons, List.append_assoc]

theorem text_chain (op : BinaryOp) (first : Term .expr) (rest : List (Term .expr)) :
    (chain op first rest).text =
      (render (spaced op.tokens) ++ [' ']).intercalate ((first :: rest).map Term.text) := by
  induction rest generalizing first with
  | nil => exact List.intercalate_singleton.symm
  | cons x rest ih =>
    have htext : (Term.binary op first x).text =
        (first.text ++ (render (spaced op.tokens) ++ [' '])) ++ x.text := by
      simp only [text_binary, List.append_assoc, List.cons_append, List.nil_append]
    calc (chain op (.binary op first x) rest).text
        = (render (spaced op.tokens) ++ [' ']).intercalate
            ((Term.binary op first x).text :: rest.map Term.text) := ih _
      _ = first.text ++ (render (spaced op.tokens) ++ [' ']) ++
            (render (spaced op.tokens) ++ [' ']).intercalate (x.text :: rest.map Term.text) := by
        rw [htext, intercalate_append_cons]
      _ = _ := by rw [List.map_cons, List.map_cons, List.intercalate_cons_cons]

/-! ### Terms that carry their strength -/

/-- A term that is read as it is written. -/
structure Phrase where
  term : Term .expr
  grouped : term.Grouped

/-- A term that can be an operand of every binary operator. It is atomic, unless it is `weak`. -/
structure Operand (weak : Prop) where
  term : Term .expr
  binds : term.Binds collateLevel
  atomic : ¬weak → term.Binds atomLevel

abbrev Atom := Operand False

section Operand

variable {p q r : Prop}

def Operand.imp (x : Operand p) (h : p → q) : Operand q :=
  ⟨x.term, x.binds, fun hq => x.atomic fun hp => hq (h hp)⟩

def Operand.phrase (x : Operand p) : Phrase := ⟨x.term, x.binds.1⟩

def Atom.of (x : Term .expr) (h : x.Binds atomLevel) : Atom := ⟨x, h.mono (by decide), fun _ => h⟩

instance : CoeOut (Operand p) Phrase := ⟨Operand.phrase⟩

def Operand.ofAtom (x : Atom) : Operand p :=
  x.imp False.elim

instance : CoeTail Atom (Operand p) := ⟨Operand.ofAtom⟩

namespace Sql

def null : Atom := .of .null ⟨trivial, le_rfl⟩

def number (n : Numeral) : Atom := .of (.number n.text) ⟨⟨n, rfl⟩, le_rfl⟩

def str (s : Text) : Atom := .of (.string s) ⟨trivial, le_rfl⟩

def blob (hex : Text) (h : ∀ c ∈ hex, isHex c = true) : Atom := .of (.blob hex) ⟨h, le_rfl⟩

def column (qualifier : Option Text) (name : Text) : Atom :=
  .of (.column qualifier name) ⟨trivial, le_rfl⟩

def paren (x : Phrase) : Atom := .of x.term.paren ⟨x.grouped, le_rfl⟩

def castTo (x : Phrase) (type : Name) : Atom := .of (x.term.cast type) ⟨x.grouped, le_rfl⟩

theorem grouped_optional_map (o : Option Phrase) : (optional (o.map Phrase.term)).Grouped :=
  grouped_optional.mpr fun x hx => by
    obtain ⟨y, -, rfl⟩ := Option.map_eq_some_iff.mp hx
    exact y.grouped

theorem grouped_args_map (xs : List Phrase) : (args (xs.map Phrase.term)).Grouped :=
  grouped_args.mpr (List.forall_mem_map.mpr fun x _ => x.grouped)

/-- A call of a function, and the `FILTER` of an aggregate. -/
def aggregate (f : Name) (distinct : Bool) (xs : List Phrase) (filter : Option Phrase) : Atom :=
  .of (.call f distinct (args (xs.map Phrase.term)) (optional (filter.map Phrase.term)))
    ⟨⟨grouped_args_map xs, grouped_optional_map filter⟩, le_rfl⟩

def call (f : Name) (xs : List Phrase) : Atom := aggregate f false xs none

def callStar (f : Name) (filter : Option Phrase) : Atom :=
  .of (.callStar f (optional (filter.map Phrase.term))) ⟨grouped_optional_map filter, le_rfl⟩

def caseWhen (operand : Option Phrase) (first : Phrase × Phrase) (rest : List (Phrase × Phrase))
    (otherwise : Option Phrase) : Atom :=
  .of (.caseWhen (optional (operand.map Phrase.term))
      (whens ((first :: rest).map (Prod.map Phrase.term Phrase.term)))
      (optional (otherwise.map Phrase.term)))
    ⟨⟨grouped_optional_map operand,
      grouped_whens.mpr (List.forall_mem_map.mpr fun b _ => ⟨b.1.grouped, b.2.grouped⟩), rfl,
      grouped_optional_map otherwise⟩, le_rfl⟩

def collate (x : Atom) (name : Name) : Operand True :=
  ⟨x.term.collate name, ⟨x.binds, le_rfl⟩, fun h => absurd trivial h⟩

def minus (x : Atom) : Operand True :=
  ⟨x.term.unary .minus, ⟨x.atomic id, (by decide : collateLevel ≤ unaryLevel)⟩, fun h => absurd trivial h⟩

def tilde (x : Atom) : Operand True :=
  ⟨x.term.unary .tilde, ⟨x.atomic id, (by decide : collateLevel ≤ unaryLevel)⟩, fun h => absurd trivial h⟩

def negation (x : Operand p) : Phrase := ⟨x.term.unary .not_, x.binds.mono (by decide)⟩

def binary (op : BinaryOp) (x : Operand p) (y : Operand q) : Phrase :=
  ⟨.binary op x.term y.term, (x.binds.binary y.binds op).1⟩

def between (x : Operand p) (lower : Operand q) (upper : Operand r) : Phrase :=
  ⟨x.term.between lower.term upper.term, (binds_between (x.binds.mono (by decide))
    (lower.binds.mono (by decide)) (upper.binds.mono (by decide))).1⟩

def inList (negated : Bool) (x : Operand p) (list : List Phrase) : Phrase :=
  ⟨.inList negated x.term (args (list.map Phrase.term)),
    x.binds.1, grouped_args_map list, Nat.le_trans (by decide) x.binds.2⟩

/-- Operands with an operator between them. -/
def joined (op : BinaryOp) (first : Operand p) (rest : List (Operand q)) : Phrase :=
  ⟨chain op first.term (rest.map Operand.term),
    (binds_chain op (first.binds.mono (Nat.le_of_lt op.level_lt_collateLevel))
      (List.forall_mem_map.mpr fun x _ => x.binds.mono op.level_lt_collateLevel)).1⟩

end Sql

end Operand

/-! ### Places -/

/-- A term with one place for an operand. -/
inductive Context : Kind → Type where
  | hole : Context .expr
  | callArgs (name : Name) (distinct : Bool) (args : Context .args) (filter : Term .opt) :
      Context .expr
  | callFilter (name : Name) (distinct : Bool) (args : Term .args) (filter : Context .opt) :
      Context .expr
  | callStarFilter (name : Name) (filter : Context .opt) : Context .expr
  | cast (x : Context .expr) (type : Name) : Context .expr
  | caseOperand (operand : Context .opt) (whens : Term .whens) (otherwise : Term .opt) :
      Context .expr
  | caseWhens (operand : Term .opt) (whens : Context .whens) (otherwise : Term .opt) : Context .expr
  | caseElse (operand : Term .opt) (whens : Term .whens) (otherwise : Context .opt) : Context .expr
  | paren (x : Context .expr) : Context .expr
  | unary (op : UnaryOp) (x : Context .expr) : Context .expr
  | binaryLeft (op : BinaryOp) (l : Context .expr) (r : Term .expr) : Context .expr
  | binaryRight (op : BinaryOp) (l : Term .expr) (r : Context .expr) : Context .expr
  | between (x : Context .expr) (lower upper : Term .expr) : Context .expr
  | betweenLower (x : Term .expr) (lower : Context .expr) (upper : Term .expr) : Context .expr
  | betweenUpper (x lower : Term .expr) (upper : Context .expr) : Context .expr
  | inList (negated : Bool) (x : Context .expr) (list : Term .args) : Context .expr
  | inListItem (negated : Bool) (x : Term .expr) (list : Context .args) : Context .expr
  | collate (x : Context .expr) (name : Name) : Context .expr
  | head (x : Context .expr) (xs : Term .args) : Context .args
  | tail (x : Term .expr) (xs : Context .args) : Context .args
  | whenCondition (condition : Context .expr) (result : Term .expr) (whens : Term .whens) :
      Context .whens
  | whenResult (condition : Term .expr) (result : Context .expr) (whens : Term .whens) :
      Context .whens
  | whenRest (condition result : Term .expr) (whens : Context .whens) : Context .whens
  | present (x : Context .expr) : Context .opt

namespace Context

/-- Put a term into the place. -/
def fill : {k : Kind} → Context k → Term .expr → Term k
  | _, hole, t => t
  | _, callArgs f distinct xs filter, t => .call f distinct (xs.fill t) filter
  | _, callFilter f distinct xs filter, t => .call f distinct xs (filter.fill t)
  | _, callStarFilter f filter, t => .callStar f (filter.fill t)
  | _, cast x type, t => .cast (x.fill t) type
  | _, caseOperand o ws p, t => .caseWhen (o.fill t) ws p
  | _, caseWhens o ws p, t => .caseWhen o (ws.fill t) p
  | _, caseElse o ws p, t => .caseWhen o ws (p.fill t)
  | _, paren x, t => .paren (x.fill t)
  | _, unary op x, t => .unary op (x.fill t)
  | _, binaryLeft op l r, t => .binary op (l.fill t) r
  | _, binaryRight op l r, t => .binary op l (r.fill t)
  | _, between x lower upper, t => .between (x.fill t) lower upper
  | _, betweenLower x lower upper, t => .between x (lower.fill t) upper
  | _, betweenUpper x lower upper, t => .between x lower (upper.fill t)
  | _, inList negated x list, t => .inList negated (x.fill t) list
  | _, inListItem negated x list, t => .inList negated x (list.fill t)
  | _, collate x name, t => .collate (x.fill t) name
  | _, head x xs, t => .cons (x.fill t) xs
  | _, tail x xs, t => .cons x (xs.fill t)
  | _, whenCondition condition result ws, t => .when (condition.fill t) result ws
  | _, whenResult condition result ws, t => .when condition (result.fill t) ws
  | _, whenRest condition result ws, t => .when condition result (ws.fill t)
  | _, present x, t => .present (x.fill t)

variable {x y : Term .expr}

theorem isNil_fill (c : Context .args) (t : Term .expr) : (c.fill t).isNil = false := by
  cases c <;> rfl

theorem isNoWhen_fill (c : Context .whens) (t : Term .expr) : (c.fill t).isNoWhen = false := by
  cases c <;> rfl

theorem isPresent_fill (c : Context .opt) (t : Term .expr) : (c.fill t).isPresent = true := by
  cases c
  rfl

/-- A place deeper inside does not change how strongly the whole binds. -/
theorem level_fill (c : Context .expr) (hlevel : y.level ≤ x.level) :
    (c.fill y).level ≤ (c.fill x).level := by
  cases c with
  | hole => exact hlevel
  | _ => exact le_rfl

/-- **The operand of a grouped term can be exchanged for one that binds at least as strongly.** -/
theorem grouped_fill (hx : x.Grouped) (hlevel : y.level ≤ x.level) :
    {k : Kind} → (c : Context k) → (c.fill y).Grouped → (c.fill x).Grouped
  | _, hole, _ => hx
  | _, callArgs _ _ xs _, h => ⟨grouped_fill hx hlevel xs h.1, h.2⟩
  | _, callFilter _ _ _ filter, h => ⟨h.1, grouped_fill hx hlevel filter h.2⟩
  | _, callStarFilter _ filter, h => grouped_fill hx hlevel filter h
  | _, cast c _, h => grouped_fill hx hlevel c h
  | _, caseOperand o _ _, h => ⟨grouped_fill hx hlevel o h.1, h.2⟩
  | _, caseWhens _ ws _, h =>
    ⟨h.1, grouped_fill hx hlevel ws h.2.1, isNoWhen_fill ws x, h.2.2.2⟩
  | _, caseElse _ _ p, h => ⟨h.1, h.2.1, h.2.2.1, grouped_fill hx hlevel p h.2.2.2⟩
  | _, paren c, h => grouped_fill hx hlevel c h
  | _, unary _ c, h => ⟨grouped_fill hx hlevel c h.1, Nat.le_trans h.2 (level_fill c hlevel)⟩
  | _, binaryLeft _ l _, h =>
    ⟨grouped_fill hx hlevel l h.1, h.2.1, Nat.le_trans h.2.2.1 (level_fill l hlevel), h.2.2.2⟩
  | _, binaryRight _ _ r, h =>
    ⟨h.1, grouped_fill hx hlevel r h.2.1, h.2.2.1,
      Nat.lt_of_lt_of_le h.2.2.2 (level_fill r hlevel)⟩
  | _, between c _ _, h =>
    ⟨grouped_fill hx hlevel c h.1, h.2.1, h.2.2.1, Nat.le_trans h.2.2.2.1 (level_fill c hlevel),
      h.2.2.2.2⟩
  | _, betweenLower _ c _, h =>
    ⟨h.1, grouped_fill hx hlevel c h.2.1, h.2.2.1, h.2.2.2.1,
      Nat.lt_of_lt_of_le h.2.2.2.2.1 (level_fill c hlevel), h.2.2.2.2.2⟩
  | _, betweenUpper _ _ c, h =>
    ⟨h.1, h.2.1, grouped_fill hx hlevel c h.2.2.1, h.2.2.2.1, h.2.2.2.2.1,
      Nat.lt_of_lt_of_le h.2.2.2.2.2 (level_fill c hlevel)⟩
  | _, inList _ c _, h =>
    ⟨grouped_fill hx hlevel c h.1, h.2.1, Nat.le_trans h.2.2 (level_fill c hlevel)⟩
  | _, inListItem _ _ list, h => ⟨h.1, grouped_fill hx hlevel list h.2.1, h.2.2⟩
  | _, collate c _, h => ⟨grouped_fill hx hlevel c h.1, Nat.le_trans h.2 (level_fill c hlevel)⟩
  | _, head c _, h => ⟨grouped_fill hx hlevel c h.1, h.2⟩
  | _, tail _ xs, h => ⟨h.1, grouped_fill hx hlevel xs h.2⟩
  | _, whenCondition c _ _, h => ⟨grouped_fill hx hlevel c h.1, h.2⟩
  | _, whenResult _ c _, h => ⟨h.1, grouped_fill hx hlevel c h.2.1, h.2.2⟩
  | _, whenRest _ _ ws, h => ⟨h.1, h.2.1, grouped_fill hx hlevel ws h.2.2⟩
  | _, present c, h => grouped_fill hx hlevel c h

/-! ### The texts before and after a place -/

/-- What is written before the place. -/
def before : {k : Kind} → Context k → List Piece
  | _, hole => []
  | _, callArgs f distinct xs _ =>
    [.token (.word f.1), .token (.symbol .lparen)] ++
      ((if distinct then [.token (.keyword .distinct), .space] else []) ++ xs.before)
  | _, callFilter f distinct xs filter =>
    [.token (.word f.1), .token (.symbol .lparen)] ++
      ((if distinct then [.token (.keyword .distinct), .space] else []) ++
        (xs.pieces ++ (.token (.symbol .rparen) ::
          (spaced [.keyword .filter, .symbol .lparen] ++
            ([.token (.keyword .where_), .space] ++ filter.before)))))
  | _, callStarFilter f filter =>
    [.token (.word f.1), .token (.symbol .lparen), .token (.symbol .star),
      .token (.symbol .rparen)] ++
      (spaced [.keyword .filter, .symbol .lparen] ++
        ([.token (.keyword .where_), .space] ++ filter.before))
  | _, cast c _ => [.token (.keyword .cast), .token (.symbol .lparen)] ++ c.before
  | _, caseOperand o _ _ => .token (.keyword .case_) :: .space :: o.before
  | _, caseWhens o ws _ =>
    .token (.keyword .case_) :: (surround o.isPresent [.space] o.pieces [] ++ ws.before)
  | _, caseElse o ws p =>
    .token (.keyword .case_) :: (surround o.isPresent [.space] o.pieces [] ++
      (ws.pieces ++ (spaced [.keyword .else_] ++ (.space :: p.before))))
  | _, paren c => .token (.symbol .lparen) :: c.before
  | _, unary op c => unaryPieces op ++ c.before
  | _, binaryLeft _ l _ => l.before
  | _, binaryRight op l r => l.pieces ++ (spaced op.tokens ++ (.space :: r.before))
  | _, between c _ _ => c.before
  | _, betweenLower x c _ => x.pieces ++ (spaced [.keyword .between] ++ (.space :: c.before))
  | _, betweenUpper x lower c =>
    x.pieces ++ (spaced [.keyword .between] ++ (.space :: (lower.pieces ++
      (spaced [.keyword .and_] ++ (.space :: c.before)))))
  | _, inList _ c _ => c.before
  | _, inListItem negated x list =>
    x.pieces ++ (spaced ((if negated then [.keyword .not_] else []) ++ [.keyword .in_]) ++
      (.space :: .token (.symbol .lparen) :: list.before))
  | _, collate c _ => c.before
  | _, head c _ => c.before
  | _, tail x xs => x.pieces ++ (.token (.symbol .comma) :: .space :: xs.before)
  | _, whenCondition c _ _ => spaced [.keyword .when_] ++ (.space :: c.before)
  | _, whenResult condition c _ =>
    spaced [.keyword .when_] ++ (.space :: (condition.pieces ++
      (spaced [.keyword .then_] ++ (.space :: c.before))))
  | _, whenRest condition result ws =>
    spaced [.keyword .when_] ++ (.space :: (condition.pieces ++
      (spaced [.keyword .then_] ++ (.space :: (result.pieces ++ ws.before)))))
  | _, present c => c.before

/-- What is written after the place. -/
def after : {k : Kind} → Context k → List Piece
  | _, hole => []
  | _, callArgs _ _ xs filter =>
    xs.after ++ (.token (.symbol .rparen) :: filterPieces filter.isPresent filter.pieces)
  | _, callFilter _ _ _ filter => filter.after ++ [.token (.symbol .rparen)]
  | _, callStarFilter _ filter => filter.after ++ [.token (.symbol .rparen)]
  | _, cast c type => c.after ++ (spaced [.keyword .as_, .word type.1] ++ [.token (.symbol .rparen)])
  | _, caseOperand o ws p =>
    o.after ++ (ws.pieces ++
      (surround p.isPresent (spaced [.keyword .else_] ++ [.space]) p.pieces [] ++
        spaced [.keyword .end_]))
  | _, caseWhens _ ws p =>
    ws.after ++ (surround p.isPresent (spaced [.keyword .else_] ++ [.space]) p.pieces [] ++
      spaced [.keyword .end_])
  | _, caseElse _ _ p => p.after ++ spaced [.keyword .end_]
  | _, paren c => c.after ++ [.token (.symbol .rparen)]
  | _, unary _ c => c.after
  | _, binaryLeft op l r => l.after ++ (spaced op.tokens ++ (.space :: r.pieces))
  | _, binaryRight _ _ r => r.after
  | _, between c lower upper =>
    c.after ++ (spaced [.keyword .between] ++ (.space :: (lower.pieces ++
      (spaced [.keyword .and_] ++ (.space :: upper.pieces)))))
  | _, betweenLower _ c upper => c.after ++ (spaced [.keyword .and_] ++ (.space :: upper.pieces))
  | _, betweenUpper _ _ c => c.after
  | _, inList negated c list =>
    c.after ++ (spaced ((if negated then [.keyword .not_] else []) ++ [.keyword .in_]) ++
      (.space :: .token (.symbol .lparen) :: (list.pieces ++ [.token (.symbol .rparen)])))
  | _, inListItem _ _ list => list.after ++ [.token (.symbol .rparen)]
  | _, collate c name => c.after ++ spaced [.keyword .collate, .word name.1]
  | _, head c xs =>
    c.after ++ ((if xs.isNil then [] else [.token (.symbol .comma), .space]) ++ xs.pieces)
  | _, tail _ xs => xs.after
  | _, whenCondition c result ws =>
    c.after ++ (spaced [.keyword .then_] ++ (.space :: (result.pieces ++ ws.pieces)))
  | _, whenResult _ c ws => c.after ++ ws.pieces
  | _, whenRest _ _ ws => ws.after
  | _, present c => c.after

theorem pieces_fill {k : Kind} (c : Context k) (t : Term .expr) :
    (c.fill t).pieces = c.before ++ (t.pieces ++ c.after) := by
  induction c with
  | hole => simp [fill, before, after]
  | callFilter f distinct xs filter ih | callStarFilter f filter ih =>
    simp [fill, before, after, Term.pieces, ih, filterPieces, surround, isPresent_fill]
  | caseOperand o ws p ih | caseWhens o ws p ih | caseElse o ws p ih =>
    simp [fill, before, after, Term.pieces, ih, surround, isPresent_fill]
  | tail x xs ih => simp [fill, before, after, Term.pieces, ih, isNil_fill]
  | _ => simp [fill, before, after, Term.pieces, *]

theorem text_fill (c : Context .expr) (t : Term .expr) :
    (c.fill t).text = render c.before ++ (t.text ++ render c.after) := by
  rw [Term.text, pieces_fill, render_append, render_append, Term.text]

/-- The place is made for operands that bind at least as strongly as `n`: a term is grouped there that
does not bind more strongly. -/
def Accepts (c : Context .expr) (n : ℕ) : Prop := ∃ y : Term .expr, y.level ≤ n ∧ (c.fill y).Grouped

/-- **An operand is read in its place as it is read alone**, if the place is made for it. -/
theorem readsAs_fill {n : ℕ} (hx : x.Binds n) (c : Context .expr) (hc : c.Accepts n) :
    ReadsAs (render c.before ++ (x.text ++ render c.after)) (c.fill x) := by
  obtain ⟨y, hy, hgrouped⟩ := hc
  have hgrouped := grouped_fill hx.1 (Nat.le_trans hy hx.2) c hgrouped
  rw [← text_fill]
  exact readsAs_text hgrouped

end Context

end Precedence
