import SqliteScanner.Internal.Lexing

/-!
# SQL expressions and the strength of their operators

`Term` is an expression as it is written: parentheses are part of it, and the operands of an operator
stand beside it without any that are not in the term. So a term has a text, but the text need not be
read as the term: what is read is decided by how strongly the operators bind.

`parse` reads tokens, and groups operators by their strength and to the left. A term is read as
itself if its operands bind at least as strongly as their place demands (`Grouped`). Like the
condition on neighbouring tokens, this is a local condition, and it is preserved when a term is put
in a place that accepts operands of its strength.

* `parse_tokens` says that a grouped term is read from its tokens.
* `read_text` says that it is read from its text.
-/

namespace Precedence

open Lexing

/-! ### Terms -/

/-- Expressions, and the lists and optional parts in them. -/
inductive Kind where
  | expr
  | args
  | whens
  | opt

inductive UnaryOp where
  | minus
  | tilde
  | not_
deriving DecidableEq

inductive BinaryOp where
  | or_
  | and_
  | eq
  | ne
  | is_
  | isNot
  | glob
  | lt
  | le
  | gt
  | ge
  | bitAnd
  | bitOr
  | add
  | sub
  | mul
  | div
  | mod
  | concat
deriving DecidableEq

inductive Term : Kind → Type where
  | null : Term .expr
  | number (digits : Text) : Term .expr
  | string (s : Text) : Term .expr
  | blob (hex : Text) : Term .expr
  | column (qualifier : Option Text) (name : Text) : Term .expr
  /-- A call of a function, and the `FILTER` of an aggregate. -/
  | call (name : Name) (distinct : Bool) (args : Term .args) (filter : Term .opt) : Term .expr
  | callStar (name : Name) (filter : Term .opt) : Term .expr
  | cast (x : Term .expr) (type : Name) : Term .expr
  | caseWhen (operand : Term .opt) (whens : Term .whens) (otherwise : Term .opt) : Term .expr
  | paren (x : Term .expr) : Term .expr
  | unary (op : UnaryOp) (x : Term .expr) : Term .expr
  | binary (op : BinaryOp) (l r : Term .expr) : Term .expr
  | between (x lower upper : Term .expr) : Term .expr
  | inList (negated : Bool) (x : Term .expr) (list : Term .args) : Term .expr
  | collate (x : Term .expr) (name : Name) : Term .expr
  | nil : Term .args
  | cons (x : Term .expr) (xs : Term .args) : Term .args
  | noWhen : Term .whens
  | when (condition result : Term .expr) (whens : Term .whens) : Term .whens
  | absent : Term .opt
  | present (x : Term .expr) : Term .opt

/-- The symbol or the words of an operator. -/
def BinaryOp.tokens : BinaryOp → List Token
  | or_ => [.keyword .or_]
  | and_ => [.keyword .and_]
  | eq => [.symbol .eq]
  | ne => [.symbol .ne]
  | is_ => [.keyword .is_]
  | isNot => [.keyword .is_, .keyword .not_]
  | glob => [.keyword .glob]
  | lt => [.symbol .lt]
  | le => [.symbol .le]
  | gt => [.symbol .gt]
  | ge => [.symbol .ge]
  | bitAnd => [.symbol .bitAnd]
  | bitOr => [.symbol .bitOr]
  | add => [.symbol .plus]
  | sub => [.symbol .minus]
  | mul => [.symbol .star]
  | div => [.symbol .slash]
  | mod => [.symbol .percent]
  | concat => [.symbol .concat]

/-! ### Texts -/

section Pieces

/-- Tokens with a blank before each of them. -/
def spaced (ts : List Token) : List Piece := ts.flatMap fun t => [.space, .token t]

def Term.isPresent : Term .opt → Bool
  | absent => false
  | present _ => true

def Term.isNil : Term .args → Bool
  | nil => true
  | cons _ _ => false

def Term.isNoWhen : Term .whens → Bool
  | noWhen => true
  | when _ _ _ => false

/-- An optional part with what stands before and after it. -/
def surround (isPresent : Bool) (before ps after : List Piece) : List Piece :=
  if isPresent then before ++ (ps ++ after) else []

def columnPieces (qualifier : Option Text) (name : Text) : List Piece :=
  match qualifier with
  | none => [.token (.quoted name)]
  | some q => [.token (.quoted q), .token (.symbol .dot), .token (.quoted name)]

def filterPieces (isPresent : Bool) (ps : List Piece) : List Piece :=
  surround isPresent
    (spaced [.keyword .filter, .symbol .lparen] ++ [.token (.keyword .where_), .space]) ps
    [.token (.symbol .rparen)]

def unaryPieces : UnaryOp → List Piece
  | .minus => [.token (.symbol .minus)]
  | .tilde => [.token (.symbol .tilde)]
  | .not_ => [.token (.keyword .not_), .space]

def Term.pieces : {k : Kind} → Term k → List Piece
  | _, null => [.token (.keyword .null)]
  | _, number digits => [.token (.number digits)]
  | _, string s => [.token (.string s)]
  | _, blob hex => [.token (.blob hex)]
  | _, column qualifier name => columnPieces qualifier name
  | _, call name distinct args filter =>
    [.token (.word name.1), .token (.symbol .lparen)] ++
      ((if distinct then [.token (.keyword .distinct), .space] else []) ++
        (args.pieces ++ (.token (.symbol .rparen) :: filterPieces filter.isPresent filter.pieces)))
  | _, callStar name filter =>
    [.token (.word name.1), .token (.symbol .lparen), .token (.symbol .star),
      .token (.symbol .rparen)] ++ filterPieces filter.isPresent filter.pieces
  | _, cast x type =>
    [.token (.keyword .cast), .token (.symbol .lparen)] ++
      (x.pieces ++ (spaced [.keyword .as_, .word type.1] ++ [.token (.symbol .rparen)]))
  | _, caseWhen operand whens otherwise =>
    .token (.keyword .case_) :: (surround operand.isPresent [.space] operand.pieces [] ++
      (whens.pieces ++
        (surround otherwise.isPresent (spaced [.keyword .else_] ++ [.space]) otherwise.pieces [] ++
          spaced [.keyword .end_])))
  | _, paren x => .token (.symbol .lparen) :: (x.pieces ++ [.token (.symbol .rparen)])
  | _, unary op x => unaryPieces op ++ x.pieces
  | _, binary op l r => l.pieces ++ (spaced op.tokens ++ (.space :: r.pieces))
  | _, between x lower upper =>
    x.pieces ++ (spaced [.keyword .between] ++ (.space :: (lower.pieces ++
      (spaced [.keyword .and_] ++ (.space :: upper.pieces)))))
  | _, inList negated x list =>
    x.pieces ++ (spaced ((if negated then [.keyword .not_] else []) ++ [.keyword .in_]) ++
      (.space :: .token (.symbol .lparen) :: (list.pieces ++ [.token (.symbol .rparen)])))
  | _, collate x name => x.pieces ++ spaced [.keyword .collate, .word name.1]
  | _, nil => []
  | _, cons x xs =>
    x.pieces ++ ((if xs.isNil then [] else [.token (.symbol .comma), .space]) ++ xs.pieces)
  | _, noWhen => []
  | _, when condition result whens =>
    spaced [.keyword .when_] ++ (.space :: (condition.pieces ++
      (spaced [.keyword .then_] ++ (.space :: (result.pieces ++ whens.pieces)))))
  | _, absent => []
  | _, present x => x.pieces

def Term.text (x : Term .expr) : Text := render x.pieces

def Term.tokens {k : Kind} (x : Term k) : List Token := Lexing.tokens x.pieces

end Pieces

/-! ### Strengths -/

/-- How strongly an operator binds. -/
def BinaryOp.level : BinaryOp → ℕ
  | or_ => 0
  | and_ => 1
  | eq | ne | is_ | isNot | glob => 3
  | lt | le | gt | ge => 4
  | bitAnd | bitOr => 6
  | add | sub => 7
  | mul | div | mod => 8
  | concat => 9

def notLevel : ℕ := 2

/-- `BETWEEN` and `IN` bind like equality. -/
def rangeLevel : ℕ := 3

def collateLevel : ℕ := 10

def unaryLevel : ℕ := 11

/-- What is not divided by any operator. -/
def atomLevel : ℕ := 12

def UnaryOp.level : UnaryOp → ℕ
  | minus | tilde => unaryLevel
  | not_ => notLevel

def Term.level : Term .expr → ℕ
  | unary op _ => op.level
  | binary op _ _ => op.level
  | between _ _ _ => rangeLevel
  | inList _ _ _ => rangeLevel
  | collate _ _ => collateLevel
  | _ => atomLevel

/-- The strength that the operand of a sign or of `NOT` has. A sign is written directly before its
operand, so that the operand must not start with a sign. -/
def UnaryOp.operandLevel : UnaryOp → ℕ
  | minus | tilde => atomLevel
  | not_ => notLevel

/-- Every operand binds as strongly as its place demands. -/
def Term.Grouped : {k : Kind} → Term k → Prop
  | _, number digits => ∃ n : Numeral, digits = n.text
  | _, blob hex => ∀ c ∈ hex, isHex c = true
  | _, call _ _ args filter => args.Grouped ∧ filter.Grouped
  | _, callStar _ filter => filter.Grouped
  | _, cast x _ => x.Grouped
  | _, caseWhen operand whens otherwise =>
    operand.Grouped ∧ whens.Grouped ∧ whens.isNoWhen = false ∧ otherwise.Grouped
  | _, paren x => x.Grouped
  | _, unary op x => x.Grouped ∧ op.operandLevel ≤ x.level
  | _, binary op l r => l.Grouped ∧ r.Grouped ∧ op.level ≤ l.level ∧ op.level < r.level
  | _, between x lower upper =>
    x.Grouped ∧ lower.Grouped ∧ upper.Grouped ∧ rangeLevel ≤ x.level ∧ rangeLevel < lower.level ∧
      rangeLevel < upper.level
  | _, inList _ x list => x.Grouped ∧ list.Grouped ∧ rangeLevel ≤ x.level
  | _, collate x _ => x.Grouped ∧ collateLevel ≤ x.level
  | _, cons x xs => x.Grouped ∧ xs.Grouped
  | _, when condition result whens => condition.Grouped ∧ result.Grouped ∧ whens.Grouped
  | _, present x => x.Grouped
  | _, _ => True

/-! ### Parsing -/

/-- What can follow an operand. -/
inductive Operator where
  | binary (op : BinaryOp)
  | between
  | inList (negated : Bool)
  | collate

def Operator.level : Operator → ℕ
  | binary op => op.level
  | between => rangeLevel
  | inList _ => rangeLevel
  | collate => collateLevel

def symbolOperator : Symbol → Option BinaryOp
  | .eq => some .eq
  | .ne => some .ne
  | .lt => some .lt
  | .le => some .le
  | .gt => some .gt
  | .ge => some .ge
  | .bitAnd => some .bitAnd
  | .bitOr => some .bitOr
  | .plus => some .add
  | .minus => some .sub
  | .star => some .mul
  | .slash => some .div
  | .percent => some .mod
  | .concat => some .concat
  | _ => none

def keywordOperator (k : Keyword) (ts : List Token) : Option (Operator × List Token) :=
  match k with
  | .or_ => some (.binary .or_, ts)
  | .and_ => some (.binary .and_, ts)
  | .glob => some (.binary .glob, ts)
  | .is_ =>
    if ts.head? = some (.keyword .not_) then some (.binary .isNot, ts.tail)
    else some (.binary .is_, ts)
  | .not_ => if ts.head? = some (.keyword .in_) then some (.inList true, ts.tail) else none
  | .in_ => some (.inList false, ts)
  | .between => some (.between, ts)
  | .collate => some (.collate, ts)
  | _ => none

def operator? : List Token → Option (Operator × List Token)
  | .symbol s :: ts => (symbolOperator s).map fun op => (.binary op, ts)
  | .keyword k :: ts => keywordOperator k ts
  | _ => none

/-- The rest of the tokens after one that must come next. -/
def expect (t : Token) (ts : List Token) : Option (List Token) :=
  if ts.head? = some t then some ts.tail else none

def readName : List Token → Option (Name × List Token)
  | .word w :: ts => if h : IsWord w then some (⟨w, h⟩, ts) else none
  | _ => none

def readColumn (q : Text) : List Token → Term .expr × List Token
  | .symbol .dot :: .quoted name :: ts => (.column (some q) name, ts)
  | ts => (.column none q, ts)

abbrev Parsed (k : Kind) := Option (Term k × List Token)

mutual

/-- Read an expression in which every operator binds at least as strongly as `m`. -/
def parseExpr : ℕ → ℕ → List Token → Parsed .expr
  | 0, _, _ => none
  | n + 1, m, ts => (parseOperand n ts).bind fun r => parseRest n m r.1 r.2

/-- Go on after an operand. -/
def parseRest : ℕ → ℕ → Term .expr → List Token → Parsed .expr
  | 0, m, x, ts =>
    match operator? ts with
    | none => some (x, ts)
    | some (op, _) => if op.level < m then some (x, ts) else none
  | n + 1, m, x, ts =>
    match operator? ts with
    | none => some (x, ts)
    | some (op, rest) =>
      if op.level < m then some (x, ts)
      else (parseOperator n op x rest).bind fun r => parseRest n m r.1 r.2

/-- Read what follows an operator, whose left operand is `x`. -/
def parseOperator : ℕ → Operator → Term .expr → List Token → Parsed .expr
  | 0, _, _, _ => none
  | n + 1, .binary op, x, ts => (parseExpr n (op.level + 1) ts).map fun r => (.binary op x r.1, r.2)
  | n + 1, .between, x, ts =>
    (parseExpr n (rangeLevel + 1) ts).bind fun lower =>
      (expect (.keyword .and_) lower.2).bind fun ts =>
        (parseExpr n (rangeLevel + 1) ts).map fun upper => (.between x lower.1 upper.1, upper.2)
  | n + 1, .inList negated, x, ts =>
    (expect (.symbol .lparen) ts).bind fun ts =>
      (parseArgs n ts).map fun r => (.inList negated x r.1, r.2)
  | _ + 1, .collate, x, ts => (readName ts).map fun r => (.collate x r.1, r.2)

def parseOperand : ℕ → List Token → Parsed .expr
  | 0, _ => none
  | _ + 1, [] => none
  | _ + 1, .number digits :: ts => some (.number digits, ts)
  | _ + 1, .string s :: ts => some (.string s, ts)
  | _ + 1, .blob hex :: ts => some (.blob hex, ts)
  | _ + 1, .quoted q :: ts => some (readColumn q ts)
  | n + 1, .word w :: ts =>
    (readName (.word w :: ts)).bind fun f =>
      (expect (.symbol .lparen) f.2).bind fun ts => parseCall n f.1 ts
  | n + 1, .symbol .lparen :: ts =>
    (parseExpr n 0 ts).bind fun r =>
      (expect (.symbol .rparen) r.2).map fun ts => (.paren r.1, ts)
  | n + 1, .symbol .minus :: ts =>
    (parseExpr n unaryLevel ts).map fun r => (.unary .minus r.1, r.2)
  | n + 1, .symbol .tilde :: ts =>
    (parseExpr n unaryLevel ts).map fun r => (.unary .tilde r.1, r.2)
  | _ + 1, .symbol _ :: _ => none
  | _ + 1, .keyword .null :: ts => some (.null, ts)
  | n + 1, .keyword .not_ :: ts =>
    (parseExpr n notLevel ts).map fun r => (.unary .not_ r.1, r.2)
  | n + 1, .keyword .cast :: ts =>
    (expect (.symbol .lparen) ts).bind fun ts => (parseExpr n 0 ts).bind fun r =>
      (expect (.keyword .as_) r.2).bind fun ts => (readName ts).bind fun type =>
        (expect (.symbol .rparen) type.2).map fun ts => (.cast r.1 type.1, ts)
  | n + 1, .keyword .case_ :: ts => parseCase n ts
  | _ + 1, .keyword _ :: _ => none

/-- The arguments of a function, and its `FILTER`. -/
def parseCall : ℕ → Name → List Token → Parsed .expr
  | 0, _, _ => none
  | n + 1, f, ts =>
    if ts.head? = some (.symbol .star) then
      (expect (.symbol .rparen) ts.tail).bind fun ts =>
        (parseFilter n ts).map fun r => (.callStar f r.1, r.2)
    else if ts.head? = some (.keyword .distinct) then
      (parseArgs n ts.tail).bind fun args =>
        (parseFilter n args.2).map fun r => (.call f true args.1 r.1, r.2)
    else
      (parseArgs n ts).bind fun args =>
        (parseFilter n args.2).map fun r => (.call f false args.1 r.1, r.2)

def parseFilter : ℕ → List Token → Parsed .opt
  | 0, _ => none
  | n + 1, ts =>
    if ts.head? = some (.keyword .filter) then
      (expect (.symbol .lparen) ts.tail).bind fun ts => (expect (.keyword .where_) ts).bind fun ts =>
        (parseExpr n 0 ts).bind fun r =>
          (expect (.symbol .rparen) r.2).map fun ts => (.present r.1, ts)
    else some (.absent, ts)

/-- A list up to the parenthesis that closes it. -/
def parseArgs : ℕ → List Token → Parsed .args
  | 0, _ => none
  | n + 1, ts =>
    if ts.head? = some (.symbol .rparen) then some (.nil, ts.tail) else parseList n ts

def parseList : ℕ → List Token → Parsed .args
  | 0, _ => none
  | n + 1, ts =>
    (parseExpr n 0 ts).bind fun r =>
      if r.2.head? = some (.symbol .comma) then
        (parseList n r.2.tail).map fun s => (.cons r.1 s.1, s.2)
      else (expect (.symbol .rparen) r.2).map fun ts => (.cons r.1 .nil, ts)

def parseCase : ℕ → List Token → Parsed .expr
  | 0, _ => none
  | n + 1, ts =>
    if ts.head? = some (.keyword .when_) then parseBranches n .absent ts
    else (parseExpr n 0 ts).bind fun r => parseBranches n (.present r.1) r.2

/-- The branches of a `CASE`, of which there is at least one. -/
def parseBranches : ℕ → Term .opt → List Token → Parsed .expr
  | 0, _, _ => none
  | n + 1, operand, ts =>
    (parseWhens n ts).bind fun whens =>
      if whens.1.isNoWhen then none
      else if whens.2.head? = some (.keyword .else_) then
        (parseExpr n 0 whens.2.tail).bind fun r =>
          (expect (.keyword .end_) r.2).map fun ts =>
            (.caseWhen operand whens.1 (.present r.1), ts)
      else (expect (.keyword .end_) whens.2).map fun ts => (.caseWhen operand whens.1 .absent, ts)

def parseWhens : ℕ → List Token → Parsed .whens
  | 0, _ => none
  | n + 1, ts =>
    if ts.head? = some (.keyword .when_) then
      (parseExpr n 0 ts.tail).bind fun condition =>
        (expect (.keyword .then_) condition.2).bind fun ts =>
          (parseExpr n 0 ts).bind fun result =>
            (parseWhens n result.2).map fun r => (.when condition.1 result.1 r.1, r.2)
    else some (.noWhen, ts)

end

/-- Read a whole expression. -/
def parse (ts : List Token) : Option (Term .expr) :=
  (parseExpr (4 * ts.length + 1) 0 ts).bind fun r => if r.2 = [] then some r.1 else none

/-- Read the expression of a text. -/
def read (text : Text) : Option (Term .expr) := (tokenize text).bind parse

/-! ### Tokens of terms -/

section Tokens

attribute [local simp] Term.pieces

@[simp] theorem tokens_spaced (ts : List Token) : Lexing.tokens (spaced ts) = ts := by
  induction ts with
  | nil => rfl
  | cons t ts ih =>
    rw [spaced, List.flatMap_cons, tokens_append, ← spaced, ih]
    rfl

variable {x y z l r : Term .expr} {xs : Term .args} {ws : Term .whens} {o p : Term .opt}

def filterTokens (o : Term .opt) : List Token :=
  if o.isPresent then
    .keyword .filter :: .symbol .lparen :: .keyword .where_ :: (o.tokens ++ [.symbol .rparen])
  else []

theorem tokens_filterPieces :
    Lexing.tokens (filterPieces o.isPresent o.pieces) = filterTokens o := by
  cases o <;> simp [filterPieces, filterTokens, surround, Term.isPresent, Term.tokens]

@[simp] theorem tokens_null : Term.null.tokens = [.keyword .null] := rfl

@[simp] theorem tokens_number (ds : Text) : (Term.number ds).tokens = [.number ds] := rfl

@[simp] theorem tokens_string (s : Text) : (Term.string s).tokens = [.string s] := rfl

@[simp] theorem tokens_blob (hex : Text) : (Term.blob hex).tokens = [.blob hex] := rfl

@[simp] theorem tokens_call (f : Name) (distinct : Bool) :
    (Term.call f distinct xs o).tokens = .word f.1 :: .symbol .lparen ::
      ((if distinct then [.keyword .distinct] else []) ++
        (xs.tokens ++ (.symbol .rparen :: filterTokens o))) := by
  cases distinct <;> simp [Term.tokens, tokens_filterPieces]

@[simp] theorem tokens_callStar (f : Name) :
    (Term.callStar f o).tokens = .word f.1 :: .symbol .lparen :: .symbol .star ::
      .symbol .rparen :: filterTokens o := by
  simp [Term.tokens, tokens_filterPieces]

@[simp] theorem tokens_cast (type : Name) :
    (Term.cast x type).tokens = .keyword .cast :: .symbol .lparen ::
      (x.tokens ++ [.keyword .as_, .word type.1, .symbol .rparen]) := by
  simp [Term.tokens]

@[simp] theorem tokens_caseWhen :
    (Term.caseWhen o ws p).tokens = .keyword .case_ :: (o.tokens ++ (ws.tokens ++
      ((if p.isPresent then .keyword .else_ :: p.tokens else []) ++ [.keyword .end_]))) := by
  cases o <;> cases p <;> simp [Term.tokens, surround, Term.isPresent]

@[simp] theorem tokens_paren :
    (Term.paren x).tokens = .symbol .lparen :: (x.tokens ++ [.symbol .rparen]) := by
  simp [Term.tokens]

def UnaryOp.token : UnaryOp → Token
  | minus => .symbol .minus
  | tilde => .symbol .tilde
  | not_ => .keyword .not_

@[simp] theorem tokens_unary (op : UnaryOp) : (Term.unary op x).tokens = op.token :: x.tokens := by
  cases op <;> simp [Term.tokens, unaryPieces, UnaryOp.token]

@[simp] theorem tokens_binary (op : BinaryOp) :
    (Term.binary op l r).tokens = l.tokens ++ (op.tokens ++ r.tokens) := by
  simp [Term.tokens]

@[simp] theorem tokens_between :
    (Term.between x y z).tokens =
      x.tokens ++ (.keyword .between :: (y.tokens ++ (.keyword .and_ :: z.tokens))) := by
  simp [Term.tokens]

@[simp] theorem tokens_inList (negated : Bool) :
    (Term.inList negated x xs).tokens =
      x.tokens ++ ((if negated then [.keyword .not_] else []) ++
        (.keyword .in_ :: .symbol .lparen :: (xs.tokens ++ [.symbol .rparen]))) := by
  cases negated <;> simp [Term.tokens]

@[simp] theorem tokens_collate (name : Name) :
    (Term.collate x name).tokens = x.tokens ++ [.keyword .collate, .word name.1] := by
  simp [Term.tokens]

@[simp] theorem tokens_nilArgs : Term.nil.tokens = [] := rfl

@[simp] theorem tokens_cons :
    (Term.cons x xs).tokens =
      x.tokens ++ ((if xs.isNil then [] else [.symbol .comma]) ++ xs.tokens) := by
  cases xs <;> simp [Term.tokens, Term.isNil]

@[simp] theorem tokens_noWhen : Term.noWhen.tokens = [] := rfl

@[simp] theorem tokens_when :
    (Term.when x y ws).tokens =
      .keyword .when_ :: (x.tokens ++ (.keyword .then_ :: (y.tokens ++ ws.tokens))) := by
  simp [Term.tokens]

@[simp] theorem tokens_absent : Term.absent.tokens = [] := rfl

@[simp] theorem tokens_present : (Term.present x).tokens = x.tokens := rfl

/-- A token that an expression can start with. -/
def opens : Token → Bool
  | .keyword k => k = .null || k = .case_ || k = .cast || k = .not_
  | .symbol s => s = .lparen || s = .minus || s = .tilde
  | _ => true

/-- How an expression starts. -/
def Starts : {k : Kind} → Term k → Prop
  | .expr, x => ∃ t ts, x.tokens = t :: ts ∧ opens t = true ∧
      (notLevel < x.level → t ≠ .keyword .not_)
  | _, _ => True

theorem starts {k : Kind} (x : Term k) (h : x.Grouped) : Starts x := by
  induction x with
  | null | number ds | string s | blob hex => exact ⟨_, _, rfl, rfl, by simp⟩
  | column q c => cases q <;> exact ⟨_, _, rfl, rfl, by simp⟩
  | call f distinct args filter => exact ⟨_, _, tokens_call f distinct, rfl, by simp⟩
  | callStar f filter => exact ⟨_, _, tokens_callStar f, rfl, by simp⟩
  | cast x type => exact ⟨_, _, tokens_cast type, rfl, by simp⟩
  | caseWhen o ws p => exact ⟨_, _, tokens_caseWhen, rfl, by simp⟩
  | paren x => exact ⟨_, _, tokens_paren, rfl, by simp⟩
  | unary op x =>
    refine ⟨_, _, tokens_unary op, by cases op <;> rfl, ?_⟩
    cases op <;> simp [UnaryOp.token, Term.level, UnaryOp.level]
  | binary op l r ihl ihr =>
    obtain ⟨hl, hr, hlevel, -⟩ := h
    obtain ⟨t, ts, htokens, hopens, hnot⟩ := ihl hl
    refine ⟨t, _, by rw [tokens_binary, htokens]; rfl, hopens, fun hlt => hnot ?_⟩
    exact Nat.lt_of_lt_of_le hlt hlevel
  | between x lower upper ih =>
    obtain ⟨t, ts, htokens, hopens, hnot⟩ := ih h.1
    refine ⟨t, _, by rw [tokens_between, htokens]; rfl, hopens, fun hlt => hnot ?_⟩
    exact Nat.lt_of_lt_of_le hlt h.2.2.2.1
  | inList negated x list ih =>
    obtain ⟨t, ts, htokens, hopens, hnot⟩ := ih h.1
    refine ⟨t, _, by rw [tokens_inList, htokens]; rfl, hopens, fun hlt => hnot ?_⟩
    exact Nat.lt_of_lt_of_le hlt h.2.2
  | collate x name ih =>
    obtain ⟨t, ts, htokens, hopens, hnot⟩ := ih h.1
    refine ⟨t, _, by rw [tokens_collate, htokens]; rfl, hopens, fun hlt => hnot ?_⟩
    exact Nat.lt_of_lt_of_le hlt h.2
  | nil | cons | noWhen | when | absent | present => trivial

end Tokens

section Parsing

attribute [local simp] parseExpr parseRest parseOperator parseOperand parseCall parseFilter
  parseArgs parseList parseCase parseBranches parseWhens

/-! ### What follows a term -/

/-- The tokens go on with an operator that is at most as strong as `m`, or with none. They continue
neither a name nor a call. -/
structure Follows (m : ℕ) (ts : List Token) : Prop where
  head : ∀ t ∈ ts.head?, t ≠ .symbol .dot ∧ t ≠ .keyword .filter
  level : ∀ op rest, operator? ts = some (op, rest) → op.level ≤ m

/-- An operand of the strength `m` ends before the tokens. -/
structure Stops (m : ℕ) (ts : List Token) : Prop where
  head : ∀ t ∈ ts.head?, t ≠ .symbol .dot ∧ t ≠ .keyword .filter
  level : ∀ op rest, operator? ts = some (op, rest) → op.level < m

variable {ts : List Token}

theorem Stops.follows {m k : ℕ} (h : Stops m ts) (hk : m ≤ k) : Follows k ts :=
  ⟨h.head, fun op rest hop => Nat.le_of_lt (Nat.lt_of_lt_of_le (h.level op rest hop) hk)⟩

theorem Follows.stops {m k : ℕ} (h : Follows m ts) (hk : m < k) : Stops k ts :=
  ⟨h.head, fun op rest hop => Nat.lt_of_le_of_lt (h.level op rest hop) hk⟩

/-- A token after which an expression is over. -/
theorem stops_cons {t : Token} (m : ℕ) (ts : List Token) (hdot : t ≠ .symbol .dot)
    (hfilter : t ≠ .keyword .filter) (hop : operator? (t :: ts) = none) : Stops m (t :: ts) where
  head := by
    rintro _ ⟨⟩
    exact ⟨hdot, hfilter⟩
  level := by
    intro op rest h
    rw [hop] at h
    cases h

theorem parseRest_of_stops {m : ℕ} (h : Stops m ts) (n : ℕ) (x : Term .expr) :
    parseRest n m x ts = some (x, ts) := by
  cases n with
  | zero | succ n =>
    rw [parseRest]
    cases hop : operator? ts with
    | none => rfl
    | some p => exact if_pos (h.level p.1 p.2 hop)

theorem parseRest_of_operator {m : ℕ} {ts rest : List Token} {op : Operator}
    (h : operator? ts = some (op, rest)) (hm : m ≤ op.level) (n : ℕ) (x : Term .expr) :
    parseRest (n + 1) m x ts =
      (parseOperator n op x rest).bind fun r => parseRest n m r.1 r.2 := by
  rw [parseRest, h]
  exact if_neg (Nat.not_lt.mpr hm)

theorem operator?_binary (op : BinaryOp)
    (h : op = .is_ → ts.head? ≠ some (.keyword .not_)) :
    operator? (op.tokens ++ ts) = some (.binary op, ts) := by
  cases op with
  | is_ => simp [BinaryOp.tokens, operator?, keywordOperator, h rfl]
  | _ => rfl

theorem operator?_inList (negated : Bool) (ts : List Token) :
    operator? ((if negated then [.keyword .not_] else []) ++ (.keyword .in_ :: ts)) =
      some (.inList negated, ts) := by
  cases negated <;> rfl

/-! ### Reading terms -/

/-- The steps to the operator that holds a term together. -/
def Term.cost : {k : Kind} → Term k → ℕ
  | _, binary _ l _ => l.cost + 1
  | _, between x _ _ => x.cost + 1
  | _, inList _ x _ => x.cost + 1
  | _, collate x _ => x.cost + 1
  | _, _ => 1

/-- The steps that are left for the other parts. -/
def Term.need : {k : Kind} → Term k → ℕ
  | _, call _ _ args filter => 3 + args.need + filter.need
  | _, callStar _ filter => 3 + filter.need
  | _, cast x _ => 1 + (x.cost + x.need)
  | _, caseWhen operand whens otherwise => 3 + operand.need + whens.need + otherwise.need
  | _, paren x => 1 + (x.cost + x.need)
  | _, unary _ x => 1 + (x.cost + x.need)
  | _, binary _ l r => l.need + 1 + (r.cost + r.need)
  | _, between x lower upper =>
    x.need + 1 + (lower.cost + lower.need) + (upper.cost + upper.need)
  | _, inList _ x list => x.need + 2 + list.need
  | _, collate x _ => x.need + 1
  | _, cons x xs => 1 + (x.cost + x.need) + xs.need
  | _, when condition result whens =>
    1 + (condition.cost + condition.need) + (result.cost + result.need) + whens.need
  | _, present x => 1 + (x.cost + x.need)
  | _, _ => 1

attribute [local simp] Term.cost Term.need

theorem Term.exists_eq_succ {k : Kind} {x : Term k} {n : ℕ} (h : x.need ≤ n) : ∃ m, n = m + 1 :=
  ⟨n - 1, by cases x <;> simp only [Term.need] at h <;> omega⟩

/-- An expression is read from its tokens, and reading goes on with what follows. -/
def ReadsExpr (x : Term .expr) : Prop :=
  ∀ n m rest, m ≤ x.level → Follows x.level rest → x.need ≤ n →
    parseExpr (n + x.cost) m (x.tokens ++ rest) = parseRest n m x rest

variable {x : Term .expr}

theorem ReadsExpr.stop (h : ReadsExpr x) {n m : ℕ} {rest : List Token}
    (hm : m ≤ x.level) (hrest : Stops m rest) (hn : x.cost + x.need ≤ n) :
    parseExpr n m (x.tokens ++ rest) = some (x, rest) := by
  obtain ⟨k, rfl⟩ : ∃ k, n = k + x.cost := ⟨n - x.cost, by omega⟩
  rw [h k m rest hm (hrest.follows hm) (by omega), parseRest_of_stops hrest]

/-- An expression that starts with its outermost part. -/
theorem readsExpr_of_operand (hcost : x.cost = 1)
    (h : ∀ n rest, Follows x.level rest → x.need ≤ n + 1 →
      parseOperand (n + 1) (x.tokens ++ rest) = some (x, rest)) : ReadsExpr x := by
  intro n m rest hm hrest hn
  obtain ⟨n, rfl⟩ := Term.exists_eq_succ hn
  rw [hcost, parseExpr, h n rest hrest hn]
  rfl

/-- An expression with an operator after its first operand. -/
theorem readsExpr_of_operator {x y : Term .expr} (op : Operator)
    (htokens : y.tokens = x.tokens ++ ts) (hcost : y.cost = x.cost + 1) (hneed : x.need ≤ y.need)
    (hlevel : y.level = op.level) (hx : op.level ≤ x.level) (hread : ReadsExpr x)
    (hop : ∀ rest, Follows y.level rest → ∃ rest', operator? (ts ++ rest) = some (op, rest') ∧
      ∀ n, y.need ≤ n + 1 → parseOperator (n + 1) op x rest' = some (y, rest))
    (hhead : ∀ t ∈ ts.head?, t ≠ .symbol .dot ∧ t ≠ .keyword .filter) (hts : ts ≠ []) :
    ReadsExpr y := by
  intro n m rest hm hrest hn
  obtain ⟨n, rfl⟩ := Term.exists_eq_succ hn
  obtain ⟨rest', hoperator, hparse⟩ := hop rest hrest
  have hfollows : Follows x.level (ts ++ rest) := by
    refine ⟨fun t ht => hhead t ?_, fun op' r h => ?_⟩
    · rwa [List.head?_append_of_ne_nil ts hts] at ht
    · rw [hoperator] at h
      cases h
      exact hx
  rw [htokens, hcost, List.append_assoc, ← Nat.add_assoc, Nat.add_right_comm,
    hread (n + 1 + 1) m (ts ++ rest) (by omega) hfollows (by omega),
    parseRest_of_operator hoperator (hlevel ▸ hm), hparse n hn]
  rfl

/-- Lists are read up to their closing parenthesis, and the branches of a `CASE` up to its end. -/
def Reads : {k : Kind} → Term k → Prop
  | .expr, x => ReadsExpr x
  | .args, xs => xs.isNil = false → ∀ n rest, xs.need ≤ n →
      parseList n (xs.tokens ++ .symbol .rparen :: rest) = some (xs, rest)
  | .whens, ws => ∀ n t rest, t ≠ .keyword .when_ → Stops 0 (t :: rest) → ws.need ≤ n →
      parseWhens n (ws.tokens ++ t :: rest) = some (ws, t :: rest)
  | .opt, .absent => True
  | .opt, .present x => ReadsExpr x

theorem expect_cons (t : Token) (ts : List Token) : expect t (t :: ts) = some ts := if_pos rfl

theorem readName_cons (f : Name) (ts : List Token) : readName (.word f.1 :: ts) = some (f, ts) := by
  rw [readName, dif_pos f.2]
  rfl

theorem stops_rparen (m : ℕ) (ts : List Token) : Stops m (.symbol .rparen :: ts) :=
  stops_cons m ts (by decide) (by decide) rfl

/-- An expression in parentheses, or in another place that is closed by a token. -/
theorem ReadsExpr.closed (h : ReadsExpr x) {n : ℕ} {t : Token} {rest : List Token}
    (hrest : Stops 0 (t :: rest)) (hn : x.cost + x.need ≤ n) :
    parseExpr n 0 (x.tokens ++ t :: rest) = some (x, t :: rest) :=
  h.stop (Nat.zero_le _) hrest hn

theorem head?_tokens_ne (h : x.Grouped) {t : Token} (ht : opens t = false)
    (rest : List Token) : (x.tokens ++ rest).head? ≠ some t := by
  obtain ⟨u, us, htokens, hu, -⟩ := starts x h
  rw [htokens]
  rintro ⟨⟩
  rw [hu] at ht
  cases ht

theorem head?_tokens_ne_not (h : x.Grouped) (hlevel : notLevel < x.level)
    (rest : List Token) : (x.tokens ++ rest).head? ≠ some (.keyword .not_) := by
  obtain ⟨u, us, htokens, -, hnot⟩ := starts x h
  rw [htokens]
  rintro ⟨⟩
  exact hnot hlevel rfl

theorem parseArgs_tokens {xs : Term .args} (hgrouped : xs.Grouped) (h : Reads xs) {n : ℕ}
    (hn : xs.need + 1 ≤ n) (rest : List Token) :
    parseArgs n (xs.tokens ++ .symbol .rparen :: rest) = some (xs, rest) := by
  obtain ⟨k, rfl⟩ : ∃ k, n = k + 1 := ⟨n - 1, by omega⟩
  rw [parseArgs]
  cases xs with
  | nil => rfl
  | cons x xs =>
    have hhead : ((Term.cons x xs).tokens ++ .symbol .rparen :: rest).head? ≠
        some (.symbol .rparen) := by
      rw [tokens_cons, List.append_assoc]
      exact head?_tokens_ne hgrouped.1 rfl _
    rw [if_neg hhead]
    exact h rfl k rest (by omega)

theorem parseFilter_tokens {o : Term .opt} (h : Reads o) {n : ℕ} (hn : o.need ≤ n)
    {rest : List Token} (hrest : ∀ t ∈ rest.head?, t ≠ .keyword .filter) :
    parseFilter n (filterTokens o ++ rest) = some (o, rest) := by
  cases o with
  | absent =>
    obtain ⟨k, rfl⟩ := Term.exists_eq_succ hn
    rw [parseFilter]
    exact if_neg fun h => hrest _ h rfl
  | present x =>
    simp only [Term.need] at hn
    obtain ⟨k, rfl⟩ : ∃ k, n = k + 1 := ⟨n - 1, by omega⟩
    have hx : ReadsExpr x := h
    have hparse := hx.closed (stops_rparen 0 rest) (n := k) (by omega)
    simp [parseFilter, filterTokens, Term.isPresent, expect_cons, hparse]

section Cases

variable {x y z l r : Term .expr} {xs : Term .args} {ws : Term .whens} {o p : Term .opt}

theorem readsExpr_column (qualifier : Option Text) (name : Text) :
    ReadsExpr (.column qualifier name) := by
  refine readsExpr_of_operand rfl fun n rest hrest _ => ?_
  cases qualifier with
  | some q => rfl
  | none =>
    rw [show (Term.column none name).tokens = [.quoted name] from rfl, List.singleton_append,
      parseOperand]
    cases rest with
    | nil => rfl
    | cons t rest =>
      have hdot := (hrest.head t rfl).1
      rw [readColumn]
      rintro _ _ ⟨⟩
      exact hdot rfl

theorem head?_args_ne (h : xs.Grouped) {t : Token} (ht : opens t = false)
    (hclose : t ≠ .symbol .rparen) (rest : List Token) :
    (xs.tokens ++ .symbol .rparen :: rest).head? ≠ some t := by
  cases xs with
  | nil =>
    rintro ⟨⟩
    exact hclose rfl
  | cons x xs =>
    rw [tokens_cons, List.append_assoc]
    exact head?_tokens_ne h.1 ht _

theorem parseOperand_word {n : ℕ} (f : Name) (ts : List Token) :
    parseOperand (n + 1) (.word f.1 :: .symbol .lparen :: ts) = parseCall n f ts := by
  rw [parseOperand, readName_cons, Option.bind_some, expect_cons, Option.bind_some]

theorem readsExpr_call (f : Name) (distinct : Bool) (hgrouped : xs.Grouped) (hxs : Reads xs)
    (ho : Reads o) : ReadsExpr (.call f distinct xs o) := by
  refine readsExpr_of_operand rfl fun n rest hrest hn => ?_
  simp only [Term.need] at hn
  obtain ⟨n, rfl⟩ : ∃ k, n = k + 1 := ⟨n - 1, by omega⟩
  have hargs : parseArgs n (xs.tokens ++ .symbol .rparen :: (filterTokens o ++ rest)) = _ :=
    parseArgs_tokens hgrouped hxs (by omega) _
  have hfilter : parseFilter n (filterTokens o ++ rest) = _ :=
    parseFilter_tokens ho (by omega) fun t ht => (hrest.head t ht).2
  rw [tokens_call, List.cons_append, List.cons_append, parseOperand_word, parseCall]
  cases distinct with
  | true =>
    simp only [if_true, List.cons_append, List.nil_append, List.append_assoc, List.head?_cons,
      List.tail_cons, Option.some.injEq, reduceCtorEq, if_false, hargs, Option.bind_some, hfilter,
      Option.map_some]
  | false =>
    simp only [Bool.false_eq_true, if_false, List.nil_append, List.cons_append, List.append_assoc]
    rw [if_neg (head?_args_ne hgrouped rfl (by decide) _),
      if_neg (head?_args_ne hgrouped rfl (by decide) _), hargs, Option.bind_some, hfilter]
    rfl

theorem readsExpr_callStar (f : Name) (ho : Reads o) : ReadsExpr (.callStar f o) := by
  refine readsExpr_of_operand rfl fun n rest hrest hn => ?_
  simp only [Term.need] at hn
  obtain ⟨n, rfl⟩ : ∃ k, n = k + 1 := ⟨n - 1, by omega⟩
  have hfilter : parseFilter n (filterTokens o ++ rest) = _ :=
    parseFilter_tokens ho (by omega) fun t ht => (hrest.head t ht).2
  rw [tokens_callStar, List.cons_append, List.cons_append, parseOperand_word, parseCall,
    List.cons_append, List.cons_append, List.head?_cons, if_pos rfl, List.tail_cons, expect_cons,
    Option.bind_some, hfilter]
  rfl

theorem readsExpr_cast (type : Name) (hx : ReadsExpr x) : ReadsExpr (.cast x type) := by
  refine readsExpr_of_operand rfl fun n rest _ hn => ?_
  simp only [Term.need] at hn
  have hparse : parseExpr n 0 (x.tokens ++
      .keyword .as_ :: .word type.1 :: .symbol .rparen :: rest) = _ :=
    hx.closed (stops_cons 0 _ (by decide) (by decide) rfl) (by omega)
  rw [tokens_cast, List.cons_append, List.cons_append, List.append_assoc, parseOperand, expect_cons,
    Option.bind_some, List.cons_append, List.cons_append, List.singleton_append, hparse,
    Option.bind_some, expect_cons, Option.bind_some, readName_cons, Option.bind_some, expect_cons]
  rfl

theorem readsExpr_paren (hx : ReadsExpr x) : ReadsExpr (.paren x) := by
  refine readsExpr_of_operand rfl fun n rest _ hn => ?_
  simp only [Term.need] at hn
  have hparse : parseExpr n 0 (x.tokens ++ .symbol .rparen :: rest) = _ :=
    hx.closed (stops_rparen 0 rest) (by omega)
  rw [tokens_paren, List.cons_append, List.append_assoc, List.singleton_append, parseOperand, hparse,
    Option.bind_some, expect_cons]
  rfl

/-- No operator that follows an operand is as strong as a sign or `NOT`. -/
theorem Operator.level_ne (op : Operator) (op' : UnaryOp) : op.level ≠ op'.level := by
  cases op with
  | binary op => cases op <;> cases op' <;> decide
  | between => cases op' <;> decide
  | inList negated => cases op' <;> simp [level, UnaryOp.level, rangeLevel, unaryLevel, notLevel]
  | collate => cases op' <;> decide

theorem readsExpr_unary (op : UnaryOp) (hx : ReadsExpr x) (hlevel : op.operandLevel ≤ x.level) :
    ReadsExpr (.unary op x) := by
  refine readsExpr_of_operand rfl fun n rest hrest hn => ?_
  simp only [Term.need] at hn
  have hstops : Stops op.level rest :=
    ⟨hrest.head, fun op' r h => Nat.lt_of_le_of_ne (hrest.level op' r h) (op'.level_ne op)⟩
  have hle : op.level ≤ x.level := Nat.le_trans (by cases op <;> decide) hlevel
  have hparse : parseExpr n op.level (x.tokens ++ rest) = _ := hx.stop hle hstops (by omega)
  rw [tokens_unary, List.cons_append]
  cases op with
  | minus | tilde | not_ =>
    rw [UnaryOp.token, parseOperand]
    exact congrArg _ hparse

theorem readsExpr_binary (op : BinaryOp) (hl : ReadsExpr l) (hr : ReadsExpr r) (hgrouped : r.Grouped)
    (hlevel : op.level ≤ l.level) (hlt : op.level < r.level) : ReadsExpr (.binary op l r) := by
  refine readsExpr_of_operator (.binary op) (tokens_binary op) rfl
    (by simp only [Term.need]; omega) rfl hlevel hl (fun rest hrest => ?_)
    (by cases op <;> simp [BinaryOp.tokens]) (by cases op <;> simp [BinaryOp.tokens])
  have hnot : op = .is_ → (r.tokens ++ rest).head? ≠ some (.keyword .not_) := by
    rintro rfl
    exact head?_tokens_ne_not hgrouped (Nat.lt_trans (by decide) hlt) rest
  refine ⟨r.tokens ++ rest, by rw [List.append_assoc]; exact operator?_binary op hnot, ?_⟩
  intro n hn
  simp only [Term.need] at hn
  have hparse : parseExpr n (op.level + 1) (r.tokens ++ rest) = _ :=
    hr.stop hlt (hrest.stops (Nat.lt_succ_self _)) (by omega)
  rw [parseOperator, hparse]
  rfl

theorem readsExpr_between (hx : ReadsExpr x) (hy : ReadsExpr y) (hz : ReadsExpr z)
    (hlevel : rangeLevel ≤ x.level) (hlower : rangeLevel < y.level) (hupper : rangeLevel < z.level) :
    ReadsExpr (.between x y z) := by
  refine readsExpr_of_operator .between tokens_between rfl (by simp only [Term.need]; omega) rfl
    hlevel hx (fun rest hrest => ?_) (by simp) (by simp)
  refine ⟨y.tokens ++ (.keyword .and_ :: (z.tokens ++ rest)), by simp [operator?, keywordOperator],
    ?_⟩
  intro n hn
  simp only [Term.need] at hn
  have hand : Stops (rangeLevel + 1) (.keyword .and_ :: (z.tokens ++ rest)) := by
    refine ⟨by simp, fun op ts h => ?_⟩
    cases h
    decide
  have hparse : parseExpr n (rangeLevel + 1) (y.tokens ++ (.keyword .and_ :: (z.tokens ++ rest))) = _ :=
    hy.stop hlower hand (by omega)
  have hparse' : parseExpr n (rangeLevel + 1) (z.tokens ++ rest) = _ :=
    hz.stop hupper (hrest.stops (Nat.lt_succ_self _)) (by omega)
  rw [parseOperator, hparse, Option.bind_some, expect_cons, Option.bind_some, hparse']
  rfl

theorem readsExpr_inList (negated : Bool) (hx : ReadsExpr x) (hxs : Reads xs) (hgrouped : xs.Grouped)
    (hlevel : rangeLevel ≤ x.level) : ReadsExpr (.inList negated x xs) := by
  refine readsExpr_of_operator (.inList negated) (tokens_inList negated) rfl
    (by simp only [Term.need]; omega) rfl hlevel hx (fun rest hrest => ?_)
    (by cases negated <;> simp) (by cases negated <;> simp)
  refine ⟨.symbol .lparen :: (xs.tokens ++ (.symbol .rparen :: rest)), ?_, ?_⟩
  · rw [← operator?_inList]
    simp
  intro n hn
  simp only [Term.need] at hn
  rw [parseOperator, expect_cons, Option.bind_some, parseArgs_tokens hgrouped hxs (by omega)]
  rfl

theorem readsExpr_collate (name : Name) (hx : ReadsExpr x) (hlevel : collateLevel ≤ x.level) :
    ReadsExpr (.collate x name) := by
  refine readsExpr_of_operator .collate (tokens_collate name) rfl (by simp only [Term.need]; omega)
    rfl hlevel hx (fun rest hrest => ?_) (by simp) (by simp)
  refine ⟨.word name.1 :: rest, rfl, fun n _ => ?_⟩
  rw [parseOperator, readName_cons]
  rfl

theorem parseBranches_tokens (hws : Reads ws) (hnonempty : ws.isNoWhen = false) (hp : Reads p)
    {n : ℕ} (hn : 1 + ws.need + p.need ≤ n) (rest : List Token) :
    parseBranches n o (ws.tokens ++
      ((if p.isPresent then .keyword .else_ :: p.tokens else []) ++ .keyword .end_ :: rest)) =
        some (.caseWhen o ws p, rest) := by
  obtain ⟨n, rfl⟩ : ∃ k, n = k + 1 := ⟨n - 1, by omega⟩
  have hend : Stops 0 (.keyword .end_ :: rest) := stops_cons 0 _ (by decide) (by decide) rfl
  cases p with
  | absent =>
    have hparse : parseWhens n (ws.tokens ++ .keyword .end_ :: rest) = _ :=
      hws n _ rest (by decide) hend (by omega)
    simp [parseBranches, Term.isPresent, hparse, hnonempty, expect_cons]
  | present x =>
    simp only [Term.need] at hn
    have hx : ReadsExpr x := hp
    have helse : parseExpr n 0 (x.tokens ++ .keyword .end_ :: rest) = _ := hx.closed hend (by omega)
    have hparse : parseWhens n (ws.tokens ++
        .keyword .else_ :: (x.tokens ++ .keyword .end_ :: rest)) = _ :=
      hws n _ _ (by decide) (stops_cons 0 _ (by decide) (by decide) rfl) (by omega)
    simp [parseBranches, Term.isPresent, hparse, hnonempty, helse, expect_cons]

theorem readsExpr_caseWhen (ho : Reads o) (hgrouped : o.Grouped) (hws : Reads ws)
    (hnonempty : ws.isNoWhen = false) (hp : Reads p) : ReadsExpr (.caseWhen o ws p) := by
  refine readsExpr_of_operand rfl fun n rest _ hn => ?_
  simp only [Term.need] at hn
  obtain ⟨n, rfl⟩ : ∃ k, n = k + 1 := ⟨n - 1, by omega⟩
  have hbranches : ∀ o, parseBranches n o (ws.tokens ++
      ((if p.isPresent then .keyword .else_ :: p.tokens else []) ++ .keyword .end_ :: rest)) = _ :=
    fun o => parseBranches_tokens hws hnonempty hp (by omega) rest
  obtain ⟨ts, hts⟩ : ∃ ts, ws.tokens = .keyword .when_ :: ts := by
    cases ws with
    | noWhen => cases hnonempty
    | when c r ws => exact ⟨_, tokens_when⟩
  rw [tokens_caseWhen, List.cons_append, parseOperand, parseCase]
  simp only [List.append_assoc, List.singleton_append]
  cases o with
  | absent =>
    have hhead : ∀ rest, (ws.tokens ++ rest).head? = some (.keyword .when_) := by simp [hts]
    rw [tokens_absent, List.nil_append, if_pos (hhead _), hbranches]
  | present x =>
    simp only [Term.need] at hn
    have hx : ReadsExpr x := ho
    have hstops : ∀ rest, Stops 0 (ws.tokens ++ rest) := fun rest => by
      rw [hts]
      exact stops_cons 0 _ (by decide) (by decide) rfl
    rw [tokens_present, if_neg (head?_tokens_ne hgrouped rfl _),
      hx.stop (Nat.zero_le _) (hstops _) (by omega), Option.bind_some, hbranches]

theorem reads_cons (hx : ReadsExpr x) (hxs : Reads xs) : Reads (.cons x xs) := by
  intro _ n rest hn
  obtain ⟨n, rfl⟩ := Term.exists_eq_succ hn
  simp only [Term.need] at hn
  rw [parseList, tokens_cons, List.append_assoc]
  cases xs with
  | nil =>
    simp [Term.isNil, hx.closed (stops_rparen 0 rest) (show x.cost + x.need ≤ n by omega),
      expect_cons]
  | cons y ys =>
    have hlist := hxs rfl n rest (by omega)
    have hparse : parseExpr n 0 (x.tokens ++
        .symbol .comma :: ((Term.cons y ys).tokens ++ .symbol .rparen :: rest)) = _ :=
      hx.closed (stops_cons 0 _ (by decide) (by decide) rfl) (by omega)
    simp only [Term.isNil, Bool.false_eq_true, if_false, List.cons_append, List.nil_append]
    rw [hparse, Option.bind_some, List.head?_cons, if_pos rfl, List.tail_cons, hlist]
    rfl

theorem reads_when (hx : ReadsExpr x) (hy : ReadsExpr y) (hws : Reads ws) :
    Reads (.when x y ws) := by
  intro n t rest ht hstops hn
  obtain ⟨n, rfl⟩ := Term.exists_eq_succ hn
  simp only [Term.need] at hn
  have hwhens := hws n t rest ht hstops (by omega)
  have hthen : parseExpr n 0 (x.tokens ++
      .keyword .then_ :: (y.tokens ++ (ws.tokens ++ t :: rest))) = _ :=
    hx.closed (stops_cons 0 _ (by decide) (by decide) rfl) (by omega)
  have hnext : Stops 0 (ws.tokens ++ t :: rest) := by
    cases ws with
    | noWhen => exact hstops
    | when c r ws => exact tokens_when ▸ stops_cons 0 _ (by decide) (by decide) rfl
  have hresult := hy.stop (Nat.zero_le _) hnext (show y.cost + y.need ≤ n by omega)
  rw [parseWhens, tokens_when]
  simp [hthen, expect_cons, hresult, hwhens]

end Cases

/-- **Every grouped term is read from its tokens.** The induction follows the term: each part is
read by the rule for it, and an operand ends where the next operator is too weak for its place. -/
theorem reads {k : Kind} (x : Term k) (h : x.Grouped) : Reads x := by
  induction x with
  | null | number ds | string s | blob hex => exact readsExpr_of_operand rfl fun _ _ _ _ => rfl
  | column qualifier name => exact readsExpr_column qualifier name
  | call f distinct args filter iha ihf =>
    exact readsExpr_call f distinct h.1 (iha h.1) (ihf h.2)
  | callStar f filter ihf => exact readsExpr_callStar f (ihf h)
  | cast x type ih => exact readsExpr_cast type (ih h)
  | caseWhen operand whens otherwise iho ihw ihe =>
    exact readsExpr_caseWhen (iho h.1) h.1 (ihw h.2.1) h.2.2.1 (ihe h.2.2.2)
  | paren x ih => exact readsExpr_paren (ih h)
  | unary op x ih => exact readsExpr_unary op (ih h.1) h.2
  | binary op l r ihl ihr =>
    exact readsExpr_binary op (ihl h.1) (ihr h.2.1) h.2.1 h.2.2.1 h.2.2.2
  | between x lower upper ihx ihl ihu =>
    obtain ⟨hx, hlower, hupper, hle, hlt, hlt'⟩ := h
    exact readsExpr_between (ihx hx) (ihl hlower) (ihu hupper) hle hlt hlt'
  | inList negated x list ihx ihl =>
    exact readsExpr_inList negated (ihx h.1) (ihl h.2.1) h.2.1 h.2.2
  | collate x name ih => exact readsExpr_collate name (ih h.1) h.2
  | nil => exact fun hnil => nomatch hnil
  | cons x xs ihx ihxs => exact reads_cons (ihx h.1) (ihxs h.2)
  | noWhen =>
    intro n t rest ht _ hn
    obtain ⟨n, rfl⟩ := Term.exists_eq_succ hn
    rw [tokens_noWhen, List.nil_append, parseWhens]
    exact if_neg fun heq => ht (Option.some.inj heq)
  | when condition result whens ihc ihr ihw =>
    exact reads_when (ihc h.1) (ihr h.2.1) (ihw h.2.2)
  | absent => trivial
  | present x ih => exact ih h

/-! ### Whole texts -/

/-- The steps that reading takes are bounded by the tokens. -/
def Bounded : {k : Kind} → Term k → Prop
  | .expr, x => x.cost + x.need + 1 ≤ 4 * x.tokens.length
  | _, x => x.need ≤ 4 * x.tokens.length + 1

theorem length_filterTokens (o : Term .opt) : o.tokens.length ≤ (filterTokens o).length := by
  cases o with
  | absent => simp [filterTokens, Term.isPresent]
  | present x =>
    simp [filterTokens, Term.isPresent]
    omega

theorem bounded {k : Kind} (x : Term k) : Bounded x := by
  induction x with
  | column q c => cases q <;> simp [Bounded, Term.cost, Term.need, Term.tokens, Term.pieces, columnPieces]
  | call f distinct args filter iha ihf =>
    have hfilter := length_filterTokens filter
    cases distinct <;> simp [Bounded, Term.cost, Term.need] at * <;> omega
  | callStar f filter ihf =>
    have hfilter := length_filterTokens filter
    simp [Bounded, Term.cost, Term.need] at *
    omega
  | caseWhen o ws p iho ihw ihp =>
    cases p <;> simp [Bounded, Term.cost, Term.need, Term.isPresent] at * <;> omega
  | binary op l r ihl ihr =>
    have hop : 1 ≤ op.tokens.length := by cases op <;> decide
    simp [Bounded, Term.cost, Term.need] at *
    omega
  | inList negated x list ihx ihl =>
    cases negated <;> simp [Bounded, Term.cost, Term.need] at * <;> omega
  | cons x xs ihx ihxs =>
    simp [Bounded, Term.need] at *
    omega
  | _ =>
    simp [Bounded, Term.cost, Term.need] at *
    try omega

/-- **A grouped term is read from its tokens.** -/
theorem parse_tokens (h : x.Grouped) : parse x.tokens = some x := by
  have hread : ReadsExpr x := reads x h
  have hbound : x.cost + x.need + 1 ≤ 4 * x.tokens.length := bounded x
  have hstops : Stops 0 [] := by
    constructor
    · exact fun _ h => nomatch h
    · exact fun _ _ h => nomatch h
  have hparse : parseExpr (4 * x.tokens.length + 1) 0 (x.tokens ++ []) = _ :=
    hread.stop (Nat.zero_le _) hstops (by omega)
  rw [List.append_nil] at hparse
  rw [parse, hparse]
  rfl

end Parsing

/-! ### The text of a term -/

section Text

attribute [local simp] Term.pieces

/-- A character that can follow an operand. -/
def Closes (next : Option Char) : Prop :=
  next = none ∨ next = some ' ' ∨ next = some ')' ∨ next = some ','

variable {next : Option Char}

theorem Closes.ends (h : Closes next) (p : Piece) :
    p.endsBefore next = true := by
  cases p with
  | space => rfl
  | token t =>
    rcases h with rfl | rfl | rfl | rfl
    · rfl
    all_goals
      cases t with
      | symbol s => cases s <;> rfl
      | _ => rfl

theorem closes_space : Closes (some ' ') := .inr (.inl rfl)

theorem closes_rparen : Closes (some ')') := .inr (.inr (.inl rfl))

theorem closes_comma : Closes (some ',') := .inr (.inr (.inr rfl))

theorem closes_firstOf_spaced (ts : List Token) (h : Closes next) :
    Closes (firstOf (spaced ts) next) := by
  cases ts with
  | nil => exact h
  | cons t ts => exact closes_space

theorem separated_spaced {ts : List Token} (h : ∀ t ∈ ts, t.Valid)
    (hnext : Closes next) : Separated (spaced ts) next := by
  induction ts with
  | nil => trivial
  | cons t ts ih =>
    have hts := ih fun u hu => h u (List.mem_cons_of_mem _ hu)
    exact ⟨trivial, rfl, h t List.mem_cons_self,
      (closes_firstOf_spaced ts hnext).ends _, hts⟩

theorem valid_binary (op : BinaryOp) : ∀ t ∈ op.tokens, t.Valid := by
  cases op <;> simp [BinaryOp.tokens, Token.Valid]

theorem UnaryOp.level_lt (op : UnaryOp) : op.level < atomLevel := by
  cases op <;> decide

theorem BinaryOp.level_lt (op : BinaryOp) : op.level < atomLevel := by
  cases op <;> decide

theorem minus_endsBefore_of_isPart {c : Char} (h : isPart c = true) :
    Symbol.minus.endsBefore c = true := by
  have hminus : c ≠ '-' := by
    rintro rfl
    revert h
    decide
  have hgt : c ≠ '>' := by
    rintro rfl
    revert h
    decide
  simp [Symbol.endsBefore, hminus, hgt]

theorem minus_endsBefore_word (f : Name) :
    (Piece.token (.symbol .minus)).endsBefore f.1.head? = true := by
  obtain ⟨⟨c, hc, hstart⟩, -⟩ := f.2
  rw [Option.mem_def.mp hc]
  exact minus_endsBefore_of_isPart (isPart_of_isStart hstart)

theorem minus_endsBefore_number (n : Numeral) :
    (Piece.token (.symbol .minus)).endsBefore n.text.head? = true := by
  obtain ⟨d, ds, hwhole⟩ := List.exists_cons_of_ne_nil n.whole_ne
  have hd : d.isDigit = true := n.whole_digits d (by rw [hwhole]; exact List.mem_cons_self)
  rw [Numeral.text, hwhole]
  exact minus_endsBefore_of_isPart (by simp [isPart, hd])

/-- A sign can stand directly before an operand that no operator divides. -/
theorem unary_endsBefore {op : UnaryOp} {x : Term .expr} (h : x.Grouped)
    (hlevel : op.operandLevel ≤ x.level) (next : Option Char) :
    Separated (unaryPieces op) (firstOf x.pieces next) := by
  cases op with
  | not_ => exact ⟨trivial, closes_space.ends _, trivial, rfl, trivial⟩
  | tilde =>
    refine ⟨trivial, ?_, trivial⟩
    cases firstOf x.pieces next <;> rfl
  | minus =>
    refine ⟨trivial, ?_, trivial⟩
    cases x with
    | null => rfl
    | number ds =>
      obtain ⟨n, rfl⟩ := h
      exact minus_endsBefore_number n
    | string s => rfl
    | blob hex => rfl
    | column q c => cases q <;> rfl
    | call f distinct args filter | callStar f filter => exact minus_endsBefore_word f
    | cast x type | caseWhen o ws p | paren x => rfl
    | unary op x | binary op l r => exact absurd hlevel (Nat.not_le.mpr op.level_lt)
    | between x lower upper | inList negated x list =>
      exact absurd hlevel (Nat.not_le.mpr (by decide : rangeLevel < atomLevel))
    | collate x name => exact absurd hlevel (Nat.not_le.mpr (by decide : collateLevel < atomLevel))

theorem lparen_ends (next : Option Char) :
    (Piece.token (.symbol .lparen)).endsBefore next = true := by
  cases next <;> rfl

theorem firstOf_spaced_binary (op : BinaryOp) (ps : List Piece) (next : Option Char) :
    firstOf (spaced op.tokens ++ ps) next = some ' ' := by
  cases op <;> rfl

/-- A keyword with a blank on both sides. -/
theorem separated_keyword (k : Keyword) {ps : List Piece}
    (h : Separated ps next) : Separated (spaced [.keyword k] ++ (.space :: ps)) next :=
  Separated.append (separated_spaced (by simp [Token.Valid]) closes_space) ⟨trivial, rfl, h⟩

theorem separated_filterPieces {o : Term .opt} (h : ∀ {next}, Closes next → Separated o.pieces next)
    (hnext : Closes next) :
    Separated (filterPieces o.isPresent o.pieces) next := by
  cases o with
  | absent => trivial
  | present x =>
    have hfilter : Separated (spaced [.keyword .filter, .symbol .lparen]) (some 'W') :=
      ⟨trivial, rfl, trivial, rfl, trivial, rfl, trivial, rfl, trivial⟩
    refine Separated.append (hfilter.append ⟨trivial, rfl, trivial, rfl, trivial⟩) ?_
    exact (h closes_rparen).append ⟨trivial, hnext.ends _, trivial⟩

theorem closes_firstOf_filterPieces (o : Term .opt) (hnext : Closes next) :
    Closes (firstOf (filterPieces o.isPresent o.pieces) next) := by
  cases o with
  | absent => exact hnext
  | present x => exact closes_space

/-- **The pieces of a grouped term are separated**, in front of what can follow an operand. -/
theorem separated_pieces {k : Kind} (x : Term k) (h : x.Grouped)
    (hnext : Closes next) : Separated x.pieces next := by
  induction x generalizing next with
  | null => exact ⟨trivial, hnext.ends _, trivial⟩
  | number ds => exact ⟨h, hnext.ends _, trivial⟩
  | string s => exact ⟨trivial, hnext.ends _, trivial⟩
  | blob hex => exact ⟨h, hnext.ends _, trivial⟩
  | column q c =>
    cases q with
    | none => exact ⟨trivial, hnext.ends _, trivial⟩
    | some q => exact ⟨trivial, rfl, trivial, rfl, trivial, hnext.ends _, trivial⟩
  | call f distinct args filter iha ihf =>
    have htail : Separated (.token (.symbol .rparen) :: filterPieces filter.isPresent filter.pieces)
        next :=
      ⟨trivial, (closes_firstOf_filterPieces filter hnext).ends _,
        separated_filterPieces (ihf h.2) hnext⟩
    have hargs := (iha h.1 closes_rparen).append htail
    refine Separated.append ⟨f.2, rfl, trivial, lparen_ends _, trivial⟩ ?_
    cases distinct with
    | true => exact ⟨trivial, rfl, trivial, rfl, hargs⟩
    | false => exact hargs
  | callStar f filter ihf =>
    refine Separated.append ⟨f.2, rfl, trivial, rfl, trivial, rfl, trivial, ?_, trivial⟩
      (separated_filterPieces (ihf h) hnext)
    exact (closes_firstOf_filterPieces filter hnext).ends _
  | cast x type ih =>
    have hend : Separated (spaced [.keyword .as_, .word type.1] ++ [.token (.symbol .rparen)])
        next :=
      Separated.append (separated_spaced (by simpa [Token.Valid] using type.2) closes_rparen)
        ⟨trivial, hnext.ends _, trivial⟩
    exact Separated.append ⟨trivial, rfl, trivial, lparen_ends _, trivial⟩
      ((ih h closes_space).append hend)
  | caseWhen o ws p iho ihw ihp =>
    obtain ⟨ho, hws, hnonempty, hp⟩ := h
    have hend : Separated (spaced [.keyword .end_]) next :=
      separated_spaced (by simp [Token.Valid]) hnext
    have helse : Separated (surround p.isPresent (spaced [.keyword .else_] ++ [.space]) p.pieces []
        ++ spaced [.keyword .end_]) next := by
      refine Separated.append ?_ hend
      cases p with
      | absent => trivial
      | present x =>
        rw [surround, if_pos (show Term.isPresent (.present x) = true from rfl), List.append_nil,
          List.append_assoc]
        exact separated_keyword .else_ (ihp hp closes_space)
    have hspace : ∀ o : Term .opt, firstOf (surround o.isPresent
        (spaced [.keyword .else_] ++ [.space]) o.pieces [] ++ spaced [.keyword .end_]) next =
        some ' ' := by
      intro o
      cases o <;> rfl
    have hbranches := Separated.append (hspace p ▸ ihw hws closes_space) helse
    have hwhens : ∀ ps, firstOf (ws.pieces ++ ps) next = some ' ' := by
      intro ps
      cases ws with
      | noWhen => cases hnonempty
      | when c r ws => rfl
    cases o with
    | absent => exact ⟨trivial, by rw [surround]; exact (hwhens _ ▸ closes_space).ends _, hbranches⟩
    | present x =>
      refine ⟨trivial, rfl, ⟨trivial, rfl, ?_⟩⟩
      rw [List.append_nil]
      exact Separated.append (hwhens _ ▸ iho ho closes_space) hbranches
  | paren x ih =>
    exact ⟨trivial, lparen_ends _, (ih h closes_rparen).append ⟨trivial, hnext.ends _, trivial⟩⟩
  | unary op x ih => exact (unary_endsBefore h.1 h.2 next).append (ih h.1 hnext)
  | binary op l r ihl ihr =>
    obtain ⟨hl, hr, -⟩ := h
    have hop : Separated (spaced op.tokens) (some ' ') :=
      separated_spaced (valid_binary op) closes_space
    refine Separated.append ?_ (hop.append ⟨trivial, rfl, ihr hr hnext⟩)
    rw [firstOf_spaced_binary]
    exact ihl hl closes_space
  | between x lower upper ihx ihl ihu =>
    obtain ⟨hx, hlower, hupper, -⟩ := h
    have hand := separated_keyword .and_ (ihu hupper hnext)
    exact (ihx hx closes_space).append
      (separated_keyword .between ((ihl hlower closes_space).append hand))
  | inList negated x list ihx ihl =>
    have hlist : Separated (.space :: .token (.symbol .lparen) ::
        (list.pieces ++ [.token (.symbol .rparen)])) next :=
      ⟨trivial, rfl, trivial, lparen_ends _,
        (ihl h.2.1 closes_rparen).append ⟨trivial, hnext.ends _, trivial⟩⟩
    cases negated with
    | true | false =>
      exact (ihx h.1 closes_space).append
        ((separated_spaced (by simp [Token.Valid]) closes_space).append hlist)
  | collate x name ih =>
    exact (ih h.1 closes_space).append
      (separated_spaced (by simpa [Token.Valid] using name.2) hnext)
  | nil => trivial
  | cons x xs ihx ihxs =>
    cases xs with
    | nil => simpa [Term.pieces, Term.isNil] using ihx h.1 hnext
    | cons y ys =>
      exact (ihx h.1 closes_comma).append ⟨trivial, rfl, trivial, rfl, ihxs h.2 hnext⟩
  | noWhen => trivial
  | when condition result whens ihc ihr ihw =>
    obtain ⟨hc, hr, hws⟩ := h
    have hnextWhen : Closes (firstOf whens.pieces next) := by
      cases whens with
      | noWhen => exact hnext
      | when c r ws => exact closes_space
    have hthen := separated_keyword .then_ ((ihr hr hnextWhen).append (ihw hws hnext))
    exact separated_keyword .when_ ((ihc hc closes_space).append hthen)
  | absent => trivial
  | present x ih => exact ih h hnext

/-- **A grouped term is read from its text.** -/
theorem read_text {x : Term .expr} (h : x.Grouped) : read x.text = some x := by
  have hseparated : Separated x.pieces none := separated_pieces x h (.inl rfl)
  rw [read, Term.text, tokenize_render hseparated, Option.bind_some]
  exact parse_tokens h

/-- No comment starts in the text of a grouped term. -/
theorem commented_text {x : Term .expr} (h : x.Grouped) : commented none x.text = false := by
  have hseparated : Separated x.pieces ([] : Text).head? := separated_pieces x h (.inl rfl)
  have hcommented := commented_render hseparated
  rw [List.append_nil] at hcommented
  exact hcommented

end Text

end Precedence
