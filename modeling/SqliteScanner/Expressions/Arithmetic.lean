import SqliteScanner.Expressions.Conditions

/-!
# Arithmetic and patterns

The operators of DuckDB are functions. Most of those of arithmetic are written as operators again, in
parentheses. Where SQLite does not raise the errors that DuckDB raises, a `CASE` raises them or a
function of the extension is called. Days are added to a date with a modifier, which is the number of
days followed by `|| ' days'`.

A sign is written directly before its operand. The operand of a sign is a number, so it is atomic, and it
does not start with a sign: negative numbers are written in parentheses.

## Main definitions

* `FunctionNode` — a function call whose arguments have been written
* `writeDivision`, `writeModulo`, `writeShift`, `writeIntervalArithmetic`, `writeArithmetic`,
  `writeLike` — the source's functions
-/

namespace SqliteScanner.Expressions

open Lexing Precedence Sql

/-- A call of a function, and what is written for its parts. -/
structure FunctionNode (w : Writer) where
  isSystem : Bool
  identifier : Text
  args : List (Node w)
  distinct : Bool
  filter : Option (Node w)
  /-- The direction, the place of `NULL`s and the key of each entry of an `ORDER BY`. -/
  orders : List (Bool × Bool × Node w)

namespace FunctionNode

variable {w : Writer}

def name (f : FunctionNode w) : Text := lower f.identifier

def expr (f : FunctionNode w) : Expr :=
  .function f.isSystem f.identifier (.ofList (f.args.map (·.expr))) f.distinct
    (.ofOption (f.filter.map (·.expr))) (.ofOrders (f.orders.map fun o => (o.1, o.2.1, o.2.2.expr)))

end FunctionNode

/-! ### Arithmetic -/

section Arithmetic

variable (w : Writer) {p : Prop}

def isNonZeroConstant (expr : Expr) : Bool :=
  match (tryGetConstantValue w expr).bind (w.defaultTryCastAs · .double) with
  | some (.real _ d) => !d.isZero
  | _ => false

def divisionByZero : Atom := call (duckdb "error") [literal "Division by zero"]

/-- `WriteDivision`. -/
def writeDivision (left right : Node w) (integerDivision : Bool) : Except Refusal Atom := do
  require (hasDefaultDivisionSemantics w) (.notSupported "non-default division semantics")
  let x ← left.operand
  let y ← right.operand
  let x : Operand True := if integerDivision then x else castTo x Fn.double
  if isNonZeroConstant w right.expr then .ok (paren (binary .div x y))
  else do
    requireExtensionFunctions w "a division"
    -- SQLite yields NULL, DuckDB raises an error or yields an infinity
    let byZero := if integerDivision then divisionByZero else call (duckdb "divide") [x, y]
    .ok (case_ none (binary .eq y (nat 0), byZero) [] (some (binary .div x y)))

/-- The minimum of a signed type, which overflows when it is divided by `-1`. -/
def minimum : LogicalType → Option ℤ
  | .tinyint => some LogicalType.tinyint.range.1
  | .smallint => some LogicalType.smallint.range.1
  | .integer => some LogicalType.integer.range.1
  | .bigint => some LogicalType.bigint.range.1
  | _ => none

/-- Whether a divisor is a constant for which neither error can be raised. -/
def isSafeDivisor (expr : Expr) (minimum : Option ℤ) : Except Refusal Bool :=
  match tryGetConstantValue w expr with
  | none | some (.null _) => .ok false
  | some (.integer _ n) =>
    if inInt64 n then .ok (n ≠ 0 && (n ≠ -1 || minimum.isNone)) else .error .conversion
  | some _ => .error .conversion

/-- `x = a AND y = b`. -/
def bothEqual (x a y b : Operand True) : Phrase :=
  ⟨.binary .and_ (binary .eq x a).term (binary .eq y b).term, (binary .eq x a).grouped,
    (binary .eq y b).grouped, (by decide : 1 ≤ 3), (by decide : 1 < 3)⟩

/-- `WriteArithmetic`, of a modulo. -/
def writeModulo (left right : Node w) (leftType rightType : LogicalType) :
    Except Refusal Atom :=
  match w.tryGetMaxLogicalType leftType rightType with
  | none => .error (.notSupported "unsupported modulo")
  | some commonType => do
    if ← isSafeDivisor w right.expr (minimum commonType) then
      let x ← left.operand
      let y ← right.operand
      .ok (paren (binary .mod x y))
    else
      requireExtensionFunctions w "a modulo"
      let x ← left.operand
      let y ← right.operand
      let overflow : List (Phrase × Phrase) := (minimum commonType).toList.map fun n =>
        (bothEqual y (integer (-1)) x (paren (integer n)),
          call (duckdb "error") [literal "Overflow in division"])
      .ok (case_ none (binary .eq y (nat 0), divisionByZero) overflow (some (binary .mod x y)))

/-- The number of bits of a type, and whether it is signed. -/
def shiftBits : LogicalType → Option (ℕ × Bool)
  | .utinyint => some (8, false)
  | .tinyint => some (8, true)
  | .usmallint => some (16, false)
  | .smallint => some (16, true)
  | .uinteger => some (32, false)
  | .integer => some (32, true)
  | .bigint => some (64, true)
  | _ => none

/-- `WriteArithmetic`, of a shift. -/
def writeShift (isLeft : Bool) (left right : Node w) (leftType rightType : LogicalType) :
    Except Refusal Atom := do
  require (leftType.isInteger && rightType.isInteger) (.notSupported "unsupported shift")
  match w.tryGetMaxLogicalType leftType rightType with
  | none => .error (.notSupported "unsupported shift")
  | some commonType =>
    match shiftBits commonType with
    | none =>
      .error (.notSupported ("unsupported shift of " ++ text (w.typeString commonType)))
    | some (bits, isSigned) => do
      requireExtensionFunctions w "a shift"
      let x ← left.operand
      let y ← right.operand
      -- DuckDB raises an error for an overflow, SQLite shifts the bits out
      let bits := if isLeft && !isSigned then bits + 1 else bits
      .ok (call (if isLeft then duckdb "shift_left" else duckdb "shift_right") [x, y, nat bits])

/-- `WriteIntervalArithmetic`. -/
def writeIntervalArithmetic (value interval : Node w) (subtract : Bool) :
    Except Refusal Atom := do
  let literal ← (match tryGetConstantValue w interval.expr with
    | some (.interval i) => .ok (some i)
    | _ => tryGetIntervalLiteral w interval.expr)
  match literal with
  | none => .error (.notSupported "non-constant interval")
  | some i =>
    let type ← requireType w value.expr
    require type.isTimestamp (.notSupported "unsupported interval arithmetic")
    require (!(subtract && (i.months = -2 ^ 31 || i.days = -2 ^ 31 || i.micros = -2 ^ 63)))
      (.notSupported "interval out of range")
    let i := if subtract then ⟨-i.months, -i.days, -i.micros⟩ else i
    requireExtensionFunctions w "interval arithmetic"
    let x ← value.operand
    -- the result is a TIMESTAMP, also for dates
    .ok (call (duckdb "add_interval") [x, integer i.months, integer i.days, integer i.micros])

/-- A number of days as a modifier of `date`. -/
def days (x : Operand p) : Phrase := binary .concat x (literal " days")

/-- `WriteArithmetic`, of one operand. -/
def writeSign (name : Text) (operand : Node w) : Except Refusal Atom := do
  let ⟨type, htype⟩ ← knownType w operand.expr
  if h : type.isNumeric = true then
    let x := operand.number (Node.isNumeric_of_known htype h)
    if oneOf ["-"] name then
      let x ← x
      -- SQLite's negation of 0.0 is 0.0, not -0.0
      .ok (paren (if type.isInteger then minus x
        else binary .mul x (minus (number (withPoint (natural 1))))))
    else if oneOf ["+"] name then x
    else if oneOf ["~"] name && type.isInteger then
      let x ← x
      .ok (paren (tilde x))
    else .error (.notSupported ("unsupported unary operator " ++ text name))
  else .error (.notSupported ("unsupported unary operator " ++ text name))

def additiveOperator (name : Text) : Option BinaryOp :=
  if oneOf ["+"] name then some .add
  else if oneOf ["-"] name then some .sub
  else if oneOf ["*"] name then some .mul
  else none

/-- Two operands with an operator between them, in parentheses. -/
def writeBinary (op : BinaryOp) (left right : Node w) : Except Refusal Atom := do
  let x ← left.operand
  let y ← right.operand
  .ok (paren (binary op x y))

/-- `WriteArithmetic`, of a sum, a difference or a product, or of a date. -/
def writeAdditive (f : FunctionNode w) (left right : Node w) (leftType rightType : LogicalType)
    (hrightType : w.inferType right.expr = rightType) : Except Refusal Atom := do
  let isPlus := oneOf ["+"] f.name
  let isMinus := oneOf ["-"] f.name
  if leftType.isNumericOrDecimal && rightType.isNumericOrDecimal then
    -- DECIMAL arithmetic is exact in DuckDB - it is only supported where the result is a DOUBLE
    let type ← requireType w f.expr
    require type.isNumeric (.notSupported ("unsupported arithmetic for " ++
      text (w.typeString leftType) ++ " and " ++ text (w.typeString rightType)))
    match additiveOperator f.name with
    | some op => writeBinary w op left right
    -- DuckDB has no `~` of two numbers, so that its type is not known
    | none => .error (.internal "no such operator")
  else if leftType.isTimestamp && rightType = .interval && (isPlus || isMinus) then
    writeIntervalArithmetic w left right isMinus
  else if leftType = .interval && rightType.isTimestamp && isPlus then
    writeIntervalArithmetic w right left false
  else if h : (leftType = .date && (isPlus || isMinus)) = true ∧ rightType.isInteger = true then
    let n ← right.number (isNumeric_of_isInteger (hrightType ▸ h.2))
    let x ← left.operand
    .ok (call Fn.date [x, days (if isMinus then paren (minus n) else n)])
  else if leftType.isInteger && rightType = .date && isPlus then
    let x ← right.operand
    let n ← left.operand
    .ok (call Fn.date [x, days n])
  else if leftType = .date && rightType = .date && isMinus then
    -- the number of days between the dates
    let x ← left.operand
    let y ← right.operand
    .ok (castTo (binary .sub (call (fn "julianday") [x]) (call (fn "julianday") [y]))
      (fn "INTEGER"))
  else
    .error (.notSupported ("unsupported operator " ++ text f.name ++ " for " ++
      text (w.typeString leftType) ++ " and " ++ text (w.typeString rightType)))

/-- `WriteArithmetic`. -/
def writeArithmetic (f : FunctionNode w) : Except Refusal Atom := do
  let left ← arg f.args 0
  if f.args.length = 1 then writeSign w f.name left
  else
    let right ← arg f.args 1
    let leftType ← requireType w left.expr
    let ⟨rightType, hrightType⟩ ← knownType w right.expr
    let areIntegers := leftType.isInteger && rightType.isInteger
    if oneOf ["/"] f.name then
      require (leftType.isNumericOrDecimal && rightType.isNumericOrDecimal)
        (.notSupported "unsupported division")
      writeDivision w left right false
    else if oneOf ["//", "%"] f.name then
      -- DuckDB computes these for floating point numbers as well
      require areIntegers (.notSupported "unsupported integer division / modulo")
      if oneOf ["//"] f.name then writeDivision w left right true
      else writeModulo w left right leftType rightType
    else if oneOf ["||"] f.name then
      -- DuckDB converts non-string operands to strings - and concatenates blobs and lists
      require (leftType ≠ .blob && rightType ≠ .blob)
        (.notSupported "unsupported concatenation")
      let x ← writeAs w left .varchar
      let y ← writeAs w right .varchar
      .ok (paren (binary .concat x y))
    else if oneOf ["&", "|", "xor"] f.name then
      require areIntegers (.notSupported "unsupported bitwise operator")
      if oneOf ["xor"] f.name then
        let x ← left.operand
        let y ← right.operand
        .ok (paren (binary .sub (paren (binary .bitOr x y)) (paren (binary .bitAnd x y))))
      else writeBinary w (if oneOf ["&"] f.name then .bitAnd else .bitOr) left right
    else if oneOf ["<<", ">>"] f.name then
      writeShift w (oneOf ["<<"] f.name) left right leftType rightType
    else writeAdditive w f left right leftType rightType hrightType.1

end Arithmetic

/-! ### Patterns -/

section Patterns

/-- A character that is special in a `GLOB` pattern is matched literally within brackets. -/
def globLiteral (c : Char) : Text :=
  if c = '*' || c = '?' || c = '[' then ['[', c, ']'] else [c]

/-- `SQLiteLikeToGlob`. -/
def likeToGlob (escape : Option Char) : Text → Option Text
  | [] => some []
  | c :: cs =>
    if escape = some c then
      match cs with
      -- DuckDB raises an error
      | [] => none
      | d :: cs => (likeToGlob escape cs).map (globLiteral d ++ ·)
    else if c = '%' then (likeToGlob escape cs).map ('*' :: ·)
    else if c = '_' then (likeToGlob escape cs).map ('?' :: ·)
    else (likeToGlob escape cs).map (globLiteral c ++ ·)

/-- `SQLiteGlobEscape`. -/
def globEscape (s : Text) : Text := s.flatMap globLiteral

/-- The size of a text in bytes. -/
def byteSize (s : Text) : ℕ := (s.map Char.utf8Size).sum

variable (w : Writer)

/-- Check the types of all arguments of a function. -/
def requireTypes (check : LogicalType → Bool) (operands : List (Node w)) (refusal : Refusal) :
    Except Refusal Unit :=
  operands.forM fun o => do
    let type ← requireType w o.expr
    require (check type) refusal

/-- The `GLOB` pattern that stands for a constant pattern with an optional escape character, if there is
one. -/
def globPattern (isGlob : Bool) (pattern : Expr) (escape : Option Expr) : Option Text :=
  match constantString w pattern, escape.map (constantString w) with
  | some p, none =>
    -- DuckDB's GLOB matches like SQLite's, except for character classes and escapes - and a ? matches
    -- a byte in DuckDB, a character in SQLite
    if isGlob then if p.any fun c => "[]\\?".toList.contains c then none else some p
    -- SQLite's LIKE is case insensitive - GLOB is not
    else likeToGlob none p
  | some p, some (some e) =>
    if isGlob then if p.any fun c => "[]\\?".toList.contains c then none else some p
    else if byteSize e ≤ 1 then likeToGlob e.head? p
    else none
  | _, _ => none

/-- `WriteLike`. -/
def writeLike (f : FunctionNode w) : Except Refusal Atom := do
  let isNegated := oneOf ["!~~", "!~~*", "not_like_escape", "not_ilike_escape"] f.name
  let isCaseInsensitive := oneOf ["~~*", "!~~*", "ilike_escape", "not_ilike_escape"] f.name
  let isGlob := oneOf ["~~~", "glob"] f.name
  requireTypes w LogicalType.isString f.args
    (.notSupported ("unsupported " ++ text f.name ++ " argument"))
  let str ← writeArg f.args 0
  let pattern ← arg f.args 1
  let glob := if isCaseInsensitive then none
    else globPattern w isGlob pattern.expr (f.args[2]?.map (·.expr))
  let result : Atom ← (match glob with
    | some p => do
      let constant ← writeConstant w (.varchar p)
      .ok (paren (binary .glob str constant))
    | none => do
      requireExtensionFunctions w "LIKE with a non-constant pattern"
      let rest ← f.args.tail.mapM (·.phrase)
      let name := if isGlob then duckdb "glob"
        else if isCaseInsensitive then duckdb "ilike" else duckdb "like"
      .ok (call name (str :: rest)))
  .ok (if isNegated then paren (negation result) else result)

end Patterns

end SqliteScanner.Expressions
