import SqliteScanner.DateText
import SqliteScanner.Internal.Contexts
import SqliteScanner.Internal.Runs

/-!
# Expressions, and what the writer knows about them

The expressions that are pushed down, as DuckDB parses them, with the types and values in them. Lists
and optional parts belong to one inductive family (`Syn`), as they do in the terms that are written.
An `AND`, an `OR` and a `CASE` have at least one part in DuckDB, and here as well.

What comes from outside of the writer is collected in `Writer`: the types that DuckDB finds by binding
a probe query, its conversions of constants, and the settings. The columns of the target of a DML
statement are there too, since they are converted where they are read. The fields that are laws say
that DuckDB knows a string when it sees one: a string column of the target, a cast to `VARCHAR`, and
`greatest` or `least` of one string are of type `VARCHAR`.

Stars, windows and subqueries are left out, and so are the names of function arguments.

## Main definitions

* `LogicalType`, `Value` — types, and the constants of a query
* `Syn`, `Expr` — expressions
* `Writer` — what the writer is given
-/

namespace SqliteScanner.Expressions

open Lexing Precedence

/-! ### Types -/

inductive LogicalType where
  | invalid
  | sqlNull
  | boolean
  | tinyint
  | smallint
  | integer
  | bigint
  | utinyint
  | usmallint
  | uinteger
  | ubigint
  | hugeint
  | uhugeint
  | float
  | double
  | decimal (width scale : ℕ)
  | varchar
  /-- The type of a string literal whose type is not decided yet. -/
  | stringLiteral
  | blob
  | date
  | timestamp
  | interval
  /-- Times, nested types, enums and all others. -/
  | other (id : ℕ)
deriving DecidableEq

/-- `SQLiteRepresentation`: how values of a type are represented in SQLite. -/
inductive Representation where
  | none
  | integer
  | real
  | text
  | blob
  | other
deriving DecidableEq

/-- Why nothing is written: the writer gives up (`SQLitePushdownNotSupported`), or an error of DuckDB is
raised. -/
inductive Refusal where
  | notSupported (reason : String)
  | internal (reason : String)
  | conversion
deriving DecidableEq

namespace LogicalType

/-- `SQLiteGetRepresentation`. -/
def representation : LogicalType → Representation
  | sqlNull => .none
  | boolean | tinyint | smallint | integer | bigint | hugeint | utinyint | usmallint | uinteger
  | ubigint | uhugeint => .integer
  | float | double | decimal _ _ => .real
  | varchar | date | timestamp => .text
  | blob => .blob
  | invalid | stringLiteral | interval | other _ => .other

/-- `SQLiteIsIntegerType`. -/
def isInteger (type : LogicalType) : Bool :=
  type ≠ boolean && type.representation = .integer

/-- `SQLiteIsNumericType`. -/
def isNumeric (type : LogicalType) : Bool :=
  type.isInteger || type = double

def isDecimal : LogicalType → Bool
  | decimal _ _ => true
  | _ => false

/-- `SQLiteIsNumericOrDecimalType`. -/
def isNumericOrDecimal (type : LogicalType) : Bool :=
  type.isNumeric || type.isDecimal

/-- `SQLiteIsTimestampType`. -/
def isTimestamp (type : LogicalType) : Bool :=
  type = date || type = timestamp

/-- `SQLiteIsStringType`. -/
def isString (type : LogicalType) : Bool :=
  type = varchar || type = sqlNull

/-- The smallest and the largest value of an integer type. -/
def range : LogicalType → ℤ × ℤ
  | tinyint => (-2 ^ 7, 2 ^ 7 - 1)
  | smallint => (-2 ^ 15, 2 ^ 15 - 1)
  | integer => (-2 ^ 31, 2 ^ 31 - 1)
  | bigint => (-2 ^ 63, 2 ^ 63 - 1)
  | hugeint => (-2 ^ 127, 2 ^ 127 - 1)
  | utinyint => (0, 2 ^ 8 - 1)
  | usmallint => (0, 2 ^ 16 - 1)
  | uinteger => (0, 2 ^ 32 - 1)
  | ubigint => (0, 2 ^ 64 - 1)
  | uhugeint => (0, 2 ^ 128 - 1)
  | _ => (0, 0)

/-- `SQLiteIsIntegerSubtype`: all values of the source type are values of the target type. The bounds
are compared as `HUGEINT`, to which the largest `UHUGEINT` cannot be converted. -/
def isIntegerSubtype (source target : LogicalType) : Except Refusal Bool :=
  if !source.isInteger || !target.isInteger then .ok false
  else if source = target || target = hugeint then .ok true
  else if source = uhugeint || target = uhugeint then .error .conversion
  else .ok (target.range.1 ≤ source.range.1 && source.range.2 ≤ target.range.2)

/-- `SQLiteFunctions::HasRepresentation`. -/
def hasRepresentation : LogicalType → Bool
  | boolean | tinyint | smallint | integer | bigint | utinyint | usmallint | uinteger | double
  | varchar | blob | date | timestamp => true
  | _ => false

end LogicalType

/-! ### Values -/

/-- A double, as far as the writer looks at it. The digits and the exponent are those of `%.*e` with the
smallest precision that reads back as the double, and `general` is what `%.*g` prints with that
precision, without the sign. -/
structure Double where
  isNaN : Bool
  isInf : Bool
  isZero : Bool
  /-- The text starts with a minus sign. -/
  negative : Bool
  digits : ℕ
  exponent : ℤ
  general : Numeral
  /-- The bits as an `int64_t`. -/
  bits : ℤ

structure Interval where
  months : ℤ
  days : ℤ
  micros : ℤ

inductive Value where
  | null (type : LogicalType)
  | boolean (b : Bool)
  | integer (type : LogicalType) (n : ℤ)
  /-- A `FLOAT`, a `DOUBLE`, or a `DECIMAL` with the double that it is converted to. -/
  | real (type : LogicalType) (d : Double)
  | varchar (s : Text)
  | blob (bytes : List UInt8)
  | temporal (v : DateText.Value)
  | interval (i : Interval)
  | other (type : LogicalType)

namespace Value

def type : Value → LogicalType
  | null type => type
  | boolean _ => .boolean
  | integer type _ => type
  | real type _ => type
  | varchar _ => .varchar
  | blob _ => .blob
  | temporal (.date _) => .date
  | temporal (.timestamp _) => .timestamp
  | interval _ => .interval
  | other type => type

def isNull : Value → Bool
  | null _ => true
  | _ => false

end Value

def inInt64 (n : ℤ) : Bool := -2 ^ 63 ≤ n && n ≤ 2 ^ 63 - 1

def inInt32 (n : ℤ) : Bool := -2 ^ 31 ≤ n && n ≤ 2 ^ 31 - 1

/-! ### Expressions -/

inductive ComparisonType where
  | equal
  | notEqual
  | lessThan
  | greaterThan
  | lessThanOrEqualTo
  | greaterThanOrEqualTo
  | distinctFrom
  | notDistinctFrom
deriving DecidableEq

inductive OperatorType where
  | isNull
  | isNotNull
  | not_
  | coalesce
  | nullif
  | compareIn
  | compareNotIn
deriving DecidableEq

inductive Part where
  | expr
  | exprs
  | checks
  | orders
  | opt

inductive Syn : Part → Type where
  | constant (value : Value) : Syn .expr
  /-- A column and what it is qualified with. -/
  | columnRef (qualifiers : List Text) (name : Text) : Syn .expr
  /-- `isSystem` is whether the name is qualified with the system catalog and its main schema. -/
  | function (isSystem : Bool) (name : Text) (args : Syn .exprs) (distinct : Bool)
      (filter : Syn .opt) (orders : Syn .orders) : Syn .expr
  | comparison (type : ComparisonType) (left right : Syn .expr) : Syn .expr
  | conjunction (isOr : Bool) (first : Syn .expr) (others : Syn .exprs) : Syn .expr
  | operator (type : OperatorType) (children : Syn .exprs) : Syn .expr
  | caseExpr (condition result : Syn .expr) (checks : Syn .checks) (otherwise : Syn .expr) :
      Syn .expr
  /-- A cast to a type that has been resolved; it is `invalid` if that is not possible. -/
  | cast (child : Syn .expr) (target : LogicalType) (tryCast : Bool) : Syn .expr
  | between (input lower upper : Syn .expr) : Syn .expr
  | nil : Syn .exprs
  | cons (expr : Syn .expr) (exprs : Syn .exprs) : Syn .exprs
  | noCheck : Syn .checks
  | check (condition result : Syn .expr) (checks : Syn .checks) : Syn .checks
  | noOrder : Syn .orders
  /-- The direction and the place of `NULL`s, after the defaults have been resolved. -/
  | order (descending nullsFirst : Bool) (key : Syn .expr) (orders : Syn .orders) : Syn .orders
  | absent : Syn .opt
  | present (expr : Syn .expr) : Syn .opt

abbrev Expr := Syn .expr

def Syn.ofList : List Expr → Syn .exprs
  | [] => .nil
  | expr :: exprs => .cons expr (ofList exprs)

def Syn.ofOption : Option Expr → Syn .opt
  | none => .absent
  | some expr => .present expr

def Syn.ofChecks : List (Expr × Expr) → Syn .checks
  | [] => .noCheck
  | (condition, result) :: checks => .check condition result (ofChecks checks)

def Syn.ofOrders : List (Bool × Bool × Expr) → Syn .orders
  | [] => .noOrder
  | (descending, nullsFirst, key) :: orders => .order descending nullsFirst key (ofOrders orders)

/-- `StringUtil::Lower`, and how names are compared. -/
def lower (name : Text) : Text := name.map Char.toLower

def oneOf (names : List String) (name : Text) : Bool :=
  names.any fun s => s.toList = name

def text (s : Text) : String := String.ofList s

/-- `SQLiteCapabilities::IsAggregateFunction`. -/
def isAggregateFunction (name : Text) : Bool :=
  oneOf ["count", "count_star", "sum", "avg", "mean", "min", "max", "string_agg", "group_concat",
    "listagg", "bool_and", "bool_or", "count_if", "countif", "stddev", "stddev_samp", "stddev_pop",
    "variance", "var_samp", "var_pop", "product", "bit_and", "bit_or", "bit_xor", "arg_min",
    "arg_max", "min_by", "max_by", "argmin", "argmax", "median", "quantile", "quantile_cont",
    "quantile_disc"] (lower name)

/-- `SQLiteContainsAggregateOrWindow`. -/
def containsAggregate : {p : Part} → Syn p → Bool
  | _, .function _ name args _ filter orders =>
    isAggregateFunction name || containsAggregate args || containsAggregate filter ||
      containsAggregate orders
  | _, .comparison _ left right => containsAggregate left || containsAggregate right
  | _, .conjunction _ first others => containsAggregate first || containsAggregate others
  | _, .operator _ children => containsAggregate children
  | _, .caseExpr condition result checks otherwise =>
    containsAggregate condition || containsAggregate result || containsAggregate checks ||
      containsAggregate otherwise
  | _, .cast child _ _ => containsAggregate child
  | _, .between input lower upper =>
    containsAggregate input || containsAggregate lower || containsAggregate upper
  | _, .cons expr exprs => containsAggregate expr || containsAggregate exprs
  | _, .check condition result checks =>
    containsAggregate condition || containsAggregate result || containsAggregate checks
  | _, .order _ _ key orders => containsAggregate key || containsAggregate orders
  | _, .present expr => containsAggregate expr
  | _, _ => false

/-! ### The writer's surroundings -/

/-- A column of the target of a DML statement, and how its values are stored. -/
structure TargetColumn where
  type : LogicalType
  textAffinity : Bool
  realAffinity : Bool
  binaryCollation : Bool

structure Writer where
  /-- The text is stored as a view, so that the functions of the extension cannot be used. -/
  statementMode : Bool
  unqualifiedColumns : Bool
  /-- `InferType`: the type that DuckDB binds an expression to, `invalid` if it cannot be found. -/
  inferType : Expr → LogicalType
  /-- `ResolveTargetColumn`: the column of the target that a name refers to. -/
  targetColumn : List Text → Text → Option TargetColumn
  /-- All columns of the target are read as strings. -/
  allVarchar : Bool
  tryCastAs : Value → LogicalType → Option Value
  defaultTryCastAs : Value → LogicalType → Option Value
  supportsValue : Value → Bool
  tryGetMaxLogicalType : LogicalType → LogicalType → Option LogicalType
  tryBindComparison : LogicalType → LogicalType → Option LogicalType
  /-- `ParsedExpression::Equals`. -/
  equals : Expr → Expr → Bool
  ieeeFloatingPointOps : Bool
  errorOnDivisionByZero : Bool
  /-- The name of a type without its parameters, the name with them, and the texts of values and
  expressions in messages. -/
  typeName : LogicalType → Text
  typeString : LogicalType → Text
  valueString : Value → Text
  exprString : Expr → Text
  inferType_column : ∀ qualifiers name column, targetColumn qualifiers name = some column →
    column.type = .varchar → inferType (.columnRef qualifiers name) ∈ [.varchar, .invalid]
  inferType_cast : ∀ child tryCast, inferType (.cast child .varchar tryCast) ∈ [.varchar, .invalid]
  inferType_extremum : ∀ isSystem name arg distinct filter orders,
    oneOf ["greatest", "least"] (lower name) → inferType arg = .varchar →
      inferType (.function isSystem name (.cons arg .nil) distinct filter orders) ∈
        [.varchar, .invalid]

/-- Go on only if a condition holds. -/
def require (condition : Bool) (refusal : Refusal) : Except Refusal Unit :=
  if condition then .ok () else .error refusal

section Inspection

variable (w : Writer)

/-- `RequireType`, with what is known of the type. -/
def knownType (expr : Expr) :
    Except Refusal {type : LogicalType // w.inferType expr = type ∧ type ≠ .invalid} :=
  if h : w.inferType expr = .invalid then
    .error (.notSupported ("cannot determine the type of " ++ text (w.exprString expr)))
  else .ok ⟨w.inferType expr, rfl, h⟩

/-- `RequireType`. -/
def requireType (expr : Expr) : Except Refusal LogicalType := do
  let type ← knownType w expr
  .ok type.1

/-- `RequireExtensionFunctions`. -/
def requireExtensionFunctions (construct : String) : Except Refusal Unit :=
  require (!w.statementMode) (.notSupported (construct ++ " requires the functions of the extension"))

/-- `SQLiteHasDefaultDivisionSemantics`. -/
def hasDefaultDivisionSemantics : Bool := w.ieeeFloatingPointOps && w.errorOnDivisionByZero

/-- `SQLiteCapabilities::TryGetConstantValue`: a literal, or a cast of a literal. -/
def tryGetConstantValue : Expr → Option Value
  | .constant value => some value
  | .cast (.constant value) target tryCast =>
    if tryCast || target = .invalid then none else w.defaultTryCastAs value target
  | _ => none

/-- `SQLiteCapabilities::TryGetIntegerLiteral`. -/
def tryGetIntegerLiteral (expr : Expr) : Option ℤ :=
  match tryGetConstantValue w expr with
  | some (.integer _ n) => if inInt64 n then some n else none
  | _ => none

/-- A constant that is a string (`constant_string`). -/
def constantString (expr : Expr) : Option Text :=
  match tryGetConstantValue w expr with
  | some (.varchar s) => some s
  | _ => none

/-- `SQLiteTryGetIntervalPart`. -/
def tryGetIntervalPart (name : String) : Expr → Option ℤ
  | .function true f (.cons arg .nil) false .absent _ =>
    if oneOf [name] (lower f) then tryGetIntegerLiteral w arg else none
  | _ => none

/-- `SQLiteCapabilities::TryGetIntervalLiteral`: DuckDB writes an interval as a sum of its parts. The
number of months and the number of days must be 32-bit integers. -/
def tryGetIntervalLiteral : Expr → Except Refusal (Option Interval)
  | .function true f (.cons (.function true g (.cons months (.cons days .nil)) false .absent _)
      (.cons micros .nil)) false .absent _ =>
    if !oneOf ["add"] (lower f) || !oneOf ["add"] (lower g) then .ok none
    else
      match tryGetIntervalPart w "to_months" months, tryGetIntervalPart w "to_days" days,
        tryGetIntervalPart w "to_microseconds" micros with
      | some months, some days, some micros =>
        if inInt32 months && inInt32 days then .ok (some ⟨months, days, micros⟩)
        else .error (.internal "value out of range")
      | _, _, _ => .ok none
  | _ => .ok none

end Inspection

end SqliteScanner.Expressions
