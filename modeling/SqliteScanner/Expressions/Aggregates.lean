import SqliteScanner.Expressions.Functions

/-!
# Aggregates

Every aggregate is written as a call, to which a `FILTER` can be added. Aggregates that SQLite does not
have, or computes in another way, are aggregates of the extension. The order of the rows is only written
where the result depends on it.

## Main definitions

* `Aggregate` — a call of an aggregate without its `FILTER`
* `writeAggregateCall`, `writeAggregate` — the source's functions
-/

namespace SqliteScanner.Expressions

open Lexing Precedence Sql

/-- A call of an aggregate, without its `FILTER`. It has no arguments for `*`. -/
structure Aggregate where
  name : Name
  distinct : Bool
  args : Option (List Phrase)

def Aggregate.atom (a : Aggregate) (filter : Option Phrase) : Atom :=
  match a.args with
  | none => callStar a.name filter
  | some xs => aggregate a.name a.distinct xs filter

section Definitions

variable (w : Writer)

/-- The types that aggregates of any values are computed for. -/
def isAggregable (type : LogicalType) : Bool :=
  type.representation ≠ .other && !type.isDecimal && type ≠ .float

/-- `sum` and `avg`. -/
def writeSum (f : FunctionNode w) : Except Refusal Aggregate := do
  let o ← arg f.args 0
  let type ← requireType w o.expr
  require type.isNumeric (argumentType f)
  let isSum := oneOf ["sum"] f.name
  -- DuckDB sums the integers exactly - SQLite as floating point numbers once the sum overflows
  let _ ← (if !isSum && type.isInteger then requireExtensionFunctions w "avg of integers" else .ok ())
  let x ← o.phrase
  let name := if isSum then fn "sum" else if type.isInteger then duckdb "avg" else fn "avg"
  .ok ⟨name, f.distinct, some [x]⟩

/-- `min` and `max`. `min(x, n)` returns the `n` smallest values as a list. -/
def writeMinMax (name : Name) (f : FunctionNode w) : Except Refusal Aggregate := do
  require (f.args.length = 1)
    (.notSupported (text f.name ++ " with more than one argument"))
  requireArgType w isAggregable f 0 (argumentType f)
  let x ← writeArg f.args 0
  .ok ⟨name, f.distinct, some [x]⟩

/-- `bool_and` and `bool_or`. Booleans are represented as `0` and `1`. -/
def writeBoolean (name : Name) (f : FunctionNode w) : Except Refusal Aggregate := do
  requireArgType w (· = .boolean) f 0 (argumentType f)
  let x ← writeArg f.args 0
  .ok ⟨name, false, some [x]⟩

/-- `string_agg`. The default separator of both is a comma. -/
def writeStringAgg (f : FunctionNode w) : Except Refusal Aggregate := do
  let o ← arg f.args 0
  let x ← writeAs w o .varchar
  if f.distinct || f.args.length = 1 then .ok ⟨fn "group_concat", f.distinct, some [x]⟩
  else
    let separator ← writeArg f.args 1
    .ok ⟨fn "group_concat", false, some [x, separator]⟩

/-- The statistics and the aggregates of bits. -/
def writeStatistics (name : Name) (check : LogicalType → Bool) (f : FunctionNode w) :
    Except Refusal Aggregate := do
  requireArgType w check f 0 (argumentType f)
  requireExtensionFunctions w (text f.name)
  let x ← writeArg f.args 0
  .ok ⟨name, false, some [x]⟩

/-- `arg_min` and `arg_max`. -/
def writeArgExtremum (name : Name) (f : FunctionNode w) : Except Refusal Aggregate := do
  require (f.args.length = 2)
    (.notSupported (text f.name ++ " with more than two arguments"))
  requireTypes w isAggregable f.args (argumentType f)
  requireExtensionFunctions w (text f.name)
  let x ← writeArg f.args 0
  let y ← writeArg f.args 1
  .ok ⟨name, false, some [x, y]⟩

/-- The quantile that is asked for. DuckDB computes the index of a discrete quantile exactly for a
decimal, which is passed as its text. -/
def writeQuantileArg (f : FunctionNode w) : Except Refusal Atom := do
  if oneOf ["median"] f.name then .ok (number oneHalf)
  else
    let o ← arg f.args 1
    match tryGetConstantValue w o.expr with
    | none => .error (.internal "SQLiteSQLWriter: the quantile must be a constant")
    | some value =>
      if value.type.isDecimal then writeConstant w (.varchar (w.valueString value))
      else
        match w.defaultTryCastAs value .double with
        | some (.real _ d) => writeDouble w d
        | _ => .error .conversion

/-- `median` and the quantiles. -/
def writeQuantile (f : FunctionNode w) : Except Refusal Aggregate := do
  let o ← arg f.args 0
  let type ← requireType w o.expr
  let isMedian := oneOf ["median"] f.name
  -- DuckDB's median of strings is discrete
  let isContinuous := (isMedian && !type.isString) || oneOf ["quantile_cont"] f.name
  require (type.isNumeric || (!isContinuous && type.isString)) (argumentType f)
  requireExtensionFunctions w (text f.name)
  let quantile ← writeQuantileArg w f
  let x ← o.phrase
  .ok ⟨if isContinuous then duckdb "quantile_cont" else duckdb "quantile_disc", false,
    some [x, quantile]⟩

/-- The aggregates that are written with the type of their argument, and how. -/
def aggregateFunctions : List (List String × (FunctionNode w → Except Refusal Aggregate)) :=
  [(["sum", "avg", "mean"], writeSum w),
    (["min"], writeMinMax w Fn.min),
    (["max"], writeMinMax w Fn.max),
    (["bool_and"], writeBoolean w Fn.min),
    (["bool_or"], writeBoolean w Fn.max),
    (["string_agg", "group_concat", "listagg"], writeStringAgg w),
    (["stddev", "stddev_samp"], writeStatistics w (duckdb "stddev_samp") LogicalType.isNumeric),
    (["stddev_pop"], writeStatistics w (duckdb "stddev_pop") LogicalType.isNumeric),
    (["variance", "var_samp"], writeStatistics w (duckdb "var_samp") LogicalType.isNumeric),
    (["var_pop"], writeStatistics w (duckdb "var_pop") LogicalType.isNumeric),
    (["product"], writeStatistics w (duckdb "product") LogicalType.isNumeric),
    (["bit_and"], writeStatistics w (duckdb "bit_and") LogicalType.isInteger),
    (["bit_or"], writeStatistics w (duckdb "bit_or") LogicalType.isInteger),
    (["bit_xor"], writeStatistics w (duckdb "bit_xor") LogicalType.isInteger),
    (["arg_min", "min_by", "argmin"], writeArgExtremum w (duckdb "arg_min")),
    (["arg_max", "max_by", "argmax"], writeArgExtremum w (duckdb "arg_max")),
    (["median", "quantile", "quantile_cont", "quantile_disc"], writeQuantile w)]

/-- `WriteAggregateCall`. -/
def writeAggregateCall (f : FunctionNode w) : Except Refusal Aggregate :=
  if oneOf ["count_star", "count"] f.name && f.args.isEmpty then .ok ⟨fn "count", false, none⟩
  else if oneOf ["count"] f.name then do
    let x ← writeArg f.args 0
    .ok ⟨fn "count", f.distinct, some [x]⟩
  else
    match (aggregateFunctions w).find? fun row => oneOf row.1 f.name with
    | some row => row.2 f
    | none => .error (.internal ("SQLiteSQLWriter: unsupported aggregate " ++ text f.name ++
        " - should have been blocked by SupportsPushdown"))

variable {w} in
/-- The letters that `duckdb_string_agg` reads the order from. -/
def orderText (orders : List (Bool × Bool × Node w)) : Text :=
  orders.flatMap fun entry =>
    [if entry.1 then 'D' else 'A', if entry.2.1 then 'F' else 'L']

/-- `string_agg` with an `ORDER BY`. -/
def writeOrderedStringAgg (f : FunctionNode w) : Except Refusal Aggregate := do
  requireExtensionFunctions w ("an ordered " ++ text f.name)
  let keys ← f.orders.mapM fun entry => do
    let type ← requireType w entry.2.2.expr
    require (isAggregable type)
      (.notSupported ("unsupported ORDER BY key of " ++ text f.name))
    entry.2.2.phrase
  let separator ← (if 1 < f.args.length then writeArg f.args 1 else .ok ↑(literal ","))
  let o ← arg f.args 0
  let x ← writeAs w o .varchar
  .ok ⟨duckdb "string_agg", false,
    some ([x.phrase, separator.phrase, (str (orderText f.orders)).phrase] ++ keys)⟩

/-- `WriteAggregate`, before the `FILTER`. -/
def writeUnfiltered (f : FunctionNode w) : Except Refusal Aggregate :=
  if !f.orders.isEmpty then
    if oneOf ["string_agg", "group_concat", "listagg"] f.name then writeOrderedStringAgg w f
    else do
      -- floating point sums depend on the order of the values, the other results do not
      let _ ← (if oneOf ["sum", "avg", "mean"] f.name then
          requireArgType w LogicalType.isInteger f 0
            (.notSupported ("ordered " ++ text f.name ++ " of floating point numbers"))
        else .ok ())
      writeAggregateCall w f
  else if oneOf ["count_if", "countif"] f.name then do
    let x ← writeArg f.args 0
    .ok ⟨fn "count", false,
      some [caseWhen none (x, nat 1) [] none]⟩
  else writeAggregateCall w f

/-- `WriteAggregate`. -/
def writeAggregate (f : FunctionNode w) : Except Refusal Atom := do
  let a ← writeUnfiltered w f
  match f.filter with
  | none => .ok (a.atom none)
  | some filter =>
    let condition ← writeCondition w filter
    .ok (a.atom (some condition))

end Definitions

end SqliteScanner.Expressions
