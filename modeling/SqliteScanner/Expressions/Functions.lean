import SqliteScanner.Expressions.Arithmetic

/-!
# Scalar functions

The functions that are pushed down, with the names that DuckDB has for them (`scalarFunctions`). The
first row whose names contain the name of a call says how the call is written. Functions that SQLite has
as well are called there, sometimes with a `CASE` around them; others are functions of the extension.

Some functions are written as their argument. These are `greatest` and `least` of one argument, and the
rounding of integers.

## Main definitions

* `scalarFunctions` — the functions and how they are written
* `writeMath`, `writeDatePart` — the source's functions for numbers and for dates
-/

namespace SqliteScanner.Expressions

open Lexing Precedence Sql

variable {w : Writer}

def argumentType (f : FunctionNode w) : Refusal :=
  .notSupported ("unsupported argument type for " ++ text f.name)

def unsupportedArguments (f : FunctionNode w) : Refusal :=
  .notSupported ("unsupported " ++ text f.name ++ " arguments")

def isIntegerOrNull (type : LogicalType) : Bool := type.isInteger || type = .sqlNull

def isStringOrBlob (type : LogicalType) : Bool := type.isString || type = .blob

section Definitions

variable (w)

def requireArgType (check : LogicalType → Bool) (f : FunctionNode w) (i : ℕ) (refusal : Refusal) :
    Except Refusal Unit := do
  let o ← arg f.args i
  let type ← requireType w o.expr
  require (check type) refusal

/-! ### Functions of strings -/

/-- A function of its first argument, all arguments being of some types. -/
def writeFirst (check : LogicalType → Bool) (form : Operand True → Atom) (f : FunctionNode w) :
    Except Refusal Atom := do
  requireTypes w check f.args (argumentType f)
  let x ← writeArg f.args 0
  .ok (form x)

/-- A function of the extension of its first argument. -/
def writeExtension (check : LogicalType → Bool) (name : Name) (f : FunctionNode w) :
    Except Refusal Atom := do
  requireArgType w check f 0 (argumentType f)
  requireExtensionFunctions w (text f.name)
  let x ← writeArg f.args 0
  .ok (call name [x])

/-- `lower`, `upper` and `reverse`. SQLite only maps ASCII characters. -/
def writeCharacters (name : Name) (f : FunctionNode w) : Except Refusal Atom := do
  requireTypes w LogicalType.isString f.args (argumentType f)
  requireExtensionFunctions w (text f.name)
  let x ← writeArg f.args 0
  .ok (call name [x])

/-- `trim` and `replace` have the names of SQLite's functions. -/
def writeSame (name : Name) (f : FunctionNode w) : Except Refusal Atom := do
  requireTypes w LogicalType.isString f.args (argumentType f)
  let xs ← f.args.mapM (·.phrase)
  .ok (call name xs)

/-- `strlen`, the number of bytes. -/
def writeStrlen (f : FunctionNode w) : Except Refusal Atom := do
  requireArgType w isStringOrBlob f 0 (argumentType f)
  let x ← writeArg f.args 0
  .ok (call (fn "length") [castTo x Fn.blob])

def writeInstr (form : Atom → Atom) (f : FunctionNode w) : Except Refusal Atom := do
  requireTypes w LogicalType.isString f.args (argumentType f)
  let x ← writeArg f.args 0
  let y ← writeArg f.args 1
  .ok (form (call (fn "instr") [x, y]))

/-- `starts_with` and `ends_with`. -/
def writeAffix (isPrefix : Bool) (f : FunctionNode w) : Except Refusal Atom := do
  requireTypes w LogicalType.isString f.args (argumentType f)
  let str ← writeArg f.args 0
  let second ← arg f.args 1
  match constantString w second.expr with
  | some constant =>
    let pattern := globEscape constant
    let constant ← writeConstant w (.varchar (if isPrefix then pattern ++ ['*'] else '*' :: pattern))
    .ok (paren (binary .glob str constant))
  | none =>
    let affix ← second.operand
    let length := call (fn "length") [affix]
    if isPrefix then
      .ok (paren (binary .eq (call Fn.substr [str, nat 1, length]) affix))
    else
      .ok (case_ none (binary .eq length (nat 0), binary .eq str str) []
        (some (binary .eq (call Fn.substr [str, minus length]) affix)))

/-- `substring`. SQLite's `substr` matches it for positive offsets and non-negative lengths. -/
def writeSubstring (f : FunctionNode w) : Except Refusal Atom := do
  require (2 ≤ f.args.length && f.args.length ≤ 3) (.notSupported "unsupported substring")
  requireArgType w LogicalType.isString f 0 (.notSupported "unsupported substring")
  requireTypes w isIntegerOrNull f.args.tail
    (.notSupported "unsupported substring arguments")
  let start ← arg f.args 1
  match tryGetIntegerLiteral w start.expr,
    f.args[2]?.map fun o => tryGetIntegerLiteral w o.expr with
  | some start, none =>
    if 1 ≤ start then do
      let x ← writeArg f.args 0
      .ok (call Fn.substr [x, integer start])
    else writeDuckdbSubstring
  | some start, some (some length) =>
    if 1 ≤ start && 0 ≤ length then do
      let x ← writeArg f.args 0
      .ok (call Fn.substr [x, integer start, integer length])
    else writeDuckdbSubstring
  | _, _ => writeDuckdbSubstring
where
  /-- DuckDB's negative offsets and lengths differ from SQLite's. -/
  writeDuckdbSubstring : Except Refusal Atom := do
    requireExtensionFunctions w (text f.name)
    let xs ← f.args.mapM (·.phrase)
    .ok (call (duckdb "substring") xs)

/-- `left` and `right`. Negative counts remove characters in DuckDB. -/
def writeSide (isLeft : Bool) (f : FunctionNode w) : Except Refusal Atom := do
  requireArgType w LogicalType.isString f 0 (unsupportedArguments f)
  requireArgType w isIntegerOrNull f 1 (unsupportedArguments f)
  let str ← writeArg f.args 0
  let second ← arg f.args 1
  match (tryGetIntegerLiteral w second.expr).filter (0 ≤ ·) with
  | some count =>
    .ok (if count = 0 then call Fn.substr [str, nat 1, nat 0]
      else if isLeft then call Fn.substr [str, nat 1, integer count]
      else call Fn.substr [str, integer (-count)])
  | none =>
    requireExtensionFunctions w (text f.name)
    let count ← second.operand
    .ok (call (if isLeft then duckdb "left" else duckdb "right") [str, count])

/-- `lpad` and `rpad`. -/
def writePad (name : Name) (f : FunctionNode w) : Except Refusal Atom := do
  require (f.args.length = 3) (unsupportedArguments f)
  requireArgType w LogicalType.isString f 0 (unsupportedArguments f)
  requireArgType w isIntegerOrNull f 1 (unsupportedArguments f)
  requireArgType w LogicalType.isString f 2 (unsupportedArguments f)
  requireExtensionFunctions w (text f.name)
  let x ← writeArg f.args 0
  let y ← writeArg f.args 1
  let z ← writeArg f.args 2
  .ok (call name [x, y, z])

/-- `repeat`. The hexadecimal text of `n` zero bytes is `n` times `00`. -/
def writeRepeat (f : FunctionNode w) : Except Refusal Atom := do
  requireArgType w LogicalType.isString f 0 (unsupportedArguments f)
  requireArgType w isIntegerOrNull f 1 (unsupportedArguments f)
  let n ← writeArg f.args 1
  let x ← writeArg f.args 0
  .ok (call (fn "replace") [call (fn "hex") [call (fn "zeroblob") [n]], literal "00", x])

/-- An argument of `concat` or `concat_ws`. -/
def writeConcatArg (f : FunctionNode w) (o : Node w) : Except Refusal (Operand True) := do
  let type ← requireType w o.expr
  require (type ≠ .blob) (.notSupported ("unsupported " ++ text f.name ++ " argument"))
  let x ← writeAs w o .varchar
  .ok (x.imp fun _ => trivial)

def orEmpty (x : Phrase) : Atom := call Fn.coalesce [x, literal ""]

/-- `concat`, which skips `NULL` arguments. A query is bound before it is written, and DuckDB does not
bind a `concat` without arguments. -/
def writeConcat (f : FunctionNode w) : Except Refusal Atom := do
  match ← f.args.mapM (writeConcatArg w f) with
  | [] => .error (.internal "concat has no arguments")
  | x :: xs => .ok (paren (joined .concat (orEmpty x) (xs.map fun x => orEmpty x)))

/-- `concat_ws`: every argument after the separator is put after a separator, of which the first one is
removed. DuckDB does not bind it without such an argument. -/
def writeConcatWs (f : FunctionNode w) : Except Refusal Atom := do
  match ← f.args.tail.mapM (writeConcatArg w f) with
  | [] => .error (.internal "concat_ws has no arguments")
  | x :: xs =>
    requireArgType w LogicalType.isString f 0
      (.notSupported "unsupported concat_ws separator")
    let separator ← writeArg f.args 0
    let part := fun x : Operand True => orEmpty (binary .concat separator x)
    .ok (call Fn.substr [joined .concat (part x) (xs.map part),
      binary .add (call (fn "length") [separator]) (nat 1)])

/-! ### Functions of any type -/

/-- `nullif`. -/
def writeNullif (f : FunctionNode w) : Except Refusal Atom := do
  let first ← arg f.args 0
  let second ← arg f.args 1
  match ← writeComparisonOperands w [first, second] with
  | [x, y] =>
    let result ← first.operand
    .ok (case_ none (binary .eq x y, null) [] (some result))
  | _ => .error (.internal "index out of bounds")

/-- `greatest` and `least`. SQLite's functions yield `NULL` if any argument is `NULL`, so that every
argument is replaced with any other one when it is `NULL`. One argument is written as it is. -/
def writeExtremum (name : Name) (f : FunctionNode w)
    (hname : oneOf ["greatest", "least"] f.name = true) :
    Except Refusal (Operand (w.Weak f.expr)) := do
  let type ← commonType w f.args
  require (type.representation ≠ .other)
    (.notSupported ("unsupported " ++ text f.name ++ " argument"))
  match h : f.args with
  | [o] =>
    let x ← writeAs w o type
    .ok (x.imp fun hstring => by
      rw [Writer.Weak, FunctionNode.expr, h]
      exact w.inferType_extremum _ _ _ _ _ _ hname hstring)
  | args =>
    let xs ← args.mapM (writeAsPhrase w type)
    .ok (call name (xs.zipIdx.map fun entry =>
      (call Fn.coalesce (entry.1 :: xs.eraseIdx entry.2)).phrase))

/-- `sign`. -/
def signForm (x : Operand True) : Atom :=
  case_ none (binary .gt x (nat 0), nat 1)
    [(binary .lt x (nat 0), integer (-1)), (binary .eq x (nat 0), nat 0)] none

/-- `unicode` and `ascii`, which differ for an empty string. -/
def unicodeForm (empty : ℤ) (x : Operand True) : Atom :=
  case_ none (binary .eq x (literal ""), integer empty) [] (some (call (fn "unicode") [x]))

/-- `abs` and `sign`. -/
def writeNumber (form : Operand True → Atom) (f : FunctionNode w) : Except Refusal Atom := do
  requireArgType w LogicalType.isNumeric f 0
    (.notSupported ("unsupported " ++ text f.name ++ " argument"))
  let x ← writeArg f.args 0
  .ok (form x)

/-- `regexp_matches`, `regexp_full_match` and `regexp_replace`, with constant options. -/
def writeRegexp (name : Name) (optionsIndex : ℕ) (f : FunctionNode w) :
    Except Refusal Atom := do
  require (optionsIndex ≤ f.args.length && f.args.length ≤ optionsIndex + 1)
    (unsupportedArguments f)
  requireTypes w LogicalType.isString (f.args.take optionsIndex) (argumentType f)
  match f.args[optionsIndex]?.map fun o => constantString w o.expr with
  | some none => .error (.notSupported "non-constant regular expression options")
  | options =>
    requireExtensionFunctions w (text f.name)
    let xs ← (f.args.take optionsIndex).mapM (·.phrase)
    let options ← writeConstant w (.varchar ((options.getD none).getD []))
    .ok (call name (xs ++ [options.phrase]))

/-- `typeof`. The argument is still referenced if it contains an aggregate. -/
def writeTypeof (f : FunctionNode w) : Except Refusal Atom := do
  let o ← arg f.args 0
  let type ← requireType w o.expr
  let typeName ← writeConstant w (.varchar (w.typeString type))
  if containsAggregate o.expr then
    let x ← o.operand
    .ok (case_ none (binary .is_ x null, typeName) [] (some typeName))
  else .ok typeName

/-- The group and the options of `regexp_extract`. -/
def regexpGroup (f : FunctionNode w) : Except Refusal (ℤ × Text) := do
  let groupAndOptions ← (match f.args[2]? with
    | none => .ok (0, [])
    | some o =>
      match tryGetConstantValue w o.expr with
      | none | some (.null _) => .error (.notSupported "non-constant regexp_extract group")
      | some _ =>
        match if f.args.length = 3 then constantString w o.expr else none with
        | some options => .ok (0, options)
        | none =>
          match (tryGetIntegerLiteral w o.expr).filter fun n => 0 ≤ n && n ≤ 9 with
          | some group => .ok (group, [])
          -- DuckDB raises an error, or returns a STRUCT for a list of group names
          | none => .error (.notSupported "unsupported regexp_extract group"))
  match f.args[3]?.map fun o => constantString w o.expr with
  | none => .ok groupAndOptions
  | some (some options) => .ok (groupAndOptions.1, options)
  | some none => .error (.notSupported "non-constant regular expression options")

/-- `regexp_extract`. -/
def writeRegexpExtract (f : FunctionNode w) : Except Refusal Atom := do
  require (2 ≤ f.args.length && f.args.length ≤ 4) (unsupportedArguments f)
  requireTypes w LogicalType.isString (f.args.take 2) (unsupportedArguments f)
  let groupAndOptions ← regexpGroup w f
  requireExtensionFunctions w (text f.name)
  let x ← writeArg f.args 0
  let y ← writeArg f.args 1
  let options ← writeConstant w (.varchar groupAndOptions.2)
  .ok (call (duckdb "regexp_extract") [x, y, integer groupAndOptions.1, options])

/-- `hex`. SQLite's `hex` of `NULL` is an empty string. -/
def writeHex (f : FunctionNode w) : Except Refusal Atom := do
  requireArgType w isStringOrBlob f 0 (argumentType f)
  let x ← writeArg f.args 0
  .ok (case_ none (binary .is_ x null, null) [] (some (call (fn "hex") [x])))

/-! ### Functions of numbers -/

/-- A function and the name that it has in the extension. -/
def lookup (table : List (String × Name)) (name : Text) : Option Name :=
  (table.find? fun entry => entry.1.toList = name).map (·.2)

def unaryFunctions : List (String × Name) :=
  [("sqrt", duckdb "sqrt"), ("cbrt", duckdb "cbrt"), ("ln", duckdb "ln"),
    ("log10", duckdb "log10"), ("log2", duckdb "log2"), ("exp", duckdb "exp"),
    ("sin", duckdb "sin"), ("cos", duckdb "cos"), ("tan", duckdb "tan"), ("cot", duckdb "cot"),
    ("asin", duckdb "asin"), ("acos", duckdb "acos"), ("atan", duckdb "atan"),
    ("sinh", duckdb "sinh"), ("cosh", duckdb "cosh"), ("tanh", duckdb "tanh"),
    ("asinh", duckdb "asinh"), ("acosh", duckdb "acosh"), ("atanh", duckdb "atanh"),
    ("degrees", duckdb "degrees"), ("radians", duckdb "radians"), ("ceil", duckdb "ceil"),
    ("ceiling", duckdb "ceil"), ("floor", duckdb "floor"), ("trunc", duckdb "trunc"),
    ("even", duckdb "even")]

/-- `isnan`, `isinf` and `isfinite`. SQLite has no `NaN`, and infinity is the only value that is not
finite. -/
def checkForm (name : Text) (x : Operand True) : Atom :=
  let magnitude := call (fn "abs") [x]
  if oneOf ["isnan"] name then case_ none (binary .is_ x null, null) [] (some (nat 0))
  else if oneOf ["isinf"] name then paren (binary .eq magnitude (number infinity))
  else paren (binary .lt magnitude (number infinity))

/-- An expression that is a number. -/
abbrev Number (w : Writer) : Type := {o : Node w // (w.inferType o.expr).isNumeric = true}

/-- The arguments of a function, which must be numbers. -/
def requireNumbers (f : FunctionNode w) : Except Refusal (List (Number w)) :=
  f.args.mapM fun o => do
    let ⟨type, htype⟩ ← knownType w o.expr
    if h : type.isNumeric = true then .ok ⟨o, Node.isNumeric_of_known htype h⟩
    else .error (argumentType f)

variable {w} in
def writeNumberArg (args : List (Number w)) (i : ℕ) : Except Refusal Atom :=
  match args[i]? with
  | some o => o.1.number o.2
  | none => .error (.internal "index out of bounds")

/-- `round`, `round_even`, `roundbankers`, and `trunc` with a precision. -/
def writeRound (f : FunctionNode w) (args : List (Number w)) : Except Refusal Atom := do
  let precision ← (match f.args with
    | [_, second] =>
      match tryGetIntegerLiteral w second.expr with
      | some precision => .ok precision
      | none => .error (.notSupported ("non-constant " ++ text f.name ++ " precision"))
    | _ => .ok 0)
  let x ← writeNumberArg args 0
  let first ← arg f.args 0
  let type ← requireType w first.expr
  -- rounding integers to a non-negative precision does not change them
  if type.isInteger && 0 ≤ precision then .ok x
  else
    requireExtensionFunctions w (text f.name)
    let halfEven := nat (if oneOf ["round"] f.name then 0 else 1)
    if oneOf ["trunc"] f.name then
      require (!type.isInteger) (.notSupported "unsupported trunc of an integer")
      .ok (call (duckdb "trunc_precision") [x, integer precision])
    else
      .ok (call (if type.isInteger then duckdb "round_integer" else duckdb "round")
        [x, integer precision, halfEven])

/-- `TryWriteMathFunction`. -/
def writeMath (f : FunctionNode w) : Except Refusal Atom := do
  let args ← requireNumbers w f
  if oneOf ["isnan", "isinf", "isfinite"] f.name then
    let x ← writeArg f.args 0
    .ok (checkForm f.name x)
  else
    -- DuckDB raises errors where the functions yield NaN / inf
    require w.ieeeFloatingPointOps (.notSupported "non-default floating point semantics")
    let resultType ← requireType w f.expr
    if oneOf ["round", "round_even", "roundbankers"] f.name ||
        (oneOf ["trunc"] f.name && f.args.length = 2) then
      writeRound w f args
    -- e.g. trunc of an integer
    else if resultType.isInteger && f.args.length = 1 then writeNumberArg args 0
    else
      require (resultType = .double)
        (.notSupported ("unsupported result type for " ++ text f.name))
      requireExtensionFunctions w (text f.name)
      let x ← writeArg f.args 0
      if oneOf ["log"] f.name then
        if f.args.length = 1 then .ok (call (duckdb "log10") [x])
        else
          let y ← writeArg f.args 1
          .ok (call (duckdb "log") [x, y])
      else
        match lookup unaryFunctions f.name with
        | some name => .ok (call name [x])
        | none =>
          let y ← writeArg f.args 1
          .ok (call (if oneOf ["atan2"] f.name then duckdb "atan2" else duckdb "pow") [x, y])

/-! ### Functions of dates -/

/-- `SQLiteNormalizeDatePart`. -/
def dateParts : List (String × String) :=
  [("year", "year"), ("years", "year"), ("y", "year"), ("yr", "year"), ("yrs", "year"),
    ("month", "month"), ("months", "month"), ("mon", "month"), ("mons", "month"), ("day", "day"),
    ("days", "day"), ("d", "day"), ("dayofmonth", "day"), ("hour", "hour"), ("hours", "hour"),
    ("h", "hour"), ("hr", "hour"), ("hrs", "hour"), ("minute", "minute"), ("minutes", "minute"),
    ("m", "minute"), ("min", "minute"), ("mins", "minute"), ("second", "second"),
    ("seconds", "second"), ("s", "second"), ("sec", "second"), ("secs", "second"),
    ("millisecond", "millisecond"), ("milliseconds", "millisecond"), ("ms", "millisecond"),
    ("msec", "millisecond"), ("msecs", "millisecond"), ("microsecond", "microsecond"),
    ("microseconds", "microsecond"), ("us", "microsecond"), ("usec", "microsecond"),
    ("usecs", "microsecond"), ("quarter", "quarter"), ("quarters", "quarter"), ("week", "week"),
    ("weeks", "week"), ("w", "week"), ("weekofyear", "week"), ("dow", "dow"), ("dayofweek", "dow"),
    ("weekday", "dow"), ("isodow", "isodow"), ("doy", "doy"), ("dayofyear", "doy"),
    ("isoyear", "isoyear"), ("yearweek", "yearweek"), ("decade", "decade"), ("decades", "decade"),
    ("century", "century"), ("centuries", "century"), ("millennium", "millennium"),
    ("millennia", "millennium"), ("millenniums", "millennium"), ("era", "era"), ("epoch", "epoch"),
    ("julian", "julian")]

/-- The part of a date that a function of this name yields. -/
def partFunctions : List (String × String) :=
  [("year", "year"), ("month", "month"), ("day", "day"), ("dayofmonth", "day"), ("hour", "hour"),
    ("minute", "minute"), ("second", "second"), ("millisecond", "millisecond"),
    ("microsecond", "microsecond"), ("quarter", "quarter"), ("dayofweek", "dow"),
    ("isodow", "isodow"), ("dayofyear", "doy"), ("week", "week"), ("weekofyear", "week"),
    ("isoyear", "isoyear"), ("yearweek", "yearweek"), ("decade", "decade"), ("century", "century"),
    ("millennium", "millennium"), ("era", "era"), ("epoch", "epoch"), ("epoch_ms", "epoch_ms"),
    ("epoch_us", "epoch_us"), ("epoch_ns", "epoch_ns"), ("julian", "julian"),
    ("dayname", "dayname"), ("monthname", "monthname")]

def findPart (table : List (String × String)) (name : Text) : Option String :=
  (table.find? fun entry => entry.1.toList = name).map (·.2)

/-- A part that is a constant argument. -/
def literalPart (f : FunctionNode w) (i : ℕ) : Except Refusal String := do
  let o ← arg f.args i
  match constantString w o.expr with
  | none => .error (.notSupported "non-constant date part")
  | some s =>
    match findPart dateParts (lower s) with
    | none => .error (.notSupported ("unsupported date part " ++ text s))
    | some part => .ok part

/-- `year(x)` and the others, and `date_part`. -/
def writeDatePart (f : FunctionNode w) : Except Refusal Atom := do
  let part ← (match findPart partFunctions f.name with
    | some part => do
      require (f.args.length = 1) (unsupportedArguments f)
      .ok (part, 0)
    | none => do
      require (f.args.length = 2) (unsupportedArguments f)
      let part ← literalPart w f 0
      .ok (part, 1))
  -- e.g. epoch_ms(BIGINT) converts milliseconds to a timestamp
  requireArgType w LogicalType.isTimestamp f part.2 (argumentType f)
  requireExtensionFunctions w (text f.name)
  let x ← writeArg f.args part.2
  .ok (call (duckdb "date_part") [literal part.1, x])

/-- `date_trunc`. -/
def writeDateTrunc (f : FunctionNode w) : Except Refusal Atom := do
  require (f.args.length = 2) (unsupportedArguments f)
  let part ← literalPart w f 0
  require (["millennium", "century", "decade", "year", "quarter", "month", "week", "isoyear",
    "day", "hour", "minute", "second", "millisecond", "microsecond"].contains part)
    (.notSupported ("unsupported date_trunc part " ++ part))
  requireArgType w LogicalType.isTimestamp f 1 (argumentType f)
  requireExtensionFunctions w (text f.name)
  let x ← writeArg f.args 1
  .ok (call (duckdb "date_trunc") [literal part, x])

/-- `date_diff`. -/
def writeDateDiff (f : FunctionNode w) : Except Refusal Atom := do
  require (f.args.length = 3) (unsupportedArguments f)
  let part ← literalPart w f 0
  require (["year", "month", "day", "decade", "century", "millennium", "quarter", "week",
    "isoyear", "hour", "minute", "second", "millisecond", "microsecond"].contains part)
    (.notSupported ("unsupported date_diff part " ++ part))
  requireArgType w LogicalType.isTimestamp f 1 (argumentType f)
  requireArgType w LogicalType.isTimestamp f 2 (argumentType f)
  requireExtensionFunctions w (text f.name)
  let x ← writeArg f.args 1
  let y ← writeArg f.args 2
  .ok (call (duckdb "date_diff") [literal part, x, y])

/-- `last_day`. The first day of the next month of December 9999 cannot be represented by SQLite. -/
def writeLastDay (f : FunctionNode w) : Except Refusal Atom := do
  requireArgType w LogicalType.isTimestamp f 0 (argumentType f)
  let x ← writeArg f.args 0
  let strftime := fun s => call (fn "strftime") [literal s, x]
  .ok (case_ none (binary .eq (strftime "%m") (literal "12"), strftime "%Y-12-31") []
    (some (call Fn.date
      [x, literal "start of month", literal "+1 month", literal "-1 day"])))

/-- `make_date`. -/
def writeMakeDate (f : FunctionNode w) : Except Refusal Atom := do
  require (f.args.length = 3) (unsupportedArguments f)
  requireTypes w LogicalType.isInteger f.args (argumentType f)
  requireExtensionFunctions w (text f.name)
  let xs ← f.args.mapM (·.phrase)
  .ok (call (duckdb "make_date") xs)

/-- `strftime`, with a constant format. -/
def writeStrftime (f : FunctionNode w) : Except Refusal Atom := do
  match f.args with
  | [_, second] =>
    match constantString w second.expr with
    | none => .error (unsupportedArguments f)
    | some format =>
      requireArgType w LogicalType.isTimestamp f 0 (argumentType f)
      requireExtensionFunctions w (text f.name)
      let x ← writeArg f.args 0
      let format ← writeConstant w (.varchar format)
      .ok (call (duckdb "strftime") [x, format])
  | _ => .error (unsupportedArguments f)

/-- `date_add`. -/
def writeDateAdd (f : FunctionNode w) : Except Refusal Atom :=
  match f.args with
  | [value, interval] => writeIntervalArithmetic w value interval false
  | _ => .error (unsupportedArguments f)

/-! ### All functions -/

/-- Names of functions, and how a call of one of them is written. -/
structure Row (w : Writer) where
  names : List String
  write : (f : FunctionNode w) → oneOf names f.name = true →
    Except Refusal (Operand (w.Weak f.expr))

/-- Functions whose calls are written as atoms. -/
abbrev Rows (w : Writer) := List (List String × (FunctionNode w → Except Refusal Atom))

variable {w} in
def Row.atomic (row : List String × (FunctionNode w → Except Refusal Atom)) : Row w :=
  ⟨row.1, fun f _ => do
    let x ← row.2 f
    .ok x⟩

theorem oneOf_mono {names names' : List String} {name : Text} (hsub : ∀ s ∈ names, s ∈ names')
    (hname : oneOf names name = true) : oneOf names' name = true := by
  obtain ⟨s, hs, heq⟩ := List.any_eq_true.mp hname
  exact List.any_eq_true.mpr ⟨s, hsub s hs, heq⟩

def arithmeticOperators : List String :=
  ["+", "-", "*", "/", "//", "%", "||", "&", "|", "xor", "<<", ">>", "~"]

def operators : Rows w :=
  [(arithmeticOperators, writeArithmetic w),
    (["~~", "!~~", "~~*", "!~~*", "~~~", "glob", "like_escape", "not_like_escape", "ilike_escape",
      "not_ilike_escape"], writeLike w)]

def stringFunctions : Rows w :=
  [(["length", "len", "char_length", "character_length"],
      writeFirst w LogicalType.isString fun x => call (fn "length") [x]),
    (["strlen", "octet_length"], writeStrlen w),
    (["lower", "lcase"], writeCharacters w (duckdb "lower")),
    (["upper", "ucase"], writeCharacters w (duckdb "upper")),
    (["trim"], writeSame w (fn "trim")),
    (["ltrim"], writeSame w (fn "ltrim")),
    (["rtrim"], writeSame w (fn "rtrim")),
    (["replace"], writeSame w (fn "replace")),
    (["instr", "strpos", "position"], writeInstr w id),
    (["contains"], writeInstr w fun x => paren (binary .gt x (nat 0))),
    (["starts_with", "prefix", "^@"], writeAffix w true),
    (["ends_with", "suffix"], writeAffix w false),
    (["substring", "substr"], writeSubstring w),
    (["left"], writeSide w true),
    (["right"], writeSide w false),
    (["lpad"], writePad w (duckdb "lpad")),
    (["rpad"], writePad w (duckdb "rpad")),
    (["reverse"], writeCharacters w (duckdb "reverse")),
    (["repeat"], writeRepeat w),
    (["concat"], writeConcat w),
    (["concat_ws"], writeConcatWs w)]

def valueFunctions : List (Row w) :=
  [.atomic (["coalesce", "ifnull"], fun f => writeCoalesce w f.args),
    .atomic (["nullif"], writeNullif w),
    ⟨["greatest"], fun f h => writeExtremum w Fn.max f (oneOf_mono (by simp) h)⟩,
    ⟨["least"], fun f h => writeExtremum w Fn.min f (oneOf_mono (by simp) h)⟩,
    .atomic (["abs"], writeNumber w fun x => call (fn "abs") [x]),
    .atomic (["sign"], writeNumber w signForm),
    .atomic (["unicode"], writeFirst w LogicalType.isString (unicodeForm (-1))),
    .atomic (["ascii"], writeFirst w LogicalType.isString (unicodeForm 0)),
    .atomic (["chr"], writeFirst w isIntegerOrNull fun x => call (fn "char") [x])]

def numberAndDateFunctions : Rows w :=
  [(["sqrt", "cbrt", "ln", "log10", "log2", "exp", "sin", "cos", "tan", "cot", "asin", "acos",
      "atan", "sinh", "cosh", "tanh", "asinh", "acosh", "atanh", "degrees", "radians", "ceil",
      "ceiling", "floor", "trunc", "even", "pow", "power", "^", "**", "atan2", "round", "round_even",
      "roundbankers", "log", "isnan", "isinf", "isfinite"], writeMath w),
    ("date_part" :: "datepart" :: partFunctions.map (·.1), writeDatePart w),
    (["date_trunc", "datetrunc"], writeDateTrunc w),
    (["date_diff", "datediff"], writeDateDiff w),
    (["last_day"], writeLastDay w),
    (["make_date"], writeMakeDate w),
    (["strftime"], writeStrftime w),
    (["date_add"], writeDateAdd w)]

def remainingFunctions : Rows w :=
  [(["regexp_matches"], writeRegexp w (duckdb "regexp_matches") 2),
    (["regexp_full_match"], writeRegexp w (duckdb "regexp_full_match") 2),
    (["regexp_replace"], writeRegexp w (duckdb "regexp_replace") 3),
    (["typeof"], writeTypeof w),
    (["encode"], writeFirst w LogicalType.isString fun x => castTo x Fn.blob),
    (["regexp_extract"], writeRegexpExtract w),
    (["hex", "to_hex"], writeHex w),
    (["bit_length"], writeFirst w LogicalType.isString fun x =>
      paren (binary .mul (call (fn "length") [castTo x Fn.blob]) (nat 8))),
    (["to_base64", "base64"], writeExtension w (· = .blob) (duckdb "to_base64")),
    (["from_base64"], writeExtension w LogicalType.isString (duckdb "from_base64")),
    (["md5"], writeExtension w isStringOrBlob (duckdb "md5")),
    (["sha256"], writeExtension w isStringOrBlob (duckdb "sha256"))]

/-- `TryWriteScalarFunction`: the first row that has the name of a call says how it is written. -/
def scalarFunctions : List (Row w) :=
  (operators w ++ stringFunctions w).map Row.atomic ++ valueFunctions w ++
    (numberAndDateFunctions w ++ remainingFunctions w).map Row.atomic

end Definitions

end SqliteScanner.Expressions
