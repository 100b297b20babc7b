import SqliteScanner.Expressions.Syntax

/-!
# Constants, columns and conversions

How the writer writes constants and columns, and how it converts what has been written to the type that
DuckDB converts it to.

Nearly all of this is a call, a cast, a token, or in parentheses. The exception is a string column of the
target of a DML statement, which is read with `COLLATE BINARY`. It stays without parentheses where a
conversion has nothing to do, so an operand is either atomic, or a `COLLATE` of a string. A `COLLATE`
binds more strongly than any operator between two operands, but not as strongly as a sign; and the
operand of a sign is a number. So what is written carries a proof that it is an operand, and that it is
atomic unless the expression may be a string (`Writer.Weak`).

## Main definitions

* `Node` — an expression and what is written for it
* `writeConstant`, `writeColumnRef`, `writeCast`, `writeAs`, `commonType` — the source's functions
-/

namespace SqliteScanner.Expressions

open Lexing Precedence Sql

/-! ### What is written -/

/-- Only a string, or an expression whose type is not known, can be written as a `COLLATE`. -/
def Writer.Weak (w : Writer) (expr : Expr) : Prop := w.inferType expr ∈ [.varchar, .invalid]

/-- An expression, and what is written for it. -/
structure Node (w : Writer) where
  expr : Expr
  written : Except Refusal (Operand (w.Weak expr))

section Node

variable {w : Writer}

theorem eq_varchar_of_weak {expr : Expr} {type : LogicalType}
    (h : w.inferType expr = type ∧ type ≠ .invalid) (hweak : w.Weak expr) : type = .varchar := by
  rw [Writer.Weak, h.1, List.mem_pair] at hweak
  exact hweak.resolve_right h.2

theorem not_weak_of_isNumeric {expr : Expr} (h : (w.inferType expr).isNumeric = true) :
    ¬w.Weak expr := by
  intro hweak
  rcases List.mem_pair.mp hweak with hstring | hinvalid
  · rw [hstring] at h
    cases h
  · rw [hinvalid] at h
    cases h

theorem Node.isNumeric_of_known {o : Node w} {type : LogicalType}
    (htype : w.inferType o.expr = type ∧ type ≠ .invalid) (h : type.isNumeric = true) :
    (w.inferType o.expr).isNumeric = true := by
  rw [htype.1]
  exact h

theorem isNumeric_of_isInteger {type : LogicalType} (h : type.isInteger = true) :
    type.isNumeric = true := by
  rw [LogicalType.isNumeric, h, Bool.true_or]

def Node.operand (o : Node w) : Except Refusal (Operand True) := do
  let x ← o.written
  .ok (x.imp fun _ => trivial)

def Node.phrase (o : Node w) : Except Refusal Phrase := do
  let x ← o.written
  .ok x

/-- A number is written as an atom. -/
def Node.number (o : Node w) (h : (w.inferType o.expr).isNumeric = true) : Except Refusal Atom := do
  let x ← o.written
  .ok (x.imp (not_weak_of_isNumeric h))

end Node

/-! ### Names and numbers -/

/-- The name of a function or a type of SQLite. -/
def fn (s : String) (h : IsWord s.toList := by decide +kernel) : Name := ⟨s.toList, h⟩

theorem keyword?_duckdb (s : Text) : keyword? ("duckdb_".toList ++ s) = none := by
  rw [keyword?, List.find?_eq_none]
  intro k _ htext
  have hmem : '_' ∈ k.text := by
    rw [← of_decide_eq_true htext]
    exact List.mem_map.mpr ⟨'_', List.mem_append_left _ (by decide), by decide⟩
  revert hmem
  cases k <;> decide

theorem isWord_duckdb {s : Text} (h : s.all isPart = true) : IsWord ("duckdb_".toList ++ s) := by
  refine ⟨⟨'d', by simp, by decide⟩, ?_, keyword?_duckdb s⟩
  intro c hc
  rcases List.mem_append.mp hc with hc | hc
  · have hall : "duckdb_".toList.all isPart = true := by decide
    exact List.all_eq_true.mp hall c hc
  · exact List.all_eq_true.mp h c hc

/-- The name of a function of the extension. -/
def duckdb (s : String) (h : s.toList.all isPart = true := by decide) : Name :=
  ⟨"duckdb_".toList ++ s.toList, isWord_duckdb h⟩

namespace Fn

def blob : Name := fn "BLOB"

def double : Name := fn "DOUBLE"

def substr : Name := fn "substr"

def coalesce : Name := fn "COALESCE"

def date : Name := fn "date"

def max : Name := fn "max"

def min : Name := fn "min"

end Fn

/-- The functions that convert their first argument. -/
def conversions : List Name :=
  [Fn.substr, duckdb "date", duckdb "timestamp", duckdb "cast", duckdb "try_cast"]

/-- A `CASE` is written in parentheses. -/
def case_ (operand : Option Phrase) (first : Phrase × Phrase) (rest : List (Phrase × Phrase))
    (otherwise : Option Phrase) : Atom :=
  paren (caseWhen operand first rest otherwise)

def literal (s : String) : Atom := str s.toList

def natural (n : ℕ) : Numeral where
  whole := Numerals.decimal n
  fraction := none
  exponent := none
  whole_ne := Numerals.decimal_ne_nil n
  whole_digits := fun _ hc => Numerals.isDigit_of_mem_decimal hc
  fraction_digits := by simp
  exponent_ne := by simp
  exponent_digits := by simp

def nat (n : ℕ) : Atom := number (natural n)

/-- `to_string` of an integer. -/
def integer (n : ℤ) : Operand True := if n < 0 then minus (nat n.natAbs) else nat n.natAbs

/-! ### Constants -/

/-- A positive exponent is applied to the digits as an integer. -/
def staysExact : ℕ → ℕ → Bool
  | 0, _ => true
  | n + 1, digits => digits * 10 < 2 ^ 53 && staysExact n (digits * 10)

/-- Whether SQLite reads the text of a double exactly, as far as `SQLiteWriteDouble` can tell. -/
def Double.exact (d : Double) : Bool :=
  if d.isInf then true
  else if 2 ^ 53 ≤ d.digits || d.exponent < -22 || 22 < d.exponent then false
  else staysExact d.exponent.toNat d.digits

/-- A number without a decimal point or an exponent would be read as an integer. -/
def withPoint (n : Numeral) : Numeral where
  whole := n.whole
  fraction := if n.fraction.isNone && n.exponent.isNone then some ['0'] else n.fraction
  exponent := n.exponent
  whole_ne := n.whole_ne
  whole_digits := n.whole_digits
  fraction_digits := by
    intro f hf
    split at hf
    · obtain rfl := Option.some.inj hf
      intro c hc
      rw [List.mem_singleton.mp hc]
      decide
    · exact n.fraction_digits f hf
  exponent_ne := n.exponent_ne
  exponent_digits := n.exponent_digits

/-- `9e999` is beyond the range of doubles. -/
def infinity : Numeral where
  whole := ['9']
  fraction := none
  exponent := some (.none, ['9', '9', '9'])
  whole_ne := by simp
  whole_digits := by simp
  fraction_digits := by simp
  exponent_ne := by simp
  exponent_digits := by simp

/-- `0.5`. -/
def oneHalf : Numeral where
  whole := ['0']
  fraction := some ['5']
  exponent := none
  whole_ne := by simp
  whole_digits := by simp
  fraction_digits := by simp
  exponent_ne := by simp
  exponent_digits := by simp

/-- A numeral with a sign is written in parentheses. -/
def signed (negative : Bool) (n : Numeral) : Atom :=
  if negative then paren (minus (number n)) else number n

section Constants

variable (w : Writer)

/-- `WriteDouble`. A `NaN` is refused before by all but the quantiles, and DuckDB has no quantile of
that number; its text has no exponent, which the source looks for. -/
def writeDouble (d : Double) : Except Refusal Atom :=
  if d.isNaN then .error (.internal "no exponent")
  else if !d.exact && !w.statementMode then .ok (call (duckdb "double") [integer d.bits])
  else .ok (signed d.negative (if d.isInf then infinity else withPoint d.general))

def hexDigit (n : ℕ) : Char := "0123456789ABCDEF".toList.getD n '0'

def hexText (bytes : List UInt8) : Text :=
  bytes.flatMap fun byte => [hexDigit (byte.toNat / 16), hexDigit (byte.toNat % 16)]

theorem isHex_hexDigit (n : ℕ) : isHex (hexDigit n) = true := by
  rw [hexDigit, List.getD_eq_getElem?_getD]
  cases hget : "0123456789ABCDEF".toList[n]? with
  | none => decide
  | some c =>
    have hall : "0123456789ABCDEF".toList.all isHex = true := by decide
    exact List.all_eq_true.mp hall c (List.mem_of_getElem? hget)

theorem isHex_of_mem_hexText {bytes : List UInt8} : ∀ c ∈ hexText bytes, isHex c = true := by
  intro c hc
  obtain ⟨byte, -, hbyte⟩ := List.mem_flatMap.mp hc
  rw [List.mem_pair] at hbyte
  rcases hbyte with rfl | rfl <;> exact isHex_hexDigit _

/-- `WriteConstant`. -/
def writeConstant : Value → Except Refusal Atom
  | .null _ => .ok null
  | .boolean b => .ok (nat (if b then 1 else 0))
  | .integer type n =>
    if inInt64 n then .ok (signed (n < 0) (natural n.natAbs))
    else .error (.notSupported
      ("integer literal out of range " ++ text (w.valueString (.integer type n))))
  | .real type d =>
    if d.isNaN && !type.isDecimal then .error (.notSupported "SQLite has no NaN") else writeDouble w d
  | .varchar s =>
    if s.contains '\x00' then .error (.notSupported "string literal with a NUL byte")
    else .ok (str s)
  | .blob bytes => .ok (blob (hexText bytes) isHex_of_mem_hexText)
  | .temporal v =>
    match DateText.tryGetCanonicalText v with
    | some s => .ok (str s)
    | none =>
      .error (.notSupported ("unsupported " ++ text (w.typeString (Value.temporal v).type) ++
        " literal " ++ text (w.valueString (.temporal v))))
  | value =>
    .error (.notSupported ("unsupported literal of type " ++ text (w.typeString value.type)))

end Constants

/-! ### Columns -/

section Columns

variable (w : Writer)

/-- `SQLiteColumnRead`, or nothing if the stored value is read as it is. -/
def columnRead (column : TargetColumn) (x : Atom) :
    Except Refusal (Option (Operand (column.type = .varchar))) :=
  match column.type with
  | .bigint => .ok none
  | .double => .ok (if column.realAffinity then none else some (castTo x (fn "REAL")))
  | .date => .ok (some (call (duckdb "date") [x]))
  | .timestamp => .ok (some (call (duckdb "timestamp") [x]))
  | .blob => .ok (some (castTo x Fn.blob))
  | .varchar =>
    let isConverted := w.allVarchar || !column.textAffinity
    let result := if isConverted then castTo x (fn "TEXT") else x
    .ok (if !column.binaryCollation then some ((collate result (fn "BINARY")).imp fun _ => rfl)
      else if isConverted then some result else none)
  | type => .error (.notSupported ("unsupported column type " ++ text (w.typeString type)))

/-- `WriteColumnRef`. Only the last of the names that qualify a column is written. -/
def writeColumnRef (qualifiers : List Text) (name : Text) :
    Except Refusal (Operand (w.Weak (.columnRef qualifiers name))) :=
  let result := column (if w.unqualifiedColumns then none else qualifiers.getLast?) name
  match h : w.targetColumn qualifiers name with
  | none => .ok result
  | some column => do
    match ← columnRead w column result with
    | none => .ok result
    | some result =>
      let _ ← (if column.type.isTimestamp then
          requireExtensionFunctions w ("reading a " ++ text (w.typeString column.type) ++ " column")
        else .ok ())
      .ok (result.imp (w.inferType_column qualifiers name column h))

end Columns

/-! ### Conversions -/

section Conversions

variable (w : Writer) {p : Prop}

/-- What a conversion makes of an operand: a `COLLATE` stays one, unless a string is converted to
something else. -/
abbrev Converted (p : Prop) (source target : LogicalType) : Type :=
  Operand (p ∧ (source ≠ .varchar ∨ target = .varchar))

/-- An operand whose conversion has nothing to do. -/
def keep {source target : LogicalType} (x : Operand p) (h : source ≠ .varchar) :
    Converted p source target :=
  x.imp fun hx => ⟨hx, .inl h⟩

theorem ne_varchar_of_isIntegerSubtype {source target : LogicalType}
    (h : source.isIntegerSubtype target = .ok true) : source ≠ .varchar := by
  rintro rfl
  cases Except.ok.inj h

/-- The conversions of `WriteCast` that need no function of the extension. -/
def writeSimpleCast (x : Operand p) (source target : LogicalType) :
    Except Refusal (Option (Converted p source target)) :=
  match target with
  | .tinyint | .smallint | .integer | .bigint | .utinyint | .usmallint | .uinteger =>
    if h : source = .boolean then .ok (some (keep x (by rw [h]; decide)))
    else
      match h : source.isIntegerSubtype target with
      | .error refusal => .error refusal
      | .ok true => .ok (some (keep x (ne_varchar_of_isIntegerSubtype h)))
      | .ok false => .ok none
  | .boolean => .ok (if source.isInteger then some (paren (binary .ne x (nat 0))) else none)
  | .double =>
    .ok (if source.isInteger || source = .boolean then some (castTo x Fn.double)
      -- both are represented as REAL
      else if h : source = .float || source.isDecimal then
        some (keep x fun hstring => by rw [hstring] at h; cases h)
      else none)
  | .varchar =>
    .ok (if source.isInteger then some (castTo x (fn "TEXT"))
      else if source = .boolean then
        some (case_ (some x) (nat 1, literal "true") [(nat 0, literal "false")] none)
      -- dates and timestamps are represented as their text
      else if source.isTimestamp then some (x.imp fun hx => ⟨hx, .inr rfl⟩)
      else none)
  | .timestamp =>
    .ok (if source = .date then some (paren (binary .concat x (literal " 00:00:00"))) else none)
  | .date => .ok (if source = .timestamp then some (call Fn.substr [x, nat 1, nat 10]) else none)
  | _ => .ok none

/-- `WriteCast`, of what has been written for an expression of the source type. -/
def writeCast (x : Operand p) (source target : LogicalType) (tryCast : Bool) :
    Except Refusal (Converted p source target) :=
  if h : source = target then
    .ok (x.imp fun hx => ⟨hx, h ▸ (Decidable.em (source = .varchar)).symm⟩)
  else if source = .sqlNull then .ok null
  else do
    require target.hasRepresentation
      (.notSupported ("unsupported cast to " ++ text (w.typeString target)))
    match ← writeSimpleCast x source target with
    | some y => .ok y
    | none =>
      let refusal := .notSupported ("unsupported cast from " ++ text (w.typeString source))
      require (source.hasRepresentation || source = .float || source = .hugeint) refusal
      require (!(source = .float || source.isDecimal)) refusal
      requireExtensionFunctions w ("a cast from " ++ text (w.typeString source) ++ " to " ++
        text (w.typeString target))
      .ok (call (if tryCast then duckdb "try_cast" else duckdb "cast")
        [x, str (w.typeName source), str (w.typeName target)])

/-- `WriteCast`, of an expression. -/
def writeCastOf (o : Node w) (target : LogicalType) (tryCast : Bool) :
    Except Refusal (Operand (target = .varchar)) := do
  let ⟨source, hsource⟩ ← knownType w o.expr
  let x ← o.written
  let y ← writeCast w x source target tryCast
  .ok (y.imp fun hy => hy.2.resolve_left (not_not_intro (eq_varchar_of_weak hsource hy.1)))

/-- `WriteAs`. What a value that is not a string is converted to is atomic. -/
def writeAs (o : Node w) (target : LogicalType) :
    Except Refusal (Operand (w.inferType o.expr = .varchar)) :=
  match tryGetConstantValue w o.expr with
  | some value =>
    if value.isNull then .ok null
    else
      match w.tryCastAs value target with
      | some value => do
        let x ← writeConstant w value
        .ok x
      | none =>
        .error (.notSupported
          ("constant cannot be converted to " ++ text (w.typeString target)))
  | none => do
    let ⟨source, hsource⟩ ← knownType w o.expr
    let x ← o.written
    let x := x.imp fun hweak => hsource.1.trans (eq_varchar_of_weak hsource hweak)
    if source = target then .ok x
    else if ← (if source.representation = .integer && target.representation = .integer &&
        source ≠ .boolean then source.isIntegerSubtype target else .ok false) then .ok x
    else if source.representation = .real && target.representation = .real then .ok x
    else
      let y ← writeCast w x source target false
      .ok (y.imp And.left)

def isConstant : Expr → Bool
  | .constant _ => true
  | _ => false

/-- `CommonType`: the type DuckDB converts the operands of e.g. `COALESCE` to. -/
def commonType (operands : List (Node w)) : Except Refusal LogicalType := do
  let result ← operands.foldlM (fun result o => do
    let type ← requireType w o.expr
    -- a string literal is converted to the type of the other expressions
    let type := if isConstant o.expr && type = .varchar then .stringLiteral else type
    match w.tryGetMaxLogicalType result type with
    | some result => .ok result
    | none => .error (.notSupported ("no common type for " ++ text (w.exprString o.expr))))
    .sqlNull
  .ok (if result = .stringLiteral then .varchar else result)

end Conversions

end SqliteScanner.Expressions
