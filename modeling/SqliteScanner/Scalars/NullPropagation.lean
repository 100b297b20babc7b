import SqliteScanner.Patterns.Glob
import SqliteScanner.Scalars.Builtins

/-!
# Functions of `NULL`

Most scalar functions of DuckDB are `NULL` as soon as one of their arguments is. They are written in
terms of SQLite's functions and of the functions that the extension adds to SQLite. Those of the
extension look for `NULL`s first (`SQLiteHasNull`), but SQLite's functions have rules of their own:

* `zeroblob` and `char` read `NULL` as `0`;
* `hex` of `NULL` is an empty text;
* `replace` returns its first argument if the second one is empty, before it looks at the third one;
* `zeroblob`, `hex` and `GLOB` fail if an argument is too long, even if the other operand is `NULL`.

So `chr` is never `NULL`, and `repeat`, `replace`, `starts_with` and `ends_with` are `NULL` only for
some arguments with a `NULL`. `nullPropagation_iff` says for which.

What a function does with values that are not `NULL` is written out where it can be reached with a
`NULL` among the arguments, and is part of `Sqlite` otherwise.

## Main definitions

* `Value`, `Sqlite` — SQLite's values, and what is known about its functions.
* `written` — what is written for a function and its arguments, as SQLite evaluates it.
* `Propagates` — when a `NULL` among the arguments makes it `NULL`.

## Main results

* `nullPropagation_iff`
-/

namespace SqliteScanner.Scalars.NullPropagation

open Patterns

/-! ### SQLite's functions -/

section Sqlite

/-- A value of SQLite. `R` are the floating-point numbers; texts and blobs are their bytes. -/
inductive Value (R : Type) where
  | null
  | integer (n : ℤ)
  | real (x : R)
  | text (bytes : List ℕ)
  | blob (bytes : List ℕ)
  deriving Inhabited

inductive Error where
  | tooBig
  | patternTooComplex
  | other (message : String)
  deriving DecidableEq, Inhabited

/-- `SQLITE_MAX_LENGTH`. -/
def maxLength : ℕ := 1000000000

/-- `SQLITE_MAX_LIKE_PATTERN_LENGTH`. -/
def maxPatternLength : ℕ := 50000

/-- The functions that are added to SQLite. -/
inductive ExtensionFunction where
  | lower
  | upper
  | substring
  | left
  | right
  | lpad
  | rpad
  | reverse
  | regexpMatches
  | regexpFullMatch
  | regexpReplace
  | regexpExtract
  deriving DecidableEq

/-- The flags of `trimFunc`. -/
inductive Trim where
  | left
  | right
  | both
  deriving DecidableEq

/-- SQLite and the functions that are added to it: how values are converted and compared, and what
the functions compute once they found no `NULL`. -/
structure Sqlite (R : Type) where
  realText : R → List ℕ
  realInt : R → ℤ
  textInt : List ℕ → ℤ
  compare : Value R → Value R → Ordering
  patternCompare : List ℕ → List ℕ → Bool
  trim : Trim → List ℕ → Option (List ℕ) → Except Error (Value R)
  instr : Value R → Value R → Value R
  substr : Value R → ℤ → Option ℤ → Value R
  absReal : Value R → Value R
  extension : ExtensionFunction → List (Value R) → Except Error (Value R)
  deriving Inhabited

variable {R : Type} (s : Sqlite R)

def Value.isNull : Value R → Bool
  | .null => true
  | _ => false

/-- The condition of a `CASE`. -/
def Value.isTrue : Value R → Bool
  | .integer n => n ≠ 0
  | _ => false

/-- `sqlite3_value_text`, which is a null pointer for `NULL`. -/
def Sqlite.valueText : Value R → Option (List ℕ)
  | .null => none
  | .integer n => some ((toString n).toList.map Char.toNat)
  | .real x => some (s.realText x)
  | .text z => some z
  | .blob z => some z

/-- `sqlite3_value_int64`. -/
def Sqlite.valueInt64 : Value R → ℤ
  | .null => 0
  | .integer n => n
  | .real x => s.realInt x
  | .text z => s.textInt z
  | .blob z => s.textInt z

/-- `sqlite3_value_blob` and `sqlite3_value_bytes`. -/
def Sqlite.valueBytes (v : Value R) : List ℕ := (s.valueText v).getD []

/-- `lengthFunc`. -/
def Sqlite.lengthFunc : Value R → Value R
  | .null => .null
  | .text z => .integer (Scalars.lengthFunc z)
  | v => .integer (s.valueBytes v).length

/-- `CAST(v AS BLOB)`. -/
def Sqlite.castBlob (v : Value R) : Value R :=
  match s.valueText v with
  | none => .null
  | some z => .blob z

/-- `trimFunc` with one argument or with two. -/
def Sqlite.trimFunc (flags : Trim) (v : Value R) (charSet : Option (Value R)) :
    Except Error (Value R) :=
  match s.valueText v with
  | none => .ok .null
  | some z =>
    match charSet with
    | none => s.trim flags z none
    | some charSet =>
      match s.valueText charSet with
      | none => .ok .null
      | some zCharSet => s.trim flags z (some zCharSet)

/-- `instrFunc`. -/
def Sqlite.instrFunc (haystack needle : Value R) : Value R :=
  match haystack, needle with
  | .null, _ => .null
  | _, .null => .null
  | haystack, needle => s.instr haystack needle

/-- `substrFunc` with two arguments or with three. -/
def Sqlite.substrFunc (v position : Value R) (length : Option (Value R)) : Value R :=
  if position.isNull || length.any Value.isNull then .null
  else if v.isNull then .null
  else s.substr v (s.valueInt64 position) (length.map s.valueInt64)

/-- `absFunc`. -/
def Sqlite.absFunc : Value R → Except Error (Value R)
  | .null => .ok .null
  | .integer n =>
    if n = -9223372036854775808 then .error (.other "integer overflow") else .ok (.integer |n|)
  | v => .ok (s.absReal v)

/-- `unicodeFunc`. -/
def Sqlite.unicodeFunc (v : Value R) : Value R :=
  match s.valueText v with
  | none => .null
  | some z => if atEnd z then .null else .integer (utf8Read z).1

/-- `charFunc` for one argument. -/
def Sqlite.charFunc (v : Value R) : Value R :=
  let x := s.valueInt64 v
  let c := if x < 0 ∨ 0x10ffff < x then 0xfffd else x.toNat
  .text (if c < 0x80 then [c]
    else if c < 0x800 then [0xC0 + c / 64 % 32, 0x80 + c % 64]
    else if c < 0x10000 then [0xE0 + c / 4096 % 16, 0x80 + c / 64 % 64, 0x80 + c % 64]
    else [0xF0 + c / 262144 % 8, 0x80 + c / 4096 % 64, 0x80 + c / 64 % 64, 0x80 + c % 64])

/-- `zeroblobFunc`. -/
def Sqlite.zeroblobFunc (v : Value R) : Except Error (Value R) :=
  let n := (s.valueInt64 v).toNat
  if maxLength < n then .error .tooBig else .ok (.blob (List.replicate n 0))

/-- `hexdigits`. -/
def hexDigit (d : ℕ) : ℕ := if d < 10 then '0'.toNat + d else 'A'.toNat + (d - 10)

/-- `hexFunc`. -/
def Sqlite.hexFunc (v : Value R) : Except Error (Value R) :=
  let z := s.valueBytes v
  if maxLength < z.length * 2 + 1 then .error .tooBig
  else .ok (.text (z.flatMap fun c => [hexDigit (c / 16 % 16), hexDigit (c % 16)]))

/-- The loop of `replaceFunc`: the rest of the text, and the size that the output may have. -/
def replaceLoop (pattern replacement : List ℕ) : ℕ → List ℕ → ℕ → Except Error (List ℕ)
  | 0, str, _ => .ok str
  | _ + 1, [], _ => .ok []
  | fuel + 1, c :: str, out =>
    if (c :: str).take pattern.length ≠ pattern then
      (replaceLoop pattern replacement fuel str out).map (c :: ·)
    else
      -- The output grows only if the replacement is the longer one.
      let out := out + (replacement.length - pattern.length)
      if pattern.length < replacement.length ∧ maxLength < out - 1 then .error .tooBig
      else
        (replaceLoop pattern replacement fuel ((c :: str).drop pattern.length) out).map
          (replacement ++ ·)

/-- `replaceFunc`. Every turn of the loop takes a byte at least. -/
def Sqlite.replaceFunc (str pattern replacement : Value R) : Except Error (Value R) :=
  match s.valueText str with
  | none => .ok .null
  | some zStr =>
    match s.valueText pattern with
    | none => .ok .null
    | some zPattern =>
      if atEnd zPattern then .ok str
      else
        match s.valueText replacement with
        | none => .ok .null
        | some zRep =>
          if maxLength < zStr.length + 1 then .error .tooBig
          else (replaceLoop zPattern zRep zStr.length zStr (zStr.length + 1)).map .text

/-- `zPattern[0] == 0`. -/
def Sqlite.isEmptyPattern (pattern : Value R) : Bool := (s.valueText pattern).any atEnd

/-- `likeFunc` for `GLOB`. -/
def Sqlite.globFunc (v pattern : Value R) : Except Error (Value R) :=
  if maxPatternLength < (s.valueBytes pattern).length then .error .patternTooComplex
  else
    match s.valueText pattern, s.valueText v with
    | some zB, some zA => .ok (.integer (if s.patternCompare zB zA then 1 else 0))
    | _, _ => .ok .null

/-- A comparison of two values. -/
def Sqlite.comparison (test : Ordering → Bool) (v w : Value R) : Value R :=
  match v, w with
  | .null, _ => .null
  | _, .null => .null
  | v, w => .integer (if test (s.compare v w) then 1 else 0)

/-- `v = w`. -/
def Sqlite.equal : Value R → Value R → Value R := s.comparison (· == .eq)

/-- `v > w`. -/
def Sqlite.greater : Value R → Value R → Value R := s.comparison (· == .gt)

/-- `v < w`. -/
def Sqlite.less : Value R → Value R → Value R := s.comparison (· == .lt)

/-- `CASE WHEN condition THEN v ELSE w END`. -/
def caseWhen (condition v w : Value R) : Value R := if condition.isTrue then v else w

/-- `-v`, for an integer. -/
def negate : Value R → Value R
  | .integer n => .integer (-n)
  | v => v

/-- `SQLiteHasNull`. -/
def hasNull (args : List (Value R)) : Bool := args.any Value.isNull

/-- A function of the extension. -/
def Sqlite.extensionFunction (f : ExtensionFunction) (args : List (Value R)) :
    Except Error (Value R) :=
  if hasNull args then .ok .null else s.extension f args

end Sqlite

/-! ### What is written -/

section Written

/-- The types that are told apart. -/
inductive ArgumentType where
  | string
  | integer
  | double
  | blob
  | null
  | other
  deriving DecidableEq

/-- `SQLiteIsStringType`. -/
def ArgumentType.isString (type : ArgumentType) : Bool := type = .string || type = .null

def ArgumentType.isInteger (type : ArgumentType) : Bool := type = .integer || type = .null

/-- `SQLiteIsNumericType`. -/
def ArgumentType.isNumeric (type : ArgumentType) : Bool := type = .integer || type = .double

/-- An argument: its type, whether it is a constant, and the value that it has in SQLite. A column
of any type may have values of all kinds there. -/
structure Argument (R : Type) where
  type : ArgumentType
  isConstant : Bool
  value : Value R

variable {R : Type}

/-- A constant text. -/
def Argument.constantString (arg : Argument R) : Option (List ℕ) :=
  match arg.isConstant, arg.type, arg.value with
  | true, .string, .text z => some z
  | _, _, _ => none

/-- `TryGetIntegerLiteral`. -/
def Argument.integerLiteral (arg : Argument R) : Option ℤ :=
  match arg.isConstant, arg.type, arg.value with
  | true, .integer, .integer n =>
    if -9223372036854775808 ≤ n ∧ n ≤ 9223372036854775807 then some n else none
  | _, _, _ => none

inductive ScalarFunction where
  | length
  | strlen
  | lower
  | upper
  | trim
  | ltrim
  | rtrim
  | replace
  | instr
  | contains
  | startsWith
  | endsWith
  | substring
  | left
  | right
  | lpad
  | rpad
  | reverse
  | repeat
  | abs
  | sign
  | unicode
  | ascii
  | chr
  | regexpMatches
  | regexpFullMatch
  | regexpReplace
  | regexpExtract
  deriving DecidableEq

variable (s : Sqlite R)

/-- What is written for texts only. -/
def ofStrings (args : List (Argument R)) (result : Except Error (Value R)) :
    Option (Except Error (Value R)) :=
  if args.all (·.type.isString) then some result else none

/-- `starts_with`. -/
def writtenStartsWith (str affix : Argument R) : Except Error (Value R) :=
  match affix.constantString with
  | some constant => s.globFunc str.value (.text (startsWithGlob constant))
  | none =>
    .ok (s.equal (s.substrFunc str.value (.integer 1) (some (s.lengthFunc affix.value))) affix.value)

/-- `ends_with`. -/
def writtenEndsWith (str affix : Argument R) : Except Error (Value R) :=
  match affix.constantString with
  | some constant => s.globFunc str.value (.text (endsWithGlob constant))
  | none =>
    .ok (caseWhen (s.equal (s.lengthFunc affix.value) (.integer 0)) (s.equal str.value str.value)
      (s.equal (s.substrFunc str.value (negate (s.lengthFunc affix.value)) none) affix.value))

/-- `substring`. The value of a literal is that literal. -/
def writtenSubstring (str start : Argument R) (length : Option (Argument R)) :
    Option (Except Error (Value R)) :=
  if str.type.isString && start.type.isInteger && length.all (·.type.isInteger) then
    if start.integerLiteral.any (1 ≤ ·) && length.all (·.integerLiteral.any (0 ≤ ·)) then
      some (.ok (s.substrFunc str.value start.value (length.map Argument.value)))
    else
      some (s.extensionFunction .substring
        (str.value :: start.value :: (length.map Argument.value).toList))
  else none

/-- `left` and `right`. -/
def writtenLeftRight (left : Bool) (str count : Argument R) : Option (Except Error (Value R)) :=
  if str.type.isString && count.type.isInteger then
    let extension := s.extensionFunction (if left then .left else .right) [str.value, count.value]
    match count.integerLiteral with
    | some n =>
      some
        (if n < 0 then extension
          else if n = 0 then .ok (s.substrFunc str.value (.integer 1) (some (.integer 0)))
          else if left then .ok (s.substrFunc str.value (.integer 1) (some (.integer n)))
          else .ok (s.substrFunc str.value (.integer (-n)) none))
    | none => some extension
  else none

/-- `lpad` and `rpad`. -/
def writtenPad (f : ExtensionFunction) (str count padding : Argument R) :
    Option (Except Error (Value R)) :=
  if str.type.isString && count.type.isInteger && padding.type.isString then
    some (s.extensionFunction f [str.value, count.value, padding.value])
  else none

/-- `repeat`: the hexadecimal digits of `n` zero bytes are `n` times `00`. -/
def writtenRepeat (str count : Argument R) : Option (Except Error (Value R)) :=
  if str.type.isString && count.type.isInteger then
    some do
      let blob ← s.zeroblobFunc count.value
      let digits ← s.hexFunc blob
      s.replaceFunc digits (.text ['0'.toNat, '0'.toNat]) str.value
  else none

/-- `sign`. -/
def writtenSign (x : Value R) : Value R :=
  caseWhen (s.greater x (.integer 0)) (.integer 1)
    (caseWhen (s.less x (.integer 0)) (.integer (-1))
      (caseWhen (s.equal x (.integer 0)) (.integer 0) .null))

/-- `unicode` and `ascii`, with what they are for an empty text. -/
def writtenUnicode (empty : ℤ) (x : Value R) : Value R :=
  caseWhen (s.equal x (.text [])) (.integer empty) (s.unicodeFunc x)

/-- `regexp_matches`, `regexp_full_match` and `regexp_replace`: the argument at `optionsIndex` are
the options, which are a constant. -/
def writtenRegexp (f : ExtensionFunction) (optionsIndex : ℕ) (args : List (Argument R)) :
    Option (Except Error (Value R)) :=
  let texts := args.take optionsIndex
  if texts.length = optionsIndex ∧ texts.all (·.type.isString) then
    match args.drop optionsIndex with
    | [] => some (s.extensionFunction f (texts.map Argument.value ++ [.text []]))
    | [options] => options.constantString.map fun options =>
        s.extensionFunction f (texts.map Argument.value ++ [.text options])
    | _ => none
  else none

/-- The group and the options of `regexp_extract`, which are constants. If there is only one of
them, it may be either. -/
def extractOptions : List (Argument R) → Option (ℤ × List ℕ)
  | [] => some (0, [])
  | [group] =>
    match group.constantString with
    | some options => some (0, options)
    | none => group.integerLiteral.bind fun n => if 0 ≤ n ∧ n ≤ 9 then some (n, []) else none
  | [group, options] =>
    group.integerLiteral.bind fun n =>
      if 0 ≤ n ∧ n ≤ 9 then options.constantString.map fun options => (n, options) else none
  | _ => none

/-- `regexp_extract`. -/
def writtenExtract : List (Argument R) → Option (Except Error (Value R))
  | str :: pattern :: rest =>
    if str.type.isString && pattern.type.isString then
      (extractOptions rest).map fun (n, options) =>
        s.extensionFunction .regexpExtract [str.value, pattern.value, .integer n, .text options]
    else none
  | _ => none

/-- A constant with a zero byte is not written. -/
def Argument.hasNulByte (arg : Argument R) : Bool :=
  match arg.isConstant, arg.value with
  | true, .text z => z.contains 0
  | _, _ => false

section Arity

variable {α : Type}

def unary (g : Argument R → Option α) : List (Argument R) → Option α
  | [x] => g x
  | _ => none

def binary (g : Argument R → Argument R → Option α) : List (Argument R) → Option α
  | [x, y] => g x y
  | _ => none

def ternary (g : Argument R → Argument R → Argument R → Option α) : List (Argument R) → Option α
  | [x, y, z] => g x y z
  | _ => none

end Arity

/-- `trim`, `ltrim` and `rtrim`. -/
def writtenTrim (flags : Trim) : List (Argument R) → Option (Except Error (Value R))
  | [x] => ofStrings [x] (s.trimFunc flags x.value none)
  | [x, charSet] => ofStrings [x, charSet] (s.trimFunc flags x.value (some charSet.value))
  | _ => none

/-- What is written for a function and its arguments, if their number is right. -/
def writtenFunction : ScalarFunction → List (Argument R) → Option (Except Error (Value R))
  | .length => unary fun x => ofStrings [x] (.ok (s.lengthFunc x.value))
  | .strlen => unary fun x =>
    if x.type.isString || x.type = .blob then some (.ok (s.lengthFunc (s.castBlob x.value)))
    else none
  | .lower => unary fun x => ofStrings [x] (s.extensionFunction .lower [x.value])
  | .upper => unary fun x => ofStrings [x] (s.extensionFunction .upper [x.value])
  | .trim => writtenTrim s .both
  | .ltrim => writtenTrim s .left
  | .rtrim => writtenTrim s .right
  | .replace => ternary fun x y z => ofStrings [x, y, z] (s.replaceFunc x.value y.value z.value)
  | .instr => binary fun x y => ofStrings [x, y] (.ok (s.instrFunc x.value y.value))
  | .contains => binary fun x y =>
    ofStrings [x, y] (.ok (s.greater (s.instrFunc x.value y.value) (.integer 0)))
  | .startsWith => binary fun x y => ofStrings [x, y] (writtenStartsWith s x y)
  | .endsWith => binary fun x y => ofStrings [x, y] (writtenEndsWith s x y)
  | .substring => fun args =>
    match args with
    | [x, y] => writtenSubstring s x y none
    | [x, y, z] => writtenSubstring s x y (some z)
    | _ => none
  | .left => binary (writtenLeftRight s true)
  | .right => binary (writtenLeftRight s false)
  | .lpad => ternary (writtenPad s .lpad)
  | .rpad => ternary (writtenPad s .rpad)
  | .reverse => unary fun x => ofStrings [x] (s.extensionFunction .reverse [x.value])
  | .repeat => binary (writtenRepeat s)
  | .abs => unary fun x => if x.type.isNumeric then some (s.absFunc x.value) else none
  | .sign => unary fun x => if x.type.isNumeric then some (.ok (writtenSign s x.value)) else none
  | .unicode => unary fun x => ofStrings [x] (.ok (writtenUnicode s (-1) x.value))
  | .ascii => unary fun x => ofStrings [x] (.ok (writtenUnicode s 0 x.value))
  | .chr => unary fun x => if x.type.isInteger then some (.ok (s.charFunc x.value)) else none
  | .regexpMatches => writtenRegexp s .regexpMatches 2
  | .regexpFullMatch => writtenRegexp s .regexpFullMatch 2
  | .regexpReplace => writtenRegexp s .regexpReplace 3
  | .regexpExtract => writtenExtract s

/-- `TryWriteScalarFunction`, as SQLite evaluates what is written: none if the function is not
written for these arguments. -/
def written (f : ScalarFunction) (args : List (Argument R)) : Option (Except Error (Value R)) :=
  if args.any Argument.hasNulByte then none else writtenFunction s f args

end Written

/-! ### SQLite's functions of `NULL` -/

section Null

variable {R : Type} {s : Sqlite R}

theorem valueText_eq_none_iff {v : Value R} : s.valueText v = none ↔ v = .null := by
  cases v <;> simp [Sqlite.valueText]

theorem valueText_text (z : List ℕ) : s.valueText (.text z) = some z :=
  rfl

theorem valueText_blob (z : List ℕ) : s.valueText (.blob z) = some z :=
  rfl

theorem comparison_null_right (test : Ordering → Bool) (v : Value R) :
    s.comparison test v .null = .null := by
  cases v <;> rfl

theorem instrFunc_null_right (haystack : Value R) : s.instrFunc haystack .null = .null := by
  cases haystack <;> rfl

theorem instrFunc_of_null {haystack needle : Value R} (h : haystack = .null ∨ needle = .null) :
    s.instrFunc haystack needle = .null := by
  obtain rfl | rfl := h
  · rfl
  · exact instrFunc_null_right haystack

theorem substrFunc_null (position : Value R) (length : Option (Value R)) :
    s.substrFunc .null position length = .null := by
  rw [Sqlite.substrFunc]
  split_ifs
  · rfl
  · rfl
  · contradiction

theorem trimFunc_null (flags : Trim) (charSet : Option (Value R)) :
    s.trimFunc flags .null charSet = .ok .null :=
  rfl

theorem trimFunc_null_right (flags : Trim) (v : Value R) :
    s.trimFunc flags v (some .null) = .ok .null := by
  rw [Sqlite.trimFunc]
  cases s.valueText v <;> rfl

theorem extensionFunction_of_mem (f : ExtensionFunction) {args : List (Value R)}
    (h : .null ∈ args) : s.extensionFunction f args = .ok .null :=
  if_pos (List.any_eq_true.mpr ⟨.null, h, rfl⟩)

/-- `GLOB` fails for a long pattern, whatever it is compared with. -/
theorem globFunc_null (z : List ℕ) :
    s.globFunc .null (.text z) =
      if maxPatternLength < z.length then .error .patternTooComplex else .ok .null :=
  rfl

/-- `replace` looks at its replacement last. -/
theorem replaceFunc_null (str pattern : Value R) :
    s.replaceFunc str pattern .null = .ok (if s.isEmptyPattern pattern then str else .null) := by
  rw [Sqlite.replaceFunc, Sqlite.isEmptyPattern]
  cases hstr : s.valueText str with
  | none =>
    rw [valueText_eq_none_iff.mp hstr, ite_self]
  | some zStr =>
    cases hpattern : s.valueText pattern with
    | none => rfl
    | some zPattern =>
      rw [Option.any_some]
      dsimp only
      split_ifs <;> rfl

theorem replaceFunc_pattern_null (str replacement : Value R) :
    s.replaceFunc str .null replacement = .ok .null := by
  rw [Sqlite.replaceFunc]
  split <;> rfl

/-- Nothing is replaced in an empty text. -/
theorem replaceFunc_nil {pattern : List ℕ} {v : Value R} (hpattern : atEnd pattern = false)
    (hv : v ≠ .null) : s.replaceFunc (.text []) (.text pattern) v = .ok (.text []) := by
  have hne : s.valueText v ≠ none := mt valueText_eq_none_iff.mp hv
  obtain ⟨z, hz⟩ := Option.ne_none_iff_exists'.mp hne
  simp only [Sqlite.replaceFunc, valueText_text, hz, hpattern]
  rfl

/-- An error of `zeroblob` or `hex` is one of the whole, and otherwise the digits are a text. -/
theorem hex_zeroblob (v : Value R) :
    (s.zeroblobFunc v >>= s.hexFunc) =
      if 2 * (s.valueInt64 v).toNat < maxLength then
        .ok (.text (List.replicate (2 * (s.valueInt64 v).toNat) '0'.toNat))
      else .error .tooBig := by
  have hmax : maxLength = 1000000000 := rfl
  rw [Sqlite.zeroblobFunc]
  generalize (s.valueInt64 v).toNat = n
  by_cases hn : maxLength < n
  · rw [if_pos hn, if_neg (by omega)]
    rfl
  · rw [if_neg hn]
    change s.hexFunc (.blob (List.replicate n 0)) = _
    rw [Sqlite.hexFunc, Sqlite.valueBytes, valueText_blob, Option.getD_some, List.length_replicate]
    by_cases hsize : 2 * n < maxLength
    · have hdigits : [hexDigit (0 / 16 % 16), hexDigit (0 % 16)] = List.replicate 2 '0'.toNat := rfl
      rw [if_neg (by omega), if_pos hsize, List.flatMap_replicate, hdigits,
        List.flatten_replicate_replicate, Nat.mul_comm]
    · rw [if_pos (by omega), if_neg hsize]

/-! ### What is written for a `NULL` -/

variable {args : List (Argument R)}

theorem eq_of_ofStrings {r result : Except Error (Value R)}
    (h : ofStrings args r = some result) : result = r := by
  rw [ofStrings] at h
  split_ifs at h
  exact (Option.some.inj h).symm

variable {result : Except Error (Value R)}

theorem unary_null {g : Argument R → Option (Except Error (Value R))}
    (hg : ∀ x r, g x = some r → x.value = .null → r = .ok .null)
    (h : unary g args = some result) (hnull : ∃ x ∈ args, x.value = .null) : result = .ok .null := by
  match args, h with
  | [x], h =>
    refine hg x result h ?_
    simpa using hnull

theorem binary_null {g : Argument R → Argument R → Option (Except Error (Value R))}
    (hg : ∀ x y r, g x y = some r → x.value = .null ∨ y.value = .null → r = .ok .null)
    (h : binary g args = some result) (hnull : ∃ x ∈ args, x.value = .null) :
    result = .ok .null := by
  match args, h with
  | [x, y], h =>
    refine hg x y result h ?_
    simpa using hnull

theorem ternary_null {g : Argument R → Argument R → Argument R → Option (Except Error (Value R))}
    (hg : ∀ x y z r, g x y z = some r →
      x.value = .null ∨ y.value = .null ∨ z.value = .null → r = .ok .null)
    (h : ternary g args = some result) (hnull : ∃ x ∈ args, x.value = .null) :
    result = .ok .null := by
  match args, h with
  | [x, y, z], h =>
    refine hg x y z result h ?_
    simpa using hnull

theorem writtenTrim_null {flags : Trim}
    (h : writtenTrim s flags args = some result) (hnull : ∃ x ∈ args, x.value = .null) :
    result = .ok .null := by
  match args, h with
  | [x], h =>
    have hx : x.value = .null := by simpa using hnull
    rw [eq_of_ofStrings h, hx, trimFunc_null]
  | [x, charSet], h =>
    have hx : x.value = .null ∨ charSet.value = .null := by simpa using hnull
    rw [eq_of_ofStrings h]
    obtain hx | hx := hx
    · rw [hx, trimFunc_null]
    · rw [hx, trimFunc_null_right]

theorem value_ne_null_of_integerLiteral {arg : Argument R} {n : ℤ}
    (h : arg.integerLiteral = some n) : arg.value ≠ .null := by
  rw [Argument.integerLiteral] at h
  split at h
  · rename_i hvalue
    rw [hvalue]
    exact nofun
  · contradiction

theorem value_ne_null_of_constantString {arg : Argument R} {z : List ℕ}
    (h : arg.constantString = some z) : arg.value ≠ .null := by
  rw [Argument.constantString] at h
  split at h
  · rename_i hvalue
    rw [hvalue]
    exact nofun
  · contradiction

theorem writtenSubstring_null {str start : Argument R} {length : Option (Argument R)}
    (h : writtenSubstring s str start length = some result)
    (hnull : str.value = .null ∨ start.value = .null ∨ ∃ x ∈ length, x.value = .null) :
    result = .ok .null := by
  rw [writtenSubstring] at h
  split_ifs at h with htypes hliteral
  · rw [Bool.and_eq_true, Option.any_eq_true] at hliteral
    obtain ⟨⟨n, hn, -⟩, hlength⟩ := hliteral
    -- Literals are not `NULL`.
    have hx : str.value = .null := by
      obtain hx | hx | ⟨x, hx, hvalue⟩ := hnull
      · exact hx
      · exact absurd hx (value_ne_null_of_integerLiteral hn)
      · rw [Option.mem_def.mp hx, Option.all_some, Option.any_eq_true] at hlength
        obtain ⟨m, hm, -⟩ := hlength
        exact absurd hvalue (value_ne_null_of_integerLiteral hm)
    rw [← Option.some.inj h, hx, substrFunc_null]
  · rw [← Option.some.inj h]
    refine extensionFunction_of_mem _ ?_
    obtain hx | hx | ⟨x, hx, hvalue⟩ := hnull
    · simp [hx]
    · simp [hx]
    · simp [Option.mem_def.mp hx, hvalue]

theorem writtenLeftRight_null {left : Bool} {str count : Argument R}
    (h : writtenLeftRight s left str count = some result)
    (hnull : str.value = .null ∨ count.value = .null) : result = .ok .null := by
  have hextension (f : ExtensionFunction) :
      s.extensionFunction f [str.value, count.value] = .ok .null := by
    refine extensionFunction_of_mem _ ?_
    obtain hx | hx := hnull
    · simp [hx]
    · simp [hx]
  rw [writtenLeftRight] at h
  split at h
  · rw [hextension] at h
    dsimp only at h
    split at h
    · rename_i n hcount
      have hx : str.value = .null := hnull.resolve_right (value_ne_null_of_integerLiteral hcount)
      simp only [hx, substrFunc_null, ite_self] at h
      exact (Option.some.inj h).symm
    · exact (Option.some.inj h).symm
  · contradiction

theorem writtenPad_null {f : ExtensionFunction} {str count padding : Argument R}
    (h : writtenPad s f str count padding = some result)
    (hnull : str.value = .null ∨ count.value = .null ∨ padding.value = .null) :
    result = .ok .null := by
  rw [writtenPad] at h
  split_ifs at h
  rw [← Option.some.inj h]
  refine extensionFunction_of_mem f ?_
  simpa [eq_comm] using hnull

theorem writtenRegexp_null {f : ExtensionFunction} {optionsIndex : ℕ}
    (h : writtenRegexp s f optionsIndex args = some result)
    (hnull : ∃ x ∈ args, x.value = .null) : result = .ok .null := by
  obtain ⟨x, hx, hvalue⟩ := hnull
  rw [← List.take_append_drop optionsIndex args, List.mem_append] at hx
  -- A `NULL` among the texts is found by the function, and options are not `NULL`.
  have hextension (hx : x ∈ args.take optionsIndex) (options : List ℕ) :
      s.extensionFunction f ((args.take optionsIndex).map Argument.value ++ [.text options]) =
        .ok .null := by
    refine extensionFunction_of_mem f (List.mem_append_left _ ?_)
    exact List.mem_map.mpr ⟨x, hx, hvalue⟩
  rw [writtenRegexp] at h
  split_ifs at h
  split at h
  · rename_i hdrop
    rw [hdrop] at hx
    rw [hextension (hx.resolve_right List.not_mem_nil)] at h
    exact (Option.some.inj h).symm
  · rename_i options hdrop
    rw [hdrop, List.mem_singleton] at hx
    obtain ⟨z, hz, hresult⟩ := Option.map_eq_some_iff.mp h
    obtain hx | rfl := hx
    · rw [← hresult, hextension hx]
    · exact absurd hvalue (value_ne_null_of_constantString hz)
  · contradiction

theorem value_ne_null_of_extractOptions {options : ℤ × List ℕ}
    (h : extractOptions args = some options) : ∀ x ∈ args, x.value ≠ .null := by
  match args, h with
  | [], _ => exact nofun
  | [group], h =>
    rw [List.forall_mem_singleton]
    rw [extractOptions] at h
    split at h
    · rename_i hgroup
      exact value_ne_null_of_constantString hgroup
    · obtain ⟨n, hn, -⟩ := Option.bind_eq_some_iff.mp h
      exact value_ne_null_of_integerLiteral hn
  | [group, options], h =>
    obtain ⟨n, hn, h⟩ := Option.bind_eq_some_iff.mp h
    split_ifs at h
    obtain ⟨z, hz, -⟩ := Option.map_eq_some_iff.mp h
    rw [List.forall_mem_cons, List.forall_mem_singleton]
    exact ⟨value_ne_null_of_integerLiteral hn, value_ne_null_of_constantString hz⟩

theorem writtenExtract_null
    (h : writtenExtract s args = some result) (hnull : ∃ x ∈ args, x.value = .null) :
    result = .ok .null := by
  match args, h with
  | str :: pattern :: rest, h =>
    rw [writtenExtract] at h
    split_ifs at h
    obtain ⟨⟨n, options⟩, hoptions, rfl⟩ := Option.map_eq_some_iff.mp h
    refine extensionFunction_of_mem _ ?_
    obtain ⟨x, hx, hvalue⟩ := hnull
    obtain rfl | hx := List.mem_cons.mp hx
    · simp [hvalue]
    obtain rfl | hx := List.mem_cons.mp hx
    · simp [hvalue]
    · exact absurd hvalue (value_ne_null_of_extractOptions hoptions x hx)

theorem writtenSign_null : writtenSign s .null = .null :=
  rfl

theorem writtenUnicode_null (empty : ℤ) : writtenUnicode s empty .null = .null :=
  rfl

end Null

/-! ### When a `NULL` makes it `NULL` -/

section Main

variable {R : Type} (s : Sqlite R)

/-- The size of the pattern for a constant: `*`, `?` and `[` are in brackets, and there is a `*`. -/
def patternSize (constant : List ℕ) : ℕ :=
  constant.length + 2 * constant.countP (fun c => c = matchAll ∨ c = matchOne ∨ c = matchSet) + 1

/-- The arguments for which a `NULL` makes the result `NULL`. -/
def Propagates : ScalarFunction → List (Argument R) → Prop
  | .chr, _ => False
  | .repeat, [str, count] =>
    str.value = .null ∧ 2 * (s.valueInt64 count.value).toNat < maxLength
  | .replace, [str, pattern, _] => str.value = .null ∨ s.isEmptyPattern pattern.value = false
  | .startsWith, [_, affix] =>
    ∀ constant ∈ affix.constantString, patternSize constant ≤ maxPatternLength
  | .endsWith, [_, affix] =>
    ∀ constant ∈ affix.constantString, patternSize constant ≤ maxPatternLength
  | _, _ => True

variable {s}

theorem length_globEscape (constant : List ℕ) :
    (globEscape constant).length + 1 = patternSize constant := by
  rw [patternSize, globEscape]
  induction constant with
  | nil => rfl
  | cons c constant ih =>
    rw [List.flatMap_cons, List.length_append, List.length_cons, List.countP_cons, globLiteral]
    split_ifs with hc hc' hc'
    · simp only [List.length_cons, List.length_nil]
      omega
    · exact absurd (decide_eq_true hc) hc'
    · exact absurd (of_decide_eq_true hc') hc
    · simp only [List.length_cons, List.length_nil]
      omega

theorem globFunc_null_iff {z : List ℕ} :
    s.globFunc .null (.text z) = .ok .null ↔ z.length ≤ maxPatternLength := by
  rw [globFunc_null]
  split_ifs with hz
  · exact iff_of_false nofun (not_le.mpr hz)
  · exact iff_of_true rfl (not_lt.mp hz)

theorem lengthFunc_null : s.lengthFunc .null = .null :=
  rfl

theorem caseWhen_null (v w : Value R) : caseWhen .null v w = w :=
  rfl

theorem startsWith_null_iff {str affix : Argument R}
    (hnull : str.value = .null ∨ affix.value = .null) :
    writtenStartsWith s str affix = .ok .null ↔
      ∀ constant ∈ affix.constantString, patternSize constant ≤ maxPatternLength := by
  rw [writtenStartsWith]
  cases hconstant : affix.constantString with
  | some constant =>
    have hx : str.value = .null := hnull.resolve_right (value_ne_null_of_constantString hconstant)
    simp only [hx, Option.mem_some_iff, forall_eq', globFunc_null_iff, startsWithGlob,
      List.length_append, List.length_singleton, length_globEscape]
  | none =>
    refine iff_of_true ?_ fun _ hmem => absurd hmem (Option.not_mem_none _)
    obtain hx | hx := hnull
    · rw [hx, substrFunc_null]
      rfl
    · rw [hx]
      exact congrArg Except.ok (comparison_null_right _ _)

theorem endsWith_null_iff {str affix : Argument R}
    (hnull : str.value = .null ∨ affix.value = .null) :
    writtenEndsWith s str affix = .ok .null ↔
      ∀ constant ∈ affix.constantString, patternSize constant ≤ maxPatternLength := by
  rw [writtenEndsWith]
  cases hconstant : affix.constantString with
  | some constant =>
    have hx : str.value = .null := hnull.resolve_right (value_ne_null_of_constantString hconstant)
    simp only [hx, Option.mem_some_iff, forall_eq', globFunc_null_iff, endsWithGlob,
      List.length_append, List.length_singleton, Nat.add_comm 1, length_globEscape]
  | none =>
    refine iff_of_true ?_ fun _ hmem => absurd hmem (Option.not_mem_none _)
    obtain hx | hx := hnull
    · have hequal : s.equal (.null : Value R) .null = .null := rfl
      rw [hx, substrFunc_null, hequal]
      exact congrArg Except.ok (ite_self _)
    · have hcondition : s.equal (s.lengthFunc (.null : Value R)) (.integer 0) = .null := rfl
      rw [hx, hcondition, caseWhen_null]
      exact congrArg Except.ok (comparison_null_right _ _)

theorem repeat_null_iff {str count : Argument R} {result : Except Error (Value R)}
    (h : writtenRepeat s str count = some result) (hnull : str.value = .null ∨ count.value = .null) :
    result = .ok .null ↔ str.value = .null ∧ 2 * (s.valueInt64 count.value).toNat < maxLength := by
  rw [writtenRepeat] at h
  split_ifs at h with htypes
  rw [← bind_assoc, hex_zeroblob] at h
  rw [← Option.some.inj h]
  by_cases hsize : 2 * (s.valueInt64 count.value).toNat < maxLength
  · rw [if_pos hsize]
    dsimp only [bind, Except.bind]
    by_cases hx : str.value = .null
    · rw [hx, replaceFunc_null]
      exact iff_of_true rfl ⟨rfl, hsize⟩
    · have hcount : (s.valueInt64 count.value).toNat = 0 := by rw [hnull.resolve_left hx]; rfl
      rw [hcount, Nat.mul_zero, List.replicate_zero, replaceFunc_nil rfl hx]
      exact iff_of_false nofun fun h => hx h.1
  · rw [if_neg hsize]
    exact iff_of_false nofun fun h => hsize h.2

theorem replace_null_iff {str pattern replacement : Value R}
    (hnull : str = .null ∨ pattern = .null ∨ replacement = .null) :
    s.replaceFunc str pattern replacement = .ok .null ↔
      str = .null ∨ s.isEmptyPattern pattern = false := by
  by_cases hstr : str = .null
  · rw [hstr]
    exact iff_of_true rfl (.inl rfl)
  by_cases hpattern : pattern = .null
  · rw [hpattern, replaceFunc_pattern_null]
    exact iff_of_true rfl (.inr rfl)
  · rw [(hnull.resolve_left hstr).resolve_left hpattern, replaceFunc_null]
    cases hempty : s.isEmptyPattern pattern with
    | true => simp [hstr]
    | false => simp

/-- **For every function and all arguments with a `NULL`, what is written is `NULL` if and only if
the arguments are among those of `Propagates`.** It is not for `chr`; for `repeat` if the text is
not `NULL` or the count is too large; for `replace` if an empty text is to be replaced; and for
`starts_with` and `ends_with` if the constant is too long. -/
theorem nullPropagation_iff {f : ScalarFunction} {args : List (Argument R)}
    {result : Except Error (Value R)} (h : written s f args = some result) (hnull : ∃ x ∈ args, x.value = .null) :
    result = .ok .null ↔ Propagates s f args := by
  rw [written] at h
  split_ifs at h with hbyte
  cases f with
  | length =>
    refine iff_of_true (unary_null (fun x r hr hx => ?_) h hnull) trivial
    rw [eq_of_ofStrings hr, hx, lengthFunc_null]
  | strlen | abs =>
    refine iff_of_true (unary_null (fun x r hr hx => ?_) h hnull) trivial
    split_ifs at hr
    rw [← Option.some.inj hr, hx]
    rfl
  | lower | upper | reverse =>
    refine iff_of_true (unary_null (fun x r hr hx => ?_) h hnull) trivial
    rw [eq_of_ofStrings hr, hx]
    rfl
  | trim | ltrim | rtrim => exact iff_of_true (writtenTrim_null h hnull) trivial
  | replace =>
    match args, h with
    | [str, pattern, replacement], h =>
      rw [eq_of_ofStrings h]
      exact replace_null_iff (by simpa using hnull)
  | instr =>
    refine iff_of_true (binary_null (fun x y r hr hx => ?_) h hnull) trivial
    rw [eq_of_ofStrings hr, instrFunc_of_null hx]
  | contains =>
    refine iff_of_true (binary_null (fun x y r hr hx => ?_) h hnull) trivial
    rw [eq_of_ofStrings hr, instrFunc_of_null hx]
    rfl
  | startsWith =>
    match args, h with
    | [str, affix], h =>
      rw [eq_of_ofStrings h]
      exact startsWith_null_iff (by simpa using hnull)
  | endsWith =>
    match args, h with
    | [str, affix], h =>
      rw [eq_of_ofStrings h]
      exact endsWith_null_iff (by simpa using hnull)
  | substring =>
    match args, h with
    | [str, start], h =>
      exact iff_of_true (writtenSubstring_null h (by simpa using hnull)) trivial
    | [str, start, length], h =>
      exact iff_of_true (writtenSubstring_null h (by simpa using hnull)) trivial
  | left | right =>
    exact iff_of_true (binary_null (fun _ _ _ => writtenLeftRight_null) h hnull) trivial
  | lpad | rpad =>
    exact iff_of_true (ternary_null (fun _ _ _ _ => writtenPad_null) h hnull) trivial
  | «repeat» =>
    match args, h with
    | [str, count], h => exact repeat_null_iff h (by simpa using hnull)
  | sign =>
    refine iff_of_true (unary_null (fun x r hr hx => ?_) h hnull) trivial
    split_ifs at hr
    rw [← Option.some.inj hr, hx, writtenSign_null]
  | unicode | ascii =>
    refine iff_of_true (unary_null (fun x r hr hx => ?_) h hnull) trivial
    rw [eq_of_ofStrings hr, hx, writtenUnicode_null]
  | chr =>
    match args, h with
    | [x], h =>
      refine iff_of_false (fun hresult => ?_) id
      rw [hresult] at h
      simp only [writtenFunction, unary] at h
      split_ifs at h
      exact nomatch h
  | regexpMatches | regexpFullMatch | regexpReplace =>
    exact iff_of_true (writtenRegexp_null h hnull) trivial
  | regexpExtract => exact iff_of_true (writtenExtract_null h hnull) trivial

/-- `upper(NULL)` is `NULL`. -/
theorem upper_null :
    written (default : Sqlite ℕ) .upper [⟨.string, false, .null⟩] = some (.ok .null) ∧
      Propagates (default : Sqlite ℕ) .upper [⟨.string, false, .null⟩] :=
  ⟨rfl, (nullPropagation_iff rfl ⟨_, List.mem_singleton_self _, rfl⟩).mp rfl⟩

/-- `chr(NULL)` is a text with a zero byte, `repeat('a', NULL)` is an empty text, and
`replace('a', '', NULL)` is `'a'`. -/
theorem null_argument :
    written (default : Sqlite ℕ) .chr [⟨.integer, false, .null⟩] = some (.ok (.text [0])) ∧
      written (default : Sqlite ℕ) .repeat [⟨.string, true, .text [97]⟩, ⟨.integer, false, .null⟩] =
        some (.ok (.text [])) ∧
      written (default : Sqlite ℕ) .replace
          [⟨.string, true, .text [97]⟩, ⟨.string, true, .text []⟩, ⟨.string, false, .null⟩] =
        some (.ok (.text [97])) :=
  ⟨rfl, rfl, rfl⟩

end Main

end SqliteScanner.Scalars.NullPropagation
