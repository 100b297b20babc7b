import Mathlib.Data.List.Basic
import Mathlib.Data.List.TakeWhile

/-!
# SQLite's tokenizer

`getToken` finds the token at the start of a text: its type and how many bytes it has. What kind of
token it is depends on the class of the first byte, and everything else on what follows.

A text is the list of its bytes, and the zero byte after it is not part of the list. The table of
keywords is a parameter, from the bytes of a word to the type of its token.

## Main definitions

* `CharClass`, `charClass` — the classes of bytes.
* `getToken` — `sqlite3GetToken`.
* `dequote` — `sqlite3Dequote`, the string that a token denotes.
-/

namespace SqliteScanner.Tokenizer

/-! ### Bytes -/

section Bytes

/-- A byte of a text. -/
def byte (z : List ℕ) (i : ℕ) : ℕ := z.getD i 0

/-- How many bytes at the start have a property. -/
def span (p : ℕ → Bool) (z : List ℕ) : ℕ := (z.takeWhile p).length

inductive CharClass where
  | x
  | kywd0
  | kywd
  | digit
  | dollar
  | varAlpha
  | varNum
  | space
  | quote
  | quote2
  | pipe
  | minus
  | lt
  | gt
  | eq
  | bang
  | slash
  | lp
  | rp
  | semi
  | plus
  | star
  | percent
  | comma
  | and
  | tilda
  | dot
  | id
  | illegal
  | nul
  | bom
  deriving DecidableEq

/-- The class of an ASCII character. -/
def asciiClass : Char → CharClass
  | '\x00' => .nul
  | '\t' | '\n' | '\x0c' | '\r' | ' ' => .space
  | '!' => .bang
  | '"' | '\'' | '`' => .quote
  | '#' | ':' | '@' => .varAlpha
  | '$' => .dollar
  | '%' => .percent
  | '&' => .and
  | '(' => .lp
  | ')' => .rp
  | '*' => .star
  | '+' => .plus
  | ',' => .comma
  | '-' => .minus
  | '.' => .dot
  | '/' => .slash
  | ';' => .semi
  | '<' => .lt
  | '=' => .eq
  | '>' => .gt
  | '?' => .varNum
  | '[' => .quote2
  | '|' => .pipe
  | '~' => .tilda
  | 'X' | 'x' => .x
  | 'Y' | 'Z' | '_' | 'y' | 'z' => .kywd
  | c => if c.isAlpha then .kywd0 else if c.isDigit then .digit else .illegal

/-- `aiClass`. -/
def charClass (c : ℕ) : CharClass :=
  if c < 0x80 then asciiClass (Char.ofNat c) else if c = 0xEF then .bom else .id

/-- `aiClass[c] <= CC_KYWD`. -/
def isKeywordChar (c : ℕ) : Bool :=
  charClass c = .x || charClass c = .kywd0 || charClass c = .kywd

/-- `sqlite3Isspace`. -/
def isSpace (c : ℕ) : Bool := (9 ≤ c && c ≤ 13) || c = ' '.toNat

/-- `sqlite3Isdigit`. -/
def isDigit (c : ℕ) : Bool := '0'.toNat ≤ c && c ≤ '9'.toNat

/-- `sqlite3Isxdigit`. -/
def isXdigit (c : ℕ) : Bool :=
  isDigit c || ('A'.toNat ≤ c && c ≤ 'F'.toNat) || ('a'.toNat ≤ c && c ≤ 'f'.toNat)

def isAlpha (c : ℕ) : Bool :=
  ('A'.toNat ≤ c && c ≤ 'Z'.toNat) || ('a'.toNat ≤ c && c ≤ 'z'.toNat)

/-- `IdChar`. -/
def isIdChar (c : ℕ) : Bool :=
  isAlpha c || isDigit c || c = '_'.toNat || c = '$'.toNat || 0x80 ≤ c

/-- `sqlite3Isquote`. -/
def isQuote (c : ℕ) : Bool :=
  c = '"'.toNat || c = '\''.toNat || c = '['.toNat || c = '`'.toNat

end Bytes

/-! ### Tokens -/

section Tokens

/-- The types of tokens. The keywords have types of their own. -/
inductive TokenType where
  | space
  | minus
  | ptr
  | lp
  | rp
  | semi
  | plus
  | star
  | slash
  | rem
  | eq
  | le
  | ne
  | lshift
  | lt
  | ge
  | rshift
  | gt
  | bitor
  | concat
  | comma
  | bitand
  | bitnot
  | dot
  | integer
  | float
  | string
  | blob
  | id
  | variable
  | keyword (code : ℕ)
  | illegal
  deriving DecidableEq

/-- The end of a comment, after its first byte `c`. -/
def commentEnd : ℕ → List ℕ → ℕ → ℕ
  | _, [], i => i
  | c, d :: z, i =>
    if c = '*'.toNat ∧ d = '/'.toNat then i + 1
    else if d = 0 then i
    else commentEnd d z (i + 1)

/-- The loop over a quoted text: where it ends, and the byte there. -/
def quoteLoop (delim : ℕ) : List ℕ → ℕ → ℕ × ℕ
  | [], i => (i, 0)
  | c :: z, i =>
    if c = 0 then (i, 0)
    else if c = delim then
      match z with
      | [] => (i, c)
      | d :: z => if d = delim then quoteLoop delim z (i + 2) else (i, c)
    else quoteLoop delim z (i + 1)

section QuoteLoop

variable {delim : ℕ}

theorem quoteLoop_of_ne {c : ℕ} (hc : c ≠ 0) (hdelim : c ≠ delim) (z : List ℕ) (i : ℕ) :
    quoteLoop delim (c :: z) i = quoteLoop delim z (i + 1) := by
  rw [quoteLoop.eq_def]
  simp only [if_neg hc, if_neg hdelim]

/-- A doubled quote does not end the text. -/
theorem quoteLoop_doubled (hdelim : delim ≠ 0) (z : List ℕ) (i : ℕ) :
    quoteLoop delim (delim :: delim :: z) i = quoteLoop delim z (i + 2) := by
  simp [quoteLoop, hdelim]

theorem quoteLoop_end (hdelim : delim ≠ 0) {z : List ℕ} (hz : z.head? ≠ some delim) (i : ℕ) :
    quoteLoop delim (delim :: z) i = (i, delim) := by
  cases z with
  | nil => simp [quoteLoop, hdelim]
  | cons d z =>
    have hd : d ≠ delim := fun h => hz (congrArg some h)
    simp [quoteLoop, hdelim, hd]

end QuoteLoop

def quoteToken (z : List ℕ) : TokenType × ℕ :=
  let (i, c) := quoteLoop (byte z 0) (z.drop 1) 1
  if c = '\''.toNat then (.string, i + 1) else if c ≠ 0 then (.id, i + 1) else (.illegal, i)

def numberToken (z : List ℕ) : TokenType × ℕ :=
  if byte z 0 = '0'.toNat ∧ (byte z 1 = 'x'.toNat ∨ byte z 1 = 'X'.toNat) ∧ isXdigit (byte z 2) then
    (.integer, 3 + span isXdigit (z.drop 3))
  else
    let i := span isDigit z
    let (type, i) :=
      if byte z i = '.'.toNat then (TokenType.float, i + 1 + span isDigit (z.drop (i + 1)))
      else (.integer, i)
    let (type, i) :=
      if (byte z i = 'e'.toNat ∨ byte z i = 'E'.toNat) ∧ (isDigit (byte z (i + 1)) ∨
          (byte z (i + 1) = '+'.toNat ∨ byte z (i + 1) = '-'.toNat) ∧ isDigit (byte z (i + 2))) then
        (.float, i + 2 + span isDigit (z.drop (i + 2)))
      else (type, i)
    let n := span isIdChar (z.drop i)
    (if n = 0 then type else .illegal, i + n)

/-- The loop over the name of a variable, where `n` bytes of a name were read. -/
def variableLoop : List ℕ → ℕ → ℕ → TokenType × ℕ
  | [], n, i => (if n = 0 then .illegal else .variable, i)
  | c :: z, n, i =>
    if isIdChar c then variableLoop z (n + 1) (i + 1)
    else if c = '('.toNat ∧ 0 < n then
      let k := span (fun c => c ≠ 0 && !isSpace c && c ≠ ')'.toNat) z
      if byte z k = ')'.toNat then (.variable, i + 1 + k + 1) else (.illegal, i + 1 + k)
    else
      match z with
      | [] => (if n = 0 then .illegal else .variable, i)
      | d :: z =>
        if c = ':'.toNat ∧ d = ':'.toNat then variableLoop z n (i + 2)
        else (if n = 0 then .illegal else .variable, i)

def blobToken (z : List ℕ) : TokenType × ℕ :=
  let i := 2 + span isXdigit (z.drop 2)
  if byte z i ≠ '\''.toNat ∨ i % 2 = 1 then
    let i := i + span (fun c => c ≠ 0 && c ≠ '\''.toNat) (z.drop i)
    (.illegal, if byte z i ≠ 0 then i + 1 else i)
  else (.blob, i + 1)

/-- `while( IdChar(z[i]) ){ i++; }`. -/
def idToken (z : List ℕ) (i : ℕ) : TokenType × ℕ := (.id, i + span isIdChar (z.drop i))

variable (keywordCode : List ℕ → TokenType)

/-- `sqlite3GetToken`. -/
def getToken (z : List ℕ) : TokenType × ℕ :=
  match charClass (byte z 0) with
  | .space => (.space, 1 + span isSpace (z.drop 1))
  | .minus =>
    if byte z 1 = '-'.toNat then
      (.space, 2 + span (fun c => c ≠ 0 && c ≠ '\n'.toNat) (z.drop 2))
    else if byte z 1 = '>'.toNat then (.ptr, 2 + if byte z 2 = '>'.toNat then 1 else 0)
    else (.minus, 1)
  | .lp => (.lp, 1)
  | .rp => (.rp, 1)
  | .semi => (.semi, 1)
  | .plus => (.plus, 1)
  | .star => (.star, 1)
  | .slash =>
    if byte z 1 ≠ '*'.toNat ∨ byte z 2 = 0 then (.slash, 1)
    else (.space, commentEnd (byte z 2) (z.drop 3) 3)
  | .percent => (.rem, 1)
  | .eq => (.eq, 1 + if byte z 1 = '='.toNat then 1 else 0)
  | .lt =>
    if byte z 1 = '='.toNat then (.le, 2)
    else if byte z 1 = '>'.toNat then (.ne, 2)
    else if byte z 1 = '<'.toNat then (.lshift, 2)
    else (.lt, 1)
  | .gt =>
    if byte z 1 = '='.toNat then (.ge, 2)
    else if byte z 1 = '>'.toNat then (.rshift, 2)
    else (.gt, 1)
  | .bang => if byte z 1 = '='.toNat then (.ne, 2) else (.illegal, 1)
  | .pipe => if byte z 1 = '|'.toNat then (.concat, 2) else (.bitor, 1)
  | .comma => (.comma, 1)
  | .and => (.bitand, 1)
  | .tilda => (.bitnot, 1)
  | .quote => quoteToken z
  | .dot => if isDigit (byte z 1) then numberToken z else (.dot, 1)
  | .digit => numberToken z
  | .quote2 =>
    let n := span (fun c => c ≠ 0 && c ≠ ']'.toNat) (z.drop 1)
    if byte z (1 + n) = ']'.toNat then (.id, n + 2) else (.illegal, n + 1)
  | .varNum => (.variable, 1 + span isDigit (z.drop 1))
  | .dollar | .varAlpha => variableLoop (z.drop 1) 0 1
  | .kywd0 =>
    let i := 1 + span isKeywordChar (z.drop 1)
    -- A byte that is not in a keyword makes it an identifier.
    if isIdChar (byte z i) then idToken z (i + 1) else (keywordCode (z.take i), i)
  | .x => if byte z 1 = '\''.toNat then blobToken z else idToken z 1
  | .kywd | .id => idToken z 1
  | .bom => if byte z 1 = 0xBB ∧ byte z 2 = 0xBF then (.space, 3) else idToken z 1
  | .nul => (.illegal, 0)
  | .illegal => (.illegal, 1)

end Tokens

/-! ### What a token denotes -/

/-- The loop of `sqlite3Dequote`. -/
def dequoteLoop (quote : ℕ) : List ℕ → List ℕ
  | [] => []
  | c :: z =>
    if c = quote then
      match z with
      | [] => []
      | d :: z => if d = quote then quote :: dequoteLoop quote z else []
    else c :: dequoteLoop quote z

section DequoteLoop

variable {quote : ℕ}

theorem dequoteLoop_of_ne {c : ℕ} (hc : c ≠ quote) (z : List ℕ) :
    dequoteLoop quote (c :: z) = c :: dequoteLoop quote z := by
  rw [dequoteLoop.eq_def]
  simp only [if_neg hc]

theorem dequoteLoop_doubled (z : List ℕ) :
    dequoteLoop quote (quote :: quote :: z) = quote :: dequoteLoop quote z := by
  simp [dequoteLoop]

theorem dequoteLoop_end : dequoteLoop quote [quote] = [] := by
  simp [dequoteLoop]

end DequoteLoop

/-- `sqlite3Dequote`. -/
def dequote : List ℕ → List ℕ
  | [] => []
  | c :: z =>
    if isQuote c then dequoteLoop (if c = '['.toNat then ']'.toNat else c) z else c :: z

end SqliteScanner.Tokenizer
