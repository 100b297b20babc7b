import Mathlib.Data.List.GetD
import Mathlib.Tactic.Ring
import SqliteScanner.Scalars.Builtins

/-!
# Padding

`duckdb_lpad` and `duckdb_rpad` bring a text to a number of characters: a longer text is cut off,
and a shorter one is padded with the characters of another one, over and over. They work on bytes.
One loop counts characters of the text up to the number, and another one counts those of the padding
that are missing; whenever it reaches the end of the padding, a whole copy is written and it starts
again.

So after each turn, what was written and the part of the padding up to the current byte are the
characters that were counted (`padLoop_spec`).

The result is a text of SQLite, whose length is limited. A result that is too long is an error of
its own, besides the one for a padding that is empty.

## Main definitions

* `cycle` — characters over and over.
* `strLoop`, `padLoop` — the two loops.
* `padFunction` — `SQLitePadFunction`, for arguments that are not `NULL`.
* `padded` — the text that it is for.

## Main results

* `strLoop_spec`, `padLoop_spec`
* `padFunction_eq`
-/

namespace SqliteScanner.Scalars.Padding

open Utf8

/-! ### Characters over and over -/

section Cycle

variable {α : Type} [Inhabited α]

/-- The first `n` elements of a list that starts again at its end. -/
def cycle (l : List α) (n : ℕ) : List α := (List.range n).map fun i => l.getD (i % l.length) default

theorem length_cycle (l : List α) (n : ℕ) : (cycle l n).length = n := by
  rw [cycle, List.length_map, List.length_range]

theorem cycle_of_le {l : List α} {n : ℕ} (h : n ≤ l.length) : cycle l n = l.take n := by
  refine List.ext_getElem (by rw [length_cycle, List.length_take, min_eq_left h]) fun i hi hi' => ?_
  rw [length_cycle] at hi
  simp only [cycle, List.getElem_map, List.getElem_range, List.getElem_take]
  rw [Nat.mod_eq_of_lt (by omega), List.getD_eq_getElem l default (by omega)]

theorem cycle_length_add (l : List α) (n : ℕ) : cycle l (l.length + n) = l ++ cycle l n := by
  have hfirst : cycle l l.length = l := by rw [cycle_of_le le_rfl, List.take_length]
  rw [cycle, List.range_add, List.map_append, ← cycle, hfirst, List.map_map, cycle]
  simp only [Function.comp_def, Nat.add_mod_left]

/-- Whole copies, and a part of one. -/
theorem cycle_mul_add (l : List α) (q : ℕ) {j : ℕ} (h : j ≤ l.length) :
    cycle l (q * l.length + j) = (List.replicate q l).flatten ++ l.take j := by
  induction q with
  | zero => rw [zero_mul, zero_add, cycle_of_le h, List.replicate_zero, List.flatten_nil, List.nil_append]
  | succ q ih =>
    rw [List.replicate_succ, List.flatten_cons, List.append_assoc, ← ih, ← cycle_length_add]
    congr 1
    ring

end Cycle

/-! ### The function -/

/-- `DecodeCodepoint`, of which only the number of bytes is used. -/
structure DecodeCodepoint where
  size : List ℕ → ℕ
  size_eq : ∀ c s, size (encodeChar c ++ encode s) = (encodeChar c).length

variable (decode : DecodeCodepoint)

/-- The loop over the text: how many characters are missing, and how many bytes fit. -/
def strLoop (str : List ℕ) : ℕ → ℕ → ℕ × ℕ
  | 0, strBytes => (0, strBytes)
  | n + 1, strBytes =>
    if strBytes < str.length then strLoop str n (strBytes + decode.size (str.drop strBytes))
    else (n + 1, strBytes)

/-- The loop over the padding: what is written of it, and where it is. -/
def padLoop (pad : List ℕ) : ℕ → List ℕ → ℕ → List ℕ × ℕ
  | 0, padding, padBytes => (padding, padBytes)
  | n + 1, padding, padBytes =>
    if pad.length ≤ padBytes then padLoop pad n (padding ++ pad) (decode.size pad)
    else padLoop pad n padding (padBytes + decode.size (pad.drop padBytes))

/-- `SQLITE_MAX_LENGTH`. -/
def maxLength : ℕ := 1000000000

def tooBig : String := "string or blob too big"

def insufficientPadding (left : Bool) : String :=
  if left then "Insufficient padding in LPAD." else "Insufficient padding in RPAD."

/-- `sqlite3_result_text64`. -/
def setText (result : List ℕ) : Except String (List ℕ) :=
  if maxLength < result.length then .error tooBig else .ok result

/-- The number of characters that is asked for. -/
def characters (count : ℤ) : ℕ := (max 0 count).toNat

/-- `SQLitePadFunction`, for arguments that are not `NULL`. The count is converted to 32 bits. -/
def padFunction (left : Bool) (str : List ℕ) (count : Int64) (pad : List ℕ) :
    Except String (List ℕ) :=
  if -2147483648 ≤ count.toInt ∧ count.toInt ≤ 2147483647 then
    let (missing, strBytes) := strLoop decode str (characters count.toInt) 0
    if 0 < missing ∧ pad = [] then .error (insufficientPadding left)
    else
      let (padding, padBytes) := padLoop decode pad missing [] 0
      let padding := padding ++ pad.take padBytes
      setText (if left then padding ++ str.take strBytes else str.take strBytes ++ padding)
  else .error "NumericCast"

/-- What the functions are for: `n` characters of the text and, if it has not as many, of the
padding. -/
def padded (left : Bool) (s : List Char) (n : ℕ) (p : List Char) : List Char :=
  if left then cycle p (n - s.length) ++ s.take n else s.take n ++ cycle p (n - s.length)

/-! ### The loops -/

section Loops

variable {decode}

theorem encode_eq_take_append_drop (s : List Char) (j : ℕ) :
    encode s = encode (s.take j) ++ encode (s.drop j) := by
  rw [← encode_append, List.take_append_drop]

/-- From the start of a character to the start of the next one. -/
theorem size_drop {s : List Char} {j : ℕ} (h : j < s.length) :
    (encode (s.take j)).length + decode.size ((encode s).drop (encode (s.take j)).length) =
      (encode (s.take (j + 1))).length := by
  have hdrop : (encode s).drop (encode (s.take j)).length = encode (s.drop j) := by
    rw [encode_eq_take_append_drop s j, List.drop_left]
  rw [hdrop, List.drop_eq_getElem_cons h, encode_cons, decode.size_eq, ← List.take_append_getElem h,
    encode_append, List.length_append, encode_cons, encode_nil, List.append_nil]

theorem length_encode_take_lt_iff {s : List Char} {j : ℕ} (h : j ≤ s.length) :
    (encode (s.take j)).length < (encode s).length ↔ j < s.length := by
  have hdrop := length_le_length_encode (s.drop j)
  rw [List.length_drop] at hdrop
  refine ⟨fun hlt => ?_, fun hlt => ?_⟩
  · by_contra hge
    rw [List.take_of_length_le (by omega)] at hlt
    exact lt_irrefl _ hlt
  · rw [encode_eq_take_append_drop s j, List.length_append]
    omega

/-- **The loop over the text** starts after some characters, and stops at the end or when enough are
counted. -/
theorem strLoop_spec {s : List Char} {n j : ℕ} (h : j ≤ s.length) :
    strLoop decode (encode s) n (encode (s.take j)).length =
      (n - (s.length - j), (encode (s.take (j + n))).length) := by
  induction n generalizing j with
  | zero => rw [strLoop, Nat.zero_sub, add_zero]
  | succ n ih =>
    rw [strLoop]
    by_cases hlt : j < s.length
    · rw [if_pos ((length_encode_take_lt_iff h).mpr hlt), size_drop hlt, ih hlt]
      have hmissing : n - (s.length - (j + 1)) = n + 1 - (s.length - j) := by omega
      rw [hmissing, Nat.succ_add_eq_add_succ]
    · rw [if_neg (mt (length_encode_take_lt_iff h).mp hlt), List.take_of_length_le (by omega),
        List.take_of_length_le (by omega), Nat.sub_eq_zero_of_le (not_lt.mp hlt), Nat.sub_zero]

/-- **The loop over the padding** starts after whole copies and some characters of the next one. -/
theorem padLoop_spec {p : List Char} {n q j : ℕ} (hp : 0 < p.length) (h : j ≤ p.length) :
    ∃ q' j', j' ≤ p.length ∧ q' * p.length + j' = q * p.length + j + n ∧
      padLoop decode (encode p) n (encode (List.replicate q p).flatten) (encode (p.take j)).length =
        (encode (List.replicate q' p).flatten, (encode (p.take j')).length) := by
  induction n generalizing q j with
  | zero => exact ⟨q, j, h, rfl, rfl⟩
  | succ n ih =>
    rw [padLoop]
    by_cases hlt : j < p.length
    · obtain ⟨q', j', hj', hsum, hloop⟩ := ih (q := q) (j := j + 1) hlt
      rw [if_neg (not_le.mpr ((length_encode_take_lt_iff h).mpr hlt)), size_drop hlt, hloop]
      exact ⟨q', j', hj', by omega, rfl⟩
    · -- The copy is complete, and the next one starts with a character.
      have hcopy : encode (List.replicate q p).flatten ++ encode p =
          encode (List.replicate (q + 1) p).flatten := by
        rw [List.replicate_succ', List.flatten_append, List.flatten_singleton, encode_append]
      have hfirst : decode.size (encode p) = (encode (p.take 1)).length := by
        rw [← size_drop hp, List.take_zero, encode_nil, List.length_nil, Nat.zero_add, List.drop_zero]
      obtain ⟨q', j', hj', hsum, hloop⟩ := ih (q := q + 1) (j := 1) hp
      rw [if_pos (not_lt.mp (mt (length_encode_take_lt_iff h).mp hlt)), hcopy, hfirst, hloop]
      refine ⟨q', j', hj', ?_, rfl⟩
      rw [hsum, Nat.add_mul, one_mul]
      omega

/-- The padding that the loop finds. -/
theorem padLoop_eq {p : List Char} (n : ℕ) (hp : 0 < n → p ≠ []) :
    (padLoop decode (encode p) n [] 0).1 ++ (encode p).take (padLoop decode (encode p) n [] 0).2 =
      encode (cycle p n) := by
  rcases Nat.eq_zero_or_pos n with rfl | hn
  · rw [padLoop, List.take_zero]
    rfl
  · have hlength : 0 < p.length := List.length_pos_of_ne_nil (hp hn)
    obtain ⟨q, j, hj, hsum, hloop⟩ := @padLoop_spec decode p n 0 0 hlength (Nat.zero_le _)
    rw [List.take_zero, List.replicate_zero, List.flatten_nil, encode_nil, List.length_nil] at hloop
    rw [zero_mul, zero_add, zero_add] at hsum
    rw [hloop, ← hsum, cycle_mul_add p q hj, encode_append]
    congr 1
    rw [encode_eq_take_append_drop p j, List.take_left]

end Loops

/-! ### The result -/

section Result

variable {decode}

theorem length_padded (left : Bool) (s : List Char) (n : ℕ) (p : List Char) :
    (padded left s n p).length = n := by
  rw [padded]
  split_ifs
  · rw [List.length_append, length_cycle, List.length_take]
    omega
  · rw [List.length_append, length_cycle, List.length_take]
    omega

theorem encode_eq_nil_iff {p : List Char} : encode p = [] ↔ p = [] := by
  refine ⟨fun h => ?_, fun h => h ▸ rfl⟩
  have hlength := length_le_length_encode p
  rw [h, List.length_nil, Nat.le_zero] at hlength
  exact List.length_eq_zero_iff.mp hlength

/-- **What the function does**: it fails if there is nothing to pad with, or if the text is too long
for SQLite. -/
theorem padFunction_eq (left : Bool) (s p : List Char) {count : Int64}
    (hlow : -2147483648 ≤ count.toInt) (hhigh : count.toInt ≤ 2147483647) :
    padFunction decode left (encode s) count (encode p) =
      if s.length < characters count.toInt ∧ p = [] then .error (insufficientPadding left)
      else setText (encode (padded left s (characters count.toInt) p)) := by
  have hstr := @strLoop_spec decode s (characters count.toInt) 0 (Nat.zero_le _)
  rw [List.take_zero, encode_nil, List.length_nil, Nat.sub_zero, Nat.zero_add] at hstr
  rw [padFunction, if_pos ⟨hlow, hhigh⟩, hstr]
  generalize characters count.toInt = n
  dsimp only
  by_cases hempty : s.length < n ∧ p = []
  · rw [if_pos hempty, if_pos ⟨Nat.sub_pos_of_lt hempty.1, encode_eq_nil_iff.mpr hempty.2⟩]
  · have htake : (encode s).take (encode (s.take n)).length = encode (s.take n) := by
      rw [encode_eq_take_append_drop s n, List.take_left]
    have hpad := @padLoop_eq decode p (n - s.length) fun hpos hp =>
      hempty ⟨Nat.lt_of_sub_pos hpos, hp⟩
    rw [if_neg hempty, if_neg fun h => hempty ⟨Nat.lt_of_sub_pos h.1, encode_eq_nil_iff.mp h.2⟩,
      htake, hpad, padded]
    split_ifs
    · rw [encode_append]
    · rw [encode_append]

/-- What the functions are for: a text of as many characters as are asked for, or an error if there
is nothing to pad with or the text is too long for SQLite. -/
structure Pads (decode : DecodeCodepoint) (left : Bool) (s p : List Char) (n : Int32) : Prop where
  ok : ∀ result, padFunction decode left (encode s) n.toInt64 (encode p) = .ok result →
    result = encode (padded left s (characters n.toInt) p)
  length : (padded left s (characters n.toInt) p).length = characters n.toInt
  isError_iff : (∃ e, padFunction decode left (encode s) n.toInt64 (encode p) = .error e) ↔
    s.length < characters n.toInt ∧ p = [] ∨
      maxLength < (encode (padded left s (characters n.toInt) p)).length

/-- **Texts are padded with characters**, whatever the bytes of the text and the padding. -/
theorem padFunction_pads (decode : DecodeCodepoint) (left : Bool) (s p : List Char) (n : Int32) :
    Pads decode left s p n := by
  have heq := @padFunction_eq decode left s p n.toInt64 (by rw [Int32.toInt_toInt64]; exact n.le_toInt)
    (by rw [Int32.toInt_toInt64]; exact n.toInt_le)
  rw [Int32.toInt_toInt64] at heq
  refine ⟨fun result hresult => ?_, length_padded _ _ _ _, ?_⟩
  · rw [heq] at hresult
    split_ifs at hresult with hempty
    rw [setText] at hresult
    split_ifs at hresult
    cases hresult
    rfl
  · rw [heq, setText]
    split_ifs with hempty hlong
    · exact iff_of_true ⟨_, rfl⟩ (.inl hempty)
    · exact iff_of_true ⟨_, rfl⟩ (.inr hlong)
    · exact iff_of_false nofun (not_or.mpr ⟨hempty, hlong⟩)

/-- The number of bytes of the first character. -/
def decodeSize : DecodeCodepoint where
  size := fun z => z.length - (decodeChar z).2.length
  size_eq := by
    intro c s
    rw [decodeChar_encodeChar, List.length_append, Nat.add_sub_cancel]

/-- There is something to pad with, but the text is too long for SQLite. -/
theorem padded_too_long :
    padFunction decodeSize true (encode []) 1000000001 (encode ['x']) = .error tooBig := by
  have hlength := length_le_length_encode (padded true [] (characters (1000000001 : Int64).toInt) ['x'])
  rw [length_padded] at hlength
  have hcharacters : characters (1000000001 : Int64).toInt = maxLength + 1 := by decide
  rw [padFunction_eq true [] ['x'] (by decide) (by decide), if_neg nofun, setText,
    if_pos (by rw [hcharacters] at hlength; exact hlength)]

end Result

end SqliteScanner.Scalars.Padding
