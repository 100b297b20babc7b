import SqliteScanner.Scalars.Builtins

/-!
# Substrings with literal arguments

`substring`, `left` and `right` with literal arguments are written with SQLite's `substr`, and with functions
of the extension otherwise. Both count characters, but `substr` reads its arguments as 32-bit integers
and takes a position before the start off its length, which is the limit of the length of texts if it
is left out.

So the results may differ if an argument has more than 31 bits. For `right` they differ earlier: `right` is
written as `substr` with a negative position, and a count beyond the limit of the length of texts,
such as 2000000000, leaves no length (`large_count`). `agrees_iff` says for which literals the results
are the same for all texts.

## Main definitions

* `emitted` — the arguments of `substr`
* `extension` — the functions of the extension
* `Fits` — the literals that are written correctly

## Main results

* `agrees_iff`
-/

namespace SqliteScanner.Scalars.Substring

open Utf8

/-! ### Texts and calls -/

/-- `SQLITE_MAX_LENGTH`, the limit of the length of texts. -/
def maxLength : ℤ := 1000000000

/-- The largest 32-bit integer without a sign. -/
def maxUint32 : ℤ := 4294967295

/-- A text without zeros. -/
structure Text where
  chars : List Char
  notMem : '\x00' ∉ chars
  size_le : ((encode chars).length : ℤ) ≤ maxLength

theorem Text.length_le (s : Text) : (s.chars.length : ℤ) ≤ maxLength := by
  have := length_le_length_encode s.chars
  have := s.size_le
  omega

/-- A call with literal arguments. -/
inductive Call where
  | substring (start : ℤ) (length : Option ℤ)
  | left (count : ℤ)
  | right (count : ℤ)

/-- The position and the length of the call of `substr`, if one is written. -/
def emitted : Call → Option (ℤ × Option ℤ)
  | .substring start none => if 1 ≤ start then some (start, none) else none
  | .substring start (some length) =>
    if 1 ≤ start ∧ 0 ≤ length then some (start, some length) else none
  | .left count =>
    if 0 ≤ count then if count = 0 then some (1, some 0) else some (1, some count) else none
  | .right count =>
    if 0 ≤ count then if count = 0 then some (1, some 0) else some (-count, none) else none

/-! ### The functions of the extension -/

/-- `SQLiteCharacterCount`. -/
def characterCount (z : List ℕ) : ℕ := z.countP fun b => !isContinuation b

/-- DuckDB's `SubstringUnicode`, for offsets from 1 on. -/
structure SubstringUnicode where
  run : List ℕ → ℤ → ℤ → Except String (List ℕ)
  run_eq : ∀ (s : Text) offset length, 1 ≤ offset → offset ≤ maxUint32 → 0 ≤ length →
    length ≤ maxUint32 → run (encode s.chars) offset length =
      .ok (encode ((s.chars.drop (offset - 1).toNat).take length.toNat))
  run_error : ∀ z offset length, 1 ≤ offset → 0 ≤ length → maxUint32 < offset ∨ maxUint32 < length →
    ∃ message, run z offset length = .error message

variable (unicode : SubstringUnicode)

/-- `SQLiteSubstringFunction`. -/
def substringFunction (z : List ℕ) (offset : ℤ) (length : Option ℤ) : Except String (List ℕ) :=
  unicode.run z offset (length.getD maxUint32)

/-- `SQLiteLeftRightFunction<true>`. -/
def leftFunction (z : List ℕ) (pos : ℤ) : Except String (List ℕ) :=
  let pos := if pos < 0 then max 0 (characterCount z + pos) else pos
  unicode.run z 1 pos

/-- `SQLiteLeftRightFunction<false>`. -/
def rightFunction (z : List ℕ) (pos : ℤ) : Except String (List ℕ) :=
  let num : ℤ := characterCount z
  let len :=
    if 0 ≤ pos then min num pos
    else if pos = -9223372036854775808 then 0
    else num - min num (-pos)
  unicode.run z (num - len + 1) len

def extension : Call → List ℕ → Except String (List ℕ)
  | .substring start length, z => substringFunction unicode z start length
  | .left count, z => leftFunction unicode z count
  | .right count, z => rightFunction unicode z count

/-- For every text, `substr` has the result of the function of the extension, if that has one. -/
def Agrees (call : Call) : Prop :=
  ∀ s : Text, ∀ position length, emitted call = some (position, length) →
    ∀ result, extension unicode call (encode s.chars) = .ok result →
      substrFunc maxLength (encode s.chars) position length = result

/-! ### The literals that are written correctly -/

/-- A start and a length that the extension accepts. -/
def InRange (start : ℤ) : Option ℤ → Prop
  | none => start ≤ 2294967296
  | some length =>
    if start < 2147483648 then
      length < 2147483648 ∨ maxLength ≤ start - 1 - (4294967296 - length)
    else if length < 2147483648 then length = 0 ∨ length + maxLength ≤ 4294967296 - start
    else maxLength ≤ 4294967296 - start

def Fits : Call → Prop
  | .substring start none => start < 1 ∨ maxUint32 < start ∨ InRange start none
  | .substring start (some length) =>
    start < 1 ∨ length < 0 ∨ maxUint32 < start ∨ maxUint32 < length ∨ InRange start (some length)
  | .left count => count < 2147483648 ∨ maxUint32 < count
  | .right count => count ≤ maxLength ∨ valueInt (-count) = 1 ∨ valueInt (-count) = -maxLength

/-! ### What `substr` takes -/

section Take

variable {s : List Char} {start length : ℤ}

theorem valueInt_of_large (hlow : 2147483648 ≤ start) (hhigh : start ≤ maxUint32) :
    valueInt start = start - 4294967296 := by
  rw [maxUint32] at hhigh
  rw [valueInt]
  omega

theorem substrChars_small (hlow : 1 ≤ start) (hhigh : start < 2147483648)
    (hs : (s.length : ℤ) ≤ maxLength) :
    substrChars maxLength s start none = s.drop (start - 1).toNat := by
  rw [substrChars, argumentWindow, valueInt_of_fits (by omega) hhigh]
  dsimp only
  rw [substrWindow_of_pos _ (by omega)]
  refine List.take_of_length_le ?_
  rw [List.length_drop]
  omega

theorem substrChars_small_small (hlow : 1 ≤ start) (hhigh : start < 2147483648) (hnonneg : 0 ≤ length)
    (hlength : length < 2147483648) :
    substrChars maxLength s start (some length) = (s.drop (start - 1).toNat).take length.toNat := by
  rw [substrChars, argumentWindow, valueInt_of_fits (by omega) hhigh,
    valueInt_of_fits (by omega) hlength]
  dsimp only
  rw [if_neg (by omega), substrWindow_of_pos _ (by omega)]

/-- The `m` elements before place `k`, or all of them. -/
theorem take_drop_before {k m : ℤ} (hm : 0 ≤ m) {window : ℤ × ℤ}
    (h : window = if k - m < 0 then (0, k) else (k - m, m)) :
    (s.drop window.1.toNat).take window.2.toNat = (s.take k.toNat).drop (k - m).toNat := by
  rw [h, List.drop_take]
  split_ifs with hbefore
  · have hzero : (k - m).toNat = 0 := by omega
    rw [hzero]
    rfl
  · dsimp only
    congr 1
    omega

/-- A length that is read as a negative number takes what is before the position. -/
theorem substrChars_small_large (hlow : 1 ≤ start) (hhigh : start < 2147483648)
    (hlarge : 2147483648 ≤ length) (hlength : length ≤ maxUint32) :
    substrChars maxLength s start (some length) =
      (s.take (start - 1).toNat).drop (start - 1 - (4294967296 - length)).toNat := by
  have hle := hlength
  rw [maxUint32] at hle
  rw [substrChars, argumentWindow, valueInt_of_fits (by omega) hhigh,
    valueInt_of_large hlarge hlength]
  dsimp only
  rw [if_pos (by omega), neg_sub]
  exact take_drop_before (by omega) (substrWindow_back _ (by omega))

/-- A position that is read as a negative number counts from the end, or it is before the start. -/
theorem substrChars_large (hlarge : 2147483648 ≤ start) (hstart : start ≤ maxUint32)
    (hs : (s.length : ℤ) ≤ maxLength) :
    substrChars maxLength s start none =
      if start - 4294967296 + s.length < 0 then
        s.take (maxLength + (start - 4294967296 + s.length)).toNat
      else s.drop (start - 4294967296 + s.length).toNat := by
  have hle := hstart
  rw [maxUint32] at hle
  rw [substrChars, argumentWindow, valueInt_of_large hlarge hstart]
  dsimp only
  split_ifs with hbefore
  · rw [substrWindow_before _ (Int.natCast_nonneg _) hbefore]
    dsimp only
    rw [Int.toNat_zero, List.drop_zero]
    congr 1
    omega
  · rw [substrWindow_of_neg _ (by omega) (by omega)]
    refine List.take_of_length_le ?_
    rw [List.length_drop]
    omega

theorem substrChars_large_small (hlarge : 2147483648 ≤ start) (hstart : start ≤ maxUint32)
    (hnonneg : 0 ≤ length) (hlength : length < 2147483648) :
    substrChars maxLength s start (some length) =
      if start - 4294967296 + s.length < 0 then
        s.take (length + (start - 4294967296 + s.length)).toNat
      else (s.drop (start - 4294967296 + s.length).toNat).take length.toNat := by
  have hle := hstart
  rw [maxUint32] at hle
  rw [substrChars, argumentWindow, valueInt_of_large hlarge hstart,
    valueInt_of_fits (by omega) hlength]
  dsimp only
  rw [if_neg (by omega)]
  split_ifs with hbefore
  · rw [substrWindow_before _ (Int.natCast_nonneg _) hbefore]
    dsimp only
    rw [Int.toNat_zero, List.drop_zero]
    congr 1
    omega
  · rw [substrWindow_of_neg _ (by omega) (by omega)]

theorem substrChars_large_large (hlarge : 2147483648 ≤ start) (hstart : start ≤ maxUint32)
    (hlarge' : 2147483648 ≤ length) (hlength : length ≤ maxUint32) :
    substrChars maxLength s start (some length) =
      if start - 4294967296 + s.length < 0 then []
      else
        (s.take (start - 4294967296 + s.length).toNat).drop
          (start - 4294967296 + s.length - (4294967296 - length)).toNat := by
  have hle := hstart
  have hle' := hlength
  rw [maxUint32] at hle hle'
  rw [substrChars, argumentWindow, valueInt_of_large hlarge hstart,
    valueInt_of_large hlarge' hlength]
  dsimp only
  rw [if_pos (by omega)]
  split_ifs with hbefore
  · have hnone := substrWindow_back_before (-(length - 4294967296)) (Int.natCast_nonneg s.length)
      hbefore
    rw [hnone, Int.toNat_zero, List.take_zero]
  · rw [neg_sub]
    exact take_drop_before (by omega) (substrWindow_back_of_neg _ (by omega) (by omega))

end Take

/-! ### Texts of a given length -/

theorem length_encode_replicate (n : ℕ) (c : Char) (hc : c.toNat < 0x80) :
    (encode (List.replicate n c)).length = n := by
  induction n with
  | zero => rfl
  | succ n ih =>
    rw [List.replicate_succ, encode_cons, encodeChar_of_lt hc, List.length_append, ih,
      List.length_singleton, Nat.add_comm]

def Text.replicate (n : ℕ) (h : (n : ℤ) ≤ maxLength) : Text where
  chars := List.replicate n 'a'
  notMem hmem := absurd (List.eq_of_mem_replicate hmem) (by decide)
  size_le := by rwa [length_encode_replicate n 'a' (by decide)]

def Text.replicateAppend (n : ℕ) (h : (n : ℤ) + 1 ≤ maxLength) : Text where
  chars := List.replicate n 'a' ++ ['b']
  notMem hmem := by
    rcases List.mem_append.mp hmem with hmem | hmem
    · exact absurd (List.eq_of_mem_replicate hmem) (by decide)
    · exact absurd (List.mem_singleton.mp hmem) (by decide)
  size_le := by
    rw [encode_append, List.length_append, length_encode_replicate n 'a' (by decide)]
    exact h

theorem Text.exists_maximal : ∃ s : Text, (s.chars.length : ℤ) = maxLength := by
  obtain ⟨n, hn⟩ : ∃ n : ℕ, (n : ℤ) = maxLength := ⟨1000000000, rfl⟩
  exact ⟨.replicate n hn.le, by rw [Text.replicate, List.length_replicate, hn]⟩

/-! ### `substring` -/

section Substring

variable {start length : ℤ}

/-- Texts are shorter than a large start. -/
theorem Text.drop_large (s : Text) (hlarge : 2147483648 ≤ start) :
    s.chars.drop (start - 1).toNat = [] := by
  have hlength := s.length_le
  rw [maxLength] at hlength
  exact List.drop_of_length_le (by omega)

theorem substring_none_iff (hlow : 1 ≤ start) (hstart : start ≤ maxUint32) :
    (∀ s : Text, substrChars maxLength s.chars start none = s.chars.drop (start - 1).toNat) ↔
      start ≤ 2294967296 := by
  have hmax : maxLength = 1000000000 := rfl
  rcases lt_or_ge start 2147483648 with hsmall | hlarge
  · exact iff_of_true (fun s => substrChars_small hlow hsmall s.length_le) (by omega)
  · constructor
    · intro h
      obtain ⟨s, hs⟩ := Text.exists_maximal
      have hnil := (h s).trans (s.drop_large hlarge)
      rw [substrChars_large hlarge hstart s.length_le] at hnil
      rw [maxUint32] at hstart
      split_ifs at hnil with hbefore
      · rw [List.take_eq_nil_iff, ← List.length_eq_zero_iff] at hnil
        omega
      · rw [List.drop_eq_nil_iff] at hnil
        omega
    · intro hle s
      have := s.length_le
      rw [s.drop_large hlarge, substrChars_large hlarge hstart s.length_le, if_pos (by omega)]
      exact List.take_eq_nil_iff.mpr (.inl (by omega))

/-- A large length takes what is before the start. -/
theorem substring_small_large_iff (hlow : 1 ≤ start) (hsmall : start < 2147483648)
    (hlarge : 2147483648 ≤ length) (hlength : length ≤ maxUint32) :
    (∀ s : Text, substrChars maxLength s.chars start (some length) =
        (s.chars.drop (start - 1).toNat).take length.toNat) ↔
      maxLength ≤ start - 1 - (4294967296 - length) := by
  have hmax : maxLength = 1000000000 := rfl
  have hle := hlength
  rw [maxUint32] at hle
  simp only [substrChars_small_large hlow hsmall hlarge hlength]
  constructor
  · intro h
    rcases lt_or_ge maxLength start with hbeyond | hwithin
    · -- a text that ends before the start
      obtain ⟨s, hs⟩ := Text.exists_maximal
      have heq := congrArg List.length (h s)
      rw [List.length_drop, List.length_take, List.length_take, List.length_drop] at heq
      omega
    · -- a text that ends with another character, at the start
      obtain ⟨n, hn⟩ : ∃ n : ℕ, (n : ℤ) = start - 1 := ⟨(start - 1).toNat, by omega⟩
      have heq := h (.replicateAppend n (by omega))
      rw [← hn, Int.toNat_natCast, Text.replicateAppend] at heq
      dsimp only at heq
      rw [List.take_left' (List.length_replicate), List.drop_left' (List.length_replicate),
        List.take_of_length_le (by rw [List.length_singleton]; omega), List.drop_replicate] at heq
      have hmem : 'b' ∈ List.replicate (n - ((n : ℤ) - (4294967296 - length)).toNat) 'a' :=
        heq ▸ List.mem_cons_self
      exact absurd (List.eq_of_mem_replicate hmem) (by decide)
  · intro h s
    have := s.length_le
    rw [List.drop_of_length_le (i := (start - 1).toNat) (by omega), List.take_nil,
      List.drop_eq_nil_iff, List.length_take]
    omega

/-- A large start counts from the end. -/
theorem substring_large_small_iff (hlarge : 2147483648 ≤ start) (hstart : start ≤ maxUint32)
    (hnonneg : 0 ≤ length) (hsmall : length < 2147483648) :
    (∀ s : Text, substrChars maxLength s.chars start (some length) =
        (s.chars.drop (start - 1).toNat).take length.toNat) ↔
      length = 0 ∨ length + maxLength ≤ 4294967296 - start := by
  have hmax : maxLength = 1000000000 := rfl
  simp only [substrChars_large_small hlarge hstart hnonneg hsmall, Text.drop_large _ hlarge,
    List.take_nil]
  rw [maxUint32] at hstart
  constructor
  · intro h
    obtain ⟨s, hs⟩ := Text.exists_maximal
    have hnil := h s
    split_ifs at hnil with hbefore
    · rw [List.take_eq_nil_iff, ← List.length_eq_zero_iff] at hnil
      omega
    · rw [List.take_eq_nil_iff, List.drop_eq_nil_iff] at hnil
      omega
  · intro h s
    have := s.length_le
    split_ifs with hbefore
    · exact List.take_eq_nil_iff.mpr (.inl (by omega))
    · exact List.take_eq_nil_iff.mpr (.inl (by omega))

theorem substring_large_large_iff (hlarge : 2147483648 ≤ start) (hstart : start ≤ maxUint32)
    (hlarge' : 2147483648 ≤ length) (hlength : length ≤ maxUint32) :
    (∀ s : Text, substrChars maxLength s.chars start (some length) =
        (s.chars.drop (start - 1).toNat).take length.toNat) ↔
      maxLength ≤ 4294967296 - start := by
  have hmax : maxLength = 1000000000 := rfl
  simp only [substrChars_large_large hlarge hstart hlarge' hlength, Text.drop_large _ hlarge,
    List.take_nil]
  rw [maxUint32] at hstart hlength
  constructor
  · intro h
    obtain ⟨s, hs⟩ := Text.exists_maximal
    have hnil := h s
    split_ifs at hnil with hbefore
    · omega
    · rw [List.drop_eq_nil_iff, List.length_take] at hnil
      omega
  · intro h s
    have := s.length_le
    split_ifs with hbefore
    · rfl
    · rw [List.drop_eq_nil_iff, List.length_take]
      omega

/-- **`substr` is `substring` for all texts, exactly if the literals are in range.** -/
theorem substring_iff (hlow : 1 ≤ start) (hstart : start ≤ maxUint32) (hnonneg : 0 ≤ length)
    (hlength : length ≤ maxUint32) :
    (∀ s : Text, substrChars maxLength s.chars start (some length) =
        (s.chars.drop (start - 1).toNat).take length.toNat) ↔
      InRange start (some length) := by
  rw [InRange]
  rcases lt_or_ge start 2147483648 with hsmall | hlarge
  · rw [if_pos hsmall]
    rcases lt_or_ge length 2147483648 with hsmall' | hlarge'
    · exact iff_of_true (fun s => substrChars_small_small hlow hsmall hnonneg hsmall')
        (.inl hsmall')
    · rw [substring_small_large_iff hlow hsmall hlarge' hlength, or_iff_right (by omega)]
  · rw [if_neg (by omega)]
    rcases lt_or_ge length 2147483648 with hsmall' | hlarge'
    · rw [if_pos hsmall', substring_large_small_iff hlarge hstart hnonneg hsmall']
    · rw [if_neg (by omega), substring_large_large_iff hlarge hstart hlarge' hlength]

end Substring

/-! ### `right` -/

section Right

variable {count : ℤ}

/-- What `substr` takes, by the position that it reads. -/
theorem substrChars_position (s : Text) (position : ℤ) :
    substrChars maxLength s.chars position none =
      if valueInt position < 0 then
        if valueInt position + s.chars.length < 0 then
          s.chars.take (maxLength + (valueInt position + s.chars.length)).toNat
        else s.chars.drop (valueInt position + s.chars.length).toNat
      else if valueInt position = 0 then s.chars.take (maxLength - 1).toNat
      else s.chars.drop (valueInt position - 1).toNat := by
  have hlength := s.length_le
  have hmax : maxLength = 1000000000 := rfl
  obtain ⟨q, hq⟩ : ∃ q, valueInt position = q := ⟨_, rfl⟩
  rw [substrChars, argumentWindow, hq]
  dsimp only
  split_ifs with hneg hbefore hzero
  · rw [substrWindow_before _ (Int.natCast_nonneg _) hbefore]
    dsimp only
    rw [Int.toNat_zero, List.drop_zero]
    congr 1
    omega
  · rw [substrWindow_of_neg _ hneg (by omega)]
    refine List.take_of_length_le ?_
    rw [List.length_drop]
    omega
  · rw [hzero]
    rfl
  · rw [substrWindow_of_pos _ (by omega)]
    refine List.take_of_length_le ?_
    rw [List.length_drop]
    omega

theorem right_of_le (hpos : 1 ≤ count) (hle : count ≤ maxLength) (s : Text) :
    substrChars maxLength s.chars (-count) none = s.chars.drop (s.chars.length - count).toNat := by
  have hmax : maxLength = 1000000000 := rfl
  rw [substrChars_position, valueInt_of_fits (by omega) (by omega), if_pos (by omega)]
  split_ifs with hbefore
  · have hzero : (s.chars.length - count).toNat = 0 := by omega
    rw [hzero, List.drop_zero]
    exact List.take_of_length_le (by omega)
  · congr 1
    omega

/-- Beyond the limit of the length of texts, only two positions give the whole text. -/
theorem right_of_gt (hlt : maxLength < count) :
    (∀ s : Text, substrChars maxLength s.chars (-count) none =
        s.chars.drop (s.chars.length - count).toNat) ↔
      valueInt (-count) = 1 ∨ valueInt (-count) = -maxLength := by
  have hmax : maxLength = 1000000000 := rfl
  have hwhole : ∀ s : Text, s.chars.drop (s.chars.length - count).toNat = s.chars := fun s => by
    have hlength := s.length_le
    have hzero : (s.chars.length - count).toNat = 0 := by omega
    rw [hzero, List.drop_zero]
  simp only [hwhole, substrChars_position]
  obtain ⟨q, hq⟩ : ∃ q, valueInt (-count) = q := ⟨_, rfl⟩
  rw [hq]
  constructor
  · intro h
    obtain ⟨s, hs⟩ := Text.exists_maximal
    have heq := congrArg List.length (h s)
    split_ifs at heq with hneg hbefore hzero
    · rw [List.length_take] at heq
      omega
    · rw [List.length_drop] at heq
      omega
    · rw [List.length_take] at heq
      omega
    · rw [List.length_drop] at heq
      omega
  · rintro (rfl | rfl) s
    · rfl
    · have hlength := s.length_le
      rw [if_pos (by omega)]
      split_ifs with hbefore
      · exact List.take_of_length_le (by omega)
      · have hzero : (-maxLength + s.chars.length).toNat = 0 := by omega
        rw [hzero, List.drop_zero]

end Right

/-! ### The calls -/

section Calls

variable {unicode} {call : Call} {position : ℤ} {length : Option ℤ}

theorem agrees_of_eq_none (h : emitted call = none) : Agrees unicode call := by
  intro s position length hemitted
  rw [h] at hemitted
  cases hemitted

theorem agrees_of_error (h : ∀ s : Text, ∃ message,
    extension unicode call (encode s.chars) = .error message) : Agrees unicode call := by
  intro s position length _ result hresult
  obtain ⟨message, herror⟩ := h s
  rw [herror] at hresult
  cases hresult

/-- The results are compared character by character. -/
theorem agrees_iff_chars (hemitted : emitted call = some (position, length))
    {f : List Char → List Char}
    (hextension : ∀ s : Text, extension unicode call (encode s.chars) = .ok (encode (f s.chars))) :
    Agrees unicode call ↔ ∀ s : Text, substrChars maxLength s.chars position length = f s.chars := by
  have hsubstr : ∀ s : Text, substrFunc maxLength (encode s.chars) position length =
      encode (substrChars maxLength s.chars position length) := fun s => by
    rw [substrFunc_encode, upToNul_of_notMem s.notMem]
  constructor
  · intro h s
    refine encode_injective ?_
    rw [← hsubstr]
    exact h s position length hemitted _ (hextension s)
  · intro h s position' length' hemitted' result hresult
    rw [hemitted] at hemitted'
    cases hemitted'
    rw [hextension s] at hresult
    cases hresult
    rw [hsubstr, h s]

theorem characterCount_encode (s : List Char) : characterCount (encode s) = s.length := by
  induction s with
  | nil => rfl
  | cons c s ih =>
    obtain ⟨b, bs, hb, hfirst, hbs⟩ := encodeChar_eq_cons c
    have hrest : bs.countP (fun b => !isContinuation b) = 0 := by
      rw [List.countP_eq_zero]
      intro x hx
      rw [hbs x hx]
      decide
    rw [characterCount] at ih ⊢
    rw [encode_cons, hb, List.countP_append, List.countP_cons, hrest, hfirst, ih, List.length_cons]
    simp [Nat.add_comm]

theorem agrees_substring_none (start : ℤ) :
    Agrees unicode (.substring start none) ↔ Fits (.substring start none) := by
  rw [Fits, InRange]
  rcases lt_or_ge start 1 with hlow | hlow
  · exact iff_of_true (agrees_of_eq_none (if_neg (by omega))) (.inl hlow)
  rcases lt_or_ge maxUint32 start with hhigh | hhigh
  · refine iff_of_true (agrees_of_error fun s => ?_) (.inr (.inl hhigh))
    exact unicode.run_error _ _ _ hlow (by decide) (.inl hhigh)
  · have hextension : ∀ s : Text, extension unicode (.substring start none) (encode s.chars) =
        .ok (encode (s.chars.drop (start - 1).toNat)) := fun s => by
      have hrun := unicode.run_eq s start maxUint32 hlow hhigh (by decide) le_rfl
      have hlength := s.length_le
      have hmax : maxLength = 1000000000 := rfl
      have hmax' : maxUint32 = 4294967295 := rfl
      rw [List.take_of_length_le (by rw [List.length_drop]; omega)] at hrun
      exact hrun
    have hemitted : emitted (.substring start none) = some (start, none) := if_pos hlow
    rw [agrees_iff_chars hemitted (f := fun s => s.drop (start - 1).toNat) hextension,
      substring_none_iff hlow hhigh]
    omega

theorem agrees_substring_some (start length : ℤ) :
    Agrees unicode (.substring start (some length)) ↔ Fits (.substring start (some length)) := by
  rw [Fits]
  rcases lt_or_ge start 1 with hlow | hlow
  · exact iff_of_true (agrees_of_eq_none (if_neg (by omega))) (.inl hlow)
  rcases lt_or_ge length 0 with hnonneg | hnonneg
  · exact iff_of_true (agrees_of_eq_none (if_neg (by omega))) (.inr (.inl hnonneg))
  rcases lt_or_ge maxUint32 start with hhigh | hhigh
  · refine iff_of_true (agrees_of_error fun s => ?_) (.inr (.inr (.inl hhigh)))
    exact unicode.run_error _ _ _ hlow hnonneg (.inl hhigh)
  rcases lt_or_ge maxUint32 length with hlength | hlength
  · refine iff_of_true (agrees_of_error fun s => ?_) (.inr (.inr (.inr (.inl hlength))))
    exact unicode.run_error _ _ _ hlow hnonneg (.inr hlength)
  · have hemitted : emitted (.substring start (some length)) = some (start, some length) :=
      if_pos ⟨hlow, hnonneg⟩
    have hextension : ∀ s : Text, extension unicode (.substring start (some length)) (encode s.chars) =
        .ok (encode ((s.chars.drop (start - 1).toNat).take length.toNat)) :=
      fun s => unicode.run_eq s start length hlow hhigh hnonneg hlength
    rw [agrees_iff_chars hemitted (f := fun s => (s.drop (start - 1).toNat).take length.toNat)
      hextension, substring_iff hlow hhigh hnonneg hlength]
    exact ⟨fun h => .inr (.inr (.inr (.inr h))), by
      rintro (h | h | h | h | h)
      · omega
      · omega
      · omega
      · omega
      · exact h⟩

theorem agrees_left (count : ℤ) : Agrees unicode (.left count) ↔ Fits (.left count) := by
  have hmax : maxLength = 1000000000 := rfl
  rw [Fits]
  rcases lt_or_ge count 0 with hneg | hnonneg
  · exact iff_of_true (agrees_of_eq_none (if_neg (by omega))) (.inl (by omega))
  have hemitted : emitted (.left count) = some (1, some count) := by
    rw [emitted, if_pos hnonneg]
    split_ifs with hzero
    · rw [hzero]
    · rfl
  have hrun : ∀ s : Text, extension unicode (.left count) (encode s.chars) =
      unicode.run (encode s.chars) 1 count := fun s => by
    rw [extension, leftFunction, if_neg (by omega)]
  rcases lt_or_ge maxUint32 count with hhigh | hhigh
  · refine iff_of_true (agrees_of_error fun s => ?_) (.inr hhigh)
    rw [hrun]
    exact unicode.run_error _ _ _ le_rfl hnonneg (.inr hhigh)
  · have hextension : ∀ s : Text, extension unicode (.left count) (encode s.chars) =
        .ok (encode ((s.chars.drop (1 - 1 : ℤ).toNat).take count.toNat)) := fun s => by
      rw [hrun, unicode.run_eq s 1 count le_rfl (by decide) hnonneg hhigh]
    rw [agrees_iff_chars hemitted (f := fun s => (s.drop (1 - 1 : ℤ).toNat).take count.toNat)
      hextension, substring_iff le_rfl (by decide) hnonneg hhigh, InRange, if_pos (by decide)]
    rw [maxUint32] at hhigh ⊢
    omega

/-- The function of the extension takes the last characters, without an error. -/
theorem extension_right {count : ℤ} (hnonneg : 0 ≤ count) (s : Text) :
    extension unicode (.right count) (encode s.chars) =
      .ok (encode (s.chars.drop (s.chars.length - count).toNat)) := by
  have hlength := s.length_le
  have hmax : maxLength = 1000000000 := rfl
  have hmax' : maxUint32 = 4294967295 := rfl
  rw [extension, rightFunction, characterCount_encode, if_pos hnonneg]
  obtain ⟨n, hn⟩ : ∃ n : ℤ, min (s.chars.length : ℤ) count = n := ⟨_, rfl⟩
  rw [hn]
  rw [unicode.run_eq s _ _ (by omega) (by omega) (by omega) (by omega), Int.add_sub_cancel]
  have hstart : (s.chars.length - n).toNat = (s.chars.length - count).toNat := by omega
  rw [hstart, List.take_of_length_le (by rw [List.length_drop]; omega)]

theorem agrees_right (count : ℤ) : Agrees unicode (.right count) ↔ Fits (.right count) := by
  have hmax : maxLength = 1000000000 := rfl
  rw [Fits]
  rcases lt_or_ge count 0 with hneg | hnonneg
  · exact iff_of_true (agrees_of_eq_none (if_neg (by omega))) (.inl (by omega))
  have hextension : ∀ s : Text, extension unicode (.right count) (encode s.chars) =
      .ok (encode (s.chars.drop (s.chars.length - count).toNat)) := extension_right hnonneg
  have hchars {position : ℤ} {length : Option ℤ}
      (hemitted : emitted (.right count) = some (position, length)) :=
    agrees_iff_chars (f := fun s => s.drop (s.length - count).toNat) hemitted hextension
  by_cases hzero : count = 0
  · have hemitted : emitted (.right count) = some (1, some 0) := by
      rw [emitted, if_pos hnonneg, if_pos hzero]
    rw [hchars hemitted]
    refine iff_of_true (fun s => ?_) (.inl (by omega))
    rw [substrChars_small_small le_rfl (by decide) le_rfl (by decide), hzero]
    simp
  · have hemitted : emitted (.right count) = some (-count, none) := by
      rw [emitted, if_pos hnonneg, if_neg hzero]
    rw [hchars hemitted]
    rcases le_or_gt count maxLength with hle | hgt
    · exact iff_of_true (right_of_le (by omega) hle) (.inl hle)
    · rw [right_of_gt hgt, or_iff_right (a := count ≤ maxLength) (by omega)]

end Calls

/-- **The results of `substr` and of the extension agree on all texts, exactly for these literals.** -/
theorem agrees_iff (call : Call) : Agrees unicode call ↔ Fits call := by
  cases call with
  | substring start length =>
    cases length with
    | none => exact agrees_substring_none start
    | some length => exact agrees_substring_some start length
  | left count => exact agrees_left count
  | right count => exact agrees_right count

/-- Offsets and lengths with up to 32 bits, and characters that are counted by their bytes. -/
def countingUnicode : SubstringUnicode where
  run z offset length :=
    if maxUint32 < offset ∨ maxUint32 < length then .error "Substring offset outside of supported range"
    else .ok (takeChars (offset - 1).toNat length.toNat z)
  run_eq s offset length _ hoffset _ hlength := by
    rw [if_neg (by omega)]
    have htake := takeChars_encode_append s.notMem (r := []) rfl (offset - 1).toNat length.toNat
    rw [List.append_nil] at htake
    rw [htake]
  run_error z offset length _ _ h := ⟨_, if_pos h⟩

/-- `right('hello', 2000000000)` is written as `substr('hello', -2000000000)`, which is empty. -/
theorem large_count :
    let hello : Text := ⟨"hello".toList, by decide, by decide⟩
    emitted (.right 2000000000) = some (-2000000000, none) ∧
      substrFunc maxLength (encode hello.chars) (-2000000000) none = [] ∧
      extension countingUnicode (.right 2000000000) (encode hello.chars) = .ok (encode hello.chars) ∧
      ¬ Agrees countingUnicode (.right 2000000000) := by
  intro hello
  have hemitted : emitted (.right 2000000000) = some (-2000000000, none) := by decide
  have hsubstr : substrFunc maxLength (encode hello.chars) (-2000000000) none = [] := by decide
  have hextension : extension countingUnicode (.right 2000000000) (encode hello.chars) =
      .ok (encode hello.chars) := extension_right (by decide) hello
  refine ⟨hemitted, hsubstr, hextension, fun h => ?_⟩
  have heq := h hello _ _ hemitted _ hextension
  rw [hsubstr] at heq
  exact absurd heq (by decide)

end SqliteScanner.Scalars.Substring
