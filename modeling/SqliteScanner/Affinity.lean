import SqliteScanner.Internal.Rolling
import SqliteScanner.OnConflict

/-!
# The affinity of a declared type

What a column stores depends on its declared type. SQLite finds the affinity in one pass over the bytes
of the type: it keeps the last four bytes in a number, compares that with the words it knows, and lets
a later word override an earlier one by rules of its own; at `int` it stops.

The extension needs to know whether the affinity is `TEXT` or `REAL`, and asks which words the type
contains, wherever they are. `affinityType_eq` says that the pass comes to the same: among the words
of a type the order does not matter, but only their ranks. So the tests of the extension are those of
SQLite, for all bytes (`affinity_tests_agree`).

## Main definitions

* `affinityType` — SQLite's pass over the declared type
* `hasTextAffinity`, `hasRealAffinity` — the tests of the extension
* `wordAffinity` — the affinity by the words that a type contains

## Main results

* `affinityLoop_eq` — what the pass has found, and what is still to come
* `affinity_tests_agree`
-/

namespace SqliteScanner.Affinity

open OnConflict (Affinity)

/-! ### Declared types -/

/-- The bytes of a text of ASCII characters. -/
def bytes (text : String) : List UInt8 := text.toList.map fun c => c.toNat.toUInt8

/-- A C string ends before its first `NUL`. -/
def cString (memory : List UInt8) : List UInt8 := memory.takeWhile (· ≠ 0)

/-- `StringUtil::CharacterToLower`, and the table `sqlite3UpperToLower`. -/
def lowerByte (c : UInt8) : UInt8 := if 65 ≤ c ∧ c ≤ 90 then c + 32 else c

/-- `StringUtil::Lower`. -/
def lower (text : List UInt8) : List UInt8 := text.map lowerByte

/-- `StringUtil::CharacterIsSpace`. -/
def isSpace (c : UInt8) : Bool := c = 32 || (9 ≤ c && c ≤ 13)

/-- `StringUtil::Trim`. -/
def trim (text : List UInt8) : List UInt8 :=
  ((text.dropWhile isSpace).reverse.dropWhile isSpace).reverse

/-- `StringUtil::Contains`. -/
def contains (text part : List UInt8) : Bool := text.tails.any fun rest => part.isPrefixOf rest

/-! ### The tests of the extension -/

/-- `SQLiteUtils::HasTextAffinity`. -/
def hasTextAffinity (type : List UInt8) : Bool :=
  if contains type (bytes "int") then false
  else contains type (bytes "char") || contains type (bytes "clob") || contains type (bytes "text")

/-- The test of `SQLiteDB::GetRealAffinity`. -/
def hasRealAffinity (type : List UInt8) : Bool :=
  !contains type (bytes "int") && !contains type (bytes "char") && !contains type (bytes "clob") &&
    !contains type (bytes "text") && !contains type (bytes "blob") &&
    (contains type (bytes "real") || contains type (bytes "floa") || contains type (bytes "doub"))

/-! ### SQLite's pass -/

/-- A word as a number, of which the last byte is the lowest. -/
def pack (word : List UInt8) : ℕ := word.foldl (fun h c => h * 256 + c.toNat) 0

/-- The loop of `sqlite3AffinityType`. The hash has 32 bits. -/
def affinityLoop : ℕ → Affinity → List UInt8 → Affinity
  | _, aff, [] => aff
  | h, aff, c :: zIn =>
    if c = 0 then aff
    else
      let h := (h * 256 + (lowerByte c).toNat) % 4294967296
      if h = pack (bytes "char") then affinityLoop h .text zIn
      else if h = pack (bytes "clob") then affinityLoop h .text zIn
      else if h = pack (bytes "text") then affinityLoop h .text zIn
      else if h = pack (bytes "blob") ∧ (aff = .numeric ∨ aff = .real) then
        affinityLoop h .blob zIn
      else if h = pack (bytes "real") ∧ aff = .numeric then affinityLoop h .real zIn
      else if h = pack (bytes "floa") ∧ aff = .numeric then affinityLoop h .real zIn
      else if h = pack (bytes "doub") ∧ aff = .numeric then affinityLoop h .real zIn
      else if h % 16777216 = pack (bytes "int") then .integer
      else affinityLoop h aff zIn

/-- `sqlite3AffinityType`. -/
def affinityType (zIn : List UInt8) : Affinity := affinityLoop 0 .numeric zIn

/-! ### The words of a type -/

theorem contains_eq_true {text part : List UInt8} : contains text part = true ↔ part <:+: text := by
  simp only [contains, List.any_eq_true, List.mem_tails, List.isPrefixOf_iff_prefix]
  constructor
  · rintro ⟨rest, hsuffix, hprefix⟩
    exact hprefix.isInfix.trans hsuffix.isInfix
  · intro hinfix
    obtain ⟨rest, hprefix, hsuffix⟩ := List.infix_iff_prefix_suffix.mp hinfix
    exact ⟨rest, hsuffix, hprefix⟩

/-- The affinity by the rank of the words that have been found. -/
def classify (int text blob real : Bool) : Affinity :=
  if int then .integer else if text then .text else if blob then .blob
  else if real then .real else .numeric

def containsText (type : List UInt8) : Bool :=
  contains type (bytes "char") || contains type (bytes "clob") || contains type (bytes "text")

def containsReal (type : List UInt8) : Bool :=
  contains type (bytes "real") || contains type (bytes "floa") || contains type (bytes "doub")

/-- The affinity by the words that a type contains. -/
def wordAffinity (type : List UInt8) : Affinity :=
  classify (contains type (bytes "int")) (containsText type) (contains type (bytes "blob"))
    (containsReal type)

theorem pack_eq (word : List UInt8) :
    pack word = Nat.ofDigits 256 (word.reverse.map UInt8.toNat) := by
  induction word using List.reverseRecOn with
  | nil => rfl
  | append_singleton word c ih =>
    rw [pack, List.foldl_append, List.reverse_append, ← pack, ih]
    simp only [List.foldl_cons, List.foldl_nil, List.reverse_singleton, List.singleton_append,
      List.map_cons, Nat.ofDigits_cons]
    omega

/-! ### The words that have just been read

The bytes that have been read are kept in lower case, the latest first. -/

/-- Whether a word has just been read. -/
def ends (word seen : List UInt8) : Bool := word.reverse.isPrefixOf seen

theorem contains_reverse_cons (word seen : List UInt8) (c : UInt8) :
    contains (c :: seen).reverse word = (ends word (c :: seen) || contains seen.reverse word) := by
  rw [Bool.eq_iff_iff, Bool.or_eq_true, contains_eq_true, contains_eq_true, ends,
    List.isPrefixOf_iff_prefix, List.reverse_cons, List.infix_concat_iff, ← List.reverse_cons,
    ← List.reverse_prefix, List.reverse_reverse]

theorem digits_of_not_mem {seen : List UInt8} (hseen : 0 ∉ seen) :
    Rolling.Digits 256 UInt8.toNat seen := by
  refine ⟨fun a _ => a.toNat_lt, fun a ha hzero => hseen ?_⟩
  have heq : a = 0 := UInt8.toNat_inj.mp hzero
  rwa [heq] at ha

/-- The four bytes of a type that SQLite keeps. -/
abbrev hash (seen : List UInt8) : ℕ := Rolling.window 256 UInt8.toNat 4 seen

section Reading

variable {seen : List UInt8} (hseen : 0 ∉ seen)

include hseen

theorem window_eq_pack {word : List UInt8} (hword : 0 ∉ word) :
    Rolling.window 256 UInt8.toNat word.length seen = pack word ↔ ends word seen = true := by
  have hreverse : 0 ∉ word.reverse := fun hzero => hword (List.mem_reverse.mp hzero)
  rw [pack_eq, ends, List.isPrefixOf_iff_prefix, ← List.length_reverse]
  exact Rolling.window_eq_iff (by decide) (fun _ _ => UInt8.toNat_inj.mp)
    (digits_of_not_mem hreverse) (digits_of_not_mem hseen)

theorem hash_cons {c : UInt8} (hc : c ≠ 0) :
    (hash seen * 256 + c.toNat) % 4294967296 = hash (c :: seen) :=
  Rolling.window_cons (by decide) 4
    (digits_of_not_mem (List.not_mem_cons_of_ne_of_not_mem hc.symm hseen)).lt

theorem hash_mod : hash seen % 16777216 = Rolling.window 256 UInt8.toNat 3 seen :=
  Rolling.window_mod (by decide) (show 3 ≤ 4 by decide) (digits_of_not_mem hseen).lt

end Reading

/-- Two words cannot both have been read last, if neither ends with the other. -/
theorem ends_eq_false {word seen : List UInt8} (h : ends word seen = true) (other : List UInt8)
    (hwords : ends word other.reverse = false ∧ ends other word.reverse = false) :
    ends other seen = false := by
  simp only [ends, Bool.eq_false_iff, ne_eq, List.isPrefixOf_iff_prefix] at h hwords ⊢
  intro hother
  exact (List.prefix_or_prefix_of_prefix h hother).elim hwords.1 hwords.2

/-- The affinity after a word that does not end the pass. -/
def nextAffinity (aff : Affinity) (text blob real : Bool) : Affinity :=
  if text then .text
  else if blob ∧ (aff = .numeric ∨ aff = .real) then .blob
  else if real ∧ aff = .numeric then .real
  else aff

theorem nextAffinity_classify : ∀ text blob real text' blob' real' : Bool,
    nextAffinity (classify false text blob real) text' blob' real' =
      classify false (text' || text) (blob' || blob) (real' || real) := by
  decide

def endsText (seen : List UInt8) : Bool :=
  ends (bytes "char") seen || ends (bytes "clob") seen || ends (bytes "text") seen

def endsReal (seen : List UInt8) : Bool :=
  ends (bytes "real") seen || ends (bytes "floa") seen || ends (bytes "doub") seen

/-- **One step of the pass.** -/
theorem affinityLoop_cons {seen : List UInt8} (hseen : 0 ∉ seen) {c : UInt8} (hc : c ≠ 0)
    (hlower : lowerByte c ≠ 0) (aff : Affinity) (zIn : List UInt8) :
    affinityLoop (hash seen) aff (c :: zIn) =
      if ends (bytes "int") (lowerByte c :: seen) then .integer
      else affinityLoop (hash (lowerByte c :: seen))
        (nextAffinity aff (endsText (lowerByte c :: seen)) (ends (bytes "blob") (lowerByte c :: seen))
          (endsReal (lowerByte c :: seen))) zIn := by
  have hread : 0 ∉ lowerByte c :: seen := List.not_mem_cons_of_ne_of_not_mem hlower.symm hseen
  have hfour : ∀ word : List UInt8, word.length = 4 → 0 ∉ word →
      (hash (lowerByte c :: seen) = pack word ↔ ends word (lowerByte c :: seen) = true) := by
    intro word hlength hword
    rw [← window_eq_pack hread hword, hlength]
  have hint : hash (lowerByte c :: seen) % 16777216 = pack (bytes "int") ↔
      ends (bytes "int") (lowerByte c :: seen) = true := by
    rw [hash_mod hread]
    exact window_eq_pack hread (show 0 ∉ bytes "int" from by decide)
  rw [affinityLoop, if_neg hc]
  dsimp only
  rw [hash_cons hseen hlower]
  simp only [hfour (bytes "char") rfl (by decide), hfour (bytes "clob") rfl (by decide),
    hfour (bytes "text") rfl (by decide), hfour (bytes "blob") rfl (by decide),
    hfour (bytes "real") rfl (by decide), hfour (bytes "floa") rfl (by decide),
    hfour (bytes "doub") rfl (by decide), hint, endsText, endsReal, nextAffinity]
  by_cases hends : ends (bytes "int") (lowerByte c :: seen) = true
  · -- no other word has been read
    simp [hends, ends_eq_false hends (bytes "char") (by decide),
      ends_eq_false hends (bytes "clob") (by decide), ends_eq_false hends (bytes "text") (by decide),
      ends_eq_false hends (bytes "blob") (by decide), ends_eq_false hends (bytes "real") (by decide),
      ends_eq_false hends (bytes "floa") (by decide), ends_eq_false hends (bytes "doub") (by decide)]
  · grind

/-! ### The whole pass -/

theorem lowerByte_ne_zero {c : UInt8} (hc : c ≠ 0) : lowerByte c ≠ 0 := by
  rw [lowerByte]
  split
  case isTrue hupper =>
    have hlower : 65 ≤ c.toNat ∧ c.toNat ≤ 90 :=
      ⟨UInt8.le_iff_toNat_le.mp hupper.1, UInt8.le_iff_toNat_le.mp hupper.2⟩
    intro hzero
    have htoNat : (c.toNat + 32) % 256 = 0 := congrArg UInt8.toNat hzero
    omega
  case isFalse => exact hc

theorem wordAffinity_cons {seen : List UInt8} {c : UInt8}
    (hseen : contains seen.reverse (bytes "int") = false) (hc : ends (bytes "int") (c :: seen) = false) :
    wordAffinity (c :: seen).reverse =
      nextAffinity (wordAffinity seen.reverse) (endsText (c :: seen)) (ends (bytes "blob") (c :: seen))
        (endsReal (c :: seen)) := by
  simp only [wordAffinity, containsText, containsReal, contains_reverse_cons, hseen, hc, Bool.or_false,
    nextAffinity_classify, endsText, endsReal]
  congr 1 <;> ac_rfl

/-- **The pass finds the word of the highest rank**, from what has been read and what is to come. -/
theorem affinityLoop_eq (zIn : List UInt8) {seen : List UInt8} (hseen : 0 ∉ seen)
    (hint : contains seen.reverse (bytes "int") = false) :
    affinityLoop (hash seen) (wordAffinity seen.reverse) zIn =
      wordAffinity (seen.reverse ++ lower (cString zIn)) := by
  induction zIn generalizing seen with
  | nil => rw [affinityLoop, cString, List.takeWhile_nil, lower, List.map_nil, List.append_nil]
  | cons c zIn ih =>
    by_cases hc : c = 0
    · rw [affinityLoop, if_pos hc, cString, List.takeWhile_cons_of_neg (by simpa using hc), lower,
        List.map_nil, List.append_nil]
    · have hread : seen.reverse ++ lower (cString (c :: zIn)) =
          (lowerByte c :: seen).reverse ++ lower (cString zIn) := by
        rw [cString, List.takeWhile_cons_of_pos (by simpa using hc), lower, List.map_cons,
          List.reverse_cons, List.append_assoc, List.singleton_append, lower, cString]
      rw [affinityLoop_cons hseen hc (lowerByte_ne_zero hc), hread]
      split
      case isTrue hends =>
        -- nothing that follows changes the affinity
        have hcontains : contains ((lowerByte c :: seen).reverse ++ lower (cString zIn))
            (bytes "int") = true := by
          have hnow : contains (lowerByte c :: seen).reverse (bytes "int") = true := by
            rw [contains_reverse_cons, hends, Bool.true_or]
          rw [contains_eq_true] at hnow ⊢
          exact hnow.trans (List.prefix_append _ _).isInfix
        rw [wordAffinity, hcontains, classify, if_pos rfl]
      case isFalse hends =>
        rw [Bool.not_eq_true] at hends
        rw [← wordAffinity_cons hint hends]
        refine ih (List.not_mem_cons_of_ne_of_not_mem (lowerByte_ne_zero hc).symm hseen) ?_
        rw [contains_reverse_cons, hends, hint, Bool.or_false]

theorem affinityType_eq (zIn : List UInt8) :
    affinityType zIn = wordAffinity (lower (cString zIn)) :=
  affinityLoop_eq zIn List.not_mem_nil (by decide)

example : affinityType (bytes "FLOATING POINT") = .integer := by decide

/-! ### Blanks around a type -/

section Trim

variable {word : List UInt8} (hne : word ≠ []) (hword : word.any isSpace = false)

include hne hword

theorem infix_dropWhile_isSpace (text : List UInt8) :
    word <:+: text.dropWhile isSpace ↔ word <:+: text := by
  induction text with
  | nil => rfl
  | cons c text ih =>
    by_cases hc : isSpace c = true
    · rw [List.dropWhile_cons_of_pos hc, ih, List.infix_cons_iff, or_iff_right]
      intro hprefix
      obtain ⟨a, rest, rfl⟩ := List.exists_cons_of_ne_nil hne
      obtain ⟨rfl, -⟩ := List.cons_prefix_cons.mp hprefix
      rw [List.any_cons, hc] at hword
      exact Bool.false_ne_true hword.symm
    · rw [List.dropWhile_cons_of_neg hc]

theorem contains_trim (text : List UInt8) : contains (trim text) word = contains text word := by
  have hreverse : word.reverse.any isSpace = false := by rwa [List.any_reverse]
  rw [Bool.eq_iff_iff, contains_eq_true, contains_eq_true, trim, ← List.reverse_infix,
    List.reverse_reverse, infix_dropWhile_isSpace (by simpa using hne) hreverse,
    List.reverse_infix, infix_dropWhile_isSpace hne hword]

end Trim

theorem hasTextAffinity_eq_true {type : List UInt8} :
    hasTextAffinity type = true ↔ wordAffinity type = .text := by
  rw [hasTextAffinity, wordAffinity, classify, ← containsText]
  split_ifs <;> simp_all

theorem hasRealAffinity_eq_true {type : List UInt8} :
    hasRealAffinity type = true ↔ wordAffinity type = .real := by
  rw [hasRealAffinity, wordAffinity, classify, ← containsReal, containsText]
  grind

theorem wordAffinity_trim (type : List UInt8) : wordAffinity (trim type) = wordAffinity type := by
  rw [wordAffinity, wordAffinity, containsText, containsText, containsReal, containsReal]
  iterate 8 rw [contains_trim (by decide) (by decide)]

/-- **The tests of the extension are SQLite's.** Of a declared type, whatever its bytes, the extension
finds that the affinity is `TEXT` or `REAL` exactly if SQLite's pass does. -/
theorem affinity_tests_agree (declared : List UInt8) :
    (hasTextAffinity (trim (lower (cString declared))) = true ↔ affinityType declared = .text) ∧
      (hasRealAffinity (trim (lower (cString declared))) = true ↔ affinityType declared = .real) ∧
      (hasRealAffinity (lower (cString declared)) = true ↔ affinityType declared = .real) := by
  rw [affinityType_eq, hasTextAffinity_eq_true, hasRealAffinity_eq_true, hasRealAffinity_eq_true,
    wordAffinity_trim]
  exact ⟨.rfl, .rfl, .rfl⟩

end SqliteScanner.Affinity
