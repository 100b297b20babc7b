import SqliteScanner.Internal.Search

/-!
# Classifying a sidecar probe

A remote database is served without recovery, so before the first read the reader probes for a `-wal`
or `-journal` next to it. A probe that fails leaves one question: is the sidecar absent, or is its
state unknown? `SidecarConfirmedAbsent` answers from the exception. It prefers the status code that
DuckDB's `HTTPException` records. Without one it searches the *message* for a status, and for the words
of a missing file.

The message quotes the probed URL, and the URL is made of the path that the user attached. So what the
search finds may be a part of the path.

## Main results

* `matches_statusRegex` — what the expression of `ExtractHttpStatus` describes.
* `sidecarConfirmedAbsent_eq_false_iff` — for a message whose own words state nothing, when the answer
  is *unknown*, as it should be: exactly when no status and no such word is read off the quoted URL.
-/

namespace SqliteScanner.RemoteFile

open Search

/-- A string of the source. -/
abbrev Text := List Char

/-! ### Exceptions -/

/-- The types of DuckDB's exceptions, as far as the reader tells them apart. -/
inductive ExceptionType where
  | http
  | other (name : Text)
  deriving DecidableEq, Repr

/-- A `std::exception` and the `ErrorData` that DuckDB makes of it. -/
structure Exception where
  type : ExceptionType
  /-- `what()`, and the message in it. -/
  what : Text
  rawMessage : Text
  extraInfo : List (Text × Text)
  deriving DecidableEq, Repr

/-- The number that digits write. -/
def digitsValue (d : Text) : ℤ := d.foldl (fun n c => 10 * n + (c.toNat - 48)) 0

/-- DuckDB's `TryCast` of a string to an `int32_t`. All that is used of it is that it reads digits. -/
structure Int32Cast where
  tryCast : Text → Option ℤ
  tryCast_digits : ∀ d, d.length = 3 → (∀ c ∈ d, c.isDigit = true) → tryCast d = some (digitsValue d)

/-! ### The functions of the source -/

/-- `HTTP_ERROR_PATTERNS`. -/
def httpErrorPatterns : List Text :=
  ["Unable to connect to URL".toList, "Could not establish connection".toList,
    "HTTP HEAD to".toList, "HTTP GET to".toList]

/-- What `SidecarConfirmedAbsent` takes for a missing file. -/
def notFoundTexts : List Text :=
  ["No files found".toList, "does not exist".toList, "No such file".toList]

/-- `\s`. -/
def isSpace (c : Char) : Bool := c ∈ [' ', '\t', '\n', '\x0c', '\r']

/-- `\d{3}`. -/
def threeDigits : Pattern Char := .seq (.one Char.isDigit) (.seq (.one Char.isDigit) (.one Char.isDigit))

/-- `"status_code":"(\d{3})"`. -/
def jsonStatus : Pattern Char :=
  .seq (.text "\"status_code\":\"".toList) (.seq (.group 1 threeDigits) (.text "\"".toList))

/-- `(\d{3})\s*\([^)]+\)`. -/
def describedStatus : Pattern Char :=
  .seq (.group 2 threeDigits)
    (.seq (.many isSpace)
      (.seq (.text "(".toList) (.seq (.some (· != ')')) (.text ")".toList))))

/-- `\(?HTTP\s+(?:code\s+)?(\d{3})\)?`. -/
def httpStatus : Pattern Char :=
  .seq (.optional (.text "(".toList))
    (.seq (.text "HTTP".toList)
      (.seq (.some isSpace)
        (.seq (.optional (.seq (.text "code".toList) (.some isSpace)))
          (.seq (.group 3 threeDigits) (.optional (.text ")".toList))))))

/-- The expression of `ExtractHttpStatus`. -/
def statusRegex : Pattern Char := .alt jsonStatus (.alt describedStatus httpStatus)

variable (int32 : Int32Cast)

/-- `ExtractHttpStatus`: the first group that is not empty and can be cast. -/
def extractHttpStatus (errorMsg : Text) : ℤ :=
  match statusRegex.search errorMsg with
  | some groups =>
    (([1, 2, 3].filterMap fun n => groups.lookup n).filter (· ≠ [])).findSome? int32.tryCast
      |>.getD 0
  | none => 0

/-- `StringUtil::Contains`. -/
def contains (s t : Text) : Bool := t <:+: s

/-- `IsHttpError`. -/
def isHttpError (errorMsg : Text) : Bool := httpErrorPatterns.any (contains errorMsg)

/-- `GetHttpStatus`. -/
def getHttpStatus (e : Exception) (errorMsg : Text) : ℤ :=
  match (e.extraInfo.lookup "status_code".toList).bind int32.tryCast with
  | some code => code
  | none => extractHttpStatus int32 errorMsg

/-- `BuildSidecarUrl`: the suffix goes before the query. -/
def buildSidecarUrl (path suffix : Text) : Text :=
  path.takeWhile (· ≠ '?') ++ suffix ++ path.dropWhile (· ≠ '?')

/-- `SidecarConfirmedAbsent`. -/
def sidecarConfirmedAbsent (e : Exception) : Bool :=
  let status := getHttpStatus int32 e e.what
  status = 404 ||
    (status = 0 && e.type ≠ .http && !isHttpError e.what && notFoundTexts.any (contains e.what))

/-! ### What the expression describes -/

theorem matches_threeDigits {d : Text} {g : Groups Char} :
    threeDigits.Matches d g ↔ (d.length = 3 ∧ ∀ c ∈ d, c.isDigit = true) ∧ g = [] := by
  simp only [threeDigits, Pattern.Matches]
  constructor
  · rintro ⟨_, _, _, _, ⟨⟨a, ha, rfl⟩, rfl⟩, ⟨_, _, _, _, ⟨⟨b, hb, rfl⟩, rfl⟩, ⟨⟨c, hc, rfl⟩, rfl⟩,
      rfl, rfl⟩, rfl, rfl⟩
    exact ⟨⟨rfl, by simp [ha, hb, hc]⟩, rfl⟩
  · rintro ⟨⟨hlen, hdigit⟩, rfl⟩
    obtain ⟨a, b, c, rfl⟩ := List.length_eq_three.mp hlen
    exact ⟨[a], [], [b, c], [], ⟨⟨a, hdigit a (by simp), rfl⟩, rfl⟩,
      ⟨[b], [], [c], [], ⟨⟨b, hdigit b (by simp), rfl⟩, rfl⟩,
        ⟨⟨c, hdigit c (by simp), rfl⟩, rfl⟩, rfl, rfl⟩, rfl, rfl⟩

/-- The code after `HTTP`. -/
def httpCode (s : Text) : Text :=
  let t := s.dropWhile isSpace
  if t.take 4 = "code".toList then ((t.drop 4).dropWhile isSpace).take 3 else t.take 3

/-- Where the code of a status stands, if one starts at the head of the text. -/
def codeAt : Text → Text
  | '"' :: s => (s.drop 14).take 3
  | '(' :: s => httpCode (s.drop 4)
  | 'H' :: s => httpCode (s.drop 3)
  | s => s.take 3

theorem not_isSpace_of_isDigit {c : Char} (hc : c.isDigit = true) : isSpace c = false := by
  have hc' : c ∉ [' ', '\t', '\n', '\x0c', '\r'] := by
    intro hmem
    simp only [List.mem_cons, List.not_mem_nil, or_false] at hmem
    rcases hmem with rfl | rfl | rfl | rfl | rfl <;> cases hc
  simpa [isSpace] using hc'

theorem dropWhile_isSpace_append {spaces d post : Text} (hspaces : ∀ c ∈ spaces, isSpace c = true)
    (hlen : d.length = 3) (hdigit : ∀ c ∈ d, c.isDigit = true) :
    (spaces ++ (d ++ post)).dropWhile isSpace = d ++ post := by
  obtain ⟨a, b, c, rfl⟩ := List.length_eq_three.mp hlen
  rw [List.dropWhile_append_of_pos hspaces, List.cons_append,
    List.dropWhile_cons_of_neg (by simp [not_isSpace_of_isDigit (hdigit a (by simp))])]

theorem httpCode_digits {spaces d post : Text} (hspaces : ∀ c ∈ spaces, isSpace c = true)
    (hlen : d.length = 3) (hdigit : ∀ c ∈ d, c.isDigit = true) :
    httpCode (spaces ++ (d ++ post)) = d := by
  have hcode : (d ++ post).take 4 ≠ "code".toList := by
    obtain ⟨a, b, c, rfl⟩ := List.length_eq_three.mp hlen
    intro h
    have ha : some a = some 'c' := congrArg List.head? h
    cases ha
    exact absurd (hdigit 'c' (by simp)) (by decide)
  simp only [httpCode, dropWhile_isSpace_append hspaces hlen hdigit, if_neg hcode]
  rw [← hlen, List.take_left]

theorem httpCode_code {spaces spaces' d post : Text} (hspaces : ∀ c ∈ spaces, isSpace c = true)
    (hspaces' : ∀ c ∈ spaces', isSpace c = true) (hlen : d.length = 3)
    (hdigit : ∀ c ∈ d, c.isDigit = true) :
    httpCode (spaces ++ ("code".toList ++ (spaces' ++ (d ++ post)))) = d := by
  have hdrop : (spaces ++ ("code".toList ++ (spaces' ++ (d ++ post)))).dropWhile isSpace =
      "code".toList ++ (spaces' ++ (d ++ post)) := by
    rw [List.dropWhile_append_of_pos hspaces]
    exact List.dropWhile_cons_of_neg (by decide)
  have htake : ("code".toList ++ (spaces' ++ (d ++ post))).take 4 = "code".toList :=
    List.take_left' rfl
  have hrest : ("code".toList ++ (spaces' ++ (d ++ post))).drop 4 = spaces' ++ (d ++ post) :=
    List.drop_left' rfl
  simp only [httpCode, hdrop, htake, if_true, hrest, dropWhile_isSpace_append hspaces' hlen hdigit]
  rw [← hlen, List.take_left]

/-- The text has one group, of three digits, and where it stands follows from the text. -/
def HasCode (w : Text) (g : Groups Char) : Prop :=
  ∃ n d, g = [(n, d)] ∧ n ∈ [1, 2, 3] ∧ d.length = 3 ∧ (∀ c ∈ d, c.isDigit = true) ∧ w ≠ [] ∧
    ∀ post, codeAt (w ++ post) = d

theorem hasCode_of_matches_jsonStatus {w : Text} {g : Groups Char} (h : jsonStatus.Matches w g) :
    HasCode w g := by
  simp only [jsonStatus, Pattern.Matches, matches_text, matches_threeDigits] at h
  obtain ⟨_, _, _, _, ⟨rfl, rfl⟩, ⟨d, _, _, _, ⟨_, ⟨⟨hlen, hdigit⟩, rfl⟩, rfl⟩, ⟨rfl, rfl⟩, rfl, rfl⟩,
    rfl, rfl⟩ := h
  refine ⟨1, d, rfl, by decide, hlen, hdigit, List.cons_ne_nil _ _, fun post => ?_⟩
  change (d ++ ['"'] ++ post).take 3 = d
  rw [List.append_assoc, ← hlen, List.take_left]

theorem hasCode_of_matches_describedStatus {w : Text} {g : Groups Char}
    (h : describedStatus.Matches w g) : HasCode w g := by
  simp only [describedStatus, Pattern.Matches, matches_text, matches_threeDigits,
    matches_some] at h
  obtain ⟨d, _, rest, _, ⟨_, ⟨⟨hlen, hdigit⟩, rfl⟩, rfl⟩, ⟨_, _, _, _, ⟨-, rfl⟩, ⟨_, _, _, _, ⟨-, rfl⟩,
    ⟨_, _, _, _, ⟨-, -, rfl⟩, ⟨-, rfl⟩, -, rfl⟩, -, rfl⟩, -, rfl⟩, rfl, rfl⟩ := h
  obtain ⟨a, b, c, rfl⟩ := List.length_eq_three.mp hlen
  refine ⟨2, [a, b, c], rfl, by decide, hlen, hdigit, List.cons_ne_nil _ _, fun post => ?_⟩
  have ha := hdigit a (by simp)
  have hne : ∀ c : Char, c.isDigit = false → a ≠ c := by
    rintro c hc rfl
    simp [hc] at ha
  simp [codeAt, hne '"' rfl, hne '(' rfl, hne 'H' rfl]

theorem hasCode_of_matches_httpStatus {w : Text} {g : Groups Char} (h : httpStatus.Matches w g) :
    HasCode w g := by
  simp only [httpStatus, Pattern.Matches, matches_text, matches_threeDigits, matches_optional,
    matches_some] at h
  obtain ⟨left, _, _, _, hleft, ⟨_, _, _, _, ⟨rfl, rfl⟩, ⟨spaces, _, _, _, ⟨-, hspaces, rfl⟩,
    ⟨code, gcode, _, _, hcode, ⟨d, _, right, _, ⟨_, ⟨⟨hlen, hdigit⟩, rfl⟩, rfl⟩, hright, rfl, rfl⟩, rfl,
    rfl⟩, rfl, rfl⟩, rfl, rfl⟩, rfl, rfl⟩ := h
  have hread : gcode = [] ∧ ∀ post, httpCode (spaces ++ (code ++ (d ++ post))) = d := by
    rcases hcode with ⟨_, _, spaces', _, ⟨rfl, rfl⟩, ⟨-, hspaces', rfl⟩, rfl, rfl⟩ | ⟨rfl, rfl⟩
    · refine ⟨rfl, fun post => ?_⟩
      rw [List.append_assoc]
      exact httpCode_code hspaces hspaces' hlen hdigit
    · exact ⟨rfl, fun post => httpCode_digits hspaces hlen hdigit⟩
  obtain ⟨rfl, hread⟩ := hread
  refine ⟨3, d, ?_, by decide, hlen, hdigit, by simp, fun post => ?_⟩
  · rcases hleft with ⟨-, rfl⟩ | ⟨-, rfl⟩ <;> rcases hright with ⟨-, rfl⟩ | ⟨-, rfl⟩ <;> rfl
  · have hrest : httpCode ((spaces ++ (code ++ (d ++ right))) ++ post) = d := by
      simpa only [List.append_assoc] using hread (right ++ post)
    rcases hleft with ⟨rfl, -⟩ | ⟨rfl, -⟩ <;> exact hrest

/-- **A status.** Whatever the expression describes has a code, and two matches at one position have
the same one. -/
theorem matches_statusRegex {w : Text} {g : Groups Char} (h : statusRegex.Matches w g) :
    HasCode w g := by
  rcases h with h | h | h
  · exact hasCode_of_matches_jsonStatus h
  · exact hasCode_of_matches_describedStatus h
  · exact hasCode_of_matches_httpStatus h

/-! ### The status of a message -/

/-- The leftmost status of the message stands after `pre`, is `w`, and has the code `d`. -/
def StatusLeads (msg pre w d : Text) : Prop := ∃ n, statusRegex.Leads msg pre w [(n, d)]

theorem StatusLeads.codeAt_eq {msg pre w d : Text} (h : StatusLeads msg pre w d) :
    codeAt (msg.drop pre.length) = d := by
  obtain ⟨n, hw, ⟨post, rfl⟩, -⟩ := h
  obtain ⟨_, _, hg, -, -, -, -, hcode⟩ := matches_statusRegex hw
  cases hg
  rw [List.drop_left, hcode]

/-- There is one leftmost position, so there is one leading code. -/
theorem StatusLeads.code_unique {msg pre pre' w w' d d' : Text} (h : StatusLeads msg pre w d)
    (h' : StatusLeads msg pre' w' d') : d = d' := by
  have hlen : pre.length = pre'.length := by
    obtain ⟨n, hw, ⟨post, hmsg⟩, hfirst⟩ := h
    obtain ⟨n', hw', ⟨post', hmsg'⟩, hfirst'⟩ := h'
    exact le_antisymm (hfirst pre' w' post' _ hw' hmsg') (hfirst' pre w post _ hw hmsg)
  rw [← h.codeAt_eq, ← h'.codeAt_eq, hlen]

theorem extractHttpStatus_of_statusLeads {msg pre w d : Text} (h : StatusLeads msg pre w d) :
    extractHttpStatus int32 msg = digitsValue d := by
  cases hsearch : statusRegex.search msg with
  | none =>
    obtain ⟨n, hw, ⟨post, hmsg⟩, -⟩ := h
    exact absurd ⟨pre, w, post, _, hw, hmsg⟩ (search_eq_none.mp hsearch)
  | some g =>
    obtain ⟨pre', w', hlead⟩ := search_eq_some hsearch
    obtain ⟨n, d', rfl, hn, hlen, hdigit, -⟩ := matches_statusRegex hlead.1
    obtain rfl : d = d' := h.code_unique ⟨n, hlead⟩
    have hgroups : ([1, 2, 3].filterMap fun m => List.lookup m [(n, d)]) = [d] := by
      simp only [List.mem_cons, List.not_mem_nil, or_false] at hn
      rcases hn with rfl | rfl | rfl <;> rfl
    have hd : d ≠ [] := fun hd => by simp [hd] at hlen
    simp [extractHttpStatus, hsearch, hgroups, hd, int32.tryCast_digits d hlen hdigit]

theorem extractHttpStatus_of_not_occurs {msg : Text} (h : ¬ statusRegex.Occurs msg) :
    extractHttpStatus int32 msg = 0 := by
  simp [extractHttpStatus, search_eq_none.mpr h]

theorem exists_statusLeads {msg : Text} (h : statusRegex.Occurs msg) :
    ∃ pre w d, StatusLeads msg pre w d ∧ d.length = 3 ∧ ∀ c ∈ d, c.isDigit = true := by
  obtain ⟨g, hg⟩ := Option.ne_none_iff_exists'.mp fun hnone => search_eq_none.mp hnone h
  obtain ⟨pre, w, hlead⟩ := search_eq_some hg
  obtain ⟨n, d, rfl, -, hlen, hdigit, -⟩ := matches_statusRegex hlead.1
  exact ⟨pre, w, d, ⟨n, hlead⟩, hlen, hdigit⟩

theorem toNat_of_isDigit {c : Char} (h : c.isDigit = true) : 48 ≤ c.toNat ∧ c.toNat ≤ 57 := by
  simp only [Char.isDigit, Bool.and_eq_true, decide_eq_true_eq] at h
  exact ⟨UInt32.le_iff_toNat_le.mp h.1, UInt32.le_iff_toNat_le.mp h.2⟩

/-- Three digits are determined by the number that they write. -/
theorem digitsValue_inj {d d' : Text} (hd : d.length = 3 ∧ ∀ c ∈ d, c.isDigit = true)
    (hd' : d'.length = 3 ∧ ∀ c ∈ d', c.isDigit = true) : digitsValue d = digitsValue d' ↔ d = d' := by
  refine ⟨fun h => ?_, fun h => h ▸ rfl⟩
  obtain ⟨a, b, c, rfl⟩ := List.length_eq_three.mp hd.1
  obtain ⟨a', b', c', rfl⟩ := List.length_eq_three.mp hd'.1
  simp only [List.mem_cons, List.not_mem_nil, or_false, forall_eq_or_imp, forall_eq] at hd hd'
  have ha := toNat_of_isDigit hd.2.1
  have hb := toNat_of_isDigit hd.2.2.1
  have hc := toNat_of_isDigit hd.2.2.2
  have ha' := toNat_of_isDigit hd'.2.1
  have hb' := toNat_of_isDigit hd'.2.2.1
  have hc' := toNat_of_isDigit hd'.2.2.2
  simp only [digitsValue, List.foldl_cons, List.foldl_nil] at h
  have hab : a.toNat = a'.toNat ∧ b.toNat = b'.toNat ∧ c.toNat = c'.toNat := by omega
  rw [Char.toNat_inj.mp hab.1, Char.toNat_inj.mp hab.2.1, Char.toNat_inj.mp hab.2.2]

/-- The status that the code reads, in terms of the leftmost status of the message. -/
theorem extractHttpStatus_eq_iff (msg code : Text)
    (hcode : code.length = 3 ∧ ∀ c ∈ code, c.isDigit = true) :
    extractHttpStatus int32 msg = digitsValue code ↔
      (∃ pre w, StatusLeads msg pre w code) ∨
        (¬ statusRegex.Occurs msg ∧ digitsValue code = 0) := by
  by_cases hocc : statusRegex.Occurs msg
  · obtain ⟨pre, w, d, hlead, hd⟩ := exists_statusLeads hocc
    rw [extractHttpStatus_of_statusLeads int32 hlead, digitsValue_inj hd hcode]
    constructor
    · rintro rfl
      exact .inl ⟨pre, w, hlead⟩
    · rintro (⟨pre', w', hlead'⟩ | ⟨hno, -⟩)
      · exact hlead.code_unique hlead'
      · exact absurd hocc hno
  · rw [extractHttpStatus_of_not_occurs int32 hocc]
    constructor
    · exact fun h => .inr ⟨hocc, h.symm⟩
    · rintro (⟨pre, w, n, hw, ⟨post, hmsg⟩, -⟩ | ⟨-, h⟩)
      · exact absurd ⟨pre, w, post, _, hw, hmsg⟩ hocc
      · exact h.symm

/-! ### Messages that quote the URL -/

/-- The text states no status, and none of the words of a missing file. -/
def Silent (t : Text) : Prop := ¬ statusRegex.Occurs t ∧ ∀ p ∈ notFoundTexts, ¬ p <:+: t

instance (t : Text) : Decidable (Silent t) := inferInstanceAs (Decidable (_ ∧ _))

/-- The leftmost status of the message is a `404` that overlaps the URL. -/
def ReadsStatus (url : Text) (texts : List Text) : Prop :=
  ∃ pre w, StatusLeads (List.intercalate url texts) pre w "404".toList ∧
    Touches url texts pre.length w.length

/-- Nothing in the message tells an HTTP error, and words of a missing file overlap the URL. A leftmost
status `000` is like none. -/
def ReadsNotFound (type : ExceptionType) (url : Text) (texts : List Text) : Prop :=
  let msg := List.intercalate url texts
  (¬ statusRegex.Occurs msg ∨ ∃ pre w, StatusLeads msg pre w "000".toList) ∧
    type ≠ .http ∧ (∀ p ∈ httpErrorPatterns, ¬ p <:+: msg) ∧
    ∃ p ∈ notFoundTexts, ∃ pre post, msg = pre ++ (p ++ post) ∧ Touches url texts pre.length p.length

theorem StatusLeads.touches {url pre w d : Text} {texts : List Text}
    (hsilent : ∀ t ∈ texts, Silent t) (h : StatusLeads (List.intercalate url texts) pre w d) :
    Touches url texts pre.length w.length := by
  obtain ⟨n, hw, ⟨post, hmsg⟩, -⟩ := h
  obtain ⟨-, -, -, -, -, -, hne, -⟩ := matches_statusRegex hw
  refine (isInfix_or_touches hne hmsg).resolve_left ?_
  rintro ⟨t, ht, u, v, rfl⟩
  exact (hsilent _ ht).1 ⟨u, w, v, _, hw, List.append_assoc _ _ _⟩

theorem exists_touches_of_isInfix {url p : Text} {texts : List Text}
    (hsilent : ∀ t ∈ texts, Silent t) (hp : p ∈ notFoundTexts)
    (h : p <:+: List.intercalate url texts) :
    ∃ pre post, List.intercalate url texts = pre ++ (p ++ post) ∧
      Touches url texts pre.length p.length := by
  obtain ⟨pre, post, hmsg⟩ := h
  rw [List.append_assoc] at hmsg
  have hne : ∀ p ∈ notFoundTexts, p ≠ [] := by decide
  refine ⟨pre, post, hmsg.symm, (isInfix_or_touches (hne p hp) hmsg.symm).resolve_left ?_⟩
  rintro ⟨t, ht, hpt⟩
  exact (hsilent t ht).2 p hp hpt

theorem sidecarConfirmedAbsent_iff {e : Exception}
    (hinfo : e.extraInfo.lookup "status_code".toList = none) :
    sidecarConfirmedAbsent int32 e = true ↔
      (∃ pre w, StatusLeads e.what pre w "404".toList) ∨
        ((¬ statusRegex.Occurs e.what ∨ ∃ pre w, StatusLeads e.what pre w "000".toList) ∧
          e.type ≠ .http ∧ (∀ p ∈ httpErrorPatterns, ¬ p <:+: e.what) ∧
          ∃ p ∈ notFoundTexts, p <:+: e.what) := by
  have hget : getHttpStatus int32 e e.what = extractHttpStatus int32 e.what := by
    simp only [getHttpStatus, hinfo, Option.bind_none]
  have h404 : extractHttpStatus int32 e.what = 404 ↔
      ∃ pre w, StatusLeads e.what pre w "404".toList := by
    refine (extractHttpStatus_eq_iff int32 e.what "404".toList ⟨rfl, by simp⟩).trans ?_
    exact or_iff_left fun h => absurd h.2 (by decide)
  have h000 : extractHttpStatus int32 e.what = 0 ↔
      ¬ statusRegex.Occurs e.what ∨ ∃ pre w, StatusLeads e.what pre w "000".toList := by
    refine (extractHttpStatus_eq_iff int32 e.what "000".toList ⟨rfl, by simp⟩).trans ?_
    rw [or_comm, and_iff_left (by decide)]
  simp only [sidecarConfirmedAbsent, hget, isHttpError, contains, Bool.or_eq_true, Bool.and_eq_true,
    decide_eq_true_eq, h404, h000, List.any_eq_true, Bool.not_eq_true', List.any_eq_false, and_assoc]

/-- **When an unknown state is not taken for absence.** Let the message of a probe quote the probed URL
in words that state no status and no missing file, and let the exception record no status. Then the
sidecar is not confirmed absent exactly when neither a `404` nor a missing file is read off the URL. -/
theorem sidecarConfirmedAbsent_eq_false_iff (path suffix : Text) (texts : List Text) (e : Exception)
    (hsilent : ∀ t ∈ texts, Silent t) (hinfo : e.extraInfo.lookup "status_code".toList = none)
    (hwhat : e.what = List.intercalate (buildSidecarUrl path suffix) texts) :
    sidecarConfirmedAbsent int32 e = false ↔
      ¬ ReadsStatus (buildSidecarUrl path suffix) texts ∧
        ¬ ReadsNotFound e.type (buildSidecarUrl path suffix) texts := by
  have hiff := sidecarConfirmedAbsent_iff int32 hinfo
  rw [hwhat] at hiff
  have hstatus : (∃ pre w, StatusLeads (List.intercalate (buildSidecarUrl path suffix) texts) pre w
      "404".toList) ↔ ReadsStatus (buildSidecarUrl path suffix) texts := by
    constructor
    · rintro ⟨pre, w, h⟩
      exact ⟨pre, w, h, h.touches hsilent⟩
    · rintro ⟨pre, w, h, -⟩
      exact ⟨pre, w, h⟩
  have hfound : (∃ p ∈ notFoundTexts, p <:+: List.intercalate (buildSidecarUrl path suffix) texts) ↔
      ∃ p ∈ notFoundTexts, ∃ pre post,
        List.intercalate (buildSidecarUrl path suffix) texts = pre ++ (p ++ post) ∧
          Touches (buildSidecarUrl path suffix) texts pre.length p.length := by
    constructor
    · rintro ⟨p, hp, h⟩
      exact ⟨p, hp, exists_touches_of_isInfix hsilent hp h⟩
    · rintro ⟨p, hp, pre, post, h, -⟩
      exact ⟨p, hp, pre, post, by rw [h, List.append_assoc]⟩
  rw [hstatus, hfound] at hiff
  rw [← Bool.not_eq_true, hiff, not_or]
  rfl

/-- A cast that reads digits and nothing else. -/
def digitsCast : Int32Cast where
  tryCast := fun d => if d ≠ [] ∧ d.all Char.isDigit = true then some (digitsValue d) else none
  tryCast_digits := by
    intro d hlen hdigit
    refine if_pos ⟨fun hd => ?_, List.all_eq_true.mpr hdigit⟩
    simp [hd] at hlen

/-- A connection failure that names its URL. -/
def connectionFailure (url : Text) : Exception where
  type := .other "IO".toList
  what := List.intercalate url ["Could not establish connection to ".toList, []]
  rawMessage := List.intercalate url ["Could not establish connection to ".toList, []]
  extraInfo := []

/-- The URL of an ordinary path has nothing to misread. -/
theorem connectionFailure_not_confirmed :
    sidecarConfirmedAbsent digitsCast
      (connectionFailure (buildSidecarUrl "https://h.io/a.db".toList "-wal".toList)) = false := by
  refine (sidecarConfirmedAbsent_eq_false_iff digitsCast _ _ _ _ (by decide) rfl rfl).mpr ⟨?_, ?_⟩
  · rintro ⟨pre, w, ⟨n, hw, ⟨post, hmsg⟩, -⟩, -⟩
    have hocc : statusRegex.Occurs _ := ⟨pre, w, post, _, hw, hmsg⟩
    exact absurd hocc (by decide)
  · rintro ⟨-, -, hno, -⟩
    exact hno "Could not establish connection".toList (by decide) (by decide)

/-- A connection failure is taken for a missing sidecar when the path looks like a status. -/
theorem connectionFailure_confirmed :
    (∀ t ∈ ["Could not establish connection to ".toList, []], Silent t) ∧
      sidecarConfirmedAbsent digitsCast
        (connectionFailure (buildSidecarUrl "https://h.io/404 (copy).db".toList "-wal".toList)) =
          true := by
  decide

end SqliteScanner.RemoteFile
