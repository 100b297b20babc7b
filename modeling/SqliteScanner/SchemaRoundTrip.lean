import Mathlib.Data.List.Sort
import SqliteScanner.TableInfo

/-!
# Copying a table by its entry

The entry of a SQLite table (`GetTableInfo`) is what a `CREATE TABLE` for a copy of the table is
written from (`GetCreateTableSQL`). Here the text of that statement is read again as SQLite reads it
(`read`), and compared with what the table was declared with.

The columns are the same. Two things are lost. The key columns are collected in the order of the
columns and not of the key. And `NOT NULL` is left out for a column of the primary key, as in DuckDB
a key column is never null; in SQLite it can be. So the declaration is the same exactly if no column
of the primary key is `NOT NULL`, and the key has its columns in the order of the table
(`read_getCreateTableSQL_iff`).

When a name is written without quotes is DuckDB's and SQLite's decision (`Keywords`).

## Main definitions

* `getCreateTableSQL` — the text that is written.
* `read` — what a `CREATE TABLE` declares.

## Main results

* `read_getCreateTableSQL` — what the written text declares.
* `read_getCreateTableSQL_iff` — when this is the declaration of the table.
-/

namespace SqliteScanner.SchemaRoundTrip

open Lexing TableInfo
open OnConflict (LogicalType)

/-! ### Names -/

def upper (name : Text) : Text := name.map Char.toUpper

/-- The keywords that a definition in a `CREATE TABLE`, or the statement itself, can start with. -/
def definitionKeywords : List Text :=
  ["IF".toList, "PRIMARY".toList, "UNIQUE".toList, "CHECK".toList, "FOREIGN".toList,
    "CONSTRAINT".toList]

/-- `KeywordHelper::RequiresQuotes` and `sqlite3_keyword_check`. DuckDB does not quote some names
that are identifiers, and the keywords of SQLite are known to it. -/
structure Keywords where
  requiresQuotes : Text → Bool
  keywordCheck : Text → Bool
  identifier : ∀ name, requiresQuotes name = false →
    (∃ c ∈ name.head?, isStart c = true) ∧ ∀ c ∈ name, isPart c = true
  keywords : ∀ name, keywordCheck name = false →
    keyword? name = none ∧ upper name ∉ definitionKeywords

/-- `SQLiteUtils::WriteQuotedAndEscaped`. -/
def writeQuotedAndEscaped (text : Text) (quote : Char) : Text :=
  quote :: (text.flatMap (fun c => if c = quote then [quote, c] else [c]) ++ [quote])

/-- `SQLiteUtils::WriteOptionallyQuoted`. -/
def writeOptionallyQuoted (k : Keywords) (name : Text) : Text :=
  if !k.requiresQuotes name && !k.keywordCheck name then name
  else writeQuotedAndEscaped name '"'

/-! ### `GetCreateTableSQL` -/

/-- `SQLiteUtils::ToSQLiteType`. -/
def toSQLiteType : LogicalType → LogicalType
  | .bigint => .bigint
  | .double => .double
  | .blob => .blob
  | .varchar | .date | .timestamp => .varchar

def typeName : LogicalType → Text
  | .bigint => "BIGINT".toList
  | .double => "DOUBLE".toList
  | .blob => "BLOB".toList
  | .varchar => "VARCHAR".toList
  | .date => "DATE".toList
  | .timestamp => "TIMESTAMP".toList

/-- What DuckDB writes of a column after its name. -/
def columnText (column : ColumnDefinition) : Text :=
  ' ' :: (typeName (toSQLiteType column.type) ++
    match column.default with
    | none => []
    | some default => " DEFAULT(".toList ++ render default.pieces ++ [')'])

def notNullColumns (constraints : List Constraint) : List ℕ :=
  constraints.filterMap fun
    | .notNull index => some index
    | _ => none

/-- The columns with a constraint of their own. -/
def singleColumns (isPrimaryKey : Bool) (constraints : List Constraint) : List ℕ :=
  constraints.filterMap fun
    | .unique (some index) _ primary => if primary = isPrimaryKey then some index else none
    | _ => none

/-- The columns of primary keys that are constraints of the table. -/
def multiKeyPks (constraints : List Constraint) : List Text :=
  constraints.flatMap fun
    | .unique none names true => names.map fold
    | _ => []

def extraConstraints (k : Keywords) (constraints : List Constraint) : List Text :=
  constraints.filterMap fun
    | .notNull _ => none
    | .unique (some _) _ _ => none
    | .unique none names isPrimaryKey =>
      some ((if isPrimaryKey then "PRIMARY KEY".toList else "UNIQUE".toList) ++
        ('(' :: ([',', ' '].intercalate (names.map (writeOptionallyQuoted k)) ++ [')'])))
    | .foreignKey type text =>
      if type = .foreignKeyTable ∨ type = .selfReferenceTable then some text else none
    | .check text => some text

/-- Whether a column is written as `NOT NULL`: not if it is in a primary key. -/
def writesNotNull (constraints : List Constraint) (i : ℕ) (name : Text) : Bool :=
  i ∈ notNullColumns constraints && i ∉ singleColumns true constraints &&
    !(multiKeyPks constraints).contains (fold name)

def definition (k : Keywords) (constraints : List Constraint) (i : ℕ) (column : ColumnDefinition) :
    Text :=
  writeOptionallyQuoted k column.name ++ columnText column ++
    (if writesNotNull constraints i column.name then " NOT NULL".toList else []) ++
    (if i ∈ singleColumns true constraints then " PRIMARY KEY".toList else []) ++
    (if i ∈ singleColumns false constraints then " UNIQUE".toList else [])

/-- `SQLiteColumnsToSQL`. -/
def columnsToSQL (k : Keywords) (columns : List ColumnDefinition) (constraints : List Constraint) :
    Text :=
  '(' :: ([',', ' '].intercalate
    (columns.zipIdx.map (fun column => definition k constraints column.2 column.1) ++
      extraConstraints k constraints) ++ [')'])

def createTable (ifNotExists : Bool) : Text :=
  "CREATE TABLE ".toList ++ if ifNotExists then "IF NOT EXISTS ".toList else []

/-- `GetCreateTableSQL`. -/
def getCreateTableSQL (k : Keywords) (ifNotExists : Bool) (name : Text) (entry : TableEntry) :
    Text :=
  createTable ifNotExists ++
    (writeOptionallyQuoted k name ++ (columnsToSQL k entry.columns entry.constraints ++ [';']))

/-! ### Reading a `CREATE TABLE` -/

/-- What a `CREATE TABLE` declares. -/
structure Declaration where
  columns : List Text
  notNull : List Text
  primaryKey : List Text
  deriving DecidableEq

inductive Item where
  | column (name : Text) (notNull primaryKey : Bool)
  | primaryKey (names : List Text)
  | other

def readsAs (word : String) : Token → Bool
  | .word w => upper w = word.toList
  | _ => false

def nameOf : Token → Option Text
  | .word w => some w
  | .quoted name => some name
  | _ => none

/-- Whether two tokens stand next to each other. -/
def adjacent (p q : Token → Bool) : List Token → Bool
  | a :: b :: ts => (p a && q b) || adjacent p q (b :: ts)
  | _ => false

def declaresNotNull (ts : List Token) : Bool :=
  adjacent (fun t => t = .keyword .not_) (fun t => t = .keyword .null) (outer ts 0)

def declaresPrimaryKey (ts : List Token) : Bool :=
  adjacent (readsAs "PRIMARY") (readsAs "KEY") (outer ts 0)

/-- The names between parentheses. -/
def readNames : List Token → Option (List Text)
  | .symbol .lparen :: ts =>
    (splitItems ts 0 []).bind fun r => r.1.mapM fun item => item.head?.bind nameOf
  | _ => none

/-- A definition between the parentheses of a `CREATE TABLE`. -/
def readItem : List Token → Option Item
  | [] => none
  | t :: ts =>
    if readsAs "PRIMARY" t then (readNames (ts.drop 1)).map .primaryKey
    else if definitionKeywords.any fun k => readsAs (String.ofList k) t then some .other
    else (nameOf t).map fun name => .column name (declaresNotNull ts) (declaresPrimaryKey ts)

def declaration (items : List Item) : Declaration where
  columns := items.filterMap fun
    | .column name _ _ => some name
    | _ => none
  notNull := items.filterMap fun
    | .column name true _ => some name
    | _ => none
  primaryKey := items.flatMap fun
    | .column name _ true => [name]
    | .primaryKey names => names
    | _ => []

/-- The statement from its name on. -/
def readBody : List Token → Option Declaration
  | name :: .symbol .lparen :: ts =>
    (nameOf name).bind fun _ => (splitItems ts 0 []).bind fun r =>
      if r.2 = [.symbol .semicolon] then (r.1.mapM readItem).map declaration else none
  | _ => none

def readStatement : List Token → Option Declaration
  | create :: table :: ts =>
    if readsAs "CREATE" create && readsAs "TABLE" table then
      readBody (if ts.head?.any (readsAs "IF") then ts.drop 3 else ts)
    else none
  | _ => none

/-- What a text declares, if it is one `CREATE TABLE` statement. -/
def read (text : Text) : Option Declaration := (tokenize text).bind readStatement

/-- What a table is declared with. -/
def Table.declared (t : Table) : Declaration where
  columns := t.columns.map Column.name
  notNull := (t.columns.filter Column.notNull).map Column.name
  primaryKey := t.primaryKey.filterMap fun i => t.columns[i]?.map Column.name

/-! ### The text as pieces -/

theorem mapM_map {α β γ : Type} {f : α → Option β} {g : γ → α} {h : γ → β} {l : List γ}
    (hf : ∀ c ∈ l, f (g c) = some (h c)) : (l.map g).mapM f = some (l.map h) := by
  induction l with
  | nil => rfl
  | cons c l ih =>
    have hrest := ih fun d hd => hf d (List.mem_cons_of_mem c hd)
    simp [hf c List.mem_cons_self, hrest]

section Pieces

variable (k : Keywords)

def nameToken (name : Text) : Token :=
  if !k.requiresQuotes name && !k.keywordCheck name then .word name else .quoted name

def defaultPieces : Option Default → List Piece
  | none => []
  | some default =>
    [.space, .token (.word "DEFAULT".toList), .token (.symbol .lparen)] ++
      (default.pieces ++ [.token (.symbol .rparen)])

def notNullPieces (notNull : Bool) : List Piece :=
  if notNull then [.space, .token (.keyword .not_), .space, .token (.keyword .null)] else []

/-- The definition of a column without a key of its own. -/
def columnPieces (notNull : Bool) (column : ColumnDefinition) : List Piece :=
  [.token (nameToken k column.name), .space,
    .token (.word (typeName (toSQLiteType column.type)))] ++
    (defaultPieces column.default ++ notNullPieces notNull)

/-- The primary key as a constraint of the table. -/
def keyPieces (names : List Text) : List Piece :=
  [.token (.word "PRIMARY".toList), .space, .token (.word "KEY".toList),
    .token (.symbol .lparen)] ++
    (itemPieces (names.map fun name => [.token (nameToken k name)]) ++ [.token (.symbol .rparen)])

theorem writeOptionallyQuoted_eq (name : Text) :
    writeOptionallyQuoted k name = (nameToken k name).text := by
  unfold writeOptionallyQuoted nameToken
  split
  · rfl
  · simp only [writeQuotedAndEscaped, Token.text, escape]
    congr 3
    funext c
    split <;> simp_all

theorem columnText_eq (column : ColumnDefinition) : columnText column =
    ' ' :: (typeName (toSQLiteType column.type) ++ render (defaultPieces column.default)) := by
  unfold columnText
  cases column.default with
  | none => rfl
  | some default => simp [defaultPieces, render_append, Piece.text, Token.text, Symbol.text]

theorem valid_nameToken (name : Text) : (nameToken k name).Valid := by
  unfold nameToken
  split
  · case isTrue h =>
    simp only [Bool.and_eq_true, Bool.not_eq_true'] at h
    obtain ⟨hstart, hparts⟩ := k.identifier name h.1
    exact ⟨hstart, hparts, (k.keywords name h.2).1⟩
  · trivial

theorem nameOf_nameToken (name : Text) : nameOf (nameToken k name) = some name := by
  unfold nameToken
  split <;> rfl

theorem isAtom_word (w : Text) : (Token.word w).IsAtom := by
  simp [Token.IsAtom]

theorem isAtom_nameToken (name : Text) : (nameToken k name).IsAtom := by
  unfold nameToken
  split <;> simp [Token.IsAtom]

/-- A name is not read as a keyword that a definition can start with. -/
theorem not_readsAs_nameToken (name : Text) {word : String} (h : word.toList ∈ definitionKeywords) :
    readsAs word (nameToken k name) = false := by
  unfold nameToken
  split
  · case isTrue hplain =>
    simp only [Bool.and_eq_true, Bool.not_eq_true'] at hplain
    have hkeyword := (k.keywords name hplain.2).2
    simp only [readsAs, decide_eq_false_iff_not]
    intro heq
    exact hkeyword (heq ▸ h)
  · rfl

/-- A name can be followed by a blank, a comma or a parenthesis. -/
theorem endsBefore_nameToken (name : Text) {c : Char} (h : c ∈ [' ', ',', '(', ')']) :
    (nameToken k name).endsBefore c = true := by
  unfold nameToken
  split
  · simp only [List.mem_cons, List.not_mem_nil, or_false] at h
    rcases h with rfl | rfl | rfl | rfl <;> rfl
  · simp only [Token.endsBefore, decide_eq_true_eq]
    rintro rfl
    exact absurd h (by decide)

theorem isWord_typeName (type : LogicalType) : IsWord (typeName type) := by
  cases type <;> decide

/-- What can follow a definition. -/
def IsEnd (c : Char) : Prop := c = ',' ∨ c = ')'

theorem separated_paren (s : Symbol) (h : s = .lparen ∨ s = .rparen) (ps : List Piece)
    (next : Option Char) :
    Separated (.token (.symbol s) :: ps) next ↔ Separated ps next := by
  have hends : (Piece.token (.symbol s)).endsBefore (firstOf ps next) = true := by
    rcases h with rfl | rfl <;> cases firstOf ps next <;> rfl
  exact ⟨fun h => h.2.2, fun h => ⟨trivial, hends, h⟩⟩

theorem separated_notNullPieces (notNull : Bool) {c : Char} (hc : IsEnd c) :
    Separated (notNullPieces notNull) (some c) := by
  cases notNull with
  | false => trivial
  | true =>
    rcases hc with rfl | rfl <;>
      exact ⟨trivial, rfl, trivial, rfl, trivial, rfl, trivial, rfl, trivial⟩

theorem separated_defaultPieces (default : Option Default) (next : Option Char) :
    Separated (defaultPieces default) next := by
  cases default with
  | none => trivial
  | some default =>
    have hclose : Separated [.token (.symbol .rparen)] next :=
      (separated_paren _ (.inr rfl) [] next).mpr trivial
    have hpieces := default.separated.append hclose
    exact ⟨trivial, rfl, (by decide : IsWord "DEFAULT".toList), rfl,
      (separated_paren _ (.inl rfl) _ next).mpr hpieces⟩

theorem separated_columnPieces (notNull : Bool) (column : ColumnDefinition) {c : Char}
    (hc : IsEnd c) : Separated (columnPieces k notNull column) (some c) := by
  have hrest : Separated (defaultPieces column.default ++ notNullPieces notNull) (some c) :=
    (separated_defaultPieces column.default _).append (separated_notNullPieces notNull hc)
  have hfirst :
      firstOf (defaultPieces column.default ++ notNullPieces notNull) (some c) = some ' ' ∨
      firstOf (defaultPieces column.default ++ notNullPieces notNull) (some c) = some c := by
    cases column.default with
    | some default => exact .inl rfl
    | none =>
      cases notNull with
      | false => exact .inr rfl
      | true => exact .inl rfl
  have hends : (Piece.token (.word (typeName (toSQLiteType column.type)))).endsBefore
      (firstOf (defaultPieces column.default ++ notNullPieces notNull) (some c)) = true := by
    rcases hfirst with hfirst | hfirst <;> rw [hfirst]
    · rfl
    · rcases hc with rfl | rfl <;> rfl
  exact ⟨valid_nameToken k column.name, endsBefore_nameToken k column.name (by decide), trivial,
    rfl, isWord_typeName _, hends, hrest⟩

theorem separated_keyPieces (names : List Text) (next : Option Char) :
    Separated (keyPieces k names) next := by
  have hnames : Separated (itemPieces (names.map fun name => [.token (nameToken k name)]))
      (some ')') := by
    apply separated_itemPieces
    intro item hitem
    obtain ⟨name, -, rfl⟩ := List.mem_map.mp hitem
    exact ⟨⟨valid_nameToken k name, endsBefore_nameToken k name (by decide), trivial⟩,
      ⟨valid_nameToken k name, endsBefore_nameToken k name (by decide), trivial⟩⟩
  have hclose : Separated [.token (.symbol .rparen)] next :=
    (separated_paren _ (.inr rfl) [] next).mpr trivial
  have hlist := hnames.append hclose
  exact ⟨(by decide : IsWord "PRIMARY".toList), rfl, trivial, rfl,
    (by decide : IsWord "KEY".toList), rfl, (separated_paren _ (.inl rfl) _ next).mpr hlist⟩

/-! ### Reading the definitions -/

theorem tokens_columnPieces (notNull : Bool) (column : ColumnDefinition) :
    tokens (columnPieces k notNull column) = nameToken k column.name ::
      .word (typeName (toSQLiteType column.type)) ::
        (tokens (defaultPieces column.default) ++ tokens (notNullPieces notNull)) := by
  simp [columnPieces]

theorem tokens_defaultPieces (default : Default) : tokens (defaultPieces (some default)) =
    .word "DEFAULT".toList :: .symbol .lparen :: (tokens default.pieces ++ [.symbol .rparen]) := by
  simp [defaultPieces]

theorem whole_columnPieces (notNull : Bool) (column : ColumnDefinition) :
    Whole (tokens (columnPieces k notNull column)) := by
  have hname := (isAtom_nameToken k column.name).whole
  have htype : Whole [.word (typeName (toSQLiteType column.type))] :=
    (isAtom_word _).whole
  have hdefault : Whole (tokens (defaultPieces column.default)) := by
    cases column.default with
    | none => exact whole_nil
    | some default =>
      rw [tokens_defaultPieces]
      have hword : Whole [.word "DEFAULT".toList] := (isAtom_word _).whole
      exact hword.append (whole_paren default.balanced)
  have hnotNull : Whole (tokens (notNullPieces notNull)) := by
    apply whole_of_forall
    cases notNull <;> decide
  rw [tokens_columnPieces]
  exact hname.append (htype.append (hdefault.append hnotNull))

/-- What follows the name of a column, without the default. -/
theorem outer_columnTokens (notNull : Bool) (column : ColumnDefinition) :
    outer (.word (typeName (toSQLiteType column.type)) ::
        (tokens (defaultPieces column.default) ++ tokens (notNullPieces notNull))) 0 =
      .word (typeName (toSQLiteType column.type)) ::
        ((if column.default.isSome then [.word "DEFAULT".toList] else []) ++
          tokens (notNullPieces notNull)) := by
  have hnotNull : outer (tokens (notNullPieces notNull)) 0 = tokens (notNullPieces notNull) := by
    cases notNull <;> rfl
  rw [outer_cons (isAtom_word _)]
  cases column.default with
  | none => rw [defaultPieces, tokens_nil, List.nil_append, hnotNull]; rfl
  | some default =>
    rw [tokens_defaultPieces, List.cons_append, outer_cons (isAtom_word _), List.cons_append,
      List.append_assoc, List.singleton_append, outer_paren default.balanced, hnotNull]
    rfl

/-- `NOT NULL` is found where it has been written, and nothing else is taken for it or for a key. -/
theorem readItem_columnPieces (notNull : Bool) (column : ColumnDefinition) :
    readItem (tokens (columnPieces k notNull column)) =
      some (.column column.name notNull false) := by
  have hkeywords : (definitionKeywords.any fun word =>
      readsAs (String.ofList word) (nameToken k column.name)) = false := by
    rw [List.any_eq_false]
    intro word hword
    rw [not_readsAs_nameToken k column.name (by simpa using hword)]
    decide
  rw [tokens_columnPieces, readItem, not_readsAs_nameToken k column.name (by decide), hkeywords,
    nameOf_nameToken, declaresNotNull, declaresPrimaryKey, outer_columnTokens]
  obtain ⟨name, type, default⟩ := column
  cases type <;> cases default <;> cases notNull <;> rfl

theorem tokens_keyPieces (names : List Text) : tokens (keyPieces k names) =
    .word "PRIMARY".toList :: .word "KEY".toList :: .symbol .lparen ::
      ([.symbol .comma].intercalate (names.map fun name => [nameToken k name]) ++
        [.symbol .rparen]) := by
  simp [keyPieces, tokens_itemPieces, Function.comp_def]

theorem nesting_names (names : List Text) :
    nesting ([.symbol .comma].intercalate (names.map fun name => [nameToken k name])) 0 =
      some 0 := by
  induction names with
  | nil => rfl
  | cons name names ih =>
    have hatom := isAtom_nameToken k name
    cases names with
    | nil => simp [nesting, hatom.1, hatom.2.1]
    | cons next names =>
      rw [List.map_cons, List.map_cons, List.intercalate_cons_cons, List.append_assoc,
        List.singleton_append, List.singleton_append, nesting, if_neg hatom.1, if_neg hatom.2.1,
        nesting, if_neg (by decide), if_neg (by decide)]
      exact ih

theorem whole_keyPieces (names : List Text) : Whole (tokens (keyPieces k names)) := by
  have hwords : Whole [.word "PRIMARY".toList, .word "KEY".toList] :=
    whole_of_forall (by decide)
  rw [tokens_keyPieces]
  exact hwords.append (whole_paren (nesting_names k names))

/-- The key columns are read in their order. -/
theorem readItem_keyPieces {names : List Text} (hne : names ≠ []) :
    readItem (tokens (keyPieces k names)) = some (.primaryKey names) := by
  have hwhole : ∀ item ∈ names.map fun name => [nameToken k name], Whole item := by
    intro item hitem
    obtain ⟨name, -, rfl⟩ := List.mem_map.mp hitem
    exact (isAtom_nameToken k name).whole
  have hsplit : splitItems (_ ++ [.symbol .rparen]) 0 [] = _ :=
    splitItems_intercalate (by simpa using hne) hwhole
  have hnames : (names.map fun name => [nameToken k name]).mapM
      (fun item => item.head?.bind nameOf) = some names := by
    have hmap := mapM_map (f := fun item => item.head?.bind nameOf)
      (g := fun name => [nameToken k name]) (h := id) (l := names)
      fun name _ => nameOf_nameToken k name
    rwa [List.map_id] at hmap
  rw [tokens_keyPieces, readItem, if_pos (by decide), List.drop_one, List.tail_cons, readNames,
    hsplit]
  simp [hnames]

end Pieces

/-! ### Reading the statement -/

section Statement

variable (k : Keywords) (notNull : ℕ → Text → Bool) (key : List Text)

/-- The definitions of columns, and a primary key that is a constraint of the table. -/
def itemsOf (columns : List ColumnDefinition) : List (List Piece) :=
  columns.zipIdx.map (fun column => columnPieces k (notNull column.2 column.1.name) column.1) ++
    if key = [] then [] else [keyPieces k key]

def readItemsOf (columns : List ColumnDefinition) : List Item :=
  columns.zipIdx.map (fun column => .column column.1.name (notNull column.2 column.1.name) false) ++
    if key = [] then [] else [.primaryKey key]

def createTablePieces (ifNotExists : Bool) : List Piece :=
  [.token (.word "CREATE".toList), .space, .token (.word "TABLE".toList), .space] ++
    if ifNotExists then [.token (.word "IF".toList), .space, .token (.keyword .not_), .space,
      .token (.word "EXISTS".toList), .space] else []

def statementPieces (ifNotExists : Bool) (name : Text) (columns : List ColumnDefinition) :
    List Piece :=
  createTablePieces ifNotExists ++
    (.token (nameToken k name) :: .token (.symbol .lparen) ::
      (itemPieces (itemsOf k notNull key columns) ++
        [.token (.symbol .rparen), .token (.symbol .semicolon)]))

theorem createTable_eq (ifNotExists : Bool) :
    createTable ifNotExists = render (createTablePieces ifNotExists) := by
  cases ifNotExists <;> decide

theorem separated_createTablePieces (ifNotExists : Bool) (next : Option Char) :
    Separated (createTablePieces ifNotExists) next := by
  cases ifNotExists with
  | false =>
    exact ⟨(by decide : IsWord "CREATE".toList), rfl, trivial, rfl,
      (by decide : IsWord "TABLE".toList), rfl, trivial, rfl, trivial⟩
  | true =>
    exact ⟨(by decide : IsWord "CREATE".toList), rfl, trivial, rfl,
      (by decide : IsWord "TABLE".toList), rfl, trivial, rfl,
      (by decide : IsWord "IF".toList), rfl, trivial, rfl, trivial, rfl, trivial, rfl,
      (by decide : IsWord "EXISTS".toList), rfl, trivial, rfl, trivial⟩

variable {k notNull key}

theorem mem_itemsOf {columns : List ColumnDefinition} {item : List Piece}
    (h : item ∈ itemsOf k notNull key columns) :
    (∃ b column, item = columnPieces k b column) ∨ item = keyPieces k key := by
  rcases List.mem_append.mp h with h | h
  · obtain ⟨column, -, rfl⟩ := List.mem_map.mp h
    exact .inl ⟨_, _, rfl⟩
  · split at h
    · cases h
    · exact .inr (List.mem_singleton.mp h)

theorem separated_statementPieces (ifNotExists : Bool) (name : Text)
    (columns : List ColumnDefinition) :
    Separated (statementPieces k notNull key ifNotExists name columns) none := by
  have hitems : Separated (itemPieces (itemsOf k notNull key columns)) (some ')') := by
    apply separated_itemPieces
    intro item hitem
    rcases mem_itemsOf hitem with ⟨b, column, rfl⟩ | rfl
    · exact ⟨separated_columnPieces k b column (.inl rfl),
        separated_columnPieces k b column (.inr rfl)⟩
    · exact ⟨separated_keyPieces k key _, separated_keyPieces k key _⟩
  have hclose : Separated [.token (.symbol .rparen), .token (.symbol .semicolon)] none :=
    ⟨trivial, rfl, trivial, rfl, trivial⟩
  have hbody : Separated (.token (nameToken k name) :: .token (.symbol .lparen) ::
      (itemPieces (itemsOf k notNull key columns) ++
        [.token (.symbol .rparen), .token (.symbol .semicolon)])) none :=
    ⟨valid_nameToken k name, endsBefore_nameToken k name (by decide),
      (separated_paren _ (.inl rfl) _ none).mpr (hitems.append hclose)⟩
  exact (separated_createTablePieces ifNotExists _).append hbody

theorem tokens_statementPieces (ifNotExists : Bool) (name : Text)
    (columns : List ColumnDefinition) :
    tokens (statementPieces k notNull key ifNotExists name columns) =
      .word "CREATE".toList :: .word "TABLE".toList ::
        ((if ifNotExists then [.word "IF".toList, .keyword .not_, .word "EXISTS".toList] else []) ++
          (nameToken k name :: .symbol .lparen ::
            ([.symbol .comma].intercalate ((itemsOf k notNull key columns).map tokens) ++
              [.symbol .rparen, .symbol .semicolon]))) := by
  cases ifNotExists <;> simp [statementPieces, createTablePieces, tokens_itemPieces]

theorem readBody_items (name : Text) {columns : List ColumnDefinition} (hne : columns ≠ []) :
    readBody (nameToken k name :: .symbol .lparen ::
        ([.symbol .comma].intercalate ((itemsOf k notNull key columns).map tokens) ++
          [.symbol .rparen, .symbol .semicolon])) =
      some (declaration (readItemsOf notNull key columns)) := by
  have hwhole : ∀ item ∈ (itemsOf k notNull key columns).map tokens, Whole item := by
    intro item hitem
    obtain ⟨pieces, hpieces, rfl⟩ := List.mem_map.mp hitem
    rcases mem_itemsOf hpieces with ⟨b, column, rfl⟩ | rfl
    · exact whole_columnPieces k b column
    · exact whole_keyPieces k key
  have hsplit : splitItems (_ ++ [.symbol .rparen, .symbol .semicolon]) 0 [] = _ :=
    splitItems_intercalate (by simp [itemsOf, hne]) hwhole
  have hread : ((itemsOf k notNull key columns).map tokens).mapM readItem =
      some (readItemsOf notNull key columns) := by
    have hcolumns := mapM_map (f := readItem) (l := columns.zipIdx) fun column _ =>
      readItem_columnPieces k (notNull column.2 column.1.name) column.1
    rw [itemsOf, List.map_append, List.mapM_append, List.map_map]
    rw [Function.comp_def, hcolumns, readItemsOf]
    by_cases hkey : key = []
    · simp [hkey]
    · simp [hkey, readItem_keyPieces k hkey]
  rw [readBody, nameOf_nameToken, Option.bind_some, hsplit, Option.bind_some, if_pos rfl, hread]
  rfl

theorem read_statementPieces (ifNotExists : Bool) (name : Text) {columns : List ColumnDefinition}
    (hne : columns ≠ []) :
    read (render (statementPieces k notNull key ifNotExists name columns)) =
      some (declaration (readItemsOf notNull key columns)) := by
  rw [read, tokenize_render (separated_statementPieces ifNotExists name columns),
    tokens_statementPieces, Option.bind_some, readStatement, if_pos (by decide)]
  cases ifNotExists with
  | true => exact readBody_items name hne
  | false =>
    have hif : readsAs "IF" (nameToken k name) = false := not_readsAs_nameToken k name (by decide)
    simp only [Bool.false_eq_true, if_false, List.nil_append, List.head?_cons, Option.any_some, hif]
    exact readBody_items name hne

end Statement

/-! ### The statement for the entry of a table -/

section Entry

variable {k : Keywords} {t : Table} {entry : TableEntry}

/-- The columns of the primary key, in the order of the columns. -/
def keyOf (t : Table) : List Text :=
  ((ordinary t.tableXinfo).filter fun row => row.pk ≠ 0).map fun row => row.column.name

theorem constraints_eq (h : EntryOf t entry) : entry.constraints =
    notNulls 0 (ordinary t.tableXinfo) ++
      if keyOf t = [] then [] else [.unique none (keyOf t) true] := by
  refine h.constraints.trans (congrArg _ ?_)
  change (if (keyOf t).isEmpty then [] else [Constraint.unique none (keyOf t) true]) = _
  cases keyOf t <;> rfl

theorem eq_notNull_of_mem {cid : ℕ} {rows : List InfoRow} {constraint : Constraint}
    (h : constraint ∈ notNulls cid rows) : ∃ i, constraint = .notNull i := by
  induction rows generalizing cid with
  | nil => cases h
  | cons row rows ih =>
    rcases List.mem_append.mp h with h | h
    · split at h
      · exact ⟨cid, List.mem_singleton.mp h⟩
      · cases h
    · exact ih h

/-- The collections that have nothing from `NOT NULL` constraints come from the primary key. -/
theorem filterMap_constraints {α : Type} (h : EntryOf t entry) {f : Constraint → Option α}
    (hf : ∀ i, f (.notNull i) = none) : entry.constraints.filterMap f =
      if keyOf t = [] then [] else (f (.unique none (keyOf t) true)).toList := by
  have hnone : (notNulls 0 (ordinary t.tableXinfo)).filterMap f = [] := by
    rw [List.filterMap_eq_nil_iff]
    intro constraint hconstraint
    obtain ⟨i, rfl⟩ := eq_notNull_of_mem hconstraint
    exact hf i
  rw [constraints_eq h, List.filterMap_append, hnone, List.nil_append]
  split
  · rfl
  · rw [List.filterMap_cons]
    cases f (.unique none (keyOf t) true) <;> rfl

theorem singleColumns_entry (h : EntryOf t entry) (isPrimaryKey : Bool) :
    singleColumns isPrimaryKey entry.constraints = [] := by
  rw [singleColumns, filterMap_constraints h fun _ => rfl]
  split <;> rfl

theorem render_keyPieces (names : List Text) : render (keyPieces k names) =
    "PRIMARY KEY".toList ++
      ('(' :: ([',', ' '].intercalate (names.map (writeOptionallyQuoted k)) ++ [')'])) := by
  have hnames : (names.map fun name => render [.token (nameToken k name)]) =
      names.map (writeOptionallyQuoted k) := by
    apply List.map_congr_left
    intro name _
    rw [writeOptionallyQuoted_eq]
    simp [Piece.text]
  rw [keyPieces, render_append, render_append, render_itemPieces, List.map_map, Function.comp_def,
    hnames]
  rfl

theorem extraConstraints_entry (h : EntryOf t entry) : extraConstraints k entry.constraints =
    if keyOf t = [] then [] else [render (keyPieces k (keyOf t))] := by
  rw [extraConstraints, filterMap_constraints h fun _ => rfl, render_keyPieces]
  rfl

theorem definition_entry (h : EntryOf t entry) (i : ℕ) (column : ColumnDefinition) :
    definition k entry.constraints i column =
      render (columnPieces k (writesNotNull entry.constraints i column.name) column) := by
  have hnotNull (b : Bool) :
      (if b then " NOT NULL".toList else []) = render (notNullPieces b) := by
    cases b <;> decide
  rw [definition, singleColumns_entry h, singleColumns_entry h, writeOptionallyQuoted_eq,
    columnText_eq, columnPieces, render_append, render_append, hnotNull]
  simp [Piece.text, Token.text]

/-- The text that is written is that of the pieces. -/
theorem getCreateTableSQL_entry (h : EntryOf t entry) (ifNotExists : Bool) (name : Text) :
    getCreateTableSQL k ifNotExists name entry = render (statementPieces k
      (writesNotNull entry.constraints) (keyOf t) ifNotExists name entry.columns) := by
  have hitems : (itemsOf k (writesNotNull entry.constraints) (keyOf t) entry.columns).map render =
      entry.columns.zipIdx.map (fun column => definition k entry.constraints column.2 column.1) ++
        extraConstraints k entry.constraints := by
    rw [itemsOf, List.map_append, List.map_map, extraConstraints_entry h]
    congr 1
    · apply List.map_congr_left
      intro column _
      exact (definition_entry h column.2 column.1).symm
    · by_cases hkey : keyOf t = []
      · simp only [if_pos hkey, List.map_nil]
      · simp only [if_neg hkey, List.map_cons, List.map_nil]
  rw [getCreateTableSQL, createTable_eq, columnsToSQL, ← hitems, ← render_itemPieces,
    writeOptionallyQuoted_eq, statementPieces, render_append, render_cons, render_cons,
    render_append]
  simp only [render_cons, render_nil, Piece.text, Token.text, Symbol.text, List.append_assoc,
    List.cons_append, List.nil_append]

end Entry

/-! ### What the statement declares -/

section Declared

variable {t : Table} {entry : TableEntry}

/-- The table has no generated columns. -/
def Ordinary (t : Table) : Prop := ∀ column ∈ t.columns, column.hidden = false

theorem ordinary_tableXinfo (ht : Ordinary t) : ordinary t.tableXinfo = t.tableXinfo := by
  rw [ordinary, List.filter_eq_self]
  intro row hrow
  have hmem : row.column ∈ t.columns := t.column_tableXinfo ▸ List.mem_map_of_mem hrow
  simp [ht row.column hmem]

theorem notNullColumns_append (cs ds : List Constraint) :
    notNullColumns (cs ++ ds) = notNullColumns cs ++ notNullColumns ds :=
  List.filterMap_append

theorem mem_notNullColumns {cid i : ℕ} {rows : List InfoRow} :
    i ∈ notNullColumns (notNulls cid rows) ↔
      ∃ j row, rows[j]? = some row ∧ row.column.notNull = true ∧ i = cid + j := by
  induction rows generalizing cid with
  | nil => simp [notNulls, notNullColumns]
  | cons row rows ih =>
    rw [notNulls, notNullColumns_append, List.mem_append, ih]
    constructor
    · rintro (h | ⟨j, row', hj, hrow', rfl⟩)
      · by_cases hrow : row.column.notNull = true
        · exact ⟨0, row, rfl, hrow, by simpa [hrow, notNullColumns] using h⟩
        · simp [hrow, notNullColumns] at h
      · exact ⟨j + 1, row', by simpa using hj, hrow', by omega⟩
    · rintro ⟨j, row', hj, hrow', rfl⟩
      cases j with
      | zero =>
        obtain rfl : row = row' := by simpa using hj
        exact .inl (by simp [hrow', notNullColumns])
      | succ j => exact .inr ⟨j, row', by simpa using hj, hrow', by omega⟩

theorem notNullColumns_entry (h : EntryOf t entry) : notNullColumns entry.constraints =
    notNullColumns (notNulls 0 (ordinary t.tableXinfo)) := by
  rw [constraints_eq h, notNullColumns_append]
  split <;> simp [notNullColumns]

theorem multiKeyPks_entry (h : EntryOf t entry) :
    multiKeyPks entry.constraints = (keyOf t).map fold := by
  have hnone : multiKeyPks (notNulls 0 (ordinary t.tableXinfo)) = [] := by
    rw [multiKeyPks, List.flatMap_eq_nil_iff]
    intro constraint hconstraint
    obtain ⟨i, rfl⟩ := eq_notNull_of_mem hconstraint
    rfl
  rw [constraints_eq h, multiKeyPks, List.flatMap_append, ← multiKeyPks, hnone]
  split
  · case isTrue hkey => simp [hkey]
  · simp

/-- The position of a column is determined by its name. -/
theorem position_inj {i j : ℕ} {column column' : Column} (hi : t.columns[i]? = some column)
    (hj : t.columns[j]? = some column') (hname : fold column.name = fold column'.name) : i = j := by
  have hlt : i < (t.columns.map fun column => fold column.name).length := by
    simpa using (List.getElem?_eq_some_iff.mp hi).1
  apply (List.getElem?_inj hlt t.names_nodup).mp
  simp [hi, hj, hname]

theorem mem_fold_keyOf (ht : Ordinary t) {i : ℕ} {column : Column}
    (hi : t.columns[i]? = some column) :
    fold column.name ∈ (keyOf t).map fold ↔ i ∈ t.primaryKey := by
  rw [keyOf, ordinary_tableXinfo ht]
  simp only [List.map_map, List.mem_map, List.mem_filter, decide_eq_true_eq]
  constructor
  · rintro ⟨row, ⟨hrow, hpk⟩, hname⟩
    obtain ⟨j, hj⟩ := List.mem_iff_getElem?.mp hrow
    obtain ⟨hcolumn, -, hnumber⟩ := Table.getElem?_tableXinfo.mp hj
    obtain rfl : j = i := position_inj hcolumn hi hname
    exact Table.keyNumber_ne_zero.mp (hnumber ▸ hpk)
  · intro hmem
    have hrow : t.tableXinfo[i]? = some ⟨i, column, t.keyNumber i⟩ :=
      Table.getElem?_tableXinfo.mpr ⟨hi, rfl, rfl⟩
    exact ⟨_, ⟨List.mem_of_getElem? hrow, Table.keyNumber_ne_zero.mpr hmem⟩, rfl⟩

/-- A column is written as `NOT NULL` if it is, and not in the primary key. -/
theorem writesNotNull_entry (h : EntryOf t entry) (ht : Ordinary t) {i : ℕ} {column : Column}
    (hi : t.columns[i]? = some column) :
    writesNotNull entry.constraints i column.name =
      (column.notNull && decide (i ∉ t.primaryKey)) := by
  have hnotNull : i ∈ notNullColumns entry.constraints ↔ column.notNull = true := by
    rw [notNullColumns_entry h, ordinary_tableXinfo ht, mem_notNullColumns]
    constructor
    · rintro ⟨j, row, hj, hrow, rfl⟩
      obtain ⟨hcolumn, -⟩ := Table.getElem?_tableXinfo.mp hj
      rw [Nat.zero_add] at hi
      cases hi.symm.trans hcolumn
      exact hrow
    · intro hcolumn
      exact ⟨i, ⟨i, column, t.keyNumber i⟩, Table.getElem?_tableXinfo.mpr ⟨hi, rfl, rfl⟩, hcolumn,
        (Nat.zero_add i).symm⟩
  have hkey : fold column.name ∈ multiKeyPks entry.constraints ↔ i ∈ t.primaryKey := by
    rw [multiKeyPks_entry h, mem_fold_keyOf ht hi]
  rw [writesNotNull, singleColumns_entry h, Bool.eq_iff_iff]
  simp [hnotNull, hkey]

/-- The columns that are written as `NOT NULL`. -/
def writtenNotNull (t : Table) : List Text :=
  (t.columns.zipIdx.filter fun column => column.1.notNull && decide (column.2 ∉ t.primaryKey)).map
    fun column => column.1.name

theorem declaration_columns {α : Type} (f : α → Text) (p : α → Bool) (l : List α)
    (key : List Text) :
    declaration (l.map (fun a => .column (f a) (p a) false) ++
        if key = [] then [] else [.primaryKey key]) =
      ⟨l.map f, (l.filter p).map f, key⟩ := by
  induction l with
  | nil =>
    by_cases hkey : key = []
    · simp [declaration, hkey]
    · simp [declaration, hkey]
  | cons a l ih =>
    obtain ⟨hcolumns, hnotNull, hkey⟩ := Declaration.mk.inj ih
    rw [List.map_cons, List.cons_append, declaration]
    cases hp : p a <;>
      simp only [List.filterMap_cons, List.flatMap_cons, hcolumns, hnotNull, hkey, hp,
        List.filter_cons, List.map_cons, List.nil_append, if_true, if_false, Bool.false_eq_true]

/-- What the written statement declares. -/
theorem declaration_readItemsOf (h : EntryOf t entry) (ht : Ordinary t) :
    declaration (readItemsOf (writesNotNull entry.constraints) (keyOf t) entry.columns) =
      ⟨t.columns.map Column.name, writtenNotNull t, keyOf t⟩ := by
  have hnames : entry.columns.map ColumnDefinition.name = t.columns.map Column.name := by
    rw [h.names, ordinary_tableXinfo ht, ← t.column_tableXinfo, List.map_map]
    rfl
  have hitems : entry.columns.zipIdx.map (fun column => Item.column column.1.name
        (writesNotNull entry.constraints column.2 column.1.name) false) =
      t.columns.zipIdx.map fun column => Item.column column.1.name
        (column.1.notNull && decide (column.2 ∉ t.primaryKey)) false := by
    calc entry.columns.zipIdx.map (fun column => Item.column column.1.name
          (writesNotNull entry.constraints column.2 column.1.name) false)
        = (entry.columns.map ColumnDefinition.name).zipIdx.map fun name => Item.column name.1
            (writesNotNull entry.constraints name.2 name.1) false := by
          rw [List.zipIdx_map, List.map_map]
          rfl
      _ = t.columns.zipIdx.map fun column => Item.column column.1.name
            (writesNotNull entry.constraints column.2 column.1.name) false := by
          rw [hnames, List.zipIdx_map, List.map_map]
          rfl
      _ = _ := by
          apply List.map_congr_left
          intro column hcolumn
          rw [writesNotNull_entry h ht (List.mem_zipIdx_iff_getElem?.mp hcolumn)]
  rw [readItemsOf, hitems, declaration_columns]
  congr 1
  rw [← Function.comp_def Column.name Prod.fst, ← List.map_map, List.zipIdx_map_fst]

/-- **What the written text declares**: the columns of the table, `NOT NULL` for those that are not
in the primary key, and the primary key in the order of the columns. -/
theorem read_getCreateTableSQL {k : Keywords} {parser : Parser} {allVarchar utf8 : Bool}
    (hread : getTableInfo parser allVarchar utf8 t = .ok entry) (ht : Ordinary t)
    (ifNotExists : Bool) (name : Text) : read (getCreateTableSQL k ifNotExists name entry) =
      some ⟨t.columns.map Column.name, writtenNotNull t, keyOf t⟩ := by
  have h := entryOf_getTableInfo hread
  rw [getCreateTableSQL_entry h, read_statementPieces ifNotExists name h.nonempty,
    declaration_readItemsOf h ht]

/-! ### When this is the declaration of the table -/

theorem writtenNotNull_eq_iff : writtenNotNull t = (Table.declared t).notNull ↔
    ∀ i ∈ t.primaryKey, ∀ column, t.columns[i]? = some column → column.notNull = false := by
  have hdeclared : (Table.declared t).notNull =
      (t.columns.zipIdx.filter fun column => column.1.notNull).map fun column => column.1.name := by
    rw [← Function.comp_def Column.name Prod.fst, ← List.map_map, ← Function.comp_def Column.notNull
      Prod.fst, ← List.filter_map, List.zipIdx_map_fst]
    rfl
  have hwritten : writtenNotNull t = ((t.columns.zipIdx.filter fun column =>
      column.1.notNull).filter fun column => decide (column.2 ∉ t.primaryKey)).map
        fun column => column.1.name := by
    simp only [writtenNotNull, List.filter_filter, Bool.and_comm]
  rw [hdeclared, hwritten]
  have hmem (column : Column) (i : ℕ) : (column, i) ∈ t.columns.zipIdx.filter
      (fun column => column.1.notNull) ↔ t.columns[i]? = some column ∧ column.notNull = true := by
    rw [List.mem_filter, List.mem_zipIdx_iff_getElem?]
  constructor
  · intro heq i hi column hcolumn
    have hlength := congrArg List.length heq
    rw [List.length_map, List.length_map, List.length_filter_eq_length_iff] at hlength
    by_contra hnotNull
    have hkey := hlength (column, i) ((hmem column i).mpr ⟨hcolumn, by simpa using hnotNull⟩)
    exact of_decide_eq_true hkey hi
  · intro h
    congr 1
    rw [List.filter_eq_self]
    rintro ⟨column, i⟩ hcolumn
    obtain ⟨hi, hnotNull⟩ := (hmem column i).mp hcolumn
    apply decide_eq_true
    intro hkey
    rw [h i hkey column hi] at hnotNull
    cases hnotNull

/-- The columns of the primary key in the order of the columns, by their positions. -/
def keyCids (t : Table) : List ℕ :=
  (t.tableXinfo.filter fun row => row.pk ≠ 0).map InfoRow.cid

def nameAt (t : Table) (i : ℕ) : Option Text := t.columns[i]?.map Column.name

theorem pairwise_keyCids (t : Table) : (keyCids t).Pairwise (· < ·) := by
  have hcids : t.tableXinfo.map InfoRow.cid = List.range t.columns.length := by
    apply List.ext_getElem?
    intro i
    simp only [Table.tableXinfo, List.getElem?_map, List.getElem?_mapIdx, Option.map_map]
    by_cases hi : i < t.columns.length
    · simp [hi]
    · simp [hi]
  exact (hcids ▸ List.pairwise_lt_range).sublist (List.filter_sublist.map InfoRow.cid)

theorem mem_keyCids {i : ℕ} : i ∈ keyCids t ↔ i ∈ t.primaryKey := by
  simp only [keyCids, List.mem_map, List.mem_filter, decide_eq_true_eq]
  constructor
  · rintro ⟨row, ⟨hrow, hpk⟩, rfl⟩
    obtain ⟨j, hj⟩ := List.mem_iff_getElem?.mp hrow
    obtain ⟨-, rfl, hnumber⟩ := Table.getElem?_tableXinfo.mp hj
    exact Table.keyNumber_ne_zero.mp (hnumber ▸ hpk)
  · intro hi
    obtain ⟨column, hcolumn, -⟩ := t.primaryKey_ordinary i hi
    have hrow : t.tableXinfo[i]? = some ⟨i, column, t.keyNumber i⟩ :=
      Table.getElem?_tableXinfo.mpr ⟨hcolumn, rfl, rfl⟩
    exact ⟨_, ⟨List.mem_of_getElem? hrow, Table.keyNumber_ne_zero.mpr hi⟩, rfl⟩

theorem keyOf_eq_filterMap (ht : Ordinary t) : keyOf t = (keyCids t).filterMap (nameAt t) := by
  rw [keyOf, ordinary_tableXinfo ht, keyCids, List.filterMap_map, ← List.filterMap_eq_map]
  apply List.filterMap_congr
  intro row hrow
  obtain ⟨i, hi⟩ := List.mem_iff_getElem?.mp (List.mem_of_mem_filter hrow)
  obtain ⟨hcolumn, rfl, -⟩ := Table.getElem?_tableXinfo.mp hi
  simp [nameAt, hcolumn]

/-- The positions can be found again by the names. -/
theorem map_idxOf_filterMap_nameAt {key : List ℕ}
    (h : ∀ i ∈ key, ∃ column, t.columns[i]? = some column) :
    (key.filterMap (nameAt t)).map
        (fun name => (t.columns.map fun column => fold column.name).idxOf (fold name)) = key := by
  induction key with
  | nil => rfl
  | cons i key ih =>
    obtain ⟨column, hcolumn⟩ := h i List.mem_cons_self
    have hrest := ih fun j hj => h j (List.mem_cons_of_mem i hj)
    obtain ⟨hi, rfl⟩ := List.getElem?_eq_some_iff.mp hcolumn
    have hidx := t.names_nodup.idxOf_getElem i (by simpa using hi)
    rw [List.getElem_map] at hidx
    simp [nameAt, hi, hrest, hidx]

/-- The key is the same if its columns are in the order of the table: the names tell the positions,
and there is only one list of these positions in order. -/
theorem keyOf_eq_iff (ht : Ordinary t) :
    keyOf t = (Table.declared t).primaryKey ↔ t.primaryKey.Pairwise (· < ·) := by
  have hcolumns : ∀ i ∈ t.primaryKey, ∃ column, t.columns[i]? = some column := by
    intro i hi
    obtain ⟨column, hcolumn, -⟩ := t.primaryKey_ordinary i hi
    exact ⟨column, hcolumn⟩
  rw [keyOf_eq_filterMap ht]
  constructor
  · intro heq
    have hmap := congrArg (List.map fun name =>
      (t.columns.map fun column => fold column.name).idxOf (fold name)) heq
    have hleft := map_idxOf_filterMap_nameAt (t := t) fun i hi => hcolumns i (mem_keyCids.mp hi)
    have hright := map_idxOf_filterMap_nameAt hcolumns
    rw [hleft] at hmap
    rw [← hright]
    exact hmap ▸ pairwise_keyCids t
  · intro hsorted
    have hperm : (keyCids t).Perm t.primaryKey := by
      rw [List.perm_ext_iff_of_nodup ((pairwise_keyCids t).imp Nat.ne_of_lt) t.primaryKey_nodup]
      exact fun i => mem_keyCids
    have heq : keyCids t = t.primaryKey :=
      hperm.eq_of_pairwise (fun a b _ _ hab hba => absurd hab (Nat.lt_asymm hba))
        (pairwise_keyCids t) hsorted
    rw [heq]
    rfl

/-- **The statement that is written for the entry of a table declares what the table was declared
with exactly if no column of the primary key is `NOT NULL`, and the primary key has its columns in
the order of the table.** -/
theorem read_getCreateTableSQL_iff {k : Keywords} {parser : Parser} {allVarchar utf8 : Bool}
    (hread : getTableInfo parser allVarchar utf8 t = .ok entry) (ht : Ordinary t)
    (ifNotExists : Bool) (name : Text) :
    read (getCreateTableSQL k ifNotExists name entry) = some (Table.declared t) ↔
      (∀ i ∈ t.primaryKey, ∀ column, t.columns[i]? = some column → column.notNull = false) ∧
        t.primaryKey.Pairwise (· < ·) := by
  rw [read_getCreateTableSQL hread ht, ← writtenNotNull_eq_iff, ← keyOf_eq_iff ht, Option.some_inj]
  constructor
  · intro heq
    rw [← heq]
    exact ⟨rfl, rfl⟩
  · rintro ⟨hnotNull, hkey⟩
    rw [hnotNull, hkey]
    rfl

end Declared

/-! ### Two tables -/

/-- Names are quoted unless they are identifiers and no keywords of those above. -/
def Keywords.small : Keywords where
  requiresQuotes name := !decide (IsWord name)
  keywordCheck name := (keyword? name).isSome || definitionKeywords.contains (upper name)
  identifier := by
    intro name h
    have hword : IsWord name := by simpa using h
    exact ⟨hword.1, hword.2.1⟩
  keywords := by
    intro name h
    simpa using h

def intColumn (name : Text) (notNull : Bool) : Column :=
  ⟨name, "int".toList, notNull, [], false⟩

/-- `CREATE TABLE t(a INT NOT NULL, b INT, PRIMARY KEY (b, a))`. -/
def reversedKey : Table where
  columns := [intColumn ['a'] true, intColumn ['b'] false]
  primaryKey := [1, 0]
  indexes := []
  names_nodup := by decide
  primaryKey_nodup := by decide
  primaryKey_ordinary := by simp [intColumn]
  unique_columns := by simp

/-- `CREATE TABLE t(a INT, b INT NOT NULL DEFAULT 1, c INT, PRIMARY KEY (a, c))`. -/
def orderedKey : Table where
  columns := [intColumn ['a'] false, { intColumn ['b'] true with default := ['1'] },
    intColumn ['c'] false]
  primaryKey := [0, 2]
  indexes := []
  names_nodup := by decide
  primaryKey_nodup := by decide
  primaryKey_ordinary := by simp [intColumn]
  unique_columns := by simp

/-- The `NOT NULL` of `a` and the order of the key are lost. -/
theorem notNull_and_key_order_are_lost : ∃ entry,
    getTableInfo Parser.one false true reversedKey = .ok entry ∧
      (Table.declared reversedKey) = ⟨[['a'], ['b']], [['a']], [['b'], ['a']]⟩ ∧
      read (getCreateTableSQL Keywords.small false ['t'] entry) =
        some ⟨[['a'], ['b']], [], [['a'], ['b']]⟩ ∧
      read (getCreateTableSQL Keywords.small false ['t'] entry) ≠
        some (Table.declared reversedKey) := by
  obtain ⟨entry, hread⟩ : ∃ entry,
      getTableInfo Parser.one false true reversedKey = .ok entry := ⟨_, rfl⟩
  have hordinary : Ordinary reversedKey := by simp [Ordinary, reversedKey, intColumn]
  refine ⟨entry, hread, rfl, ?_⟩
  rw [read_getCreateTableSQL hread hordinary]
  exact ⟨by decide, by decide⟩

theorem read_getCreateTableSQL_orderedKey : ∃ entry,
    getTableInfo Parser.one false true orderedKey = .ok entry ∧ Ordinary orderedKey ∧
      read (getCreateTableSQL Keywords.small false ['t'] entry) =
        some (Table.declared orderedKey) := by
  obtain ⟨entry, hread⟩ : ∃ entry,
      getTableInfo Parser.one false true orderedKey = .ok entry := ⟨_, rfl⟩
  have hordinary : Ordinary orderedKey := by simp [Ordinary, orderedKey, intColumn]
  refine ⟨entry, hread, hordinary,
    (read_getCreateTableSQL_iff hread hordinary false ['t']).mpr ⟨?_, by decide⟩⟩
  intro i hi column hcolumn
  have hcases : i = 0 ∨ i = 2 := by simpa [orderedKey] using hi
  rcases hcases with rfl | rfl <;> cases hcolumn <;> rfl

end SqliteScanner.SchemaRoundTrip
