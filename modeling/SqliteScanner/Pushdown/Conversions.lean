import SqliteScanner.Pushdown.Resolution

/-!
# Columns that are converted when they are read

DuckDB does not read all columns of a SQLite table as they are stored: dates are parsed, and strings
are compared as bytes whatever the collation of the column is. When a query is pushed down, such a
column is written with its conversion (`columnRead`), but only if the query uses it. The writer does
not resolve names for this. It collects the names of all columns that the query refers to, and takes
every column with such a name for a used one.

A column is used under the name that it has where it is used. For a reference like `t AS x(b)` that
is not its own name, and the names that are collected are compared with its own name. The columns of
a `USING` list or of a `NATURAL` join are collected as well, but not those of the joins in a member of
a set operation or of a recursive CTE. `convertsUsedColumns_iff` says that these are the columns that
can be missed, and when they are.

How a table is used is found out by a walk through the query (`visit`), in the order in which it is
written, and compared with how the table is written. The names that have been collected depend on the
place, since the query of a view is only collected from when it is put in.

## Main definitions

* `mentionsColumn` — whether a query mentions the name of a column.
* `visit` — the places of the tables in a query, with how their columns are used.
* `ConvertsUsedColumns` — all used columns are converted.

## Main results

* `covers_collectColumnReferences` — what is collected from a query are the names that it mentions.
* `convertsUsedColumns_iff` — when all used columns are converted.
-/

namespace SqliteScanner.Pushdown

open Scoping Runs

variable {α : Type}

/-! ### Names that are mentioned -/

/-- A part of a query mentions the name of a column, at any depth: there is a column reference with
that name, a star, or a join with it in its `USING` list or that is `NATURAL`. The joins in the members
of set operations and of recursive CTEs do not count (`direct` is false in them), other than those of
the subqueries in their expressions. -/
def mentionsColumn (name : Identifier) : {k : Kind} → Syn α k → (direct : Bool) → Bool
  | _, .columnRef _ _ column, _ => column = name
  | _, .star _, _ => true
  | _, .subquery _ children query, _ =>
    mentionsColumn name query true || mentionsColumn name children true
  | _, .operation _ children, _ => mentionsColumn name children true
  | _, .dropped _ operand, _ => mentionsColumn name operand true
  | _, .row values, _ => mentionsColumn name values true
  | _, .cons head tail, direct => mentionsColumn name head direct || mentionsColumn name tail direct
  | _, .join info left right condition, direct =>
    (direct && (info.usingColumns.contains name || info.refType = .natural)) ||
      mentionsColumn name left direct || mentionsColumn name right direct ||
      mentionsColumn name condition true
  | _, .subqueryRef query _, direct => mentionsColumn name query direct
  | _, .expressionList values _, _ => mentionsColumn name values true
  | _, .select ctes selectList fromTable whereClause groups having qualify distinctOn orders limits,
      direct =>
    mentionsColumn name ctes direct || mentionsColumn name selectList true ||
      mentionsColumn name fromTable direct || mentionsColumn name whereClause true ||
      mentionsColumn name groups true || mentionsColumn name having true ||
      mentionsColumn name qualify true || mentionsColumn name distinctOn true ||
      mentionsColumn name orders true || mentionsColumn name limits true
  | _, .setOperation _ _ ctes children orders limits, direct =>
    mentionsColumn name ctes direct || mentionsColumn name children false ||
      mentionsColumn name orders true || mentionsColumn name limits true
  | _, .recursiveCTE _ ctes left right, direct =>
    mentionsColumn name ctes direct || mentionsColumn name left false ||
      mentionsColumn name right false
  | _, .consCTE _ _ query rest, direct =>
    mentionsColumn name query direct || mentionsColumn name rest direct
  | _, _, _ => false

@[simp]
theorem References.covers_union (a b : References) (name : Identifier) :
    (a.union b).covers name = (a.covers name || b.covers name) := by
  rw [Bool.eq_iff_iff]
  simp only [covers, union, Bool.or_eq_true, decide_eq_true_eq, List.mem_append]
  tauto

@[simp]
theorem References.covers_none (name : Identifier) : References.none.covers name = false := by
  simp [covers, none]

theorem covers_join (info : JoinInfo) (direct : Bool) (name : Identifier) :
    References.covers (if direct then ⟨info.usingColumns, info.refType = .natural⟩ else .none) name =
      (direct && (info.usingColumns.contains name || info.refType = .natural)) := by
  cases direct with
  | false => simp
  | true => simp [References.covers, Bool.or_comm]

/-- **What is collected** from a query are the names that it mentions. -/
theorem covers_collectColumnReferences (name : Identifier) {k : Kind} (s : Syn α k) :
    ∀ direct, (collectColumnReferences s direct).covers name = mentionsColumn name s direct := by
  induction s with
  | columnRef _ _ column =>
    intro direct
    simp [collectColumnReferences, mentionsColumn, References.covers, eq_comm]
  | star => simp [collectColumnReferences, mentionsColumn, References.covers]
  | join info left right condition hleft hright hcondition =>
    intro direct
    simp only [collectColumnReferences, mentionsColumn, References.covers_union, covers_join, hleft,
      hright, hcondition, Bool.or_assoc]
  | _ =>
    intro direct
    simp only [collectColumnReferences, mentionsColumn, References.covers_union,
      References.covers_none, *]
    try ac_rfl

/-! ### How a `SELECT` uses the columns of its tables -/

/-- The columns of a table with the names that a reference gives them, counted from `i`. -/
def namedColumns (aliases : List Identifier) :
    List ColumnDefinition → ℕ → List (ColumnDefinition × Identifier)
  | [], _ => []
  | column :: columns, i =>
    (column, (aliases[i]?).getD column.name) :: namedColumns aliases columns (i + 1)

/-- Names, of which the first ones are replaced by aliases. -/
def renameColumns (aliases names : List Identifier) : List Identifier :=
  aliases ++ names.drop aliases.length

/-- A `SEMI` or `ANTI` join only has the columns of its left side. -/
def JoinInfo.hidesRight (info : JoinInfo) : Bool :=
  info.type = .semi ∨ info.type = .anti

/-- The names of the columns of a table reference. -/
def columnNames (ctx : Context α) (scopes : List (CTEMap α)) : {k : Kind} → Syn α k → List Identifier
  | _, .baseTable note ref entry =>
    if isCTEReference scopes ref then
      renameColumns ref.columnNameAlias
        (ctx.inferQueryTypes scopes (probe (.baseTable note { ref with tableAlias := none } .notFound)))
    else match entry with
      | .notFound => []
      | .table table => (namedColumns ref.columnNameAlias table.columns 0).map Prod.snd
      | .view aliases query =>
        renameColumns (viewAliases ref aliases) (ctx.inferQueryTypes scopes query)
  | _, .join info left right _ =>
    columnNames ctx scopes left ++ if info.hidesRight then [] else columnNames ctx scopes right
  | _, .subqueryRef query tableAlias =>
    renameColumns ((tableAlias.map TableAlias.columns).getD []) (ctx.inferQueryTypes scopes query)
  | _, .expressionList values tableAlias =>
    ctx.inferQueryTypes scopes (probe (.expressionList values tableAlias))
  | _, _ => []

/-- The stars in expressions, other than those in subqueries. -/
def ownStars : {k : Kind} → Syn α k → List (Option Identifier)
  | _, .star relation => [relation]
  | _, .operation _ children => ownStars children
  | _, .subquery _ children _ => ownStars children
  | _, .cons head tail => ownStars head ++ ownStars tail
  | _, _ => []

/-- How a `SELECT` uses the columns of the tables in its `FROM` clause. -/
structure Use where
  /-- The columns that its expressions refer to, at any depth, with the table references that have
  them. -/
  columns : List (Identifier × Identifier)
  /-- Its stars. -/
  stars : List (Option Identifier)
  /-- The columns of the `USING` lists of the joins around the table, and of the other sides of the
  `NATURAL` joins around it. -/
  joined : List Identifier

namespace Use

/-- Nothing uses the columns. -/
def none : Use := ⟨[], [], []⟩

/-- The use by a `SELECT`. What it uses is bound outside of its expressions and not outside of it. -/
def ofSelect (selectList : Expressions α) (fromTable : TableRef α)
    (whereClause groups having qualify distinctOn orders limits : Expressions α) : Use where
  columns :=
    (outerColumns selectList ++ outerColumns fromTable ++ outerColumns whereClause ++
      outerColumns groups ++ outerColumns having ++ outerColumns qualify ++
      outerColumns distinctOn ++ outerColumns orders ++ outerColumns limits).filterMap fun
        | (0, column) => some column
        | (_ + 1, _) => Option.none
  stars := ownStars selectList ++ ownStars whereClause ++ ownStars groups ++ ownStars having ++
    ownStars qualify
  joined := []

/-- The names of the columns of a reference that are used, or all of them. -/
def references (use : Use) (binding : Identifier) : References where
  names := (use.columns.filter fun column => column.1 = binding).map Prod.snd ++ use.joined
  all := use.stars.any fun relation => relation = Option.none ∨ relation = some binding

/-- The use of one side of a join, where the other one has the columns `other`. -/
def side (use : Use) (info : JoinInfo) (other : List Identifier) : Use :=
  { use with
    joined := use.joined ++ info.usingColumns ++ if info.refType = .natural then other else [] }

/-- The use of the right side of a join by what is around it. -/
def right (use : Use) (info : JoinInfo) : Use :=
  if info.hidesRight then { use with stars := [], joined := [] } else use

end Use

/-! ### The places of tables -/

/-- A place where a table name is written. -/
structure Place (α : Type) where
  uses : References
  ref : BaseTableRef
  /-- The table that the name denotes, if it is not that of a CTE. -/
  table : Option TableEntry
  /-- The queries that names have been collected from before: the query itself, and those of the views
  that have been put in. -/
  collected : List (QueryNode α)

/-- A walk through a part of a query finds places, and collects from the queries of views. -/
abbrev Visit (α : Type) := List (QueryNode α) → List (Place α) × List (QueryNode α)

namespace Visit

def nil : Visit α := fun collected => ([], collected)

def both (f g : Visit α) : Visit α := fun collected =>
  ((f collected).1 ++ (g (f collected).2).1, (g (f collected).2).2)

def place (uses : References) (ref : BaseTableRef) (table : Option TableEntry) : Visit α :=
  fun collected => ([⟨uses, ref, table, collected⟩], collected)

/-- The part is not written, but the writer may have been there. -/
def dropped (visited : Bool) (f : Visit α) : Visit α := fun collected =>
  ([], if visited then (f collected).2 else collected)

def ite (written : Bool) (f : Visit α) : Visit α := if written then f else nil

end Visit

open Visit (both)

/-- The walk through a query, in the order in which it is written. `use` is how the enclosing `SELECT`
uses the columns of a table reference. -/
def visit (ctx : Context α) : {k : Kind} → Syn α k → List (CTEMap α) → (use : Use) → Visit α
  | _, .subquery _ children query, scopes, _ =>
    both (visit ctx children scopes .none) (visit ctx query scopes .none)
  | _, .operation _ children, scopes, _ => visit ctx children scopes .none
  | _, .dropped visited operand, scopes, _ => .dropped visited (visit ctx operand scopes .none)
  | _, .row values, scopes, _ => visit ctx values scopes .none
  | _, .cons head tail, scopes, _ => both (visit ctx head scopes .none) (visit ctx tail scopes .none)
  | _, .baseTable _ ref entry, scopes, use =>
    if isCTEReference scopes ref then .place (use.references ref.binding) ref none
    else match entry with
      | .table table => .place (use.references ref.binding) ref (some table)
      | entry => visit ctx entry scopes .none
  | _, .join info left right condition, scopes, use =>
    let l := visit ctx left scopes (use.side info (columnNames ctx scopes right))
    let r := visit ctx right scopes ((use.right info).side info (columnNames ctx scopes left))
    both (if info.type = .right then both r l else both l r) (visit ctx condition scopes .none)
  | _, .subqueryRef query _, scopes, _ => visit ctx query scopes .none
  | _, .expressionList values _, scopes, _ => visit ctx values scopes .none
  | _, .view _ query, scopes, _ =>
    fun collected => visit ctx query scopes .none (collected ++ [query])
  | _, .select ctes selectList fromTable whereClause groups having qualify distinctOn orders limits,
      scopes, _ =>
    let scopes := pushScope ctes scopes
    let use := .ofSelect selectList fromTable whereClause groups having qualify distinctOn orders limits
    both (visit ctx ctes scopes .none) (both (visit ctx selectList scopes .none)
      (both (visit ctx distinctOn scopes .none)
        (both (.ite groups.isNil (visit ctx having scopes .none))
          (both (visit ctx qualify scopes .none) (both (visit ctx fromTable scopes use)
            (both (visit ctx whereClause scopes .none) (both (visit ctx groups scopes .none)
              (both (.ite (!groups.isNil) (visit ctx having scopes .none))
                (both (.ite (!isFiltered groups having qualify distinctOn)
                  (visit ctx orders scopes .none)) (visit ctx limits scopes .none))))))))))
  | _, .setOperation _ _ ctes children orders limits, scopes, _ =>
    let scopes := pushScope ctes scopes
    both (visit ctx ctes scopes .none) (both (visit ctx children scopes .none)
      (both (visit ctx orders scopes .none) (visit ctx limits scopes .none)))
  | _, .recursiveCTE _ ctes left right, scopes, _ =>
    let scopes := pushScope ctes scopes
    both (visit ctx ctes scopes .none)
      (both (visit ctx left scopes .none) (visit ctx right scopes .none))
  | _, .consCTE _ _ query rest, scopes, _ =>
    both (visit ctx query scopes .none) (visit ctx rest scopes .none)
  | _, _, _, _ => .nil

/-- The places of the tables in a query. -/
def places (ctx : Context α) (q : QueryNode α) : List (Place α) :=
  (visit ctx q [] .none [q]).1

/-! ### Converted columns -/

/-- Every column of a table whose value is used at a place, and that has to be converted when it is
read, is written with its conversion. -/
def Converted (place : Place α) (r : Ref Identifier (WrittenRef α)) : Prop :=
  r.name = place.ref.table ∧ match r.note with
    | .cte _ => True
    | .table _ written => ∀ w ∈ written.columns, place.uses.covers w.name = true →
        ∀ conversion, columnRead written.table w.column = .ok (some conversion) →
          w.read = some conversion

/-- All used columns are converted, in the query and in the views that are put into it. -/
def ConvertsUsedColumns (ctx : Context α) (q : QueryNode α) (sql : Sql α) : Prop :=
  List.Forall₂ Converted (places ctx q) (leaves sql)

/-- Whether a column is converted when DuckDB reads it. -/
def needsConversion (table : TableEntry) (column : ColumnDefinition) : Bool :=
  match columnRead table column with
  | .ok (some _) => true
  | .ok none => false
  | .error _ => false

/-- The columns of a table that are used at a place, under the names that the reference gives them, and
that have to be converted. -/
def Place.usedColumns (place : Place α) : List ColumnDefinition :=
  match place.table with
  | some table => ((namedColumns place.ref.columnNameAlias table.columns 0).filter fun c =>
      place.uses.covers c.2 && needsConversion table c.1).map Prod.fst
  | none => []

/-- The used columns of a table are mentioned by their own names, in the query or in one of the views
that have been put in before the place. -/
def MentionsUsedColumns (place : Place α) : Prop :=
  ∀ column ∈ place.usedColumns, ∃ query ∈ place.collected,
    mentionsColumn column.name query true = true

instance (place : Place α) : Decidable (MentionsUsedColumns place) :=
  inferInstanceAs (Decidable (∀ column ∈ place.usedColumns, _))

/-- The names that have been collected are those that are mentioned in some queries. -/
def Collected (queries : List (QueryNode α)) (refs : References) : Prop :=
  ∀ name, refs.covers name = true ↔ ∃ query ∈ queries, mentionsColumn name query true = true

/-- The query of a view is collected from when it is put in. -/
theorem Collected.view {queries : List (QueryNode α)} {refs : References}
    (h : Collected queries refs) (query : QueryNode α) :
    Collected (queries ++ [query]) (refs.union (collectColumnReferences query true)) := by
  intro name
  rw [References.covers_union, Bool.or_eq_true, h name, covers_collectColumnReferences]
  simp only [List.mem_append, List.mem_singleton, or_and_right, exists_or, exists_eq_left]

variable {ctx : Context α} {table : TableEntry}

theorem readColumn_ok {refs : References}
    {column : ColumnDefinition} {result : Option Conversion}
    (h : readColumn ctx refs table column = .ok result) :
    ∃ read, columnRead table column = .ok read ∧
      result = if refs.covers column.name then read else none := by
  obtain ⟨read, hread, h⟩ := bind_eq_ok.mp h
  refine ⟨read, hread, ?_⟩
  cases hcovers : refs.covers column.name with
  | false =>
    simp only [hcovers, Bool.not_false, if_true] at h
    cases h
    rfl
  | true =>
    simp only [hcovers, Bool.not_true, Bool.false_eq_true, if_false] at h
    split at h
    · cases h
    · cases h
      rfl

/-- The columns of a table as they are written. -/
theorem writeColumns_ok {refs : References} {ref : BaseTableRef}
    (columns : List ColumnDefinition) :
    ∀ {i : ℕ} {ws : List WrittenColumn}, writeColumns ctx refs ref table columns i = .ok ws →
      ws.map (fun w => (w.column, w.name)) = namedColumns ref.columnNameAlias columns i ∧
        ∀ w ∈ ws, ∃ read, columnRead table w.column = .ok read ∧
          w.read = if refs.covers w.column.name then read else none := by
  induction columns with
  | nil =>
    intro i ws h
    cases h
    simp [namedColumns]
  | cons column columns ih =>
    intro i ws h
    obtain ⟨read, hread, h⟩ := bind_eq_ok.mp h
    obtain ⟨rest, hrest, h⟩ := bind_eq_ok.mp h
    cases h
    obtain ⟨hmap, hall⟩ := ih hrest
    exact ⟨by simp [namedColumns, hmap], List.forall_mem_cons.mpr ⟨readColumn_ok hread, hall⟩⟩

theorem writeTable_ok {refs : References} {ref : BaseTableRef}
    {written : WrittenTable} (h : writeTable ctx refs ref table = .ok written) :
    written.table = table ∧ writeColumns ctx refs ref table table.columns 0 = .ok written.columns := by
  obtain ⟨columns, hcolumns, h⟩ := bind_eq_ok.mp h
  simp only at h
  split at h
  · cases h
  · cases h
    exact ⟨rfl, hcolumns⟩

theorem needsConversion_iff {column : ColumnDefinition} :
    needsConversion table column = true ↔
      ∃ conversion, columnRead table column = .ok (some conversion) := by
  rw [needsConversion]
  split <;> simp_all

/-- A table is written with the conversions of its used columns exactly if their names have been
collected. -/
theorem converted_table_iff {refs : References} {note : α} (place : Place α)
    {written : WrittenTable} (htable : place.table = some table)
    (h : writeTable ctx refs place.ref table = .ok written) :
    Converted place (place.ref.toRef (.table note written)) ↔
      ∀ column ∈ place.usedColumns, refs.covers column.name = true := by
  obtain ⟨hwritten, hcolumns⟩ := writeTable_ok h
  obtain ⟨hmap, hread⟩ := writeColumns_ok table.columns hcolumns
  have hused : ∀ P : ColumnDefinition → Prop, (∀ column ∈ place.usedColumns, P column) ↔
      ∀ w ∈ written.columns, place.uses.covers w.name = true →
        needsConversion table w.column = true → P w.column := by
    intro P
    simp only [Place.usedColumns, htable, ← hmap, List.mem_filter, List.mem_map, Bool.and_eq_true]
    refine ⟨fun h w hw huses hneeds => h _ ⟨_, ⟨⟨w, hw, rfl⟩, huses, hneeds⟩, rfl⟩, ?_⟩
    rintro h _ ⟨_, ⟨⟨w, hw, rfl⟩, huses, hneeds⟩, rfl⟩
    exact h w hw huses hneeds
  have hname : (place.ref.toRef (WrittenRef.table note written)).name = place.ref.table := rfl
  rw [hused, Converted, and_iff_right hname]
  change (∀ w ∈ written.columns, _ → ∀ conversion, columnRead written.table _ = _ → _) ↔ _
  rw [hwritten]
  refine forall₂_congr fun w hw => forall_congr' fun _ => ?_
  obtain ⟨read, hcolumn, hw⟩ := hread w hw
  rw [needsConversion_iff, hcolumn, hw]
  constructor
  · rintro hconv ⟨conversion, hok⟩
    by_contra hnot
    have := hconv conversion hok
    simp [hnot] at this
  · intro hcovers conversion hok
    rw [if_pos (hcovers ⟨conversion, hok⟩)]
    exact Except.ok.inj hok

/-! ### The writer -/

/-- What is written where a walk finds some places: the columns are converted exactly if they are
mentioned, and the names of the queries have been collected afterwards. -/
structure Converts (visited : List (Place α) × List (QueryNode α))
    (written : List (Ref Identifier (WrittenRef α))) (refs : References) : Prop where
  collected : Collected visited.2 refs
  converted_iff : List.Forall₂ (fun place r => Converted place r ↔ MentionsUsedColumns place)
    visited.1 written

/-- The table names in what is written for a part of a query. -/
def Outline.leaves : {k : Kind} → Outline (WrittenRef α) k → List (Ref Identifier (WrittenRef α))
  | .item _, t => Scoping.leaves t
  | .list _, t => Scoping.leaves t
  | .tableRef, t => Scoping.leaves t
  | .catalogEntry, none => []
  | .catalogEntry, some (_, t) => Scoping.leaves t
  | .cteMap, defs => leavesDefs defs

section Converts

variable {queries : List (QueryNode α)} {f g : Visit α} {refs refs' : References}
  {written written' : List (Ref Identifier (WrittenRef α))}

theorem Converts.nil (h : Collected queries refs) : Converts (Visit.nil queries) [] refs :=
  ⟨h, .nil⟩

theorem Converts.both (h : Converts (f queries) written refs)
    (h' : Converts (g (f queries).2) written' refs') :
    Converts (Visit.both f g queries) (written ++ written') refs' :=
  ⟨h'.collected, List.rel_append h.converted_iff h'.converted_iff⟩

/-- Two parts that are written one after the other. -/
theorem ensures_converts_both {x y : Writer (Sql α)}
    (hx : Ensures x refs fun sql refs => Converts (f queries) (leaves sql) refs)
    (hy : ∀ refs, Collected (f queries).2 refs →
      Ensures y refs fun sql refs => Converts (g (f queries).2) (leaves sql) refs) :
    Ensures (do let l ← x; let r ← y; return .both l r) refs fun sql refs =>
      Converts (Visit.both f g queries) (leaves sql) refs := by
  refine hx.seq fun l refs hl => ?_
  refine (hy refs hl.collected).seq fun r refs hr => ?_
  exact Ensures.pure (hl.both hr)

theorem ensures_converts_ite {part : Writer (Sql α)} (written : Bool)
    (hcollected : Collected queries refs)
    (h : Ensures part refs fun sql refs => Converts (f queries) (leaves sql) refs) :
    Ensures (writeIf written part) refs fun sql refs =>
      Converts (Visit.ite written f queries) (leaves sql) refs := by
  cases written with
  | true => exact h
  | false => exact Ensures.pure (.nil hcollected)

/-- A reference to a CTE has no columns to convert. -/
theorem converts_cte {ref : BaseTableRef} {note : α} {names : List Identifier} {unknown : String}
    {sql : Sql α} (uses : References)
    (h : writeRenamed (.leaf (ref.toRef (.cte note))) ref.columnNameAlias names ref.binding unknown =
      .ok sql) (hcollected : Collected queries refs) :
    Converts (Visit.place uses ref none queries) (leaves sql) refs := by
  refine ⟨hcollected, ?_⟩
  rw [writeRenamed_ok h, leaves_renamed]
  refine .cons ⟨fun _ column hcolumn => ?_, fun _ => ⟨rfl, trivial⟩⟩ .nil
  exact absurd hcolumn List.not_mem_nil

theorem converts_table {ref : BaseTableRef} {note : α}
    {sql : WrittenTable} (uses : References) (h : writeTable ctx refs ref table = .ok sql)
    (hcollected : Collected queries refs) :
    Converts (Visit.place uses ref (some table) queries)
      (leaves (.leaf (ref.toRef (.table note sql)))) refs := by
  refine ⟨hcollected, .cons ?_ .nil⟩
  rw [MentionsUsedColumns]
  simp only [← hcollected _]
  exact converted_table_iff ⟨uses, ref, some table, queries⟩ rfl h

theorem leaves_of_writeRenamed {relation sql : Sql α} {aliases names : List Identifier}
    {name : Identifier} {unknown : String}
    (h : writeRenamed relation aliases names name unknown = .ok sql) :
    leaves sql = leaves relation := by
  rw [writeRenamed_ok h, leaves_renamed]

theorem writeBaseTableRef_converts {scopes : List (CTEMap α)} {note : α}
    {ref : BaseTableRef} {entry : CatalogEntry α} (use : Use)
    {writeEntry : Writer (Option (List Identifier × Sql α))} (hcollected : Collected queries refs)
    (hentry : Ensures writeEntry refs fun sql refs => Converts
      (visit ctx entry scopes .none queries) (Outline.leaves (k := .catalogEntry) sql) refs) :
    Ensures (writeBaseTableRef ctx scopes note ref entry writeEntry) refs fun sql refs =>
      Converts (visit ctx (.baseTable note ref entry) scopes use queries) (leaves sql) refs := by
  unfold writeBaseTableRef
  rw [visit.eq_def]
  split
  case isTrue hcte => exact Ensures.lift fun sql h => by simpa [hcte] using converts_cte _ h hcollected
  case isFalse hcte =>
    simp only [hcte]
    cases entry with
    | notFound => exact Ensures.throw
    | table table =>
      refine Ensures.bind (Ensures.get (Ensures.bind (Ensures.lift fun written h => ?_)))
      exact Ensures.pure (converts_table _ h hcollected)
    | view aliases query =>
      refine hentry.seq fun sql refs' h => ?_
      rcases sql with _ | ⟨aliases', body⟩
      · exact Ensures.throw
      · refine Ensures.lift fun sql hsql => ?_
        rw [leaves_of_writeRenamed hsql]
        exact h

end Converts

/-- **What is converted** in the SQL that is written for a query. -/
theorem write_converts (ctx : Context α) {k : Kind} (s : Syn α k) :
    ∀ (scopes : List (CTEMap α)) (use : Use) (star : Bool) (queries : List (QueryNode α))
      (refs : References), Collected queries refs →
        Ensures (write ctx s scopes star) refs fun sql refs =>
          Converts (visit ctx s scopes use queries) (Outline.leaves sql) refs := by
  induction s with
  | columnRef | star | nil | emptyFrom | notFound | table | noCTEs =>
    exact fun _ _ _ _ _ h => Ensures.pure (.nil h)
  | subquery _ children query hchildren hquery =>
    exact fun scopes _ star queries refs h => Ensures.bind (Ensures.lift fun _ _ =>
      ensures_converts_both (hchildren scopes .none star queries refs h)
        fun refs h => hquery scopes .none star _ refs h)
  | operation _ children hchildren => exact fun scopes _ => hchildren scopes .none
  | dropped visited operand hoperand =>
    intro scopes _ star queries refs h
    cases visited with
    | true =>
      refine (hoperand scopes .none star queries refs h).seq fun _ refs h => ?_
      exact Ensures.pure ⟨h.collected, .nil⟩
    | false => exact Ensures.pure ⟨h, .nil⟩
  | row values hvalues => exact fun scopes _ => hvalues scopes .none
  | cons head tail hhead htail =>
    exact fun scopes _ star queries refs h =>
      ensures_converts_both (hhead scopes .none star queries refs h)
        fun refs h => htail scopes .none star _ refs h
  | baseTable note ref entry hentry =>
    exact fun scopes use star queries refs h =>
      writeBaseTableRef_converts use h (hentry scopes .none star queries refs h)
  | join info left right condition hleft hright hcondition =>
    intro scopes use star queries refs h
    replace hleft := hleft scopes (use.side info (columnNames ctx scopes right)) star
    replace hright := hright scopes ((use.right info).side info (columnNames ctx scopes left)) star
    replace hcondition := hcondition scopes .none star
    rw [visit, write]
    refine Ensures.bind (Ensures.lift fun _ _ => ?_)
    split
    · refine (hright queries refs h).seq fun r refs hr => ?_
      refine (hleft _ refs hr.collected).seq fun l refs hl => ?_
      have hboth := hr.both hl
      refine (hcondition _ refs hboth.collected).seq fun on refs hon => ?_
      exact Ensures.pure (hboth.both hon)
    · refine (hleft queries refs h).seq fun l refs hl => ?_
      refine (hright _ refs hl.collected).seq fun r refs hr => ?_
      have hboth := hl.both hr
      refine (hcondition _ refs hboth.collected).seq fun on refs hon => ?_
      exact Ensures.pure (hboth.both hon)
  | subqueryRef query tableAlias hquery =>
    intro scopes _ star queries refs h
    refine (hquery scopes .none star queries refs h).seq fun body refs hbody => ?_
    rcases tableAlias with _ | ⟨name, columns⟩
    · exact Ensures.pure hbody
    · refine Ensures.lift fun sql hsql => ?_
      rw [Outline.leaves, leaves_of_writeRenamed hsql]
      exact hbody
  | expressionList values _ hvalues =>
    exact fun scopes _ star queries refs h =>
      Ensures.bind (Ensures.lift fun _ _ => hvalues scopes .none star queries refs h)
  | view aliases query hquery =>
    intro scopes _ star queries refs h
    rw [write]
    split
    · exact Ensures.bind Ensures.throw
    · refine Ensures.bind (Ensures.modify ?_)
      refine (hquery scopes .none star _ _ (h.view query)).seq fun _ _ hbody => ?_
      exact Ensures.pure hbody
  | select ctes selectList fromTable whereClause groups having qualify distinctOn orders limits hctes
      hselectList hfromTable hwhereClause hgroups hhaving hqualify hdistinctOn horders hlimits =>
    intro scopes _ _ queries refs h
    replace hfromTable := hfromTable (pushScope ctes scopes) (.ofSelect selectList fromTable
      whereClause groups having qualify distinctOn orders limits) (hasUnqualifiedStar selectList)
    rw [visit, write]
    refine (hctes _ .none _ _ refs h).seq fun _ refs hdefs => ?_
    refine (hselectList _ .none _ _ refs hdefs.collected).seq fun _ refs hlist => ?_
    refine (hdistinctOn _ .none _ _ refs hlist.collected).seq fun _ refs hon => ?_
    refine (ensures_converts_ite _ hon.collected
      (hhaving _ .none _ _ refs hon.collected)).seq fun _ refs hcond => ?_
    refine (hqualify _ .none _ _ refs hcond.collected).seq fun _ refs hqual => ?_
    refine (hfromTable _ refs hqual.collected).seq fun _ refs hfrom => ?_
    refine (hwhereClause _ .none _ _ refs hfrom.collected).seq fun _ refs hwhere => ?_
    refine (hgroups _ .none _ _ refs hwhere.collected).seq fun _ refs hgroup => ?_
    refine (ensures_converts_ite _ hgroup.collected
      (hhaving _ .none _ _ refs hgroup.collected)).seq fun _ refs hhave => ?_
    refine (ensures_converts_ite _ hhave.collected
      (horders _ .none _ _ refs hhave.collected)).seq fun _ refs horder => ?_
    refine (hlimits _ .none _ _ refs horder.collected).seq fun _ refs hlimit => ?_
    exact Ensures.pure (hdefs.both (hlist.both (hon.both (hcond.both (hqual.both
      (hfrom.both (hwhere.both (hgroup.both (hhave.both (horder.both hlimit))))))))))
  | setOperation _ _ ctes children orders limits hctes hchildren horders hlimits =>
    intro scopes _ star queries refs h
    refine Ensures.bind (Ensures.lift fun _ _ => ?_)
    refine (hctes _ .none _ _ refs h).seq fun _ refs hdefs => ?_
    refine (hchildren _ .none _ _ refs hdefs.collected).seq fun _ refs hmembers => ?_
    refine (horders _ .none _ _ refs hmembers.collected).seq fun _ refs horder => ?_
    refine (hlimits _ .none _ _ refs horder.collected).seq fun _ refs hlimit => ?_
    exact Ensures.pure (hdefs.both (hmembers.both (horder.both hlimit)))
  | recursiveCTE _ ctes left right hctes hleft hright =>
    intro scopes _ star queries refs h
    refine (hctes _ .none _ _ refs h).seq fun _ refs hdefs => ?_
    refine (hleft _ .none _ _ refs hdefs.collected).seq fun _ refs hl => ?_
    refine Ensures.bind (Ensures.lift fun _ _ => ?_)
    refine (hright _ .none _ _ refs hl.collected).seq fun _ refs hr => ?_
    exact Ensures.pure (hdefs.both (hl.both hr))
  | consCTE name _ query rest hquery hrest =>
    intro scopes _ star queries refs h
    refine Ensures.bind (Ensures.lift fun _ _ => ?_)
    refine (hquery scopes .none star _ refs h).seq fun _ refs hdefinition => ?_
    refine (hrest scopes .none star _ refs hdefinition.collected).seq fun _ refs hothers => ?_
    exact Ensures.pure (hdefinition.both hothers)

/-- If what is related to an element depends on a property of it alone, then all are related if they
have the property. -/
theorem forall₂_iff_forall_mem {A B : Type} {R : A → B → Prop} {P : A → Prop} {l : List A}
    {m : List B} (h : List.Forall₂ (fun a b => R a b ↔ P a) l m) :
    List.Forall₂ R l m ↔ ∀ a ∈ l, P a := by
  induction h with
  | nil => simp
  | cons hab _ ih => rw [List.forall₂_cons, List.forall_mem_cons, hab, ih]

theorem writeQuery_converts {q : QueryNode α} {sql : Sql α}
    (h : writeQuery ctx q = .ok sql) :
    ∃ refs, Converts (visit ctx q [] .none [q]) (leaves sql) refs := by
  obtain ⟨⟨sql', refs⟩, hwrite, hpure⟩ := bind_eq_ok.mp h
  cases hpure
  have hstart : Collected [q] (collectColumnReferences q true) := by
    intro name
    simp [covers_collectColumnReferences]
  exact ⟨refs, write_converts ctx q [] .none false [q] _ hstart _ _ hwrite⟩

/-- **All used columns are converted** exactly if they are mentioned: at every place of a table, each of
its columns that is used there, under whatever name, and that has to be converted, is mentioned by its
own name in the query or in a view that is put in before the place. -/
theorem convertsUsedColumns_iff {ctx : Context α} {q : QueryNode α} {sql : Sql α}
    (h : writeQuery ctx q = .ok sql) :
    ConvertsUsedColumns ctx q sql ↔ ∀ place ∈ places ctx q, MentionsUsedColumns place := by
  obtain ⟨refs, hconverts⟩ := writeQuery_converts h
  exact forall₂_iff_forall_mem hconverts.converted_iff

namespace Sample

/-- A table with the column `a DATE`. -/
def dateTable : CatalogEntry Unit :=
  .table ⟨[⟨"a", .date, false, true, false⟩], [], false, false⟩

/-- A table with the column `a TEXT COLLATE NOCASE`. -/
def nocaseTable : CatalogEntry Unit :=
  .table ⟨[⟨"a", .varchar, true, false, false⟩], [], false, false⟩

/-- `SELECT expr FROM ref`. -/
def select (expr : Expression Unit) (ref : TableRef Unit) : QueryNode Unit :=
  .select .noCTEs (.cons expr .nil) ref .nil .nil .nil .nil .nil .nil .nil

/-- `count(*)`. -/
def countStar : Expression Unit :=
  .operation (.function "count_star") .nil

end Sample

/-- `SELECT a FROM t`, where `a` is a `DATE`. -/
theorem convertsUsedColumns_of_mentioned :
    let q := Sample.selectA .noCTEs (Sample.from_ "t" Sample.dateTable)
    ∃ sql, writeQuery Sample.context q = .ok sql ∧ ConvertsUsedColumns Sample.context q sql := by
  intro q
  obtain ⟨sql, hsql⟩ := exists_eq_ok_of_isOk (x := writeQuery Sample.context q) rfl
  exact ⟨sql, hsql, (convertsUsedColumns_iff hsql).mpr (by decide)⟩

/-- `SELECT b FROM t AS x(b)`, where the column `a` of `t` is a `DATE`, and
`SELECT count(*) FROM t JOIN u USING (a) UNION ALL SELECT count(*) FROM v`, where the column `a` of `t`
and `u` is not compared as `BINARY`: the one is used by another name, and the other in a `USING` list
that is not looked at. -/
theorem not_convertsUsedColumns_of_renamed_or_member :
    let renamed := Sample.select (.columnRef (some (0, "x")) [] "b")
      (.baseTable () ⟨[], "t", some ⟨"x", ["b"]⟩⟩ Sample.dateTable)
    let join := Syn.join ⟨.inner, .regular, ["a"], none⟩ (Sample.from_ "t" Sample.nocaseTable)
      (Sample.from_ "u" Sample.nocaseTable) .nil
    let member := .setOperation .union true .noCTEs
      (.cons (Sample.select Sample.countStar join)
        (.cons (Sample.select Sample.countStar (Sample.from_ "v" Sample.intTable)) .nil)) .nil .nil
    (∃ sql, writeQuery Sample.context renamed = .ok sql ∧
      ¬ConvertsUsedColumns Sample.context renamed sql) ∧
    (∃ sql, writeQuery Sample.context member = .ok sql ∧
      ¬ConvertsUsedColumns Sample.context member sql) := by
  intro renamed join member
  constructor
  · obtain ⟨sql, hsql⟩ := exists_eq_ok_of_isOk (x := writeQuery Sample.context renamed) rfl
    obtain ⟨refs, hconverts⟩ := writeQuery_converts hsql
    refine ⟨sql, hsql, ?_⟩
    rw [ConvertsUsedColumns, places, forall₂_iff_forall_mem hconverts.converted_iff]
    decide
  · obtain ⟨sql, hsql⟩ := exists_eq_ok_of_isOk (x := writeQuery Sample.context member) rfl
    obtain ⟨refs, hconverts⟩ := writeQuery_converts hsql
    refine ⟨sql, hsql, ?_⟩
    rw [ConvertsUsedColumns, places, forall₂_iff_forall_mem hconverts.converted_iff]
    decide

end SqliteScanner.Pushdown
