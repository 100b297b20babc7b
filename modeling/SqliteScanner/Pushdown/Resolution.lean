import SqliteScanner.Internal.Runs
import SqliteScanner.Pushdown.Writer

/-!
# What the names in the written SQL denote

DuckDB and SQLite do not agree about which CTE a table name denotes. In DuckDB a CTE sees the CTEs
before it, and itself only if it is recursive. In SQLite all CTEs of a `WITH` clause see each other
and themselves. The writer writes unqualified names and puts the queries of views in the place of
references to them, so it has to make sure that SQLite reads the text in the way DuckDB reads the
query.

It has one check for this: a CTE must not refer to the name of a later one (`checkLaterCTEs`). That
leaves two kinds of names that SQLite takes for something else.

* A CTE that is not recursive may refer to a table with its own name, and a subquery or CTE with
  column aliases to a table with the name of its alias. In the SQL both refer to themselves.
* The query of a view may refer to a table with the name of a CTE of the query it is put into. The
  check for such conflicts (`hasCTETableNameConflict`) looks at qualified names of the query itself.

## Main results

* `write_writes` — what the writer writes is the expansion of the outline of the query.
* `resolvesAlike_iff` — when unqualified names mean the same in a query without views.
* `captureAvoiding_iff` — when the table names in views mean the same after inlining.
-/

namespace SqliteScanner.Pushdown

open Scoping Runs

variable {α : Type}

/-! ### What the writer writes

Whatever the writer returns for a part of a query is the expansion of its outline: names of CTEs stay
as they are, and references to views are replaced by the queries of the views. The only thing that
the writer adds to this is that it refuses CTEs that refer to later ones. -/

/-- The names of the CTEs of all enclosing query nodes. -/
def scopeNames (scopes : List (CTEMap α)) : List Identifier :=
  scopes.flatMap Syn.cteNames

theorem scopeNames_pushScope (ctes : CTEMap α) (scopes : List (CTEMap α)) :
    scopeNames (pushScope ctes scopes) = ctes.cteNames ++ scopeNames scopes := by
  rw [pushScope]
  split
  case isTrue h => simp [List.isEmpty_iff.mp h]
  case isFalse h => simp [scopeNames]

theorem isCTEReference_eq_isBound (scopes : List (CTEMap α)) (ref : BaseTableRef) (note : α) :
    isCTEReference scopes ref = isBound (scopeNames scopes) (ref.toRef note) := by
  simp [isCTEReference, isBound, scopeNames, BaseTableRef.toRef, List.any_eq]

/-- A text is written for an outline below CTEs with the names `B`. -/
structure Writes (B : List Identifier) (t : Text Identifier α) (sql : Sql α) : Prop where
  expanded : sql.map WrittenRef.note = expand t B
  noForward : NoForward t B

/-- A `WITH` clause is written for a block of definitions. -/
structure WritesDefs (B : List Identifier) (defs : Defs Identifier α)
    (sql : Defs Identifier (WrittenRef α)) : Prop where
  expanded : sql.map WrittenRef.note = expandDefs defs B
  noForward : NoForwardDefs defs B

/-- The query of a view is written. -/
def WritesEntry (B : List Identifier) : Option (List Identifier × Text Identifier α) →
    Option (List Identifier × Sql α) → Prop
  | none, none => True
  | some (aliases, t), some (aliases', sql) => aliases' = aliases ∧ Writes B t sql
  | _, _ => False

/-- What is written for an outline of any kind. -/
def Outline.Writes (B : List Identifier) :
    {k : Kind} → Outline α k → Outline (WrittenRef α) k → Prop
  | .item _, t, sql => Pushdown.Writes B t sql
  | .list _, t, sql => Pushdown.Writes B t sql
  | .tableRef, t, sql => Pushdown.Writes B t sql
  | .catalogEntry, entry, sql => WritesEntry B entry sql
  | .cteMap, defs, sql => WritesDefs B defs sql

section Writes

variable {B : List Identifier} {t t' : Text Identifier α} {sql sql' : Sql α}

theorem Writes.nil : Writes B (.nil : Text Identifier α) .nil := ⟨rfl, trivial⟩

theorem Writes.both (h : Writes B t sql) (h' : Writes B t' sql') :
    Writes B (.both t t') (.both sql sql') :=
  ⟨by rw [Text.map, expand, h.expanded, h'.expanded], h.noForward, h'.noForward⟩

theorem Writes.rebind (x : Identifier) (h : Writes B t sql) :
    Writes B (.rebind x t) (.rebind x sql) :=
  ⟨by rw [Text.map, expand, h.expanded], h.noForward⟩

theorem Writes.block {ctes : CTEMap α} {defs : Defs Identifier (WrittenRef α)}
    (hdefs : WritesDefs (ctes.cteNames ++ B) (outline ctes) defs)
    (h : Writes (ctes.cteNames ++ B) t sql) :
    Writes B (.block (outline ctes) t) (.block defs sql) := by
  rw [← names_outline] at hdefs h
  exact ⟨by rw [Text.map, expand, hdefs.expanded, h.expanded], hdefs.noForward, h.noForward⟩

/-- `WriteColumnAliases` is used where there are aliases. -/
theorem writeRenamed_ok {relation : Sql α} {aliases names : List Identifier} {name : Identifier}
    {unknown : String} (h : writeRenamed relation aliases names name unknown = .ok sql) :
    sql = renamed (if aliases.isEmpty then none else some name) relation := by
  rw [writeRenamed] at h
  split at h
  case isTrue hempty =>
    cases h
    simp [hempty, renamed]
  case isFalse hempty =>
    split at h
    · cases h
    · rw [writeColumnAliases] at h
      split at h
      · cases h
      · cases h
        simp [hempty, renamed]

/-- A CTE that is accepted does not refer to a later one. -/
theorem checkLaterCTEs_ok {query : QueryNode α} {later : List Identifier} {u : Unit}
    (h : checkLaterCTEs query later = .ok u) :
    ∀ d ∈ declared (outline query) [], d.1.global = false → d.1.name ∈ later →
      d.1.name ∈ d.2.flatten := by
  rw [checkLaterCTEs] at h
  split at h
  · cases h
  case isFalse hany =>
    rintro ⟨r, S⟩ hd hglobal hlater
    obtain ⟨x, hx, rfl, hscope⟩ := walkBaseTables_outline query [] (r, S) hd
    by_contra hout
    refine hany (List.any_eq_true.mpr ⟨x, hx, ?_⟩)
    have hqualified : x.1.2.isQualified = false := hglobal
    have hname : x.1.2.table ∈ later := hlater
    have hnot : x.1.2.table ∉ x.2 := hscope ▸ hout
    simp [hqualified, hname, hnot]

/-- One more CTE that is accepted. -/
theorem WritesDefs.cons (name : Identifier) {query : QueryNode α} {rest : CTEMap α}
    {others : Defs Identifier (WrittenRef α)} {u : Unit}
    (hcheck : checkLaterCTEs query rest.cteNames = .ok u) (h : Writes B (outline query) sql)
    (hrest : WritesDefs B (outline rest) others) :
    WritesDefs B (.cons name query.isRecursive (outline query) (outline rest))
      (.cons name query.isRecursive sql others) := by
  refine ⟨by rw [Defs.map, expandDefs, h.expanded, hrest.expanded], ?_, h.noForward, hrest.noForward⟩
  rw [names_outline]
  exact checkLaterCTEs_ok hcheck

/-- A subquery in a `FROM` clause, with its columns renamed if it has column aliases. -/
theorem writes_subquery {name : Identifier} {columns names : List Identifier} {unknown : String}
    (hbody : Writes B t sql') (h : writeRenamed sql' columns names name unknown = .ok sql) :
    Writes B (outlineSubquery (some ⟨name, columns⟩) t) sql := by
  rw [writeRenamed_ok h, outlineSubquery]
  split
  · exact hbody
  · exact hbody.rebind name

/-- A reference to a CTE is written as it is. -/
theorem writes_cte {scopes : List (CTEMap α)} {note : α} {ref : BaseTableRef} {names : List Identifier}
    {unknown : String} (hcte : isCTEReference scopes ref = true)
    (entry : Option (List Identifier × Text Identifier α))
    (h : writeRenamed (.leaf (ref.toRef (.cte note))) ref.columnNameAlias names ref.binding unknown =
      .ok sql) : Writes (scopeNames scopes) (outlineRef note ref entry) sql := by
  rw [isCTEReference_eq_isBound scopes ref note] at hcte
  have hleaf : (.leaf (ref.toRef note) : Text Identifier α) =
      (.leaf (ref.toRef (.cte note)) : Sql α).map WrittenRef.note := rfl
  rcases entry with _ | ⟨aliases, body⟩
  · refine ⟨?_, trivial⟩
    rw [writeRenamed_ok h, map_renamed, outlineRef, expand, if_pos hcte, hleaf]
    rfl
  · refine ⟨?_, by simp [outlineRef, NoForward, hcte]⟩
    rw [writeRenamed_ok h, map_renamed, outlineRef, expand, if_pos hcte, hleaf]
    rfl

theorem writes_table {scopes : List (CTEMap α)} {note : α} {ref : BaseTableRef}
    {written : WrittenTable} (hcte : isCTEReference scopes ref = false) :
    Writes (scopeNames scopes) (outlineRef note ref none) (.leaf (ref.toRef (.table note written))) := by
  have hbound : ¬isBound (scopeNames scopes) (ref.toRef note) = true := by
    simp [← isCTEReference_eq_isBound, hcte]
  refine ⟨?_, trivial⟩
  rw [outlineRef, expand, if_neg hbound]
  rfl

/-- A reference to a view is written as the query of the view. -/
theorem writes_view {scopes : List (CTEMap α)} {note : α} {ref : BaseTableRef}
    {aliases names : List Identifier} {unknown : String} (hcte : isCTEReference scopes ref = false)
    (hbody : Writes (scopeNames scopes) t sql')
    (h : writeRenamed (.inlined sql') (viewAliases ref aliases) names ref.binding unknown = .ok sql) :
    Writes (scopeNames scopes) (outlineRef note ref (some (aliases, t))) sql := by
  have hbound : ¬isBound (scopeNames scopes) (ref.toRef note) = true := by
    simp [← isCTEReference_eq_isBound, hcte]
  refine ⟨?_, fun _ => hbody.noForward⟩
  rw [writeRenamed_ok h, map_renamed, outlineRef, expand, if_neg hbound, Text.map, hbody.expanded]

theorem writeBaseTableRef_writes {ctx : Context α} {scopes : List (CTEMap α)} {note : α}
    {ref : BaseTableRef} {entry : CatalogEntry α}
    {writeEntry : Writer (Option (List Identifier × Sql α))} {refs : References}
    (hentry : Ensures writeEntry refs fun sql _ =>
      WritesEntry (scopeNames scopes) (outline entry) sql) :
    Ensures (writeBaseTableRef ctx scopes note ref entry writeEntry) refs fun sql _ =>
      Writes (scopeNames scopes) (outlineRef note ref (outline entry)) sql := by
  unfold writeBaseTableRef
  split
  case isTrue hcte => exact Ensures.lift fun sql h => writes_cte hcte _ h
  case isFalse hcte =>
    rw [Bool.not_eq_true] at hcte
    cases entry with
    | notFound => exact Ensures.throw
    | table table =>
      refine Ensures.bind (Ensures.get (Ensures.bind (Ensures.lift fun written _ => ?_)))
      exact Ensures.pure (writes_table hcte)
    | view aliases query =>
      refine hentry.seq fun sql refs' h => ?_
      rcases sql with _ | ⟨aliases', body⟩
      · exact h.elim
      · obtain ⟨rfl, hbody⟩ := h
        exact Ensures.lift fun sql h => writes_view hcte hbody h

end Writes

/-- Two parts that are written one after the other. -/
theorem ensures_both {B : List Identifier} {t t' : Text Identifier α} {x y : Writer (Sql α)}
    {refs : References} (hx : Ensures x refs fun sql _ => Writes B t sql)
    (hy : ∀ refs, Ensures y refs fun sql _ => Writes B t' sql) :
    Ensures (do let l ← x; let r ← y; return .both l r) refs fun sql _ =>
      Writes B (.both t t') sql := by
  refine hx.seq fun l refs hl => ?_
  refine (hy refs).seq fun r refs hr => ?_
  exact Ensures.pure (hl.both hr)

theorem ensures_writeIf {B : List Identifier} {t : Text Identifier α} {part : Writer (Sql α)}
    {refs : References} (written : Bool) (h : Ensures part refs fun sql _ => Writes B t sql) :
    Ensures (writeIf written part) refs fun sql _ => Writes B (outlineIf written t) sql := by
  cases written with
  | true => exact h
  | false => exact Ensures.pure .nil

/-- **What is written for a query** is the expansion of its outline, and no CTE in it refers to a
later one. -/
theorem write_writes (ctx : Context α) {k : Kind} (s : Syn α k) :
    ∀ (scopes : List (CTEMap α)) (star : Bool) (refs : References),
      Ensures (write ctx s scopes star) refs fun sql _ =>
        Outline.Writes (scopeNames scopes) (outline s) sql := by
  induction s with
  | columnRef | star | nil | emptyFrom => exact fun _ _ _ => Ensures.pure .nil
  | subquery _ children query hchildren hquery =>
    exact fun scopes star refs => Ensures.bind (Ensures.lift fun _ _ =>
      ensures_both (hchildren scopes star refs) (hquery scopes star))
  | operation _ children hchildren => exact hchildren
  | dropped visited operand _ =>
    intro scopes star refs
    cases visited with
    | true => exact Ensures.bind fun _ _ _ => Ensures.pure .nil
    | false => exact Ensures.pure .nil
  | row values hvalues => exact hvalues
  | cons head tail hhead htail =>
    exact fun scopes star refs => ensures_both (hhead scopes star refs) (htail scopes star)
  | baseTable note ref entry hentry =>
    exact fun scopes star refs => writeBaseTableRef_writes (hentry scopes star refs)
  | join info left right condition hleft hright hcondition =>
    intro scopes star refs
    rw [outline, write]
    refine Ensures.bind (Ensures.lift fun _ _ => ?_)
    split
    · refine (hright scopes star refs).seq fun r refs hr => ?_
      refine (hleft scopes star refs).seq fun l refs hl => ?_
      refine (hcondition scopes star refs).seq fun on refs hon => ?_
      exact Ensures.pure ((hr.both hl).both hon)
    · refine (hleft scopes star refs).seq fun l refs hl => ?_
      refine (hright scopes star refs).seq fun r refs hr => ?_
      refine (hcondition scopes star refs).seq fun on refs hon => ?_
      exact Ensures.pure ((hl.both hr).both hon)
  | subqueryRef query tableAlias hquery =>
    intro scopes star refs
    refine (hquery scopes star refs).seq fun body refs hbody => ?_
    rcases tableAlias with _ | ⟨name, columns⟩
    · exact Ensures.pure hbody
    · exact Ensures.lift fun sql h => writes_subquery hbody h
  | expressionList values _ hvalues =>
    exact fun scopes star refs => Ensures.bind (Ensures.lift fun _ _ => hvalues scopes star refs)
  | notFound | table => exact fun _ _ _ => Ensures.pure trivial
  | view aliases query hquery =>
    intro scopes star refs
    rw [write]
    split
    · exact Ensures.bind Ensures.throw
    · refine Ensures.bind (Ensures.modify ?_)
      refine (hquery scopes star _).seq fun body refs hbody => ?_
      exact Ensures.pure ⟨rfl, hbody⟩
  | select ctes selectList fromTable whereClause groups having qualify distinctOn orders limits hctes
      hselectList hfromTable hwhereClause hgroups hhaving hqualify hdistinctOn horders hlimits =>
    intro scopes _ refs
    rw [write]
    refine (hctes _ _ refs).seq fun defs refs hdefs => ?_
    refine (hselectList _ _ refs).seq fun sqlList refs hlist => ?_
    refine (hdistinctOn _ _ refs).seq fun sqlDistinct refs hdistinct => ?_
    refine (ensures_writeIf _ (hhaving _ _ refs)).seq fun sqlCond refs hcond => ?_
    refine (hqualify _ _ refs).seq fun sqlQualify refs hqual => ?_
    refine (hfromTable _ _ refs).seq fun sqlFrom refs hfrom => ?_
    refine (hwhereClause _ _ refs).seq fun sqlWhere refs hwhere => ?_
    refine (hgroups _ _ refs).seq fun sqlGroups refs hgroup => ?_
    refine (ensures_writeIf _ (hhaving _ _ refs)).seq fun sqlHaving refs hhave => ?_
    refine (ensures_writeIf _ (horders _ _ refs)).seq fun sqlOrders refs horder => ?_
    refine (hlimits _ _ refs).seq fun sqlLimits refs hlimit => ?_
    rw [scopeNames_pushScope] at hdefs hlist hdistinct hcond hqual hfrom
    rw [scopeNames_pushScope] at hwhere hgroup hhave horder hlimit
    exact Ensures.pure (Writes.block hdefs (hlist.both (hdistinct.both (hcond.both (hqual.both
      (hfrom.both (hwhere.both (hgroup.both (hhave.both (horder.both hlimit))))))))))
  | setOperation _ _ ctes children orders limits hctes hchildren horders hlimits =>
    intro scopes star refs
    refine Ensures.bind (Ensures.lift fun _ _ => ?_)
    refine (hctes _ _ refs).seq fun defs refs hdefs => ?_
    refine (hchildren _ _ refs).seq fun members refs hmembers => ?_
    refine (horders _ _ refs).seq fun sqlOrders refs horder => ?_
    refine (hlimits _ _ refs).seq fun sqlLimits refs hlimit => ?_
    rw [scopeNames_pushScope] at hdefs hmembers horder hlimit
    exact Ensures.pure (Writes.block hdefs (hmembers.both (horder.both hlimit)))
  | recursiveCTE _ ctes left right hctes hleft hright =>
    intro scopes star refs
    refine (hctes _ _ refs).seq fun defs refs hdefs => ?_
    refine (hleft _ _ refs).seq fun l refs hl => ?_
    refine Ensures.bind (Ensures.lift fun _ _ => ?_)
    refine (hright _ _ refs).seq fun r refs hr => ?_
    rw [scopeNames_pushScope] at hdefs hl hr
    exact Ensures.pure (Writes.block hdefs (hl.both hr))
  | noCTEs => exact fun _ _ _ => Ensures.pure ⟨rfl, trivial⟩
  | consCTE name _ query rest hquery hrest =>
    intro scopes star refs
    refine Ensures.bind (Ensures.lift fun _ hcheck => ?_)
    refine (hquery scopes star refs).seq fun definition refs hdefinition => ?_
    refine (hrest scopes star refs).seq fun others refs hothers => ?_
    exact Ensures.pure (WritesDefs.cons name hcheck hdefinition hothers)

theorem writeQuery_writes {ctx : Context α} {q : QueryNode α} {sql : Sql α}
    (h : writeQuery ctx q = .ok sql) : Writes [] (outline q) sql := by
  obtain ⟨⟨sql', refs⟩, hwrite, hpure⟩ := bind_eq_ok.mp h
  cases hpure
  exact write_writes ctx q [] false _ _ _ hwrite

/-! ### References outside of views -/

namespace Sample

/-! A catalog with tables of one column `a`, and queries on them. -/

def intTable : CatalogEntry Unit :=
  .table ⟨[⟨"a", .bigint, false, true, false⟩], [], false, false⟩

/-- `t` in a `FROM` clause, with its catalog entry. -/
def from_ (name : Identifier) (entry : CatalogEntry Unit) : TableRef Unit :=
  .baseTable () ⟨[], name, none⟩ entry

/-- `WITH ctes SELECT a FROM ref`. -/
def selectA (ctes : CTEMap Unit) (ref : TableRef Unit) : QueryNode Unit :=
  .select ctes (.cons (.columnRef ((getBindings ref).head?.map (0, ·)) [] "a") .nil) ref .nil .nil .nil
    .nil .nil .nil .nil

/-- All of these queries have the one result column `a`. -/
def context {α : Type} : Context α where
  inferQueryTypes _ _ := ["a"]
  providesColumn _ _ column := .ok (column = "a")
  supportsQuery _ := true
  supportsStatementQuery _ := true
  statementMode := false
  createTableAs := false

end Sample

/-- The references that are not qualified. -/
def unqualified (r : Ref Identifier α) : Bool :=
  !r.global

/-- Every unqualified reference of a query denotes the same in DuckDB's reading of the query and in
SQLite's reading of what is written for it: a CTE of the same `WITH` clause, or a table. -/
def ResolvesAlike (q : QueryNode α) (sql : Sql α) : Prop :=
  Same unqualified (declared (outline q) []) (resolved (sql.map WrittenRef.note) [])

/-- **Names resolve alike** exactly if the query is hygienic: no CTE that is not recursive refers to
its own name, and neither does what stands below an alias with a list of columns. Both are names
that SQLite finds in the SQL and DuckDB does not find in the query. -/
theorem resolvesAlike_iff {ctx : Context α} {q : QueryNode α} {sql : Sql α}
    (hviews : calls (outline q) [] = []) (h : writeQuery ctx q = .ok sql) :
    ResolvesAlike q sql ↔ Hygienic unqualified (outline q) [] := by
  have hwrites := writeQuery_writes h
  have hdeclared : declared (expand (outline q) []) [] = declared (outline q) [] :=
    declared_expand (outline q) [] hviews
  have hsame := same_expand_iff unqualified (outline q) [] [] rfl hwrites.noForward
  rw [ResolvesAlike, hwrites.expanded, ← hdeclared]
  simpa [binders, denotes] using hsame

/-- `WITH c AS (SELECT a FROM t) SELECT a FROM c`. -/
theorem resolvesAlike_of_hygienic_cte :
    let q := Sample.selectA (.consCTE "c" [] (Sample.selectA .noCTEs (Sample.from_ "t" Sample.intTable))
      .noCTEs) (Sample.from_ "c" .notFound)
    ∃ sql, writeQuery Sample.context q = .ok sql ∧ ResolvesAlike q sql := by
  intro q
  obtain ⟨sql, hsql⟩ := exists_eq_ok_of_isOk (x := writeQuery Sample.context q) rfl
  exact ⟨sql, hsql, (resolvesAlike_iff rfl hsql).mpr (by decide)⟩

/-- `WITH t AS (SELECT a FROM u UNION ALL SELECT a FROM t) SELECT a FROM t`: the second `t` is a table
in DuckDB. In SQLite it is the CTE, which is recursive then. -/
theorem not_resolvesAlike_of_self_named_cte :
    let member := .setOperation .union true .noCTEs
      (.cons (Sample.selectA .noCTEs (Sample.from_ "u" Sample.intTable))
        (.cons (Sample.selectA .noCTEs (Sample.from_ "t" Sample.intTable)) .nil)) .nil .nil
    let q := Sample.selectA (.consCTE "t" [] member .noCTEs) (Sample.from_ "t" Sample.intTable)
    calls (outline q) [] = [] ∧ hasCTETableNameConflict q = false ∧
      ∃ sql, writeQuery Sample.context q = .ok sql ∧ ¬ResolvesAlike q sql := by
  intro member q
  obtain ⟨sql, hsql⟩ := exists_eq_ok_of_isOk (x := writeQuery Sample.context q) rfl
  refine ⟨rfl, rfl, sql, hsql, ?_⟩
  rw [ResolvesAlike, (writeQuery_writes hsql).expanded]
  decide

/-! ### References inside of views -/

/-- Every table name in the query of a view that has been put into the SQL denotes what it does in
the view: a CTE of the view itself, or else a table or view of the catalog. -/
def CaptureAvoiding (sql : Sql α) : Prop :=
  ∀ u ∈ inlinedIn (sql.map WrittenRef.note) [],
    Same (fun _ => true) (declared u.1 []) (resolved u.1 (.inlined :: u.2))

/-- **Inlining views is capture-avoiding** exactly if every view that is put in is hygienic by itself,
and no table name that is free in it is bound where it is put in. -/
theorem captureAvoiding_iff {ctx : Context α} {q : QueryNode α} {sql : Sql α}
    (h : writeQuery ctx q = .ok sql) :
    CaptureAvoiding sql ↔ ∀ u ∈ calls (outline q) [], Hygienic (fun _ => true) u.1 (binders u.2) ∧
      ∀ r ∈ free u.1 (binders u.2), denotes u.2 r.name = .global := by
  have hwrites := writeQuery_writes h
  have hinlined : inlinedIn (expand (outline q) []) [] = _ := inlinedIn_expand (outline q) []
  rw [CaptureAvoiding, hwrites.expanded, hinlined, List.forall_mem_map]
  refine forall₂_congr fun u hu => ?_
  have hforward : NoForward u.1 (binders (.inlined :: u.2)) :=
    noForward_of_mem_calls (S := []) (outline q) hwrites.noForward u hu
  have hsame := same_expand_iff (fun _ => true) u.1 [] (.inlined :: u.2) rfl hforward
  simp only [binders, forall_const, declares_nil] at hsame
  rw [hsame]
  simp only [eq_comm (a := Denotation.global), denotes_inlined]

/-- `WITH c AS (SELECT a FROM u) SELECT a FROM v`, where `v` is `SELECT a FROM t`. -/
theorem captureAvoiding_of_fresh_cte :
    let v := .view [] (Sample.selectA .noCTEs (Sample.from_ "t" Sample.intTable))
    let q := Sample.selectA (.consCTE "c" [] (Sample.selectA .noCTEs (Sample.from_ "u" Sample.intTable))
      .noCTEs) (Sample.from_ "v" v)
    ∃ sql, writeQuery Sample.context q = .ok sql ∧ CaptureAvoiding sql := by
  intro v q
  obtain ⟨sql, hsql⟩ := exists_eq_ok_of_isOk (x := writeQuery Sample.context q) rfl
  exact ⟨sql, hsql, (captureAvoiding_iff hsql).mpr (by decide)⟩

/-- `WITH t AS (SELECT a FROM u) SELECT a FROM v`, where `v` is `SELECT a FROM t`: the `t` of the view
is the CTE in the SQL. -/
theorem not_captureAvoiding_of_cte_named_as_table :
    let v := .view [] (Sample.selectA .noCTEs (Sample.from_ "t" Sample.intTable))
    let q := Sample.selectA (.consCTE "t" [] (Sample.selectA .noCTEs (Sample.from_ "u" Sample.intTable))
      .noCTEs) (Sample.from_ "v" v)
    hasCTETableNameConflict q = false ∧
      ∃ sql, writeQuery Sample.context q = .ok sql ∧ ¬CaptureAvoiding sql := by
  intro v q
  obtain ⟨sql, hsql⟩ := exists_eq_ok_of_isOk (x := writeQuery Sample.context q) rfl
  refine ⟨rfl, sql, hsql, ?_⟩
  rw [CaptureAvoiding, (writeQuery_writes hsql).expanded]
  decide

end SqliteScanner.Pushdown
