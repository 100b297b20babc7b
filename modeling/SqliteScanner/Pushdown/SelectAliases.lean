import SqliteScanner.Internal.Runs
import SqliteScanner.Internal.Trees
import SqliteScanner.Pushdown.Syntax

/-!
# References to the aliases of a select list

DuckDB lets the clauses of a `SELECT` refer to the aliases of its select list, and SQLite reads some of
these references in another way. So `ExpandSelectAliases` puts the aliased expressions in their place
before a query is written. It walks through an expression with one rule for all names in it: in the
`HAVING` clause an alias comes before the columns that are not grouped by, and elsewhere after all
columns.

The place of a name is not looked at, and DuckDB does look at it. A name in the argument of an aggregate
function is a column for DuckDB, but it is replaced all the same. The walk does not enter a subquery, and
so it misses the left operand of `x IN (SELECT ..)`, which does not belong to it. Last, the keys of the
`GROUP BY` are read after the aliases in them have been replaced, so that an alias of a number is taken
for a position; a cast of a number is taken for one too, and stars count as one column each.

`havingResolved_iff` says that there is nothing else: apart from these places, the names of a `HAVING`
clause are resolved as DuckDB resolves them.

## Main definitions

* `expand`, `expandSelectAliases` — the source's functions
* `followed` — the select list with the aliases in it followed
* `resolveHavingName` — the entry that DuckDB takes a name in the `HAVING` clause for
* `HavingResolved`, `NamesAgree` — the names are resolved alike, and when they are

## Main results

* `expand_eq` — expanding is a substitution for the names outside subqueries
* `complete_followed_iff` — when nothing is left to resolve in an expanded entry
* `havingResolved_iff` — when the names of a `HAVING` clause are resolved alike
-/

namespace SqliteScanner.Pushdown.SelectAliases

open Trees Runs

/-! ### Expressions -/

/-- The classes of expressions that the functions here do not look at. -/
inductive ExpressionClass where
  | comparison
  | conjunction
  | between
  | operator
  | case
  | window
  | collate
  | other
deriving DecidableEq

/-- What an expression is. Its children are those that `ParsedExpressionIterator` enumerates: for a
function the arguments, the filter and the order keys, and for a subquery the left operand of
`x IN (SELECT ..)`, but nothing of its query. -/
inductive ExpressionKind (V T Q : Type) where
  | constant (value : V)
  | cast (target : T) (tryCast : Bool)
  | function (name : Identifier)
  | subquery (query : Q)
  | operation (expressionClass : ExpressionClass)
deriving DecidableEq

/-- The expressions without children: references to columns, which are qualified if they have a
qualifier, and stars. -/
inductive Leaf where
  | columnRef (columnAlias : Option Identifier) (qualifier : List Identifier) (name : Identifier)
  | star (relation : Option Identifier)
deriving DecidableEq

structure Label (V T Q : Type) where
  exprAlias : Option Identifier
  kind : ExpressionKind V T Q
deriving DecidableEq

abbrev Expr (V T Q : Type) := Tree Leaf (Label V T Q)

variable {V T Q F : Type}

def getAlias : Expr V T Q → Option Identifier
  | .leaf (.columnRef columnAlias _ _) => columnAlias
  | .leaf (.star _) => none
  | .node label _ => label.exprAlias

def setAlias (newAlias : Option Identifier) : Expr V T Q → Expr V T Q
  | .leaf (.columnRef _ qualifier name) => .leaf (.columnRef newAlias qualifier name)
  | .leaf (.star relation) => .leaf (.star relation)
  | .node label children => .node { label with exprAlias := newAlias } children

/-- The name of a column that is referred to. -/
def columnName : Expr V T Q → Option Identifier
  | .leaf (.columnRef _ _ name) => some name
  | .leaf (.star _) => none
  | .node _ _ => none

structure SelectNode (V T Q F : Type) where
  selectList : List (Expr V T Q)
  fromTable : Option F
  whereClause : Option (Expr V T Q)
  groupExpressions : List (Expr V T Q)
  having : Option (Expr V T Q)
  qualify : Option (Expr V T Q)

/-- What is taken from elsewhere: the columns of a `FROM` clause, which may not be known, values and
texts of expressions. -/
structure Context (V T Q F : Type) where
  providesColumn : F → Identifier → Except String Bool
  /-- The value of an integral type as a `BIGINT`. -/
  integerValue : V → Option ℤ
  /-- `DefaultTryCastAs` for a type that `ResolveType` knows. -/
  castValue : T → V → Option V
  toText : Expr V T Q → Identifier

section Code

variable (ctx : Context V T Q F)

/-- `SQLiteCapabilities::TryGetConstantValue`. -/
def tryGetConstantValue : Expr V T Q → Option V
  | .leaf _ => none
  | .node label children =>
    match label.kind, children with
    | .constant value, _ => some value
    | .cast target false, [.node ⟨_, .constant value⟩ _] => ctx.castValue target value
    | _, _ => none

def tryGetIntegerLiteral (expr : Expr V T Q) : Option ℤ :=
  (tryGetConstantValue ctx expr).bind ctx.integerValue

/-- `SQLiteSelectEntryName`. -/
def selectEntryName (expr : Expr V T Q) : Identifier :=
  match getAlias expr with
  | some name => name
  | none => (columnName expr).getD (ctx.toText expr)

/-! ### The function -/

/-- The aliases of a select list, each with the first entry that has it. -/
def collectAliases : ℕ → List (Expr V T Q) → List (Identifier × ℕ) → List (Identifier × ℕ)
  | _, [], aliases => aliases
  | i, entry :: entries, aliases =>
    match getAlias entry with
    | none => collectAliases (i + 1) entries aliases
    | some name =>
      if (aliases.lookup name).isSome then collectAliases (i + 1) entries aliases
      else collectAliases (i + 1) entries (aliases ++ [(name, i)])

/-- `find_alias`. -/
def findAlias (fromTable : F) (aliases : List (Identifier × ℕ)) (aliasFirst : Bool)
    (name : Identifier) : Except String (Option ℕ) :=
  match aliases.lookup name with
  | none => .ok none
  | some index =>
    if aliasFirst then .ok (some index)
    else do
      if ← ctx.providesColumn fromTable name then .ok none else .ok (some index)

mutual

/-- `expand`, and whether it changed anything. The entries are those of the select list below the
limit. -/
def expand (find : Identifier → Except String (Option ℕ)) (entries : List (Expr V T Q)) :
    Expr V T Q → Except String (Expr V T Q × Bool)
  | .leaf (.star relation) => .ok (.leaf (.star relation), false)
  | .leaf (.columnRef columnAlias qualifier name) =>
    if qualifier ≠ [] then .ok (.leaf (.columnRef columnAlias qualifier name), false)
    else do
      match (← find name).bind (entries[·]?) with
      | none => .ok (.leaf (.columnRef columnAlias qualifier name), false)
      | some entry => .ok (setAlias columnAlias entry, true)
  | .node ⟨exprAlias, .subquery query⟩ children =>
    .ok (.node ⟨exprAlias, .subquery query⟩ children, false)
  | .node label children => do
    let (children, changed) ← expandAll find entries children
    .ok (.node label children, changed)

def expandAll (find : Identifier → Except String (Option ℕ)) (entries : List (Expr V T Q)) :
    List (Expr V T Q) → Except String (List (Expr V T Q) × Bool)
  | [] => .ok ([], false)
  | expr :: exprs => do
    let (expr, changed) ← expand find entries expr
    let (exprs, changed') ← expandAll find entries exprs
    .ok (expr :: exprs, changed || changed')

end

/-- The loop over the select list, after the entries that have been expanded already. -/
def expandSelectList (find : Identifier → Except String (Option ℕ)) :
    List (Expr V T Q) → List (Expr V T Q) → Except String (List (Expr V T Q) × Bool)
  | entries, [] => .ok (entries, false)
  | entries, entry :: rest => do
    let (expanded, changed) ← expand find entries entry
    let expanded :=
      if changed && (getAlias expanded).isNone then
        setAlias (some (selectEntryName ctx entry)) expanded
      else expanded
    let (entries, changed') ← expandSelectList find (entries ++ [expanded]) rest
    .ok (entries, changed || changed')

def expandOptional (find : Identifier → Except String (Option ℕ)) (entries : List (Expr V T Q)) :
    Option (Expr V T Q) → Except String (Option (Expr V T Q) × Bool)
  | none => .ok (none, false)
  | some expr => do
    let (expr, changed) ← expand find entries expr
    .ok (some expr, changed)

/-- The loop over the `GROUP BY` keys. -/
def expandGroups (find : Identifier → Except String (Option ℕ)) (entries : List (Expr V T Q)) :
    List (Expr V T Q) → Except String (List (Expr V T Q) × Bool)
  | [] => .ok ([], false)
  | group :: groups => do
    let (expanded, changed) ← expand find entries group
    if (columnName group).isSome then
      let (groups, changed') ← expandGroups find entries groups
      .ok (expanded :: groups, changed || changed')
    else if changed then .error "alias reference within a GROUP BY expression"
    else
      let (groups, changed') ← expandGroups find entries groups
      .ok (group :: groups, changed')

/-- The column that a key of the `GROUP BY` groups by, where an integer is the position of an
entry. -/
def groupColumn (entries : List (Expr V T Q)) (group : Expr V T Q) : Option Identifier :=
  match tryGetIntegerLiteral ctx group with
  | none => columnName group
  | some position =>
    if 1 ≤ position ∧ position ≤ entries.length then
      (entries[(position - 1).toNat]?).bind columnName
    else columnName group

/-- `ExpandSelectAliases`. -/
def expandSelectAliases (node : SelectNode V T Q F) :
    Except String (Option (SelectNode V T Q F)) :=
  match node.fromTable with
  | none => .ok none
  | some fromTable => do
    let aliases := collectAliases 0 node.selectList []
    if aliases.isEmpty then .ok none
    else
      let find := findAlias ctx fromTable aliases false
      let (selectList, changed₁) ← expandSelectList ctx find [] node.selectList
      let (whereClause, changed₂) ← expandOptional find selectList node.whereClause
      let (groups, changed₃) ← expandGroups find selectList node.groupExpressions
      let groupColumns := groups.filterMap (groupColumn ctx selectList)
      let remaining :=
        if node.having.isNone then aliases
        else aliases.filter fun entry => !groupColumns.contains entry.1
      let (having, changed₄) ←
        expandOptional (findAlias ctx fromTable remaining true) selectList node.having
      let (qualify, changed₅) ←
        expandOptional (findAlias ctx fromTable remaining false) selectList node.qualify
      if changed₁ || changed₂ || changed₃ || changed₄ || changed₅ then
        .ok (some { node with
          selectList := selectList
          whereClause := whereClause
          groupExpressions := groups
          having := having
          qualify := qualify })
      else .ok none

end Code

/-! ### How DuckDB resolves names -/

/-- Where a name is: in the argument of an aggregate function, and in the left operand of a
subquery. -/
structure Place where
  aggregate : Bool
  operand : Bool
deriving DecidableEq

def Place.top : Place := ⟨false, false⟩

/-- What DuckDB knows: the aggregate functions, and the columns that a star stands for. -/
structure DuckDB (F : Type) where
  isAggregate : Identifier → Bool
  starColumns : F → Option Identifier → List Identifier

/-- The place of the children of an expression. -/
def DuckDB.inside (duckdb : DuckDB F) (place : Place) (label : Label V T Q) : Place :=
  match label.kind with
  | .function name => { place with aggregate := place.aggregate || duckdb.isAggregate name }
  | .subquery _ => { place with operand := true }
  | .constant _ => place
  | .cast _ _ => place
  | .operation _ => place

/-- An unqualified name is replaced by the entry that is chosen for it, if there is one. -/
def replaceName (choose : Place → Identifier → Option ℕ) (entries : List (Expr V T Q))
    (place : Place) : Leaf → Expr V T Q
  | .star relation => .leaf (.star relation)
  | .columnRef columnAlias qualifier name =>
    if qualifier ≠ [] then .leaf (.columnRef columnAlias qualifier name)
    else
      match (choose place name).bind (entries[·]?) with
      | none => .leaf (.columnRef columnAlias qualifier name)
      | some entry => setAlias columnAlias entry

/-- The names outside the left operands of subqueries. -/
def outside (choose : Identifier → Option ℕ) (place : Place) (name : Identifier) : Option ℕ :=
  if place.operand then none else choose name

section Resolution

variable (ctx : Context V T Q F) (duckdb : DuckDB F) (fromTable : F) (node : SelectNode V T Q F)

def isColumn (name : Identifier) : Bool :=
  match ctx.providesColumn fromTable name with
  | .ok provided => provided
  | .error _ => false

/-- The first entry of the select list with the alias. -/
def aliasIndex (name : Identifier) : Option ℕ :=
  node.selectList.findIdx? fun entry => getAlias entry == some name

/-- An alias is meant if no column has the name. -/
def columnFirst (name : Identifier) : Option ℕ :=
  if isColumn ctx fromTable name then none else aliasIndex node name

/-- Entries with the aliases in them followed, where an entry refers to earlier ones. They have no
aliases of their own. -/
def followEntries (choose : Place → Identifier → Option ℕ) :
    List (Expr V T Q) → List (Expr V T Q) → List (Expr V T Q)
  | entries, [] => entries
  | entries, entry :: rest =>
    followEntries choose
      (entries ++
        [setAlias none (entry.substitute duckdb.inside (replaceName choose entries) .top)]) rest

/-- The select list with its aliases followed. -/
def followed : List (Expr V T Q) :=
  followEntries duckdb (outside (columnFirst ctx fromTable node)) [] node.selectList

/-- A name as a key. -/
def followKey (leaf : Leaf) : Expr V T Q :=
  replaceName (fun _ => columnFirst ctx fromTable node) (followed ctx duckdb fromTable node) .top leaf

/-- The columns of the result. -/
def resultColumns : List (Expr V T Q) :=
  (node.selectList.zip (followed ctx duckdb fromTable node)).flatMap fun entry =>
    match entry.1 with
    | .leaf (.star relation) =>
      (duckdb.starColumns fromTable relation).map fun name => .leaf (.columnRef none [] name)
    | .leaf (.columnRef _ _ _) => [entry.2]
    | .node _ _ => [entry.2]

/-- The column that a key groups by. An integer constant is the position of a column of the
result. -/
def keyColumn : Expr V T Q → Option Identifier
  | .leaf leaf => columnName (followKey ctx duckdb fromTable node leaf)
  | .node label _ =>
    match label.kind with
    | .constant value =>
      match ctx.integerValue value with
      | none => none
      | some position =>
        if 1 ≤ position then
          ((resultColumns ctx duckdb fromTable node)[(position - 1).toNat]?).bind columnName
        else none
    | .cast _ _ => none
    | .function _ => none
    | .subquery _ => none
    | .operation _ => none

/-- The columns that are grouped by. -/
def groupedColumns : List Identifier :=
  node.groupExpressions.filterMap (keyColumn ctx duckdb fromTable node)

/-- The entry of the select list that a name in the `HAVING` clause means: a column that is grouped by
comes before an alias, and an alias before the other columns. In the argument of an aggregate function
it is always a column. -/
def resolveHavingName (place : Place) (name : Identifier) : Option ℕ :=
  if place.aggregate then none
  else if (groupedColumns ctx duckdb fromTable node).contains name then none
  else aliasIndex node name

end Resolution

/-! ### What the function does -/

section Expand

variable {ctx : Context V T Q F} {duckdb : DuckDB F} {fromTable : F} {node : SelectNode V T Q F}
  {find : Identifier → Except String (Option ℕ)} {choose : Identifier → Option ℕ}
  {entries : List (Expr V T Q)}

@[simp] theorem setAlias_setAlias (a b : Option Identifier) (expr : Expr V T Q) :
    setAlias a (setAlias b expr) = setAlias a expr := by
  cases expr with
  | leaf leaf => cases leaf <;> rfl
  | node label children => rfl

@[simp] theorem columnName_setAlias (a : Option Identifier) (expr : Expr V T Q) :
    columnName (setAlias a expr) = columnName expr := by
  cases expr with
  | leaf leaf => cases leaf <;> rfl
  | node label children => rfl

/-- The names of the entries are not looked at. -/
theorem replaceName_map_setAlias (choose : Place → Identifier → Option ℕ) (place : Place)
    (leaf : Leaf) :
    replaceName choose (entries.map (setAlias none)) place leaf =
      replaceName choose entries place leaf := by
  cases leaf with
  | star relation => rfl
  | columnRef columnAlias qualifier name =>
    rw [replaceName, replaceName]
    cases choose place name with
    | none => rfl
    | some i =>
      simp only [Option.bind_some, List.getElem?_map]
      cases entries[i]? with
      | none => rfl
      | some entry => simp

theorem operand_inside (duckdb : DuckDB F) {place : Place} (h : place.operand = true)
    (label : Label V T Q) : (duckdb.inside place label).operand = true := by
  unfold DuckDB.inside
  split <;> simp [h]

/-- Nothing is replaced in the left operand of a subquery. -/
theorem substitute_of_operand (duckdb : DuckDB F) {place : Place} (hplace : place.operand = true)
    (expr : Expr V T Q) :
    expr.substitute duckdb.inside (replaceName (outside choose) entries) place = expr := by
  induction expr using Tree.induction generalizing place with
  | leaf leaf =>
    cases leaf with
    | star relation => rfl
    | columnRef columnAlias qualifier name => simp [replaceName, outside, hplace]
  | node label children ih =>
    rw [Tree.substitute_node]
    congr 1
    refine (List.map_congr_left fun expr hexpr => ?_).trans (List.map_id children)
    exact ih expr hexpr (operand_inside duckdb hplace label)

theorem expandAll_eq {replace : Expr V T Q → Expr V T Q} {exprs expandeds : List (Expr V T Q)}
    {changed : Bool} (hexprs : ∀ expr ∈ exprs, ∀ {expanded changed},
      expand find entries expr = .ok (expanded, changed) → expanded = replace expr)
    (h : expandAll find entries exprs = .ok (expandeds, changed)) :
    expandeds = exprs.map replace := by
  induction exprs generalizing expandeds changed with
  | nil =>
    cases h
    rfl
  | cons expr exprs ih =>
    rw [expandAll] at h
    obtain ⟨⟨expanded, changed₁⟩, hexpr, h⟩ := bind_eq_ok.mp h
    obtain ⟨⟨rest, changed₂⟩, hrest, h⟩ := bind_eq_ok.mp h
    cases h
    rw [hexprs expr List.mem_cons_self hexpr,
      ih (fun e he => hexprs e (List.mem_cons_of_mem expr he)) hrest, List.map_cons]

/-- **Expanding is replacing the names outside subqueries.** -/
theorem expand_eq (duckdb : DuckDB F)
    (hfind : ∀ name index, find name = .ok index → index = choose name)
    {expr expanded : Expr V T Q} {changed : Bool} {place : Place} (hplace : place.operand = false)
    (h : expand find entries expr = .ok (expanded, changed)) :
    expanded = expr.substitute duckdb.inside (replaceName (outside choose) entries) place := by
  induction expr using Tree.induction generalizing expanded changed place with
  | leaf leaf =>
    cases leaf with
    | star relation =>
      cases h
      rfl
    | columnRef columnAlias qualifier name =>
      rw [expand] at h
      rw [Tree.substitute_leaf, replaceName]
      split at h
      · case isTrue hqualifier =>
        cases h
        rw [if_pos hqualifier]
      · case isFalse hqualifier =>
        obtain ⟨index, hindex, h⟩ := bind_eq_ok.mp h
        have hchoose : outside choose place name = index := by
          rw [outside, hplace, hfind name index hindex]
          rfl
        rw [if_neg hqualifier, hchoose]
        split at h
        · cases h
          rfl
        · cases h
          rfl
  | node label children ih =>
    obtain ⟨exprAlias, kind⟩ := label
    have hnode : ∀ inner : Place, inner.operand = false →
        (expandAll find entries children >>= fun r =>
          .ok (.node ⟨exprAlias, kind⟩ r.1, r.2)) = .ok (expanded, changed) →
        expanded = .node ⟨exprAlias, kind⟩ (children.map
          (Tree.substitute duckdb.inside (replaceName (outside choose) entries) inner)) := by
      intro inner hinner h
      obtain ⟨⟨rest, changed₁⟩, hrest, h⟩ := bind_eq_ok.mp h
      cases h
      rw [expandAll_eq (fun expr hexpr _ _ hexpand => ih expr hexpr hinner hexpand) hrest]
    rw [Tree.substitute_node]
    cases kind with
    | subquery query =>
      cases h
      congr 1
      refine ((List.map_congr_left fun expr hexpr => ?_).trans (List.map_id children)).symm
      exact substitute_of_operand duckdb rfl expr
    | constant value | cast target tryCast => exact hnode place hplace h
    | function name => exact hnode _ hplace h
    | operation expressionClass => exact hnode place hplace h

/-- The aliases are those of the first entries that have them. -/
theorem lookup_collectAliases (i : ℕ) (entries : List (Expr V T Q))
    (aliases : List (Identifier × ℕ)) (name : Identifier) :
    (collectAliases i entries aliases).lookup name =
      (aliases.lookup name).or
        ((entries.findIdx? fun entry => getAlias entry == some name).map (· + i)) := by
  induction entries generalizing i aliases with
  | nil => simp [collectAliases]
  | cons entry entries ih =>
    have hshift : ((entries.findIdx? fun entry => getAlias entry == some name).map (· + (i + 1))) =
        ((entries.findIdx? fun entry => getAlias entry == some name).map (· + 1)).map (· + i) := by
      rw [Option.map_map]
      exact congrArg (Option.map · _) (funext fun x => by simp only [Function.comp]; omega)
    rw [collectAliases, List.findIdx?_cons]
    cases hentry : getAlias entry with
    | none => simp [ih, hshift]
    | some key =>
      dsimp only
      by_cases hkey : key = name
      · subst hkey
        split
        · case isTrue hsome =>
          obtain ⟨index, hindex⟩ := Option.isSome_iff_exists.mp hsome
          simp [ih, hindex]
        · case isFalse hnone =>
          have hnone := Option.not_isSome_iff_eq_none.mp hnone
          simp [ih, List.lookup_append, hnone]
      · have hne : (some key == some name) = false := by simpa using hkey
        rw [hne]
        split
        · simp [ih, hshift]
        · simp [ih, hshift, List.lookup_append, List.lookup_cons,
            beq_eq_false_iff_ne.mpr (Ne.symm hkey)]

theorem findAlias_eq (ctx : Context V T Q F) (fromTable : F) {aliases : List (Identifier × ℕ)}
    (haliases : ∀ name, aliases.lookup name = aliasIndex node name) (name : Identifier)
    (index : Option ℕ) (h : findAlias ctx fromTable aliases false name = .ok index) :
    index = columnFirst ctx fromTable node name := by
  rw [findAlias, haliases] at h
  rw [columnFirst]
  cases hindex : aliasIndex node name with
  | none =>
    rw [hindex] at h
    cases h
    simp
  | some i =>
    rw [hindex] at h
    obtain ⟨provided, hprovided, h⟩ := bind_eq_ok.mp h
    rw [isColumn, hprovided]
    cases provided <;> · cases h; rfl

/-- The select list is expanded by following its aliases. -/
theorem expandSelectList_eq (duckdb : DuckDB F)
    (hfind : ∀ name index, find name = .ok index → index = choose name)
    {before rest expandeds : List (Expr V T Q)} {changed : Bool}
    (h : expandSelectList ctx find before rest = .ok (expandeds, changed)) :
    expandeds.map (setAlias none) =
      followEntries duckdb (outside choose) (before.map (setAlias none)) rest := by
  induction rest generalizing before changed with
  | nil =>
    cases h
    rfl
  | cons entry rest ih =>
    rw [expandSelectList] at h
    obtain ⟨⟨expanded, changed₁⟩, hentry, h⟩ := bind_eq_ok.mp h
    obtain ⟨⟨entries, changed₂⟩, hrest, h⟩ := bind_eq_ok.mp h
    cases h
    have hexpanded : expanded = entry.substitute duckdb.inside
        (replaceName (outside choose) (before.map (setAlias none))) .top := by
      rw [expand_eq duckdb hfind (rfl : Place.top.operand = false) hentry]
      exact Tree.substitute_congr fun p _ => (replaceName_map_setAlias _ p.1 p.2).symm
    rw [ih hrest, followEntries, List.map_append, ← hexpanded]
    split
    · simp
    · rfl

theorem groupColumn_map_setAlias (group : Expr V T Q) :
    groupColumn ctx (entries.map (setAlias none)) group = groupColumn ctx entries group := by
  rw [groupColumn, groupColumn, List.length_map]
  split
  · rfl
  · split
    · rw [List.getElem?_map, Option.bind_map]
      exact congrArg _ (funext fun entry => columnName_setAlias none entry)
    · rfl

variable (ctx duckdb fromTable node)

/-- The columns that are grouped by if every integer literal is the position of an entry, also if it
is cast to another type or comes from an alias. -/
def writtenKeyColumn : Expr V T Q → Option Identifier
  | .leaf leaf =>
    groupColumn ctx (followed ctx duckdb fromTable node) (followKey ctx duckdb fromTable node leaf)
  | .node label children =>
    groupColumn ctx (followed ctx duckdb fromTable node) (.node label children)

def writtenColumns : List Identifier :=
  node.groupExpressions.filterMap (writtenKeyColumn ctx duckdb fromTable node)

/-- The entry that the code puts in the place of a name in the `HAVING` clause. -/
def writtenHavingName (place : Place) (name : Identifier) : Option ℕ :=
  outside (fun name =>
    if (writtenColumns ctx duckdb fromTable node).contains name then none
    else aliasIndex node name) place name

variable {ctx duckdb fromTable node}

theorem groupColumn_of_leaf (hentries : entries.map (setAlias none) = followed ctx duckdb fromTable node)
    (leaf : Leaf) :
    groupColumn ctx entries
        (replaceName (outside (columnFirst ctx fromTable node)) entries .top leaf) =
      writtenKeyColumn ctx duckdb fromTable node (.leaf leaf) := by
  rw [writtenKeyColumn, followKey, ← hentries, groupColumn_map_setAlias, replaceName_map_setAlias]
  rfl

theorem expandGroups_eq {groups expandeds : List (Expr V T Q)} {changed : Bool}
    (hfind : ∀ name index, find name = .ok index → index = columnFirst ctx fromTable node name)
    (hentries : entries.map (setAlias none) = followed ctx duckdb fromTable node)
    (h : expandGroups find entries groups = .ok (expandeds, changed)) :
    expandeds.filterMap (groupColumn ctx entries) =
      groups.filterMap (writtenKeyColumn ctx duckdb fromTable node) := by
  induction groups generalizing expandeds changed with
  | nil =>
    cases h
    rfl
  | cons group groups ih =>
    rw [expandGroups] at h
    obtain ⟨⟨expanded, changed₁⟩, hgroup, h⟩ := bind_eq_ok.mp h
    have hexpanded := expand_eq duckdb hfind (rfl : Place.top.operand = false) hgroup
    have hcons : ∀ {key : Expr V T Q} {rest : List (Expr V T Q)} {changed₂ : Bool},
        groupColumn ctx entries key = writtenKeyColumn ctx duckdb fromTable node group →
        expandGroups find entries groups = .ok (rest, changed₂) →
        (key :: rest).filterMap (groupColumn ctx entries) =
          (group :: groups).filterMap (writtenKeyColumn ctx duckdb fromTable node) := by
      intro key rest changed₂ hkey hrest
      rw [List.filterMap_cons, List.filterMap_cons, hkey, ih hrest]
    dsimp only at h
    split at h
    · case isTrue hname =>
      obtain ⟨⟨rest, changed₂⟩, hrest, h⟩ := bind_eq_ok.mp h
      cases h
      refine hcons ?_ hrest
      cases group with
      | node label children => cases hname
      | leaf leaf => rw [hexpanded, Tree.substitute_leaf, groupColumn_of_leaf hentries]
    · case isFalse hname =>
      split at h
      · cases h
      · obtain ⟨⟨rest, changed₂⟩, hrest, h⟩ := bind_eq_ok.mp h
        cases h
        refine hcons ?_ hrest
        cases group with
        | node label children => rw [writtenKeyColumn, ← hentries, groupColumn_map_setAlias]
        | leaf leaf =>
          cases leaf with
          | columnRef columnAlias qualifier name => exact absurd rfl hname
          | star relation => exact groupColumn_of_leaf hentries (.star relation)

theorem lookup_filter (keep : Identifier → Bool) (aliases : List (Identifier × ℕ))
    (name : Identifier) :
    (aliases.filter fun entry => keep entry.1).lookup name =
      if keep name then aliases.lookup name else none := by
  induction aliases with
  | nil => simp
  | cons entry aliases ih =>
    obtain ⟨key, index⟩ := entry
    rw [List.filter_cons, List.lookup_cons]
    by_cases hkey : name = key
    · subst hkey
      cases hkeep : keep name with
      | true => simp
      | false => simp [ih, hkeep]
    · have hne : (name == key) = false := by simpa using hkey
      rw [hne]
      cases hkeep : keep key with
      | true => simp [List.lookup_cons, hne, ih]
      | false => simp [ih]

theorem findAlias_first {aliases : List (Identifier × ℕ)} (name : Identifier) (index : Option ℕ)
    (h : findAlias ctx fromTable aliases true name = .ok index) : index = aliases.lookup name := by
  rw [findAlias] at h
  cases hindex : aliases.lookup name with
  | none | some i =>
    rw [hindex] at h
    cases h
    rfl

/-- **What is written for a `HAVING` clause.** -/
theorem having_expandSelectAliases (duckdb : DuckDB F) {node' : SelectNode V T Q F}
    (hfrom : node.fromTable = some fromTable) {expr : Expr V T Q} (hhaving : node.having = some expr)
    (h : expandSelectAliases ctx node = .ok (some node')) :
    node'.having = some (expr.substitute duckdb.inside
      (replaceName (writtenHavingName ctx duckdb fromTable node)
        (followed ctx duckdb fromTable node)) .top) := by
  have haliases : ∀ name,
      (collectAliases 0 node.selectList []).lookup name = aliasIndex node name := by
    intro name
    rw [lookup_collectAliases]
    simp [aliasIndex]
  have hfind := findAlias_eq ctx fromTable haliases
  rw [expandSelectAliases, hfrom, hhaving] at h
  dsimp only at h
  split at h
  · cases h
  obtain ⟨⟨selectList, changed₁⟩, hselect, h⟩ := bind_eq_ok.mp h
  obtain ⟨⟨whereClause, changed₂⟩, -, h⟩ := bind_eq_ok.mp h
  obtain ⟨⟨groups, changed₃⟩, hgroups, h⟩ := bind_eq_ok.mp h
  obtain ⟨⟨having, changed₄⟩, hexpand, h⟩ := bind_eq_ok.mp h
  obtain ⟨⟨qualify, changed₅⟩, -, h⟩ := bind_eq_ok.mp h
  dsimp only at h
  split at h
  · cases h
    obtain ⟨⟨expanded, changed₆⟩, hexpanded, hhaving'⟩ := bind_eq_ok.mp hexpand
    cases hhaving'
    have hentries : selectList.map (setAlias none) = followed ctx duckdb fromTable node :=
      expandSelectList_eq duckdb hfind hselect
    have hcolumns := expandGroups_eq hfind hentries hgroups
    have hwritten := expand_eq duckdb findAlias_first (rfl : Place.top.operand = false) hexpanded
    rw [hwritten, ← hentries]
    refine congrArg some (Tree.substitute_congr fun p _ => ?_)
    rw [replaceName_map_setAlias]
    refine congrArg (fun choose => replaceName choose selectList p.1 p.2) ?_
    funext place name
    rw [outside, writtenHavingName, outside, Option.isNone_some, if_neg Bool.false_ne_true,
      lookup_filter (fun key => !(groups.filterMap (groupColumn ctx selectList)).contains key),
      haliases, hcolumns, writtenColumns]
    cases (node.groupExpressions.filterMap
      (writtenKeyColumn ctx duckdb fromTable node)).contains name <;> rfl
  · cases h

end Expand

/-! ### The select list with its aliases followed -/

/-- The name of a reference that is not qualified. -/
def Leaf.unqualified : Leaf → Option Identifier
  | .columnRef _ [] name => some name
  | .columnRef _ (_ :: _) _ => none
  | .star _ => none

/-- The unqualified names of an expression, outside the queries of its subqueries. -/
def openNames (expr : Expr V T Q) : List Identifier := expr.leaves.filterMap Leaf.unqualified

/-- An unqualified name is at a place of an expression. -/
def Occurs (duckdb : DuckDB F) (expr : Expr V T Q) (place : Place) (name : Identifier) : Prop :=
  ∃ leaf, (place, leaf) ∈ expr.refs duckdb.inside .top ∧ leaf.unqualified = some name

section Followed

variable (ctx : Context V T Q F) (duckdb : DuckDB F) (fromTable : F) (node : SelectNode V T Q F)

/-- An entry is replaced for a name in a later one. -/
def Mentions (i j : ℕ) : Prop :=
  ∃ entry, node.selectList[i]? = some entry ∧ ∃ place name, Occurs duckdb entry place name ∧
    place.operand = false ∧ columnFirst ctx fromTable node name = some j ∧ j < i

/-- An entry is put into another one, by way of others. -/
inductive Reaches : ℕ → ℕ → Prop where
  | refl (i : ℕ) : Reaches i i
  | step {i j k : ℕ} : Mentions ctx duckdb fromTable node i j → Reaches j k → Reaches i k

/-- The aliases in an entry that no column has the name of are those of earlier entries, and none of
them is in the left operand of a subquery. -/
def Defined (i : ℕ) : Prop :=
  ∀ entry, node.selectList[i]? = some entry → ∀ place name, Occurs duckdb entry place name →
    ∀ j, columnFirst ctx fromTable node name = some j → place.operand = false ∧ j < i

/-- No alias is left in an expression, other than the names of columns. -/
def Complete (expr : Expr V T Q) : Prop :=
  ∀ name ∈ openNames expr, columnFirst ctx fromTable node name = none

end Followed

section FollowedLemmas

variable {ctx : Context V T Q F} {duckdb : DuckDB F} {fromTable : F} {node : SelectNode V T Q F}

variable {name : Identifier}

theorem unqualified_eq_some {leaf : Leaf} (h : leaf.unqualified = some name) :
    ∃ columnAlias, leaf = .columnRef columnAlias [] name := by
  cases leaf with
  | star relation => cases h
  | columnRef columnAlias qualifier column =>
    cases qualifier with
    | nil =>
      cases h
      exact ⟨columnAlias, rfl⟩
    | cons head tail => cases h

@[simp] theorem openNames_setAlias (a : Option Identifier) (expr : Expr V T Q) :
    openNames (setAlias a expr) = openNames expr := by
  cases expr with
  | node label children => simp [openNames, setAlias]
  | leaf leaf =>
    cases leaf with
    | star relation => rfl
    | columnRef columnAlias qualifier name =>
      cases qualifier with
      | nil => simp [openNames, setAlias, Leaf.unqualified]
      | cons head tail => simp [openNames, setAlias, Leaf.unqualified, List.filterMap_cons]

/-- The names after a replacement. -/
theorem mem_openNames_substitute {σ : Place → Leaf → Expr V T Q} {expr : Expr V T Q}
    :
    name ∈ openNames (expr.substitute duckdb.inside σ .top) ↔
      ∃ p ∈ expr.refs duckdb.inside .top, name ∈ openNames (σ p.1 p.2) := by
  simp only [openNames, Tree.leaves_substitute, List.filterMap_flatMap, List.mem_flatMap]

/-- What following the aliases comes to. -/
theorem followEntries_spec (duckdb : DuckDB F) (choose : Place → Identifier → Option ℕ)
    (before rest : List (Expr V T Q)) :
    ∃ new, followEntries duckdb choose before rest = before ++ new ∧ new.length = rest.length ∧
      ∀ i (entry : Expr V T Q), rest[i]? = some entry → new[i]? = some (setAlias none
        (entry.substitute duckdb.inside (replaceName choose (before ++ new.take i)) .top)) := by
  induction rest generalizing before with
  | nil => exact ⟨[], by simp [followEntries], rfl, by simp⟩
  | cons entry rest ih =>
    obtain ⟨new, hnew, hlength, hget⟩ := ih (before ++
      [setAlias none (entry.substitute duckdb.inside (replaceName choose before) .top)])
    refine ⟨setAlias none (entry.substitute duckdb.inside (replaceName choose before) .top) :: new,
      ?_, by simp [hlength], fun i entry' hentry => ?_⟩
    · rw [followEntries, hnew, List.append_assoc]
      rfl
    · cases i with
      | zero =>
        cases hentry
        simp
      | succ i =>
        have := hget i entry' hentry
        rw [List.append_assoc] at this
        exact this

theorem length_followed : (followed ctx duckdb fromTable node).length = node.selectList.length := by
  obtain ⟨new, hnew, hlength, -⟩ := followEntries_spec duckdb
    (outside (columnFirst ctx fromTable node)) [] node.selectList
  rw [followed, hnew]
  exact hlength

theorem getElem?_followed {i : ℕ} {entry : Expr V T Q} (h : node.selectList[i]? = some entry) :
    (followed ctx duckdb fromTable node)[i]? = some (setAlias none
      (entry.substitute duckdb.inside (replaceName (outside (columnFirst ctx fromTable node))
        ((followed ctx duckdb fromTable node).take i)) .top)) := by
  obtain ⟨new, hnew, -, hget⟩ := followEntries_spec duckdb
    (outside (columnFirst ctx fromTable node)) [] node.selectList
  rw [followed, hnew]
  exact hget i entry h

variable {place : Place}

theorem replaceName_of_none {choose : Place → Identifier → Option ℕ} {entries : List (Expr V T Q)}
    (columnAlias : Option Identifier)
    (h : (choose place name).bind (entries[·]?) = none) :
    replaceName choose entries place (.columnRef columnAlias [] name) =
      .leaf (.columnRef columnAlias [] name) := by
  rw [replaceName, if_neg (by simp), h]

theorem replaceName_of_some {choose : Place → Identifier → Option ℕ} {entries : List (Expr V T Q)}
    {entry : Expr V T Q} (columnAlias : Option Identifier)
    (h : (choose place name).bind (entries[·]?) = some entry) :
    replaceName choose entries place (.columnRef columnAlias [] name) =
      setAlias columnAlias entry := by
  rw [replaceName, if_neg (by simp), h]

/-- References that are qualified have no name that is left open. -/
theorem unqualified_of_mem_openNames {choose : Place → Identifier → Option ℕ}
    {entries : List (Expr V T Q)} {leaf : Leaf}
    (h : name ∈ openNames (replaceName choose entries place leaf)) :
    ∃ columnAlias other, leaf = .columnRef columnAlias [] other := by
  cases leaf with
  | star relation => simp [replaceName, openNames, Leaf.unqualified, List.filterMap_cons] at h
  | columnRef columnAlias qualifier other =>
    cases qualifier with
    | nil => exact ⟨columnAlias, other, rfl⟩
    | cons head tail => simp [replaceName, openNames, Leaf.unqualified, List.filterMap_cons] at h

theorem mem_openNames_leaf {columnAlias : Option Identifier} {name other : Identifier} :
    name ∈ openNames (.leaf (.columnRef columnAlias [] other) : Expr V T Q) ↔ name = other := by
  simp [openNames, Leaf.unqualified]

theorem lt_length_of_aliasIndex {i : ℕ} (h : aliasIndex node name = some i) :
    i < node.selectList.length := by
  rw [aliasIndex, List.findIdx?_eq_some_iff_getElem] at h
  exact h.1

theorem lt_length_of_columnFirst {i : ℕ}
    (h : columnFirst ctx fromTable node name = some i) : i < node.selectList.length := by
  rw [columnFirst] at h
  split at h
  · cases h
  · exact lt_length_of_aliasIndex h

/-- What is put in for a name of an entry. -/
theorem chosen_eq_none_iff {i : ℕ} :
    (outside (columnFirst ctx fromTable node) place name).bind
        (((followed ctx duckdb fromTable node).take i)[·]?) = none ↔
      ∀ j, columnFirst ctx fromTable node name = some j → place.operand = true ∨ i ≤ j := by
  rw [outside]
  cases hoperand : place.operand with
  | true => simp
  | false =>
    cases hfirst : columnFirst ctx fromTable node name with
    | none => simp
    | some j =>
      have hlt := lt_length_of_columnFirst hfirst
      simp [List.getElem?_take, length_followed, hlt]

theorem chosen_eq_some {i : ℕ} {other : Expr V T Q}
    (h : (outside (columnFirst ctx fromTable node) place name).bind
      (((followed ctx duckdb fromTable node).take i)[·]?) = some other) :
    ∃ j, place.operand = false ∧ columnFirst ctx fromTable node name = some j ∧ j < i ∧
      (followed ctx duckdb fromTable node)[j]? = some other := by
  rw [outside] at h
  cases hoperand : place.operand with
  | true => simp [hoperand] at h
  | false =>
    rw [hoperand, if_neg Bool.false_ne_true] at h
    obtain ⟨j, hj, hother⟩ := Option.bind_eq_some_iff.mp h
    rw [List.getElem?_take] at hother
    split at hother
    · case isTrue hlt => exact ⟨j, rfl, hj, hlt, hother⟩
    · cases hother

/-- The names that are left of an entry: those of the entries that were put in, and those that were
not replaced. -/
theorem mem_openNames_followed {i : ℕ} {entry expanded : Expr V T Q}
    (hentry : node.selectList[i]? = some entry)
    (hexpanded : (followed ctx duckdb fromTable node)[i]? = some expanded) :
    name ∈ openNames expanded ↔
      (∃ j other, Mentions ctx duckdb fromTable node i j ∧
        (followed ctx duckdb fromTable node)[j]? = some other ∧ name ∈ openNames other) ∨
      ∃ place, Occurs duckdb entry place name ∧
        ∀ j, columnFirst ctx fromTable node name = some j → place.operand = true ∨ i ≤ j := by
  rw [getElem?_followed hentry] at hexpanded
  cases hexpanded
  rw [openNames_setAlias, mem_openNames_substitute]
  constructor
  · rintro ⟨⟨place, leaf⟩, hleaf, hname⟩
    obtain ⟨columnAlias, read, rfl⟩ := unqualified_of_mem_openNames hname
    cases hchosen : (outside (columnFirst ctx fromTable node) place read).bind
        (((followed ctx duckdb fromTable node).take i)[·]?) with
    | none =>
      rw [replaceName_of_none columnAlias hchosen, mem_openNames_leaf] at hname
      subst hname
      exact .inr ⟨place, ⟨_, hleaf, rfl⟩, chosen_eq_none_iff.mp hchosen⟩
    | some other =>
      rw [replaceName_of_some columnAlias hchosen, openNames_setAlias] at hname
      obtain ⟨j, hoperand, hfirst, hlt, hother⟩ := chosen_eq_some hchosen
      exact .inl ⟨j, other, ⟨entry, hentry, place, read, ⟨_, hleaf, rfl⟩, hoperand, hfirst, hlt⟩,
        hother, hname⟩
  · rintro (⟨j, other, ⟨entry', hentry', place, read, ⟨leaf, hleaf, hread⟩, hoperand, hfirst, hlt⟩,
      hother, hname⟩ | ⟨place, ⟨leaf, hleaf, hread⟩, hnone⟩)
    · rw [hentry] at hentry'
      cases hentry'
      obtain ⟨columnAlias, rfl⟩ := unqualified_eq_some hread
      refine ⟨_, hleaf, ?_⟩
      have hchosen : (outside (columnFirst ctx fromTable node) place read).bind
          (((followed ctx duckdb fromTable node).take i)[·]?) = some other := by
        rw [outside, hoperand, if_neg Bool.false_ne_true, hfirst, Option.bind_some,
          List.getElem?_take, if_pos hlt, hother]
      rw [replaceName_of_some columnAlias hchosen, openNames_setAlias]
      exact hname
    · obtain ⟨columnAlias, rfl⟩ := unqualified_eq_some hread
      refine ⟨_, hleaf, ?_⟩
      rw [replaceName_of_none columnAlias (chosen_eq_none_iff.mpr hnone), mem_openNames_leaf]

theorem exists_entry {i : ℕ} {expanded : Expr V T Q}
    (h : (followed ctx duckdb fromTable node)[i]? = some expanded) :
    ∃ entry, node.selectList[i]? = some entry := by
  obtain ⟨hlt, -⟩ := List.getElem?_eq_some_iff.mp h
  rw [length_followed] at hlt
  exact ⟨_, List.getElem?_eq_getElem hlt⟩

theorem exists_followed {i : ℕ} (h : i < node.selectList.length) :
    ∃ expanded, (followed ctx duckdb fromTable node)[i]? = some expanded :=
  ⟨_, List.getElem?_eq_getElem (by rw [length_followed]; exact h)⟩

/-- **An entry is complete if all entries that are put into it are defined in order.** -/
theorem complete_followed_iff {i : ℕ} {expanded : Expr V T Q}
    (hexpanded : (followed ctx duckdb fromTable node)[i]? = some expanded) :
    Complete ctx fromTable node expanded ↔
      ∀ j, Reaches ctx duckdb fromTable node i j → Defined ctx duckdb fromTable node j := by
  induction i using Nat.strong_induction_on generalizing expanded with
  | _ i ih =>
    obtain ⟨entry, hentry⟩ := exists_entry hexpanded
    constructor
    · intro hcomplete j hreaches
      cases hreaches with
      | refl =>
        intro entry' hentry' place name hoccurs k hk
        rw [hentry] at hentry'
        cases hentry'
        by_contra hnot
        have hname : name ∈ openNames expanded :=
          (mem_openNames_followed hentry hexpanded).mpr <| .inr ⟨place, hoccurs, fun j hj => by
            rw [hk] at hj
            cases hj
            by_contra hboth
            simp only [not_or, Bool.not_eq_true, not_le] at hboth
            exact hnot hboth⟩
        rw [hcomplete name hname] at hk
        cases hk
      | @step _ k _ hmentions hrest =>
        obtain ⟨_, _, _, _, _, _, hfirst, hlt⟩ := id hmentions
        obtain ⟨other, hother⟩ : ∃ other, (followed ctx duckdb fromTable node)[k]? = some other :=
          exists_followed (lt_length_of_columnFirst hfirst)
        refine (ih k hlt hother).mp (fun name hname => hcomplete name ?_) j hrest
        exact (mem_openNames_followed hentry hexpanded).mpr (.inl ⟨k, other, hmentions, hother, hname⟩)
    · intro hdefined name hname
      rcases (mem_openNames_followed hentry hexpanded).mp hname with
        ⟨k, other, hmentions, hother, hname⟩ | ⟨place, hoccurs, hleft⟩
      · obtain ⟨-, -, -, -, -, -, -, hlt⟩ := id hmentions
        exact (ih k hlt hother).mpr (fun j hj => hdefined j (.step hmentions hj)) name hname
      · cases hfirst : columnFirst ctx fromTable node name with
        | none => rfl
        | some k =>
          obtain ⟨hoperand, hlt⟩ := hdefined i (.refl i) entry hentry place name hoccurs k hfirst
          rcases hleft k hfirst with h | h
          · rw [hoperand] at h
            cases h
          · omega

end FollowedLemmas

/-! ### The names of a `HAVING` clause -/

section Having

variable (ctx : Context V T Q F) (duckdb : DuckDB F) (fromTable : F) (node : SelectNode V T Q F)

/-- The name is an alias, and not only that of the column with the name. -/
def IsAlias (name : Identifier) : Prop :=
  ∃ i entry, aliasIndex node name = some i ∧
    (followed ctx duckdb fromTable node)[i]? = some entry ∧
    entry ≠ .leaf (.columnRef none [] name)

/-- The names of a `HAVING` clause are resolved as DuckDB resolves them: each of them is replaced by
the aliased expression if it is an alias, and there is nothing left to resolve in that. -/
structure HavingResolved (expr expanded : Expr V T Q) : Prop where
  names : expanded = expr.substitute duckdb.inside
    (replaceName (resolveHavingName ctx duckdb fromTable node)
      (followed ctx duckdb fromTable node)) .top
  complete : ∀ place name i entry, Occurs duckdb expr place name →
    resolveHavingName ctx duckdb fromTable node place name = some i →
    (followed ctx duckdb fromTable node)[i]? = some entry → Complete ctx fromTable node entry

/-- An integer constant, or a cast of a constant to an integer. -/
inductive IntegerLiteral : Expr V T Q → ℤ → Prop where
  | constant {exprAlias : Option Identifier} {value : V} {position : ℤ} (children : List (Expr V T Q)) :
    ctx.integerValue value = some position →
    IntegerLiteral (.node ⟨exprAlias, .constant value⟩ children) position
  | cast {exprAlias constantAlias : Option Identifier} {target : T} {value converted : V} {position : ℤ}
    (children : List (Expr V T Q)) : ctx.castValue target value = some converted →
    ctx.integerValue converted = some position →
    IntegerLiteral (.node ⟨exprAlias, .cast target false⟩
      [.node ⟨constantAlias, .constant value⟩ children]) position

/-- A key of the `GROUP BY`, where an alias stands for its entry. -/
def keyMeaning : Expr V T Q → Expr V T Q
  | .leaf leaf => followKey ctx duckdb fromTable node leaf
  | .node label children => .node label children

/-- A key names a column if every integer literal, cast or not and also behind an alias, is a position
among the entries of the select list: it is the column, or the position of an entry that is the
column. -/
def NamesColumn (key : Expr V T Q) (name : Identifier) : Prop :=
  columnName (keyMeaning ctx duckdb fromTable node key) = some name ∨
    ∃ position : ℕ, IntegerLiteral ctx (keyMeaning ctx duckdb fromTable node key) (position + 1) ∧
      ∃ entry, (followed ctx duckdb fromTable node)[position]? = some entry ∧
        columnName entry = some name

/-- What makes the difference between the two ways to resolve the names of a `HAVING` clause. -/
structure NamesAgree (expr : Expr V T Q) : Prop where
  /-- An alias in the argument of an aggregate function is named by a key of the `GROUP BY`. -/
  aggregates : ∀ place name, Occurs duckdb expr place name → place.aggregate = true →
    place.operand = false → IsAlias ctx duckdb fromTable node name →
    ∃ key ∈ node.groupExpressions, NamesColumn ctx duckdb fromTable node key name
  /-- An alias in the left operand of a subquery is a grouped column. -/
  operands : ∀ place name, Occurs duckdb expr place name → place.aggregate = false →
    place.operand = true → IsAlias ctx duckdb fromTable node name →
    name ∈ groupedColumns ctx duckdb fromTable node
  /-- The keys are not mistaken for those of other columns. -/
  keys : ∀ place name, Occurs duckdb expr place name → place.aggregate = false →
    place.operand = false → IsAlias ctx duckdb fromTable node name →
    ((∃ key ∈ node.groupExpressions, NamesColumn ctx duckdb fromTable node key name) ↔
      name ∈ groupedColumns ctx duckdb fromTable node)
  /-- The entries that are put in do not refer to aliases from the left operand of a subquery, nor to
  later aliases. -/
  defined : ∀ place name i, Occurs duckdb expr place name →
    resolveHavingName ctx duckdb fromTable node place name = some i →
    ∀ j, Reaches ctx duckdb fromTable node i j → Defined ctx duckdb fromTable node j

variable {ctx duckdb fromTable node}

theorem tryGetIntegerLiteral_eq_some_iff {expr : Expr V T Q} {position : ℤ} :
    tryGetIntegerLiteral ctx expr = some position ↔ IntegerLiteral ctx expr position := by
  constructor
  · intro h
    obtain ⟨value, hvalue, hposition⟩ := Option.bind_eq_some_iff.mp h
    unfold tryGetConstantValue at hvalue
    split at hvalue
    · cases hvalue
    · case h_2 label children =>
      obtain ⟨exprAlias, kind⟩ := label
      split at hvalue
      · case h_1 hkind =>
        cases hkind
        cases hvalue
        exact .constant _ hposition
      · case h_2 hkind =>
        cases hkind
        exact .cast _ hvalue hposition
      · cases hvalue
  · intro h
    cases h with
    | constant children hposition => simpa [tryGetIntegerLiteral, tryGetConstantValue] using hposition
    | cast children hvalue hposition =>
      simpa [tryGetIntegerLiteral, tryGetConstantValue, hvalue] using hposition

theorem columnName_of_integerLiteral {expr : Expr V T Q} {position : ℤ}
    (h : IntegerLiteral ctx expr position) : columnName expr = none := by
  cases h <;> rfl

/-- The group columns of the code. -/
theorem mem_writtenColumns_iff {name : Identifier} :
    name ∈ writtenColumns ctx duckdb fromTable node ↔
      ∃ key ∈ node.groupExpressions, NamesColumn ctx duckdb fromTable node key name := by
  have hkey : ∀ key, writtenKeyColumn ctx duckdb fromTable node key =
      groupColumn ctx (followed ctx duckdb fromTable node) (keyMeaning ctx duckdb fromTable node key) := by
    rintro (leaf | ⟨label, children⟩) <;> rfl
  rw [writtenColumns, List.mem_filterMap]
  refine exists_congr fun key => and_congr_right fun _ => ?_
  rw [hkey, groupColumn, NamesColumn]
  cases hliteral : tryGetIntegerLiteral ctx (keyMeaning ctx duckdb fromTable node key) with
  | none =>
    refine ⟨.inl, fun h => h.resolve_right ?_⟩
    rintro ⟨position, hposition, -⟩
    rw [tryGetIntegerLiteral_eq_some_iff.mpr hposition] at hliteral
    cases hliteral
  | some position =>
    have hposition := tryGetIntegerLiteral_eq_some_iff.mp hliteral
    have hunique : ∀ n : ℕ, IntegerLiteral ctx (keyMeaning ctx duckdb fromTable node key) (n + 1) →
        position = n + 1 := by
      intro n hn
      rw [tryGetIntegerLiteral_eq_some_iff.mpr hn] at hliteral
      exact (Option.some.inj hliteral).symm
    rw [columnName_of_integerLiteral hposition]
    dsimp only
    split
    · case isTrue hrange =>
      obtain ⟨n, hn⟩ : ∃ n : ℕ, position = n + 1 := ⟨(position - 1).toNat, by omega⟩
      subst hn
      constructor
      · intro h
        obtain ⟨entry, hentry, hname⟩ := Option.bind_eq_some_iff.mp h
        exact .inr ⟨n, hposition, entry, by simpa using hentry, hname⟩
      · rintro (h | ⟨n', hn', entry, hentry, hname⟩)
        · cases h
        · obtain rfl : n = n' := by have := hunique n' hn'; omega
          exact Option.bind_eq_some_iff.mpr ⟨entry, by simpa using hentry, hname⟩
    · case isFalse hrange =>
      refine iff_of_false nofun ?_
      rintro (h | ⟨n, hn, entry, hentry, -⟩)
      · cases h
      · have hposition := hunique n hn
        have hlt := (List.getElem?_eq_some_iff.mp hentry).1
        omega

theorem setAlias_none_of_followed {i : ℕ} {entry : Expr V T Q}
    (h : (followed ctx duckdb fromTable node)[i]? = some entry) : setAlias none entry = entry := by
  obtain ⟨original, horiginal⟩ := exists_entry h
  rw [getElem?_followed horiginal] at h
  cases h
  exact setAlias_setAlias none none _

theorem setAlias_eq_leaf_iff {a : Option Identifier} {name : Identifier} {entry : Expr V T Q}
    (h : setAlias none entry = entry) :
    setAlias a entry = .leaf (.columnRef a [] name) ↔ entry = .leaf (.columnRef none [] name) := by
  constructor
  · intro heq
    rw [← h, ← setAlias_setAlias none a, heq]
    rfl
  · rintro rfl
    rfl

/-- Whether it makes a difference if a name is replaced. -/
theorem replaceName_eq_iff {choose choose' : Place → Identifier → Option ℕ} {place : Place}
    {name : Identifier} {b b' : Prop} [Decidable b] [Decidable b'] (a : Option Identifier)
    (hchoose : choose place name = if b then aliasIndex node name else none)
    (hchoose' : choose' place name = if b' then aliasIndex node name else none) :
    replaceName choose (followed ctx duckdb fromTable node) place (.columnRef a [] name) =
        replaceName choose' (followed ctx duckdb fromTable node) place (.columnRef a [] name) ↔
      (IsAlias ctx duckdb fromTable node name → (b ↔ b')) := by
  cases hindex : aliasIndex node name with
  | none =>
    have hnot : ¬ IsAlias ctx duckdb fromTable node name := by
      rintro ⟨i, entry, hi, -⟩
      rw [hindex] at hi
      cases hi
    rw [hindex, ite_self] at hchoose hchoose'
    rw [replaceName_of_none a (by rw [hchoose]; rfl), replaceName_of_none a (by rw [hchoose']; rfl)]
    simp [hnot]
  | some i =>
    obtain ⟨entry, hentry⟩ : ∃ entry, (followed ctx duckdb fromTable node)[i]? = some entry :=
      exists_followed (lt_length_of_aliasIndex hindex)
    have halias : IsAlias ctx duckdb fromTable node name ↔
        setAlias a entry ≠ .leaf (.columnRef a [] name) := by
      rw [Ne, setAlias_eq_leaf_iff (setAlias_none_of_followed hentry)]
      constructor
      · rintro ⟨j, other, hj, hother, hne⟩
        rw [hindex] at hj
        cases hj
        rw [hentry] at hother
        cases hother
        exact hne
      · exact fun hne => ⟨i, entry, hindex, hentry, hne⟩
    rw [hindex] at hchoose hchoose'
    have hreplace : ∀ {choose : Place → Identifier → Option ℕ} {b : Prop} [Decidable b],
        choose place name = (if b then some i else none) →
        replaceName choose (followed ctx duckdb fromTable node) place (.columnRef a [] name) =
          if b then setAlias a entry else .leaf (.columnRef a [] name) := by
      intro choose b _ hchoose
      split
      · case isTrue hb =>
        rw [if_pos hb] at hchoose
        exact replaceName_of_some a (by rw [hchoose]; exact hentry)
      · case isFalse hb =>
        rw [if_neg hb] at hchoose
        exact replaceName_of_none a (by rw [hchoose]; rfl)
    rw [hreplace hchoose, hreplace hchoose', halias]
    by_cases hb : b
    · by_cases hb' : b'
      · simp [hb, hb']
      · simp [hb, hb']
    · by_cases hb' : b'
      · simp [hb, hb', eq_comm]
      · simp [hb, hb']

/-- **The names of a `HAVING` clause.** For every `SELECT` that is rewritten, the names in its `HAVING`
clause are resolved as DuckDB does it exactly if no name is at one of the places where it makes a
difference. -/
theorem havingResolved_iff (duckdb : DuckDB F) (hfrom : node.fromTable = some fromTable)
    {expr : Expr V T Q} (hhaving : node.having = some expr) {node' : SelectNode V T Q F}
    (h : expandSelectAliases ctx node = .ok (some node')) :
    ∃ expanded, node'.having = some expanded ∧
      (HavingResolved ctx duckdb fromTable node expr expanded ↔
        NamesAgree ctx duckdb fromTable node expr) := by
  refine ⟨_, having_expandSelectAliases duckdb hfrom hhaving h, ?_⟩
  have hname : ∀ place a name,
      replaceName (writtenHavingName ctx duckdb fromTable node)
          (followed ctx duckdb fromTable node) place (.columnRef a [] name) =
        replaceName (resolveHavingName ctx duckdb fromTable node)
          (followed ctx duckdb fromTable node) place (.columnRef a [] name) ↔
      (IsAlias ctx duckdb fromTable node name →
        ((place.operand = false ∧
            ¬ ∃ key ∈ node.groupExpressions, NamesColumn ctx duckdb fromTable node key name) ↔
          (place.aggregate = false ∧ name ∉ groupedColumns ctx duckdb fromTable node))) := by
    intro place a name
    rw [← mem_writtenColumns_iff]
    refine replaceName_eq_iff a ?_ ?_
    · rw [writtenHavingName, outside]
      cases place.operand <;> simp
    · rw [resolveHavingName]
      cases place.aggregate <;> simp
  constructor
  · rintro ⟨hnames, hcomplete⟩
    rw [Tree.substitute_eq_iff] at hnames
    have hagree : ∀ place name, Occurs duckdb expr place name →
        IsAlias ctx duckdb fromTable node name →
        ((place.operand = false ∧
            ¬ ∃ key ∈ node.groupExpressions, NamesColumn ctx duckdb fromTable node key name) ↔
          (place.aggregate = false ∧ name ∉ groupedColumns ctx duckdb fromTable node)) := by
      rintro place name ⟨leaf, hleaf, hread⟩
      obtain ⟨a, rfl⟩ := unqualified_eq_some hread
      exact (hname place a name).mp (hnames _ hleaf)
    refine ⟨fun place name hoccurs haggregate hoperand halias => ?_,
      fun place name hoccurs haggregate hoperand halias => ?_,
      fun place name hoccurs haggregate hoperand halias => ?_,
      fun place name i hoccurs hresolve => ?_⟩
    · simpa [haggregate, hoperand] using hagree place name hoccurs halias
    · simpa [haggregate, hoperand] using hagree place name hoccurs halias
    · have := hagree place name hoccurs halias
      simp only [haggregate, hoperand, true_and] at this
      exact not_iff_not.mp this
    · have hindex : aliasIndex node name = some i := by
        rw [resolveHavingName] at hresolve
        split_ifs at hresolve
        exact hresolve
      obtain ⟨entry, hentry⟩ := exists_followed (lt_length_of_aliasIndex hindex)
      exact (complete_followed_iff hentry).mp (hcomplete place name i entry hoccurs hresolve hentry)
  · intro hagree
    refine ⟨Tree.substitute_eq_iff.mpr ?_, ?_⟩
    · rintro ⟨place, leaf⟩ hleaf
      cases hread : leaf.unqualified with
      | none =>
        cases leaf with
        | star relation => rfl
        | columnRef a qualifier name =>
          cases qualifier with
          | nil => cases hread
          | cons head tail => simp [replaceName]
      | some name =>
        have hoccurs : Occurs duckdb expr place name := ⟨leaf, hleaf, hread⟩
        obtain ⟨a, rfl⟩ := unqualified_eq_some hread
        refine (hname place a name).mpr fun halias => ?_
        cases haggregate : place.aggregate with
        | true =>
          cases hoperand : place.operand with
          | true => simp
          | false => simpa using hagree.aggregates place name hoccurs haggregate hoperand halias
        | false =>
          cases hoperand : place.operand with
          | true => simpa using hagree.operands place name hoccurs haggregate hoperand halias
          | false =>
            simpa using not_iff_not.mpr (hagree.keys place name hoccurs haggregate hoperand halias)
    · intro place name i entry hoccurs hresolve hentry
      exact (complete_followed_iff hentry).mpr (hagree.defined place name i hoccurs hresolve)

end Having

/-! ### A table `t(id, i, s, g)` -/

def tableColumns : List Identifier := ["id", "i", "s", "g"]

def tableContext : Context ℤ Unit Unit Unit where
  providesColumn _ name := .ok (tableColumns.contains name)
  integerValue := some
  castValue _ value := some value
  toText _ := "expr"

def tableDuckDB : DuckDB Unit where
  isAggregate name := ["count_star", "sum"].contains name
  starColumns _ _ := tableColumns

def column (name : Identifier) : Expr ℤ Unit Unit := .leaf (.columnRef none [] name)

def literal (value : ℤ) : Expr ℤ Unit Unit := .node ⟨none, .constant value⟩ []

/-- `SELECT id % 3 AS k, count(*) AS c FROM t GROUP BY k HAVING c > 1`. -/
def countGroups : SelectNode ℤ Unit Unit Unit where
  selectList := [.node ⟨some "k", .operation .operator⟩ [column "id", literal 3],
    .node ⟨some "c", .function "count_star"⟩ []]
  fromTable := some ()
  whereClause := none
  groupExpressions := [column "k"]
  having := some (.node ⟨none, .operation .comparison⟩ [column "c", literal 1])
  qualify := none

/-- `SELECT i % 2 AS i, count(*) AS c FROM t GROUP BY g HAVING sum(i) > 10`. -/
def sumGroups : SelectNode ℤ Unit Unit Unit where
  selectList := [.node ⟨some "i", .operation .operator⟩ [column "i", literal 2],
    .node ⟨some "c", .function "count_star"⟩ []]
  fromTable := some ()
  whereClause := none
  groupExpressions := [column "g"]
  having := some (.node ⟨none, .operation .comparison⟩
    [.node ⟨none, .function "sum"⟩ [column "i"], literal 10])
  qualify := none

/-- An alias outside an aggregate function is resolved as in DuckDB. -/
theorem havingResolved_iff_countGroups :
    ∃ node' expanded, expandSelectAliases tableContext countGroups = .ok (some node') ∧
      node'.having = some expanded ∧
      HavingResolved tableContext tableDuckDB () countGroups
        (.node ⟨none, .operation .comparison⟩ [column "c", literal 1]) expanded := by
  obtain ⟨node', hnode'⟩ : ∃ node', expandSelectAliases tableContext countGroups =
    .ok (some node') := ⟨_, rfl⟩
  obtain ⟨expanded, hhaving, hiff⟩ := havingResolved_iff tableDuckDB
    (show countGroups.fromTable = some () from rfl) rfl hnode'
  refine ⟨node', expanded, hnode', hhaving, hiff.mpr ?_⟩
  have htop : ∀ place name, Occurs tableDuckDB (.node ⟨none, .operation .comparison⟩
      [column "c", literal 1]) place name → place = .top ∧ name = "c" := by
    rintro place name ⟨leaf, hleaf, hname⟩
    cases List.mem_singleton.mp hleaf
    cases hname
    exact ⟨rfl, rfl⟩
  have hnone : ∀ place name entry, countGroups.selectList[1]? = some entry →
      ¬ Occurs tableDuckDB entry place name := by
    rintro place name entry hentry ⟨leaf, hleaf, -⟩
    cases hentry
    exact absurd hleaf List.not_mem_nil
  refine ⟨fun place name hoccurs haggregate => ?_, fun place name hoccurs _ hoperand => ?_,
    fun place name hoccurs _ _ _ => ?_, fun place name i hoccurs hresolve j hreaches => ?_⟩
  · obtain ⟨rfl, -⟩ := htop place name hoccurs
    cases haggregate
  · obtain ⟨rfl, -⟩ := htop place name hoccurs
    cases hoperand
  · rw [← mem_writtenColumns_iff,
      show writtenColumns tableContext tableDuckDB () countGroups = [] from rfl,
      show groupedColumns tableContext tableDuckDB () countGroups = [] from rfl]
  · obtain ⟨rfl, rfl⟩ := htop place name hoccurs
    cases hresolve
    cases hreaches with
    | refl => exact fun entry hentry place name hoccurs => absurd hoccurs (hnone place name entry hentry)
    | step hmentions _ =>
      obtain ⟨entry, hentry, place, name, hoccurs, -⟩ := hmentions
      exact absurd hoccurs (hnone place name entry hentry)

/-- The argument of the sum is replaced: `HAVING sum(i % 2) > 10` is written. -/
theorem sum_of_alias :
    ∃ node' expanded, expandSelectAliases tableContext sumGroups = .ok (some node') ∧
      node'.having = some expanded ∧
      ¬ HavingResolved tableContext tableDuckDB () sumGroups
        (.node ⟨none, .operation .comparison⟩
          [.node ⟨none, .function "sum"⟩ [column "i"], literal 10]) expanded := by
  refine ⟨_, _, rfl, rfl, fun h => ?_⟩
  cases h.names

end SqliteScanner.Pushdown.SelectAliases
