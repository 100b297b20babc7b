import SqliteScanner.SetOperation.Commutation

/-!
# Set operations as SQLite reads them

DuckDB's set operations are a tree: a node has one operator and any number of members, and a member
may be a set operation again, or have a `WITH`, an `ORDER BY` or a `LIMIT` of its own. SQLite knows
only a flat list of members with operators between them. All its operators bind equally strongly and
to the left, and what follows the last member belongs to the whole list.

So the writer keeps the tree apart from the list by wrapping: a member that is not a plain `SELECT`
is written as `SELECT * FROM (...)`. This module has the written words (`writeQueryNode`), SQLite's
way of reading them (`readSql`, `Statement.Evaluates`), and the proof that what is read has the
possible results of the tree. It takes two steps. The words are read as the intended list
(`readStatement_write`), and a list with one operator throughout is the operator of the tree
(`combine_cons_cons`).

The text of a `SELECT` up to its `ORDER BY` is one word here, and so is a `WITH` clause, of which
only matters for which part of the text it is in force. The members have the types of the set
operation already, so `CastSetOperationChild` leaves them as they are.

## Main results

* `readStatement_write` — the written words are read as one statement.
* `evaluates_statement` — that statement has the possible results of the tree.
* `evaluates_written_setOperation` — both together.
-/

namespace SqliteScanner.SetOperation

open BagMap

variable {Env S V Ty N : Type}

/-! ### Query nodes and their `WITH` clauses -/

/-- A `SELECT` up to its `ORDER BY`. The rows of its `FROM ... HAVING` depend on what the names of
common table expressions mean. -/
structure SelectCore (Env S V Ty N : Type) where
  correlated : Bool
  selectList : List (SelectItem (List V × S) V Ty N)
  source : Env → Multiset S
  distinct : Bool

/-- `LIMIT` and `OFFSET`; one of them may be absent. -/
structure LimitModifier where
  limit : Option ℕ
  offset : Option ℕ

/-- A query node with its `WITH` clause, which gives new meanings to names, and its modifiers. A set
operation has at least two members. -/
inductive Node (Env S V Ty N : Type) where
  | select (ctes : Option (Env → Env)) (core : SelectCore Env S V Ty N)
      (orders : List (SelectKey S V N × OrderSpec)) (limit : Option LimitModifier)
  | setOperation (ctes : Option (Env → Env)) (type : SetOperationType)
      (first second : Node Env S V Ty N) (others : List (Node Env S V Ty N))
      (orders : List (OutputKey N × OrderSpec)) (limit : Option LimitModifier)

/-- The meanings of names below a `WITH` clause. -/
def scope (ctes : Option (Env → Env)) (env : Env) : Env :=
  match ctes with
  | none => env
  | some bindings => bindings env

def limitOf (limit : Option LimitModifier) : Option ℕ :=
  limit.bind LimitModifier.limit

def offsetOf (limit : Option LimitModifier) : ℕ :=
  (limit.bind LimitModifier.offset).getD 0

/-- The `SELECT` in a scope. -/
def SelectCore.node (core : SelectCore Env S V Ty N) (env : Env)
    (orders : List (SelectKey S V N × OrderSpec)) (limit : Option ℕ) (offset : ℕ) :
    SelectNode S V Ty N where
  correlated := core.correlated
  selectList := core.selectList
  clauses _ := core.source env
  distinct := core.distinct
  orders := orders
  limit := limit
  offset := offset

def SelectCore.columns (core : SelectCore Env S V Ty N) : List (Column (List V × S) V Ty N) :=
  core.selectList.flatMap SelectItem.columns

mutual

/-- The query that a node is in a scope. Its possible results are those of `Results`. -/
def Node.query : Node Env S V Ty N → Env → Query S V Ty N
  | .select ctes core orders limit, env =>
    .select (core.node (scope ctes env) orders (limitOf limit) (offsetOf limit))
  | .setOperation ctes type first second others orders limit, env =>
    .setOperation type (first.query (scope ctes env))
      (second.query (scope ctes env) :: queries others (scope ctes env))
      orders (limitOf limit) (offsetOf limit)

def queries : List (Node Env S V Ty N) → Env → List (Query S V Ty N)
  | [], _ => []
  | node :: nodes, env => node.query env :: queries nodes env

end

mutual

/-- The members of every set operation in the tree have its types, and these are known. -/
def Node.SameTypes (sys : TypeSystem Ty V) : Node Env S V Ty N → Env → Prop
  | .select _ _ _ _, _ => True
  | .setOperation ctes type first second others orders limit, env =>
    let node := Node.setOperation ctes type first second others orders limit
    let types := typesOf sys (node.query env)
    types ≠ [] ∧
      (typesOf sys (first.query (scope ctes env)) = types ∧ first.SameTypes sys (scope ctes env)) ∧
      (typesOf sys (second.query (scope ctes env)) = types ∧
        second.SameTypes sys (scope ctes env)) ∧
      AllSameTypes sys types others (scope ctes env)

def AllSameTypes (sys : TypeSystem Ty V) (types : List Ty) : List (Node Env S V Ty N) → Env → Prop
  | [], _ => True
  | node :: nodes, env =>
    (typesOf sys (node.query env) = types ∧ node.SameTypes sys env) ∧
      AllSameTypes sys types nodes env

end

/-! ### The written words -/

/-- The words of the written query. -/
inductive Token (Env S V Ty N : Type) where
  /-- `WITH ...` -/
  | ctes (bindings : Env → Env)
  /-- `SELECT [DISTINCT] ... FROM ... WHERE ... GROUP BY ... HAVING ...` -/
  | select (core : SelectCore Env S V Ty N)
  /-- `SELECT * FROM (` -/
  | selectStarFrom
  /-- `)` -/
  | close
  /-- `UNION ALL`, `UNION`, `EXCEPT`, `INTERSECT` -/
  | operator (type : SetOperationType)
  /-- `ORDER BY ...` -/
  | orderBy (orders : List (SelectKey S V N × OrderSpec))
  /-- `LIMIT ... OFFSET ...` -/
  | limit (count : ℤ) (offset : Option ℕ)

def writeCTEMap : Option (Env → Env) → List (Token Env S V Ty N)
  | none => []
  | some bindings => [.ctes bindings]

/-- SQLite requires a `LIMIT` for an `OFFSET`; a negative one is no limit. -/
def writeLimit (modifier : LimitModifier) : ℤ × Option ℕ :=
  (match modifier.limit with
    | some count => count
    | none => -1, modifier.offset)

/-- `WriteResultModifiers`; there is no `ORDER BY` without keys. -/
def writeResultModifiers (orders : List (SelectKey S V N × OrderSpec))
    (limit : Option LimitModifier) : List (Token Env S V Ty N) :=
  (if orders.isEmpty then [] else [.orderBy orders]) ++
    match limit with
    | none => []
    | some modifier => [.limit (writeLimit modifier).1 (writeLimit modifier).2]

/-- A key of a set operation is an output column and nothing else. -/
def outputOrder (order : OutputKey N × OrderSpec) : SelectKey S V N × OrderSpec :=
  (.output order.1 fun _ => none, order.2)

/-- Whether a member is written as it is. -/
def Node.inlineChild : Node Env S V Ty N → Bool
  | .select none _ [] none => true
  | _ => false

/-- `WriteSetOperationChild`, given the words of the node. -/
def writeSetOperationChild (node : Node Env S V Ty N) (words : List (Token Env S V Ty N)) :
    List (Token Env S V Ty N) :=
  if node.inlineChild then words else .selectStarFrom :: (words ++ [.close])

mutual

/-- `WriteQueryNode`, which is `WriteSetOperationNode` for a set operation. -/
def writeQueryNode : Node Env S V Ty N → List (Token Env S V Ty N)
  | .select ctes core orders limit =>
    writeCTEMap ctes ++ .select core :: writeResultModifiers orders limit
  | .setOperation ctes type first second others orders limit =>
    writeCTEMap ctes ++
      (writeSetOperationChild first (writeQueryNode first) ++
        (.operator type :: (writeSetOperationChild second (writeQueryNode second) ++
          (writeChildren type others ++ writeResultModifiers (orders.map outputOrder) limit))))

/-- The loop over the further children, each after its operator. -/
def writeChildren (type : SetOperationType) :
    List (Node Env S V Ty N) → List (Token Env S V Ty N)
  | [] => []
  | node :: nodes =>
    .operator type ::
      (writeSetOperationChild node (writeQueryNode node) ++ writeChildren type nodes)

end

/-! ### SQLite's reading -/

/-- What SQLite makes of a list of members: the last operator is the topmost. A member is a `SELECT`
or a statement in parentheses. -/
inductive Compound (Env S V Ty N : Type) where
  | select (core : SelectCore Env S V Ty N)
  | subquery (ctes : Option (Env → Env)) (body : Compound Env S V Ty N)
      (orders : List (SelectKey S V N × OrderSpec)) (limit : Option (ℤ × Option ℕ))
  | compound (left : Compound Env S V Ty N) (type : SetOperationType)
      (right : Compound Env S V Ty N)

/-- A statement: the `ORDER BY` and the `LIMIT` belong to the whole list of members. -/
structure Statement (Env S V Ty N : Type) where
  ctes : Option (Env → Env)
  body : Compound Env S V Ty N
  orders : List (SelectKey S V N × OrderSpec)
  limit : Option (ℤ × Option ℕ)

/-- `SELECT * FROM (statement)`. -/
def Statement.subquery (statement : Statement Env S V Ty N) : Compound Env S V Ty N :=
  .subquery statement.ctes statement.body statement.orders statement.limit

def readWith : List (Token Env S V Ty N) → Option (Env → Env) × List (Token Env S V Ty N)
  | .ctes bindings :: tokens => (some bindings, tokens)
  | tokens => (none, tokens)

def readOrderBy : List (Token Env S V Ty N) →
    List (SelectKey S V N × OrderSpec) × List (Token Env S V Ty N)
  | .orderBy orders :: tokens => (orders, tokens)
  | tokens => ([], tokens)

def readLimit : List (Token Env S V Ty N) →
    Option (ℤ × Option ℕ) × List (Token Env S V Ty N)
  | .limit count offset :: tokens => (some (count, offset), tokens)
  | tokens => (none, tokens)

mutual

/-- Read a statement off the front. -/
def readStatement : ℕ → List (Token Env S V Ty N) →
    Option (Statement Env S V Ty N × List (Token Env S V Ty N))
  | 0, _ => none
  | fuel + 1, tokens => do
    let (ctes, tokens) := readWith tokens
    let (first, tokens) ← readMember fuel tokens
    let (body, tokens) ← readCompound fuel first tokens
    let (orders, tokens) := readOrderBy tokens
    let (limit, tokens) := readLimit tokens
    return (⟨ctes, body, orders, limit⟩, tokens)

/-- Read one member. -/
def readMember : ℕ → List (Token Env S V Ty N) →
    Option (Compound Env S V Ty N × List (Token Env S V Ty N))
  | _ + 1, .select core :: tokens => some (.select core, tokens)
  | fuel + 1, .selectStarFrom :: tokens =>
    match readStatement fuel tokens with
    | some (statement, .close :: tokens) => some (statement.subquery, tokens)
    | _ => none
  | _, _ => none

/-- Go on after the members so far, with the next operator on top of them. -/
def readCompound : ℕ → Compound Env S V Ty N → List (Token Env S V Ty N) →
    Option (Compound Env S V Ty N × List (Token Env S V Ty N))
  | fuel + 1, left, .operator type :: tokens => do
    let (member, tokens) ← readMember fuel tokens
    readCompound fuel (.compound left type member) tokens
  | 0, _, .operator _ :: _ => none
  | _, left, tokens => some (left, tokens)

end

/-- Read a whole text. A statement takes no more steps than it has words. -/
def readSql (tokens : List (Token Env S V Ty N)) : Option (Statement Env S V Ty N) :=
  match readStatement (tokens.length + 1) tokens with
  | some (statement, []) => some statement
  | _ => none

/-! ### Meaning of what is read -/

section Meaning

variable (sys : TypeSystem Ty V) [DecidableEq N] [DecidableEq V]

/-- The column names of a list of members are those of the first. -/
def Compound.names : Compound Env S V Ty N → List N
  | .select core => core.columns.map Column.name
  | .subquery _ body _ _ => body.names
  | .compound left _ _ => left.names

/-- The keys of an `ORDER BY` that has only output columns, as after several members. -/
def outputKeys (orders : List (SelectKey S V N × OrderSpec)) :
    Option (List (OutputKey N × OrderSpec)) :=
  orders.mapM fun order =>
    match order.1 with
    | .output key _ => some (key, order.2)
    | .expr _ => none

/-- A negative `LIMIT` is none. -/
def readCount (limit : Option (ℤ × Option ℕ)) : Option ℕ :=
  match limit with
  | some (.ofNat count, _) => some count
  | _ => none

def readOffset (limit : Option (ℤ × Option ℕ)) : ℕ :=
  (limit.bind Prod.snd).getD 0

/-- The possible results of a statement in the scope of its `WITH`, given those of its list of
members. The `ORDER BY` of a single `SELECT` sees the rows of its source. -/
def bodyResults (env : Env) (body : Compound Env S V Ty N) (rows : Multiset (List V) → Prop)
    (orders : List (SelectKey S V N × OrderSpec)) (limit : Option (ℤ × Option ℕ))
    (M : Multiset (List V)) : Prop :=
  match body with
  | .select core =>
    let node := core.node env orders (readCount limit) (readOffset limit)
    ∃ D W, Chosen node D ∧
      Window (selectLe sys node.columns orders) (readCount limit) (readOffset limit) D W ∧
      M = W.map node.out
  | _ => ∃ keys R, outputKeys orders = some keys ∧ rows R ∧
      Window (rowLe sys body.names keys) (readCount limit) (readOffset limit) R M

/-- The possible rows of a list of members in a scope. -/
def Compound.Rows : Compound Env S V Ty N → Env → Multiset (List V) → Prop
  | .select core, env, M =>
    ∃ D, Chosen (core.node env [] none 0) D ∧ M = D.map (core.node env [] none 0).out
  | .subquery ctes body orders limit, env, M =>
    bodyResults sys (scope ctes env) body (body.Rows (scope ctes env)) orders limit M
  | .compound left type right, env, M =>
    ∃ A B, left.Rows env A ∧ right.Rows env B ∧ M = combine type A [B]

/-- The possible results of a statement. -/
def Statement.Evaluates (statement : Statement Env S V Ty N) (env : Env) (M : Multiset (List V)) :
    Prop :=
  bodyResults sys (scope statement.ctes env) statement.body
    (statement.body.Rows sys (scope statement.ctes env)) statement.orders statement.limit M

end Meaning

/-! ### The statement that is meant -/

/-- A member, given the statement of its node. -/
def Node.asMember (node : Node Env S V Ty N) (statement : Statement Env S V Ty N) :
    Compound Env S V Ty N :=
  if node.inlineChild then statement.body else statement.subquery

def readModifier (modifier : Option LimitModifier) : Option (ℤ × Option ℕ) :=
  modifier.map writeLimit

mutual

/-- The statement that a node is written as. -/
def Node.statement : Node Env S V Ty N → Statement Env S V Ty N
  | .select ctes core orders limit => ⟨ctes, .select core, orders, readModifier limit⟩
  | .setOperation ctes type first second others orders limit =>
    ⟨ctes, appendMembers type
        (.compound (first.asMember first.statement) type (second.asMember second.statement)) others,
      orders.map outputOrder, readModifier limit⟩

/-- Further members, to the right of those so far. -/
def appendMembers (type : SetOperationType) :
    Compound Env S V Ty N → List (Node Env S V Ty N) → Compound Env S V Ty N
  | left, [] => left
  | left, node :: nodes =>
    appendMembers type (.compound left type (node.asMember node.statement)) nodes

end

/-! ### The words are read as that statement -/

section Reading

/-- What may follow a statement: nothing, or the end of the parentheses. -/
def Ends (rest : List (Token Env S V Ty N)) : Prop :=
  rest = [] ∨ ∃ tokens, rest = .close :: tokens

variable {rest : List (Token Env S V Ty N)}

theorem readWith_writeCTEMap {ctes : Option (Env → Env)} {tokens : List (Token Env S V Ty N)}
    (h : (readWith tokens).1 = none) : readWith (writeCTEMap ctes ++ tokens) = (ctes, tokens) := by
  cases ctes with
  | some bindings => rfl
  | none =>
    cases tokens with
    | nil => rfl
    | cons token tokens => cases token <;> first | rfl | cases h

theorem readModifiers_write (orders : List (SelectKey S V N × OrderSpec))
    (limit : Option LimitModifier) (h : Ends rest) :
    ∃ tokens, readOrderBy (writeResultModifiers orders limit ++ rest) = (orders, tokens) ∧
      readLimit tokens = (readModifier limit, rest) := by
  obtain rfl | ⟨tokens, rfl⟩ := h <;> cases orders <;> cases limit <;> exact ⟨_, rfl, rfl⟩

/-- The list of members ends where the modifiers begin. -/
theorem readCompound_write (fuel : ℕ) (left : Compound Env S V Ty N)
    (orders : List (SelectKey S V N × OrderSpec)) (limit : Option LimitModifier) (h : Ends rest) :
    readCompound fuel left (writeResultModifiers orders limit ++ rest) =
      some (left, writeResultModifiers orders limit ++ rest) := by
  obtain rfl | ⟨tokens, rfl⟩ := h <;> cases orders <;> cases limit <;> cases fuel <;>
    simp [writeResultModifiers, readCompound]

/-- A member is read from its words, if a statement is read from those of its node. -/
theorem readMember_writeSetOperationChild {node : Node Env S V Ty N}
    (hnode : ∀ fuel rest, (writeQueryNode node).length < fuel → Ends rest →
      readStatement fuel (writeQueryNode node ++ rest) = some (node.statement, rest))
    (fuel : ℕ) (rest : List (Token Env S V Ty N))
    (hfuel : (writeSetOperationChild node (writeQueryNode node)).length < fuel) :
    readMember fuel (writeSetOperationChild node (writeQueryNode node) ++ rest) =
      some (node.asMember node.statement, rest) := by
  obtain ⟨fuel, rfl⟩ : ∃ n, fuel = n + 1 := ⟨fuel - 1, by omega⟩
  by_cases hinline : node.inlineChild
  · -- a plain `SELECT` is its own member
    match node, hinline with
    | .select none core [] none, _ => rfl
  · rw [writeSetOperationChild, if_neg hinline] at hfuel ⊢
    rw [Node.asMember, if_neg hinline]
    have hlength : (writeQueryNode node).length < fuel := by
      simp only [List.length_cons, List.length_append, List.length_nil] at hfuel
      omega
    have hread := hnode fuel (.close :: rest) hlength (.inr ⟨rest, rfl⟩)
    simp [readMember, hread]

theorem length_writeSetOperationChild_pos (node : Node Env S V Ty N) :
    0 < (writeSetOperationChild node (writeQueryNode node)).length := by
  by_cases hinline : node.inlineChild
  · match node, hinline with
    | .select none core [] none, _ => exact Nat.one_pos
  · simp [writeSetOperationChild, hinline]

theorem fst_readWith_writeSetOperationChild (node : Node Env S V Ty N)
    (tokens : List (Token Env S V Ty N)) :
    (readWith (writeSetOperationChild node (writeQueryNode node) ++ tokens)).1 = none := by
  by_cases hinline : node.inlineChild
  · match node, hinline with
    | .select none core [] none, _ => rfl
  · simp [writeSetOperationChild, hinline, readWith]

mutual

/-- **The written words are read as the statement that is meant**, whatever ends it. -/
theorem readStatement_write : ∀ (node : Node Env S V Ty N) (fuel : ℕ)
    (rest : List (Token Env S V Ty N)), (writeQueryNode node).length < fuel → Ends rest →
    readStatement fuel (writeQueryNode node ++ rest) = some (node.statement, rest)
  | .select ctes core orders limit, fuel, rest, hfuel, hrest => by
    simp only [writeQueryNode, List.length_append, List.length_cons] at hfuel
    obtain ⟨fuel, rfl⟩ : ∃ n, fuel = n + 2 := ⟨fuel - 2, by omega⟩
    obtain ⟨tokens, horders, hlimit⟩ := readModifiers_write orders limit hrest
    rw [writeQueryNode, List.append_assoc, readStatement, readWith_writeCTEMap rfl]
    simp [readMember, readCompound_write _ _ orders limit hrest, horders, hlimit, Node.statement]
  | .setOperation ctes type first second others orders limit, fuel, rest, hfuel, hrest => by
    simp only [writeQueryNode, List.length_append, List.length_cons] at hfuel
    obtain ⟨fuel, rfl⟩ : ∃ n, fuel = n + 2 := ⟨fuel - 2, by omega⟩
    obtain ⟨tokens, horders, hlimit⟩ :=
      readModifiers_write (orders.map outputOrder) limit hrest
    have hmodifiers := fun fuel left =>
      readCompound_write fuel left (orders.map outputOrder) limit hrest
    have hpos := length_writeSetOperationChild_pos first
    have hpos' := length_writeSetOperationChild_pos second
    have hfirst := fun rest =>
      readMember_writeSetOperationChild (readStatement_write first) (fuel + 1) rest (by omega)
    have hsecond := fun rest =>
      readMember_writeSetOperationChild (readStatement_write second) fuel rest (by omega)
    have hothers := fun left =>
      readCompound_writeChildren type others fuel left _ (by omega) hmodifiers
    rw [writeQueryNode]
    simp only [List.append_assoc, List.cons_append]
    rw [readStatement, readWith_writeCTEMap (fst_readWith_writeSetOperationChild first _)]
    simp [hfirst, readCompound, hsecond, hothers, horders, hlimit, Node.statement]

/-- The further members, up to words that no member begins with. -/
theorem readCompound_writeChildren (type : SetOperationType) : ∀ (nodes : List (Node Env S V Ty N))
    (fuel : ℕ) (left : Compound Env S V Ty N) (rest : List (Token Env S V Ty N)),
    (writeChildren type nodes).length < fuel →
    (∀ fuel left, readCompound fuel left rest = some (left, rest)) →
    readCompound fuel left (writeChildren type nodes ++ rest) =
      some (appendMembers type left nodes, rest)
  | [], fuel, left, rest, _, hrest => by
    rw [writeChildren, List.nil_append, hrest, appendMembers]
  | node :: nodes, fuel, left, rest, hfuel, hrest => by
    simp only [writeChildren, List.length_cons, List.length_append] at hfuel
    obtain ⟨fuel, rfl⟩ : ∃ n, fuel = n + 1 := ⟨fuel - 1, by omega⟩
    have hnode := fun rest =>
      readMember_writeSetOperationChild (readStatement_write node) fuel rest (by omega)
    have hnodes := fun left =>
      readCompound_writeChildren type nodes fuel left rest (by omega) hrest
    rw [writeChildren, appendMembers]
    simp [readCompound, hnode, hnodes]

end

theorem readSql_writeQueryNode (node : Node Env S V Ty N) :
    readSql (writeQueryNode node) = some node.statement := by
  have hread := readStatement_write node ((writeQueryNode node).length + 1) [] (by omega) (.inl rfl)
  rw [List.append_nil] at hread
  rw [readSql, hread]

end Reading

/-! ### The statement has the results of the tree -/

section Evaluation

variable {sys : TypeSystem Ty V}

/-- **To the left.** The first two members may be put together before the others are. -/
theorem combine_cons_cons [DecidableEq V] (type : SetOperationType) (A B C : Multiset (List V))
    (Bs : List (Multiset (List V))) :
    combine type A (B :: C :: Bs) = combine type (combine type A [B]) (C :: Bs) := by
  cases type with
  | unionAll => simp [combine, Multiset.add_assoc]
  | union =>
    refine (Multiset.nodup_dedup _).ext (Multiset.nodup_dedup _) |>.mpr fun row => ?_
    simp [combine, or_assoc]
  | except =>
    refine (nodup_except _ _).ext (nodup_except _ _) |>.mpr fun row => ?_
    simp [combine, and_assoc]
  | intersect =>
    refine (nodup_intersect _ _).ext (nodup_intersect _ _) |>.mpr fun row => ?_
    simp [combine, and_assoc]

/-- The operator of a tree, one member after the other. -/
theorem combine_cons [DecidableEq V] (type : SetOperationType) (A B : Multiset (List V))
    (Bs : List (Multiset (List V))) :
    combine type A (B :: Bs) = Bs.foldl (fun R C => combine type R [C]) (combine type A [B]) := by
  induction Bs generalizing A B with
  | nil => rfl
  | cons C Bs ih => rw [combine_cons_cons, ih, List.foldl_cons]

theorem outputKeys_map_outputOrder (orders : List (OutputKey N × OrderSpec)) :
    outputKeys (orders.map (outputOrder (S := S) (V := V))) = some orders := by
  induction orders with
  | nil => rfl
  | cons order orders ih => simp_all [outputKeys, outputOrder]

theorem readCount_readModifier (limit : Option LimitModifier) :
    readCount (readModifier limit) = limitOf limit := by
  match limit with
  | none => rfl
  | some ⟨none, _⟩ => rfl
  | some ⟨some _, _⟩ => rfl

theorem readOffset_readModifier (limit : Option LimitModifier) :
    readOffset (readModifier limit) = offsetOf limit := by
  cases limit <;> rfl

/-- The names of a set operation are those of its first member. -/
theorem namesOf_setOperation {type : SetOperationType} {first : Query S V Ty N}
    {others : List (Query S V Ty N)} {orders : List (OutputKey N × OrderSpec)} {limit : Option ℕ}
    {offset : ℕ}
    (hknown : typesOf sys (.setOperation type first others orders limit offset) ≠ []) :
    namesOf sys (.setOperation type first others orders limit offset) = namesOf sys first := by
  cases hbound : boundColumns sys (.setOperation type first others orders limit offset) with
  | none => simp [typesOf, inferQueryTypes, hbound] at hknown
  | some columns =>
    have hcolumns := hbound
    rw [boundColumns] at hbound
    obtain ⟨firstColumns, hfirst, hbound⟩ := Option.bind_eq_some_iff.mp hbound
    obtain ⟨common, hcommon, hbound⟩ := Option.bind_eq_some_iff.mp hbound
    obtain rfl := Option.some.inj hbound
    have hlength := (length_of_boundTypes hcommon).1
    rw [namesOf, namesOf, inferQueryTypes, inferQueryTypes, hcolumns, hfirst]
    exact List.map_fst_zip (by simp [hlength])

theorem names_asMember (node : Node Env S V Ty N) :
    (node.asMember node.statement).names = node.statement.body.names := by
  rw [Node.asMember]
  split
  · rfl
  · rfl

theorem names_appendMembers (type : SetOperationType) (left : Compound Env S V Ty N)
    (nodes : List (Node Env S V Ty N)) : (appendMembers type left nodes).names = left.names := by
  induction nodes generalizing left with
  | nil => rw [appendMembers]
  | cons node nodes ih => rw [appendMembers, ih, Compound.names]

/-- After several members comes a list of several members. -/
theorem exists_appendMembers_eq_compound (type : SetOperationType) (a b : Compound Env S V Ty N)
    (nodes : List (Node Env S V Ty N)) :
    ∃ left right, appendMembers type (.compound a type b) nodes = .compound left type right := by
  induction nodes generalizing a b with
  | nil => exact ⟨a, b, by rw [appendMembers]⟩
  | cons node nodes ih =>
    rw [appendMembers]
    exact ih _ _

/-- The columns of the statement have the names of the tree. -/
theorem names_statement : ∀ (node : Node Env S V Ty N) (env : Env), node.SameTypes sys env →
    typesOf sys (node.query env) ≠ [] →
    node.statement.body.names = namesOf sys (node.query env)
  | .select ctes core orders limit, env, _, hknown => by
    have hcorrelated : core.correlated = false := by
      by_contra hne
      have htrue : core.correlated = true := by simpa using hne
      simp [Node.query, typesOf, inferQueryTypes, boundColumns, SelectCore.node, htrue] at hknown
    simp [Node.statement, Compound.names, Node.query, namesOf, inferQueryTypes, boundColumns,
      SelectCore.node, hcorrelated, SelectCore.columns, SelectNode.columns]
  | .setOperation ctes type first second others orders limit, env, hsame, hknown => by
    rw [Node.SameTypes] at hsame
    obtain ⟨_, ⟨htypes, hfirst⟩, _⟩ := hsame
    rw [← htypes] at hknown
    have ih := names_statement first (scope ctes env) hfirst hknown
    rw [Node.statement, names_appendMembers, Compound.names, names_asMember, ih, Node.query,
      namesOf_setOperation]
    rwa [htypes, Node.query] at hknown

variable [DecidableEq N] [DecidableEq V]

/-- A member has the results of its node, wrapped or not. -/
theorem rows_asMember {node : Node Env S V Ty N} {env : Env}
    (hnode : ∀ M, node.statement.Evaluates sys env M ↔ Results sys (node.query env) M)
    (M : Multiset (List V)) :
    (node.asMember node.statement).Rows sys env M ↔ Results sys (node.query env) M := by
  by_cases hinline : node.inlineChild
  · match node, hinline with
    | .select none core [] none, _ =>
      -- without a limit the window is all that `DISTINCT` leaves
      have hall : limitOf none = none ∧ offsetOf none = 0 := ⟨rfl, rfl⟩
      rw [Node.query, Results]
      simp only [SelectCore.node, window_none hall]
      constructor
      · rintro ⟨D, hD, hM⟩
        exact ⟨D, D, hD, rfl, hM⟩
      · rintro ⟨D, _, hD, rfl, hM⟩
        exact ⟨_, hD, hM⟩
  · rw [Node.asMember, if_neg hinline]
    exact hnode M

/-- The `ORDER BY` and the `LIMIT` of the statement of a set operation are for all its rows. -/
theorem evaluates_setOperation_iff {ctes : Option (Env → Env)} {type : SetOperationType}
    {first second : Node Env S V Ty N} {others : List (Node Env S V Ty N)}
    {orders : List (OutputKey N × OrderSpec)} {limit : Option LimitModifier} {env : Env}
    {M : Multiset (List V)} :
    (Node.setOperation ctes type first second others orders limit).statement.Evaluates sys env M ↔
      ∃ R, (appendMembers type (.compound (first.asMember first.statement) type
          (second.asMember second.statement)) others).Rows sys (scope ctes env) R ∧
        Window (rowLe sys (Node.setOperation ctes type first second others orders
          limit).statement.body.names orders) (limitOf limit) (offsetOf limit) R M := by
  obtain ⟨left, right, hbody⟩ := exists_appendMembers_eq_compound type
    (first.asMember first.statement) (second.asMember second.statement) others
  simp only [Statement.Evaluates, Node.statement, hbody, bodyResults, readCount_readModifier,
    readOffset_readModifier, outputKeys_map_outputOrder, Option.some.injEq, exists_and_left,
    exists_eq_left']

mutual

/-- **The statement has the possible results of the tree.** -/
theorem evaluates_statement : ∀ (node : Node Env S V Ty N) (env : Env), node.SameTypes sys env →
    ∀ M, node.statement.Evaluates sys env M ↔ Results sys (node.query env) M
  | .select ctes core orders limit, env, _, M => by
    rw [Node.query, Results, Node.statement, Statement.Evaluates]
    simp only [bodyResults, readCount_readModifier, readOffset_readModifier]
    exact Iff.rfl
  | .setOperation ctes type first second others orders limit, env, hsame, M => by
    have hknown := hsame.1
    have hnames := names_statement _ env hsame hknown
    obtain ⟨_, ⟨htypes, hfirst⟩, ⟨htypes', hsecond⟩, hothers⟩ := hsame
    have ihFirst := rows_asMember (evaluates_statement first (scope ctes env) hfirst)
    have ihSecond := rows_asMember (evaluates_statement second (scope ctes env) hsecond)
    have ihOthers := rows_appendMembers type others (scope ctes env) hothers
      (.compound (first.asMember first.statement) type (second.asMember second.statement))
    rw [evaluates_setOperation_iff, hnames]
    rw [Node.query] at htypes htypes' ihOthers ⊢
    rw [results_setOperation_iff rfl]
    simp only [ihOthers, Compound.Rows, ihFirst, ihSecond, ResultsAs, htypes, htypes',
      map_castRow_self]
    constructor
    · rintro ⟨_, ⟨_, Bs, ⟨A, B, hA, hB, rfl⟩, hBs, rfl⟩, hM⟩
      rw [← combine_cons] at hM
      exact ⟨A, B :: Bs, hA, ⟨B, Bs, hB, hBs, rfl⟩, hM⟩
    · rintro ⟨A, _, hA, ⟨B, Bs, hB, hBs, rfl⟩, hM⟩
      rw [combine_cons] at hM
      exact ⟨_, ⟨_, Bs, ⟨A, B, hA, hB, rfl⟩, hBs, rfl⟩, hM⟩

/-- Further members, put to those so far from the left. -/
theorem rows_appendMembers (type : SetOperationType) {types : List Ty} :
    ∀ (nodes : List (Node Env S V Ty N)) (env : Env), AllSameTypes sys types nodes env →
    ∀ (left : Compound Env S V Ty N) (M : Multiset (List V)),
      (appendMembers type left nodes).Rows sys env M ↔
        ∃ A Bs, left.Rows sys env A ∧ ResultsAs sys (queries nodes env) types Bs ∧
          M = Bs.foldl (fun R C => combine type R [C]) A
  | [], env, _, left, M => by
    simp [appendMembers, queries, ResultsAs]
  | node :: nodes, env, hsame, left, M => by
    obtain ⟨⟨htypes, hnode⟩, hnodes⟩ := hsame
    have ihNode := rows_asMember (evaluates_statement node env hnode)
    have ihNodes := rows_appendMembers type nodes env hnodes
    rw [appendMembers, ihNodes]
    simp only [Compound.Rows, queries, ResultsAs, ihNode, htypes, map_castRow_self]
    constructor
    · rintro ⟨_, Bs, ⟨A, B, hA, hB, rfl⟩, hBs, rfl⟩
      exact ⟨A, B :: Bs, hA, ⟨B, Bs, hB, hBs, rfl⟩, rfl⟩
    · rintro ⟨A, _, hA, ⟨B, Bs, hB, hBs, rfl⟩, rfl⟩
      exact ⟨_, Bs, ⟨A, B, hA, hB, rfl⟩, hBs, rfl⟩

end

/-- **Set operations mean the same to SQLite.** The words of a tree of set operations, whose members
have its types, are a statement of SQLite with the possible results of the tree. -/
theorem evaluates_written_setOperation (sys : TypeSystem Ty V) (ctes : Option (Env → Env))
    (type : SetOperationType) (first second : Node Env S V Ty N) (others : List (Node Env S V Ty N))
    (orders : List (OutputKey N × OrderSpec)) (limit : Option LimitModifier) (env : Env)
    (hsame : (Node.setOperation ctes type first second others orders limit).SameTypes sys env) :
    ∃ statement,
      readSql (writeQueryNode (.setOperation ctes type first second others orders limit)) =
        some statement ∧
      ∀ M, statement.Evaluates sys env M ↔
        Results sys ((Node.setOperation ctes type first second others orders limit).query env) M :=
  ⟨_, readSql_writeQueryNode _, evaluates_statement _ env hsame⟩

end Evaluation

/-! ### An example -/

/-- `SELECT [DISTINCT] k FROM ...`, over numbers. -/
def coreK (source : Multiset ℤ → Multiset ℤ) (distinct : Bool) :
    SelectCore (Multiset ℤ) ℤ SqlValue SqlType String where
  correlated := false
  selectList := [.expr none "k" .bigint fun row => .bigint row.2]
  source := source
  distinct := distinct

/-- `WITH c AS (...) SELECT k FROM c UNION ALL SELECT DISTINCT k FROM u ORDER BY k LIMIT 1`. -/
def unionK : Node (Multiset ℤ) ℤ SqlValue SqlType String :=
  .setOperation (some fun _ => {2, 1}) .unionAll (.select none (coreK (fun c => c) false) [] none)
    (.select none (coreK (fun _ => {3, 3}) true) [] none) [] [(.name "k", ⟨false, false⟩)]
    (some ⟨some 1, none⟩)

/-- `SELECT k FROM t EXCEPT (...) EXCEPT SELECT k FROM t OFFSET 1`, with the set operation above in
the parentheses. -/
theorem evaluates_written_except :
    ∃ statement,
      readSql (writeQueryNode (.setOperation none .except
        (.select none (coreK (fun _ => {1, 2, 5}) false) [] none) unionK
        [.select none (coreK (fun _ => {5}) false) [] (some ⟨none, some 1⟩)] [] none)) =
        some statement ∧
      ∀ M, statement.Evaluates sqlTypes 0 M ↔
        Results sqlTypes ((Node.setOperation none .except
          (.select none (coreK (fun _ => {1, 2, 5}) false) [] none) unionK
          [.select none (coreK (fun _ => {5}) false) [] (some ⟨none, some 1⟩)] [] none).query 0)
          M :=
  evaluates_written_setOperation _ _ _ _ _ _ _ _ _
    ⟨by decide, ⟨rfl, trivial⟩, ⟨rfl, by decide, ⟨rfl, trivial⟩, ⟨rfl, trivial⟩, trivial⟩,
      ⟨rfl, trivial⟩, trivial⟩

end SqliteScanner.SetOperation
