import SqliteScanner.Internal.Runs
import SqliteScanner.SetOperation.Members

/-!
# What the conversion of a member returns

`castSetOperationChild` either leaves a member alone or returns one whose columns have the wanted
types and the old names. For a `SELECT` this is a statement about its select list
(`castItems_columns`): a select list with as many entries as columns has one column for each entry,
so the types of the columns and the entries that are wrapped belong together. For a set operation it
follows for its members, and the common type of equal types is that type.

## Main results

* `castSetOperationChild_select`, `castSetOperationChild_setOperation` — what is returned.
* `boundColumns_of_castSetOperationChild` — the names and types of the returned node.
-/

namespace SqliteScanner.SetOperation

variable {S V Ty N : Type}

/-! ### The converted select list -/

section Columns

variable {sys : TypeSystem Ty V} {X : Type}

theorem castRow_self (types : List Ty) (row : List V) : castRow sys types types row = row := by
  induction types generalizing row with
  | nil => cases row <;> rfl
  | cons type types ih =>
    cases row with
    | nil => rfl
    | cons value values => rw [castRow, sys.cast_self, ih]

theorem map_castRow_self (types : List Ty) (M : Multiset (List V)) :
    M.map (castRow sys types types) = M := by
  rw [show castRow sys types types = id from funext fun row => castRow_self types row,
    Multiset.map_id]

/-- The converted columns keep their names and have the wanted types. -/
theorem map_bound_castColumns {columns : List (Column X V Ty N)} {types : List Ty}
    (h : columns.length = types.length) :
    (castColumns sys columns types).map (fun column => (column.name, column.type)) =
      (columns.map Column.name).zip types := by
  induction columns generalizing types with
  | nil =>
    obtain rfl : types = [] := List.length_eq_zero_iff.mp h.symm
    rfl
  | cons column columns ih =>
    obtain ⟨type, types, rfl⟩ := List.exists_cons_of_length_eq_add_one h.symm
    simpa [castColumns] using ih (by simpa using h)

theorem length_le_length_columns (items : List (SelectItem S V Ty N)) :
    items.length ≤ (items.flatMap SelectItem.columns).length := by
  induction items with
  | nil => simp
  | cons item items ih =>
    have hone : 1 ≤ item.columns.length := by cases item <;> simp [SelectItem.columns]
    rw [List.flatMap_cons, List.length_append, List.length_cons]
    omega

/-- A select list with as many entries as columns has one column for each entry. -/
theorem columns_eq_singleton {item : SelectItem S V Ty N} {items : List (SelectItem S V Ty N)}
    (h : ((item :: items).flatMap SelectItem.columns).length = (item :: items).length) :
    (∃ column, item.columns = [column]) ∧
      (items.flatMap SelectItem.columns).length = items.length := by
  have hone : 1 ≤ item.columns.length := by cases item <;> simp [SelectItem.columns]
  have hrest := length_le_length_columns items
  rw [List.flatMap_cons, List.length_append, List.length_cons] at h
  exact ⟨List.length_eq_one_iff.mp (by omega), by omega⟩

variable [DecidableEq Ty]

theorem castItem_columns {item item' : SelectItem S V Ty N} {column : Column S V Ty N} {type : Ty}
    (hcolumn : item.columns = [column])
    (h : castItem sys item column.name column.type type = .ok item') :
    item'.columns =
      [⟨column.name, type, fun s => sys.cast column.type type (column.value s)⟩] := by
  rw [castItem.eq_def] at h
  by_cases htype : column.type = type
  · rw [if_pos htype] at h
    obtain rfl := Except.ok.inj h
    rw [hcolumn, ← htype]
    simp only [sys.cast_self]
  · rw [if_neg htype] at h
    cases item with
    | star first rest => cases h
    | expr columnAlias name ownType value =>
      obtain rfl := Except.ok.inj h
      obtain rfl : ⟨columnAlias.getD name, ownType, value⟩ = column := by
        simpa [SelectItem.columns] using hcolumn
      cases columnAlias <;> rfl

/-- **The converted select list** has the converted columns. -/
theorem castItems_columns {items items' : List (SelectItem S V Ty N)} {types : List Ty}
    (hone : (items.flatMap SelectItem.columns).length = items.length)
    (hlength : items.length = types.length)
    (h : castItems sys items
      ((items.flatMap SelectItem.columns).map fun column => (column.name, column.type)) types =
        .ok items') :
    items'.flatMap SelectItem.columns =
      castColumns sys (items.flatMap SelectItem.columns) types := by
  induction items generalizing types items' with
  | nil =>
    obtain rfl := Except.ok.inj h
    rfl
  | cons item items ih =>
    obtain ⟨type, types, rfl⟩ := List.exists_cons_of_length_eq_add_one hlength.symm
    obtain ⟨⟨column, hcolumn⟩, hrest⟩ := columns_eq_singleton hone
    rw [List.flatMap_cons, hcolumn, List.singleton_append] at h
    simp only [List.map_cons, castItems] at h
    obtain ⟨item', hitem, h⟩ := Runs.bind_eq_ok.mp h
    obtain ⟨items'', hitems, rfl⟩ := Runs.map_eq_ok.mp h
    rw [List.flatMap_cons, List.flatMap_cons, hcolumn, ih hrest (by simpa using hlength) hitems]
    rw [castItem_columns hcolumn hitem]
    rfl

end Columns

/-! ### The returned node -/

section Returned

variable {sys : TypeSystem Ty V}

theorem commonTypes_self (types : List Ty) : commonTypes sys types types = some types := by
  rw [commonTypes, if_pos rfl]
  congr 1
  induction types with
  | nil => rfl
  | cons type types ih => rw [List.zipWith_cons_cons, ih, sys.commonType_self]

/-- The members of a set operation that can be bound can be bound, to as many columns. -/
theorem length_of_boundTypes {queries : List (Query S V Ty N)} {types result : List Ty}
    (h : boundTypes sys queries types = some result) :
    result.length = types.length ∧
      ∀ query ∈ queries, ∃ columns, boundColumns sys query = some columns ∧
        columns.length = types.length := by
  induction queries generalizing types with
  | nil =>
    obtain rfl := Option.some.inj h
    simp
  | cons query queries ih =>
    rw [boundTypes] at h
    obtain ⟨columns, hcolumns, h⟩ := Option.bind_eq_some_iff.mp h
    obtain ⟨common, hcommon, h⟩ := Option.bind_eq_some_iff.mp h
    rw [commonTypes] at hcommon
    split at hcommon
    · rename_i hlength
      obtain rfl := Option.some.inj hcommon
      rw [List.length_map] at hlength
      obtain ⟨hresult, hall⟩ := ih h
      have hzip : (List.zipWith sys.commonType types (columns.map Prod.snd)).length =
          types.length := by
        simp [hlength]
      rw [hzip] at hresult hall
      refine ⟨hresult, fun query' hquery => ?_⟩
      rcases List.mem_cons.mp hquery with rfl | hquery
      · exact ⟨columns, hcolumns, hlength.symm⟩
      · exact hall query' hquery
    · cases hcommon

variable {type : SetOperationType} {first : Query S V Ty N} {others : List (Query S V Ty N)}
  {orders : List (OutputKey N × OrderSpec)} {limit : Option ℕ} {offset : ℕ}

/-- All members of a set operation that can be bound have as many columns as it has. -/
theorem bound_members {n : ℕ}
    (h : (boundColumns sys (.setOperation type first others orders limit offset)).isSome)
    (hlength : (typesOf sys (.setOperation type first others orders limit offset)).length = n) :
    (∃ columns, boundColumns sys first = some columns ∧ columns.length = n) ∧
      ∀ query ∈ others, ∃ columns, boundColumns sys query = some columns ∧ columns.length = n := by
  obtain ⟨columns, hbound⟩ := Option.isSome_iff_exists.mp h
  rw [typesOf, inferQueryTypes, hbound] at hlength
  rw [boundColumns] at hbound
  obtain ⟨firstColumns, hfirst, hbound⟩ := Option.bind_eq_some_iff.mp hbound
  obtain ⟨common, hcommon, hbound⟩ := Option.bind_eq_some_iff.mp hbound
  obtain rfl := Option.some.inj hbound
  obtain ⟨hcommonLength, hmembers⟩ := length_of_boundTypes hcommon
  rw [List.length_map] at hcommonLength hmembers
  have hn : firstColumns.length = n := by simpa [hcommonLength] using hlength
  subst hn
  exact ⟨⟨firstColumns, hfirst, rfl⟩, hmembers⟩

variable {types : List Ty}

theorem bound_of_typesOf_eq {query : Query S V Ty N} {columns : List (N × Ty)}
    (hbound : boundColumns sys query = some columns) (htypes : typesOf sys query = types) :
    boundColumns sys query = some ((columns.map Prod.fst).zip types) := by
  obtain rfl : columns.map Prod.snd = types := by
    simpa [typesOf, inferQueryTypes, hbound] using htypes
  exact hbound.trans (congrArg some (List.zip_of_prod rfl rfl))

variable [DecidableEq Ty]

theorem hasTypes_eq_ok {childTypes types : List Ty} {same : Bool}
    (h : hasTypes childTypes types = .ok same) :
    childTypes.length = types.length ∧ (same = true ↔ childTypes = types) := by
  rw [hasTypes] at h
  split at h
  · cases h
  · rename_i hlength
    obtain rfl := Except.ok.inj h
    exact ⟨not_not.mp hlength, by simp⟩

variable {cast : Option (Query S V Ty N)}

/-- What `CastSetOperationChild` returns for a `SELECT`: nothing, or the node with its columns
converted. -/
theorem castSetOperationChild_select {node : SelectNode S V Ty N}
    (h : castSetOperationChild sys (.select node) types = .ok cast) :
    (cast = none ∧ typesOf sys (.select node) = types) ∨
      ∃ selectList, cast = some (.select { node with selectList := selectList }) ∧
        typesOf sys (.select node) ≠ types ∧ node.correlated = false ∧ node.columns.length = types.length ∧
        selectList.flatMap SelectItem.columns = castColumns sys node.columns types := by
  rw [castSetOperationChild] at h
  obtain ⟨same, hsame, h⟩ := Runs.bind_eq_ok.mp h
  obtain ⟨hlength, hiff⟩ := hasTypes_eq_ok hsame
  split at h
  · rename_i htrue
    exact .inl ⟨(Except.ok.inj h).symm, hiff.mp htrue⟩
  · rename_i hfalse
    split at h
    · cases h
    · rename_i hitems
      obtain ⟨selectList, hlist, h⟩ := Runs.bind_eq_ok.mp h
      have hcorrelated : node.correlated = false := by
        by_contra hne
        have htrue : node.correlated = true := by simpa using hne
        have hnil : typesOf sys (.select node) = [] := by
          simp [typesOf, inferQueryTypes, boundColumns, htrue]
        rw [hnil] at hlength hiff
        exact hfalse (hiff.mpr (List.length_eq_zero_iff.mp hlength.symm).symm)
      have hbound : inferQueryTypes sys (.select node) =
          node.columns.map fun column => (column.name, column.type) := by
        simp [inferQueryTypes, boundColumns, hcorrelated]
      have hcolumns : node.columns.length = types.length := by
        simpa [typesOf, hbound] using hlength
      rw [hbound] at hlist
      rw [not_not] at hitems
      exact .inr ⟨selectList, (Except.ok.inj h).symm, fun heq => hfalse (hiff.mpr heq), hcorrelated,
        hcolumns, castItems_columns (hcolumns.trans hitems.symm) hitems hlist⟩

/-- For a set operation: nothing, or the node over the converted members. -/
theorem castSetOperationChild_setOperation
    (h : castSetOperationChild sys (.setOperation type first others orders limit offset) types =
      .ok cast) :
    (cast = none ∧ typesOf sys (.setOperation type first others orders limit offset) = types) ∨
      ∃ castFirst castOthers,
        castSetOperationChild sys first types = .ok castFirst ∧
        castChildren sys others types = .ok castOthers ∧
        cast = some (.setOperation type (castFirst.getD first) castOthers orders limit offset) ∧
        typesOf sys (.setOperation type first others orders limit offset) ≠ types ∧
        (boundColumns sys (.setOperation type first others orders limit offset)).isSome ∧
        (typesOf sys (.setOperation type first others orders limit offset)).length =
          types.length := by
  rw [castSetOperationChild] at h
  obtain ⟨same, hsame, h⟩ := Runs.bind_eq_ok.mp h
  obtain ⟨hlength, hiff⟩ := hasTypes_eq_ok hsame
  split at h
  · rename_i htrue
    exact .inl ⟨(Except.ok.inj h).symm, hiff.mp htrue⟩
  · rename_i hfalse
    obtain ⟨castFirst, hfirst, h⟩ := Runs.bind_eq_ok.mp h
    obtain ⟨castOthers, hothers, h⟩ := Runs.bind_eq_ok.mp h
    refine .inr ⟨castFirst, castOthers, hfirst, hothers, (Except.ok.inj h).symm,
      fun heq => hfalse (hiff.mpr heq), ?_, hlength⟩
    by_contra hnone
    have hnil : typesOf sys (.setOperation type first others orders limit offset) = [] := by
      simp [typesOf, inferQueryTypes, Option.not_isSome_iff_eq_none.mp hnone]
    rw [hnil] at hlength hiff
    exact hfalse (hiff.mpr (List.length_eq_zero_iff.mp hlength.symm).symm)

theorem castSetOperationChild_other {columns : List (N × Ty)} {rows : Multiset (List V)}
    (h : castSetOperationChild sys (.other columns rows) types = .ok cast) :
    cast = none ∧ typesOf sys (.other (S := S) columns rows) = types := by
  rw [castSetOperationChild] at h
  obtain ⟨same, hsame, h⟩ := Runs.bind_eq_ok.mp h
  obtain ⟨_, hiff⟩ := hasTypes_eq_ok hsame
  split at h
  · rename_i htrue
    exact ⟨(Except.ok.inj h).symm, hiff.mp htrue⟩
  · cases h

mutual

/-- **The returned node** keeps the names of the columns and has the wanted types. -/
theorem boundColumns_of_castSetOperationChild : ∀ (query : Query S V Ty N) {types : List Ty}
    {cast : Option (Query S V Ty N)} {columns : List (N × Ty)},
    castSetOperationChild sys query types = .ok cast → boundColumns sys query = some columns →
      columns.length = types.length →
        boundColumns sys (cast.getD query) = some ((columns.map Prod.fst).zip types)
  | .select node, types, cast, columns, h, hbound, hlength => by
    rcases castSetOperationChild_select h with
      ⟨rfl, htypes⟩ | ⟨selectList, rfl, hne, hcorrelated, hcolumns, hlist⟩
    · exact bound_of_typesOf_eq hbound htypes
    · simp only [boundColumns, hcorrelated, Bool.false_eq_true, if_false, Option.some.injEq] at hbound
      obtain rfl := hbound
      simp only [Option.getD_some, boundColumns, hcorrelated, Bool.false_eq_true, if_false]
      show some ((selectList.flatMap SelectItem.columns).map _) = _
      rw [hlist, map_bound_castColumns hcolumns, List.map_map]
      rfl
  | .setOperation type first others orders limit offset, types, cast, columns, h, hbound, hlength =>
    by
    rcases castSetOperationChild_setOperation h with
      ⟨rfl, htypes⟩ | ⟨castFirst, castOthers, hfirst, hothers, rfl, _, _, _⟩
    · exact bound_of_typesOf_eq hbound htypes
    · rw [boundColumns] at hbound
      obtain ⟨firstColumns, hfirstColumns, hbound⟩ := Option.bind_eq_some_iff.mp hbound
      obtain ⟨common, hcommon, hbound⟩ := Option.bind_eq_some_iff.mp hbound
      obtain rfl := Option.some.inj hbound
      obtain ⟨hcommonLength, hmembers⟩ := length_of_boundTypes hcommon
      rw [List.length_map] at hcommonLength hmembers
      have hfirstLength : firstColumns.length = types.length := by
        simpa [hcommonLength] using hlength
      have hnewFirst := boundColumns_of_castSetOperationChild first hfirst hfirstColumns hfirstLength
      have hnewOthers := boundTypes_of_castChildren others hothers fun query hquery => by
        obtain ⟨columns, hcolumns, hlen⟩ := hmembers query hquery
        exact ⟨columns, hcolumns, hlen.trans hfirstLength⟩
      have hzip : ((firstColumns.map Prod.fst).zip types).map Prod.snd = types :=
        List.map_snd_zip (by simp [hfirstLength])
      have hnames : ((firstColumns.map Prod.fst).zip types).map Prod.fst =
          firstColumns.map Prod.fst := List.map_fst_zip (by simp [hfirstLength])
      have hnames' : ((firstColumns.map Prod.fst).zip common).map Prod.fst =
          firstColumns.map Prod.fst := List.map_fst_zip (by simp [hcommonLength])
      simp only [Option.getD_some, boundColumns, hnewFirst, Option.bind_eq_bind, Option.bind_some,
        hzip, hnewOthers, hnames, hnames']
      rfl
  | .other _ _, types, cast, columns, h, hbound, hlength => by
    obtain ⟨rfl, htypes⟩ := castSetOperationChild_other h
    exact bound_of_typesOf_eq hbound htypes

theorem boundTypes_of_castChildren : ∀ (queries : List (Query S V Ty N)) {types : List Ty}
    {castQueries : List (Query S V Ty N)}, castChildren sys queries types = .ok castQueries →
      (∀ query ∈ queries, ∃ columns, boundColumns sys query = some columns ∧
        columns.length = types.length) →
      boundTypes sys castQueries types = some types
  | [], types, castQueries, h, _ => by
    obtain rfl := Except.ok.inj h
    rfl
  | query :: queries, types, castQueries, h, hall => by
    rw [castChildren] at h
    obtain ⟨castQuery, hquery, h⟩ := Runs.bind_eq_ok.mp h
    obtain ⟨castRest, hrest, rfl⟩ := Runs.map_eq_ok.mp h
    obtain ⟨columns, hcolumns, hlength⟩ := hall query List.mem_cons_self
    have hnew := boundColumns_of_castSetOperationChild query hquery hcolumns hlength
    have hzip : ((columns.map Prod.fst).zip types).map Prod.snd = types :=
      List.map_snd_zip (by simp [hlength])
    simp only [boundTypes, hnew, Option.bind_eq_bind, Option.bind_some, hzip, commonTypes_self]
    exact boundTypes_of_castChildren queries hrest fun q hq => hall q (List.mem_cons_of_mem _ hq)

end

theorem typesOf_of_castSetOperationChild {query : Query S V Ty N}
    {columns : List (N × Ty)}
    (h : castSetOperationChild sys query types = .ok cast)
    (hbound : boundColumns sys query = some columns) (hlength : columns.length = types.length) :
    typesOf sys (cast.getD query) = types := by
  rw [typesOf, inferQueryTypes, boundColumns_of_castSetOperationChild query h hbound hlength]
  exact List.map_snd_zip (by simp [hlength])

theorem namesOf_of_castSetOperationChild {query : Query S V Ty N}
    {columns : List (N × Ty)}
    (h : castSetOperationChild sys query types = .ok cast)
    (hbound : boundColumns sys query = some columns) (hlength : columns.length = types.length) :
    namesOf sys (cast.getD query) = namesOf sys query := by
  rw [namesOf, namesOf, inferQueryTypes, inferQueryTypes, hbound,
    boundColumns_of_castSetOperationChild query h hbound hlength]
  exact List.map_fst_zip (by simp [hlength])

end Returned

end SqliteScanner.SetOperation
