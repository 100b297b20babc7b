import Mathlib.Algebra.Group.Int.Defs
import Mathlib.Algebra.Group.Nat.Defs
import SqliteScanner.SetOperation.Conversion

/-!
# Converting a member from the inside

When a cast may stand below what a member does with its rows: below a `DISTINCT` or a `UNION` if it
keeps the rows apart, below a `LIMIT` if it keeps them in order, and below a nested set operation if
casting to the type of that operation first makes no difference.

Nothing of this is checked by the writer, and casts of DuckDB break all of it: a `BIGINT` as a
`DOUBLE` is not injective, and as a `VARCHAR` it does not keep the order.

## Main results

* `castsAfterwards_of_castSafe` — the condition is enough, for every nesting.
* `castSetOperationChild_iff` — and it is exact where no `LIMIT` or `OFFSET` is involved.
-/

namespace SqliteScanner.SetOperation

open BagMap

variable {S V Ty N : Type}

/-! ### `SELECT` members -/

section Select

/-- `DISTINCT` chooses the same rows on converted as on unconverted output rows, if the conversion
keeps them apart. -/
theorem chosen_iff {node node' : SelectNode S V Ty N} {f : List V → List V} {D : Multiset S}
    (hsource : node'.source = node.source) (hdistinct : node'.distinct = node.distinct)
    (hout : ∀ s ∈ node.source, node'.out s = f (node.out s))
    (hinj : node.distinct = true → Set.InjOn f {row | row ∈ node.source.map node.out}) :
    Chosen node' D ↔ Chosen node D := by
  cases hd : node.distinct with
  | false => simp [Chosen, hsource, hdistinct, hd]
  | true =>
    have hmem : ∀ {s}, s ∈ node.source → node.out s ∈ {row | row ∈ node.source.map node.out} :=
      fun hs => Multiset.mem_map_of_mem _ hs
    simp only [Chosen, hsource, hdistinct, hd, if_true]
    refine and_congr_right fun hle => ?_
    have hmap : D.map node'.out = (D.map node.out).map f := by
      rw [Multiset.map_map]
      exact Multiset.map_congr rfl fun s hs => hout s (Multiset.mem_of_le hle hs)
    rw [hmap]
    refine and_congr ⟨Multiset.Nodup.of_map f, fun hnodup => ?_⟩ ?_
    · refine Multiset.Nodup.map_on (fun row hrow row' hrow' heq => ?_) hnodup
      obtain ⟨s, hs, rfl⟩ := Multiset.mem_map.mp hrow
      obtain ⟨s', hs', rfl⟩ := Multiset.mem_map.mp hrow'
      exact hinj hd (hmem (Multiset.mem_of_le hle hs)) (hmem (Multiset.mem_of_le hle hs')) heq
    · refine forall₂_congr fun s hs => ?_
      rw [hout s hs]
      refine ⟨fun h => ?_, Multiset.mem_map_of_mem f⟩
      obtain ⟨row, hrow, heq⟩ := Multiset.mem_map.mp h
      obtain ⟨s', hs', rfl⟩ := Multiset.mem_map.mp hrow
      rwa [hinj hd (hmem (Multiset.mem_of_le hle hs')) (hmem hs) heq] at hrow

variable {node : SelectNode S V Ty N}

theorem mem_source_of_chosen {D : Multiset S} (h : Chosen node D)
    {s : S} (hs : s ∈ D) : s ∈ node.source := by
  rw [Chosen] at h
  split at h
  · exact Multiset.mem_of_le h.1 hs
  · exact h ▸ hs

theorem exists_representatives {α β : Type} (f : α → β) (M : Multiset α) :
    ∃ D ≤ M, (D.map f).Nodup ∧ ∀ a ∈ M, f a ∈ D.map f := by
  induction M using Multiset.induction_on with
  | empty => exact ⟨0, le_rfl, by simp, by simp⟩
  | cons a M ih =>
    obtain ⟨D, hle, hnodup, hall⟩ := ih
    by_cases hmem : f a ∈ D.map f
    · refine ⟨D, hle.trans (Multiset.le_cons_self M a), hnodup, fun b hb => ?_⟩
      rcases Multiset.mem_cons.mp hb with rfl | hb
      · exact hmem
      · exact hall b hb
    · refine ⟨a ::ₘ D, Multiset.cons_le_cons a hle, ?_, fun b hb => ?_⟩
      · rw [Multiset.map_cons, Multiset.nodup_cons]
        exact ⟨hmem, hnodup⟩
      · rw [Multiset.map_cons, Multiset.mem_cons]
        rcases Multiset.mem_cons.mp hb with rfl | hb
        · exact .inl rfl
        · exact .inr (hall b hb)

variable {sys : TypeSystem Ty V} [DecidableEq N] [DecidableEq V]

/-- The one result of a `SELECT` without `LIMIT` and `OFFSET`. -/
theorem results_select_windowless
    (h : node.limit = none ∧ node.offset = 0) (M : Multiset (List V)) :
    Results sys (.select node) M ↔
      M = if node.distinct then (node.source.map node.out).dedup else node.source.map node.out := by
  have hchosen : ∀ D, Chosen node D → D.map node.out =
      if node.distinct then (node.source.map node.out).dedup else node.source.map node.out := by
    intro D hD
    rw [Chosen] at hD
    split at hD
    · rename_i hdistinct
      rw [if_pos hdistinct, Multiset.Nodup.ext hD.2.1 (Multiset.nodup_dedup _)]
      intro row
      rw [Multiset.mem_dedup]
      refine ⟨fun hrow => Multiset.mem_of_le (Multiset.map_le_map hD.1) hrow, fun hrow => ?_⟩
      obtain ⟨s, hs, rfl⟩ := Multiset.mem_map.mp hrow
      exact hD.2.2 s hs
    · rename_i hdistinct
      rw [if_neg hdistinct, hD]
  have hexists : ∃ D, Chosen node D := by
    by_cases hdistinct : node.distinct = true
    · obtain ⟨D, hD⟩ := exists_representatives node.out node.source
      exact ⟨D, by rw [Chosen, if_pos hdistinct]; exact hD⟩
    · exact ⟨node.source, by rw [Chosen, if_neg hdistinct]⟩
  simp only [Results, window_none h]
  constructor
  · rintro ⟨D, W, hD, rfl, rfl⟩
    exact hchosen W hD
  · rintro rfl
    obtain ⟨D, hD⟩ := hexists
    exact ⟨D, D, hD, rfl, (hchosen D hD).symm⟩

theorem dedup_eq_map_dedup_iff {A B : Multiset (List V)} {f : List V → List V} :
    B.dedup = A.dedup.map f ↔ Set.InjOn f {row | row ∈ A} ∧ ∀ row, row ∈ B ↔ row ∈ A.map f := by
  rw [eq_map_iff (Multiset.nodup_dedup _) (Multiset.nodup_dedup _)]
  simp

/-- Without `LIMIT` and `OFFSET` the condition on a `SELECT` is exact. -/
theorem selectSafe_iff_of_windowless
    {selectList : List (SelectItem (List V × S) V Ty N)} {types : List Ty}
    (hw : node.limit = none ∧ node.offset = 0)
    (hlist : selectList.flatMap SelectItem.columns = castColumns sys node.columns types) :
    SelectSafe sys node types ↔
      ∀ M, Results sys (.select { node with selectList := selectList }) M ↔
        ∃ M₀, Results sys (.select node) M₀ ∧
          M = M₀.map (castRow sys (typesOf sys (.select node)) types) := by
  have hout : SelectNode.out { node with selectList := selectList } =
      rowOf (castColumns sys node.columns types) := by
    rw [SelectNode.out, SelectNode.columns, hlist]
  have hsource : SelectNode.source { node with selectList := selectList } =
      node.clauses (rowOf (castColumns sys node.columns types)) := by
    rw [SelectNode.source, hout]
  have hold : ∀ M, Results sys (.select node) M ↔ _ := results_select_windowless hw
  have hnew : ∀ M, Results sys (.select { node with selectList := selectList }) M ↔ _ :=
    results_select_windowless hw
  simp only [hold, hnew, hout, hsource, exists_eq_left, SelectSafe, if_pos hw]
  cases node.distinct with
  | true =>
    simp only [if_true, forall_const, ← dedup_eq_map_dedup_iff]
    exact ⟨fun h M => by rw [h], fun h => (h _).mp rfl⟩
  | false =>
    simp only [Bool.false_eq_true, if_false, false_imp_iff, true_and]
    exact ⟨fun h M => by rw [h], fun h => (h _).mp rfl⟩

/-- **A converted `SELECT`** that satisfies the condition. -/
theorem results_select_iff
    {selectList : List (SelectItem (List V × S) V Ty N)} {types : List Ty}
    (hlist : selectList.flatMap SelectItem.columns = castColumns sys node.columns types)
    (hsafe : SelectSafe sys node types) (M : Multiset (List V)) :
    Results sys (.select { node with selectList := selectList }) M ↔
      ∃ M₀, Results sys (.select node) M₀ ∧
        M = M₀.map (castRow sys (typesOf sys (.select node)) types) := by
  by_cases hw : node.limit = none ∧ node.offset = 0
  · exact (selectSafe_iff_of_windowless hw hlist).mp hsafe M
  obtain ⟨hinj, hsafe⟩ := hsafe
  rw [if_neg hw] at hsafe
  obtain ⟨hsource, hout, hle⟩ := hsafe
  have hcolumns : SelectNode.columns { node with selectList := selectList } =
      castColumns sys node.columns types := hlist
  have hchosen : ∀ {D}, Chosen { node with selectList := selectList } D ↔ Chosen node D := by
    refine chosen_iff ?_ rfl (fun s hs => ?_) hinj
    · rw [SelectNode.source, SelectNode.out, hcolumns, hsource]
    · rw [SelectNode.out, hcolumns, hout s (hsource ▸ hs)]
  have hmap : ∀ {D W : Multiset S}, Chosen node D → W ≤ D →
      W.map (SelectNode.out { node with selectList := selectList }) =
        (W.map node.out).map (castRow sys (typesOf sys (.select node)) types) := by
    intro D W hD hW
    rw [Multiset.map_map]
    refine Multiset.map_congr rfl fun s hs => ?_
    have hs := mem_source_of_chosen hD (Multiset.mem_of_le hW hs)
    rw [SelectNode.out, hcolumns, hout s (hsource ▸ hs), Function.comp_apply]
  have hwindow : ∀ {D W}, Chosen node D →
      (Window (selectLe sys (castColumns sys node.columns types) node.orders) node.limit
        node.offset D W ↔ Window (selectLe sys node.columns node.orders) node.limit
          node.offset D W) := by
    intro D W hD
    refine window_congr (.inr fun s hs s' hs' => ?_)
    exact hle s (hsource ▸ mem_source_of_chosen hD hs) s' (hsource ▸ mem_source_of_chosen hD hs')
  simp only [Results, hcolumns]
  constructor
  · rintro ⟨D, W, hD, hW, rfl⟩
    rw [hchosen] at hD
    exact ⟨_, ⟨D, W, hD, (hwindow hD).mp hW, rfl⟩, hmap hD (window_le hW)⟩
  · rintro ⟨_, ⟨D, W, hD, hW, rfl⟩, rfl⟩
    exact ⟨D, W, hchosen.mpr hD, (hwindow hD).mpr hW, (hmap hD (window_le hW)).symm⟩

end Select

/-! ### Nested set operations -/

section SetOperation

variable {sys : TypeSystem Ty V} [DecidableEq N] [DecidableEq V]

/-- A map may be moved below an operator exactly under its condition. -/
theorem combine_map_iff (f : List V → List V) (type : SetOperationType) (A : Multiset (List V))
    (Bs : List (Multiset (List V))) :
    combine type (A.map f) (Bs.map (Multiset.map f)) = (combine type A Bs).map f ↔
      OperatorSafe f A Bs type := by
  cases type with
  | unionAll => simp [combine, OperatorSafe, sum_map_map, Multiset.map_add]
  | union => rw [combine, combine, sum_map_map, ← Multiset.map_add, dedup_map_iff, OperatorSafe]
  | except => rw [combine, combine, sum_map_map, except_map_iff, OperatorSafe]
  | intersect => rw [combine, combine, intersect_map_iff, OperatorSafe]

/-- A node that has the wanted types is its own conversion. -/
theorem results_iff_of_typesOf_eq {query : Query S V Ty N} {types : List Ty}
    (h : typesOf sys query = types) (M : Multiset (List V)) :
    Results sys query M ↔
      ∃ M₀, Results sys query M₀ ∧ M = M₀.map (castRow sys (typesOf sys query) types) := by
  simp only [h, map_castRow_self, exists_eq_right']

/-- Casting the rows of a member at once, or by way of the types of the set operation. -/
theorem map_castRow_eq {query : Query S V Ty N} {via types : List Ty} {M : Multiset (List V)}
    (h : ∀ M, Results sys query M → ∀ row ∈ M, castRow sys (typesOf sys query) types row =
      castRow sys via types (castRow sys (typesOf sys query) via row))
    (hM : Results sys query M) :
    M.map (castRow sys (typesOf sys query) types) =
      (M.map (castRow sys (typesOf sys query) via)).map (castRow sys via types) := by
  rw [Multiset.map_map]
  exact Multiset.map_congr rfl fun row hrow => h M hM row hrow

variable {type : SetOperationType} {first : Query S V Ty N} {others : List (Query S V Ty N)}
  {orders : List (OutputKey N × OrderSpec)} {limit : Option ℕ} {offset : ℕ}

theorem results_setOperation_iff {query : Query S V Ty N}
    (hquery : query = .setOperation type first others orders limit offset)
    (M : Multiset (List V)) :
    Results sys query M ↔
      ∃ A Bs, Results sys first A ∧ ResultsAs sys others (typesOf sys query) Bs ∧
        Window (rowLe sys (namesOf sys query) orders) limit offset
          (combine type (A.map (castRow sys (typesOf sys first) (typesOf sys query))) Bs) M := by
  rw [hquery, Results]

variable [DecidableEq Ty]

/-- The further members of a set operation are converted as they should be. -/
def MembersCast (sys : TypeSystem Ty V) (queries : List (Query S V Ty N)) (via types : List Ty) :
    Prop :=
  ∀ castQueries, castChildren sys queries types = .ok castQueries →
    (∀ query ∈ queries, ∃ columns, boundColumns sys query = some columns ∧
      columns.length = types.length) →
    ∀ Bs, ResultsAs sys castQueries types Bs ↔
      ∃ Bs₀, ResultsAs sys queries via Bs₀ ∧ Bs = Bs₀.map (Multiset.map (castRow sys via types))

/-- **A converted set operation** works on the converted rows of its members. -/
theorem results_castSetOperation_iff {types : List Ty} {query cast : Query S V Ty N}
    (hquery : query = .setOperation type first others orders limit offset)
    (h : castSetOperationChild sys query types = .ok (some cast))
    (hfirst : CastsAfterwards sys first types)
    (hothers : MembersCast sys others (typesOf sys query) types)
    (hvia : ∀ A, Results sys first A → ∀ row ∈ A, castRow sys (typesOf sys first) types row =
      castRow sys (typesOf sys query) types
        (castRow sys (typesOf sys first) (typesOf sys query) row))
    (M : Multiset (List V)) :
    Results sys cast M ↔
      ∃ A Bs, Results sys first A ∧ ResultsAs sys others (typesOf sys query) Bs ∧
        Window (rowLe sys (namesOf sys query) orders) limit offset
          (combine type
            ((A.map (castRow sys (typesOf sys first) (typesOf sys query))).map
              (castRow sys (typesOf sys query) types))
            (Bs.map (Multiset.map (castRow sys (typesOf sys query) types)))) M := by
  subst hquery
  obtain ⟨_, _⟩ | ⟨castFirst, castOthers, hcastFirst, hcastOthers, heq, _, hsome, hlength⟩ :=
    castSetOperationChild_setOperation h
  · contradiction
  obtain ⟨⟨columns, hcolumns, hcolumnsLength⟩, hbound⟩ := bound_members hsome hlength
  obtain ⟨queryColumns, hqueryColumns⟩ := Option.isSome_iff_exists.mp hsome
  have hqueryLength : queryColumns.length = types.length := by
    simpa [typesOf, inferQueryTypes, hqueryColumns] using hlength
  have htypes := typesOf_of_castSetOperationChild h hqueryColumns hqueryLength
  have hnames := namesOf_of_castSetOperationChild h hqueryColumns hqueryLength
  have hfirstTypes := typesOf_of_castSetOperationChild hcastFirst hcolumns hcolumnsLength
  rw [Option.getD_some] at htypes hnames
  rw [results_setOperation_iff (Option.some.inj heq), htypes, hnames, hfirstTypes]
  simp only [map_castRow_self, hfirst castFirst hcastFirst, hothers castOthers hcastOthers hbound]
  constructor
  · rintro ⟨_, _, ⟨A, hA, rfl⟩, ⟨Bs, hBs, rfl⟩, hW⟩
    exact ⟨A, Bs, hA, hBs, by rwa [map_castRow_eq hvia hA] at hW⟩
  · rintro ⟨A, Bs, hA, hBs, hW⟩
    exact ⟨_, _, ⟨A, hA, rfl⟩, ⟨Bs, hBs, rfl⟩, by rwa [map_castRow_eq hvia hA]⟩

mutual

/-- **The condition is enough.** -/
theorem castsAfterwards_of_castSafe : ∀ (query : Query S V Ty N) {types : List Ty},
    CastSafe sys query types → CastsAfterwards sys query types
  | .select node, types, hsafe => by
    intro cast h M
    rcases castSetOperationChild_select h with
      ⟨rfl, htypes⟩ | ⟨selectList, rfl, hne, hcorrelated, hcolumns, hlist⟩
    · exact results_iff_of_typesOf_eq htypes M
    · rw [CastSafe] at hsafe
      exact results_select_iff hlist (hsafe.resolve_left hne) M
  | .setOperation type first others orders limit offset, types, hsafe => by
    intro cast h M
    obtain ⟨rfl, htypes⟩ | ⟨castFirst, castOthers, _, _, rfl, hne, _⟩ :=
      castSetOperationChild_setOperation h
    · exact results_iff_of_typesOf_eq htypes M
    · rw [CastSafe] at hsafe
      obtain ⟨⟨hsafeFirst, hsafeOthers, hcompose⟩, hnode⟩ := hsafe.resolve_left hne
      rw [Option.getD_some, results_castSetOperation_iff rfl h
        (castsAfterwards_of_castSafe first hsafeFirst)
        (membersCast_of_allCastSafe others hsafeOthers
          fun q hq => hcompose q (List.mem_cons_of_mem first hq))
        (hcompose first List.mem_cons_self)]
      constructor
      · rintro ⟨A, Bs, hA, hBs, hW⟩
        obtain ⟨hop, hle⟩ := hnode A Bs hA hBs
        rw [(combine_map_iff _ type _ Bs).mpr hop, window_map_iff hle] at hW
        obtain ⟨W, hW, rfl⟩ := hW
        exact ⟨W, (results_setOperation_iff rfl W).mpr ⟨A, Bs, hA, hBs, hW⟩, rfl⟩
      · rintro ⟨W, hW, rfl⟩
        obtain ⟨A, Bs, hA, hBs, hW⟩ := (results_setOperation_iff rfl W).mp hW
        obtain ⟨hop, hle⟩ := hnode A Bs hA hBs
        refine ⟨A, Bs, hA, hBs, ?_⟩
        rw [(combine_map_iff _ type _ Bs).mpr hop, window_map_iff hle]
        exact ⟨W, hW, rfl⟩
  | .other columns rows, types, _ => by
    intro cast h M
    obtain ⟨rfl, htypes⟩ := castSetOperationChild_other h
    exact results_iff_of_typesOf_eq htypes M

theorem membersCast_of_allCastSafe : ∀ (queries : List (Query S V Ty N)) {via types : List Ty},
    AllCastSafe sys queries types → MembersCompose sys queries via types →
      MembersCast sys queries via types
  | [], via, types, _, _ => by
    intro castQueries h _ Bs
    obtain rfl := Except.ok.inj h
    simp [ResultsAs]
  | query :: queries, via, types, hsafe, hcompose => by
    intro castQueries h hbound Bs
    rw [castChildren] at h
    obtain ⟨castQuery, hquery, h⟩ := Runs.bind_eq_ok.mp h
    obtain ⟨castRest, hrest, rfl⟩ := Runs.map_eq_ok.mp h
    rw [AllCastSafe] at hsafe
    have hhead := castsAfterwards_of_castSafe query hsafe.1 castQuery hquery
    have htail := membersCast_of_allCastSafe queries hsafe.2
      (fun q hq => hcompose q (List.mem_cons_of_mem query hq)) castRest hrest
      fun q hq => hbound q (List.mem_cons_of_mem query hq)
    obtain ⟨columns, hcolumns, hlength⟩ := hbound query List.mem_cons_self
    have htypes := typesOf_of_castSetOperationChild hquery hcolumns hlength
    have hvia := hcompose query List.mem_cons_self
    simp only [ResultsAs, hhead, htail, htypes, map_castRow_self]
    constructor
    · rintro ⟨_, _, ⟨B, hB, rfl⟩, ⟨Bs₀, hBs, rfl⟩, rfl⟩
      refine ⟨_, ⟨B, Bs₀, hB, hBs, rfl⟩, ?_⟩
      rw [List.map_cons, map_castRow_eq hvia hB]
    · rintro ⟨_, ⟨B, Bs₀, hB, hBs, rfl⟩, rfl⟩
      refine ⟨_, _, ⟨B, hB, rfl⟩, ⟨Bs₀, hBs, rfl⟩, ?_⟩
      rw [List.map_cons, map_castRow_eq hvia hB]

end

end SetOperation

/-! ### Queries without `LIMIT` and `OFFSET`

Such a query has one result, and then nothing can make up for an operator that does not allow the
conversion below it. -/

section Windowless

mutual

def Windowless : Query S V Ty N → Prop
  | .select node => node.limit = none ∧ node.offset = 0
  | .setOperation _ first others _ limit offset =>
    Windowless first ∧ AllWindowless others ∧ limit = none ∧ offset = 0
  | .other _ _ => True

def AllWindowless : List (Query S V Ty N) → Prop
  | [] => True
  | query :: queries => Windowless query ∧ AllWindowless queries

end

variable {sys : TypeSystem Ty V} [DecidableEq N] [DecidableEq V]

mutual

theorem results_unique : ∀ (query : Query S V Ty N) {M M' : Multiset (List V)},
    Windowless query → Results sys query M → Results sys query M' → M = M'
  | .select node, M, M', hw, h, h' => by
    rw [Windowless] at hw
    rw [results_select_windowless hw] at h h'
    rw [h, h']
  | .setOperation type first others orders limit offset, M, M', hw, h, h' => by
    rw [Windowless] at hw
    obtain ⟨hfirst, hothers, hnone⟩ := hw
    simp only [Results, window_none hnone] at h h'
    obtain ⟨A, Bs, hA, hBs, rfl⟩ := h
    obtain ⟨A', Bs', hA', hBs', rfl⟩ := h'
    rw [results_unique first hfirst hA hA', resultsAs_unique others hothers hBs hBs']
  | .other _ _, M, M', _, h, h' => by
    rw [Results] at h h'
    rw [h, h']

theorem resultsAs_unique : ∀ (queries : List (Query S V Ty N)) {types : List Ty}
    {Bs Bs' : List (Multiset (List V))}, AllWindowless queries →
      ResultsAs sys queries types Bs → ResultsAs sys queries types Bs' → Bs = Bs'
  | [], types, Bs, Bs', _, h, h' => by
    rw [ResultsAs] at h h'
    rw [h, h']
  | query :: queries, types, Bs, Bs', hw, h, h' => by
    rw [AllWindowless] at hw
    rw [ResultsAs] at h h'
    obtain ⟨B, Cs, hB, hCs, rfl⟩ := h
    obtain ⟨B', Cs', hB', hCs', rfl⟩ := h'
    rw [results_unique query hw.1 hB hB', resultsAs_unique queries hw.2 hCs hCs']

end

/-- The part of the condition that is about the members of a member. -/
def MembersSafe (sys : TypeSystem Ty V) : Query S V Ty N → List Ty → Prop
  | .setOperation type first others orders limit offset, types =>
    CastSafe sys first types ∧ AllCastSafe sys others types ∧
      MembersCompose sys (first :: others)
        (typesOf sys (.setOperation type first others orders limit offset)) types
  | .select _, _ | .other _ _, _ => True

variable [DecidableEq Ty]

theorem castSafe_of_castsAfterwards_select {node : SelectNode S V Ty N} {types : List Ty}
    (hw : node.limit = none ∧ node.offset = 0) {cast : Query S V Ty N}
    (h : castSetOperationChild sys (.select node) types = .ok (some cast))
    (hcast : CastsAfterwards sys (.select node) types) : SelectSafe sys node types := by
  obtain ⟨_, _⟩ | ⟨selectList, heq, _, _, _, hlist⟩ := castSetOperationChild_select h
  · contradiction
  obtain rfl := Option.some.inj heq
  exact (selectSafe_iff_of_windowless hw hlist).mpr (hcast _ h)

theorem castSafe_of_castsAfterwards_setOperation {type : SetOperationType}
    {first : Query S V Ty N} {others : List (Query S V Ty N)}
    {orders : List (OutputKey N × OrderSpec)} {limit : Option ℕ} {offset : ℕ} {types : List Ty}
    {query : Query S V Ty N}
    (hquery : query = .setOperation type first others orders limit offset)
    (hw : Windowless query) (hmembers : MembersSafe sys query types) {cast : Query S V Ty N}
    (h : castSetOperationChild sys query types = .ok (some cast))
    (hcast : CastsAfterwards sys query types) {A : Multiset (List V)}
    {Bs : List (Multiset (List V))} (hA : Results sys first A)
    (hBs : ResultsAs sys others (typesOf sys query) Bs) :
    OperatorSafe (castRow sys (typesOf sys query) types)
      (A.map (castRow sys (typesOf sys first) (typesOf sys query))) Bs type := by
  have hw' := hw
  have hmembers' := hmembers
  rw [hquery, Windowless] at hw'
  rw [hquery, MembersSafe, ← hquery] at hmembers'
  obtain ⟨hwFirst, hwOthers, hnone⟩ := hw'
  obtain ⟨hsafeFirst, hsafeOthers, hcompose⟩ := hmembers'
  have hnew := results_castSetOperation_iff hquery h
    (castsAfterwards_of_castSafe first hsafeFirst)
    (membersCast_of_allCastSafe others hsafeOthers
      fun q hq => hcompose q (List.mem_cons_of_mem first hq))
    (hcompose first List.mem_cons_self)
  simp only [window_none hnone] at hnew
  obtain ⟨M, hM, heq⟩ := (hcast _ h _).mp ((hnew _).mpr ⟨A, Bs, hA, hBs, rfl⟩)
  rw [results_setOperation_iff hquery] at hM
  obtain ⟨A', Bs', hA', hBs', hW⟩ := hM
  rw [window_none hnone] at hW
  rw [hW, results_unique first hwFirst hA' hA, resultsAs_unique others hwOthers hBs' hBs] at heq
  exact (combine_map_iff _ type _ Bs).mp heq

end Windowless

/-! ### Three types -/

inductive SqlType where
  | bigint
  | double
  | varchar
  deriving DecidableEq, Repr

/-- The values that are used here. A double is a whole number that is one. -/
inductive SqlValue where
  | bigint (n : ℤ)
  | double (n : ℤ)
  | varchar (s : String)
  deriving DecidableEq, Repr

/-- The double next to a whole number of up to 54 bits. From 2⁵³ on only even numbers are doubles,
and a number between two of them goes to the one that is a multiple of four. -/
def roundToDouble (n : ℤ) : ℤ :=
  if n.natAbs ≤ 2 ^ 53 then n else if n % 4 = 3 then n + 1 else n - n % 2

def castValue : SqlType → SqlType → SqlValue → SqlValue
  | .bigint, .varchar, .bigint n => .varchar (toString n)
  | .bigint, .double, .bigint n => .double (roundToDouble n)
  | _, _, value => value

def compareValues : SqlValue → SqlValue → Ordering
  | .bigint m, .bigint n | .double m, .double n => compare m n
  | .varchar s, .varchar t => compare s t
  | _, _ => .eq

def sqlTypes : TypeSystem SqlType SqlValue where
  cast := castValue
  cast_self type value := by cases type <;> rfl
  commonType a b :=
    if a = b then a else if a = .varchar ∨ b = .varchar then .varchar else .double
  commonType_self type := by simp
  compare spec
    | some x, some y => if spec.descending then compareValues y x else compareValues x y
    | _, _ => .eq

/-- `SELECT k FROM u`, over the numbers `k` of the table. -/
def selectK (source : Multiset ℤ) (distinct : Bool) (limit : Option ℕ) :
    SelectNode ℤ SqlValue SqlType String where
  correlated := false
  selectList := [.expr none "k" .bigint fun row => .bigint row.2]
  clauses _ := source
  distinct := distinct
  orders := [(.output (.position 1) fun _ => none, ⟨false, false⟩)]
  limit := limit
  offset := 0

/-- `SELECT k FROM u GROUP BY 1`. A group is the list of its numbers, and the one of a number are all
numbers for which the select list has the same value. -/
def groupK (numbers : List ℤ) : SelectNode (List ℤ) SqlValue SqlType String where
  correlated := false
  selectList := [.expr none "k" .bigint fun row => .bigint (row.2.headD 0)]
  clauses out := ((numbers.map fun n => numbers.filter fun m => out [m] = out [n]).dedup :)
  distinct := false
  orders := []
  limit := none
  offset := 0

end SqliteScanner.SetOperation
