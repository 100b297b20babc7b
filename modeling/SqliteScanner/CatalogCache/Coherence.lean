import SqliteScanner.CatalogCache.Model

/-!
# When the catalog cache is coherent

A lookup of a name is answered from the map of the transaction, or else from SQLite's schema. The
invariant (`Inv`) says that every entry of the map is what the schema has now. Lookups keep it, and
under it a lookup is right exactly when the object of the name can be read. A change keeps it if it
disturbs no object that has an entry. For tables this is so for every change: a statement that changes
a table names it, and its entry is then erased.

Conversely, a change that disturbs an object shows: a lookup before it puts the entry into the map, and
the lookup after it finds the entry.

## Main results

* `getCatalogEntry_yields` — what a lookup returns.
* `Inv.effect` — a change that disturbs nothing leaves the map right.
* `coherent_iff_safe` — the sequences of changes between which lookups are always right.
-/

namespace SqliteScanner.CatalogCache

open Runs

/-! ### Reading the schema -/

section Reading

variable {D : Type} (bindView : Schema D → D → Option (List Column))

theorem isSome_extractColumnIds {columns : List Column} {names : List Name}
    (h : ∀ name ∈ names, (position columns name).isSome) (ids : List ℕ) :
    (extractColumnIds columns names ids).isSome := by
  induction names generalizing ids with
  | nil => rfl
  | cons name names ih =>
    obtain ⟨i, hi⟩ := Option.isSome_iff_exists.mp (h name List.mem_cons_self)
    rw [extractColumnIds, hi]
    exact ih (fun name' hname => h name' (List.mem_cons_of_mem _ hname)) _

theorem describe_table {s : Schema D} {k : Name} {columns : List Column}
    (h : s.objects k = some (.table columns)) : describe bindView s k = some (.table columns) := by
  rw [describe, h]

/-- The object behind a description. -/
theorem objects_of_describe {s : Schema D} {k : Name} {entry : Entry}
    (h : describe bindView s k = some entry) :
    match entry with
    | .table columns => s.objects k = some (.table columns)
    | .view columns => ∃ definition, s.objects k = some (.view definition) ∧
        bindView s definition = columns
    | .index table names _ => ∃ sql, s.objects k = some (.index table names sql) := by
  rw [describe] at h
  split at h <;> cases h
  · assumption
  · exact ⟨_, ‹_›, rfl⟩
  · exact ⟨_, ‹_›⟩

theorem describe_eq_none {s : Schema D} {k : Name} :
    describe bindView s k = none ↔ s.objects k = none := by
  rw [describe]
  split <;> simp_all

/-- The columns of an index are columns of its table. -/
theorem describe_index {s : Schema D} {k table : Name} {names : List Name} {sql : IndexSql}
    (h : s.objects k = some (.index table names sql)) :
    ∃ columns ids, s.objects (fold table) = some (.table columns) ∧
      extractColumnIds columns names [] = some ids ∧
      describe bindView s k = some (.index table names ids) := by
  obtain ⟨columns, htable, hnames⟩ := s.owned k table names sql h
  obtain ⟨ids, hids⟩ := Option.isSome_iff_exists.mp (isSome_extractColumnIds hnames [])
  refine ⟨columns, ids, htable, hids, ?_⟩
  rw [describe, h]
  simp only [Schema.columns, htable, hids, Option.getD_some]

end Reading

/-! ### The invariant -/

section Invariant

variable {D : Type} {bindView : Schema D → D → Option (List Column)} {names : List Name}
  {s s' : State D}

/-- The entries of the map are what the schema has. Those of views and indexes are of names that are
looked up. -/
structure Inv (bindView : Schema D → D → Option (List Column)) (names : List Name) (s : State D) :
    Prop where
  right : ∀ k entry, s.cache k = some entry → describe bindView s.schema k = some entry
  readable : ∀ k entry, s.cache k = some entry → Readable bindView s.schema k
  watched : ∀ k entry, s.cache k = some entry →
    (∃ columns, entry = .table columns) ∨ ∃ name ∈ names, fold name = k

theorem inv_init (bindView : Schema D → D → Option (List Column)) (names : List Name)
    (schema : Schema D) : Inv bindView names (State.init schema) :=
  ⟨fun _ _ h => (nomatch h), fun _ _ h => (nomatch h), fun _ _ h => (nomatch h)⟩

/-- What a lookup may do to the state. -/
structure Grows (s s' : State D) : Prop where
  schema : s'.schema = s.schema
  kept : ∀ k entry, s.cache k = some entry → s'.cache k = some entry

/-- What it may do before it is recorded. -/
structure Loads (s s' : State D) : Prop extends Grows s s' where
  lookups : s'.lookups = s.lookups

theorem Loads.refl (s : State D) : Loads s s := ⟨⟨rfl, fun _ _ h => h⟩, rfl⟩

theorem Loads.trans {s'' : State D} (h : Loads s s') (h' : Loads s' s'') : Loads s s'' :=
  ⟨⟨h'.schema.trans h.schema, fun k entry hk => h'.kept k entry (h.kept k entry hk)⟩,
    h'.lookups.trans h.lookups⟩

/-- An entry is put into the map for the object that the schema has now. -/
theorem Inv.insert (h : Inv bindView names s) {k₀ : Name} {entry₀ : Entry}
    (hright : describe bindView s.schema k₀ = some entry₀)
    (hreadable : Readable bindView s.schema k₀)
    (hwatched : (∃ columns, entry₀ = .table columns) ∨ ∃ name ∈ names, fold name = k₀) :
    Inv bindView names { s with cache := Function.update s.cache k₀ (some entry₀) } := by
  have hcases : ∀ k entry, Function.update s.cache k₀ (some entry₀) k = some entry →
      k = k₀ ∧ entry = entry₀ ∨ s.cache k = some entry := by
    intro k entry hk
    by_cases heq : k = k₀
    · subst heq
      rw [Function.update_self] at hk
      exact .inl ⟨rfl, (Option.some.inj hk).symm⟩
    · rw [Function.update_of_ne heq] at hk
      exact .inr hk
  refine ⟨fun k entry hk => ?_, fun k entry hk => ?_, fun k entry hk => ?_⟩
  · rcases hcases k entry hk with ⟨rfl, rfl⟩ | hk
    · exact hright
    · exact h.right k entry hk
  · rcases hcases k entry hk with ⟨rfl, rfl⟩ | hk
    · exact hreadable
    · exact h.readable k entry hk
  · rcases hcases k entry hk with ⟨rfl, rfl⟩ | hk
    · exact hwatched
    · exact h.watched k entry hk

end Invariant

/-! ### Lookups -/

section Lookups

variable {D : Type} {bindView : Schema D → D → Option (List Column)} {names : List Name}
  {s : State D}

theorem insertEntry_loads (name : Name) (entry : Entry) :
    Yields (insertEntry name entry) s (fun _ => Loads s) (fun _ => Loads s) := by
  refine .bind (.get ?_)
  cases hcache : s.cache (fold name) with
  | some existing => exact .pure (Loads.refl s)
  | none =>
    refine .bind (.modify (.pure ⟨⟨rfl, fun k entry' hk => ?_⟩, rfl⟩))
    have hne : k ≠ fold name := by
      rintro rfl
      rw [hcache] at hk
      cases hk
    exact (Function.update_of_ne hne _ _).trans hk

/-- In every state, a lookup only adds entries. -/
theorem getCatalogEntry_loads (depth : ℕ) (name : Name) (s : State D) :
    Yields (getCatalogEntry bindView depth name) s (fun _ => Loads s) (fun _ => Loads s) := by
  induction depth generalizing name s with
  | zero => exact .throw (Loads.refl s)
  | succ depth ih =>
    refine .bind (.get ?_)
    split
    · exact .pure (Loads.refl s)
    split
    · exact .throw (Loads.refl s)
    split
    · exact .pure (Loads.refl s)
    · exact insertEntry_loads name _
    · split
      · exact .throw (Loads.refl s)
      · exact insertEntry_loads name _
    · split
      · exact .throw (Loads.refl s)
      · refine .bind ((ih _ s).imp (fun r s₁ h₁ => ?_) fun _ _ h₁ => h₁)
        split
        · split
          · exact .throw h₁
          split
          · exact .throw h₁
          · exact (insertEntry_loads name _).imp (fun _ _ => h₁.trans) fun _ _ => h₁.trans
        · exact .throw h₁

variable {name : Name}

/-- The state after an entry has been put into the map. -/
theorem insertEntry_yields (h : Inv bindView names s) {entry : Entry}
    {R : Exception → State D → Prop} (hcache : s.cache (fold name) = none)
    (hright : describe bindView s.schema (fold name) = some entry)
    (hreadable : Readable bindView s.schema (fold name))
    (hwatched : (∃ columns, entry = .table columns) ∨ name ∈ names) :
    Yields (insertEntry name entry) s
      (fun r s' => r = some entry ∧ Inv bindView names s' ∧ s'.schema = s.schema ∧
        s'.cache = Function.update s.cache (fold name) (some entry)) R := by
  refine .bind (.get ?_)
  rw [hcache]
  have hinv := h.insert hright hreadable (hwatched.imp_right fun hname => ⟨name, hname, rfl⟩)
  exact .bind (.modify (.pure ⟨rfl, hinv, rfl, rfl⟩))

/-- A lookup of a name that is a table of the schema. -/
theorem getCatalogEntry_table (h : Inv bindView names s) {table : Name} {columns : List Column}
    (htable : s.schema.objects (fold table) = some (.table columns)) (depth : ℕ) :
    Yields (getCatalogEntry bindView (depth + 1) table) s
      (fun r s' => r = some (.table columns) ∧ s.schema.trigger (fold table) = false ∧
        Inv bindView names s' ∧ s'.schema = s.schema ∧
        ∀ k, k ≠ fold table → s'.cache k = s.cache k)
      (fun _ s' => s.schema.trigger (fold table) = true ∧ Inv bindView names s' ∧
        s'.schema = s.schema) := by
  have hdescribe := describe_table bindView htable
  refine .bind (.get ?_)
  cases hcache : s.cache (fold table) with
  | some entry =>
    have hentry := (h.right _ _ hcache).symm.trans hdescribe
    have hreadable := h.readable _ _ hcache
    rw [Readable, htable] at hreadable
    exact .pure ⟨hentry, hreadable, h, rfl, fun _ _ => rfl⟩
  | none =>
    by_cases htrigger : s.schema.trigger (fold table) = true
    · simp only [htrigger, if_true]
      exact .throw ⟨trivial, h, rfl⟩
    · have hfalse : s.schema.trigger (fold table) = false := by simpa using htrigger
      have hreadable : Readable bindView s.schema (fold table) := by rwa [Readable, htable]
      simp only [hfalse, htable, Bool.false_eq_true, if_false]
      refine (insertEntry_yields h hcache hdescribe hreadable (.inl ⟨columns, rfl⟩)).imp ?_
        fun _ _ h => h
      rintro r s' ⟨rfl, hinv, hschema, hcache'⟩
      refine ⟨rfl, trivial, hinv, hschema, fun k hk => ?_⟩
      rw [hcache', Function.update_of_ne hk]

/-- What a lookup returns: the object of the name, which can be read. -/
structure Found (bindView : Schema D → D → Option (List Column)) (s : State D) (name : Name)
    (r : Option Entry) (s' : State D) : Prop where
  right : r = describe bindView s.schema (fold name)
  cached : s'.cache (fold name) = r
  readable : Readable bindView s.schema (fold name)
  free : r = none → s.schema.trigger (fold name) = false

/-- Why a lookup throws: the object of the name cannot be read, or there is a trigger instead. -/
def Refused (bindView : Schema D → D → Option (List Column)) (s : State D) (name : Name) : Prop :=
  Readable bindView s.schema (fold name) →
    s.schema.objects (fold name) = none ∧ s.schema.trigger (fold name) = true

theorem insertEntry_found (h : Inv bindView names s) {entry : Entry}
    {R : Exception → State D → Prop} (hname : name ∈ names) (hcache : s.cache (fold name) = none)
    (hright : describe bindView s.schema (fold name) = some entry)
    (hreadable : Readable bindView s.schema (fold name)) :
    Yields (insertEntry name entry) s
      (fun r s' => Inv bindView names s' ∧ Found bindView s name r s') R := by
  refine (insertEntry_yields h hcache hright hreadable (.inr hname)).imp ?_ fun _ _ h => h
  rintro r s' ⟨rfl, hinv, -, hcache'⟩
  exact ⟨hinv, hright.symm, by rw [hcache', Function.update_self], hreadable, fun h => nomatch h⟩

/-- A lookup of an index that has no entry. -/
theorem getCatalogEntry_index (h : Inv bindView names s) {name table : Name} {columns : List Name}
    {sql : IndexSql} (hname : name ∈ names) (hcache : s.cache (fold name) = none)
    (hobject : s.schema.objects (fold name) = some (.index table columns sql))
    (htrigger : s.schema.trigger (fold name) = false) :
    Yields (getCatalogEntry bindView 2 name) s
      (fun r s' => Inv bindView names s' ∧ Found bindView s name r s')
      (fun _ s' => Inv bindView names s' ∧ Refused bindView s name) := by
  obtain ⟨tableColumns, ids, htable, hids, hdescribe⟩ := describe_index bindView hobject
  have hne : fold name ≠ fold table := by
    intro heq
    rw [heq, htable] at hobject
    cases hobject
  have hiff : Readable bindView s.schema (fold name) ↔
      sql = .plain ∧ s.schema.trigger (fold table) = false := by
    simp [Readable, hobject, htrigger]
  refine .bind (.get ?_)
  simp only [hcache, htrigger, hobject, Bool.false_eq_true, if_false]
  by_cases hnull : sql = .null
  · simp only [hnull, if_true]
    refine .throw ⟨h, fun hreadable => ?_⟩
    cases hnull.symm.trans (hiff.mp hreadable).1
  simp only [hnull, if_false]
  refine .bind ((getCatalogEntry_table h htable 0).imp ?_ ?_)
  · rintro r s₁ ⟨rfl, htable', hinv, hschema, hframe⟩
    by_cases hforeign : sql = .foreign
    · simp only [hforeign, if_true]
      refine .throw ⟨hinv, fun hreadable => ?_⟩
      cases hforeign.symm.trans (hiff.mp hreadable).1
    · have hplain : sql = .plain := by cases sql <;> simp_all
      simp only [hforeign, if_false, hids]
      have hfound := insertEntry_found (R := fun _ s' => Inv bindView names s' ∧ Refused bindView s name)
        hinv hname ((hframe _ hne).trans hcache) (hschema ▸ hdescribe)
        (hschema ▸ hiff.mpr ⟨hplain, htable'⟩)
      refine hfound.imp ?_ fun _ _ h => h
      rintro r s₂ ⟨hinv₂, hright, hcached, hreadable, hfree⟩
      rw [hschema] at hright hreadable hfree
      exact ⟨hinv₂, hright, hcached, hreadable, hfree⟩
  · rintro e s₁ ⟨htable', hinv, -⟩
    refine ⟨hinv, fun hreadable => ?_⟩
    cases htable'.symm.trans (hiff.mp hreadable).2

/-- **Every lookup** keeps the invariant. It returns what the schema has if this can be read, and
throws else. -/
theorem getCatalogEntry_yields (h : Inv bindView names s) (hname : name ∈ names) :
    Yields (getCatalogEntry bindView 2 name) s
      (fun r s' => Inv bindView names s' ∧ Found bindView s name r s')
      (fun _ s' => Inv bindView names s' ∧ Refused bindView s name) := by
  cases hcache : s.cache (fold name) with
  | some entry =>
    refine .bind (.get ?_)
    rw [hcache]
    exact .pure ⟨h, (h.right _ _ hcache).symm, hcache, h.readable _ _ hcache, fun h => nomatch h⟩
  | none =>
    by_cases htrigger : s.schema.trigger (fold name) = true
    · refine .bind (.get ?_)
      simp only [hcache, htrigger, if_true]
      refine .throw ⟨h, fun hreadable => ⟨?_, htrigger⟩⟩
      rw [Readable, htrigger] at hreadable
      split at hreadable
      · assumption
      · cases hreadable
      · cases hreadable.1
      · cases hreadable.1
    · have hfalse : s.schema.trigger (fold name) = false := by simpa using htrigger
      match hobject : s.schema.objects (fold name) with
      | some (.index table columns sql) =>
        exact getCatalogEntry_index h hname hcache hobject hfalse
      | none =>
        have hreadable : Readable bindView s.schema (fold name) := by rw [Readable, hobject]; trivial
        refine .bind (.get ?_)
        simp only [hcache, hfalse, hobject, Bool.false_eq_true, if_false]
        exact .pure ⟨h, ((describe_eq_none bindView).mpr hobject).symm, hcache, hreadable,
          fun _ => hfalse⟩
      | some (.table columns) =>
        have hreadable : Readable bindView s.schema (fold name) := by rwa [Readable, hobject]
        refine .bind (.get ?_)
        simp only [hcache, hfalse, hobject, Bool.false_eq_true, if_false]
        exact insertEntry_found h hname hcache (describe_table bindView hobject) hreadable
      | some (.view definition) =>
        refine .bind (.get ?_)
        simp only [hcache, hfalse, hobject, Bool.false_eq_true, if_false]
        cases hbind : bindView s.schema definition with
        | none =>
          refine .throw ⟨h, fun hreadable => ?_⟩
          simp [Readable, hobject, hbind] at hreadable
        | some columns =>
          have hreadable : Readable bindView s.schema (fold name) := by
            simp [Readable, hobject, hbind, hfalse]
          have hdescribe :
              describe bindView s.schema (fold name) = some (.view (some columns)) := by
            rw [describe, hobject, ← hbind]
          exact insertEntry_found h hname hcache hdescribe hreadable

theorem coherent_ok_iff {schema : Schema D} {r : Option Entry} :
    (Lookup.mk schema name (.ok r)).Coherent bindView ↔ r = describe bindView schema (fold name) := by
  simp only [Lookup.Coherent]
  split
  · rename_i hnone
    rw [hnone]
    cases r <;> simp
  · rename_i entry hsome
    rw [hsome]
    simp

theorem coherent_error_iff {schema : Schema D} {e : Exception} :
    (Lookup.mk schema name (.error e)).Coherent bindView ↔ schema.objects (fold name) = none := by
  rw [← describe_eq_none bindView]
  simp only [Lookup.Coherent]
  split
  · rename_i hnone
    simp [hnone]
  · rename_i entry hsome
    simp [hsome]

/-- A lookup adds entries and is recorded. Under the invariant it is right exactly if the object can
be read. -/
structure Looks (bindView : Schema D → D → Option (List Column)) (names : List Name) (name : Name)
    (s s' : State D) : Prop where
  grows : Grows s s'
  inv : Inv bindView names s → Inv bindView names s'
  recorded : ∃ l, s'.lookups = l :: s.lookups ∧
    (Inv bindView names s → (l.Coherent bindView ↔ Readable bindView s.schema (fold name)))

theorem Loads.record {s' : State D} {result : Except Exception (Option Entry)}
    (h : Loads s s') (hinv : Inv bindView names s → Inv bindView names s')
    (hright : Inv bindView names s →
      ((Lookup.mk s.schema name result).Coherent bindView ↔
        Readable bindView s.schema (fold name))) :
    Looks bindView names name s
      { s' with lookups := ⟨s.schema, name, result⟩ :: s'.lookups } where
  grows := ⟨h.schema, h.kept⟩
  inv hs := ⟨(hinv hs).right, (hinv hs).readable, (hinv hs).watched⟩
  recorded := ⟨_, by rw [h.lookups], hright⟩

theorem lookupEntry_yields (hname : name ∈ names) (s : State D) :
    Yields (lookupEntry bindView name) s
      (fun r s' => Looks bindView names name s s' ∧
        (Inv bindView names s → Found bindView s name r s'))
      (fun _ s' => Looks bindView names name s s' ∧
        (Inv bindView names s → Refused bindView s name)) := by
  have hget : Yields (getCatalogEntry bindView 2 name) s
      (fun r s' => Loads s s' ∧ (Inv bindView names s →
        Inv bindView names s' ∧ Found bindView s name r s'))
      (fun _ s' => Loads s s' ∧ (Inv bindView names s →
        Inv bindView names s' ∧ Refused bindView s name)) := by
    by_cases h : Inv bindView names s
    · exact ((getCatalogEntry_loads 2 name s).and (getCatalogEntry_yields h hname)).imp
        (fun _ _ hr => ⟨hr.1, fun _ => hr.2⟩) fun _ _ hr => ⟨hr.1, fun _ => hr.2⟩
    · exact (getCatalogEntry_loads 2 name s).imp
        (fun _ _ hr => ⟨hr, fun hinv => absurd hinv h⟩) fun _ _ hr => ⟨hr, fun hinv => absurd hinv h⟩
  refine .bind (.get (.tryCatch (.bind (hget.imp ?_ ?_))))
  · rintro r s' ⟨hloads, hinv⟩
    refine .bind (.modify (.pure ⟨hloads.record (fun h => (hinv h).1) fun h => ?_, fun h => ?_⟩))
    · rw [coherent_ok_iff]
      exact iff_of_true (hinv h).2.right (hinv h).2.readable
    · obtain ⟨hright, hcached, hreadable, hfree⟩ := (hinv h).2
      exact ⟨hright, hcached, hreadable, hfree⟩
  · rintro e s' ⟨hloads, hinv⟩
    refine .bind (.modify (.throw ⟨hloads.record (fun h => (hinv h).1) fun h => ?_,
      fun h => (hinv h).2⟩))
    rw [coherent_error_iff]
    refine ⟨fun hnone => ?_, fun hreadable => ((hinv h).2 hreadable).1⟩
    rw [Readable, hnone]
    trivial

theorem step_of_yields (sqlite : Sqlite D) {c : Call D} {P : State D → Prop}
    (h : Yields (call bindView sqlite c) s (fun _ => P) (fun _ => P)) :
    ∃ s', step bindView sqlite s c = .ok s' ∧ P s' := by
  rcases h with ⟨r, s', hcall, h⟩ | ⟨e, s', hcall, h⟩
  · exact ⟨s', by simp [CatalogCache.step, hcall, bind, Except.bind, pure, Except.pure], h⟩
  · exact ⟨s', by simp [CatalogCache.step, hcall, bind, Except.bind, pure, Except.pure], h⟩

/-- A name with an entry is answered from the map. -/
theorem step_lookup_of_cache (sqlite : Sqlite D) {entry : Entry}
    (hcache : s.cache (fold name) = some entry) :
    step bindView sqlite s (.lookup name) =
      .ok { s with lookups := ⟨s.schema, name, .ok (some entry)⟩ :: s.lookups } := by
  have hget : Yields (getCatalogEntry bindView 2 name) s (fun r s' => r = some entry ∧ s' = s)
      (fun _ _ => False) := by
    refine .bind (.get ?_)
    rw [hcache]
    exact .pure ⟨rfl, rfl⟩
  have hlookup : Yields (lookupEntry bindView name) s (fun _ s' => s' =
      { s with lookups := ⟨s.schema, name, .ok (some entry)⟩ :: s.lookups }) (fun _ _ => False) := by
    refine .bind (.get (.tryCatch (.bind (hget.imp ?_ fun _ _ h => h.elim))))
    rintro r s' ⟨rfl, rfl⟩
    exact .bind (.modify (.pure rfl))
  obtain ⟨s', hstep, rfl⟩ := step_of_yields (c := .lookup name) sqlite
    (hlookup.imp (fun _ _ h => h) fun _ _ h => h.elim)
  exact hstep

end Lookups

/-! ### Changes -/

section Changes

variable {D : Type} {bindView : Schema D → D → Option (List Column)} {names : List Name}

/-- What becomes of an object that a change does not name. -/
structure Stays (s s' : Schema D) (k : Name) : Prop where
  row : s.trigger k = false → s'.trigger k = false
  sql : ∀ table columns sql, s.objects k = some (.index table columns sql) →
    ∀ object, s'.objects k = some object → ∃ table' columns', object = .index table' columns' sql
  owner : ∀ table columns sql, s.objects k = some (.index table columns sql) →
    s.trigger (fold table) = false → s'.trigger (fold table) = false

variable {s s' : Schema D}

/-- What could be read can still be read, if it has the same description. -/
theorem Readable.of_stays {k : Name} (h : Readable bindView s k)
    (hstays : Stays s s' k) (hsame : describe bindView s' k = describe bindView s k) :
    Readable bindView s' k := by
  match hobject : s.objects k with
  | none =>
    have hnone := (describe_eq_none bindView).mp
      (hsame.trans ((describe_eq_none bindView).mpr hobject))
    rw [Readable, hnone]
    trivial
  | some (.table columns) =>
    have hobject' := objects_of_describe bindView (hsame.trans (describe_table bindView hobject))
    rw [Readable, hobject] at h
    rw [Readable, hobject']
    exact hstays.row h
  | some (.view definition) =>
    rw [describe.eq_1 bindView s, hobject] at hsame
    obtain ⟨definition', hobject', hbind⟩ := objects_of_describe bindView hsame
    rw [Readable, hobject] at h
    rw [Readable, hobject']
    exact ⟨hstays.row h.1, hbind ▸ h.2⟩
  | some (.index table columns sql) =>
    rw [describe.eq_1 bindView s, hobject] at hsame
    obtain ⟨sql', hobject'⟩ := objects_of_describe bindView hsame
    obtain ⟨_, _, heq⟩ := hstays.sql _ _ _ hobject _ hobject'
    cases heq
    rw [Readable, hobject] at h
    rw [Readable, hobject']
    exact ⟨hstays.row h.1, h.2.1, hstays.owner _ _ _ hobject h.2.2⟩

theorem isSome_of_describe_eq {k : Name} (h : (s.objects k).isSome)
    (hsame : describe bindView s' k = describe bindView s k) : (s'.objects k).isSome := by
  rw [Option.isSome_iff_ne_none] at h ⊢
  rwa [Ne, ← describe_eq_none bindView, hsame, describe_eq_none bindView]

theorem isSome_owner {s : Schema D} {k table : Name} {columns : List Name} {sql : IndexSql}
    (h : s.objects k = some (.index table columns sql)) : (s.objects (fold table)).isSome := by
  obtain ⟨_, htable, -⟩ := s.owned _ _ _ _ h
  rw [htable]
  rfl

/-- The owner of an index that has the same description. -/
theorem isSome_owner_of_describe_eq {k table : Name} {columns : List Name}
    {sql : IndexSql} (h : s.objects k = some (.index table columns sql))
    (hsame : describe bindView s' k = describe bindView s k) :
    (s'.objects (fold table)).isSome := by
  rw [describe.eq_1 bindView s, h] at hsame
  obtain ⟨sql', h'⟩ := objects_of_describe bindView hsame
  exact isSome_owner h'

variable (sqlite : Sqlite D) {statement : Statement D}

/-- One statement. -/
theorem stays_execute {k : Name}
    (hexecute : sqlite.execute statement s = some s') (htarget : statement.target ≠ some k)
    (hobject : (s.objects k).isSome) (hsame : describe bindView s' k = describe bindView s k) :
    Stays s s' k where
  row := sqlite.keeps_rows _ _ _ _ hexecute hobject (isSome_of_describe_eq hobject hsame)
  sql _ _ _ hindex _ hobject' := sqlite.keeps_indexes _ _ _ _ _ _ _ _ hexecute hindex hobject' htarget
  owner _ _ _ hindex := sqlite.keeps_rows _ _ _ _ hexecute (isSome_owner hindex)
    (isSome_owner_of_describe_eq hindex hsame)

/-- An object of another name survives `DROP` in a pair of `DROP` and `CREATE` after which it is as
before. -/
theorem isSome_between {name k : Name}
    {s s₁ s₂ : Schema D} (hcreate : sqlite.execute statement s₁ = some s₂)
    (hcreates : statement.creates = some (fold name)) (hk : fold name ≠ k)
    (hreadable : Readable bindView s k) (htable : ∀ columns, s.objects k ≠ some (.table columns))
    (hobject : (s.objects k).isSome) (hsame : describe bindView s₂ k = describe bindView s k) :
    (s₁.objects k).isSome := by
  by_contra hnone
  rw [Bool.not_eq_true, Option.isSome_eq_false_iff, Option.isNone_iff_eq_none] at hnone
  rcases sqlite.creates _ _ _ _ hcreate hnone (isSome_of_describe_eq hobject hsame) with h | h
  · exact hk (Option.some.inj (hcreates.symm.trans h))
  · -- the name is one of SQLite's own
    obtain ⟨object, hsome⟩ := Option.isSome_iff_exists.mp hobject
    rcases s.of_reserved k object h hsome with htype | ⟨table, columns, rfl⟩
    · cases object with
      | table columns => exact htable columns hsome
      | view _ | index _ _ _ => cases htype
    · rw [Readable, hsome] at hreadable
      cases hreadable.2.1

/-- `DROP` and `CREATE` of another name. -/
theorem stays_replace {type : CatalogType} {name k : Name}
    {s s₁ s₂ : Schema D} (hdrop : sqlite.execute (.drop type name) s = some s₁)
    (hcreate : sqlite.execute statement s₁ = some s₂)
    (htarget : statement.target = none) (hcreates : statement.creates = some (fold name))
    (hk : fold name ≠ k) (hreadable : Readable bindView s k) (hobject : (s.objects k).isSome)
    (hsame : describe bindView s₂ k = describe bindView s k) : Stays s s₂ k := by
  have hdropped : (Statement.drop type name : Statement D).target ≠ some k := by
    simpa [Statement.target] using hk
  have hcreated : ∀ k', statement.target ≠ some k' := by simp [htarget]
  have hbetween : (s₁.objects k).isSome := by
    by_cases htable : ∃ columns, s.objects k = some (.table columns)
    · obtain ⟨columns, htable⟩ := htable
      rw [sqlite.keeps_tables _ _ _ _ _ hdrop htable hdropped]
      rfl
    · exact isSome_between sqlite hcreate hcreates hk hreadable (not_exists.mp htable) hobject hsame
  have hafter := isSome_of_describe_eq hobject hsame
  refine ⟨fun hrow => ?_, fun table columns sql hindex object₂ hobject₂ => ?_,
    fun table columns sql hindex hrow => ?_⟩
  · exact sqlite.keeps_rows _ _ _ _ hcreate hbetween hafter
      (sqlite.keeps_rows _ _ _ _ hdrop hobject hbetween hrow)
  · obtain ⟨object₁, hobject₁⟩ := Option.isSome_iff_exists.mp hbetween
    obtain ⟨_, _, rfl⟩ := sqlite.keeps_indexes _ _ _ _ _ _ _ _ hdrop hindex hobject₁ hdropped
    exact sqlite.keeps_indexes _ _ _ _ _ _ _ _ hcreate hobject₁ hobject₂ (hcreated k)
  · -- the table of the index is not the one that is dropped
    obtain ⟨tableColumns, htable, -⟩ := s.owned _ _ _ _ hindex
    have hne : fold name ≠ fold table := by
      intro heq
      obtain ⟨object, hsome, htype⟩ := sqlite.drop_type _ _ _ _ hdrop
      rw [heq, htable] at hsome
      cases hsome
      cases htype
      rw [sqlite.drop_table _ _ _ _ _ _ _ hdrop hindex heq.symm] at hbetween
      cases hbetween
    have htable₁ := sqlite.keeps_tables _ _ _ _ _ hdrop htable
      (by simpa [Statement.target] using hne)
    have hsome₁ : (s₁.objects (fold table)).isSome := by rw [htable₁]; rfl
    exact sqlite.keeps_rows _ _ _ _ hcreate hsome₁ (isSome_owner_of_describe_eq hindex hsame)
      (sqlite.keeps_rows _ _ _ _ hdrop (isSome_owner hindex) hsome₁ hrow)

/-- What the statements of a change with a given target can be. -/
inductive Shape (target : Option Name) : List (Statement D) → Prop
  | nothing : Shape target []
  | one {statement : Statement D} (h : statement.target = none ∨ statement.target = target) :
      Shape target [statement]
  | replace {type : CatalogType} {name : Name} {statement : Statement D}
      (htarget : target = some (fold name)) (hnone : statement.target = none)
      (hcreates : statement.creates = some (fold name)) :
      Shape target [.drop type name, statement]

theorem shape_replacing (s : Schema D) (type : CatalogType) (name : Name) (onConflict : OnConflict)
    (hnone : statement.target = none)
    (hcreates : statement.creates = some (fold name)) :
    Shape (if onConflict = .replace then some (fold name) else none)
      (replacing s type name onConflict statement) := by
  rw [replacing]
  split
  · split
    · exact .replace rfl hnone hcreates
    split
    · exact .nothing
    · exact .one (.inl hnone)
  · exact .one (.inl hnone)

theorem shape_statements (s : Schema D) (c : Change D) : Shape c.target (c.statements s) := by
  cases c with
  | createTable name columns onConflict => exact shape_replacing s _ _ _ rfl rfl
  | createView name definition sqlEmpty onConflict =>
    cases sqlEmpty with
    | true => exact .nothing
    | false => exact shape_replacing s _ _ _ rfl rfl
  | createIndex name table columns onConflict => exact .one (.inl rfl)
  | drop type name ifExists =>
    rw [Change.statements]
    split
    · exact .one (.inr rfl)
    · exact .nothing
  | alter isTable name info =>
    rw [Change.statements.eq_def]
    cases isTable <;> cases info <;> dsimp only
    all_goals first
      | exact .nothing
      | exact .one (.inr rfl)
      | split
        · exact .nothing
        · exact .one (.inr rfl)

/-- What a change leaves: the schema itself, or that after one statement, or that after a pair of
`DROP` and `CREATE`. -/
theorem effect_cases (s : Schema D) (c : Change D) :
    c.effect sqlite s = s ∨
    (∃ statement, sqlite.execute statement s = some (c.effect sqlite s) ∧
      (statement.target = none ∨ statement.target = c.target)) ∨
    ∃ type name statement s₁, sqlite.execute (.drop type name) s = some s₁ ∧
      sqlite.execute statement s₁ = some (c.effect sqlite s) ∧
      c.target = some (fold name) ∧ statement.target = none ∧
      statement.creates = some (fold name) := by
  have hshape := shape_statements s c
  rw [Change.effect]
  generalize c.statements s = statements at hshape ⊢
  cases hshape with
  | nothing => exact .inl rfl
  | @one statement h =>
    rw [Sqlite.executeAll]
    cases hexecute : sqlite.execute statement s with
    | none => exact .inl rfl
    | some s' => exact .inr (.inl ⟨statement, hexecute, h⟩)
  | @replace type name statement htarget hnone hcreates =>
    rw [Sqlite.executeAll]
    cases hdrop : sqlite.execute (.drop type name) s with
    | none => exact .inl rfl
    | some s₁ =>
      simp only [Sqlite.executeAll]
      cases hcreate : sqlite.execute statement s₁ with
      | none => exact .inr (.inl ⟨_, hdrop, .inr htarget.symm⟩)
      | some s₂ =>
        exact .inr (.inr ⟨type, name, statement, s₁, hdrop, hcreate, htarget, hnone, hcreates⟩)

variable {c : Change D}

/-- A change keeps the tables that it does not name. -/
theorem objects_effect_of_table {s : Schema D} {k : Name} {columns : List Column}
    (htarget : c.target ≠ some k) (h : s.objects k = some (.table columns)) :
    (c.effect sqlite s).objects k = some (.table columns) := by
  rcases effect_cases sqlite s c with heq | ⟨statement, hexecute, htarget'⟩ |
    ⟨type, name, statement, s₁, hdrop, hcreate, hc, hnone, -⟩
  · rwa [heq]
  · refine sqlite.keeps_tables _ _ _ _ _ hexecute h ?_
    rcases htarget' with h' | h' <;> rw [h']
    · exact fun h => nomatch h
    · exact htarget
  · rw [hc] at htarget
    have h₁ := sqlite.keeps_tables _ _ _ _ _ hdrop h htarget
    exact sqlite.keeps_tables _ _ _ _ _ hcreate h₁ (by rw [hnone]; exact fun h => nomatch h)

/-- What a change does not name or disturb can be read afterwards. -/
theorem Readable.effect {s : Schema D} {k : Name} (h : Readable bindView s k)
    (htarget : c.target ≠ some k) (hobject : (s.objects k).isSome)
    (hsame : describe bindView (c.effect sqlite s) k = describe bindView s k) :
    Readable bindView (c.effect sqlite s) k := by
  rcases effect_cases sqlite s c with heq | ⟨statement, hexecute, htarget'⟩ |
    ⟨type, name, statement, s₁, hdrop, hcreate, hc, hnone, hcreates⟩
  · rwa [heq]
  · refine h.of_stays (stays_execute sqlite hexecute ?_ hobject hsame) hsame
    rcases htarget' with h' | h' <;> rw [h']
    · exact fun h => nomatch h
    · exact htarget
  · rw [hc, Ne, Option.some_inj] at htarget
    exact h.of_stays
      (stays_replace sqlite hdrop hcreate hnone hcreates htarget h hobject hsame) hsame

/-- **A change that disturbs nothing leaves the map right**, apart from the entry that it erases. -/
theorem Inv.effect {s s' : State D} (h : Inv bindView names s)
    (hsafe : ∀ name ∈ names, ¬ c.Disturbs bindView sqlite s.schema (fold name))
    (hschema : s'.schema = c.effect sqlite s.schema)
    (hcache : ∀ k entry, s'.cache k = some entry → s.cache k = some entry ∧
      (c.target ≠ some k ∨ c.effect sqlite s.schema = s.schema)) : Inv bindView names s' := by
  have hsame : ∀ k entry, s.cache k = some entry → c.target ≠ some k →
      describe bindView (c.effect sqlite s.schema) k = describe bindView s.schema k := by
    intro k entry hk htarget
    rcases h.watched k entry hk with ⟨columns, rfl⟩ | ⟨name, hname, rfl⟩
    · have htable := objects_of_describe bindView (h.right k _ hk)
      rw [h.right k _ hk, describe_table bindView (objects_effect_of_table sqlite htarget htable)]
    · by_contra hne
      refine hsafe name hname ⟨htarget, ?_, hne⟩
      rw [Ne, ← describe_eq_none bindView, h.right _ _ hk]
      exact fun h => nomatch h
  refine ⟨fun k entry hk => ?_, fun k entry hk => ?_, fun k entry hk => ?_⟩
  · obtain ⟨hold, htarget | heq⟩ := hcache k entry hk
    · rw [hschema, hsame k entry hold htarget, h.right k entry hold]
    · rw [hschema, heq, h.right k entry hold]
  · obtain ⟨hold, htarget | heq⟩ := hcache k entry hk
    · rw [hschema]
      refine (h.readable k entry hold).effect sqlite htarget ?_ (hsame k entry hold htarget)
      rw [Option.isSome_iff_ne_none, Ne, ← describe_eq_none bindView, h.right k entry hold]
      exact fun h => nomatch h
    · rw [hschema, heq]
      exact h.readable k entry hold
  · exact h.watched k entry (hcache k entry hk).1

/-- A state that lookups of a change have been made in, and all of them were right. -/
structure Ready (bindView : Schema D → D → Option (List Column)) (names : List Name)
    (s s' : State D) : Prop where
  grows : Grows s s'
  inv : Inv bindView names s'
  judged : ∀ l ∈ s'.lookups, l ∈ s.lookups ∨ l.Coherent bindView

theorem Inv.ready {s : State D} (h : Inv bindView names s) : Ready bindView names s s :=
  ⟨(Loads.refl s).toGrows, h, fun _ hl => .inl hl⟩

theorem Looks.ready {s s' : State D} {name : Name} (h : Looks bindView names name s s')
    (hinv : Inv bindView names s) (hreadable : Readable bindView s.schema (fold name)) :
    Ready bindView names s s' := by
  obtain ⟨l, hlookups, hright⟩ := h.recorded
  refine ⟨h.grows, h.inv hinv, fun l' hl' => ?_⟩
  rw [hlookups] at hl'
  rcases List.mem_cons.mp hl' with rfl | hl'
  · exact .inr ((hright hinv).mpr hreadable)
  · exact .inl hl'

/-- What a change does. The map is right afterwards, and the lookups that the change makes are, if
it disturbs nothing. -/
structure Changes (bindView : Schema D → D → Option (List Column)) (sqlite : Sqlite D)
    (names : List Name) (c : Change D) (s s' : State D) : Prop where
  schema : s'.schema = c.effect sqlite s.schema
  kept : ∀ k entry, s.cache k = some entry → c.target ≠ some k → s'.cache k = some entry
  inv : (∀ name ∈ names, ¬ c.Disturbs bindView sqlite s.schema (fold name)) → Inv bindView names s'
  judged : (∀ name ∈ names, ¬ c.Disturbs bindView sqlite s.schema (fold name)) →
    (∀ name ∈ names, Readable bindView s'.schema (fold name)) →
    ∀ l ∈ s'.lookups, l ∈ s.lookups ∨ l.Coherent bindView

/-- A change that erases no entry. -/
theorem Ready.changes {s s₁ s' : State D} (h : Ready bindView names s s₁)
    (hschema : s'.schema = c.effect sqlite s.schema) (hlookups : s'.lookups = s₁.lookups)
    (hcache : s'.cache = s₁.cache)
    (hnone : c.target = none ∨ c.effect sqlite s.schema = s.schema) :
    Changes bindView sqlite names c s s' where
  schema := hschema
  kept k entry hk _ := by rw [hcache]; exact h.grows.kept k entry hk
  inv hsafe := by
    refine h.inv.effect sqlite (by rwa [h.grows.schema]) (by rwa [h.grows.schema]) ?_
    intro k entry hk
    rw [h.grows.schema, ← hcache]
    exact ⟨hk, hnone.imp_left fun hnone => by rw [hnone]; exact fun h => nomatch h⟩
  judged _ _ := by rw [hlookups]; exact h.judged

/-- A change that erases the entry of its target. -/
theorem Ready.erases {s s₁ s' : State D} {k₀ : Name} (h : Ready bindView names s s₁)
    (hschema : s'.schema = c.effect sqlite s.schema) (hlookups : s'.lookups = s₁.lookups)
    (htarget : c.target = some k₀) (hcache : s'.cache = Function.update s₁.cache k₀ none) :
    Changes bindView sqlite names c s s' where
  schema := hschema
  kept k entry hk hne := by
    rw [htarget, Ne, Option.some_inj] at hne
    rw [hcache, Function.update_of_ne (Ne.symm hne)]
    exact h.grows.kept k entry hk
  inv hsafe := by
    refine h.inv.effect sqlite (by rwa [h.grows.schema]) (by rwa [h.grows.schema]) ?_
    intro k entry hk
    have hne : k ≠ k₀ := by
      rintro rfl
      rw [hcache, Function.update_self] at hk
      cases hk
    rw [hcache, Function.update_of_ne hne] at hk
    refine ⟨hk, .inl ?_⟩
    rw [htarget, Ne, Option.some_inj]
    exact Ne.symm hne
  judged _ _ := by rw [hlookups]; exact h.judged

/-- The lookup at the end of `CREATE`. -/
theorem Changes.looks {s s₁ s' : State D} {name : Name}
    (h : Changes bindView sqlite names c s s₁) (hname : name ∈ names)
    (hlooks : Looks bindView names name s₁ s') : Changes bindView sqlite names c s s' where
  schema := hlooks.grows.schema.trans h.schema
  kept k entry hk htarget := hlooks.grows.kept k entry (h.kept k entry hk htarget)
  inv hsafe := hlooks.inv (h.inv hsafe)
  judged hsafe hreadable l hl := by
    obtain ⟨l₀, hlookups, hright⟩ := hlooks.recorded
    rw [hlooks.grows.schema] at hreadable
    rw [hlookups] at hl
    rcases List.mem_cons.mp hl with rfl | hl
    · exact .inr ((hright (h.inv hsafe)).mpr (hreadable name hname))
    · exact h.judged hsafe hreadable l hl

variable {s : State D}

/-- `SQLiteSchemaEntry::DropEntry` of a name that can be read. -/
theorem dropEntry_yields (h : Inv bindView names s) {type : CatalogType} {name : Name}
    {ifExists : Bool} (hname : name ∈ names) (hreadable : Readable bindView s.schema (fold name)) :
    Yields (dropEntry bindView sqlite type name ifExists) s
      (fun _ s' => ∃ s₁, Ready bindView names s s₁ ∧ s'.lookups = s₁.lookups ∧
        s'.cache = Function.update s₁.cache (fold name) none ∧
        (s.schema.objects (fold name) = none ∧ s.schema.trigger (fold name) = false ∧
            s'.schema = s.schema ∨
          (s.schema.objects (fold name)).isSome ∧
            sqlite.execute (.drop type name) s.schema = some s'.schema))
      (fun _ s' => s'.schema = s.schema ∧ ∃ s₁, Ready bindView names s s₁ ∧
        s'.lookups = s₁.lookups ∧
        (s'.cache = s₁.cache ∨ s'.cache = Function.update s₁.cache (fold name) none) ∧
        (s.schema.objects (fold name) = none ∧
            (ifExists = false ∨ s.schema.trigger (fold name) = true) ∨
          (s.schema.objects (fold name)).isSome ∧
            sqlite.execute (.drop type name) s.schema = none)) := by
  refine .bind ((lookupEntry_yields hname s).imp ?_ ?_)
  · rintro r s₁ ⟨hlooks, hfound⟩
    have hready := hlooks.ready h hreadable
    obtain ⟨hright, hcached, -, hfree⟩ := hfound h
    cases r with
    | none =>
      have hnone := (describe_eq_none bindView).mp hright.symm
      cases ifExists with
      | true =>
        refine .pure ⟨s₁, hready, rfl, ?_, .inl ⟨hnone, hfree rfl, hready.grows.schema⟩⟩
        rw [← hcached, Function.update_eq_self]
      | false =>
        exact .throw ⟨hready.grows.schema, s₁, hready, rfl, .inl rfl, .inl ⟨hnone, .inl rfl⟩⟩
    | some entry =>
      have hsome : (s.schema.objects (fold name)).isSome := by
        rw [Option.isSome_iff_ne_none, Ne, ← describe_eq_none bindView, ← hright]
        exact fun h => nomatch h
      refine .bind (.modify (.bind (.get ?_)))
      simp only [hready.grows.schema]
      cases hexecute : sqlite.execute (.drop type name) s.schema with
      | none =>
        exact .throw ⟨rfl, s₁, hready, rfl, .inr rfl, .inr ⟨hsome, rfl⟩⟩
      | some schema => exact .modify ⟨s₁, hready, rfl, rfl, .inr ⟨hsome, rfl⟩⟩
  · rintro e s₁ ⟨hlooks, hrefused⟩
    have hready := hlooks.ready h hreadable
    obtain ⟨hnone, htrigger⟩ := hrefused h hreadable
    exact ⟨hready.grows.schema, s₁, hready, rfl, .inl rfl, .inl ⟨hnone, .inr htrigger⟩⟩

theorem execute_yields (statement : Statement D) (s : State D) :
    Yields (execute sqlite statement) s
      (fun _ s' => s' = { s with schema := sqlite.executeAll s.schema [statement] })
      (fun _ s' => s' = s ∧ sqlite.executeAll s.schema [statement] = s.schema) := by
  refine .bind (.get ?_)
  cases hexecute : sqlite.execute statement s.schema with
  | none => exact .throw ⟨rfl, by simp [Sqlite.executeAll, hexecute]⟩
  | some schema => exact .modify (by simp [Sqlite.executeAll, hexecute])

/-- `CREATE` of a table or a view after what it replaces, with its lookup. -/
theorem create_yields {s₁ : State D} {name : Name} (hname : name ∈ names)
    (h : Changes bindView sqlite names c s
      { s₁ with schema := sqlite.executeAll s₁.schema [statement] }) :
    Yields (do
      execute sqlite statement
      lookupEntry bindView name) s₁ (fun _ => Changes bindView sqlite names c s)
      (fun _ => Changes bindView sqlite names c s) := by
  refine .bind ((execute_yields sqlite statement s₁).imp ?_ ?_)
  · rintro - _ rfl
    refine (lookupEntry_yields hname _).imp ?_ ?_
    · exact fun _ _ hlooks => h.looks sqlite hname hlooks.1
    · exact fun _ _ hlooks => h.looks sqlite hname hlooks.1
  · rintro e _ ⟨rfl, hsame⟩
    rwa [hsame] at h

/-- What `CREATE TABLE` and `CREATE VIEW` have in common. -/
theorem createOrReplace_yields (h : Inv bindView names s) {type : CatalogType}
    {name : Name} {onConflict : OnConflict} (hname : name ∈ names)
    (hreadable : Readable bindView s.schema (fold name))
    (hstatements : c.statements s.schema =
      replacing s.schema type name onConflict statement)
    (htarget : c.target = if onConflict = .replace then some (fold name) else none) :
    Yields (do
      if onConflict = .replace then
        dropEntry bindView sqlite type name true
      execute sqlite statement
      lookupEntry bindView name) s (fun _ => Changes bindView sqlite names c s)
      (fun _ => Changes bindView sqlite names c s) := by
  have heffect : c.effect sqlite s.schema = sqlite.executeAll s.schema
      (replacing s.schema type name onConflict statement) := by rw [Change.effect, hstatements]
  by_cases hreplace : onConflict = .replace
  · simp only [replacing, hreplace, if_true] at heffect htarget ⊢
    refine .bind ((dropEntry_yields sqlite h hname hreadable).imp ?_ ?_)
    · rintro - s₁ ⟨s₀, hready, hlookups, hcache, ⟨hnone, htrigger, hschema⟩ | ⟨hsome, hdrop⟩⟩
      · simp only [hnone, htrigger, Option.isSome_none, Bool.false_eq_true, if_false] at heffect
        refine create_yields sqlite hname (hready.erases sqlite ?_ hlookups htarget hcache)
        rw [heffect, hschema]
      · rw [if_pos hsome, Sqlite.executeAll, hdrop] at heffect
        exact create_yields sqlite hname
          (hready.erases sqlite heffect.symm hlookups htarget hcache)
    · rintro e s₁ ⟨hschema, s₀, hready, hlookups, hcache, hcase⟩
      have hsame : c.effect sqlite s.schema = s.schema := by
        rw [heffect]
        rcases hcase with ⟨hnone, hfalse | htrigger⟩ | ⟨hsome, hdrop⟩
        · cases hfalse
        · simp [hnone, htrigger, Sqlite.executeAll]
        · simp [hsome, Sqlite.executeAll, hdrop]
      rcases hcache with hcache | hcache
      · exact hready.changes sqlite (hschema.trans hsame.symm) hlookups hcache (.inr hsame)
      · exact hready.erases sqlite (hschema.trans hsame.symm) hlookups htarget hcache
  · simp only [replacing, hreplace, if_false] at heffect htarget ⊢
    exact create_yields sqlite hname (h.ready.changes sqlite heffect.symm rfl rfl (.inl htarget))

/-- A statement that alters a table, and then the entry of the table is erased. -/
theorem executeAndErase_yields (h : Inv bindView names s)
    {name : Name} (hstatements : c.statements s.schema = [statement])
    (htarget : c.target = some (fold name)) :
    Yields (execute sqlite statement) s
      (fun _ s' => Yields (eraseEntry name) s' (fun _ => Changes bindView sqlite names c s)
        (fun _ => Changes bindView sqlite names c s))
      (fun _ => Changes bindView sqlite names c s) := by
  have heffect : c.effect sqlite s.schema = sqlite.executeAll s.schema [statement] := by
    rw [Change.effect, hstatements]
  refine (execute_yields sqlite statement s).imp ?_ ?_
  · rintro - _ rfl
    exact .modify (h.ready.erases sqlite heffect.symm rfl htarget rfl)
  · rintro e _ ⟨rfl, hsame⟩
    rw [hsame] at heffect
    exact h.ready.changes sqlite heffect.symm rfl rfl (.inr heffect)

theorem alter_yields (h : Inv bindView names s) (isTable : Bool) (name : Name)
    (info : AlterTableInfo) :
    Yields (alter sqlite isTable name info) s
      (fun _ => Changes bindView sqlite names (.alter isTable name info) s)
      (fun _ => Changes bindView sqlite names (.alter isTable name info) s) := by
  cases isTable with
  | false => exact .throw (h.ready.changes sqlite rfl rfl rfl (.inr rfl))
  | true =>
    refine .bind ?_
    cases info with
    | renameTable newName | renameColumn oldName newName =>
      exact executeAndErase_yields sqlite h rfl rfl
    | addColumn column flag | removeColumn column flag =>
      refine .bind (.get ?_)
      split
      · rename_i hexists
        refine .pure (.modify (h.ready.erases sqlite ?_ rfl rfl rfl))
        simp [Change.effect, Change.statements, hexists, Sqlite.executeAll]
      · rename_i hexists
        exact executeAndErase_yields sqlite h (by rw [Change.statements, if_neg hexists]) rfl
    | unsupported => exact .throw (h.ready.changes sqlite rfl rfl rfl (.inr rfl))

/-- **Every change**, from a state in which the map is right and its name can be read. -/
theorem change_yields (h : Inv bindView names s) (c : Change D) (hname : c.name ∈ names)
    (hreadable : Readable bindView s.schema (fold c.name)) :
    Yields (change bindView sqlite c) s (fun _ => Changes bindView sqlite names c s)
      (fun _ => Changes bindView sqlite names c s) := by
  cases c with
  | createTable name columns onConflict =>
    exact createOrReplace_yields sqlite h hname hreadable rfl rfl
  | createView name definition sqlEmpty onConflict =>
    cases sqlEmpty with
    | true => exact .bind (.throw (h.ready.changes sqlite rfl rfl rfl (.inr rfl)))
    | false => exact createOrReplace_yields sqlite h hname hreadable rfl rfl
  | createIndex name table columns onConflict =>
    refine .bind ((execute_yields sqlite _ s).imp ?_ ?_)
    · rintro - _ rfl
      exact .pure (h.ready.changes sqlite rfl rfl rfl (.inl rfl))
    · rintro e _ ⟨rfl, hsame⟩
      exact h.ready.changes sqlite hsame.symm rfl rfl (.inl rfl)
  | drop type name ifExists =>
    have hname : name ∈ names := hname
    refine .bind ((dropEntry_yields sqlite h hname hreadable).imp ?_ ?_)
    · rintro - s₁ ⟨s₀, hready, hlookups, hcache, ⟨hnone, -, hschema⟩ | ⟨hsome, hdrop⟩⟩
      · refine .pure (hready.erases sqlite (hschema.trans ?_) hlookups rfl hcache)
        simp [Change.effect, Change.statements, hnone, Sqlite.executeAll]
      · refine .pure (hready.erases sqlite ?_ hlookups rfl hcache)
        simp [Change.effect, Change.statements, hsome, Sqlite.executeAll, hdrop]
    · rintro e s₁ ⟨hschema, s₀, hready, hlookups, hcache, hcase⟩
      have hsame : (Change.drop type name ifExists).effect sqlite s.schema = s.schema := by
        rcases hcase with ⟨hnone, -⟩ | ⟨hsome, hdrop⟩
        · simp [Change.effect, Change.statements, hnone, Sqlite.executeAll]
        · simp [Change.effect, Change.statements, hsome, Sqlite.executeAll, hdrop]
      rcases hcache with hcache | hcache
      · exact hready.changes sqlite (hschema.trans hsame.symm) hlookups hcache (.inr hsame)
      · exact hready.erases sqlite (hschema.trans hsame.symm) hlookups rfl hcache
  | alter isTable name info =>
    exact .bind ((alter_yields sqlite h isTable name info).imp (fun _ _ h' => .pure h')
      fun _ _ h' => h')

end Changes

/-! ### Runs -/

section Runs

variable {D : Type} (bindView : Schema D → D → Option (List Column)) (sqlite : Sqlite D)

/-- The lookups of a transaction, from a state on. -/
def lookups (s : State D) (calls : List (Call D)) : List (Lookup D) :=
  match run (step bindView sqlite) s calls with
  | .ok s' => s'.lookups

/-- Lookups of the names are made between changes, up to some point of the sequence. -/
def Placed (names : List Name) (changes : List (Change D)) (calls : List (Call D)) : Prop :=
  calls.filterMap Call.change? <+: changes ∧ ∀ name, .lookup name ∈ calls → name ∈ names

variable {bindView} {names : List Name} {s : State D}

theorem lookups_nil : lookups bindView sqlite s [] = s.lookups := rfl

theorem lookups_cons {s' : State D} {c : Call D} (h : step bindView sqlite s c = .ok s')
    (calls : List (Call D)) :
    lookups bindView sqlite s (c :: calls) = lookups bindView sqlite s' calls := by
  rw [lookups, run_cons_of_ok h, lookups]

variable {changes : List (Change D)}

theorem Placed.lookup {calls : List (Call D)} {name : Name}
    (hname : name ∈ names) (h : Placed names changes calls) :
    Placed names changes (.lookup name :: calls) := by
  refine ⟨h.1, fun name' hname' => ?_⟩
  rcases List.mem_cons.mp hname' with heq | hname'
  · cases heq
    exact hname
  · exact h.2 name' hname'

theorem Placed.change {calls : List (Call D)} (c : Change D)
    (h : Placed names changes calls) : Placed names (c :: changes) (.change c :: calls) :=
  ⟨List.cons_prefix_cons.mpr ⟨rfl, h.1⟩, fun name' hname' => h.2 name' (by simpa using hname')⟩

theorem placed_nil (names : List Name) (changes : List (Change D)) : Placed names changes [] :=
  ⟨List.nil_prefix, fun _ h => nomatch h⟩

/-- One lookup, and the entry that it leaves. -/
theorem step_lookup (name : Name) (hname : name ∈ names) :
    ∃ s', step bindView sqlite s (.lookup name) = .ok s' ∧ Looks bindView names name s s' ∧
      (Inv bindView names s → Readable bindView s.schema (fold name) →
        (s.schema.objects (fold name)).isSome →
        s'.cache (fold name) = describe bindView s.schema (fold name)) := by
  refine step_of_yields sqlite ((lookupEntry_yields hname s).imp ?_ ?_)
  · rintro r s' ⟨hlooks, hfound⟩
    exact ⟨hlooks, fun hinv _ _ => (hfound hinv).cached.trans (hfound hinv).right⟩
  · rintro e s' ⟨hlooks, hrefused⟩
    refine ⟨hlooks, fun hinv hreadable hsome => ?_⟩
    rw [(hrefused hinv hreadable).1] at hsome
    cases hsome

theorem step_change (h : Inv bindView names s) (c : Change D) (hname : c.name ∈ names)
    (hreadable : ∀ name ∈ names, Readable bindView s.schema (fold name)) :
    ∃ s', step bindView sqlite s (.change c) = .ok s' ∧ Changes bindView sqlite names c s s' :=
  step_of_yields sqlite (change_yields sqlite h c hname (hreadable _ hname))

theorem Safe.readable {schema : Schema D}
    (h : Safe bindView sqlite names schema changes) :
    ∀ name ∈ names, Readable bindView schema (fold name) := by
  cases changes with
  | nil => exact h
  | cons c changes => exact h.1

/-- In a safe sequence all lookups are right. The induction is on the calls, and the invariant is
that the map is right. -/
theorem coherent_of_safe {calls : List (Call D)}
    (h : Inv bindView names s) (hsofar : ∀ l ∈ s.lookups, l.Coherent bindView)
    (hnames : ∀ c ∈ changes, c.name ∈ names) (hplaced : Placed names changes calls)
    (hsafe : Safe bindView sqlite names s.schema changes) :
    ∀ l ∈ lookups bindView sqlite s calls, l.Coherent bindView := by
  induction calls generalizing s changes with
  | nil => exact hsofar
  | cons c calls ih =>
    cases c with
    | lookup name =>
      have hname := hplaced.2 name List.mem_cons_self
      obtain ⟨s', hstep, hlooks, -⟩ := step_lookup sqlite (s := s) name hname
      have hready := hlooks.ready h (hsafe.readable sqlite name hname)
      rw [lookups_cons sqlite hstep]
      refine ih hready.inv (fun l hl => (hready.judged l hl).elim (hsofar l) id) hnames
        ⟨hplaced.1, fun name' hname' => hplaced.2 name' (List.mem_cons_of_mem _ hname')⟩ ?_
      rwa [hready.grows.schema]
    | change c =>
      cases changes with
      | nil => cases List.prefix_nil.mp hplaced.1
      | cons c' changes =>
        obtain ⟨rfl, hinitial⟩ := List.cons_prefix_cons.mp
          (show c :: calls.filterMap Call.change? <+: c' :: changes from hplaced.1)
        obtain ⟨hreadable, hundisturbed, hsafe⟩ := hsafe
        obtain ⟨s', hstep, hchanges⟩ :=
          step_change sqlite h c (hnames c List.mem_cons_self) hreadable
        rw [← hchanges.schema] at hsafe
        rw [lookups_cons sqlite hstep]
        refine ih (hchanges.inv hundisturbed) (fun l hl => ?_)
          (fun c' hc' => hnames c' (List.mem_cons_of_mem _ hc'))
          ⟨hinitial, fun name' hname' => hplaced.2 name' (List.mem_cons_of_mem _ hname')⟩ hsafe
        exact (hchanges.judged hundisturbed (hsafe.readable sqlite) l hl).elim (hsofar l) id

/-- If all lookups are right, what is looked up can be read. -/
theorem readable_of_coherent (h : Inv bindView names s)
    (hcoherent : ∀ calls, Placed names changes calls →
      ∀ l ∈ lookups bindView sqlite s calls, l.Coherent bindView) :
    ∀ name ∈ names, Readable bindView s.schema (fold name) := by
  intro name hname
  obtain ⟨s', hstep, hlooks, -⟩ := step_lookup sqlite (s := s) name hname
  obtain ⟨l, hlookups, hright⟩ := hlooks.recorded
  refine (hright h).mp (hcoherent _ ((placed_nil names changes).lookup hname) l ?_)
  rw [lookups_cons sqlite hstep, lookups_nil, hlookups]
  exact List.mem_cons_self

/-- And no change disturbs it: it could be looked up before the change and after it. -/
theorem undisturbed_of_coherent {c : Change D}
    (h : Inv bindView names s) (hname : c.name ∈ names)
    (hcoherent : ∀ calls, Placed names (c :: changes) calls →
      ∀ l ∈ lookups bindView sqlite s calls, l.Coherent bindView) :
    ∀ name ∈ names, ¬ c.Disturbs bindView sqlite s.schema (fold name) := by
  rintro name hmem ⟨htarget, hobject, hne⟩
  have hreadable := readable_of_coherent sqlite h hcoherent
  obtain ⟨s₁, hstep₁, hlooks, hcached⟩ := step_lookup sqlite (s := s) name hmem
  have hentry := hcached h (hreadable name hmem) (Option.isSome_iff_ne_none.mpr hobject)
  obtain ⟨entry, hdescribe⟩ := Option.ne_none_iff_exists'.mp
    (fun hnone => hobject ((describe_eq_none bindView).mp hnone))
  obtain ⟨s₂, hstep₂, hchanges⟩ := step_change sqlite (hlooks.inv h) c hname
    (by rwa [hlooks.grows.schema])
  have hkept := hchanges.kept _ _ (hentry.trans hdescribe) htarget
  have hplaced := (((placed_nil names changes).lookup hmem).change c).lookup hmem
  have hright := hcoherent _ hplaced ⟨s₂.schema, name, .ok (some entry)⟩ (by
    rw [lookups_cons sqlite hstep₁, lookups_cons sqlite hstep₂,
      lookups_cons sqlite (step_lookup_of_cache sqlite hkept), lookups_nil]
    exact List.mem_cons_self)
  rw [coherent_ok_iff, hchanges.schema, hlooks.grows.schema, ← hdescribe] at hright
  exact hne hright.symm

theorem safe_of_coherent (h : Inv bindView names s)
    (hnames : ∀ c ∈ changes, c.name ∈ names)
    (hcoherent : ∀ calls, Placed names changes calls →
      ∀ l ∈ lookups bindView sqlite s calls, l.Coherent bindView) :
    Safe bindView sqlite names s.schema changes := by
  induction changes generalizing s with
  | nil => exact readable_of_coherent sqlite h hcoherent
  | cons c changes ih =>
    have hname := hnames c List.mem_cons_self
    have hreadable := readable_of_coherent sqlite h hcoherent
    have hundisturbed := undisturbed_of_coherent sqlite h hname hcoherent
    obtain ⟨s', hstep, hchanges⟩ := step_change sqlite h c hname hreadable
    refine ⟨hreadable, hundisturbed, ?_⟩
    rw [← hchanges.schema]
    refine ih (hchanges.inv hundisturbed) (fun c' hc' => hnames c' (List.mem_cons_of_mem _ hc'))
      fun calls hplaced => ?_
    rw [← lookups_cons sqlite hstep]
    exact hcoherent _ (hplaced.change c)

/-- A change that is accepted and drops or rewrites an index of a table on columns. -/
def Change.RewritesIndex (s : Schema D) (table : Name) (columns : List Name) : Change D → Prop
  | .drop .table name _ =>
    fold table = fold name ∧ (sqlite.execute (.drop .table name) s).isSome
  | .alter true name (.renameTable newName) =>
    fold table = fold name ∧ (sqlite.execute (.renameTable name newName) s).isSome
  | .alter true name (.renameColumn oldName newName) =>
    fold table = fold name ∧ (sqlite.execute (.renameColumn name oldName newName) s).isSome ∧
      columns.map (renamed oldName newName) ≠ columns
  | _ => False

theorem effect_of_execute {s s' : Schema D} {c : Change D} {statement : Statement D}
    (hstatements : c.statements s = [statement]) (h : sqlite.execute statement s = some s') :
    c.effect sqlite s = s' := by
  simp [Change.effect, hstatements, Sqlite.executeAll, h]

/-- Dropping or renaming a table or a column disturbs the indexes on it. -/
theorem disturbs_of_rewritesIndex {s : Schema D} {k table : Name} {columns : List Name}
    {sql : IndexSql} (hobject : s.objects k = some (.index table columns sql)) {c : Change D}
    (h : c.RewritesIndex sqlite s table columns) : c.Disturbs bindView sqlite s k := by
  obtain ⟨tableColumns, htable, -⟩ := s.owned _ _ _ _ hobject
  obtain ⟨-, ids, -, -, hdescribe⟩ := describe_index bindView hobject
  have hk : fold table ≠ k := by
    intro heq
    rw [heq, hobject] at htable
    cases htable
  have hdisturbs : fold table = fold c.name → c.target = some (fold c.name) →
      (describe bindView (c.effect sqlite s) k ≠ describe bindView s k) →
      c.Disturbs bindView sqlite s k := by
    intro hname htarget hne
    refine ⟨?_, by simp [hobject], hne⟩
    rw [htarget, Ne, Option.some_inj, ← hname]
    exact hk
  unfold Change.RewritesIndex at h
  split at h
  · rename_i name ifExists
    obtain ⟨hname, hsome⟩ := h
    obtain ⟨s', hexecute⟩ := Option.isSome_iff_exists.mp hsome
    refine hdisturbs hname rfl ?_
    have hstatements : (Change.drop .table name ifExists).statements s = [.drop .table name] := by
      rw [hname] at htable
      simp [Change.statements, htable]
    rw [effect_of_execute sqlite hstatements hexecute, hdescribe, (describe_eq_none bindView).mpr
      (sqlite.drop_table _ _ _ _ _ _ _ hexecute hobject hname)]
    exact fun h => nomatch h
  · rename_i name newName
    obtain ⟨hname, hsome⟩ := h
    obtain ⟨s', hexecute⟩ := Option.isSome_iff_exists.mp hsome
    obtain ⟨hfree, hindex⟩ := sqlite.rename_table _ _ _ _ _ _ _ _ hexecute hobject hname
    refine hdisturbs hname rfl fun hsame => ?_
    rw [effect_of_execute sqlite rfl hexecute, hdescribe] at hsame
    obtain ⟨sql', hobject'⟩ := objects_of_describe bindView hsame
    cases hindex _ hobject'
    rw [hfree] at htable
    cases htable
  · rename_i name oldName newName
    obtain ⟨hname, hsome, hne⟩ := h
    obtain ⟨s', hexecute⟩ := Option.isSome_iff_exists.mp hsome
    have hindex := sqlite.rename_column _ _ _ _ _ _ _ _ _ hexecute hobject hname
    refine hdisturbs hname rfl fun hsame => ?_
    rw [effect_of_execute sqlite rfl hexecute, hdescribe] at hsame
    obtain ⟨sql', hobject'⟩ := objects_of_describe bindView hsame
    rw [hindex, Option.some_inj, Object.index.injEq] at hobject'
    exact hne hobject'.2.1
  · exact h.elim

end Runs

/-! ### A small database -/

section Small

variable {D : Type}

/-- What is left of an object when the object `k` is dropped: nothing of an index of it. -/
def leaves (k : Name) : Object D → Option (Object D)
  | .index table names sql => if fold table = k then none else some (.index table names sql)
  | object => some object

theorem leaves_eq_some {k : Name} {object object' : Object D} (h : leaves k object = some object') :
    object' = object ∧ ∀ table names sql, object = .index table names sql → fold table ≠ k := by
  cases object with
  | table columns | view definition => cases h; exact ⟨rfl, fun _ _ _ h => nomatch h⟩
  | index table names sql =>
    rw [leaves] at h
    split at h
    · cases h
    · rename_i hne
      cases h
      exact ⟨rfl, fun _ _ _ h => by cases h; exact hne⟩

def Schema.remove (s : Schema D) (k : Name) : Schema D where
  objects := fun k' => if k' = k then none else (s.objects k').bind (leaves k)
  trigger := s.trigger
  owned k' table names sql hobject := by
    split at hobject
    · cases hobject
    obtain ⟨object, hold, hleaves⟩ := Option.bind_eq_some_iff.mp hobject
    obtain ⟨rfl, howner⟩ := leaves_eq_some hleaves
    obtain ⟨columns, htable, hnames⟩ := s.owned k' table names sql hold
    exact ⟨columns, by rw [if_neg (howner _ _ _ rfl), htable]; rfl, hnames⟩
  of_reserved k' object' hreserved hobject := by
    split at hobject
    · cases hobject
    obtain ⟨object, hold, hleaves⟩ := Option.bind_eq_some_iff.mp hobject
    obtain ⟨rfl, -⟩ := leaves_eq_some hleaves
    exact s.of_reserved k' _ hreserved hold

/-- A SQLite that drops objects and knows no other statements. -/
def executeSmall : Statement D → Schema D → Option (Schema D)
  | .drop type name, s =>
    if (s.objects (fold name)).map Object.type = some type then some (s.remove (fold name)) else none
  | _, _ => none

theorem executeSmall_eq_some {statement : Statement D} {s s' : Schema D}
    (h : executeSmall statement s = some s') :
    ∃ type name, statement = .drop type name ∧
      (s.objects (fold name)).map Object.type = some type ∧ s' = s.remove (fold name) := by
  rw [executeSmall.eq_def] at h
  split at h
  · split at h
    · rename_i htype
      exact ⟨_, _, rfl, htype, (Option.some.inj h).symm⟩
    · cases h
  · cases h

theorem objects_remove {s : Schema D} {k k' : Name} {object : Object D}
    (h : (s.remove k).objects k' = some object) :
    k' ≠ k ∧ s.objects k' = some object := by
  simp only [Schema.remove] at h
  split at h
  · cases h
  · rename_i hne
    obtain ⟨object', hold, hleaves⟩ := Option.bind_eq_some_iff.mp h
    obtain ⟨rfl, -⟩ := leaves_eq_some hleaves
    exact ⟨hne, hold⟩

def smallSqlite : Sqlite D where
  execute := executeSmall
  keeps_tables statement s s' k columns hexecute htable htarget := by
    obtain ⟨type, name, rfl, -, rfl⟩ := executeSmall_eq_some hexecute
    have hne : k ≠ fold name := fun heq => htarget (congrArg some heq.symm)
    simp [Schema.remove, hne, htable, leaves]
  keeps_rows statement s s' k hexecute _ _ hrow := by
    obtain ⟨_, _, -, -, rfl⟩ := executeSmall_eq_some hexecute
    exact hrow
  keeps_indexes statement s s' k table names sql object hexecute hindex hobject _ := by
    obtain ⟨_, _, -, -, rfl⟩ := executeSmall_eq_some hexecute
    cases hindex.symm.trans (objects_remove hobject).2
    exact ⟨table, names, rfl⟩
  creates statement s s' k hexecute hbefore hafter := by
    obtain ⟨object, hobject⟩ := Option.isSome_iff_exists.mp hafter
    obtain ⟨_, _, -, -, rfl⟩ := executeSmall_eq_some hexecute
    cases hbefore.symm.trans (objects_remove hobject).2
  drop_type type name s s' hexecute := by
    obtain ⟨_, _, heq, htype, -⟩ := executeSmall_eq_some hexecute
    cases heq
    exact Option.map_eq_some_iff.mp htype
  drop_table name s s' k table names sql hexecute hobject htable := by
    obtain ⟨_, _, heq, -, rfl⟩ := executeSmall_eq_some hexecute
    cases heq
    simp [Schema.remove, hobject, leaves, htable]
  rename_table _ _ _ _ _ _ _ _ hexecute := nomatch hexecute
  rename_column _ _ _ _ _ _ _ _ _ hexecute := nomatch hexecute

/-- A database after `CREATE TABLE t (a ...); CREATE INDEX i ON t (a)`. -/
def indexedSchema : Schema Empty where
  objects k :=
    if k = ['t'] then some (.table [⟨['a'], []⟩])
    else if k = ['i'] then some (.index ['t'] [['a']] .plain) else none
  trigger _ := false
  owned k table names sql h := by
    split at h
    · cases h
    · split at h
      · cases h
        exact ⟨_, rfl, by decide⟩
      · cases h
  of_reserved k object hreserved h := by
    split at h
    · rename_i hk
      cases hk ▸ hreserved
    · split at h
      · rename_i hk
        cases hk ▸ hreserved
      · cases h

end Small

end SqliteScanner.CatalogCache
