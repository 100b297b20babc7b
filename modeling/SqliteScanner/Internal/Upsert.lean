import Mathlib.Data.List.Nodup
import Mathlib.Data.List.Pairwise

/-!
# Inserting rows that may be there already

A statement brings rows to a table one after the other. A row whose key is in the table updates the
row that has it, and any other row is inserted. Updates can depend on what is stored, they can be
declined, and they can change the key of the row.

The question is whether the rows of one statement get in each other's way: a row of the table should
not be updated twice, and not be updated after it was inserted by the same statement. To ask it, the
rows of the table carry an identity, and a state records which of them were inserted and updated.

* `updatesOnce_iff` says it of one row of the statement at a time: none may meet a row that was
  inserted or updated before.
* `updatesOnce_of_pairwise` is the case in which updates keep keys. There it is enough that the rows
  of the statement have different keys.
* `updatesOnce_iff_pairwise` says that this is also necessary, for a statement that does not fail
  and declines no update.
-/

namespace Upsert

variable {R K : Type} [DecidableEq K]

/-- What a statement does with a row. -/
structure Rules (R K : Type) where
  /-- The row as it is stored in a table with the given rows. -/
  complete : List R → R → R
  /-- The key of a stored row; none if it cannot meet another row. -/
  key : R → Option K
  /-- Whether a row of the table is updated by a row of the statement. -/
  applies : R → R → Bool
  update : R → R → R
  /-- Whether a table may have the given rows. -/
  valid : List R → Bool

/-- A table while the statement runs, with the identities of the rows. -/
structure State (R : Type) where
  rows : List (ℕ × R)
  next : ℕ
  inserted : List ℕ
  updated : List ℕ
  failed : Bool

def State.init (rows : List R) : State R where
  rows := rows.zipIdx.map Prod.swap
  next := rows.length
  inserted := []
  updated := []
  failed := false

/-- The rows of the table without their identities. -/
def State.table (s : State R) : List R := s.rows.map Prod.snd

def State.update (s : State R) (id : ℕ) (r : R) : State R :=
  { s with
    rows := s.rows.map fun p => if p.1 = id then (id, r) else p
    updated := id :: s.updated }

def State.insert (s : State R) (r : R) : State R :=
  { s with
    rows := s.rows ++ [(s.next, r)]
    next := s.next + 1
    inserted := s.next :: s.inserted }

variable (rules : Rules R K)

/-- The row of the table that a stored row meets. -/
def conflict (s : State R) (e : R) : Option (ℕ × R) :=
  (rules.key e).bind fun k => s.rows.find? fun p => rules.key p.2 = some k

/-- Bring one row to the table. The statement stops at the first failure. -/
def step (s : State R) (e : R) : State R :=
  if s.failed then s
  else
    let e := rules.complete s.table e
    match conflict rules s e with
    | some (id, r) =>
      if rules.applies r e then
        let s' := s.update id (rules.update r e)
        if rules.valid s'.table then s' else { s with failed := true }
      else s
    | none => if rules.valid (s.insert e).table then s.insert e else { s with failed := true }

def run (s : State R) (es : List R) : State R := es.foldl (step rules) s

/-- **No row is updated twice, or updated after it was inserted.** -/
def State.UpdatesOnce (s : State R) : Prop :=
  s.updated.Nodup ∧ ∀ id ∈ s.updated, id ∉ s.inserted

/-- The row updates one that was inserted or updated before. -/
def Retouches (s : State R) (e : R) : Prop :=
  s.failed = false ∧ ∃ id r,
    conflict rules s (rules.complete s.table e) = some (id, r) ∧
    rules.applies r (rules.complete s.table e) = true ∧
    rules.valid (s.update id (rules.update r (rules.complete s.table e))).table = true ∧
    (id ∈ s.inserted ∨ id ∈ s.updated)

/-! ### What a step does -/

section Step

variable {rules} {s : State R} {e : R}

/-- **The cases of a step.** It updates a row, inserts one, or changes no row. -/
theorem step_cases (rules : Rules R K) (s : State R) (e : R) :
    (∃ id r, s.failed = false ∧ conflict rules s (rules.complete s.table e) = some (id, r) ∧
      rules.applies r (rules.complete s.table e) = true ∧
      rules.valid (s.update id (rules.update r (rules.complete s.table e))).table = true ∧
      step rules s e = s.update id (rules.update r (rules.complete s.table e))) ∨
    (conflict rules s (rules.complete s.table e) = none ∧
      rules.valid (s.insert (rules.complete s.table e)).table = true ∧
      step rules s e = s.insert (rules.complete s.table e)) ∨
    (¬ Retouches rules s e ∧ ∃ failed, step rules s e = { s with failed := failed } ∧
      (failed = false → ∃ id r, conflict rules s (rules.complete s.table e) = some (id, r) ∧
        rules.applies r (rules.complete s.table e) = false)) := by
  unfold step Retouches
  by_cases hfailed : s.failed = true
  · exact .inr (.inr ⟨by simp [hfailed], s.failed, by rw [if_pos hfailed], by simp [hfailed]⟩)
  have hfalse : s.failed = false := by simpa using hfailed
  rw [if_neg hfailed]
  cases hconflict : conflict rules s (rules.complete s.table e) with
  | none =>
    by_cases hvalid : rules.valid (s.insert (rules.complete s.table e)).table = true
    · exact .inr (.inl ⟨rfl, hvalid, by simp only [hconflict, hvalid, if_true]⟩)
    · exact .inr (.inr ⟨by simp, true, by
        simp only [hconflict, hvalid, Bool.false_eq_true, if_false], by simp⟩)
  | some p =>
    obtain ⟨id, r⟩ := p
    by_cases happlies : rules.applies r (rules.complete s.table e) = true
    · by_cases hvalid :
          rules.valid (s.update id (rules.update r (rules.complete s.table e))).table = true
      · exact .inl ⟨id, r, hfalse, rfl, happlies, hvalid, by
          simp only [hconflict, happlies, hvalid, if_true]⟩
      · refine .inr (.inr ⟨?_, true, by
          simp only [hconflict, happlies, hvalid, Bool.false_eq_true, if_true, if_false], by simp⟩)
        rintro ⟨-, id', r', heq, -, hvalid', -⟩
        cases heq
        exact hvalid hvalid'
    · refine .inr (.inr ⟨?_, s.failed, by
        simp only [hconflict, happlies, Bool.false_eq_true, if_false],
        fun _ => ⟨id, r, rfl, by simpa using happlies⟩⟩)
      rintro ⟨-, id', r', heq, happlies', -⟩
      cases heq
      exact happlies happlies'

theorem mem_of_conflict {id : ℕ} {r : R} (h : conflict rules s e = some (id, r)) :
    (id, r) ∈ s.rows ∧ rules.key r = rules.key e ∧ (rules.key e).isSome := by
  obtain ⟨k, hk, hfind⟩ := Option.bind_eq_some_iff.mp h
  have hkey := List.find?_some hfind
  rw [decide_eq_true_iff] at hkey
  exact ⟨List.mem_of_find?_eq_some hfind, hkey.trans hk.symm, by rw [hk]; rfl⟩

/-- The identities that are in use. -/
structure Inv (s : State R) : Prop where
  rows : ∀ p ∈ s.rows, p.1 < s.next
  updated : ∀ id ∈ s.updated, id < s.next

theorem inv_init (rows : List R) : Inv (State.init rows) where
  rows := by
    rintro ⟨id, r⟩ hp
    obtain ⟨⟨r', i⟩, hmem, heq⟩ := List.mem_map.mp hp
    cases heq
    exact (List.mem_zipIdx' hmem).1
  updated := fun _ h => nomatch h

theorem mem_update {id : ℕ} {r : R} {p : ℕ × R} (h : p ∈ (s.update id r).rows) :
    p = (id, r) ∨ p ∈ s.rows ∧ p.1 ≠ id := by
  obtain ⟨q, hq, rfl⟩ := List.mem_map.mp h
  by_cases hid : q.1 = id
  · exact .inl (if_pos hid)
  · exact .inr (by rw [if_neg hid]; exact ⟨hq, hid⟩)

theorem Inv.step (h : Inv s) (rules : Rules R K) (e : R) : Inv (step rules s e) := by
  obtain ⟨id, r, -, hconflict, -, -, hstep⟩ | ⟨-, -, hstep⟩ | ⟨-, failed, hstep, -⟩ :=
    step_cases rules s e
  · rw [hstep]
    have hid : id < s.next := h.rows _ (mem_of_conflict hconflict).1
    refine ⟨fun p hp => ?_, fun id' hid' => ?_⟩
    · rcases mem_update hp with rfl | ⟨hp, -⟩
      · exact hid
      · exact h.rows p hp
    · rcases List.mem_cons.mp hid' with rfl | hid'
      · exact hid
      · exact h.updated id' hid'
  · rw [hstep]
    refine ⟨fun p hp => ?_, fun id hid => Nat.lt_succ_of_lt (h.updated id hid)⟩
    rcases List.mem_append.mp hp with hp | hp
    · exact Nat.lt_succ_of_lt (h.rows p hp)
    · rw [List.mem_singleton.mp hp]
      exact Nat.lt_succ_self _
  · rw [hstep]
    exact ⟨h.rows, h.updated⟩

/-- The step lemma: while no row has been updated twice, a step that meets no row that was touched
before keeps it so, and any other does not. -/
theorem updatesOnce_step_iff (h : Inv s) (e : R) :
    (step rules s e).UpdatesOnce ↔ s.UpdatesOnce ∧ ¬ Retouches rules s e := by
  obtain ⟨id, r, hfailed, hconflict, happlies, hvalid, hstep⟩ | ⟨hconflict, -, hstep⟩ |
    ⟨hno, failed, hstep, -⟩ := step_cases rules s e
  · have hretouch : Retouches rules s e ↔ id ∈ s.inserted ∨ id ∈ s.updated := by
      constructor
      · rintro ⟨-, id', r', heq, -, -, htouched⟩
        cases hconflict.symm.trans heq
        exact htouched
      · exact fun htouched => ⟨hfailed, id, r, hconflict, happlies, hvalid, htouched⟩
    rw [hstep, hretouch]
    simp only [State.UpdatesOnce, State.update, List.nodup_cons, List.forall_mem_cons]
    tauto
  · have hretouch : ¬ Retouches rules s e := by
      rintro ⟨-, id, r, heq, -⟩
      rw [hconflict] at heq
      cases heq
    rw [hstep]
    simp only [State.UpdatesOnce, State.insert, hretouch, not_false_eq_true, and_true]
    refine and_congr_right fun _ => forall₂_congr fun id hid => ?_
    have hne : id ≠ s.next := Nat.ne_of_lt (h.updated id hid)
    simp [hne]
  · rw [hstep]
    simp [State.UpdatesOnce, hno]

end Step

/-! ### Whole statements -/

section Run

variable {rules} {s : State R}

theorem updatesOnce_run_iff (h : Inv s) (es : List R) :
    (run rules s es).UpdatesOnce ↔ s.UpdatesOnce ∧
      ∀ before e after, es = before ++ e :: after → ¬ Retouches rules (run rules s before) e := by
  induction es generalizing s with
  | nil => simp [run]
  | cons e es ih =>
    have hrun := ih (h.step rules e)
    rw [updatesOnce_step_iff h e] at hrun
    rw [run, List.foldl_cons]
    refine hrun.trans ?_
    constructor
    · rintro ⟨⟨hs, he⟩, hes⟩
      refine ⟨hs, fun before e' after heq => ?_⟩
      cases before with
      | nil =>
        obtain ⟨rfl, -⟩ := List.cons.inj heq
        exact he
      | cons b before =>
        obtain ⟨rfl, htail⟩ := List.cons.inj heq
        exact hes before e' after htail
    · rintro ⟨hs, hall⟩
      exact ⟨⟨hs, hall [] e es rfl⟩, fun before e' after heq =>
        hall (e :: before) e' after (by rw [heq]; rfl)⟩

/-- **The exact condition.** No row of the statement meets, with the key that it is stored with, a
row that was inserted or updated before it. -/
theorem updatesOnce_iff (rows es : List R) :
    (run rules (State.init rows) es).UpdatesOnce ↔ ∀ before e after, es = before ++ e :: after →
      ¬ Retouches rules (run rules (State.init rows) before) e := by
  rw [updatesOnce_run_iff (inv_init rows)]
  exact and_iff_right ⟨List.nodup_nil, fun _ h => nomatch h⟩

/-- Two rows that cannot meet. -/
def Apart (key : R → Option K) (r r' : R) : Prop := ∀ k, key r = some k → key r' ≠ some k

/-- The rows that were touched have keys of the statement. -/
def Touched (rules : Rules R K) (key : R → Option K) (s : State R) (es : List R) : Prop :=
  ∀ p ∈ s.rows, p.1 ∈ s.inserted ∨ p.1 ∈ s.updated → ∃ e ∈ es, rules.key p.2 = key e

theorem Touched.step {key : R → Option K} {es : List R} (h : Touched rules key s es) (hinv : Inv s)
    (hupdate : ∀ r e, rules.key (rules.update r e) = rules.key r) {e : R}
    (hcomplete : ∀ rows, rules.key (rules.complete rows e) = key e) :
    Touched rules key (step rules s e) (es ++ [e]) := by
  have hold : ∀ p ∈ s.rows, p.1 ∈ s.inserted ∨ p.1 ∈ s.updated →
      ∃ e' ∈ es ++ [e], rules.key p.2 = key e' := fun p hp htouched => by
    obtain ⟨e', he', hkey⟩ := h p hp htouched
    exact ⟨e', List.mem_append_left _ he', hkey⟩
  obtain ⟨id, r, -, hconflict, -, -, hstep⟩ | ⟨-, -, hstep⟩ | ⟨-, failed, hstep, -⟩ :=
    step_cases rules s e
  · rw [hstep]
    intro p hp htouched
    rcases mem_update hp with rfl | ⟨hp, hne⟩
    · refine ⟨e, by simp, ?_⟩
      rw [hupdate, (mem_of_conflict hconflict).2.1, hcomplete]
    · refine hold p hp (htouched.imp_right fun hmem => ?_)
      exact (List.mem_cons.mp hmem).resolve_left hne
  · rw [hstep]
    intro p hp htouched
    rcases List.mem_append.mp hp with hp | hp
    · have hne : p.1 ≠ s.next := Nat.ne_of_lt (hinv.rows p hp)
      refine hold p hp (htouched.imp_left fun hmem => ?_)
      exact (List.mem_cons.mp hmem).resolve_left hne
    · rw [List.mem_singleton.mp hp]
      exact ⟨e, by simp, hcomplete _⟩
  · rw [hstep]
    exact hold

/-- Rows whose keys do not depend on the table and differ from those before them meet no row that
was touched. -/
theorem updatesOnce_run_of_pairwise {key : R → Option K} {es : List R} (before : List R)
    (hupdate : ∀ r e, rules.key (rules.update r e) = rules.key r)
    (hcomplete : ∀ e ∈ es, ∀ rows, rules.key (rules.complete rows e) = key e)
    (hdistinct : (before ++ es).Pairwise (Apart key))
    (hinv : Inv s) (htouched : Touched rules key s before) (hs : s.UpdatesOnce) :
    (run rules s es).UpdatesOnce := by
  induction es generalizing s before with
  | nil => exact hs
  | cons e es ih =>
    have he := hcomplete e List.mem_cons_self
    have hno : ¬ Retouches rules s e := by
      rintro ⟨-, id, r, hconflict, -, -, hid⟩
      obtain ⟨hmem, hkey, hsome⟩ := mem_of_conflict hconflict
      obtain ⟨e', he', hkey'⟩ := htouched (id, r) hmem hid
      rw [he] at hkey hsome
      obtain ⟨k, hk⟩ := Option.isSome_iff_exists.mp hsome
      refine (List.pairwise_append.mp hdistinct).2.2 e' he' e List.mem_cons_self k ?_ hk
      rw [← hkey', hkey, hk]
    rw [run, List.foldl_cons]
    refine ih (before ++ [e]) (fun e' he' => hcomplete e' (List.mem_cons_of_mem _ he')) ?_
      (hinv.step rules e) (htouched.step hinv hupdate he)
      ((updatesOnce_step_iff hinv e).mpr ⟨hs, hno⟩)
    rwa [List.append_assoc, List.singleton_append]

/-- **Updates that keep keys.** It is enough that the rows of the statement have different keys. -/
theorem updatesOnce_of_pairwise (key : R → Option K) {es : List R} (rows : List R)
    (hupdate : ∀ r e, rules.key (rules.update r e) = rules.key r)
    (hcomplete : ∀ e ∈ es, ∀ rows, rules.key (rules.complete rows e) = key e)
    (hdistinct : es.Pairwise (Apart key)) :
    (run rules (State.init rows) es).UpdatesOnce := by
  refine updatesOnce_run_of_pairwise [] hupdate hcomplete hdistinct (inv_init rows) ?_
    ⟨List.nodup_nil, fun _ h => nomatch h⟩
  rintro p - (h | h)
  · cases h
  · cases h

end Run

/-! ### Statements that do not fail and decline no update -/

section Apart

variable {rules} {s : State R} {e : R} {k : K}

omit [DecidableEq K] in
theorem Apart.symm {key : R → Option K} {r r' : R} (h : Apart key r r') : Apart key r' r :=
  fun k hr' hr => h k hr hr'

/-- A row with the key was inserted or updated. -/
def Held (rules : Rules R K) (s : State R) (k : K) : Prop :=
  ∃ p ∈ s.rows, rules.key p.2 = some k ∧ (p.1 ∈ s.inserted ∨ p.1 ∈ s.updated)

omit [DecidableEq K] in
theorem eq_of_key (h : s.table.Pairwise (Apart rules.key)) {p q : ℕ × R} (hp : p ∈ s.rows)
    (hq : q ∈ s.rows) (hpk : rules.key p.2 = some k) (hqk : rules.key q.2 = some k) : p = q := by
  have hrows : s.rows.Pairwise fun p q => Apart rules.key p.2 q.2 := List.pairwise_map.mp h
  have : Std.Symm fun p q : ℕ × R => Apart rules.key p.2 q.2 := ⟨fun _ _ => Apart.symm⟩
  by_contra hne
  exact hrows.forall hp hq hne k hpk hqk

/-- The states of a statement that has not failed. -/
structure Sound (rules : Rules R K) (s : State R) : Prop where
  ids : (s.rows.map Prod.fst).Nodup
  inv : Inv s
  keys : s.table.Pairwise (Apart rules.key)

omit [DecidableEq K] in
theorem sound_init {rows : List R} (h : rows.Pairwise (Apart rules.key)) :
    Sound rules (State.init rows) where
  ids := by
    simp [State.init, List.map_map, Function.comp_def, List.nodup_range']
  inv := inv_init rows
  keys := by
    simpa [State.init, State.table, List.map_map, Function.comp_def] using h

theorem map_fst_update (id : ℕ) (r : R) : (s.update id r).rows.map Prod.fst = s.rows.map Prod.fst := by
  rw [State.update, List.map_map]
  refine List.map_congr_left fun p _ => ?_
  rw [Function.comp_apply]
  split
  · next h => exact h.symm
  · rfl

theorem failed_of_step (h : (step rules s e).failed = false) : s.failed = false := by
  by_contra hfailed
  rw [step, if_pos (by simpa using hfailed)] at h
  exact hfailed h

theorem failed_of_run {es : List R} (h : (run rules s es).failed = false) : s.failed = false := by
  induction es generalizing s with
  | nil => exact h
  | cons e es ih => exact failed_of_step (ih h)

variable (hupdate : ∀ r e, rules.key (rules.update r e) = rules.key r)
  (happlies : ∀ r e, rules.applies r e = true)
  (hvalid : ∀ rows, rules.valid rows = true → rows.Pairwise (Apart rules.key))

include happlies in
/-- A step that does not fail updates the row that it meets, or inserts one. -/
theorem step_cases_of_applies (h : (step rules s e).failed = false) :
    (∃ id r, conflict rules s (rules.complete s.table e) = some (id, r) ∧
      rules.valid (s.update id (rules.update r (rules.complete s.table e))).table = true ∧
      step rules s e = s.update id (rules.update r (rules.complete s.table e))) ∨
    (conflict rules s (rules.complete s.table e) = none ∧
      rules.valid (s.insert (rules.complete s.table e)).table = true ∧
      step rules s e = s.insert (rules.complete s.table e)) := by
  obtain ⟨id, r, -, hconflict, -, hvalid, hstep⟩ | ⟨hconflict, hvalid, hstep⟩ |
    ⟨-, failed, hstep, hdeclined⟩ := step_cases rules s e
  · exact .inl ⟨id, r, hconflict, hvalid, hstep⟩
  · exact .inr ⟨hconflict, hvalid, hstep⟩
  · rw [hstep] at h
    obtain ⟨id, r, -, hdeclines⟩ := hdeclined h
    rw [happlies] at hdeclines
    cases hdeclines

include happlies hvalid in
theorem Sound.step (h : Sound rules s) (hfailed : (step rules s e).failed = false) :
    Sound rules (step rules s e) := by
  have hinv := h.inv.step rules e
  obtain ⟨id, r, hconflict, htable, hstep⟩ | ⟨-, htable, hstep⟩ :=
    step_cases_of_applies happlies hfailed
  · rw [hstep] at hinv ⊢
    exact ⟨by rw [map_fst_update]; exact h.ids, hinv, hvalid _ htable⟩
  · rw [hstep] at hinv ⊢
    refine ⟨?_, hinv, hvalid _ htable⟩
    rw [State.insert, List.map_append, List.nodup_append]
    refine ⟨h.ids, by simp, fun id hid id' hid' => ?_⟩
    obtain ⟨p, hp, rfl⟩ := List.mem_map.mp hid
    rw [List.map_singleton, List.mem_singleton] at hid'
    exact hid' ▸ Nat.ne_of_lt (h.inv.rows p hp)

include hupdate happlies in
theorem Held.after_step (h : Held rules s k) (hs : Sound rules s)
    (hfailed : (step rules s e).failed = false) : Held rules (step rules s e) k := by
  obtain ⟨p, hp, hkey, htouched⟩ := h
  obtain ⟨id, r, hconflict, -, hstep⟩ | ⟨-, -, hstep⟩ := step_cases_of_applies happlies hfailed
  · rw [hstep]
    by_cases hid : p.1 = id
    · obtain rfl : p = (id, r) :=
        List.inj_on_of_nodup_map hs.ids hp (mem_of_conflict hconflict).1 hid
      refine ⟨(id, rules.update r (rules.complete s.table e)), ?_, ?_, .inr List.mem_cons_self⟩
      · exact List.mem_map.mpr ⟨(id, r), hp, if_pos rfl⟩
      · rw [hupdate, hkey]
    · refine ⟨p, List.mem_map.mpr ⟨p, hp, if_neg hid⟩, hkey, ?_⟩
      exact htouched.imp_right (List.mem_cons_of_mem _)
  · rw [hstep]
    exact ⟨p, List.mem_append_left _ hp, hkey, htouched.imp_left (List.mem_cons_of_mem _)⟩

include hupdate happlies in
/-- A step leaves a row with its key. -/
theorem held_step (hkey : rules.key (rules.complete s.table e) = some k)
    (hfailed : (step rules s e).failed = false) : Held rules (step rules s e) k := by
  obtain ⟨id, r, hconflict, -, hstep⟩ | ⟨-, -, hstep⟩ := step_cases_of_applies happlies hfailed
  · rw [hstep]
    obtain ⟨hmem, heq, -⟩ := mem_of_conflict hconflict
    refine ⟨(id, rules.update r (rules.complete s.table e)), ?_, ?_, .inr List.mem_cons_self⟩
    · exact List.mem_map.mpr ⟨(id, r), hmem, if_pos rfl⟩
    · rw [hupdate, heq, hkey]
  · rw [hstep]
    exact ⟨_, List.mem_append_right _ List.mem_cons_self, hkey, .inl List.mem_cons_self⟩

include happlies in
/-- A row whose key is held meets the row that holds it. -/
theorem Held.retouches (h : Held rules s k) (hs : Sound rules s)
    (hkey : rules.key (rules.complete s.table e) = some k)
    (hfailed : (step rules s e).failed = false) : Retouches rules s e := by
  obtain ⟨p, hp, hpk, htouched⟩ := h
  obtain ⟨id, r, hconflict, htable, -⟩ | ⟨hconflict, -, -⟩ :=
    step_cases_of_applies happlies hfailed
  · obtain ⟨hmem, heq, -⟩ := mem_of_conflict hconflict
    obtain rfl := eq_of_key hs.keys hp hmem hpk (heq.trans hkey)
    exact ⟨failed_of_step hfailed, id, r, hconflict, happlies _ _, htable, htouched⟩
  · rw [conflict, hkey, Option.bind_some, List.find?_eq_none] at hconflict
    exact absurd (by simpa using hpk) (hconflict p hp)

include hupdate happlies hvalid in
theorem pairwise_of_not_retouches {key : R → Option K} {es : List R} (hs : Sound rules s)
    (hcomplete : ∀ e ∈ es, ∀ rows, rules.key (rules.complete rows e) = key e)
    (hfailed : (run rules s es).failed = false)
    (hno : ∀ before e after, es = before ++ e :: after →
      ¬ Retouches rules (run rules s before) e) :
    (∀ e ∈ es, ∀ k, Held rules s k → key e ≠ some k) ∧ es.Pairwise (Apart key) := by
  induction es generalizing s with
  | nil => exact ⟨by simp, List.Pairwise.nil⟩
  | cons e es ih =>
    have hstep : (step rules s e).failed = false := failed_of_run hfailed
    have he := hcomplete e List.mem_cons_self
    obtain ⟨hheld, hpairwise⟩ := ih (hs.step happlies hvalid hstep)
      (fun e' he' => hcomplete e' (List.mem_cons_of_mem _ he')) hfailed
      fun before e' after heq => hno (e :: before) e' after (by rw [heq]; rfl)
    refine ⟨fun e' he' k hk hkey => ?_, List.pairwise_cons.mpr ⟨fun e' he' k hkey => ?_, hpairwise⟩⟩
    · rcases List.mem_cons.mp he' with rfl | he'
      · exact hno [] e' es rfl (hk.retouches happlies hs ((he _).trans hkey) hstep)
      · exact hheld e' he' k (hk.after_step hupdate happlies hs hstep) hkey
    · exact hheld e' he' k (held_step hupdate happlies ((he _).trans hkey) hstep)

include hupdate happlies hvalid in
/-- **The condition on the rows of the statement.** A statement that does not fail, declines no
update and keeps the keys of the rows that it updates has to have different keys. -/
theorem updatesOnce_iff_pairwise (key : R → Option K) {es rows : List R}
    (hcomplete : ∀ e ∈ es, ∀ rows, rules.key (rules.complete rows e) = key e)
    (hrows : rows.Pairwise (Apart rules.key))
    (hfailed : (run rules (State.init rows) es).failed = false) :
    (run rules (State.init rows) es).UpdatesOnce ↔ es.Pairwise (Apart key) := by
  constructor
  · intro h
    have hno := (updatesOnce_iff rows es).mp h
    exact (pairwise_of_not_retouches hupdate happlies hvalid (sound_init hrows) hcomplete hfailed
      hno).2
  · exact updatesOnce_of_pairwise key rows hupdate hcomplete

end Apart

end Upsert
