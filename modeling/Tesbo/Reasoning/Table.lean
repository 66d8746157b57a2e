import Mathlib.Tactic

/-!
# Tables with a unique key

A table is a list of rows no two of which have the same key.  The statements below are the ones
an SQL program makes: look a row up, insert a row unless its key is taken, change or delete the
rows a condition selects, and insert-or-change.
-/

namespace Tesbo.Reasoning

/-- Rows with a unique `key`, in the order they were inserted. -/
structure Table {ρ κ : Type} (key : ρ → κ) where
  rows : List ρ
  nodup : (rows.map key).Nodup

namespace Table

variable {ρ κ : Type} {key : ρ → κ}

instance : Membership ρ (Table key) := ⟨fun t r ↦ r ∈ t.rows⟩

theorem mem_def {t : Table key} {r : ρ} : r ∈ t ↔ r ∈ t.rows := Iff.rfl

def empty : Table key := ⟨[], List.nodup_nil⟩

def singleton (r : ρ) : Table key := ⟨[r], List.nodup_singleton _⟩

instance {t : Table key} {P : ρ → Prop} [DecidablePred P] : Decidable (∀ r ∈ t, P r) :=
  inferInstanceAs (Decidable (∀ r ∈ t.rows, P r))

instance {t : Table key} {P : ρ → Prop} [DecidablePred P] : Decidable (∃ r ∈ t, P r) :=
  inferInstanceAs (Decidable (∃ r ∈ t.rows, P r))

/-- Rows of one key are one row. -/
theorem eq_of_key {t : Table key} {r r' : ρ} (h : r ∈ t) (h' : r' ∈ t) (hk : key r = key r') :
    r = r' := List.inj_on_of_nodup_map t.nodup h h' hk

/-- `SELECT … WHERE p`. -/
def select (t : Table key) (p : ρ → Bool) : List ρ := t.rows.filter p

@[simp] theorem mem_select {t : Table key} {p : ρ → Bool} {r : ρ} :
    r ∈ t.select p ↔ r ∈ t ∧ p r = true := List.mem_filter

/-- `UPDATE … SET f WHERE p`. -/
def updateWhere (t : Table key) (p : ρ → Bool) (f : ρ → ρ) (hf : ∀ r, key (f r) = key r) :
    Table key where
  rows := t.rows.map fun r ↦ if p r then f r else r
  nodup := by
    have hkeys : (t.rows.map fun r ↦ if p r then f r else r).map key = t.rows.map key := by
      rw [List.map_map]
      apply List.map_congr_left
      intro r _
      by_cases hp : p r = true
      · simp only [Function.comp_apply, hp, if_true, hf]
      · simp only [Function.comp_apply, hp]
        rfl
    rw [hkeys]
    exact t.nodup

theorem mem_updateWhere {t : Table key} {p : ρ → Bool} {f : ρ → ρ} {hf : ∀ r, key (f r) = key r}
    {r : ρ} : r ∈ t.updateWhere p f hf ↔ ∃ r₀ ∈ t, (if p r₀ then f r₀ else r₀) = r :=
  List.mem_map

/-- The rows after an update, as an update leaves them. -/
def UpdatedRows (t t' : Table key) (p : ρ → Bool) (f : ρ → ρ) : Prop :=
  t'.rows = t.rows.map fun r ↦ if p r then f r else r

theorem UpdatedRows.mem_iff {t t' : Table key} {p : ρ → Bool} {f : ρ → ρ}
    (h : UpdatedRows t t' p f) {r : ρ} :
    r ∈ t' ↔ (r ∈ t ∧ p r = false) ∨ ∃ r₀ ∈ t, p r₀ = true ∧ f r₀ = r := by
  rw [mem_def, h, List.mem_map]
  constructor
  · rintro ⟨r₀, hmem, rfl⟩
    cases hp : p r₀ with
    | false => exact .inl ⟨hmem, hp⟩
    | true => exact .inr ⟨r₀, hmem, hp, rfl⟩
  · rintro (⟨hmem, hp⟩ | ⟨r₀, hmem, hp, rfl⟩)
    · exact ⟨r, hmem, by rw [hp]; rfl⟩
    · exact ⟨r₀, hmem, by rw [if_pos hp]⟩

/-- A row of the table after an update is an unselected row or a changed one. -/
theorem mem_updateWhere_cases {t : Table key} {p : ρ → Bool} {f : ρ → ρ}
    {hf : ∀ r, key (f r) = key r} {r : ρ} :
    r ∈ t.updateWhere p f hf ↔ (r ∈ t ∧ p r = false) ∨ ∃ r₀ ∈ t, p r₀ = true ∧ f r₀ = r :=
  have h : UpdatedRows t (t.updateWhere p f hf) p f := rfl
  h.mem_iff

/-- What becomes of a row in an update. -/
theorem UpdatedRows.exists_of_mem {t t' : Table key} {p : ρ → Bool} {f : ρ → ρ}
    (h : UpdatedRows t t' p f) {r : ρ} {Q : ρ → Prop} (hr : r ∈ t) (hstay : p r = false → Q r)
    (hchange : p r = true → Q (f r)) : ∃ r' ∈ t', Q r' := by
  cases hp : p r with
  | false => exact ⟨r, h.mem_iff.mpr (.inl ⟨hr, hp⟩), hstay hp⟩
  | true => exact ⟨f r, h.mem_iff.mpr (.inr ⟨r, hr, hp, rfl⟩), hchange hp⟩

theorem exists_updateWhere {t : Table key} {p : ρ → Bool} {f : ρ → ρ}
    (hf : ∀ r, key (f r) = key r) {r : ρ} {Q : ρ → Prop} (h : r ∈ t) (hstay : p r = false → Q r)
    (hchange : p r = true → Q (f r)) : ∃ r' ∈ t.updateWhere p f hf, Q r' :=
  have hrows : UpdatedRows t (t.updateWhere p f hf) p f := rfl
  hrows.exists_of_mem h hstay hchange

/-- Rows that a condition singles out are untouched by an update that selects none of them and
turns no other row into one of them. -/
theorem UpdatedRows.select {t t' : Table key} {p : ρ → Bool} {f : ρ → ρ}
    (h : UpdatedRows t t' p f) {q : ρ → Bool}
    (hq : ∀ r ∈ t, p r = true → q r = false ∧ q (f r) = false) : t'.select q = t.select q := by
  unfold Table.select
  rw [h, List.filter_map]
  have hsame : ∀ r ∈ t.rows, (q ∘ fun r ↦ if p r then f r else r) r = q r := by
    intro r hr
    cases hp : p r with
    | false => simp only [Function.comp_apply, hp]; rfl
    | true => simp only [Function.comp_apply, hp, if_true, hq r hr hp]
  rw [List.filter_congr hsame]
  conv_rhs => rw [← List.map_id (t.rows.filter q)]
  apply List.map_congr_left
  intro r hr
  obtain ⟨hmem, hqr⟩ := List.mem_filter.mp hr
  cases hp : p r with
  | false => rfl
  | true =>
      have hcontra := (hq r hmem hp).1
      rw [hqr] at hcontra
      cases hcontra

/-- A sum over selected rows does not grow when an update selects no more and leaves the summands. -/
theorem UpdatedRows.sum_select_le {t t' : Table key} {p : ρ → Bool} {f : ρ → ρ}
    (h : UpdatedRows t t' p f) {q : ρ → Bool} {size : ρ → ℕ}
    (hq : ∀ r ∈ t, p r = true → q (f r) = true → q r = true) (hsize : ∀ r, size (f r) = size r) :
    ((t'.select q).map size).sum ≤ ((t.select q).map size).sum := by
  unfold Table.select
  rw [h]
  have hrows : ∀ rows : List ρ, (∀ r ∈ rows, p r = true → q (f r) = true → q r = true) →
      (((rows.map fun r ↦ if p r then f r else r).filter q).map size).sum ≤
        ((rows.filter q).map size).sum := by
    intro rows hrows
    induction rows with
    | nil => exact le_rfl
    | cons r rows ih =>
        have ih := ih fun r' hr' ↦ hrows r' (List.mem_cons_of_mem r hr')
        have hr := hrows r List.mem_cons_self
        rw [List.map_cons, List.filter_cons, List.filter_cons]
        cases hp : p r with
        | false =>
            simp only [Bool.false_eq_true, if_false]
            split
            · rw [List.map_cons, List.map_cons, List.sum_cons, List.sum_cons]
              omega
            · exact ih
        | true =>
            simp only [if_true]
            by_cases hfr : q (f r) = true
            · rw [if_pos hfr, if_pos (hr hp hfr), List.map_cons, List.map_cons, List.sum_cons,
                List.sum_cons, hsize]
              omega
            · rw [if_neg hfr]
              split
              · rw [List.map_cons, List.sum_cons]
                omega
              · exact ih
  exact hrows t.rows hq

/-- `DELETE … WHERE p`. -/
def deleteWhere (t : Table key) (p : ρ → Bool) : Table key where
  rows := t.rows.filter fun r ↦ !p r
  nodup := t.nodup.sublist (List.filter_sublist.map key)

@[simp] theorem mem_deleteWhere {t : Table key} {p : ρ → Bool} {r : ρ} :
    r ∈ t.deleteWhere p ↔ r ∈ t ∧ p r = false := by
  change r ∈ t.rows.filter (fun r ↦ !p r) ↔ _
  rw [List.mem_filter, Bool.not_eq_true']
  exact Iff.rfl

theorem sum_select_deleteWhere_le {t : Table key} {p q : ρ → Bool} {size : ρ → ℕ} :
    (((t.deleteWhere p).select q).map size).sum ≤ ((t.select q).map size).sum :=
  ((List.filter_sublist.filter q).map size).sum_le_sum fun _ _ ↦ Nat.zero_le _

variable [DecidableEq κ]

def find (t : Table key) (k : κ) : Option ρ := t.rows.find? fun r ↦ key r = k

theorem find_eq_some {t : Table key} {k : κ} {r : ρ} : t.find k = some r ↔ r ∈ t ∧ key r = k := by
  constructor
  · intro h
    exact ⟨List.mem_of_find?_eq_some h, by simpa using List.find?_some h⟩
  · rintro ⟨hmem, rfl⟩
    cases hfind : t.find (key r) with
    | none =>
        have hnone := List.find?_eq_none.mp hfind r hmem
        simp at hnone
    | some r' =>
        have hmem' := List.mem_of_find?_eq_some hfind
        have hkey : key r' = key r := by simpa using List.find?_some hfind
        rw [eq_of_key hmem' hmem hkey]

theorem find_eq_none {t : Table key} {k : κ} : t.find k = none ↔ ∀ r ∈ t, key r ≠ k := by
  unfold find
  rw [List.find?_eq_none]
  simp only [decide_eq_true_eq]
  exact Iff.rfl

/-- The row of a key after an update is the row it was, changed where it is selected. -/
theorem UpdatedRows.find {t t' : Table key} {p : ρ → Bool} {f : ρ → ρ} (h : UpdatedRows t t' p f)
    (hf : ∀ r, key (f r) = key r) (k : κ) :
    t'.find k = (t.find k).map fun r ↦ if p r then f r else r := by
  unfold Table.find
  rw [h, List.find?_map]
  congr 2
  funext r
  cases hp : p r with
  | false => simp only [Function.comp_apply, hp, Bool.false_eq_true, if_false]
  | true => simp only [Function.comp_apply, hp, if_true, hf]

/-- An update of the row of one key. -/
theorem mem_updateWhere_key {t : Table key} {k : κ} {row r : ρ} {f : ρ → ρ}
    {hf : ∀ r, key (f r) = key r} (h : t.find k = some row) :
    r ∈ t.updateWhere (fun r ↦ key r = k) f hf ↔ (r ∈ t ∧ key r ≠ k) ∨ r = f row := by
  obtain ⟨hmem, hkey⟩ := find_eq_some.mp h
  rw [mem_updateWhere_cases]
  simp only [decide_eq_false_iff_not, decide_eq_true_eq]
  constructor
  · rintro (hr | ⟨r₀, hmem₀, hkey₀, rfl⟩)
    · exact .inl hr
    · exact .inr (congrArg f (eq_of_key hmem₀ hmem (hkey₀.trans hkey.symm)))
  · rintro (hr | rfl)
    · exact .inl hr
    · exact .inr ⟨row, hmem, hkey, rfl⟩

/-- `INSERT`, refused where the key is taken. -/
def insert (t : Table key) (r : ρ) : Option (Table key) :=
  if h : key r ∈ t.rows.map key then none
  else some ⟨t.rows ++ [r], by
    rw [List.map_append]
    exact List.Nodup.append t.nodup (List.nodup_singleton _)
      (List.disjoint_singleton.mpr h)⟩

theorem insert_eq_some {t t' : Table key} {r : ρ} (h : t.insert r = some t') :
    t'.rows = t.rows ++ [r] ∧ ∀ r' ∈ t, key r' ≠ key r := by
  unfold insert at h
  split at h
  · cases h
  · rename_i hnew
    cases h
    refine ⟨rfl, fun r' hr' heq ↦ hnew ?_⟩
    rw [← heq]
    exact List.mem_map_of_mem hr'

theorem insert_eq_none {t : Table key} {r : ρ} (h : t.insert r = none) :
    ∃ r' ∈ t, key r' = key r := by
  unfold insert at h
  split at h
  · rename_i hmem
    exact List.mem_map.mp hmem
  · cases h

theorem mem_insert {t t' : Table key} {r r' : ρ} (h : t.insert r = some t') :
    r' ∈ t' ↔ r' ∈ t ∨ r' = r := by
  rw [mem_def, (insert_eq_some h).1, List.mem_append, List.mem_singleton]
  exact Iff.rfl

/-- Rows that a condition singles out are untouched by the insert of any other row. -/
theorem select_insert {t t' : Table key} {r : ρ} {q : ρ → Bool} (h : t.insert r = some t')
    (hq : q r = false) : t'.select q = t.select q := by
  unfold select
  rw [(insert_eq_some h).1, List.filter_append, List.filter_singleton, hq]
  exact List.append_nil _

theorem select_insert_append {t t' : Table key} {r : ρ} {q : ρ → Bool}
    (h : t.insert r = some t') : t'.select q = t.select q ++ if q r then [r] else [] := by
  unfold select
  rw [(insert_eq_some h).1, List.filter_append, List.filter_singleton]
  cases q r with
  | false => rfl
  | true => rfl

/-- `INSERT … ON CONFLICT (key) DO UPDATE SET f`. -/
def upsert (t : Table key) (r : ρ) (f : ρ → ρ) (hf : ∀ r, key (f r) = key r) : Table key :=
  (t.insert r).getD (t.updateWhere (fun r' ↦ key r' = key r) f hf)

theorem mem_upsert {t : Table key} {r r' : ρ} {f : ρ → ρ} {hf : ∀ r, key (f r) = key r} :
    r' ∈ t.upsert r f hf ↔
      (r' ∈ t ∧ key r' ≠ key r) ∨ (r' = r ∧ ∀ r₀ ∈ t, key r₀ ≠ key r) ∨
        ∃ r₀ ∈ t, key r₀ = key r ∧ f r₀ = r' := by
  unfold upsert
  cases h : t.insert r with
  | some t' =>
      have hnew := (insert_eq_some h).2
      rw [Option.getD_some, mem_insert h]
      constructor
      · rintro (hmem | rfl)
        · exact .inl ⟨hmem, hnew r' hmem⟩
        · exact .inr (.inl ⟨rfl, hnew⟩)
      · rintro (⟨hmem, -⟩ | ⟨rfl, -⟩ | ⟨r₀, hmem, hk, -⟩)
        · exact .inl hmem
        · exact .inr rfl
        · exact absurd hk (hnew r₀ hmem)
  | none =>
      have htaken : ∃ r₀ ∈ t, key r₀ = key r := by
        unfold insert at h
        split at h
        · rename_i hin
          exact List.mem_map.mp hin
        · cases h
      rw [Option.getD_none, mem_updateWhere_cases]
      simp only [decide_eq_false_iff_not, decide_eq_true_eq]
      constructor
      · rintro (⟨hmem, hk⟩ | ⟨r₀, hmem, hk, hfr⟩)
        · exact .inl ⟨hmem, hk⟩
        · exact .inr (.inr ⟨r₀, hmem, hk, hfr⟩)
      · rintro (⟨hmem, hk⟩ | ⟨-, hfree⟩ | ⟨r₀, hmem, hk, hfr⟩)
        · exact .inl ⟨hmem, hk⟩
        · obtain ⟨r₀, hmem, hk⟩ := htaken
          exact absurd hk (hfree r₀ hmem)
        · exact .inr ⟨r₀, hmem, hk, hfr⟩

/-- The rows of the other keys are what they were. -/
theorem find_upsert {t : Table key} {r : ρ} {f : ρ → ρ} {hf : ∀ r, key (f r) = key r} {k : κ} :
    (t.upsert r f hf).find k = if key r = k then some ((t.find k).elim r f) else t.find k := by
  by_cases hk : key r = k
  · subst hk
    rw [if_pos rfl, find_eq_some, mem_upsert]
    cases h : t.find (key r) with
    | none => exact ⟨.inr (.inl ⟨rfl, find_eq_none.mp h⟩), rfl⟩
    | some r₀ =>
        obtain ⟨hmem, hkey⟩ := find_eq_some.mp h
        exact ⟨.inr (.inr ⟨r₀, hmem, hkey, rfl⟩), (hf r₀).trans hkey⟩
  · rw [if_neg hk]
    apply Option.ext
    intro r'
    rw [find_eq_some, find_eq_some, mem_upsert]
    constructor
    · rintro ⟨⟨hmem, -⟩ | ⟨rfl, -⟩ | ⟨r₀, -, hkey, rfl⟩, hk'⟩
      · exact ⟨hmem, hk'⟩
      · exact absurd hk' hk
      · exact absurd (hkey.symm.trans ((hf r₀).symm.trans hk')) hk
    · rintro ⟨hmem, hk'⟩
      exact ⟨.inl ⟨hmem, fun hsame ↦ hk (hsame.symm.trans hk')⟩, hk'⟩

theorem find_deleteKey {t : Table key} {k k' : κ} :
    (t.deleteWhere fun r ↦ key r = k').find k = if k = k' then none else t.find k := by
  by_cases hk : k = k'
  · rw [if_pos hk, find_eq_none]
    intro r hr hsame
    have hkept := (mem_deleteWhere.mp hr).2
    exact of_decide_eq_false hkept (hsame.trans hk)
  · rw [if_neg hk]
    apply Option.ext
    intro r
    rw [find_eq_some, find_eq_some, mem_deleteWhere]
    constructor
    · rintro ⟨⟨hmem, -⟩, hkey⟩
      exact ⟨hmem, hkey⟩
    · rintro ⟨hmem, hkey⟩
      refine ⟨⟨hmem, ?_⟩, hkey⟩
      rw [hkey]
      exact decide_eq_false hk

end Table

end Tesbo.Reasoning
