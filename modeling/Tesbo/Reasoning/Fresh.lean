import Tesbo.Reasoning.Table

/-!
# Rows under a new key

A generator of random ids never hands out one that is in use.  `unused` is a number above all of
those it is given, and `push` appends a row whose key the table does not have.
-/

namespace Tesbo.Reasoning

/-- A number greater than all of `ids`. -/
def unused (ids : List ℕ) : ℕ := ids.foldr max 0 + 1

theorem lt_unused {ids : List ℕ} {id : ℕ} (h : id ∈ ids) : id < unused ids := by
  show id < ids.foldr max 0 + 1
  apply Nat.lt_succ_of_le
  induction ids with
  | nil => cases h
  | cons other ids ih =>
      rw [List.foldr_cons]
      rcases List.mem_cons.mp h with rfl | h
      · exact le_max_left _ _
      · exact le_trans (ih h) (le_max_right _ _)

namespace Table

variable {ρ : Type} {key : ρ → ℕ}

/-- A key no row of the table has. -/
def newKey (t : Table key) : ℕ := unused (t.rows.map key)

theorem key_ne_newKey {t : Table key} {r : ρ} (h : r ∈ t) : key r ≠ t.newKey :=
  Nat.ne_of_lt (lt_unused (List.mem_map_of_mem h))

/-- An update changes no key. -/
theorem newKey_updateWhere (t : Table key) (p : ρ → Bool) (f : ρ → ρ)
    (hf : ∀ r, key (f r) = key r) : (t.updateWhere p f hf).newKey = t.newKey := by
  show unused ((t.rows.map fun r ↦ if p r then f r else r).map key) = unused (t.rows.map key)
  rw [List.map_map]
  congr 1
  apply List.map_congr_left
  intro r _
  show key (if p r then f r else r) = key r
  by_cases hp : p r = true
  · rw [if_pos hp, hf]
  · rw [if_neg hp]

/-- `INSERT` of a row whose key is generated. -/
def push (t : Table key) (r : ρ) (h : key r = t.newKey) : Table key where
  rows := t.rows ++ [r]
  nodup := by
    rw [List.map_append]
    apply List.Nodup.append t.nodup (List.nodup_singleton _)
    apply List.disjoint_singleton.mpr
    intro hmem
    obtain ⟨r', hr', hkey⟩ := List.mem_map.mp hmem
    exact key_ne_newKey hr' (hkey.trans h)

@[simp] theorem mem_push {t : Table key} {r r' : ρ} {h : key r = t.newKey} :
    r' ∈ t.push r h ↔ r' ∈ t ∨ r' = r := by
  rw [mem_def, push, List.mem_append, List.mem_singleton]
  exact Iff.rfl

/-- The rows a condition selects, after an insert. -/
theorem select_push {t : Table key} {r : ρ} {h : key r = t.newKey} (q : ρ → Bool) :
    (t.push r h).select q = t.select q ++ if q r then [r] else [] := by
  show (t.rows ++ [r]).filter q = _
  rw [List.filter_append, List.filter_singleton]
  cases q r with
  | false => rfl
  | true => rfl

end Table

end Tesbo.Reasoning
