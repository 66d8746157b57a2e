import Mathlib.Tactic

/-!
# Association lists in insertion order

The `Map` of JavaScript: setting a key that is there keeps its place.
-/

namespace Tesbo.Reasoning

variable {κ ν : Type} [DecidableEq κ]

abbrev Assoc (κ ν : Type) := List (κ × ν)

namespace Assoc

def get (m : Assoc κ ν) (k : κ) : Option ν := List.lookup k m

def has (m : Assoc κ ν) (k : κ) : Bool := (m.get k).isSome

def set : Assoc κ ν → κ → ν → Assoc κ ν
  | [], k, v => [(k, v)]
  | (k', v') :: m, k, v => if k' = k then (k, v) :: m else (k', v') :: set m k v

def erase (m : Assoc κ ν) (k : κ) : Assoc κ ν := m.filter fun e ↦ e.1 ≠ k

/-- The entries in order, a later one for a key replacing an earlier one. -/
def ofList (entries : List (κ × ν)) : Assoc κ ν := entries.foldl (fun m e ↦ m.set e.1 e.2) []

theorem mem_of_get {m : Assoc κ ν} {k : κ} {v : ν} (h : m.get k = some v) : (k, v) ∈ m := by
  induction m with
  | nil => cases h
  | cons e m ih =>
      obtain ⟨k', v'⟩ := e
      unfold get at h ih
      rw [List.lookup_cons] at h
      by_cases hk : k = k'
      · subst hk
        simp only [beq_self_eq_true, Option.some.injEq] at h
        exact h ▸ List.mem_cons_self
      · rw [beq_false_of_ne hk] at h
        exact List.mem_cons_of_mem _ (ih h)

/-- An entry after `set` is the new one or an old one. -/
theorem mem_set {m : Assoc κ ν} {k : κ} {v : ν} {e : κ × ν} (h : e ∈ m.set k v) :
    e = (k, v) ∨ e ∈ m := by
  induction m with
  | nil => exact .inl (List.mem_singleton.mp h)
  | cons e' m ih =>
      obtain ⟨k', v'⟩ := e'
      unfold set at h
      split at h
      · rcases List.mem_cons.mp h with h | h
        · exact .inl h
        · exact .inr (List.mem_cons_of_mem _ h)
      · rcases List.mem_cons.mp h with h | h
        · exact .inr (h ▸ List.mem_cons_self)
        · exact (ih h).imp_right (List.mem_cons_of_mem _)

/-- The entries of the map a list of entries makes are among them. -/
theorem mem_ofList {entries : List (κ × ν)} {e : κ × ν} (h : e ∈ ofList entries) :
    e ∈ entries := by
  have hfold : ∀ (rest : List (κ × ν)) (m : Assoc κ ν),
      e ∈ rest.foldl (fun m e ↦ m.set e.1 e.2) m → e ∈ m ∨ e ∈ rest := by
    intro rest
    induction rest with
    | nil => exact fun m h ↦ .inl h
    | cons a rest ih =>
        intro m hm
        rcases ih (m.set a.1 a.2) hm with h | h
        · rcases mem_set h with rfl | h
          · exact .inr List.mem_cons_self
          · exact .inl h
        · exact .inr (List.mem_cons_of_mem a h)
  rcases hfold entries [] h with h | h
  · cases h
  · exact h

@[simp] theorem get_nil (k : κ) : get ([] : Assoc κ ν) k = none := rfl

theorem get_cons (k k' : κ) (v : ν) (m : Assoc κ ν) :
    get ((k', v) :: m) k = if k = k' then some v else get m k := by
  unfold get
  rw [List.lookup_cons]
  by_cases hk : k = k'
  · subst hk
    simp
  · rw [beq_false_of_ne hk, if_neg hk]

theorem get_set (m : Assoc κ ν) (k k' : κ) (v : ν) :
    (m.set k v).get k' = if k' = k then some v else m.get k' := by
  induction m with
  | nil => exact get_cons k' k v []
  | cons e m ih =>
      obtain ⟨k₀, v₀⟩ := e
      unfold set
      by_cases hk : k₀ = k
      · rw [if_pos hk, get_cons, get_cons, ← hk]
        by_cases hk' : k' = k₀
        · rw [if_pos hk', if_pos hk']
        · rw [if_neg hk', if_neg hk', if_neg hk']
      · rw [if_neg hk, get_cons, get_cons, ih]
        by_cases hk' : k' = k₀
        · rw [if_pos hk', if_pos hk', if_neg (hk' ▸ hk)]
        · rw [if_neg hk', if_neg hk']

theorem keys_set (m : Assoc κ ν) (k : κ) (v : ν) :
    ∀ k', k' ∈ (m.set k v).map Prod.fst ↔ k' = k ∨ k' ∈ m.map Prod.fst := by
  intro k'
  induction m with
  | nil => simp [set]
  | cons e m ih =>
      obtain ⟨k₀, v₀⟩ := e
      unfold set
      by_cases hk : k₀ = k
      · rw [if_pos hk, hk]
        simp
      · rw [if_neg hk, List.map_cons, List.mem_cons, ih, List.map_cons, List.mem_cons]
        tauto

/-- No key of a map is there twice. -/
theorem nodup_set {m : Assoc κ ν} (hm : (m.map Prod.fst).Nodup) (k : κ) (v : ν) :
    ((m.set k v).map Prod.fst).Nodup := by
  induction m with
  | nil => exact List.nodup_singleton k
  | cons e m ih =>
      obtain ⟨k₀, v₀⟩ := e
      rw [List.map_cons, List.nodup_cons] at hm
      unfold set
      by_cases hk : k₀ = k
      · rw [if_pos hk, ← hk, List.map_cons, List.nodup_cons]
        exact hm
      · rw [if_neg hk, List.map_cons, List.nodup_cons]
        refine ⟨fun hin ↦ ?_, ih hm.2⟩
        rcases (keys_set m k v k₀).mp hin with h | h
        · exact hk h
        · exact hm.1 h

theorem nodup_ofList (entries : List (κ × ν)) : ((ofList entries).map Prod.fst).Nodup := by
  have hfold : ∀ (rest : List (κ × ν)) (m : Assoc κ ν), (m.map Prod.fst).Nodup →
      ((rest.foldl (fun m e ↦ m.set e.1 e.2) m).map Prod.fst).Nodup := by
    intro rest
    induction rest with
    | nil => exact fun m hm ↦ hm
    | cons a rest ih => exact fun m hm ↦ ih _ (nodup_set hm a.1 a.2)
  exact hfold entries [] List.nodup_nil

/-- A key some entry has is found. -/
theorem get_ofList_isSome {entries : List (κ × ν)} {e : κ × ν} (h : e ∈ entries) :
    ((ofList entries).get e.1).isSome = true := by
  have hkeep : ∀ (rest : List (κ × ν)) (m : Assoc κ ν), (m.get e.1).isSome = true →
      ((rest.foldl (fun m e ↦ m.set e.1 e.2) m).get e.1).isSome = true := by
    intro rest
    induction rest with
    | nil => exact fun m hm ↦ hm
    | cons a rest ih =>
        intro m hm
        refine ih _ ?_
        rw [get_set]
        split
        · rfl
        · exact hm
  have hfold : ∀ (rest : List (κ × ν)) (m : Assoc κ ν), e ∈ rest →
      ((rest.foldl (fun m e ↦ m.set e.1 e.2) m).get e.1).isSome = true := by
    intro rest
    induction rest with
    | nil => exact fun m h ↦ by cases h
    | cons a rest ih =>
        intro m hin
        rcases List.mem_cons.mp hin with rfl | hin
        · refine hkeep rest _ ?_
          rw [get_set, if_pos rfl]
          rfl
        · exact ih _ hin
  exact hfold entries [] h

omit [DecidableEq κ] in
/-- The last entry of a key, where one more entry is put at the end. -/
theorem last_append_singleton {entries : List (κ × ν)} {k k' : κ} {v v' : ν} :
    (∃ earlier later, entries ++ [(k', v')] = earlier ++ (k, v) :: later ∧
        ∀ e ∈ later, e.1 ≠ k) ↔
      (k' = k ∧ v' = v) ∨ (k' ≠ k ∧ ∃ earlier later, entries = earlier ++ (k, v) :: later ∧
        ∀ e ∈ later, e.1 ≠ k) := by
  constructor
  · rintro ⟨earlier, later, hsplit, hlater⟩
    rcases List.eq_nil_or_concat later with rfl | ⟨later, last, rfl⟩
    · have hlast := (List.append_inj' hsplit rfl).2
      simp only [List.cons.injEq, Prod.mk.injEq, and_true] at hlast
      exact .inl hlast
    · rw [List.concat_eq_append, ← List.cons_append, ← List.append_assoc] at hsplit
      obtain ⟨hentries, hlast⟩ := List.append_inj' hsplit rfl
      cases hlast
      have hmem : (k', v') ∈ later.concat (k', v') := by simp
      exact .inr ⟨hlater _ hmem, earlier, later, hentries, fun e he ↦ hlater e (by simp [he])⟩
  · rintro (⟨rfl, rfl⟩ | ⟨hne, earlier, later, rfl, hlater⟩)
    · exact ⟨entries, [], rfl, fun e h ↦ absurd h List.not_mem_nil⟩
    · refine ⟨earlier, later ++ [(k', v')], by simp, ?_⟩
      intro e he
      rcases List.mem_append.mp he with he | he
      · exact hlater e he
      · rw [List.mem_singleton.mp he]
        exact hne

/-- A map made entry by entry has a key's last value. -/
theorem get_ofList {entries : List (κ × ν)} {k : κ} {v : ν} :
    (ofList entries).get k = some v ↔
      ∃ earlier later, entries = earlier ++ (k, v) :: later ∧ ∀ e ∈ later, e.1 ≠ k := by
  induction entries using List.reverseRecOn with
  | nil => simp [ofList]
  | append_singleton entries e ih =>
      have hset : ofList (entries ++ [e]) = (ofList entries).set e.1 e.2 :=
        List.foldl_append ..
      rw [hset, get_set, last_append_singleton, ← ih]
      by_cases hk : k = e.1
      · rw [if_pos hk, Option.some_inj]
        simp [hk]
      · rw [if_neg hk]
        simp [Ne.symm hk]

theorem get_of_mem {m : Assoc κ ν} (hm : (m.map Prod.fst).Nodup) {e : κ × ν} (h : e ∈ m) :
    m.get e.1 = some e.2 := by
  induction m with
  | nil => cases h
  | cons e' m ih =>
      rw [List.map_cons, List.nodup_cons] at hm
      rw [get_cons]
      rcases List.mem_cons.mp h with rfl | h
      · rw [if_pos rfl]
      · have hne : e.1 ≠ e'.1 := fun heq ↦ hm.1 (heq ▸ List.mem_map_of_mem h)
        rw [if_neg hne]
        exact ih hm.2 h

/-! ## Groups -/

section GroupBy

variable {α : Type} (key : α → κ)

/-- An element joins the group of its key. -/
def join (m : Assoc κ (List α)) (a : α) : Assoc κ (List α) :=
  m.set (key a) ((m.get (key a)).getD [] ++ [a])

def groupBy (l : List α) : Assoc κ (List α) := l.foldl (join key) []

variable {key}

theorem groupBy_append_singleton (l : List α) (a : α) :
    groupBy key (l ++ [a]) = join key (groupBy key l) a := List.foldl_append ..

theorem nodup_groupBy (l : List α) : ((groupBy key l).map Prod.fst).Nodup := by
  induction l using List.reverseRecOn with
  | nil => exact List.nodup_nil
  | append_singleton l a ih =>
      rw [groupBy_append_singleton]
      exact nodup_set ih _ _

theorem getD_groupBy (l : List α) (k : κ) :
    ((groupBy key l).get k).getD [] = l.filter fun a ↦ key a = k := by
  induction l using List.reverseRecOn with
  | nil => rfl
  | append_singleton l a ih =>
      rw [groupBy_append_singleton, join, get_set, List.filter_append, ← ih]
      by_cases hk : k = key a
      · subst hk
        rw [if_pos rfl, List.filter_singleton, decide_eq_true rfl]
        rfl
      · rw [if_neg hk, List.filter_singleton, decide_eq_false (Ne.symm hk)]
        exact (List.append_nil _).symm

/-- A group has the elements of its key, in order. -/
theorem mem_groupBy {l : List α} {e : κ × List α} (h : e ∈ groupBy key l) :
    e.2 = l.filter fun a ↦ key a = e.1 := by
  rw [← getD_groupBy, get_of_mem (nodup_groupBy l) h, Option.getD_some]

theorem perm_join (m : Assoc κ (List α)) (a : α) :
    ((join key m a).flatMap Prod.snd).Perm (a :: m.flatMap Prod.snd) := by
  unfold join
  induction m with
  | nil => exact .refl _
  | cons e m ih =>
      obtain ⟨k, group⟩ := e
      rw [get_cons, set]
      by_cases hk : k = key a
      · rw [if_pos hk, if_pos hk.symm, List.flatMap_cons, List.flatMap_cons, Option.getD_some,
          List.append_assoc]
        exact List.perm_middle
      · rw [if_neg hk, if_neg (Ne.symm hk), List.flatMap_cons, List.flatMap_cons]
        exact (ih.append_left group).trans List.perm_middle

/-- Every element is in one group, once. -/
theorem perm_groupBy (l : List α) : ((groupBy key l).flatMap Prod.snd).Perm l := by
  induction l using List.reverseRecOn with
  | nil => exact .refl _
  | append_singleton l a ih =>
      rw [groupBy_append_singleton]
      exact (perm_join _ a).trans ((ih.cons a).trans (List.perm_append_singleton a l).symm)

end GroupBy

end Assoc

end Tesbo.Reasoning
