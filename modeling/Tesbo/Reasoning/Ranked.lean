import Tesbo.Reasoning.Assoc
import Mathlib.Data.List.Sort
import Mathlib.Data.List.TakeWhile
import Mathlib.Tactic

/-!
# Lists in order of a score

A stable sort puts one element before another when its score is higher, or when it is the same and
it stood before.  The keys of a list, each at the place of its first element, are `firsts`.
-/

namespace Tesbo.Reasoning

variable {α β κ : Type}

/-! ## Before -/

/-- One element stands somewhere before the other. -/
def Before (a b : α) (l : List α) : Prop := List.Sublist [a, b] l

theorem Before.mem {a b : α} {l : List α} (h : Before a b l) : a ∈ l ∧ b ∈ l :=
  ⟨h.subset List.mem_cons_self, h.subset (List.mem_cons_of_mem _ List.mem_cons_self)⟩

theorem before_cons {a b c : α} {l : List α} :
    Before a b (c :: l) ↔ Before a b l ∨ (a = c ∧ b ∈ l) := by
  unfold Before
  rw [List.sublist_cons_iff]
  refine or_congr Iff.rfl ?_
  constructor
  · intro ⟨r, hr, hsub⟩
    obtain ⟨rfl, rfl⟩ := List.cons.inj hr
    exact ⟨rfl, List.singleton_sublist.mp hsub⟩
  · intro ⟨hac, hb⟩
    exact ⟨[b], by rw [hac], List.singleton_sublist.mpr hb⟩

theorem before_or {a b : α} {l : List α} (ha : a ∈ l) (hb : b ∈ l) (hne : a ≠ b) :
    Before a b l ∨ Before b a l := by
  induction l with
  | nil => cases ha
  | cons c l ih =>
      rw [before_cons, before_cons]
      rcases List.mem_cons.mp ha with hac | hal
      · exact .inl (.inr ⟨hac, (List.mem_cons.mp hb).resolve_left fun h ↦ hne (hac.trans h.symm)⟩)
      · rcases List.mem_cons.mp hb with hbc | hbl
        · exact .inr (.inr ⟨hbc, hal⟩)
        · exact (ih hal hbl).imp .inl .inl

theorem Before.asymm {a b : α} {l : List α} (hl : l.Nodup) (h : Before a b l) :
    ¬ Before b a l := by
  induction l with
  | nil => exact fun h ↦ (by cases h)
  | cons c l ih =>
      rw [List.nodup_cons] at hl
      rw [before_cons] at h ⊢
      rintro (hba | ⟨rfl, ha⟩)
      · rcases h with h | ⟨rfl, hb⟩
        · exact ih hl.2 h hba
        · exact hl.1 hba.mem.2
      · rcases h with h | ⟨rfl, hb⟩
        · exact hl.1 h.mem.2
        · exact hl.1 ha

/-! ## Sorted by score -/

section Score

variable [LinearOrder β] (score : α → β)

/-- `sort((a, b) => score(b) - score(a))` -/
def byScore (l : List α) : List α := l.mergeSort fun a b ↦ score b ≤ score a

variable {score} {l : List α} {a b : α}

theorem mem_byScore : a ∈ byScore score l ↔ a ∈ l := (List.mergeSort_perm _ _).mem_iff

theorem nodup_byScore (hl : l.Nodup) : (byScore score l).Nodup :=
  (List.mergeSort_perm _ _).nodup_iff.mpr hl

theorem byScore_trans (a b c : α) (hab : decide (score b ≤ score a) = true)
    (hbc : decide (score c ≤ score b) = true) : decide (score c ≤ score a) = true := by
  rw [decide_eq_true_eq] at *
  exact hbc.trans hab

theorem byScore_total (a b : α) :
    (decide (score b ≤ score a) || decide (score a ≤ score b)) = true := by
  rw [Bool.or_eq_true, decide_eq_true_eq, decide_eq_true_eq]
  exact le_total _ _

theorem pairwise_byScore : (byScore score l).Pairwise fun a b ↦ score b ≤ score a :=
  (List.pairwise_mergeSort byScore_trans byScore_total l).imp of_decide_eq_true

/-- What the stable sort does to two elements. -/
theorem before_byScore (hl : l.Nodup) (ha : a ∈ l) (hb : b ∈ l) (hne : a ≠ b) :
    Before a b (byScore score l) ↔ score b < score a ∨ score b = score a ∧ Before a b l := by
  have hordered : ∀ {a b : α}, Before a b (byScore score l) → score b ≤ score a := by
    intro a b h
    have hsorted : (byScore score l).Pairwise fun a b ↦ score b ≤ score a := pairwise_byScore
    have hpair := hsorted.sublist h
    exact List.rel_of_pairwise_cons hpair List.mem_cons_self
  have hstable : ∀ {a b : α}, score b ≤ score a → Before a b l → Before a b (byScore score l) :=
    fun hle h ↦ List.pair_sublist_mergeSort byScore_trans byScore_total (decide_eq_true hle) h
  constructor
  · intro h
    rcases (hordered h).lt_or_eq with hlt | heq
    · exact .inl hlt
    · refine .inr ⟨heq, (before_or ha hb hne).resolve_right fun hba ↦ ?_⟩
      exact h.asymm (nodup_byScore hl) (hstable heq.ge hba)
  · rintro (hlt | ⟨heq, h⟩)
    · refine (before_or (mem_byScore.mpr ha) (mem_byScore.mpr hb) hne).resolve_right fun hba ↦ ?_
      exact absurd (hordered hba) (not_le.mpr hlt)
    · exact hstable heq.le h

end Score

/-! ## Keys in the order of their first elements -/

section Firsts

variable [DecidableEq κ]

def addKey (ks : List κ) (k : κ) : List κ := if k ∈ ks then ks else ks ++ [k]

def firsts (l : List κ) : List κ := l.foldl addKey []

variable {k k' : κ} {l l' : List κ}

theorem firsts_append_singleton (l : List κ) (k : κ) :
    firsts (l ++ [k]) = addKey (firsts l) k := List.foldl_append ..

theorem mem_addKey {ks : List κ} : k' ∈ addKey ks k ↔ k' ∈ ks ∨ k' = k := by
  unfold addKey
  split
  · rename_i hk
    exact ⟨.inl, fun h ↦ h.elim id fun h ↦ h ▸ hk⟩
  · rw [List.mem_append, List.mem_singleton]

theorem mem_firsts : k ∈ firsts l ↔ k ∈ l := by
  induction l using List.reverseRecOn with
  | nil => exact Iff.rfl
  | append_singleton l a ih =>
      rw [firsts_append_singleton, mem_addKey, ih, List.mem_append, List.mem_singleton]

theorem nodup_firsts (l : List κ) : (firsts l).Nodup := by
  induction l using List.reverseRecOn with
  | nil => exact List.nodup_nil
  | append_singleton l a ih =>
      rw [firsts_append_singleton]
      unfold addKey
      split
      · exact ih
      · rename_i ha
        exact ih.append (List.nodup_singleton a) (List.disjoint_singleton.mpr ha)

theorem firsts_prefix (l l' : List κ) : ∃ rest, firsts (l ++ l') = firsts l ++ rest := by
  induction l' using List.reverseRecOn with
  | nil => exact ⟨[], by rw [List.append_nil, List.append_nil]⟩
  | append_singleton l' a ih =>
      obtain ⟨rest, hrest⟩ := ih
      rw [← List.append_assoc, firsts_append_singleton, hrest]
      unfold addKey
      split
      · exact ⟨rest, rfl⟩
      · exact ⟨rest ++ [a], List.append_assoc ..⟩

/-- A key that is there earlier has the lower place. -/
theorem idxOf_firsts_lt [BEq κ] [LawfulBEq κ] (hk : k ∈ l) (hk' : k' ∉ l) :
    (firsts (l ++ l')).idxOf k < (firsts (l ++ l')).idxOf k' := by
  obtain ⟨rest, hrest⟩ := firsts_prefix l l'
  rw [← mem_firsts] at hk hk'
  rw [hrest, List.idxOf_append_of_mem hk, List.idxOf_append_of_notMem hk']
  exact (List.idxOf_lt_length_iff.mpr hk).trans_le (Nat.le_add_right _ _)

/-- In a list in order of a value, a key with an element above all those of another comes first,
whatever follows the list. -/
theorem idxOf_firsts_lt_of_above [BEq κ] [LawfulBEq κ] [Preorder β] {key : α → κ}
    {value : α → β} {rows : List α} {r : α}
    (hrows : rows.Pairwise fun a b ↦ value b ≤ value a) (hr : r ∈ rows)
    (habove : ∀ r' ∈ rows, key r' = k' → value r' < value r) :
    (firsts (rows.map key ++ l')).idxOf (key r) < (firsts (rows.map key ++ l')).idxOf k' := by
  have hsplit := List.takeWhile_append_dropWhile (p := fun a ↦ key a ≠ k') (l := rows)
  have hout : k' ∉ (rows.takeWhile fun a ↦ key a ≠ k').map key := by
    intro hin
    obtain ⟨a, ha, hak⟩ := List.mem_map.mp hin
    have hne := List.mem_takeWhile_imp ha
    rw [decide_eq_true_eq] at hne
    exact hne hak
  have hin : r ∈ rows.takeWhile fun a ↦ key a ≠ k' := by
    rw [← hsplit] at hr hrows habove
    refine (List.mem_append.mp hr).resolve_right fun hpost ↦ ?_
    -- the first element with the other key would not be below
    cases hdrop : rows.dropWhile fun a ↦ key a ≠ k' with
    | nil =>
        rw [hdrop] at hpost
        cases hpost
    | cons r' post =>
        have hkey : key r' = k' := by
          have := List.head?_dropWhile_not (fun a ↦ decide (key a ≠ k')) rows
          rw [hdrop, List.head?_cons] at this
          simpa using this
        rw [hdrop] at hpost hrows habove
        have hlt := habove r' (List.mem_append_right _ List.mem_cons_self) hkey
        rcases List.mem_cons.mp hpost with rfl | hpost
        · exact lt_irrefl _ hlt
        · have hle := List.rel_of_pairwise_cons (List.pairwise_append.mp hrows).2.1 hpost
          exact lt_irrefl _ (hlt.trans_le hle)
  rw [← hsplit, List.map_append, List.append_assoc]
  exact idxOf_firsts_lt (List.mem_map_of_mem hin) hout

theorem firsts_eq_self (h : l.Nodup) : firsts l = l := by
  induction l using List.reverseRecOn with
  | nil => rfl
  | append_singleton l a ih =>
      rw [List.nodup_append] at h
      have ha : a ∉ l := fun hin ↦ h.2.2 a hin a List.mem_cons_self rfl
      rw [firsts_append_singleton, ih h.1, addKey, if_neg ha]

/-- A map keeps its keys in the order they came. -/
theorem map_fst_set {ν : Type} (m : Assoc κ ν) (k : κ) (v : ν) :
    (m.set k v).map Prod.fst = addKey (m.map Prod.fst) k := by
  unfold addKey
  induction m with
  | nil => rfl
  | cons e m ih =>
      obtain ⟨k₀, v₀⟩ := e
      unfold Assoc.set
      by_cases hk : k₀ = k
      · have hin : k ∈ ((k₀, v₀) :: m).map Prod.fst := List.mem_cons.mpr (.inl hk.symm)
        rw [if_pos hk, if_pos hin, List.map_cons, List.map_cons, hk]
      · rw [if_neg hk, List.map_cons, ih, List.map_cons]
        by_cases hin : k ∈ m.map Prod.fst
        · rw [if_pos hin, if_pos (List.mem_cons_of_mem _ hin)]
        · have hout : k ∉ k₀ :: m.map Prod.fst := fun h ↦
            (List.mem_cons.mp h).elim (fun h ↦ hk h.symm) hin
          rw [if_neg hin, if_neg hout]
          rfl

end Firsts

/-- Elements with different keys stand as their keys do. -/
theorem before_of_idxOf_lt [BEq κ] [LawfulBEq κ] {f : α → κ} {l : List α} {a b : α}
    (hl : (l.map f).Nodup) (ha : a ∈ l) (hb : b ∈ l)
    (hlt : (l.map f).idxOf (f a) < (l.map f).idxOf (f b)) : Before a b l := by
  have hne : a ≠ b := by
    rintro rfl
    exact lt_irrefl _ hlt
  induction l with
  | nil => cases ha
  | cons c l ih =>
      rw [before_cons]
      rw [List.map_cons, List.nodup_cons] at hl
      rcases List.mem_cons.mp ha with rfl | ha
      · exact .inr ⟨rfl, (List.mem_cons.mp hb).resolve_left (Ne.symm hne)⟩
      · rcases List.mem_cons.mp hb with rfl | hb
        · rw [List.map_cons, List.idxOf_cons_self] at hlt
          exact absurd hlt (Nat.not_lt_zero _)
        · have hca : f c ≠ f a := fun h ↦ hl.1 (h ▸ List.mem_map_of_mem ha)
          have hcb : f c ≠ f b := fun h ↦ hl.1 (h ▸ List.mem_map_of_mem hb)
          rw [List.map_cons, List.idxOf_cons_ne _ hca, List.idxOf_cons_ne _ hcb,
            Nat.succ_lt_succ_iff] at hlt
          exact .inl (ih hl.2 ha hb hlt)

end Tesbo.Reasoning
