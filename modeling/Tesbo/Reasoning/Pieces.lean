import Mathlib.Data.List.DropRight
import Mathlib.Tactic

/-!
# Texts joined and taken apart

A list of texts is written one after the other with separators between them, and read back by
splitting at the separators and trimming what lies between.
-/

namespace Tesbo.Reasoning

variable {α : Type}

section Trim

variable (space : α → Bool)

def trim (l : List α) : List α := (l.dropWhile space).rdropWhile space

/-- No space at either end. -/
def Trimmed (l : List α) : Prop :=
  (∀ c ∈ l.head?, space c = false) ∧ ∀ c ∈ l.getLast?, space c = false

instance (l : List α) : Decidable (Trimmed space l) :=
  inferInstanceAs (Decidable ((∀ c ∈ l.head?, space c = false) ∧
    ∀ c ∈ l.getLast?, space c = false))

variable {space}

theorem Trimmed.nil : Trimmed space [] := ⟨fun _ h ↦ (by cases h), fun _ h ↦ (by cases h)⟩

theorem trimmed_of_solid {l : List α} (h : ∀ c ∈ l, space c = false) : Trimmed space l :=
  ⟨fun c hc ↦ h c (List.mem_of_mem_head? hc), fun c hc ↦ h c (List.mem_of_mem_getLast? hc)⟩

theorem rdropWhile_eq_self {l : List α} (h : ∀ c ∈ l.getLast?, space c = false) :
    l.rdropWhile space = l := by
  rw [List.rdropWhile_eq_self_iff]
  intro hl
  rw [h _ (List.getLast?_eq_some_getLast hl)]
  exact Bool.false_ne_true

theorem dropWhile_eq_self {l : List α} (h : ∀ c ∈ l.head?, space c = false) :
    l.dropWhile space = l := by
  cases l with
  | nil => rfl
  | cons c l => rw [List.dropWhile_cons, h c rfl, if_neg Bool.false_ne_true]

theorem Trimmed.trim_eq {l : List α} (h : Trimmed space l) : trim space l = l := by
  unfold trim
  rw [dropWhile_eq_self h.1, rdropWhile_eq_self h.2]

theorem head?_dropWhile {l : List α} : ∀ c ∈ (l.dropWhile space).head?, space c = false := by
  intro c hc
  cases hl : l.dropWhile space with
  | nil => rw [hl] at hc; cases hc
  | cons d r =>
      have hd := List.dropWhile_get_zero_not (p := space) l (by rw [hl]; exact Nat.succ_pos _)
      rw [hl, List.head?_cons, Option.mem_some_iff] at hc
      simp only [hl, List.get_eq_getElem, List.getElem_cons_zero] at hd
      rw [← hc]
      exact Bool.eq_false_iff.mpr hd

theorem getLast?_rdropWhile {l : List α} :
    ∀ c ∈ (l.rdropWhile space).getLast?, space c = false := by
  intro c hc
  have hne : l.rdropWhile space ≠ [] := by
    intro h
    rw [h] at hc
    cases hc
  rw [List.getLast?_eq_some_getLast hne, Option.mem_some_iff] at hc
  rw [← hc]
  exact Bool.eq_false_iff.mpr (List.rdropWhile_last_not space l hne)

theorem trimmed_trim (l : List α) : Trimmed space (trim space l) := by
  refine ⟨fun c hc ↦ ?_, fun c hc ↦ ?_⟩
  · have hpre : (trim space l) <+: l.dropWhile space := List.rdropWhile_prefix space _
    obtain ⟨r, hr⟩ := hpre
    refine @head?_dropWhile α space l c ?_
    rw [← hr, List.head?_append, Option.mem_def.mp hc]
    rfl
  · exact getLast?_rdropWhile c hc

theorem isInfix_trim (l : List α) : trim space l <:+: l :=
  (List.rdropWhile_prefix space _).isInfix.trans (List.dropWhile_suffix space).isInfix

theorem trim_cons_space {c : α} {l : List α} (h : space c = true) :
    trim space (c :: l) = trim space l := by
  unfold trim
  rw [List.dropWhile_cons, if_pos h]

theorem trim_concat_space {c : α} {l : List α} (h : space c = true) :
    trim space (l ++ [c]) = trim space l := by
  unfold trim
  rw [List.dropWhile_append]
  split
  · rename_i hempty
    rw [List.isEmpty_iff.mp hempty, List.dropWhile_cons, if_pos h]
    rfl
  · exact List.rdropWhile_concat_pos space _ c h

/-- Space after a trimmed text goes. -/
theorem Trimmed.trim_append_spaces {a b : List α} (ha : Trimmed space a)
    (hb : ∀ c ∈ b, space c = true) : trim space (a ++ b) = a := by
  induction b using List.reverseRecOn with
  | nil => rw [List.append_nil, ha.trim_eq]
  | append_singleton b c ih =>
      rw [← List.append_assoc, trim_concat_space (hb c (by simp))]
      exact ih fun d hd ↦ hb d (List.mem_append_left _ hd)

/-- Text that is not all space is cut at its end only, after a trimmed text. -/
theorem Trimmed.trim_append {a b : List α} (ha : Trimmed space a) (hane : a ≠ [])
    (hb : b.rdropWhile space ≠ []) : trim space (a ++ b) = a ++ b.rdropWhile space := by
  have hmid : Trimmed space (a ++ b.rdropWhile space) := by
    refine ⟨fun c hc ↦ ha.1 c ?_, fun c hc ↦ @getLast?_rdropWhile α space b c ?_⟩
    · obtain ⟨d, a', rfl⟩ := List.exists_cons_of_ne_nil hane
      exact hc
    · rw [List.getLast?_append, List.getLast?_eq_some_getLast hb] at hc
      rw [List.getLast?_eq_some_getLast hb]
      exact hc
  calc trim space (a ++ b)
      = trim space (a ++ b.rdropWhile space ++ b.rtakeWhile space) := by
        rw [List.append_assoc, List.rdropWhile_append_rtakeWhile]
    _ = a ++ b.rdropWhile space :=
        hmid.trim_append_spaces fun c hc ↦ List.mem_rtakeWhile_imp hc

/-- Text between two texts that are not all space is not trimmed away. -/
theorem Trimmed.append {a b c : List α} (ha : Trimmed space a) (hb : Trimmed space b)
    (hane : a ≠ []) (hbne : b ≠ []) : Trimmed space (a ++ c ++ b) := by
  refine ⟨fun x hx ↦ ha.1 x ?_, fun x hx ↦ hb.2 x ?_⟩
  · obtain ⟨d, a', rfl⟩ := List.exists_cons_of_ne_nil hane
    exact hx
  · rw [List.getLast?_append, List.getLast?_eq_some_getLast hbne] at hx
    rw [List.getLast?_eq_some_getLast hbne]
    exact hx

end Trim

section Pieces

variable (space sep : α → Bool)

/-- What lies between the separators, trimmed, where it is not empty. -/
def pieces (l : List α) : List (List α) :=
  ((l.splitOnP sep).map (trim space)).filter fun piece ↦ !piece.isEmpty

variable {space sep}

theorem pieces_append_sep {c : α} (hc : sep c = true) (a b : List α) :
    pieces space sep (a ++ c :: b) = pieces space sep a ++ pieces space sep b := by
  unfold pieces
  rw [List.splitOnP_append_cons _ _ hc, List.map_append, List.filter_append]

theorem pieces_cons_space {c : α} (hspace : space c = true) (hsep : sep c = false) (l : List α) :
    pieces space sep (c :: l) = pieces space sep l := by
  unfold pieces
  rw [List.splitOnP_cons_eq_if_modifyHead, hsep, if_neg Bool.false_ne_true]
  obtain ⟨a, rest, hl⟩ := List.exists_cons_of_ne_nil (List.splitOnP_ne_nil sep l)
  rw [hl, List.modifyHead_cons, List.map_cons, List.map_cons, trim_cons_space hspace]

theorem not_sep_of_mem_splitOnP {l part : List α} (h : part ∈ l.splitOnP sep) :
    ∀ c ∈ part, sep c = false := by
  induction l generalizing part with
  | nil =>
      obtain rfl := List.mem_singleton.mp h
      exact fun c hc ↦ (by cases hc)
  | cons a l ih =>
      rw [List.splitOnP_cons_eq_if_modifyHead] at h
      obtain ⟨first, rest, hl⟩ := List.exists_cons_of_ne_nil (List.splitOnP_ne_nil sep l)
      rw [hl] at h ih
      split at h
      · rcases List.mem_cons.mp h with rfl | h
        · exact fun c hc ↦ (by cases hc)
        · exact ih h
      · rename_i hsep
        rw [List.modifyHead_cons] at h
        rcases List.mem_cons.mp h with rfl | h
        · rintro c (_ | ⟨_, hc⟩)
          · exact Bool.eq_false_iff.mpr hsep
          · exact ih List.mem_cons_self c hc
        · exact ih (List.mem_cons_of_mem _ h)

theorem mem_of_mem_splitOnP {l part : List α} (h : part ∈ l.splitOnP sep) : ∀ c ∈ part, c ∈ l := by
  induction l generalizing part with
  | nil =>
      obtain rfl := List.mem_singleton.mp h
      exact fun c hc ↦ hc
  | cons a l ih =>
      rw [List.splitOnP_cons_eq_if_modifyHead] at h
      obtain ⟨first, rest, hl⟩ := List.exists_cons_of_ne_nil (List.splitOnP_ne_nil sep l)
      rw [hl] at h ih
      split at h
      · rcases List.mem_cons.mp h with rfl | h
        · exact fun c hc ↦ (by cases hc)
        · exact fun c hc ↦ List.mem_cons_of_mem a (ih h c hc)
      · rw [List.modifyHead_cons] at h
        rcases List.mem_cons.mp h with rfl | h
        · rintro c (_ | ⟨_, hc⟩)
          · exact List.mem_cons_self
          · exact List.mem_cons_of_mem a (ih List.mem_cons_self c hc)
        · exact fun c hc ↦ List.mem_cons_of_mem a (ih (List.mem_cons_of_mem _ h) c hc)

/-- The texts with `glue` between each two of them. -/
def joined (glue : List α) : List (List α) → List α
  | [] => []
  | [a] => a
  | a :: b :: rest => a ++ glue ++ joined glue (b :: rest)

/-- The pieces of joined texts are the pieces of the texts. -/
theorem pieces_joined {c d : α} (hc : sep c = true) (hspace : space d = true)
    (hd : sep d = false) (texts : List (List α)) :
    pieces space sep (joined [c, d] texts) = texts.flatMap (pieces space sep) := by
  induction texts with
  | nil => rfl
  | cons a rest ih =>
      cases rest with
      | nil => rw [joined, List.flatMap_cons, List.flatMap_nil, List.append_nil]
      | cons b rest =>
          rw [joined, List.append_assoc, List.cons_append, List.cons_append, List.nil_append,
            pieces_append_sep hc, pieces_cons_space hspace hd, ih]
          rfl

theorem joined_ne_nil {glue : List α} {texts : List (List α)} (hne : texts ≠ [])
    (h : ∀ a ∈ texts, a ≠ []) : joined glue texts ≠ [] := by
  match texts with
  | [] => exact absurd rfl hne
  | [a] => exact h a List.mem_cons_self
  | a :: b :: rest =>
      rw [joined]
      simp [h a List.mem_cons_self]

theorem trimmed_joined {glue : List α} {texts : List (List α)}
    (h : ∀ a ∈ texts, a ≠ [] ∧ Trimmed space a) : Trimmed space (joined glue texts) := by
  induction texts with
  | nil => exact Trimmed.nil
  | cons a rest ih =>
      cases rest with
      | nil => exact (h a List.mem_cons_self).2
      | cons b rest =>
          have hrest : ∀ x ∈ b :: rest, x ≠ [] ∧ Trimmed space x :=
            fun x hx ↦ h x (List.mem_cons_of_mem a hx)
          exact (h a List.mem_cons_self).2.append (ih hrest) (h a List.mem_cons_self).1
            (joined_ne_nil (List.cons_ne_nil b rest) fun x hx ↦ (hrest x hx).1)

end Pieces

/-! ## Splitting at the matches of a pattern -/

section Matches

/-- The texts between the matches of a pattern, which `m` measures: the length of the match a text
begins with, 0 where it begins with none.  A match is looked for at each place in turn; `skip`
characters are still part of the last one. -/
def splitGo (m : List α → ℕ) : ℕ → List α → List (List α)
  | _, [] => [[]]
  | skip + 1, _ :: cs => splitGo m skip cs
  | 0, c :: cs =>
      match m (c :: cs) with
      | 0 => (splitGo m 0 cs).modifyHead (c :: ·)
      | k + 1 => [] :: splitGo m k cs

def splitMatches (m : List α → ℕ) (l : List α) : List (List α) := splitGo m 0 l

variable {m : List α → ℕ}

theorem splitGo_eq_drop (k : ℕ) (l : List α) : splitGo m k l = splitMatches m (l.drop k) := by
  induction l generalizing k with
  | nil => cases k <;> rfl
  | cons c l ih =>
      cases k with
      | zero => rfl
      | succ k => exact ih k

theorem splitMatches_ne_nil (l : List α) : splitMatches m l ≠ [] := by
  induction l with
  | nil => exact List.cons_ne_nil _ _
  | cons c l ih =>
      unfold splitMatches splitGo
      split
      · obtain ⟨a, rest, hl⟩ := List.exists_cons_of_ne_nil ih
        unfold splitMatches at hl
        rw [hl]
        exact List.cons_ne_nil _ _
      · exact List.cons_ne_nil _ _

theorem splitMatches_cons_of_none {c : α} {l : List α} (h : m (c :: l) = 0) :
    splitMatches m (c :: l) = (splitMatches m l).modifyHead (c :: ·) := by
  unfold splitMatches
  conv_lhs => unfold splitGo
  rw [h]

/-- A match at the front ends a text. -/
theorem splitMatches_of_match {x l : List α} (h : m (x ++ l) = x.length) (hne : x ≠ []) :
    splitMatches m (x ++ l) = [] :: splitMatches m l := by
  obtain ⟨c, x, rfl⟩ := List.exists_cons_of_ne_nil hne
  unfold splitMatches
  rw [List.cons_append] at h ⊢
  conv_lhs => unfold splitGo
  rw [h, List.length_cons]
  change [] :: splitGo m x.length (x ++ l) = _
  rw [splitGo_eq_drop, List.drop_left]
  rfl

/-- A text in which no match begins is not split. -/
theorem splitMatches_append {a l : List α}
    (h : ∀ x y, a = x ++ y → y ≠ [] → m (y ++ l) = 0) :
    splitMatches m (a ++ l) = (splitMatches m l).modifyHead (a ++ ·) := by
  induction a with
  | nil =>
      obtain ⟨b, rest, hl⟩ := List.exists_cons_of_ne_nil (splitMatches_ne_nil (m := m) l)
      rw [List.nil_append, hl]
      rfl
  | cons c a ih =>
      have hnone : m (c :: (a ++ l)) = 0 := h [] (c :: a) rfl (List.cons_ne_nil c a)
      rw [List.cons_append, splitMatches_cons_of_none hnone,
        ih fun x y hxy hy ↦ h (c :: x) y (by rw [hxy]; rfl) hy]
      obtain ⟨b, rest, hl⟩ := List.exists_cons_of_ne_nil (splitMatches_ne_nil (m := m) l)
      rw [hl]
      rfl

/-- The first text is the beginning of the whole. -/
theorem head_splitMatches_spec {l a : List α} (h : a ∈ (splitMatches m l).head?) : a <+: l := by
  induction l generalizing a with
  | nil =>
      obtain rfl := Option.some.inj h
      exact List.prefix_rfl
  | cons c l ih =>
      cases hm : m (c :: l) with
      | zero =>
          rw [splitMatches_cons_of_none hm] at h
          obtain ⟨b, rest, hl⟩ := List.exists_cons_of_ne_nil (splitMatches_ne_nil (m := m) l)
          rw [hl, List.modifyHead_cons, List.head?_cons, Option.mem_some_iff] at h
          rw [← h, List.cons_prefix_cons]
          exact ⟨rfl, ih (by rw [hl]; rfl)⟩
      | succ k =>
          unfold splitMatches splitGo at h
          rw [hm] at h
          obtain rfl := Option.some.inj h
          exact List.nil_prefix

/-- What holds of the empty text, and stays true when a character is put before the beginning of a
rest where no match begins, holds of every text between matches. -/
theorem forall_mem_splitMatches {P : List α → Prop} (hnil : P [])
    (hcons : ∀ c a l, m (c :: l) = 0 → a <+: l → P a → P (c :: a)) {l a : List α}
    (h : a ∈ splitMatches m l) : P a := by
  have hgo : ∀ k (l : List α), ∀ a ∈ splitGo m k l, P a := by
    intro k l
    induction l generalizing k with
    | nil =>
        intro a ha
        cases k <;> exact List.mem_singleton.mp ha ▸ hnil
    | cons c l ih =>
        intro a ha
        cases k with
        | succ k => exact ih k a ha
        | zero =>
            unfold splitGo at ha
            cases hm : m (c :: l) with
            | succ k =>
                rw [hm] at ha
                rcases List.mem_cons.mp ha with rfl | ha
                · exact hnil
                · exact ih k a ha
            | zero =>
                rw [hm] at ha
                obtain ⟨b, rest, hl⟩ :=
                  List.exists_cons_of_ne_nil (splitMatches_ne_nil (m := m) l)
                have hl' : splitGo m 0 l = b :: rest := hl
                simp only [hl', List.modifyHead_cons] at ha
                rcases List.mem_cons.mp ha with rfl | ha
                · exact hcons c b l hm (head_splitMatches_spec (m := m) (by rw [hl]; rfl))
                    (ih 0 b (by rw [hl']; exact List.mem_cons_self))
                · exact ih 0 a (by rw [hl']; exact List.mem_cons_of_mem b ha)
  exact hgo 0 l a h

theorem subset_of_mem_splitMatches {l a : List α} (h : a ∈ splitMatches m l) : a ⊆ l := by
  have hgo : ∀ k (l : List α), ∀ a ∈ splitGo m k l, a ⊆ l := by
    intro k l
    induction l generalizing k with
    | nil =>
        intro a ha
        cases k <;> exact List.mem_singleton.mp ha ▸ List.nil_subset []
    | cons c l ih =>
        intro a ha
        cases k with
        | succ k => exact List.subset_cons_of_subset c (ih k a ha)
        | zero =>
            unfold splitGo at ha
            split at ha
            · obtain ⟨b, rest, hl⟩ :=
                List.exists_cons_of_ne_nil (splitMatches_ne_nil (m := m) l)
              have hl' : splitGo m 0 l = b :: rest := hl
              rw [hl', List.modifyHead_cons] at ha
              rcases List.mem_cons.mp ha with rfl | ha
              · exact List.cons_subset_cons c (ih 0 b (hl'.symm ▸ List.mem_cons_self))
              · exact List.subset_cons_of_subset c (ih 0 a (hl'.symm ▸ List.mem_cons_of_mem b ha))
            · rcases List.mem_cons.mp ha with rfl | ha
              · exact List.nil_subset _
              · exact List.subset_cons_of_subset c (ih _ a ha)
  exact hgo 0 l a h

theorem mem_of_mem_joined {glue : List α} {texts : List (List α)} {c : α}
    (h : c ∈ joined glue texts) : c ∈ glue ∨ ∃ a ∈ texts, c ∈ a := by
  induction texts with
  | nil => cases h
  | cons a rest ih =>
      cases rest with
      | nil => exact .inr ⟨a, List.mem_cons_self, h⟩
      | cons b rest =>
          rw [joined, List.append_assoc, List.mem_append, List.mem_append] at h
          rcases h with h | h | h
          · exact .inr ⟨a, List.mem_cons_self, h⟩
          · exact .inl h
          · exact (ih h).imp_right fun ⟨x, hx, hc⟩ ↦ ⟨x, List.mem_cons_of_mem a hx, hc⟩

end Matches

end Tesbo.Reasoning
