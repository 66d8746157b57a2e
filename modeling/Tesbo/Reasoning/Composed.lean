import Tesbo.Reasoning.Scans

/-!
# Texts made of pieces

A text is composed when it is pieces, each written in full.  Such a text may be cut where a letter
stands that only occurs alone, and a replacement that never begins inside of a piece leaves a composed
text.
-/

namespace Tesbo.Reasoning

open Scans

variable {α β γ : Type}

def Composed (render : β → List α) (t : List α) : Prop := ∃ pieces : List β, t = pieces.flatMap render

namespace Composed

variable {render : β → List α} {a b : List α}

theorem nil : Composed render [] := ⟨[], rfl⟩

theorem piece (p : β) : Composed render (render p) := ⟨[p], by rw [List.flatMap_singleton]⟩

theorem append (ha : Composed render a) (hb : Composed render b) : Composed render (a ++ b) := by
  obtain ⟨ps, rfl⟩ := ha
  obtain ⟨qs, rfl⟩ := hb
  exact ⟨ps ++ qs, List.flatMap_append.symm⟩

theorem flatMap {ι : Type} {f : ι → List α} {l : List ι} (h : ∀ i ∈ l, Composed render (f i)) :
    Composed render (l.flatMap f) := by
  induction l with
  | nil => exact nil
  | cons i l ih =>
      rw [List.flatMap_cons]
      apply append
      · exact h i List.mem_cons_self
      · exact ih fun j hj ↦ h j (List.mem_cons_of_mem i hj)

/-- Pieces of one kind as pieces of another. -/
theorem map {δ : Type} {render' : δ → List α} (h : ∀ p, Composed render' (render p))
    (ha : Composed render a) : Composed render' a := by
  obtain ⟨ps, rfl⟩ := ha
  exact flatMap fun p _ ↦ h p

/-- A letter that is in no piece but the one that is this letter. -/
def Alone (render : β → List α) (c : α) : Prop := ∀ p, c ∈ render p → render p = [c]

theorem cut {c : α} (hc : Alone render c) (h : Composed render (a ++ c :: b)) :
    Composed render a ∧ Composed render b := by
  obtain ⟨ps, hps⟩ := h
  induction ps generalizing a with
  | nil =>
      rw [List.flatMap_nil] at hps
      exact absurd hps (List.append_ne_nil_of_right_ne_nil _ (List.cons_ne_nil _ _))
  | cons p ps ih =>
      rw [List.flatMap_cons] at hps
      rcases List.append_eq_append_iff.mp hps with ⟨more, hp, hrest⟩ | ⟨more, ha, hrest⟩
      · cases more with
        | nil =>
            rw [List.append_nil] at hp
            rw [List.nil_append] at hrest
            have hstart := ih (a := []) hrest
            exact ⟨hp ▸ piece p, hstart.2⟩
        | cons d more =>
            obtain ⟨rfl, hb⟩ := List.cons.inj hrest
            have halone := hc p (hp ▸ List.mem_append_right _ List.mem_cons_self)
            rw [halone] at hp
            have hlength := congrArg List.length hp
            rw [List.length_append, List.length_singleton, List.length_cons] at hlength
            have hnil : a = [] := List.length_eq_zero_iff.mp (by omega)
            have hmore : more = [] := List.length_eq_zero_iff.mp (by omega)
            rw [hnil, hb, hmore]
            exact ⟨nil, ps, rfl⟩
      · obtain ⟨hmore, hb⟩ := ih hrest.symm
        exact ⟨ha ▸ (piece p).append hmore, hb⟩

theorem of_cons {c : α} (hc : Alone render c) (h : Composed render (c :: b)) : Composed render b :=
  (cut (a := []) hc h).2

/-- What comes after a word of such letters. -/
theorem of_append {word : List α} (hword : ∀ c ∈ word, Alone render c)
    (h : Composed render (word ++ b)) : Composed render b := by
  induction word with
  | nil => exact h
  | cons c word ih =>
      apply ih fun d hd ↦ hword d (List.mem_cons_of_mem c hd)
      exact of_cons (hword c List.mem_cons_self) h

/-- What stands before and after a word of such letters. -/
theorem cut_word {c : α} {word : List α} (hword : ∀ d ∈ c :: word, Alone render d)
    (h : Composed render (a ++ (c :: word ++ b))) : Composed render a ∧ Composed render b := by
  obtain ⟨ha, hb⟩ := cut (hword c List.mem_cons_self) h
  exact ⟨ha, of_append (fun d hd ↦ hword d (List.mem_cons_of_mem c hd)) hb⟩

/-- A replacement that begins at the last letter of a piece if anywhere, and that leaves composed texts
for what it takes and after it.  What is composed of pieces of one kind may come to be composed of
pieces of another. -/
theorem replaceAll {δ : Type} {render' : δ → List α} {m : List α → Option (γ × List α)}
    (hm : Advances m) {write : γ → List α} (hfilled : ∀ p, render p ≠ [])
    (hkeep : ∀ p, Composed render' (render p))
    (hinside : ∀ p first c others rest, render p = first ++ c :: others → others ≠ [] →
      m (c :: (others ++ rest)) = none)
    (hfound : ∀ p first c rest found rest', render p = first ++ [c] → Composed render rest →
      m (c :: rest) = some (found, rest') →
        Composed render' (first ++ write found) ∧ Composed render rest')
    {t : List α} (h : Composed render t) :
    Composed render' (Scans.replaceAll m (fun c ↦ [c]) write t) := by
  induction hlength : t.length using Nat.strong_induction_on generalizing t with
  | _ n ih =>
      obtain ⟨ps, rfl⟩ := h
      cases ps with
      | nil => exact nil
      | cons p ps =>
          obtain ⟨first, c, hp⟩ : ∃ first c, render p = first ++ [c] :=
            ⟨_, _, (List.dropLast_append_getLast (hfilled p)).symm⟩
          have hrest : Composed render (ps.flatMap render) := ⟨ps, rfl⟩
          have htext : (p :: ps).flatMap render = first ++ c :: ps.flatMap render := by
            rw [List.flatMap_cons, hp, List.append_assoc, List.singleton_append]
          rw [htext] at hlength ⊢
          rw [List.length_append, List.length_cons] at hlength
          have hfirst : Scans.replaceAll m (fun c ↦ [c]) write (first ++ c :: ps.flatMap render) =
              first ++ Scans.replaceAll m (fun c ↦ [c]) write (c :: ps.flatMap render) := by
            conv_rhs => rw [← List.flatMap_singleton' first]
            apply replaceAll_append_of_none
            intro before others hsplit hothers
            obtain ⟨d, others, rfl⟩ := List.exists_cons_of_ne_nil hothers
            have hd : render p = before ++ d :: (others ++ [c]) := by
              rw [hp, hsplit, List.append_assoc, List.cons_append]
            have hnone := hinside p before d (others ++ [c]) (ps.flatMap render) hd (by simp)
            rw [List.append_assoc, List.singleton_append] at hnone
            exact hnone
          rw [hfirst]
          cases hmatch : m (c :: ps.flatMap render) with
          | none =>
              rw [replaceAll_cons_none hmatch, ← List.append_assoc, ← hp]
              exact (hkeep p).append (ih _ (by omega) hrest rfl)
          | some r =>
              obtain ⟨found, rest'⟩ := r
              have hsuffix := hm _ _ _ _ hmatch
              obtain ⟨hwritten, hrest'⟩ := hfound p first c _ found rest' hp hrest hmatch
              rw [replaceAll_cons_some hmatch hsuffix, ← List.append_assoc]
              have hle := hsuffix.length_le
              exact hwritten.append (ih _ (by omega) hrest' rfl)

end Composed

end Tesbo.Reasoning
