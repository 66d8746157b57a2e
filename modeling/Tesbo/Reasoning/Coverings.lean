import Tesbo.Reasoning.Pieces
import Tesbo.Reasoning.Batches

/-!
# Texts taken apart and put together again

Pieces cover a text when it is the pieces in their order with nothing but separators between them.
Pieces are put together in groups, each group under the end of the group before it.
-/

namespace Tesbo.Reasoning.Coverings

variable {α : Type}

/-- The text is these pieces in their order, with any of the separators before, between and after. -/
inductive Covers (separators : List (List α)) : List (List α) → List α → Prop where
  | nil : Covers separators [] []
  | separator {sep text : List α} {pieces : List (List α)} (known : sep ∈ separators)
      (rest : Covers separators pieces text) : Covers separators pieces (sep ++ text)
  | piece (piece : List α) {text : List α} {pieces : List (List α)}
      (rest : Covers separators pieces text) : Covers separators (piece :: pieces) (piece ++ text)

variable {separators : List (List α)} {pieces : List (List α)} {text : List α}

theorem Covers.append {pieces' : List (List α)} {text' : List α} (h : Covers separators pieces text)
    (h' : Covers separators pieces' text') :
    Covers separators (pieces ++ pieces') (text ++ text') := by
  induction h with
  | nil => exact h'
  | separator known _ ih =>
      rw [List.append_assoc]
      exact .separator known ih
  | piece p _ ih =>
      rw [List.append_assoc]
      exact .piece p ih

theorem Covers.mono {separators' : List (List α)} (hsub : separators ⊆ separators')
    (h : Covers separators pieces text) : Covers separators' pieces text := by
  induction h with
  | nil => exact .nil
  | separator known _ ih => exact .separator (hsub known) ih
  | piece p _ ih => exact .piece p ih

theorem Covers.single (text : List α) : Covers separators [text] text := by
  have h : Covers separators [text] (text ++ []) := .piece text .nil
  rwa [List.append_nil] at h

theorem Covers.flatten (pieces : List (List α)) : Covers separators pieces pieces.flatten := by
  induction pieces with
  | nil => exact .nil
  | cons p pieces ih => exact .piece p ih

/-- Pieces of pieces. -/
theorem Covers.flatMap {f : List α → List (List α)} (h : Covers separators pieces text)
    (hf : ∀ p ∈ pieces, Covers separators (f p) p) : Covers separators (pieces.flatMap f) text := by
  induction h with
  | nil => exact .nil
  | separator known _ ih => exact .separator known (ih hf)
  | piece p _ ih =>
      rw [List.flatMap_cons]
      apply Covers.append
      · exact hf p List.mem_cons_self
      · exact ih fun q hq ↦ hf q (List.mem_cons_of_mem p hq)

/-- Empty pieces cover nothing. -/
theorem Covers.filter [DecidableEq α] (h : Covers separators pieces text) :
    Covers separators (pieces.filter fun p ↦ p ≠ []) text := by
  induction h with
  | nil => exact .nil
  | separator known _ ih => exact .separator known ih
  | piece p _ ih =>
      by_cases hp : p = []
      · rw [List.filter_cons_of_neg (by simp [hp]), hp, List.nil_append]
        exact ih
      · rw [List.filter_cons_of_pos (by simp [hp])]
        exact .piece p ih

/-! ## Splitting at a separator -/

theorem covers_joined {sep : List α} (hsep : sep ∈ separators) (parts : List (List α)) :
    Covers separators parts (joined sep parts) := by
  induction parts with
  | nil => exact .nil
  | cons p parts ih =>
      cases parts with
      | nil => exact .single p
      | cons q qs =>
          unfold joined
          rw [List.append_assoc]
          exact .piece p (.separator hsep ih)

section Split

variable [DecidableEq α]

/-- `text.split(sep)` for a separator that is not empty. -/
def splitAtEach (sep text : List α) : List (List α) :=
  splitMatches (fun l ↦ if sep.isPrefixOf l then sep.length else 0) text

/-- What is split is put together again with the separators. -/
theorem joined_splitAtEach {sep : List α} (hsep : sep ≠ []) (text : List α) :
    joined sep (splitAtEach sep text) = text := by
  induction hlen : text.length using Nat.strong_induction_on generalizing text with
  | _ n ih =>
      cases text with
      | nil => rfl
      | cons c cs =>
          by_cases hmatch : sep.isPrefixOf (c :: cs) = true
          · obtain ⟨rest, hrest⟩ := List.isPrefixOf_iff_prefix.mp hmatch
            rw [← hrest]
            have hsplit : splitAtEach sep (sep ++ rest) = [] :: splitAtEach sep rest :=
              splitMatches_of_match (by simp) hsep
            have hshorter : rest.length < n := by
              have hpos := List.length_pos_of_ne_nil hsep
              rw [← hlen, ← hrest, List.length_append]
              omega
            obtain ⟨p, ps, hps⟩ := List.exists_cons_of_ne_nil
              (splitMatches_ne_nil (m := fun l ↦ if sep.isPrefixOf l then sep.length else 0) rest)
            have hjoined := ih rest.length hshorter rest rfl
            rw [hsplit]
            unfold splitAtEach at hjoined ⊢
            rw [hps] at hjoined ⊢
            exact congrArg (sep ++ ·) hjoined
          · have hsplit : splitAtEach sep (c :: cs) = (splitAtEach sep cs).modifyHead (c :: ·) :=
              splitMatches_cons_of_none (if_neg hmatch)
            obtain ⟨p, ps, hps⟩ := List.exists_cons_of_ne_nil
              (splitMatches_ne_nil (m := fun l ↦ if sep.isPrefixOf l then sep.length else 0) cs)
            have hshorter : cs.length < n := by rw [← hlen, List.length_cons]; omega
            have hjoined := ih cs.length hshorter cs rfl
            rw [hsplit]
            unfold splitAtEach at hjoined ⊢
            rw [hps] at hjoined ⊢
            rw [List.modifyHead_cons]
            cases ps with
            | nil => exact congrArg (c :: ·) hjoined
            | cons q qs => exact congrArg (c :: ·) hjoined

theorem covers_splitAtEach {sep : List α} (hsep : sep ∈ separators) (hne : sep ≠ [])
    (text : List α) : Covers separators ((splitAtEach sep text).filter fun p ↦ p ≠ []) text := by
  have h := covers_joined hsep (splitAtEach sep text)
  rw [joined_splitAtEach hne] at h
  exact h.filter

end Split

/-! ## Groups of pieces -/

section Groups

variable (newline : α) (overlap : ℕ)

/-- The end of a chunk, as the next one begins with it. -/
def lead : Option (List α) → List α
  | none => []
  | some chunk => chunk.drop (chunk.length - overlap) ++ [newline]

/-- One more chunk: the pieces of a group, under the end of the chunk before. -/
def follow (chunks : List (List α)) (group : List (List α)) : List (List α) :=
  chunks ++ [lead newline overlap chunks.getLast? ++ joined [newline] group]

def chunksOf (groups : List (List (List α))) : List (List α) :=
  groups.foldl (follow newline overlap) []

variable {newline overlap} {groups : List (List (List α))} {group : List (List α)}

theorem chunksOf_append_singleton :
    chunksOf newline overlap (groups ++ [group]) =
      follow newline overlap (chunksOf newline overlap groups) group := by
  unfold chunksOf
  rw [List.foldl_append, List.foldl_cons, List.foldl_nil]

theorem infix_joined {glue p : List α} (hp : p ∈ group) : p <:+: joined glue group := by
  induction group with
  | nil => cases hp
  | cons q group ih =>
      cases group with
      | nil =>
          rw [List.mem_singleton.mp hp]
          exact List.infix_refl _
      | cons r rest =>
          unfold joined
          rcases List.mem_cons.mp hp with rfl | hp
          · rw [List.append_assoc]
            exact (List.prefix_append _ _).isInfix
          · exact (ih hp).trans (List.suffix_append _ _).isInfix

/-- A piece put after those of a group. -/
theorem joined_append_singleton {glue p : List α} (hne : group ≠ []) :
    joined glue (group ++ [p]) = joined glue group ++ (glue ++ p) := by
  induction group with
  | nil => exact absurd rfl hne
  | cons q group ih =>
      cases group with
      | nil => exact List.append_assoc q glue p
      | cons r rest =>
          have htail := ih (List.cons_ne_nil r rest)
          rw [List.cons_append, List.cons_append, joined, joined]
          rw [List.cons_append] at htail
          rw [htail, List.append_assoc (q ++ glue)]

/-- Each piece is in the chunk of its group. -/
theorem exists_infix_chunksOf {p : List α} (hp : p ∈ groups.flatten) :
    ∃ chunk ∈ chunksOf newline overlap groups, p <:+: chunk := by
  induction groups using List.reverseRecOn with
  | nil => cases hp
  | append_singleton groups group ih =>
      rw [chunksOf_append_singleton]
      unfold follow
      rw [List.flatten_append, List.flatten_singleton] at hp
      rcases List.mem_append.mp hp with hp | hp
      · obtain ⟨chunk, hchunk, hin⟩ := ih hp
        exact ⟨chunk, List.mem_append_left _ hchunk, hin⟩
      · refine ⟨_, List.mem_append_right _ (List.mem_singleton_self _), ?_⟩
        exact (infix_joined hp).trans (List.suffix_append _ _).isInfix

/-- A chunk begins with an end of the one before, of at most the overlap; the rest are pieces of its
own. -/
def Overlaps (newline : α) (overlap : ℕ) (before after : List α) : Prop :=
  ∃ tail group, tail <:+ before ∧ tail.length ≤ overlap ∧
    after = tail ++ newline :: joined [newline] group

theorem isChain_chunksOf : (chunksOf newline overlap groups).IsChain (Overlaps newline overlap) := by
  induction groups using List.reverseRecOn with
  | nil => exact List.isChain_nil
  | append_singleton groups group ih =>
      rw [chunksOf_append_singleton]
      unfold follow
      rw [List.isChain_append]
      refine ⟨ih, List.isChain_singleton _, fun before hbefore after hafter ↦ ?_⟩
      rw [List.head?_cons, Option.mem_some_iff] at hafter
      rw [Option.mem_def.mp hbefore] at hafter
      refine ⟨before.drop (before.length - overlap), group, List.drop_suffix _ _, ?_, ?_⟩
      · rw [List.length_drop]
        omega
      · rw [← hafter]
        simp [lead]

end Groups

end Tesbo.Reasoning.Coverings
