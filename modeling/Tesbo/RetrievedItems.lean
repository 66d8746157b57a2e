import Tesbo.EvidenceRanking

/-!
# The items of a retrieval

What is passed on keeps to its bounds and to its sources, and the sources are ranked by evidence,
except where a file stands behind the documents for being a file, and where the budget ends within
an ellipsis.
-/

namespace Tesbo.Rag.Retrieval

open Reasoning

/-! ## Passages of a text -/

/-- The whole text, its opening, or some of its chunks in the order of the text. -/
def InOrder (text : String) (passages : List String) : Prop :=
  passages = [text] ∨ passages = [jsSlice ragPassageChars text] ∨
    ∃ places : List ℕ, places.Pairwise (· < ·) ∧
      List.Forall₂ (fun passage c ↦ ∃ chunk, (ChunkVectors.chunk text)[c]? = some chunk ∧
        passage = jsSlice ragPassageChars (bodyOf chunk)) passages places

theorem sublist_choose (entries : List Scored) :
    (entries.foldl choose ([], 0)).1.Sublist entries := by
  induction entries using List.reverseRecOn with
  | nil => exact .slnil
  | append_singleton entries entry ih =>
      rw [List.foldl_append, List.foldl_cons, List.foldl_nil]
      unfold choose
      split
      · exact ih.trans (List.sublist_append_left _ _)
      · exact ih.append (List.Sublist.refl _)

/-- Sorted by place, entries with places of their own are in the order of the places. -/
theorem pairwise_places {entries : List Scored} (h : (entries.map Scored.c).Nodup) :
    ((entries.mergeSort fun a b ↦ a.c ≤ b.c).map Scored.c).Pairwise (· < ·) := by
  have hsorted : (entries.mergeSort fun a b ↦ a.c ≤ b.c).Pairwise fun a b ↦
      decide (a.c ≤ b.c) = true := by
    refine List.pairwise_mergeSort (fun a b c hab hbc ↦ ?_) (fun a b ↦ ?_) entries
    · rw [decide_eq_true_eq] at *
      exact hab.trans hbc
    · rw [Bool.or_eq_true, decide_eq_true_eq, decide_eq_true_eq]
      exact le_total _ _
  have hnodup : ((entries.mergeSort fun a b ↦ a.c ≤ b.c).map Scored.c).Nodup :=
    ((List.mergeSort_perm entries _).map Scored.c).nodup_iff.mpr h
  have hle : ((entries.mergeSort fun a b ↦ a.c ≤ b.c).map Scored.c).Pairwise (· ≤ ·) :=
    List.pairwise_map.mpr (hsorted.imp of_decide_eq_true)
  exact (hle.and hnodup).imp fun h ↦ lt_of_le_of_ne h.1 h.2

/-- The chunks that have a word of the question. -/
def scoredChunks (passageRank : Option (String → ℚ)) (text : String) : List Scored :=
  ((ChunkVectors.chunk text).zipIdx.map fun (chunk, c) ↦
    (⟨chunk.headingPath, bodyOf chunk, c, passageRank.elim 0 fun rank ↦ rank (bodyOf chunk)⟩ :
      Scored)).filter fun entry ↦ 0 < entry.rank

theorem selectPassages_eq (passageRank : Option (String → ℚ)) (text : String) :
    selectPassages passageRank text =
      if jsLength text ≤ ragPassageChars then [⟨text, none⟩]
      else if scoredChunks passageRank text = [] then opening text
      else
        let chosen := ((byScore Scored.rank (scoredChunks passageRank text)).foldl choose ([], 0)).1
        (chosen.mergeSort fun a b ↦ a.c ≤ b.c).map fun entry ↦
          ⟨jsSlice ragPassageChars entry.body, entry.headingPath⟩ := rfl

theorem inOrder_selectPassages (passageRank : Option (String → ℚ)) (text : String) :
    InOrder text ((selectPassages passageRank text).map Passage.content) := by
  rw [selectPassages_eq]
  split
  · exact .inl rfl
  · dsimp only
    split
    · exact .inr (.inl rfl)
    · refine .inr (.inr ?_)
      generalize hscored : scoredChunks passageRank text = scored
      have hchosen := sublist_choose (byScore Scored.rank scored)
      generalize (byScore Scored.rank scored).foldl choose ([], 0) = state at hchosen
      obtain ⟨chosen, used⟩ := state
      dsimp only at hchosen ⊢
      have hplaces : (scored.map Scored.c).Nodup := by
        rw [← hscored, scoredChunks]
        refine (List.filter_sublist.map _).nodup ?_
        have hnumbers : ((ChunkVectors.chunk text).zipIdx.map Prod.snd).Nodup := by
          rw [List.zipIdx_map_snd]
          exact List.nodup_range'
        rw [List.map_map]
        exact hnumbers
      have hchosenPlaces : (chosen.map Scored.c).Nodup :=
        (hchosen.map _).nodup
          (((List.mergeSort_perm scored _).map Scored.c).nodup_iff.mpr hplaces)
      refine ⟨_, pairwise_places hchosenPlaces, ?_⟩
      rw [List.map_map, List.forall₂_map_left_iff, List.forall₂_map_right_iff, List.forall₂_same]
      intro entry hentry
      have hmem : entry ∈ scored :=
        mem_byScore.mp (hchosen.subset ((List.mergeSort_perm _ _).mem_iff.mp hentry))
      rw [← hscored] at hmem
      obtain ⟨⟨chunk, c⟩, hchunk, rfl⟩ := List.mem_map.mp (List.mem_filter.mp hmem).1
      exact ⟨chunk, List.mem_zipIdx_iff_getElem?.mp hchunk, rfl⟩

/-! ## Items -/

/-- The chunks that are close enough. -/
def Search.chunkMatches (search : Search) : List AnnRow :=
  match search.annRows with
  | .ok rows => rows.filter fun row ↦ ragMinSimilarity ≤ row.cosineSimilarity
  | .error _ => []

/-- Chunks of the source that were found, or where none was, its text as the words found it. -/
def OwnPassages (search : Search) (key : Key) (passages : List String) : Prop :=
  ((∃ row ∈ search.chunkMatches, row.key = key) ∧
    ∀ passage ∈ passages, ∃ row ∈ search.chunkMatches, row.key = key ∧ row.content = passage) ∨
  ((∀ row ∈ search.chunkMatches, row.key ≠ key) ∧
    ∃ row ∈ search.ftsRows, row.key = key ∧ InOrder row.content passages)

structure KeepsToBudget (search : Search) (maxSources charBudget : ℕ)
    (items : List RetrievedKnowledgeItem) : Prop where
  distinct : (items.map RetrievedKnowledgeItem.key).Nodup
  limit : items.length ≤ maxSources
  size : ∀ item ∈ items, WithinPassage item.content
  total : (items.map fun item ↦ jsLength item.content).sum ≤ charBudget + 3
  own : ∀ item ∈ items, ∃ passages, MadeOf item.content passages ∧
    OwnPassages search item.key passages

/-- If there is a request and its vectors are compared, the budget does not end within the ellipsis
of a source. -/
def OnceCut (search : Search) (maxSources charBudget : ℕ) : Prop :=
  jsTrim search.query ≠ "" → ∀ rows, search.annRows = .ok rows →
    NoSecondCut charBudget 0 (focused search maxSources search.chunkMatches)

variable {search : Search} {maxSources charBudget : ℕ} {source : FusedSource}

theorem key_focusSource (passageRank : Option (String → ℚ)) (source : FusedSource) :
    (focusSource passageRank source).key = source.key := by
  unfold focusSource
  cases source.fullText with
  | none => rfl
  | some text => rfl

theorem nodup_ftsRows (search : Search) : (search.ftsRows.map FtsRow.key).Nodup := by
  unfold Search.ftsRows
  cases search.keyword with
  | none => exact List.nodup_nil
  | some keyword => exact nodup_keywordRows

theorem nodup_focused : ((focused search maxSources search.chunkMatches).map
    FusedSource.key).Nodup := by
  unfold focused
  rw [List.map_map]
  have hfun : FusedSource.key ∘ focusSource search.passageRank = FusedSource.key :=
    funext (key_focusSource _)
  rw [hfun]
  refine ((List.take_sublist _ _).map _).nodup ?_
  exact ((List.mergeSort_perm _ _).map FusedSource.key).nodup_iff.mpr
    (nodup_ranked (nodup_ftsRows search))

/-- What is passed on of a source are passages of its own. -/
theorem ownPassages_focused (h : source ∈ focused search maxSources search.chunkMatches) :
    OwnPassages search source.key (source.chunks.map Passage.content) := by
  obtain ⟨fused, hfused, rfl⟩ := List.mem_map.mp h
  have hranked := mem_fuse.mp (List.mem_of_mem_take hfused)
  obtain ⟨e, he, rfl⟩ := List.mem_map.mp hranked
  rw [key_focusSource]
  unfold focusSource
  rcases (byBoth_sources _ _ (nodup_ftsRows search)).sources e he with hchunks | hwords
  · rw [hchunks.fullText, hchunks.atKey]
    have hown : ∀ p ∈ e.2.chunks, ∃ row ∈ search.chunkMatches, row.key = e.1 ∧
        row.content = p.content := by
      intro p hp
      obtain ⟨row, hrow, hrow'⟩ := hchunks.own p hp
      exact ⟨row, mem_byScore.mp hrow, hrow'⟩
    refine .inl ⟨?_, fun passage hpassage ↦ ?_⟩
    · obtain ⟨p, rest, hchunk⟩ := List.exists_cons_of_ne_nil hchunks.chunks
      obtain ⟨row, hrow, hkey, -⟩ := hown p (by rw [hchunk]; exact List.mem_cons_self)
      exact ⟨row, hrow, hkey⟩
    · obtain ⟨p, hp, rfl⟩ := List.mem_map.mp hpassage
      exact hown p hp
  · obtain ⟨row, hrow, hkey, htext⟩ := hwords.own
    rw [htext, hwords.atKey]
    refine .inr ⟨fun row' hrow' ↦ hwords.noChunk row' (mem_byScore.mpr hrow'), row, hrow, hkey, ?_⟩
    exact inOrder_selectPassages search.passageRank row.content

theorem keepsToBudget_nil : KeepsToBudget search maxSources charBudget [] :=
  ⟨List.nodup_nil, Nat.zero_le _, fun _ h ↦ (by cases h), Nat.zero_le _, fun _ h ↦ (by cases h)⟩

/-- The items keep to everything else in any case. -/
theorem keepsToBudget_budgetFrom : KeepsToBudget search maxSources charBudget
    (budgetFrom charBudget 0 (focused search maxSources search.chunkMatches)) ↔
      NoSecondCut charBudget 0 (focused search maxSources search.chunkMatches) := by
  rw [← withinPassage_budgetFrom]
  refine ⟨fun h ↦ h.size, fun hsize ↦ ?_⟩
  obtain ⟨told, rest, heq, hall⟩ :=
    forall₂_budgetFrom charBudget 0 (focused search maxSources search.chunkMatches)
  have hkeys : (budgetFrom charBudget 0 (focused search maxSources search.chunkMatches)).map
      RetrievedKnowledgeItem.key = told.map FusedSource.key := by
    rw [← List.forall₂_eq_eq_eq, List.forall₂_map_left_iff, List.forall₂_map_right_iff]
    exact hall.imp fun _ _ h ↦ h.1
  have htold : told.Sublist (focused search maxSources search.chunkMatches) := by
    rw [heq]
    exact List.sublist_append_left _ _
  refine ⟨?_, ?_, hsize, sum_budgetFrom, fun item hitem ↦ ?_⟩
  · rw [hkeys]
    exact (htold.map _).nodup nodup_focused
  · rw [hall.length_eq]
    refine htold.length_le.trans ?_
    unfold focused
    rw [List.length_map]
    exact List.length_take_le _ _
  · obtain ⟨source, hsource, hkey, remaining, hcontent⟩ := exists_of_forall₂ hall hitem
    rw [hkey, hcontent]
    exact ⟨_, madeOf_trimmed, ownPassages_focused (htold.subset hsource)⟩

theorem keepsToBudget_retrieve : KeepsToBudget search maxSources charBudget
    (retrieveWithDiagnostics search maxSources charBudget).items ↔
      OnceCut search maxSources charBudget := by
  unfold retrieveWithDiagnostics OnceCut
  by_cases hquery : jsTrim search.query = ""
  · rw [if_pos hquery]
    exact iff_of_true keepsToBudget_nil fun hne ↦ absurd hquery hne
  rw [if_neg hquery]
  cases hrows : search.annRows with
  | error message => exact iff_of_true keepsToBudget_nil fun _ rows h ↦ (by cases h)
  | ok rows =>
      have hiff : (jsTrim search.query ≠ "" →
          ∀ rows', (.ok rows : Except String (List AnnRow)) = .ok rows' →
            NoSecondCut charBudget 0 (focused search maxSources search.chunkMatches)) ↔
            NoSecondCut charBudget 0 (focused search maxSources search.chunkMatches) :=
        ⟨fun h ↦ h hquery rows rfl, fun h _ _ _ ↦ h⟩
      have hmatches : search.chunkMatches =
          rows.filter fun row ↦ ragMinSimilarity ≤ row.cosineSimilarity := by
        unfold Search.chunkMatches
        rw [hrows]
      rw [hiff, ← keepsToBudget_budgetFrom]
      dsimp only
      rw [← hmatches]
      by_cases hnothing : search.chunkMatches = [] ∧ search.ftsRows = []
      · have hempty : focused search maxSources search.chunkMatches = [] := by
          unfold focused
          rw [hnothing.1, hnothing.2]
          have hfuse : fuse [] [] = [] := by
            unfold fuse sources byScore
            rw [List.mergeSort_nil]
            exact List.mergeSort_nil
          rw [hfuse, List.take_nil, List.map_nil]
        rw [if_pos hnothing, hempty]
        exact Iff.rfl
      · rw [if_neg hnothing]
        dsimp only
        -- the sources are as many as the limit already
        have hlimit : (focused search maxSources search.chunkMatches).length ≤ maxSources := by
          unfold focused
          rw [List.length_map]
          exact List.length_take_le _ _
        unfold budgetToItems
        rw [List.take_of_length_le hlimit]

/-- A document that shares a word with the request, and a file that shares more of them. -/
def oneDocument : FtsHits := ⟨[⟨1, "Release notes", "Sessions.", 1 / 10⟩], by simp, by simp⟩

def oneFile : FtsHits := ⟨[⟨2, "Sessions.pdf", "Sessions expire.", 9 / 10⟩], by simp, by simp⟩

end Tesbo.Rag.Retrieval
