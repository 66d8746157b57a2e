import Tesbo.RetrievalBudget

/-!
# The ranking of the sources

What `fuse` makes of its rows: a source for each key, come upon in the order of the chunks and then
of the rows found by words, whose score is made of its places in the two lists.
-/

namespace Tesbo.Rag.Retrieval

open Reasoning

variable {m : Assoc Key FusedSource} {source : FusedSource} {key : Key} {row : AnnRow}
  {annRows : List AnnRow} {ftsRows : List FtsRow}

/-! ## Scores -/

def scoreOf (m : Assoc Key FusedSource) (key : Key) : ℚ :=
  ((m.get key).map FusedSource.score).getD 0

theorem scoreOf_set (k : Key) :
    scoreOf (m.set key source) k = if k = key then source.score else scoreOf m k := by
  unfold scoreOf
  rw [Assoc.get_set]
  by_cases hk : k = key
  · rw [if_pos hk, if_pos hk]
    rfl
  · rw [if_neg hk, if_neg hk]

theorem scoreOf_of_mem (hm : (m.map Prod.fst).Nodup) {e : Key × FusedSource} (he : e ∈ m) :
    scoreOf m e.1 = e.2.score := by
  unfold scoreOf
  rw [Assoc.get_of_mem hm he]
  rfl

/-- The share of a place among these keys, nothing for a key that is not there. -/
def place (keys : List Key) (key : Key) : ℚ :=
  if key ∈ keys then reciprocal (keys.idxOf key) else 0

theorem place_append_singleton {keys : List Key} {k : Key} (hkey : key ∉ keys) :
    place (keys ++ [key]) k = if k = key then reciprocal keys.length else place keys k := by
  unfold place
  by_cases hk : k = key
  · subst hk
    rw [if_pos (List.mem_append_right _ List.mem_cons_self), if_pos rfl,
      List.idxOf_append_of_notMem hkey, List.idxOf_cons_self, Nat.add_zero]
  · rw [if_neg hk]
    by_cases hin : k ∈ keys
    · rw [if_pos hin, if_pos (List.mem_append_left _ hin), List.idxOf_append_of_mem hin]
    · rw [if_neg hin, if_neg fun h ↦ ?_]
      exact (List.mem_append.mp h).elim hin fun h ↦ hk (List.mem_singleton.mp h)

theorem reciprocal_pos (n : ℕ) : 0 < reciprocal n := by
  unfold reciprocal
  positivity

theorem reciprocal_lt {i j : ℕ} (h : i < j) : reciprocal j < reciprocal i := by
  unfold reciprocal
  refine one_div_lt_one_div_of_lt ?_ ?_
  · exact_mod_cast Nat.succ_pos _
  · exact_mod_cast Nat.succ_lt_succ (Nat.add_lt_add_left h _)

/-! ## The chunks -/

/-- A source that has chunks, all of them its own. -/
structure FromChunks (rows : List AnnRow) (key : Key) (source : FusedSource) : Prop where
  atKey : source.key = key
  fullText : source.fullText = none
  chunks : source.chunks ≠ []
  own : ∀ p ∈ source.chunks, ∃ row ∈ rows, row.key = key ∧ row.content = p.content

theorem FromChunks.mono {rows rows' : List AnnRow} (h : FromChunks rows key source)
    (hrows : ∀ row ∈ rows, row ∈ rows') : FromChunks rows' key source := by
  refine ⟨h.atKey, h.fullText, h.chunks, fun p hp ↦ ?_⟩
  obtain ⟨row, hrow, hown⟩ := h.own p hp
  exact ⟨row, hrows row hrow, hown⟩

/-- What the loop over the chunks has made of these rows. -/
structure ByChunks (rows : List AnnRow) (m : Assoc Key FusedSource) : Prop where
  keys : m.map Prod.fst = firsts (rows.map AnnRow.key)
  scores : ∀ key, scoreOf m key = place (firsts (rows.map AnnRow.key)) key
  sources : ∀ e ∈ m, FromChunks rows e.1 e.2

theorem mem_keys_of_get {e : FusedSource} (h : m.get key = some e) : key ∈ m.map Prod.fst :=
  List.mem_map_of_mem (Assoc.mem_of_get h)

theorem notMem_keys_of_get (hm : (m.map Prod.fst).Nodup) (h : m.get key = none) :
    key ∉ m.map Prod.fst := by
  intro hin
  obtain ⟨e, he, rfl⟩ := List.mem_map.mp hin
  rw [Assoc.get_of_mem hm he] at h
  cases h

/-- Another chunk of a source that is there: only its chunks may change. -/
theorem ByChunks.old {rows : List AnnRow} (annRank : ℕ) {existing : FusedSource}
    (h : ByChunks rows m) (hget : m.get row.key = some existing) :
    ByChunks (rows ++ [row]) (fuseAnn (m, annRank) row).1 ∧
      (fuseAnn (m, annRank) row).2 = annRank := by
  have hkey : row.key ∈ m.map Prod.fst := mem_keys_of_get hget
  have hsame : firsts ((rows ++ [row]).map AnnRow.key) = firsts (rows.map AnnRow.key) := by
    rw [List.map_append, List.map_singleton, firsts_append_singleton, addKey, ← h.keys,
      if_pos hkey]
  have hlater : ∀ row' ∈ rows, row' ∈ rows ++ [row] := fun _ ↦ List.mem_append_left _
  simp only [fuseAnn, hget]
  split
  · refine ⟨⟨?_, fun k ↦ ?_, fun e he ↦ ?_⟩, rfl⟩
    · rw [hsame, map_fst_set, addKey, if_pos hkey, h.keys]
    · rw [hsame, scoreOf_set, ← h.scores]
      by_cases hk : k = row.key
      · rw [if_pos hk, hk]
        unfold scoreOf
        rw [hget]
        rfl
      · rw [if_neg hk]
    · rcases Assoc.mem_set he with rfl | he
      · have hold := h.sources _ (Assoc.mem_of_get hget)
        refine ⟨hold.atKey, hold.fullText, ?_, fun p hp ↦ ?_⟩
        · exact List.append_ne_nil_of_right_ne_nil _ (List.cons_ne_nil _ _)
        · rcases List.mem_append.mp hp with hp | hp
          · exact (hold.mono hlater).own p hp
          · obtain rfl := List.mem_singleton.mp hp
            exact ⟨row, List.mem_append_right _ List.mem_cons_self, rfl, rfl⟩
      · exact (h.sources e he).mono hlater
  · refine ⟨⟨?_, fun k ↦ ?_, fun e he ↦ (h.sources e he).mono hlater⟩, rfl⟩
    · rw [hsame, h.keys]
    · rw [hsame, h.scores]

/-- The best chunk of a source: it has the next rank. -/
theorem ByChunks.new {rows : List AnnRow} {annRank : ℕ} (h : ByChunks rows m)
    (hrank : annRank = (firsts (rows.map AnnRow.key)).length) (hget : m.get row.key = none) :
    ByChunks (rows ++ [row]) (fuseAnn (m, annRank) row).1 ∧
      (fuseAnn (m, annRank) row).2 = (firsts ((rows ++ [row]).map AnnRow.key)).length := by
  have hnodup : (m.map Prod.fst).Nodup := by
    rw [h.keys]
    exact nodup_firsts _
  have hkey : row.key ∉ firsts (rows.map AnnRow.key) := by
    rw [← h.keys]
    exact notMem_keys_of_get hnodup hget
  have hmore : firsts ((rows ++ [row]).map AnnRow.key) =
      firsts (rows.map AnnRow.key) ++ [row.key] := by
    rw [List.map_append, List.map_singleton, firsts_append_singleton, addKey, if_neg hkey]
  simp only [fuseAnn, hget]
  refine ⟨⟨?_, fun k ↦ ?_, fun e he ↦ ?_⟩, ?_⟩
  · rw [hmore, map_fst_set, addKey, h.keys, if_neg hkey]
  · rw [hmore, scoreOf_set, place_append_singleton hkey, h.scores, hrank]
  · rcases Assoc.mem_set he with rfl | he
    · refine ⟨rfl, rfl, List.cons_ne_nil _ _, fun p hp ↦ ?_⟩
      obtain rfl := List.mem_singleton.mp hp
      exact ⟨row, List.mem_append_right _ List.mem_cons_self, rfl, rfl⟩
    · exact (h.sources e he).mono fun _ ↦ List.mem_append_left _
  · rw [hmore, List.length_append, hrank]
    rfl

/-- By induction on the rows, from the last one on. -/
theorem byChunks_foldl (rows : List AnnRow) :
    ByChunks rows (rows.foldl fuseAnn ([], 0)).1 ∧
      (rows.foldl fuseAnn ([], 0)).2 = (firsts (rows.map AnnRow.key)).length := by
  induction rows using List.reverseRecOn with
  | nil => exact ⟨⟨rfl, fun _ ↦ rfl, fun e he ↦ (by cases he)⟩, rfl⟩
  | append_singleton rows row ih =>
      obtain ⟨h, hrank⟩ := ih
      rw [List.foldl_append, List.foldl_cons, List.foldl_nil]
      generalize rows.foldl fuseAnn ([], 0) = state at h hrank ⊢
      obtain ⟨m, annRank⟩ := state
      dsimp only at h hrank
      cases hget : m.get row.key with
      | some existing =>
          have hkey : row.key ∈ firsts (rows.map AnnRow.key) := h.keys ▸ mem_keys_of_get hget
          obtain ⟨hstep, hsame⟩ := h.old annRank hget
          refine ⟨hstep, ?_⟩
          rw [hsame, hrank, List.map_append, List.map_singleton, firsts_append_singleton, addKey,
            if_pos hkey]
      | none => exact h.new hrank hget

/-! ## The rows found by words -/

/-- A source without chunks, of which the whole text is kept. -/
structure FromWords (annRows : List AnnRow) (ftsRows : List FtsRow) (key : Key)
    (source : FusedSource) : Prop where
  atKey : source.key = key
  noChunk : ∀ row ∈ annRows, row.key ≠ key
  chunks : source.chunks = []
  own : ∃ row ∈ ftsRows, row.key = key ∧ source.fullText = some row.content

theorem FromWords.mono {ftsRows' : List FtsRow} (h : FromWords annRows ftsRows key source)
    (hrows : ∀ row ∈ ftsRows, row ∈ ftsRows') : FromWords annRows ftsRows' key source := by
  obtain ⟨row, hrow, hown⟩ := h.own
  exact ⟨h.atKey, h.noChunk, h.chunks, row, hrows row hrow, hown⟩

/-- What the two loops have made of these rows. -/
structure ByBoth (annRows : List AnnRow) (ftsRows : List FtsRow) (m : Assoc Key FusedSource) :
    Prop where
  keys : m.map Prod.fst = firsts (annRows.map AnnRow.key ++ ftsRows.map FtsRow.key)
  scores : ∀ key, scoreOf m key =
    place (firsts (annRows.map AnnRow.key)) key + place (ftsRows.map FtsRow.key) key
  sources : ∀ e ∈ m, FromChunks annRows e.1 e.2 ∨ FromWords annRows ftsRows e.1 e.2

theorem ByBoth.nodup (h : ByBoth annRows ftsRows m) : (m.map Prod.fst).Nodup := by
  rw [h.keys]
  exact nodup_firsts _

/-- A row of a source the words have not found before. -/
theorem ByBoth.step {row : FtsRow} (h : ByBoth annRows ftsRows m)
    (hnew : row.key ∉ ftsRows.map FtsRow.key) :
    ByBoth annRows (ftsRows ++ [row]) (fuseFts m (row, ftsRows.length)) := by
  have hlater : ∀ row' ∈ ftsRows, row' ∈ ftsRows ++ [row] := fun _ ↦ List.mem_append_left _
  have hmine : row ∈ ftsRows ++ [row] := List.mem_append_right _ List.mem_cons_self
  refine ⟨?_, fun k ↦ ?_, fun e he ↦ ?_⟩
  · simp only [fuseFts]
    rw [map_fst_set, h.keys, List.map_append, List.map_singleton, ← List.append_assoc,
      firsts_append_singleton]
  · simp only [fuseFts]
    rw [scoreOf_set, List.map_append, List.map_singleton, place_append_singleton hnew,
      List.length_map]
    by_cases hk : k = row.key
    · rw [if_pos hk, if_pos hk, hk]
      have hold := h.scores row.key
      rw [place, place, if_neg hnew, add_zero] at hold
      rw [place, ← hold]
      unfold scoreOf
      cases m.get row.key with
      | none => rfl
      | some existing => rfl
    · rw [if_neg hk, if_neg hk, h.scores]
  · simp only [fuseFts] at he
    rcases Assoc.mem_set he with rfl | he
    · cases hget : m.get row.key with
      | some existing =>
          -- found by a chunk before, for no other row has its key
          rcases h.sources _ (Assoc.mem_of_get hget) with hchunks | hwords
          · refine .inl ⟨hchunks.atKey, ?_, hchunks.chunks, hchunks.own⟩
            dsimp only [Option.getD_some]
            rw [if_neg hchunks.chunks]
            exact hchunks.fullText
          · obtain ⟨row', hrow', hkey, -⟩ := hwords.own
            exact absurd (List.mem_map.mpr ⟨row', hrow', hkey⟩) hnew
      | none =>
          have hkey := notMem_keys_of_get h.nodup hget
          rw [h.keys, mem_firsts, List.mem_append, not_or] at hkey
          refine .inr ⟨rfl, fun row' hrow' heq ↦ ?_, rfl, row, hmine, rfl, rfl⟩
          exact hkey.1 (List.mem_map.mpr ⟨row', hrow', heq⟩)
    · exact (h.sources e he).imp_right fun h ↦ h.mono hlater

theorem byBoth_sources (annRows : List AnnRow) (ftsRows : List FtsRow)
    (hnodup : (ftsRows.map FtsRow.key).Nodup) :
    ByBoth (byScore AnnRow.cosineSimilarity annRows) ftsRows (sources annRows ftsRows) := by
  unfold sources
  have hchunks := (byChunks_foldl (byScore AnnRow.cosineSimilarity annRows)).1
  generalize (byScore AnnRow.cosineSimilarity annRows).foldl fuseAnn ([], 0) = state at hchunks
  induction ftsRows using List.reverseRecOn with
  | nil =>
      refine ⟨?_, fun k ↦ ?_, fun e he ↦ .inl (hchunks.sources e he)⟩
      · exact hchunks.keys.trans (by rw [List.map_nil, List.append_nil])
      · exact (hchunks.scores k).trans (add_zero _).symm
  | append_singleton ftsRows row ih =>
      rw [List.map_append, List.map_singleton, List.nodup_append] at hnodup
      rw [List.zipIdx_append, List.foldl_append]
      have hnew : row.key ∉ ftsRows.map FtsRow.key :=
        fun h ↦ hnodup.2.2 _ h _ List.mem_cons_self rfl
      have hstep := (ih hnodup.1).step hnew
      rwa [Nat.zero_add]

/-! ## Evidence -/

def annEvidence (annRows : List AnnRow) : List (Key × ℚ) :=
  annRows.map fun row ↦ (row.key, row.cosineSimilarity)

def ftsEvidence (ftsRows : List FtsRow) : List (Key × ℚ) :=
  ftsRows.map fun row ↦ (row.key, row.rank)

/-- The best value of the one is above the best of the other, which may have none. -/
def Leads (evidence : List (Key × ℚ)) (x y : Key) : Prop :=
  ∃ v, (x, v) ∈ evidence ∧ ∀ v', (y, v') ∈ evidence → v' < v

/-- Neither has a value. -/
def Absent (evidence : List (Key × ℚ)) (x y : Key) : Prop :=
  (∀ v, (x, v) ∉ evidence) ∧ ∀ v, (y, v) ∉ evidence

/-- The best similarity and the best rank are both higher, or missing on both sides. -/
def Dominates (annRows : List AnnRow) (ftsRows : List FtsRow) (x y : Key) : Prop :=
  (Leads (annEvidence annRows) x y ∨ Absent (annEvidence annRows) x y) ∧
    (Leads (ftsEvidence ftsRows) x y ∨ Absent (ftsEvidence ftsRows) x y)

/-- A source with the better evidence is never placed after another. -/
def RanksByEvidence (annRows : List AnnRow) (ftsRows : List FtsRow) : Prop :=
  ∀ better ∈ fuse annRows ftsRows, ∀ other ∈ fuse annRows ftsRows,
    Dominates annRows ftsRows better.key other.key → ¬ Before other better (fuse annRows ftsRows)

/-- The sources with chunks, by their best ones. -/
def annKeys (annRows : List AnnRow) : List Key :=
  firsts ((byScore AnnRow.cosineSimilarity annRows).map AnnRow.key)

/-- The documents and then the files. -/
def keywordRows (documents files : FtsHits) : List FtsRow :=
  documents.toRows .document ++ files.toRows .file

/-- What the places of a source come to. -/
def places (annRows : List AnnRow) (ftsRows : List FtsRow) (key : Key) : ℚ :=
  place (annKeys annRows) key + place (ftsRows.map FtsRow.key) key

/-- A file with better evidence than a document makes up by its chunks for the documents that are
before it among the rows found by words. -/
def FilesKeepUp (annRows : List AnnRow) (documents files : FtsHits) : Prop :=
  ∀ file ∈ files.rows, ∀ document ∈ documents.rows,
    Dominates annRows (keywordRows documents files) (.file, file.id) (.document, document.id) →
      places annRows (keywordRows documents files) (.document, document.id) ≤
        places annRows (keywordRows documents files) (.file, file.id)

variable {documents files : FtsHits} {x y : Key}

theorem keys_toRows (sourceType : RagSourceType) (hits : FtsHits) :
    (hits.toRows sourceType).map FtsRow.key = hits.rows.map fun hit ↦ (sourceType, hit.id) := by
  unfold FtsHits.toRows
  rw [List.map_map]
  rfl

theorem nodup_keys_toRows (sourceType : RagSourceType) (hits : FtsHits) :
    ((hits.toRows sourceType).map FtsRow.key).Nodup := by
  have hids := hits.nodup.map (f := fun id ↦ (sourceType, id)) fun _ _ h ↦ (Prod.mk.inj h).2
  rw [List.map_map] at hids
  rw [keys_toRows]
  exact hids

theorem sorted_toRows (sourceType : RagSourceType) (hits : FtsHits) :
    (hits.toRows sourceType).Pairwise fun a b ↦ b.rank ≤ a.rank :=
  List.pairwise_map.mpr hits.ranked

theorem fst_of_mem_toRows {sourceType : RagSourceType} {hits : FtsHits}
    (h : x ∈ (hits.toRows sourceType).map FtsRow.key) : x.1 = sourceType := by
  rw [keys_toRows] at h
  obtain ⟨hit, -, rfl⟩ := List.mem_map.mp h
  rfl

theorem nodup_keywordRows : ((keywordRows documents files).map FtsRow.key).Nodup := by
  unfold keywordRows
  rw [List.map_append]
  refine (nodup_keys_toRows _ _).append (nodup_keys_toRows _ _) fun x hx hx' ↦ ?_
  have hsame := (fst_of_mem_toRows hx).symm.trans (fst_of_mem_toRows hx')
  cases hsame

theorem place_lt {keys : List Key} (hx : x ∈ keys) (hlt : keys.idxOf x < keys.idxOf y) :
    place keys y < place keys x := by
  unfold place
  rw [if_pos hx]
  split
  · exact reciprocal_lt hlt
  · exact reciprocal_pos _

/-- The chunks rank the sources by their best ones. -/
theorem idxOf_lt_of_leads_ann (h : Leads (annEvidence annRows) x y) (more : List Key) :
    (firsts ((byScore AnnRow.cosineSimilarity annRows).map AnnRow.key ++ more)).idxOf x <
      (firsts ((byScore AnnRow.cosineSimilarity annRows).map AnnRow.key ++ more)).idxOf y := by
  obtain ⟨v, hv, habove⟩ := h
  obtain ⟨row, hrow, heq⟩ := List.mem_map.mp hv
  obtain ⟨rfl, rfl⟩ := Prod.mk.inj heq
  have hsorted : (byScore AnnRow.cosineSimilarity annRows).Pairwise fun a b ↦
    b.cosineSimilarity ≤ a.cosineSimilarity := pairwise_byScore
  have hbelow : ∀ row' ∈ byScore AnnRow.cosineSimilarity annRows, row'.key = y →
      row'.cosineSimilarity < row.cosineSimilarity := by
    intro row' hrow' hkey
    refine habove _ (List.mem_map.mpr ⟨row', mem_byScore.mp hrow', ?_⟩)
    rw [hkey]
  exact idxOf_firsts_lt_of_above hsorted (mem_byScore.mpr hrow) hbelow

theorem mem_annKeys_of_leads (h : Leads (annEvidence annRows) x y) : x ∈ annKeys annRows := by
  obtain ⟨v, hv, -⟩ := h
  obtain ⟨row, hrow, heq⟩ := List.mem_map.mp hv
  obtain ⟨rfl, -⟩ := Prod.mk.inj heq
  exact mem_firsts.mpr (List.mem_map_of_mem (mem_byScore.mpr hrow))

theorem place_ann_lt (h : Leads (annEvidence annRows) x y) :
    place (annKeys annRows) y < place (annKeys annRows) x := by
  have hlt := idxOf_lt_of_leads_ann h []
  rw [List.append_nil] at hlt
  exact place_lt (mem_annKeys_of_leads h) hlt

theorem place_ann_of_absent (h : Absent (annEvidence annRows) x y) :
    place (annKeys annRows) x = 0 ∧ place (annKeys annRows) y = 0 := by
  have hout : ∀ z, (∀ v, (z, v) ∉ annEvidence annRows) → place (annKeys annRows) z = 0 := by
    intro z hz
    refine if_neg fun hin ↦ ?_
    obtain ⟨row, hrow, rfl⟩ := List.mem_map.mp (mem_firsts.mp hin)
    exact hz _ (List.mem_map.mpr ⟨row, mem_byScore.mp hrow, rfl⟩)
  exact ⟨hout x h.1, hout y h.2⟩

theorem place_fts_of_absent {ftsRows : List FtsRow} (h : Absent (ftsEvidence ftsRows) x y) :
    place (ftsRows.map FtsRow.key) x = 0 ∧ place (ftsRows.map FtsRow.key) y = 0 := by
  have hout : ∀ z, (∀ v, (z, v) ∉ ftsEvidence ftsRows) →
      place (ftsRows.map FtsRow.key) z = 0 := by
    intro z hz
    refine if_neg fun hin ↦ ?_
    obtain ⟨row, hrow, rfl⟩ := List.mem_map.mp hin
    exact hz _ (List.mem_map.mpr ⟨row, hrow, rfl⟩)
  exact ⟨hout x h.1, hout y h.2⟩

/-- Within one table the rows are in the order of their ranks. -/
theorem idxOf_toRows_lt {sourceType : RagSourceType} {hits : FtsHits} {row row' : FtsRow}
    (hrow : row ∈ hits.toRows sourceType) (hrow' : row' ∈ hits.toRows sourceType)
    (hlt : row'.rank < row.rank) : ((hits.toRows sourceType).map FtsRow.key).idxOf row.key <
      ((hits.toRows sourceType).map FtsRow.key).idxOf row'.key := by
  have hnodup := nodup_keys_toRows sourceType hits
  have hbelow : ∀ r ∈ hits.toRows sourceType, r.key = row'.key → r.rank < row.rank := by
    intro r hr hkey
    rwa [List.inj_on_of_nodup_map hnodup hr hrow' hkey]
  have hfirst : (firsts ((hits.toRows sourceType).map FtsRow.key ++ [])).idxOf row.key <
      (firsts ((hits.toRows sourceType).map FtsRow.key ++ [])).idxOf row'.key :=
    idxOf_firsts_lt_of_above (sorted_toRows sourceType hits) hrow hbelow
  rwa [List.append_nil, firsts_eq_self hnodup] at hfirst

/-- Among the rows found by words only a document stands before a file that is ranked higher. -/
theorem place_fts_lt (h : Leads (ftsEvidence (keywordRows documents files)) x y)
    (hxy : ¬ (x ∈ (files.toRows .file).map FtsRow.key ∧
      y ∈ (documents.toRows .document).map FtsRow.key)) :
    place ((keywordRows documents files).map FtsRow.key) y <
      place ((keywordRows documents files).map FtsRow.key) x := by
  obtain ⟨v, hv, habove⟩ := h
  obtain ⟨row, hrow, heq⟩ := List.mem_map.mp hv
  obtain ⟨rfl, rfl⟩ := Prod.mk.inj heq
  refine place_lt (List.mem_map_of_mem hrow) ?_
  unfold keywordRows at hrow habove ⊢
  rw [List.map_append]
  by_cases hy : y ∈ (documents.toRows .document).map FtsRow.key
  · rw [List.idxOf_append_of_mem hy]
    obtain ⟨row', hrow', rfl⟩ := List.mem_map.mp hy
    rcases List.mem_append.mp hrow with hdocument | hfile
    · rw [List.idxOf_append_of_mem (List.mem_map_of_mem hdocument)]
      refine idxOf_toRows_lt hdocument hrow' (habove _ ?_)
      exact List.mem_map.mpr ⟨row', List.mem_append_left _ hrow', rfl⟩
    · exact absurd ⟨List.mem_map_of_mem hfile, hy⟩ hxy
  · rw [List.idxOf_append_of_notMem hy]
    rcases List.mem_append.mp hrow with hdocument | hfile
    · have hx := List.mem_map_of_mem (f := FtsRow.key) hdocument
      rw [List.idxOf_append_of_mem hx]
      exact (List.idxOf_lt_length_iff.mpr hx).trans_le (Nat.le_add_right _ _)
    · have hx := List.mem_map_of_mem (f := FtsRow.key) hfile
      have hout : row.key ∉ (documents.toRows .document).map FtsRow.key := by
        intro hin
        cases (fst_of_mem_toRows hin).symm.trans (fst_of_mem_toRows hx)
      rw [List.idxOf_append_of_notMem hout]
      refine Nat.add_lt_add_left ?_ _
      by_cases hy' : y ∈ (files.toRows .file).map FtsRow.key
      · obtain ⟨row', hrow', rfl⟩ := List.mem_map.mp hy'
        refine idxOf_toRows_lt hfile hrow' (habove _ ?_)
        exact List.mem_map.mpr ⟨row', List.mem_append_right _ hrow', rfl⟩
      · rw [List.idxOf_of_notMem hy']
        exact List.idxOf_lt_length_iff.mpr hx

/-- A file stands after every document. -/
theorem place_file_lt (hx : x ∈ (files.toRows .file).map FtsRow.key)
    (hy : y ∈ (documents.toRows .document).map FtsRow.key) :
    place ((keywordRows documents files).map FtsRow.key) x <
      place ((keywordRows documents files).map FtsRow.key) y := by
  have hout : x ∉ (documents.toRows .document).map FtsRow.key := by
    intro hin
    cases (fst_of_mem_toRows hin).symm.trans (fst_of_mem_toRows hx)
  unfold keywordRows
  rw [List.map_append]
  refine place_lt (List.mem_append_left _ hy) ?_
  rw [List.idxOf_append_of_mem hy, List.idxOf_append_of_notMem hout]
  exact (List.idxOf_lt_length_iff.mpr hy).trans_le (Nat.le_add_right _ _)

/-! ## The ranking -/

/-- The sources that are ranked. -/
def ranked (annRows : List AnnRow) (ftsRows : List FtsRow) : List FusedSource :=
  (sources annRows ftsRows).map Prod.snd

variable {s t : FusedSource}

theorem keys_ranked (hnodup : (ftsRows.map FtsRow.key).Nodup) :
    (ranked annRows ftsRows).map FusedSource.key = (sources annRows ftsRows).map Prod.fst := by
  unfold ranked
  rw [List.map_map]
  refine List.map_congr_left fun e he ↦ ?_
  rcases (byBoth_sources annRows ftsRows hnodup).sources e he with h | h
  · exact h.atKey
  · exact h.atKey

theorem nodup_ranked (hnodup : (ftsRows.map FtsRow.key).Nodup) :
    ((ranked annRows ftsRows).map FusedSource.key).Nodup := by
  rw [keys_ranked hnodup]
  exact (byBoth_sources annRows ftsRows hnodup).nodup

/-- The score of a source is what its places come to. -/
theorem score_eq (hnodup : (ftsRows.map FtsRow.key).Nodup) (hs : s ∈ ranked annRows ftsRows) :
    s.score = places annRows ftsRows s.key := by
  have hboth := byBoth_sources annRows ftsRows hnodup
  obtain ⟨e, he, rfl⟩ := List.mem_map.mp hs
  have hkey : e.2.key = e.1 := by
    rcases hboth.sources e he with h | h
    · exact h.atKey
    · exact h.atKey
  rw [hkey, ← scoreOf_of_mem hboth.nodup he, hboth.scores]
  rfl

theorem mem_ranked_of_fts (hnodup : (ftsRows.map FtsRow.key).Nodup) {row : FtsRow}
    (hrow : row ∈ ftsRows) : ∃ s ∈ ranked annRows ftsRows, s.key = row.key := by
  have hkeys : (ranked annRows ftsRows).map FusedSource.key =
      (sources annRows ftsRows).map Prod.fst := keys_ranked hnodup
  have hin : row.key ∈ (ranked annRows ftsRows).map FusedSource.key := by
    rw [hkeys, (byBoth_sources annRows ftsRows hnodup).keys]
    exact mem_firsts.mpr (List.mem_append_right _ (List.mem_map_of_mem hrow))
  exact List.mem_map.mp hin

theorem mem_fuse : s ∈ fuse annRows ftsRows ↔ s ∈ ranked annRows ftsRows := mem_byScore

/-- A source comes after another when its score is lower, or the same and it was come upon later. -/
theorem before_fuse (hnodup : (ftsRows.map FtsRow.key).Nodup) (hs : s ∈ ranked annRows ftsRows)
    (ht : t ∈ ranked annRows ftsRows) (hne : t ≠ s) : Before t s (fuse annRows ftsRows) ↔
      places annRows ftsRows s.key < places annRows ftsRows t.key ∨
        places annRows ftsRows s.key = places annRows ftsRows t.key ∧
          Before t s (ranked annRows ftsRows) := by
  rw [← score_eq hnodup hs, ← score_eq hnodup ht]
  exact before_byScore ((nodup_ranked hnodup).of_map _) ht hs hne

/-- Of two sources one of which leads by its chunks, that one was come upon first. -/
theorem before_of_leads (hnodup : (ftsRows.map FtsRow.key).Nodup) (hs : s ∈ ranked annRows ftsRows)
    (ht : t ∈ ranked annRows ftsRows) (h : Leads (annEvidence annRows) s.key t.key) :
    Before s t (ranked annRows ftsRows) := by
  refine before_of_idxOf_lt (nodup_ranked hnodup) hs ht ?_
  rw [keys_ranked hnodup, (byBoth_sources annRows ftsRows hnodup).keys]
  exact idxOf_lt_of_leads_ann h _

theorem not_absent_of_ranked (hs : s ∈ ranked annRows ftsRows)
    (hann : Absent (annEvidence annRows) s.key t.key)
    (hfts : Absent (ftsEvidence ftsRows) s.key t.key)
    (hnodup : (ftsRows.map FtsRow.key).Nodup) : False := by
  have hin : s.key ∈ (ranked annRows ftsRows).map FusedSource.key := List.mem_map_of_mem hs
  rw [keys_ranked hnodup, (byBoth_sources annRows ftsRows hnodup).keys, mem_firsts,
    List.mem_append] at hin
  rcases hin with hin | hin
  · obtain ⟨row, hrow, hkey⟩ := List.mem_map.mp hin
    exact hann.1 row.cosineSimilarity (List.mem_map.mpr ⟨row, mem_byScore.mp hrow, by rw [hkey]⟩)
  · obtain ⟨row, hrow, hkey⟩ := List.mem_map.mp hin
    exact hfts.1 row.rank (List.mem_map.mpr ⟨row, hrow, by rw [hkey]⟩)

/-- Better evidence comes to a better score, unless a document is before the file. -/
theorem places_lt (hs : s ∈ ranked annRows (keywordRows documents files))
    (h : Dominates annRows (keywordRows documents files) s.key t.key)
    (hxy : ¬ (s.key ∈ (files.toRows .file).map FtsRow.key ∧
      t.key ∈ (documents.toRows .document).map FtsRow.key)) :
    places annRows (keywordRows documents files) t.key <
      places annRows (keywordRows documents files) s.key := by
  unfold places
  obtain ⟨hann, hfts⟩ := h
  rcases hann with hann | hann
  · have hlt := place_ann_lt hann
    rcases hfts with hfts | hfts
    · exact add_lt_add hlt (place_fts_lt hfts hxy)
    · obtain ⟨hzero, hzero'⟩ := place_fts_of_absent hfts
      rw [hzero, hzero', add_zero, add_zero]
      exact hlt
  · obtain ⟨hzero, hzero'⟩ := place_ann_of_absent hann
    rw [hzero, hzero', zero_add, zero_add]
    rcases hfts with hfts | hfts
    · exact place_fts_lt hfts hxy
    · exact (not_absent_of_ranked hs hann hfts nodup_keywordRows).elim

/-- The two tables are one list in which every document stands before every file, so the ranking is
by evidence exactly when that does no file harm. -/
theorem ranksByEvidence_iff : RanksByEvidence annRows (keywordRows documents files) ↔
    FilesKeepUp annRows documents files := by
  have hnodup : ((keywordRows documents files).map FtsRow.key).Nodup := nodup_keywordRows
  constructor
  · intro h file hfile document hdocument hdominates
    -- the file and the document among the sources
    have hrow : (⟨.file, file.id, file.title, file.content, file.rank⟩ : FtsRow) ∈
        keywordRows documents files :=
      List.mem_append_right _ (List.mem_map.mpr ⟨file, hfile, rfl⟩)
    have hrow' : (⟨.document, document.id, document.title, document.content, document.rank⟩ :
        FtsRow) ∈ keywordRows documents files :=
      List.mem_append_left _ (List.mem_map.mpr ⟨document, hdocument, rfl⟩)
    obtain ⟨s, hs, hskey⟩ : ∃ s ∈ ranked annRows (keywordRows documents files), s.key = _ :=
      mem_ranked_of_fts hnodup hrow
    obtain ⟨t, ht, htkey⟩ : ∃ t ∈ ranked annRows (keywordRows documents files), t.key = _ :=
      mem_ranked_of_fts hnodup hrow'
    have hkey : s.key = (.file, file.id) := hskey
    have hkey' : t.key = (.document, document.id) := htkey
    have hne : t ≠ s := by
      rintro rfl
      cases hkey.symm.trans hkey'
    rw [← hkey, ← hkey'] at hdominates ⊢
    by_contra hlt
    refine h s (mem_fuse.mpr hs) t (mem_fuse.mpr ht) hdominates ?_
    exact (before_fuse hnodup hs ht hne).mpr (.inl (not_le.mp hlt))
  · intro h s hs t ht hdominates hbefore
    rw [mem_fuse] at hs ht
    have hne : t ≠ s := by
      rintro rfl
      exact hbefore.asymm (nodup_byScore ((nodup_ranked hnodup).of_map _)) hbefore
    by_cases hxy : s.key ∈ (files.toRows .file).map FtsRow.key ∧
        t.key ∈ (documents.toRows .document).map FtsRow.key
    · -- the file keeps up, and by its chunks it was come upon first
      have hle : places annRows (keywordRows documents files) t.key ≤
          places annRows (keywordRows documents files) s.key := by
        rw [keys_toRows, keys_toRows] at hxy
        obtain ⟨⟨file, hfile, hskey⟩, document, hdocument, htkey⟩ :=
          And.intro (List.mem_map.mp hxy.1) (List.mem_map.mp hxy.2)
        rw [← hskey, ← htkey] at hdominates ⊢
        exact h file hfile document hdocument hdominates
      rcases (before_fuse hnodup hs ht hne).mp hbefore with hlt | ⟨-, hearlier⟩
      · exact absurd hle (not_le.mpr hlt)
      · rcases hdominates.1 with hleads | habsent
        · have hfirst := before_of_leads hnodup hs ht hleads
          exact hearlier.asymm ((nodup_ranked hnodup).of_map _) hfirst
        · have hlt := place_file_lt hxy.1 hxy.2
          unfold places at hle
          obtain ⟨hzero, hzero'⟩ := place_ann_of_absent habsent
          rw [hzero, hzero', zero_add, zero_add] at hle
          exact absurd hle (not_le.mpr hlt)
    · have hlt := places_lt hs hdominates hxy
      rcases (before_fuse hnodup hs ht hne).mp hbefore with hlt' | ⟨heq, -⟩
      · exact lt_asymm hlt hlt'
      · exact hlt.ne' heq

end Tesbo.Rag.Retrieval
