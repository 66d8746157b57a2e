import Tesbo.ChunkVectors
import Tesbo.Slices
import Tesbo.Reasoning.Ranked

/-!
# Retrieval

What is told to the model about a request: the chunks whose vectors are closest to it and the
documents and files that share its words are fused into one ranking of sources, and as much of the
first of them as the budget has room for is passed on.  Similarities, ranks and scores are exact
here.  A query that fails takes with it what it fails in the source: all, for the vectors, and
nothing but its own rows for the words.
-/

namespace Tesbo.Rag.Retrieval

open Reasoning

def ragRrfK : ℕ := 60

def ragMaxSources : ℕ := 8

def ragContextCharBudget : ℕ := 6000

def ragPassageChars : ℕ := 1600

def ragMinSimilarity : ℚ := 50 / 100

def ragConfidentSimilarity : ℚ := 65 / 100

/-! ## What is found -/

inductive RagSourceType where
  | document
  | file
deriving DecidableEq, Repr

abbrev Key := RagSourceType × ℕ

/-- A chunk of a source, by the similarity of its vector. -/
structure AnnRow where
  sourceType : RagSourceType
  sourceId : ℕ
  headingPath : Option String
  content : String
  title : String
  cosineSimilarity : ℚ
deriving DecidableEq, Repr

def AnnRow.key (row : AnnRow) : Key := (row.sourceType, row.sourceId)

/-- A source, by the words it shares with the request. -/
structure FtsRow where
  sourceType : RagSourceType
  sourceId : ℕ
  title : String
  content : String
  rank : ℚ
deriving DecidableEq, Repr

def FtsRow.key (row : FtsRow) : Key := (row.sourceType, row.sourceId)

structure FtsHit where
  id : ℕ
  title : String
  content : String
  rank : ℚ
deriving DecidableEq, Repr

/-- The answer of `ftsSearch`: rows of one table, `ORDER BY rank DESC`. -/
structure FtsHits where
  rows : List FtsHit
  ranked : rows.Pairwise fun a b ↦ b.rank ≤ a.rank
  nodup : (rows.map FtsHit.id).Nodup

def FtsHits.toRows (sourceType : RagSourceType) (hits : FtsHits) : List FtsRow :=
  hits.rows.map fun hit ↦ ⟨sourceType, hit.id, hit.title, hit.content, hit.rank⟩

/-! ## Fusion -/

structure Passage where
  content : String
  headingPath : Option String
deriving DecidableEq, Repr

structure FusedSource where
  sourceType : RagSourceType
  sourceId : ℕ
  title : String
  score : ℚ
  chunks : List Passage
  fullText : Option String
deriving DecidableEq, Repr

def FusedSource.key (source : FusedSource) : Key := (source.sourceType, source.sourceId)

/-- The share of a place in a ranking. -/
def reciprocal (rank : ℕ) : ℚ := 1 / (ragRrfK + rank + 1 : ℕ)

/-- The sources so far, and the next rank. -/
def fuseAnn : Assoc Key FusedSource × ℕ → AnnRow → Assoc Key FusedSource × ℕ
  | (bySource, annRank), row =>
      match bySource.get row.key with
      | some existing =>
          let used := (existing.chunks.map fun chunk ↦ jsLength chunk.content).sum
          if used + jsLength row.content ≤ ragPassageChars then
            (bySource.set row.key
              { existing with chunks := existing.chunks ++ [⟨row.content, row.headingPath⟩] },
              annRank)
          else (bySource, annRank)
      | none =>
          (bySource.set row.key
            { sourceType := row.sourceType, sourceId := row.sourceId, title := row.title,
              score := reciprocal annRank, chunks := [⟨row.content, row.headingPath⟩],
              fullText := none },
            annRank + 1)

def fuseFts (bySource : Assoc Key FusedSource) : FtsRow × ℕ → Assoc Key FusedSource
  | (row, rank) =>
      let existing := (bySource.get row.key).getD
        { sourceType := row.sourceType, sourceId := row.sourceId, title := row.title, score := 0,
          chunks := [], fullText := none }
      bySource.set row.key
        { existing with
          score := existing.score + reciprocal rank
          fullText := if existing.chunks = [] then some row.content else existing.fullText }

/-- The sources in the order they are come upon. -/
def sources (annRows : List AnnRow) (ftsRows : List FtsRow) : Assoc Key FusedSource :=
  ftsRows.zipIdx.foldl fuseFts ((byScore AnnRow.cosineSimilarity annRows).foldl fuseAnn ([], 0)).1

def fuse (annRows : List AnnRow) (ftsRows : List FtsRow) : List FusedSource :=
  byScore FusedSource.score ((sources annRows ftsRows).map Prod.snd)

/-! ## Passages -/

/-- A heading goes back in front of its passage. -/
def bodyOf (chunk : RagChunk) : String :=
  match chunk.headingPath with
  | none => chunk.content
  | some headingPath =>
      if headingPath = "" then chunk.content else headingPath ++ "\n" ++ chunk.content

structure Scored where
  headingPath : Option String
  body : String
  c : ℕ
  rank : ℚ
deriving DecidableEq, Repr

/-- The best of the passages that fit, in the order of their scores. -/
def choose (chosen : List Scored × ℕ) (entry : Scored) : List Scored × ℕ :=
  if chosen.1 ≠ [] ∧ ragPassageChars < chosen.2 + jsLength entry.body then chosen
  else (chosen.1 ++ [entry], chosen.2 + jsLength entry.body)

def opening (text : String) : List Passage := [⟨jsSlice ragPassageChars text, none⟩]

/-- `selectPassages`, of one text: `passageRank` is `ts_rank` of a passage, when the request has
words and the query goes through. -/
def selectPassages (passageRank : Option (String → ℚ)) (text : String) : List Passage :=
  if jsLength text ≤ ragPassageChars then [⟨text, none⟩]
  else
    let scored := (((ChunkVectors.chunk text).zipIdx.map fun (chunk, c) ↦
      (⟨chunk.headingPath, bodyOf chunk, c, passageRank.elim 0 fun rank ↦ rank (bodyOf chunk)⟩ :
        Scored)).filter fun entry ↦ 0 < entry.rank)
    if scored = [] then opening text
    else
      let (chosen, _) := (byScore Scored.rank scored).foldl choose ([], 0)
      (chosen.mergeSort fun a b ↦ a.c ≤ b.c).map fun entry ↦
        ⟨jsSlice ragPassageChars entry.body, entry.headingPath⟩

def focusSource (passageRank : Option (String → ℚ)) (source : FusedSource) : FusedSource :=
  match source.fullText with
  | none => source
  | some text => { source with chunks := selectPassages passageRank text }

/-! ## The budget -/

structure RetrievedKnowledgeItem where
  title : String
  content : String
  sourceType : RagSourceType
  sourceId : ℕ
  headingPath : Option String
  score : ℚ
deriving DecidableEq, Repr

def RetrievedKnowledgeItem.key (item : RetrievedKnowledgeItem) : Key :=
  (item.sourceType, item.sourceId)

def joined (source : FusedSource) : String :=
  "\n...\n".intercalate (source.chunks.map Passage.content)

/-- What of a source is passed on with `remaining` characters of the budget left. -/
def trimmed (source : FusedSource) (remaining : ℕ) : String :=
  let joined := joined source
  let content :=
    if ragPassageChars < jsLength joined then jsSlice ragPassageChars joined ++ "..." else joined
  if remaining < jsLength content then jsSlice remaining content ++ "..." else content

/-- The loop, with what has been used. -/
def budgetFrom (charBudget : ℕ) : ℕ → List FusedSource → List RetrievedKnowledgeItem
  | _, [] => []
  | used, source :: rest =>
      if charBudget ≤ used then []
      else
        let content := trimmed source (charBudget - used)
        { title := if source.title = "" then "Untitled" else source.title
          content := content
          sourceType := source.sourceType
          sourceId := source.sourceId
          headingPath := source.chunks.head?.bind Passage.headingPath
          score := source.score } :: budgetFrom charBudget (used + jsLength content) rest

def budgetToItems (fused : List FusedSource) (maxSources charBudget : ℕ) :
    List RetrievedKnowledgeItem :=
  budgetFrom charBudget 0 (fused.take maxSources)

/-! ## The whole -/

/-- What the words of a request find, and the rank of a passage unless that query fails. -/
structure KeywordAnswer where
  documents : FtsHits
  files : FtsHits
  passageRank : Option (String → ℚ)

/-- A request, and what the queries for it are answered with: `allocation` says whether there is a
key that embeds, and `keyword` is there when the request has words to search for. -/
structure Search where
  query : String
  allocation : Bool
  annSearch : Except String (List AnnRow)
  keyword : Option KeywordAnswer

inductive RagRetrievalConfidence where
  | none
  | weak
  | strong
deriving DecidableEq, Repr

structure Diagnostics where
  items : List RetrievedKnowledgeItem
  semanticSearchRan : Bool
  topScore : Option ℚ
  confidence : RagRetrievalConfidence
deriving DecidableEq, Repr

def confidenceFor : Option ℚ → RagRetrievalConfidence
  | none => .none
  | some topScore =>
      if ragConfidentSimilarity ≤ topScore then .strong
      else if ragMinSimilarity ≤ topScore then .weak
      else .none

def Search.annRows (search : Search) : Except String (List AnnRow) :=
  if search.allocation then search.annSearch else .ok []

def Search.ftsRows (search : Search) : List FtsRow :=
  search.keyword.elim [] fun keyword ↦
    keyword.documents.toRows .document ++ keyword.files.toRows .file

def Search.passageRank (search : Search) : Option (String → ℚ) :=
  search.keyword.bind KeywordAnswer.passageRank

/-- The sources with the passages that are to be passed on. -/
def focused (search : Search) (maxSources : ℕ) (annRows : List AnnRow) : List FusedSource :=
  ((fuse annRows search.ftsRows).take maxSources).map (focusSource search.passageRank)

def retrieveWithDiagnostics (search : Search) (maxSources charBudget : ℕ) : Diagnostics :=
  if jsTrim search.query = "" then ⟨[], false, none, .none⟩
  else
    match search.annRows with
    | .error _ => ⟨[], false, none, .none⟩
    | .ok annRowsRaw =>
        let topScore := (annRowsRaw.map AnnRow.cosineSimilarity).max?
        let semanticConfidence := confidenceFor topScore
        let confidence :=
          if semanticConfidence = .none ∧ search.ftsRows ≠ [] then .weak else semanticConfidence
        let annRows := annRowsRaw.filter fun row ↦ ragMinSimilarity ≤ row.cosineSimilarity
        if annRows = [] ∧ search.ftsRows = [] then ⟨[], search.allocation, topScore, confidence⟩
        else
          ⟨budgetToItems (focused search maxSources annRows) maxSources charBudget,
            search.allocation, topScore, confidence⟩

end Tesbo.Rag.Retrieval
