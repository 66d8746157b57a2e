import Tesbo.EmbeddingJobs
import Tesbo.Reasoning.Batches
import Mathlib.Data.List.Sort
import Mathlib.Data.Rat.Defs

/-!
# The vectors of a source's chunks

A worker cuts the text of a source into chunks, asks a provider for their vectors 96 texts at a
time, and stores each chunk with the vector at its place among all that were answered.  The log
keeps what it says to the database, whose statements go through here; notifications and traces are
left out.
-/

namespace Tesbo.Rag.ChunkVectors

open Reasoning

/-! ## Chunks -/

def ragChunkTargetChars : ℕ := 1600

def ragChunkOverlapChars : ℕ := 240

def ragChunkMinChars : ℕ := 20

def ragMaxChunksPerSource : ℕ := 500

structure Section where
  headingPath : Option String
  text : List Char
deriving DecidableEq, Repr

def textLength (cs : List Char) : ℕ := (cs.map fun c ↦ if c.toNat < 0x10000 then 1 else 2).sum

/-- `slice(n)`, in UTF-16 code units, with half a character as U+FFFD. -/
def dropUnits : ℕ → List Char → List Char
  | _, [] => []
  | 0, cs => cs
  | n + 1, c :: cs =>
      if c.toNat < 0x10000 then dropUnits n cs
      else if n = 0 then Char.ofNat 0xFFFD :: cs else dropUnits (n - 1) cs

/-- `split(separator).filter(Boolean)` -/
def splitParts (separator text : List Char) : List (List Char) :=
  (splitMatches (fun l ↦ if separator.isPrefixOf l then separator.length else 0) text).filter
    fun part ↦ !part.isEmpty

/-- What `.` does not match. -/
def lineTerminator (c : Char) : Bool :=
  c = '\n' || c = '\r' || c.toNat = 0x2028 || c.toNat = 0x2029

/-- `/^(#{1,6})\s+(.*)$/`: the level of a heading, and its title. -/
def headingOf (line : List Char) : Option (ℕ × String) :=
  let level := (line.takeWhile (· = '#')).length
  let rest := line.drop level
  let title := rest.dropWhile jsSpace
  if 1 ≤ level ∧ level ≤ 6 ∧ rest.head?.any jsSpace ∧ title.all (!lineTerminator ·)
  then some (level, jsTrim (String.ofList title))
  else none

/-- The headings over the place a text has been read to, the sections before it, and the lines of
the section it is in, the last first. -/
structure Reading where
  stack : List String
  sections : List Section
  current : List (List Char)

def Reading.flush (r : Reading) : Reading :=
  let body := trimChars (['\n'].intercalate r.current.reverse)
  let headingPath := if r.stack = [] then none else some (" > ".intercalate r.stack)
  { r with
    sections := if body = [] then r.sections else r.sections ++ [⟨headingPath, body⟩]
    current := [] }

def Reading.line (r : Reading) (line : List Char) : Reading :=
  match headingOf line with
  | some (level, title) =>
      let stack := r.stack.take (level - 1)
      -- a level that is skipped leaves a hole, which `join` writes as nothing
      { r.flush with stack := stack ++ List.replicate (level - 1 - stack.length) "" ++ [title] }
  | none => { r with current := line :: r.current }

def splitByHeadings (text : List Char) : List Section :=
  let sections := ((text.splitOn '\n').foldl Reading.line ⟨[], [], []⟩).flush.sections
  if sections = [] then [⟨none, text⟩] else sections

def hardCut (text : List Char) : List (List Char) :=
  if textLength text ≤ ragChunkTargetChars then [text]
  else (List.range ((textLength text + (ragChunkTargetChars - 1)) / ragChunkTargetChars)).map
    fun i ↦ sliceChars ragChunkTargetChars (dropUnits (i * ragChunkTargetChars) text)

def recursiveSplit : List (List Char) → List Char → List (List Char)
  | [], text => hardCut text
  | separator :: rest, text =>
      if textLength text ≤ ragChunkTargetChars then hardCut text
      else
        let parts := splitParts separator text
        if parts.length ≤ 1 then recursiveSplit rest text
        else parts.flatMap fun part ↦
          if ragChunkTargetChars < textLength part then recursiveSplit rest part else [part]

/-- The next piece joins those in the buffer, or starts a buffer of its own. -/
def merge : List (List Char) × List Char → List Char → List (List Char) × List Char
  | (merged, buffer), piece =>
      let candidate := if buffer = [] then piece else buffer ++ '\n' :: piece
      if textLength candidate ≤ ragChunkTargetChars ∨ buffer = [] then (merged, candidate)
      else (merged ++ [buffer],
        dropUnits (textLength buffer - ragChunkOverlapChars) buffer ++ '\n' :: piece)

def splitSection (text : List Char) : List (List Char) :=
  let pieces := recursiveSplit [['\n', '\n'], ['\n'], ['.', ' ']] text
  let (merged, buffer) := pieces.foldl merge ([], [])
  if buffer = [] then merged else merged ++ [buffer]

def chunk (rawText : String) : List RagChunk :=
  let text := trimChars rawText.toList
  if text = [] then []
  else
    let pieces := (splitByHeadings text).flatMap fun part ↦
      (splitSection part.text).map fun piece ↦ (part.headingPath, piece)
    let kept := (pieces.filter fun (_, piece) ↦
      ragChunkMinChars ≤ textLength (trimChars piece)).take ragMaxChunksPerSource
    kept.mapIdx fun chunkIndex (headingPath, piece) ↦
      ⟨chunkIndex, headingPath, String.ofList (trimChars piece), (textLength piece + 3) / 4⟩

/-! ## Answers -/

/-- An entry of what a provider answers. -/
structure Entry where
  index : ℚ
  embedding : List ℚ
deriving DecidableEq, Repr

/-- A vector, with the request it answers, the texts that were asked about, and the index of its
entry; nothing reads these three. -/
structure EmbeddingVector where
  request : ℕ
  inputs : List String
  index : ℚ
  values : List ℚ
deriving DecidableEq, Repr

structure EmbeddingKeyAllocation where
  provider : String
  model : String
deriving DecidableEq, Repr

/-- The row of a document or a file that is there. -/
structure SourceRow where
  content : Option String
  embeddingContentHash : Option String
deriving DecidableEq, Repr

/-- What a worker finds: the source, the key, and what each request is answered with. -/
structure Setting where
  source : Option SourceRow
  allocation : Option EmbeddingKeyAllocation
  provider : ℕ → List String → Except Failure (List Entry)

def sortedByIndex (data : List Entry) : List Entry := data.mergeSort fun a b ↦ a.index ≤ b.index

def embedTexts (w : Setting) (request : ℕ) (inputs : List String) :
    Except Failure (List EmbeddingVector) :=
  (w.provider request inputs).map fun data ↦
    (sortedByIndex data).map fun row ↦ ⟨request, inputs, row.index, row.embedding⟩

/-- The requests for one batch after another, from `request` on. -/
def embedBatches (w : Setting) : ℕ → List (List String) → Except Failure (List EmbeddingVector)
  | _, [] => .ok []
  | request, batch :: batches => do
      let vectors ← embedTexts w request batch
      let rest ← embedBatches w (request + 1) batches
      .ok (vectors ++ rest)

/-! ## The worker -/

inductive Statement where
  | setStatus (status : EmbeddingStatus)
  | deleteChunks
  | insertChunk (chunk : RagChunk) (contentHash embeddingModel : String)
      (embedding : EmbeddingVector)
  | markReady (contentHash : String)
deriving DecidableEq, Repr

/-- A worker, over what it has said to the database. -/
abbrev Worker := Service Failure (List Statement)

def say (statement : Statement) : Worker Unit := Service.write (· ++ [statement])

/-- Each chunk with the vector at its place, unless that has another width than the column. -/
def insertChunks (contentHash model : String) (chunks : List RagChunk)
    (embeddings : List EmbeddingVector) : Worker Unit :=
  Service.forEach (fun (chunk, i) ↦
    Service.whenSome
      (embeddings[i]?.filter fun vector ↦ vector.values.length = ragEmbeddingDimension)
      fun vector ↦ say (.insertChunk chunk contentHash model vector)) chunks.zipIdx

def processKnowledgeSource [Sha256] (w : Setting) : Worker Unit :=
  match w.source with
  | none => say (.setStatus .unsupported)
  | some source => do
      let content := jsTrim (source.content.getD "")
      if content = "" then say (.setStatus .unsupported)
      else
        match w.allocation with
        | none => say (.setStatus .pending)
        | some allocation => do
            let contentHash := Sha256.hex content
            if source.embeddingContentHash = some contentHash then pure ()
            else do
              say (.setStatus .processing)
              let chunks := chunk content
              if chunks = [] then say (.setStatus .unsupported)
              else do
                let embeddings ← Service.ofExcept
                  (embedBatches w 0 (batches (chunks.map RagChunk.content)))
                say .deleteChunks
                insertChunks contentHash allocation.model chunks embeddings
                say (.markReady contentHash)

/-! ## Chunks and batches by number -/

theorem chunkIndex_chunk {text : String} {j : ℕ} {c : RagChunk} (h : (chunk text)[j]? = some c) :
    c.chunkIndex = j := by
  unfold chunk at h
  dsimp only at h
  split at h
  · cases h
  · rw [List.getElem?_mapIdx, Option.map_eq_some_iff] at h
    obtain ⟨⟨headingPath, piece⟩, -, rfl⟩ := h
    rfl

theorem chunk_empty : chunk "" = [] := by decide

theorem batches_eq (inputs : List String) :
    batches inputs = inBatches ragEmbeddingBatchSize inputs := rfl

/-! ## What is asked for -/

/-- The entry is in the answer to the vector's request. -/
def Returned (w : Setting) (vector : EmbeddingVector) : Prop :=
  ∃ data, w.provider vector.request vector.inputs = .ok data ∧
    ⟨vector.index, vector.values⟩ ∈ data

/-- The vector was returned for the text of this chunk: at its place in its batch stands the text,
and the entry has the index of that place. -/
structure OwnVector (w : Setting) (chunk : RagChunk) (vector : EmbeddingVector) : Prop where
  returned : Returned w vector
  request : vector.request = chunk.chunkIndex / ragEmbeddingBatchSize
  text : vector.inputs[chunk.chunkIndex % ragEmbeddingBatchSize]? = some chunk.content
  index : vector.index = (chunk.chunkIndex % ragEmbeddingBatchSize : ℕ)

/-- Every chunk is stored with its own vector, and a source is ready only with all its chunks. -/
structure Faithful (w : Setting) (chunks : List RagChunk) (log : List Statement) : Prop where
  own : ∀ chunk contentHash model vector,
    .insertChunk chunk contentHash model vector ∈ log → OwnVector w chunk vector
  complete : ∀ contentHash, .markReady contentHash ∈ log →
    ∀ chunk ∈ chunks, ∃ model vector, .insertChunk chunk contentHash model vector ∈ log

/-- What a provider may answer a batch of `size` with: an entry of the column's width for each
place, none with a lower index or twice, and in a batch that others follow nothing more. -/
def Answers (size : ℕ) (last : Prop) (data : List Entry) : Prop :=
  (∀ i < size, ∃ row, (sortedByIndex data)[i]? = some row ∧ row.index = i ∧
    row.embedding.length = ragEmbeddingDimension) ∧ (data.length = size ∨ last)

/-- The worker finds a text to embed that is not the one it has embedded before. -/
def ToEmbed [Sha256] (w : Setting) : Prop :=
  ∃ source, w.source = some source ∧ w.allocation.isSome ∧
    source.embeddingContentHash ≠ some (Sha256.hex (jsTrim (source.content.getD "")))

/-- The chunks of the source's text. -/
def chunksOf (w : Setting) : List RagChunk :=
  w.source.elim [] fun source ↦ chunk (jsTrim (source.content.getD ""))

/-- The batches of texts the provider is asked about. -/
def requests (w : Setting) : List (List String) :=
  batches ((chunksOf w).map RagChunk.content)

/-- Unless a request fails, each is answered in full. -/
def AnswersAll (w : Setting) : Prop :=
  (∀ (b : ℕ) batch, (requests w)[b]? = some batch → ∃ data, w.provider b batch = .ok data) →
    ∀ (b : ℕ) batch data, (requests w)[b]? = some batch → w.provider b batch = .ok data →
      Answers batch.length (b + 1 = (requests w).length) data

/-! ## The answers put together -/

variable {w : Setting} {request b : ℕ} {inputs : List String} {vectors : List EmbeddingVector}

/-- The vector of the column's width for a place in a request. -/
def Slot (request place : ℕ) (vector : EmbeddingVector) : Prop :=
  vector.request = request ∧ vector.index = place ∧
    vector.values.length = ragEmbeddingDimension

theorem embedTexts_ok (h : embedTexts w request inputs = .ok vectors) :
    ∃ data, w.provider request inputs = .ok data ∧
      vectors = (sortedByIndex data).map fun row ↦ ⟨request, inputs, row.index, row.embedding⟩ := by
  unfold embedTexts at h
  cases hdata : w.provider request inputs with
  | error e => rw [hdata] at h; cases h
  | ok data =>
      rw [hdata] at h
      exact ⟨data, rfl, (Except.ok.inj h).symm⟩

theorem embedBatches_cons_ok {batch : List String} {batches : List (List String)}
    (h : embedBatches w request (batch :: batches) = .ok vectors) :
    ∃ first rest, embedTexts w request batch = .ok first ∧
      embedBatches w (request + 1) batches = .ok rest ∧ vectors = first ++ rest := by
  unfold embedBatches at h
  obtain ⟨first, hfirst, h⟩ := except_bind_eq_ok.mp h
  obtain ⟨rest, hrest, h⟩ := except_bind_eq_ok.mp h
  exact ⟨first, rest, hfirst, hrest, (Except.ok.inj h).symm⟩

/-- The loop goes through when every request does. -/
theorem embedBatches_ok_iff (request : ℕ) (batches : List (List String)) :
    (∃ vectors, embedBatches w request batches = .ok vectors) ↔
      ∀ (b : ℕ) batch, batches[b]? = some batch →
        ∃ data, w.provider (request + b) batch = .ok data := by
  induction batches generalizing request with
  | nil => exact ⟨fun _ b batch h ↦ (by cases h), fun _ ↦ ⟨[], rfl⟩⟩
  | cons first batches ih =>
      constructor
      · intro ⟨vectors, h⟩ b batch hb
        obtain ⟨_, rest, hfirst, hrest, -⟩ := embedBatches_cons_ok h
        cases b with
        | zero =>
            obtain rfl := Option.some.inj hb
            obtain ⟨data, hdata, -⟩ := embedTexts_ok hfirst
            exact ⟨data, hdata⟩
        | succ b =>
            have := (ih _).mp ⟨rest, hrest⟩ b batch hb
            rwa [show request + 1 + b = request + (b + 1) by omega] at this
      · intro h
        obtain ⟨data, hdata⟩ := h 0 first rfl
        obtain ⟨rest, hrest⟩ := (ih _).mpr fun b batch hb ↦ by
          rw [show request + 1 + b = request + (b + 1) by omega]
          exact h (b + 1) batch hb
        rw [Nat.add_zero] at hdata
        unfold embedBatches embedTexts
        rw [hdata, hrest]
        exact ⟨_, rfl⟩

/-- Where a vector comes from. -/
theorem of_mem_embedTexts (h : embedTexts w request inputs = .ok vectors)
    {vector : EmbeddingVector} (hvector : vector ∈ vectors) :
    vector.request = request ∧ vector.inputs = inputs ∧ Returned w vector := by
  obtain ⟨data, hdata, rfl⟩ := embedTexts_ok h
  obtain ⟨row, hrow, rfl⟩ := List.mem_map.mp hvector
  exact ⟨rfl, rfl, data, hdata, (List.mergeSort_perm _ _).mem_iff.mp hrow⟩

theorem of_mem_embedBatches {batches : List (List String)}
    (h : embedBatches w request batches = .ok vectors) {vector : EmbeddingVector}
    (hvector : vector ∈ vectors) :
    request ≤ vector.request ∧ batches[vector.request - request]? = some vector.inputs ∧
      Returned w vector := by
  induction batches generalizing request vectors with
  | nil =>
      obtain rfl := Except.ok.inj h
      cases hvector
  | cons first batches ih =>
      obtain ⟨_, rest, hfirst, hrest, rfl⟩ := embedBatches_cons_ok h
      rcases List.mem_append.mp hvector with hvector | hvector
      · obtain ⟨hrequest, hinputs, hreturned⟩ := of_mem_embedTexts hfirst hvector
        refine ⟨hrequest.ge, ?_, hreturned⟩
        rw [hrequest, Nat.sub_self, hinputs]
        rfl
      · obtain ⟨hle, hbatch, hreturned⟩ := ih hrest hvector
        refine ⟨by omega, ?_, hreturned⟩
        rwa [show vector.request - request = vector.request - (request + 1) + 1 by omega,
          List.getElem?_cons_succ]

/-- The first places of one answer. -/
theorem slots_embedTexts (size : ℕ) {data : List Entry}
    (hdata : w.provider request inputs = .ok data)
    (h : embedTexts w request inputs = .ok vectors) :
    (∀ i < size, ∃ vector, vectors[i]? = some vector ∧ Slot request i vector) ↔
      ∀ i < size, ∃ row, (sortedByIndex data)[i]? = some row ∧ row.index = i ∧
        row.embedding.length = ragEmbeddingDimension := by
  obtain ⟨data', hdata', rfl⟩ := embedTexts_ok h
  obtain rfl := Except.ok.inj (hdata'.symm.trans hdata)
  refine forall₂_congr fun i _ ↦ ?_
  rw [List.getElem?_map]
  constructor
  · intro ⟨vector, hvector, _, hindex, hwidth⟩
    obtain ⟨row, hrow, rfl⟩ := Option.map_eq_some_iff.mp hvector
    exact ⟨row, hrow, hindex, hwidth⟩
  · intro ⟨row, hrow, hindex, hwidth⟩
    exact ⟨_, Option.map_eq_some_iff.mpr ⟨row, hrow, rfl⟩, rfl, hindex, hwidth⟩

theorem length_embedTexts {data : List Entry} (hdata : w.provider request inputs = .ok data)
    (h : embedTexts w request inputs = .ok vectors) : vectors.length = data.length := by
  obtain ⟨data', hdata', rfl⟩ := embedTexts_ok h
  obtain rfl := Except.ok.inj (hdata'.symm.trans hdata)
  rw [List.length_map]
  exact List.length_mergeSort _

theorem batches_of_le (hpos : 0 < inputs.length) (hle : inputs.length ≤ ragEmbeddingBatchSize) :
    batches inputs = [inputs] := by
  have hk : 0 < ragEmbeddingBatchSize := by decide
  rw [batches_eq, inBatches_of_ne_nil hk (List.ne_nil_of_length_pos hpos),
    List.take_of_length_le hle, List.drop_of_length_le hle, inBatches_nil hk]

theorem batches_of_lt (hlt : ragEmbeddingBatchSize < inputs.length) :
    batches inputs = inputs.take ragEmbeddingBatchSize ::
      batches (inputs.drop ragEmbeddingBatchSize) :=
  inBatches_of_ne_nil (by decide) (List.ne_nil_of_length_pos (by omega))

theorem batches_ne_nil (hpos : 0 < inputs.length) : batches inputs ≠ [] := by
  rw [batches_eq, inBatches_of_ne_nil (by decide) (List.ne_nil_of_length_pos hpos)]
  exact List.cons_ne_nil _ _

/-- Each batch of these inputs is answered as it should be. -/
def AnswersFrom (w : Setting) (request : ℕ) (inputs : List String) : Prop :=
  ∀ (b : ℕ) batch data, (batches inputs)[b]? = some batch →
    w.provider (request + b) batch = .ok data →
      Answers batch.length (b + 1 = (batches inputs).length) data

/-- The only batch may be answered with too much. -/
theorem aligned_last (hpos : 0 < inputs.length) (hle : inputs.length ≤ ragEmbeddingBatchSize)
    (h : embedBatches w request (batches inputs) = .ok vectors) :
    Aligned Slot ragEmbeddingBatchSize inputs.length request vectors ↔
      AnswersFrom w request inputs := by
  unfold AnswersFrom
  rw [batches_of_le hpos hle] at h ⊢
  obtain ⟨first, rest, hfirst, hrest, rfl⟩ := embedBatches_cons_ok h
  obtain rfl := Except.ok.inj hrest
  obtain ⟨data, hdata, -⟩ := embedTexts_ok hfirst
  rw [aligned_of_le hle, List.append_nil, slots_embedTexts inputs.length hdata hfirst]
  constructor
  · intro hall b batch data' hb hdata'
    cases b with
    | zero =>
        obtain rfl := Option.some.inj hb
        obtain rfl := Except.ok.inj (hdata.symm.trans hdata')
        exact ⟨hall, .inr rfl⟩
    | succ b => cases hb
  · intro hall
    exact (hall 0 inputs data rfl hdata).1

/-- A batch that others follow has to be answered exactly. -/
theorem aligned_next (hlt : ragEmbeddingBatchSize < inputs.length)
    {first rest : List EmbeddingVector}
    (hfirst : embedTexts w request (inputs.take ragEmbeddingBatchSize) = .ok first)
    (hrest : embedBatches w (request + 1) (batches (inputs.drop ragEmbeddingBatchSize)) = .ok rest)
    (ih : Aligned Slot ragEmbeddingBatchSize (inputs.drop ragEmbeddingBatchSize).length
      (request + 1) rest ↔ AnswersFrom w (request + 1) (inputs.drop ragEmbeddingBatchSize)) :
    Aligned Slot ragEmbeddingBatchSize inputs.length request (first ++ rest) ↔
      AnswersFrom w request inputs := by
  have hk : 0 < ragEmbeddingBatchSize := by decide
  have hsize : (inputs.take ragEmbeddingBatchSize).length = ragEmbeddingBatchSize :=
    List.length_take_of_le hlt.le
  have hnotlast : ¬ 0 + 1 = (inputs.take ragEmbeddingBatchSize ::
      batches (inputs.drop ragEmbeddingBatchSize)).length := by
    have hrest : 0 < (inputs.drop ragEmbeddingBatchSize).length := by
      rw [List.length_drop]
      omega
    have := List.length_pos_of_ne_nil (batches_ne_nil hrest)
    rw [List.length_cons]
    omega
  obtain ⟨data, hdata, -⟩ := embedTexts_ok hfirst
  rw [aligned_append hk hlt (fun v hv _ _ hslot ↦ ?_) (fun v hv _ _ hslot ↦ ?_)]
  · rw [aligned_of_le le_rfl, slots_embedTexts _ hdata hfirst, length_embedTexts hdata hfirst,
      ← List.length_drop, ih]
    unfold AnswersFrom
    rw [batches_of_lt hlt]
    constructor
    · intro ⟨hlength, hslots, hothers⟩ b batch data' hb hdata'
      cases b with
      | zero =>
          obtain rfl := Option.some.inj hb
          obtain rfl := Except.ok.inj (hdata.symm.trans hdata')
          rw [hsize]
          exact ⟨hslots, .inl hlength⟩
      | succ b =>
          rw [show request + (b + 1) = request + 1 + b by omega] at hdata'
          rw [List.length_cons, Nat.add_right_cancel_iff]
          exact hothers b batch data' hb hdata'
    · intro hall
      obtain ⟨hslots, hlength⟩ := hall 0 _ data rfl hdata
      rw [hsize] at hslots hlength
      refine ⟨hlength.resolve_right hnotlast, hslots, fun b batch data' hb hdata' ↦ ?_⟩
      rw [show request + 1 + b = request + (b + 1) by omega] at hdata'
      have := hall (b + 1) batch data' hb hdata'
      rwa [List.length_cons, Nat.add_right_cancel_iff] at this
  · exact hslot.1.symm.trans (of_mem_embedTexts hfirst hv).1
  · have := (of_mem_embedBatches hrest hv).1
    rw [hslot.1] at this
    omega

/-- Every place has its vector exactly when each batch is answered as it should be: by induction
on the batches. -/
theorem aligned_embedBatches (h : embedBatches w request (batches inputs) = .ok vectors) :
    Aligned Slot ragEmbeddingBatchSize inputs.length request vectors ↔
      AnswersFrom w request inputs := by
  induction hn : inputs.length using Nat.strong_induction_on
    generalizing inputs request vectors with
  | _ n ih =>
  subst hn
  rcases Nat.eq_zero_or_pos inputs.length with hzero | hpos
  · obtain rfl := List.length_eq_zero_iff.mp hzero
    exact ⟨fun _ b batch data hb ↦ (by cases hb), fun _ j hj ↦ (by cases hj)⟩
  by_cases hle : inputs.length ≤ ragEmbeddingBatchSize
  · exact aligned_last hpos hle h
  · have hlt := not_le.mp hle
    rw [batches_of_lt hlt] at h
    obtain ⟨first, rest, hfirst, hrest, rfl⟩ := embedBatches_cons_ok h
    refine aligned_next hlt hfirst hrest (ih _ ?_ hrest rfl)
    rw [List.length_drop]
    have : 0 < ragEmbeddingBatchSize := by decide
    omega

/-! ## What is stored -/

variable {contentHash model : String} {chunks : List RagChunk} {log : List Statement}

/-- A loop that writes at most one statement for each element. -/
theorem forEach_whenSome {α β : Type} {f : α → Option β} {g : α → β → Statement} (as : List α) :
    Service.forEach (fun a ↦ Service.whenSome (f a) fun b ↦ say (g a b)) as log =
      (.ok (), log ++ as.filterMap fun a ↦ (f a).map (g a)) := by
  induction as generalizing log with
  | nil =>
      rw [List.filterMap_nil, List.append_nil]
      rfl
  | cons a as ih =>
      rw [Service.forEach, Service.bind_apply, List.filterMap_cons]
      cases hb : f a with
      | none => exact ih
      | some b =>
          change Service.forEach _ as (log ++ [g a b]) = _
          rw [ih, List.append_assoc]
          rfl

/-- What the loop writes. -/
def inserts (contentHash model : String) (chunks : List RagChunk)
    (vectors : List EmbeddingVector) : List Statement :=
  chunks.zipIdx.filterMap fun (chunk, i) ↦
    (vectors[i]?.filter fun vector ↦ vector.values.length = ragEmbeddingDimension).map
      fun vector ↦ .insertChunk chunk contentHash model vector

theorem insertChunks_eq : insertChunks contentHash model chunks vectors log =
    (.ok (), log ++ inserts contentHash model chunks vectors) :=
  forEach_whenSome chunks.zipIdx

/-- A chunk is stored with the vector at its place, if that has the width of the column. -/
theorem mem_inserts {statement : Statement} :
    statement ∈ inserts contentHash model chunks vectors ↔
      ∃ (i : ℕ) (c : RagChunk) (vector : EmbeddingVector),
        chunks[i]? = some c ∧ vectors[i]? = some vector ∧
        vector.values.length = ragEmbeddingDimension ∧
        statement = .insertChunk c contentHash model vector := by
  unfold inserts
  rw [List.mem_filterMap]
  constructor
  · intro ⟨(c, i), hc, h⟩
    obtain ⟨vector, hvector, rfl⟩ := Option.map_eq_some_iff.mp h
    rw [Option.filter_eq_some_iff, decide_eq_true_eq] at hvector
    exact ⟨i, c, vector, List.mem_zipIdx_iff_getElem?.mp hc, hvector.1, hvector.2, rfl⟩
  · intro ⟨i, c, vector, hc, hvector, hwidth, h⟩
    refine ⟨(c, i), List.mem_zipIdx_iff_getElem?.mpr hc, Option.map_eq_some_iff.mpr
      ⟨vector, ?_, h.symm⟩⟩
    rw [Option.filter_eq_some_iff, decide_eq_true_eq]
    exact ⟨hvector, hwidth⟩

/-- The log of a worker that has come to its end. -/
def stored (contentHash model : String) (chunks : List RagChunk)
    (vectors : List EmbeddingVector) : List Statement :=
  [.setStatus .processing, .deleteChunks] ++ inserts contentHash model chunks vectors ++
    [.markReady contentHash]

theorem insertChunk_mem_stored {c : RagChunk} {hash model' : String} {vector : EmbeddingVector} :
    .insertChunk c hash model' vector ∈ stored contentHash model chunks vectors ↔
      ∃ i : ℕ, chunks[i]? = some c ∧ vectors[i]? = some vector ∧
        vector.values.length = ragEmbeddingDimension ∧ hash = contentHash ∧ model' = model := by
  unfold stored
  rw [List.mem_append, List.mem_append, mem_inserts]
  constructor
  · intro h
    rcases h with (h | ⟨i, c', vector', hc, hvector, hwidth, h⟩) | h
    · simp at h
    · cases h
      exact ⟨i, hc, hvector, hwidth, rfl, rfl⟩
    · simp at h
  · intro ⟨i, hc, hvector, hwidth, hhash, hmodel⟩
    rw [hhash, hmodel]
    exact .inl (.inr ⟨i, c, vector, hc, hvector, hwidth, rfl⟩)

/-- When the text is cut as `chunk` does, all is well exactly when every place has its vector. -/
theorem faithful_stored (hindex : ∀ (i : ℕ) c, chunks[i]? = some c → c.chunkIndex = i)
    (h : embedBatches w 0 (batches (chunks.map RagChunk.content)) = .ok vectors) :
    Faithful w chunks (stored contentHash model chunks vectors) ↔
      Aligned Slot ragEmbeddingBatchSize chunks.length 0 vectors := by
  constructor
  · intro ⟨hown, hcomplete⟩ i hi
    have hready : .markReady contentHash ∈ stored contentHash model chunks vectors :=
      List.mem_append_right _ (List.mem_singleton_self _)
    obtain ⟨model', vector, hmem⟩ := hcomplete contentHash hready chunks[i] (List.getElem_mem hi)
    obtain ⟨i', hc, hvector, hwidth, -, -⟩ := insertChunk_mem_stored.mp hmem
    obtain rfl : i = i' := (hindex i _ (List.getElem?_eq_getElem hi)).symm.trans (hindex i' _ hc)
    have hmine := hown _ _ _ _ hmem
    have hnumber := hindex i _ hc
    refine ⟨vector, hvector, ?_, ?_, hwidth⟩
    · rw [hmine.request, hnumber, Nat.zero_add]
    · rw [hmine.index, hnumber]
  · intro haligned
    constructor
    · intro c hash model' vector hmem
      obtain ⟨i, hc, hvector, -, -, -⟩ := insertChunk_mem_stored.mp hmem
      obtain ⟨vector', hvector', hrequest, hplace, -⟩ :=
        haligned i (List.getElem?_eq_some_iff.mp hc).1
      obtain rfl := Option.some.inj (hvector.symm.trans hvector')
      obtain ⟨-, hbatch, hreturned⟩ := of_mem_embedBatches h (List.mem_of_getElem? hvector)
      rw [← hindex i c hc] at hrequest hplace
      rw [Nat.zero_add] at hrequest
      refine ⟨hreturned, hrequest, ?_, hplace⟩
      rw [Nat.sub_zero, batches_eq] at hbatch
      rw [getElem?_of_inBatches hbatch (Nat.mod_lt _ (by decide)), hrequest, Nat.mul_comm,
        Nat.div_add_mod, List.getElem?_map, hindex i c hc, hc]
      rfl
    · intro hash hready c hc
      obtain ⟨i, hi, rfl⟩ := List.getElem_of_mem hc
      obtain ⟨vector, hvector, -, -, hwidth⟩ := haligned i hi
      have hhash : hash = contentHash := by
        rcases List.mem_append.mp hready with hready | hready
        · rcases List.mem_append.mp hready with hready | hready
          · simp at hready
          · obtain ⟨_, _, _, _, _, _, h⟩ := mem_inserts.mp hready
            cases h
        · exact Statement.markReady.inj (List.mem_singleton.mp hready)
      exact ⟨model, vector, insertChunk_mem_stored.mpr
        ⟨i, List.getElem?_eq_getElem hi, hvector, hwidth, hhash, rfl⟩⟩

/-- A worker that stores nothing does nothing wrong. -/
theorem faithful_of_statuses (h : ∀ statement ∈ log, ∃ status, statement = .setStatus status) :
    Faithful w chunks log := by
  constructor
  · intro c hash model' vector hmem
    obtain ⟨_, h⟩ := h _ hmem
    cases h
  · intro hash hmem
    obtain ⟨_, h⟩ := h _ hmem
    cases h

theorem chunksOf_eq {source : SourceRow} (hsource : w.source = some source) :
    chunksOf w = chunk (jsTrim (source.content.getD "")) := by
  unfold chunksOf
  rw [hsource, Option.elim_some]

theorem chunkIndex_chunksOf {i : ℕ} {c : RagChunk} (h : (chunksOf w)[i]? = some c) :
    c.chunkIndex = i := by
  cases hsource : w.source with
  | none =>
      unfold chunksOf at h
      rw [hsource] at h
      cases h
  | some source =>
      rw [chunksOf_eq hsource] at h
      exact chunkIndex_chunk h

theorem answersAll_of_nil (h : chunksOf w = []) : AnswersAll w := by
  intro _ b batch data hb
  unfold requests at hb
  rw [h] at hb
  cases hb

section Worker

variable [Sha256]

attribute [local irreducible] chunk

/-- A worker with nothing to embed does no more than set the status. -/
theorem statuses_of_nothing (h : ToEmbed w → chunksOf w = []) :
    ∀ statement ∈ Service.after (processKnowledgeSource w) [],
      ∃ status, statement = .setStatus status := by
  intro statement hmem
  unfold processKnowledgeSource at hmem
  cases hsource : w.source with
  | none =>
      rw [hsource] at hmem
      exact ⟨_, List.mem_singleton.mp hmem⟩
  | some source =>
      rw [hsource] at hmem
      dsimp only at hmem
      split at hmem
      · exact ⟨_, List.mem_singleton.mp hmem⟩
      cases hallocation : w.allocation with
      | none =>
          rw [hallocation] at hmem
          exact ⟨_, List.mem_singleton.mp hmem⟩
      | some allocation =>
          rw [hallocation] at hmem
          dsimp only at hmem
          split at hmem
          · cases hmem
          · rename_i hhash
            -- no chunks: the status goes from processing to unsupported
            have hchunks := h ⟨source, hsource, by rw [hallocation]; rfl, hhash⟩
            rw [chunksOf_eq hsource] at hchunks
            rw [if_pos hchunks] at hmem
            rcases List.mem_cons.mp hmem with rfl | hmem
            · exact ⟨_, rfl⟩
            · exact ⟨_, List.mem_singleton.mp hmem⟩

theorem after_of_toEmbed {source : SourceRow} {allocation : EmbeddingKeyAllocation}
    (hsource : w.source = some source) (hallocation : w.allocation = some allocation)
    (hhash : source.embeddingContentHash ≠
      some (Sha256.hex (jsTrim (source.content.getD "")))) (hchunks : chunksOf w ≠ []) :
    Service.after (processKnowledgeSource w) [] =
      match embedBatches w 0 (requests w) with
      | .ok vectors => stored (Sha256.hex (jsTrim (source.content.getD ""))) allocation.model
          (chunksOf w) vectors
      | .error _ => [.setStatus .processing] := by
  unfold requests
  rw [chunksOf_eq hsource] at hchunks ⊢
  have htext : jsTrim (source.content.getD "") ≠ "" := by
    intro htext
    rw [htext] at hchunks
    exact hchunks chunk_empty
  unfold processKnowledgeSource
  rw [hsource, hallocation]
  dsimp only
  rw [if_neg htext, if_neg hhash, if_neg hchunks]
  cases hvectors : embedBatches w 0
      (batches ((chunk (jsTrim (source.content.getD ""))).map RagChunk.content)) with
  | error e => rfl
  | ok vectors =>
      change (((insertChunks _ _ _ _) >>= fun _ ↦ say _)
        [.setStatus .processing, .deleteChunks]).2 = _
      rw [Service.bind_apply, insertChunks_eq]
      rfl

/-- Every row of this run is right, and so is what it records, exactly when the provider answers
each batch as it should: there is no check of what it answers but for the width. -/
theorem faithful_processKnowledgeSource (w : Setting) :
    Faithful w (chunksOf w) (Service.after (processKnowledgeSource w) []) ↔
      (ToEmbed w → AnswersAll w) := by
  by_cases hnothing : ToEmbed w → chunksOf w = []
  · exact ⟨fun _ h ↦ answersAll_of_nil (hnothing h),
      fun _ ↦ faithful_of_statuses (statuses_of_nothing hnothing)⟩
  obtain ⟨hembed, hchunks⟩ := Classical.not_imp.mp hnothing
  have hiff : (ToEmbed w → AnswersAll w) ↔ AnswersAll w := ⟨fun h ↦ h hembed, fun h _ ↦ h⟩
  obtain ⟨source, hsource, hallocation, hhash⟩ := hembed
  obtain ⟨allocation, hallocation⟩ := Option.isSome_iff_exists.mp hallocation
  rw [after_of_toEmbed hsource hallocation hhash hchunks, hiff]
  have hok := embedBatches_ok_iff (w := w) 0 (requests w)
  simp only [Nat.zero_add] at hok
  cases hvectors : embedBatches w 0 (requests w) with
  | error e =>
      refine ⟨fun _ hanswered ↦ ?_,
        fun _ ↦ faithful_of_statuses fun _ h ↦ ⟨_, List.mem_singleton.mp h⟩⟩
      obtain ⟨vectors, h⟩ := hok.mpr hanswered
      rw [hvectors] at h
      cases h
  | ok vectors =>
      have haligned := aligned_embedBatches hvectors
      rw [List.length_map] at haligned
      rw [faithful_stored (fun _ _ ↦ chunkIndex_chunksOf) hvectors, haligned]
      unfold AnswersFrom AnswersAll
      simp only [Nat.zero_add]
      exact ⟨fun h _ ↦ h, fun h ↦ h (hok.mp ⟨vectors, hvectors⟩)⟩

end Worker

/-- A text of two chunks, of which only the second is answered with a vector. -/
def halfAnswered : Setting where
  source := some ⟨some ("# Login\nThe login form takes a mail.\n" ++
    "# Logout\nThe menu has a link for it."), none⟩
  allocation := some ⟨"openai", "text-embedding-3-small"⟩
  provider _ _ := .ok [⟨1, List.replicate ragEmbeddingDimension 0⟩]

/-- The first chunk is stored with the second one's vector, and the second one not at all. -/
theorem unfaithful_halfAnswered :
    letI : Sha256 := ⟨id, Function.injective_id⟩
    ¬ Faithful halfAnswered (chunksOf halfAnswered)
      (Service.after (processKnowledgeSource halfAnswered) []) := by
  let _ : Sha256 := ⟨id, Function.injective_id⟩
  intro h
  have hstored : ((Service.after (processKnowledgeSource halfAnswered) []).any fun statement ↦
      match statement with
      | .insertChunk c _ _ vector => c.chunkIndex = 0 && vector.index = 1
      | _ => false) = true := by decide +kernel
  obtain ⟨statement, hmem, hstored⟩ := List.any_eq_true.mp hstored
  cases statement with
  | insertChunk c contentHash model vector =>
      have hindex := (h.own c contentHash model vector hmem).index
      obtain ⟨hfirst, hsecond⟩ := Bool.and_eq_true_iff.mp hstored
      rw [of_decide_eq_true hfirst, of_decide_eq_true hsecond] at hindex
      exact absurd hindex (by decide)
  | setStatus status => cases hstored
  | deleteChunks => cases hstored
  | markReady contentHash => cases hstored

end Tesbo.Rag.ChunkVectors
