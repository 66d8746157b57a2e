import Tesbo.Text
import Tesbo.Reasoning.Phases

/-!
# The jobs that index a source

An edit of a document, a file or a test case is followed by a call that puts a job for it into the
queue; a worker takes the job and embeds the text the source has then.  The queue knows a job by the
id of its source, and a job that is over still has it.  Notifications and traces are left out, and
so are the columns of a source that are not embedded.
-/

namespace Tesbo.Rag

open Reasoning

/-! ## Sources -/

inductive SourceType where
  | document
  | file
  | testcase
deriving DecidableEq, Repr

/-- What of a source is embedded: `text` of a document or a file, the others of a test case, its
steps as JSON where they are an array. -/
structure Content where
  text : Option String
  title : Option String
  description : Option String
  steps : Option String
deriving DecidableEq, Repr

def testcaseEmbeddingTextCharCap : ℕ := 4000

def buildTestcaseEmbeddingText (source : Content) : String :=
  jsSlice testcaseEmbeddingTextCharCap (jsTrim ("\n".intercalate
    [source.title.getD "", source.description.getD "", source.steps.getD "[]"]))

def embeddingText (sourceType : SourceType) (source : Content) : String :=
  match sourceType with
  | .document | .file => jsTrim (source.text.getD "")
  | .testcase => buildTestcaseEmbeddingText source

structure RagChunk where
  chunkIndex : ℕ
  headingPath : Option String
  content : String
  tokenCount : ℕ
deriving DecidableEq, Repr

/-- How a text is cut into chunks. -/
class Chunking where
  chunk : String → List RagChunk

inductive EmbeddingStatus where
  | pending
  | queued
  | processing
  | ready
  | failed
  | unsupported
deriving DecidableEq, Repr

/-- What is known of a vector: the model that made it, and how wide it is. -/
structure Embedding where
  model : String
  width : ℕ
deriving DecidableEq, Repr

/-- A row of `knowledge_document_chunks`, or without a chunk of `testcase_embeddings`. -/
structure IndexRow where
  chunk : Option RagChunk
  contentHash : String
  embeddingModel : String
  embedding : Embedding
deriving DecidableEq, Repr

/-! ## The queue -/

/-- The job of the source.  Of one that is over, `newer` have ended the same way since; of one at
work, `seen` is what its worker has read, and `settled` that it writes no status any more; nothing
reads these two. -/
inductive Job where
  | waiting (attemptsMade : ℕ)
  | active (attemptsMade : ℕ) (seen : Option Content) (settled : Bool)
  | completed (newer : ℕ)
  | failed (newer : ℕ)
deriving DecidableEq, Repr

def attempts : ℕ := 3

/-- `removeOnComplete` and `removeOnFail` -/
def retained : ℕ := 1000

/-- How the next statement or request turns out: whether it goes through, the model of the key that
is found, and the vectors of a batch. -/
structure Answer where
  ok : Bool
  model : Option String
  vectors : List Embedding

/-- The row of the source, its rows of the index, and its job.  `edits` counts the edits, `pending`
are those whose call has not tried the queue yet, and `succeeded` says how the last job ended; no
one reads these three. -/
structure Shared where
  sourceType : SourceType
  live : Bool
  content : Content
  status : EmbeddingStatus
  contentHash : Option String
  index : List IndexRow
  job : Option Job
  answers : ℕ → Answer
  edits : ℕ
  pending : List ℕ
  succeeded : Option Bool

/-! ## Statements -/

inductive Write where
  | edit (content : Content)
  | setQueued (number : ℕ)
  | add (number : ℕ)
  | take
  | readSource
  | resolveEmbeddingAllocation
  | setStatus (status : EmbeddingStatus)
  /-- The last status a worker writes. -/
  | leave (status : EmbeddingStatus)
  | embedTexts (model : String) (inputs : List String)
  | replaceIndex (rows : List IndexRow)
  | markReady (contentHash : String)
  | complete
  | fail
  /-- Another job of the queue ends. -/
  | otherCompleted
  | otherFailed

structure SourceRow where
  content : Content
  contentHash : Option String

/-- What a statement answers with; its failure is an answer.  An edit answers with its number, and
the failure of a job with whether it was the last attempt. -/
@[reducible] def Reply : Write → Type
  | .edit _ => ℕ
  | .take | .fail => Bool
  | .complete | .otherCompleted | .otherFailed => Unit
  | .readSource => Except Failure (Option SourceRow)
  | .resolveEmbeddingAllocation => Except Failure (Option String)
  | .embedTexts _ _ => Except Failure (List Embedding)
  | .setQueued _ | .add _ | .setStatus _ | .leave _ | .replaceIndex _ | .markReady _ =>
      Except Failure Unit

namespace Shared

def next (s : Shared) : Shared := { s with answers := fun n ↦ s.answers (n + 1) }

/-- A job with the id of one the queue still has is not added. -/
def addJob (number : ℕ) (s : Shared) : Shared :=
  { s with job := s.job.or (some (.waiting 0)), pending := s.pending.filter (· ≠ number) }

def takeJob (s : Shared) : Bool × Shared :=
  match s.job with
  | some (.waiting attemptsMade) =>
      (true, { s with job := some (.active attemptsMade none false) })
  | _ => (false, s)

def endJob (job : ℕ → Option Job) (succeeded : Option Bool) (s : Shared) : Shared :=
  match s.job with
  | some (.active attemptsMade _ _) => { s with job := job attemptsMade, succeeded := succeeded }
  | _ => s

/-- What the worker at the job has come to. -/
def note (seen : Option Content) (settled : Bool) (s : Shared) : Shared :=
  match s.job with
  | some (.active attemptsMade _ _) => { s with job := some (.active attemptsMade seen settled) }
  | _ => s

/-- What the worker at the job has read. -/
def seen (s : Shared) : Option Content :=
  match s.job with
  | some (.active _ seen _) => seen
  | _ => none

def settle (s : Shared) : Shared := s.note s.seen true

def otherCompleted (s : Shared) : Shared :=
  match s.job with
  | some (.completed newer) =>
      { s with job := if newer + 1 < retained then some (.completed (newer + 1)) else none }
  | _ => s

def otherFailed (s : Shared) : Shared :=
  match s.job with
  | some (.failed newer) =>
      { s with job := if newer + 1 < retained then some (.failed (newer + 1)) else none }
  | _ => s

end Shared

def unreachable : Failure := .sqlState "08006" ""

def perhaps {α : Type} (f : Answer → Shared → α × Shared) (skip : Shared → Shared) :
    Service Failure Shared (Except Failure α) :=
  Service.perhaps (fun s ↦ (s.answers 0).ok) unreachable (fun s ↦ f (s.answers 0) s.next)
    fun s ↦ skip s.next

section Statements

variable [Sha256]

def readSource (s : Shared) : Option SourceRow × Shared :=
  if s.live then (some ⟨s.content, s.contentHash⟩, s.note (some s.content) false) else (none, s)

/-- Whether the text a worker has read is the one that is indexed. -/
def seenIndexed (s : Shared) : Prop :=
  ∃ content ∈ s.seen, s.contentHash = some (Sha256.hex (embeddingText s.sourceType content))

instance (s : Shared) : Decidable (seenIndexed s) :=
  inferInstanceAs (Decidable (∃ content ∈ s.seen, _))

/-- With a key, and nothing to index, a worker writes no status any more. -/
def resolveEmbeddingAllocation (model : Option String) (s : Shared) : Option String × Shared :=
  (model, if model.isSome ∧ seenIndexed s then s.settle else s)

def perform : (w : Write) → Service Failure Shared (Reply w)
  | .edit content => fun s ↦
      (.ok s.edits,
        { s with content := content, edits := s.edits + 1, pending := s.edits :: s.pending })
  | .setQueued _ => perhaps (fun _ s ↦ ((), { s with status := .queued })) id
  | .add number => perhaps (fun _ s ↦ ((), s.addJob number)) fun s ↦
      { s with pending := s.pending.filter (· ≠ number) }
  | .take => fun s ↦ (.ok s.takeJob.1, s.takeJob.2)
  | .readSource => perhaps (fun _ s ↦ readSource s) id
  | .resolveEmbeddingAllocation =>
      perhaps (fun answer s ↦ resolveEmbeddingAllocation answer.model s) id
  | .setStatus status => perhaps (fun _ s ↦ ((), { s with status := status })) id
  | .leave status => perhaps (fun _ s ↦ ((), { s.settle with status := status })) id
  | .embedTexts _ _ => perhaps (fun answer s ↦ (answer.vectors, s)) id
  | .replaceIndex rows => perhaps (fun _ s ↦ ((), { s with index := rows })) id
  | .markReady contentHash => perhaps (fun _ s ↦ ((), { s.settle with
      status := .ready, contentHash := some contentHash })) id
  | .complete => Service.write fun s ↦ s.endJob (fun _ ↦ some (.completed 0)) (some true)
  | .fail => fun s ↦
      match s.job with
      | some (.active attemptsMade _ _) =>
          if attemptsMade + 1 < attempts then
            (.ok false, s.endJob (fun n ↦ some (.waiting (n + 1))) s.succeeded)
          else (.ok true, s.endJob (fun _ ↦ some (.failed 0)) (some false))
      | _ => (.ok false, s)
  | .otherCompleted => Service.write Shared.otherCompleted
  | .otherFailed => Service.write Shared.otherFailed

end Statements

abbrev Procedure (α : Type) := Proc Shared Reply Failure α

open Proc

abbrev ask (w : Write) : Procedure (Reply w) := issue w

/-- A statement whose failure is the caller's. -/
def must {α : Type} (r : Procedure (Except Failure α)) : Procedure α := do
  let answer ← r
  ofExcept answer

/-! ## The calls -/

/-- An edit of the source, and the call of `enqueueEmbedding` or `enqueueTestcaseEmbedding` that
follows it; neither failure of the call is told. -/
def editAndEnqueue (content : Content) : Procedure Unit := do
  let number ← ask (.edit content)
  let _ ← ask (.setQueued number)
  let _ ← ask (.add number)
  pure ()

def ragEmbeddingDimension : ℕ := 1024

def ragEmbeddingBatchSize : ℕ := 96

/-- `slice(i, i + RAG_EMBEDDING_BATCH_SIZE)`, for each `i` of the loop. -/
def batches (inputs : List String) : List (List String) :=
  (List.range ((inputs.length + (ragEmbeddingBatchSize - 1)) / ragEmbeddingBatchSize)).map
    fun i ↦ (inputs.drop (i * ragEmbeddingBatchSize)).take ragEmbeddingBatchSize

def embedBatches (model : String) : List (List String) → Procedure (List Embedding)
  | [] => pure []
  | batch :: batches => do
      let vectors ← must (ask (.embedTexts model batch))
      let rest ← embedBatches model batches
      pure (vectors ++ rest)

/-- The rows of the chunks whose vector has the width of the column. -/
def chunkRows (contentHash model : String) (chunks : List RagChunk) (vectors : List Embedding) :
    List IndexRow :=
  (chunks.zip vectors).filterMap fun (chunk, vector) ↦
    if vector.width = ragEmbeddingDimension then some ⟨some chunk, contentHash, model, vector⟩
    else none

section Worker

variable [Sha256] [Chunking]

def processKnowledgeSource (sourceType : SourceType) : Procedure Unit := do
  let source ← must (ask .readSource)
  match source with
  | none => do
      let _ ← ask (.leave .unsupported)
      pure ()
  | some source => do
      let content := embeddingText sourceType source.content
      if content = "" then must (ask (.leave .unsupported))
      else do
        let allocation ← must (ask .resolveEmbeddingAllocation)
        match allocation with
        | none => must (ask (.leave .pending))
        | some model => do
            let contentHash := Sha256.hex content
            if source.contentHash = some contentHash then pure ()
            else do
              must (ask (.setStatus .processing))
              let chunks := Chunking.chunk content
              if chunks = [] then must (ask (.leave .unsupported))
              else do
                let embeddings ← embedBatches model (batches (chunks.map RagChunk.content))
                must (ask (.replaceIndex (chunkRows contentHash model chunks embeddings)))
                must (ask (.markReady contentHash))

def processTestcase : Procedure Unit := do
  let source ← must (ask .readSource)
  match source with
  | none => do
      let _ ← ask (.leave .unsupported)
      pure ()
  | some source => do
      let text := buildTestcaseEmbeddingText source.content
      if text = "" then must (ask (.leave .unsupported))
      else do
        let allocation ← must (ask .resolveEmbeddingAllocation)
        match allocation with
        | none => must (ask (.leave .pending))
        | some model => do
            let contentHash := Sha256.hex text
            if source.contentHash = some contentHash then pure ()
            else do
              must (ask (.setStatus .processing))
              let vectors ← must (ask (.embedTexts model [text]))
              match vectors.head?.filter fun vector ↦ vector.width = ragEmbeddingDimension with
              | none => must (ask (.leave .failed))
              | some vector => do
                  must (ask (.replaceIndex [⟨none, contentHash, model, vector⟩]))
                  must (ask (.markReady contentHash))

def process (sourceType : SourceType) : Procedure Unit :=
  match sourceType with
  | .document | .file => processKnowledgeSource sourceType
  | .testcase => processTestcase

/-- A worker that looks for the job; after its last attempt `onFailed` follows. -/
def work (sourceType : SourceType) : Procedure Unit := do
  let taken ← ask .take
  if taken = false then pure ()
  else do
    let outcome ← (process sourceType).attempt
    match outcome with
    | .ok _ => ask .complete
    | .error _ => do
        let exhausted ← ask .fail
        if exhausted = false then pure ()
        else do
          let _ ← ask (.setStatus .failed)
          pure ()

end Worker

end Tesbo.Rag
