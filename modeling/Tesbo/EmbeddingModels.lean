import Tesbo.EmbeddingJobs
import Mathlib.Data.List.Sort
import Mathlib.Data.Rat.Defs

/-!
# Which model embeds

The vectors of a project's sources are made by the model of whatever key is found when they are
made, and a query is embedded by that of the key found then.  A vector is made again when the text
of its source has changed.  Statuses, traces and the texts that explain a missing key are left out.
-/

namespace Tesbo.Embeddings

open Reasoning
open Rag (Content SourceType RagChunk Chunking embeddingText batches ragEmbeddingDimension)

/-! ## Rows -/

structure WorkspaceAiKey where
  id : ℕ
  organizationId : ℕ
  name : String
  provider : String
  isActive : Bool
  createdAt : ℕ
deriving DecidableEq, Repr

structure ProjectAiKeyAllocation where
  projectId : ℕ
  workspaceAiKeyId : Option ℕ
deriving DecidableEq, Repr

/-- A document, a file or a test case; the last two have no document type. -/
structure Source where
  sourceType : SourceType
  id : ℕ
  projectId : ℕ
  documentType : String
  status : String
  content : Content
  live : Bool
  contentHash : Option String
deriving DecidableEq, Repr

def Source.key (source : Source) : SourceType × ℕ := (source.sourceType, source.id)

/-- A vector, and the model it was asked of. -/
structure EmbeddingVector where
  model : Option String
  values : List ℚ
deriving DecidableEq, Repr

/-- A row of `knowledge_document_chunks`, or without a chunk of `testcase_embeddings`. -/
structure VectorRow where
  projectId : ℕ
  sourceType : SourceType
  sourceId : ℕ
  chunk : Option RagChunk
  contentHash : String
  embeddingModel : Option String
  embedding : EmbeddingVector
deriving DecidableEq, Repr

/-- `1 - (a <=> b)` -/
class CosineSimilarity where
  similarity : List ℚ → List ℚ → ℚ

inductive Collection where
  | knowledge
  | testcases
deriving DecidableEq, Repr

structure Hit where
  row : VectorRow
  cosineSimilarity : ℚ
deriving DecidableEq, Repr

structure Search where
  projectId : ℕ
  collection : Collection
  query : EmbeddingVector
  hits : List Hit
deriving DecidableEq, Repr

/-- What becomes of a draft. -/
inductive ZyraOperation where
  | create
  | update (testcaseId : ℕ) (cosineSimilarity : ℚ)
deriving DecidableEq, Repr

/-- How the next statement or request turns out: whether it goes through, and the vectors that are
answered. -/
structure Answer where
  ok : Bool
  vectors : List (List ℚ)

/-- `searches` are those that were answered; no one reads them. -/
structure Data where
  voyageApiKey : String
  keys : Table WorkspaceAiKey.id
  allocations : Table ProjectAiKeyAllocation.projectId
  organizationOf : ℕ → Option ℕ
  sources : Table Source.key
  vectors : List VectorRow
  answers : ℕ → Answer
  searches : List Search
  staged : List (ℕ × ZyraOperation)

/-! ## The key that embeds -/

structure EmbeddingKeyAllocation where
  provider : String
  model : Option String
deriving DecidableEq, Repr

def embeddingCapableProviders : List (String × String) :=
  [("openai", "text-embedding-3-small"), ("google", "gemini-embedding-001"),
    ("mistral", "mistral-embed")]

def voyageEmbedding : EmbeddingKeyAllocation := ⟨"voyage", some "voyage-3.5"⟩

def lowerCase (s : String) : String := String.ofList (s.toList.map Char.toLower)

/-- The model of a provider that can embed.  A lookup in the record finds two more names, on its
prototype, and with them no model. -/
def embeddingCapability (provider : String) : Option (Option String) :=
  let name := lowerCase (jsTrim provider)
  match embeddingCapableProviders.lookup name with
  | some model => some (some model)
  | none => if name = "constructor" ∨ name = "__proto__" then some none else none

def toAllocation (key : WorkspaceAiKey) : Option EmbeddingKeyAllocation :=
  (embeddingCapability key.provider).map fun model ↦ ⟨key.provider, model⟩

/-- The project's own allocated key, active or not. -/
def allocatedKey (projectId : ℕ) (s : Data) : Option WorkspaceAiKey := do
  let allocation ← s.allocations.find projectId
  let keyId ← allocation.workspaceAiKeyId
  s.keys.find keyId

/-- The oldest active key of the organization whose provider can embed. -/
def fallbackKey (organizationId : ℕ) (s : Data) : Option WorkspaceAiKey :=
  ((s.keys.rows.filter fun key ↦ key.organizationId = organizationId ∧ key.isActive ∧
    lowerCase key.provider ∈ embeddingCapableProviders.map Prod.fst).insertionSort
      fun a b ↦ a.createdAt ≤ b.createdAt).head?

/-- The three tiers, all in one state. -/
def resolved (projectId : ℕ) (s : Data) : Option EmbeddingKeyAllocation :=
  if jsTrim s.voyageApiKey ≠ "" then some voyageEmbedding
  else
    (((allocatedKey projectId s).filter fun key ↦ key.isActive).bind toAllocation).or do
      let organizationId ← s.organizationOf projectId
      let key ← fallbackKey organizationId s
      toAllocation key

/-! ## Statements -/

inductive KeyChange where
  | setVoyageApiKey (key : String)
  | insertAiKey (key : WorkspaceAiKey)
  | deleteAiKey (id organizationId : ℕ)
  | setActive (id : ℕ) (active : Bool)
  | allocateAiKey (projectId : ℕ) (workspaceAiKeyId : Option ℕ)

inductive SourceChange where
  | create (source : Source)
  | edit (sourceType : SourceType) (id : ℕ) (content : Content)
  | setLive (sourceType : SourceType) (id : ℕ) (live : Bool)
  | setStatus (sourceType : SourceType) (id : ℕ) (status : String)
  | remove (sourceType : SourceType) (id : ℕ)

inductive Write where
  | changeKey (change : KeyChange)
  | changeSource (change : SourceChange)
  | embed (model : Option String) (inputs : List String)
  | storeVectors (projectId : ℕ) (sourceType : SourceType) (sourceId : ℕ) (rows : List VectorRow)
  | markReady (sourceType : SourceType) (sourceId : ℕ) (contentHash : String)
  | search (projectId : ℕ) (collection : Collection) (query : EmbeddingVector)
      (excluded : Option ℕ)
  | stage (projectId : ℕ) (operations : List ZyraOperation)

/-- What a statement answers with; a key that is inserted, whether there was none of its name. -/
@[reducible] def Reply : Write → Type
  | .changeKey _ => Bool
  | .changeSource _ | .stage _ _ => Unit
  | .embed _ _ => Except Failure (List (List ℚ))
  | .storeVectors _ _ _ _ | .markReady _ _ _ => Except Failure Unit
  | .search _ _ _ _ => Except Failure (List Hit)

namespace Data

def next (s : Data) : Data := { s with answers := fun n ↦ s.answers (n + 1) }

/-- A deleted key is taken out of the allocations. -/
def changeKey (change : KeyChange) (s : Data) : Bool × Data :=
  match change with
  | .setVoyageApiKey key => (true, { s with voyageApiKey := key })
  | .insertAiKey key =>
      if s.keys.rows.any fun other ↦
          other.organizationId = key.organizationId ∧ other.name = key.name then (false, s)
      else
        match s.keys.insert key with
        | none => (false, s)
        | some keys => (true, { s with keys := keys })
  | .deleteAiKey id organizationId =>
      if (s.keys.find id).any fun key ↦ key.organizationId = organizationId then
        (true, { s with
          keys := s.keys.deleteWhere (fun key ↦ key.id = id)
          allocations := s.allocations.updateWhere (fun row ↦ row.workspaceAiKeyId = some id)
            (fun row ↦ { row with workspaceAiKeyId := none }) fun _ ↦ rfl })
      else (true, s)
  | .setActive id active =>
      (true, { s with
        keys := s.keys.updateWhere (fun key ↦ key.id = id)
          (fun key ↦ { key with isActive := active }) fun _ ↦ rfl })
  | .allocateAiKey projectId workspaceAiKeyId =>
      if workspaceAiKeyId.all fun id ↦ (s.keys.find id).isSome then
        (true, { s with
          allocations := s.allocations.upsert ⟨projectId, workspaceAiKeyId⟩
            (fun row ↦ { row with workspaceAiKeyId := workspaceAiKeyId }) fun _ ↦ rfl })
      else (false, s)

def updateSource (sourceType : SourceType) (id : ℕ) (f : Source → Source)
    (hf : ∀ source, (f source).key = source.key) (s : Data) : Data :=
  { s with
    sources := s.sources.updateWhere (fun source ↦ source.key = (sourceType, id)) f hf }

/-- The vector of a test case goes with it; those of a document or a file stay. -/
def changeSource (change : SourceChange) (s : Data) : Data :=
  match change with
  | .create source =>
      match s.sources.insert { source with contentHash := none } with
      | none => s
      | some sources => { s with sources := sources }
  | .edit sourceType id content =>
      s.updateSource sourceType id (fun source ↦ { source with content := content }) fun _ ↦ rfl
  | .setLive sourceType id live =>
      s.updateSource sourceType id (fun source ↦ { source with live := live }) fun _ ↦ rfl
  | .setStatus sourceType id status =>
      s.updateSource sourceType id (fun source ↦ { source with status := status }) fun _ ↦ rfl
  | .remove sourceType id =>
      { s with
        sources := s.sources.deleteWhere (fun source ↦ source.key = (sourceType, id))
        vectors := s.vectors.filter fun row ↦
          ¬ (row.sourceType = .testcase ∧ sourceType = .testcase ∧ row.sourceId = id) }

/-- A row has a model, and that of a test case a test case. -/
def storable (s : Data) (row : VectorRow) : Bool :=
  row.embeddingModel.isSome ∧
    (row.sourceType = .testcase → (s.sources.find (.testcase, row.sourceId)).isSome)

/-- The rows of a source are replaced. -/
def storeVectors (projectId : ℕ) (sourceType : SourceType) (sourceId : ℕ) (rows : List VectorRow)
    (s : Data) : Data :=
  { s with
    vectors := s.vectors.filter (fun row ↦ ¬ (row.projectId = projectId ∧
      row.sourceType = sourceType ∧ row.sourceId = sourceId)) ++ rows }

/-- Whether a search looks at a live source. -/
def looksAt (collection : Collection) (excluded : Option ℕ) (source : Source) : Bool :=
  match collection with
  | .knowledge => source.sourceType = .file ∨ (source.sourceType = .document ∧
      (source.documentType ≠ "ai_memory" ∨ source.status = "approved"))
  | .testcases => source.sourceType = .testcase ∧ excluded ≠ some source.id

/-- Whether the join of a search has the row. -/
def searchable (projectId : ℕ) (collection : Collection) (excluded : Option ℕ) (s : Data)
    (row : VectorRow) : Bool :=
  row.projectId = projectId ∧ (s.sources.find (row.sourceType, row.sourceId)).any fun source ↦
    source.live ∧ looksAt collection excluded source

end Data

def ragAnnCandidates : ℕ := 40

section Search

variable [CosineSimilarity]

def hitsOf (query : EmbeddingVector) (rows : List VectorRow) : List Hit :=
  ((rows.map fun row ↦ ⟨row, CosineSimilarity.similarity query.values row.embedding.values⟩ :
    List Hit).insertionSort fun a b ↦ b.cosineSimilarity ≤ a.cosineSimilarity).take ragAnnCandidates

/-- The nearest rows of the project's live sources, whatever model they are of. -/
def Data.search (projectId : ℕ) (collection : Collection) (query : EmbeddingVector)
    (excluded : Option ℕ) (s : Data) : List Hit :=
  hitsOf query (s.vectors.filter (s.searchable projectId collection excluded))

def unreachable : Failure := .sqlState "08006" ""

def perhaps {α : Type} (ok : Data → Bool) (f : Answer → Data → α × Data) :
    Service Failure Data (Except Failure α) :=
  Service.perhaps (fun s ↦ (s.answers 0).ok && ok s) unreachable (fun s ↦ f (s.answers 0) s.next)
    Data.next

def perform : (w : Write) → Service Failure Data (Reply w)
  | .changeKey change => fun s ↦ (.ok (s.changeKey change).1, (s.changeKey change).2)
  | .changeSource change => Service.write fun s ↦ s.changeSource change
  | .embed _ _ => perhaps (fun _ ↦ true) fun answer s ↦ (answer.vectors, s)
  | .storeVectors projectId sourceType sourceId rows =>
      perhaps (fun s ↦ rows.all s.storable) fun _ s ↦
        ((), s.storeVectors projectId sourceType sourceId rows)
  | .markReady sourceType sourceId contentHash => perhaps (fun _ ↦ true) fun _ s ↦
      ((), s.updateSource sourceType sourceId
        (fun source ↦ { source with contentHash := some contentHash }) fun _ ↦ rfl)
  | .search projectId collection query excluded =>
      perhaps (fun _ ↦ query.values.length = ragEmbeddingDimension) fun _ s ↦
        (s.search projectId collection query excluded, { s with
          searches := ⟨projectId, collection, query, s.search projectId collection query excluded⟩ ::
            s.searches })
  | .stage projectId operations => Service.write fun s ↦
      { s with staged := operations.map (projectId, ·) ++ s.staged }

end Search

abbrev Procedure (α : Type) := Proc Data Reply Failure α

open Proc

abbrev ask (w : Write) : Procedure (Reply w) := issue w

/-- A statement whose failure is the caller's. -/
def must {α : Type} (r : Procedure (Except Failure α)) : Procedure α := do
  let answer ← r
  ofExcept answer

/-! ## Calls of the workspace's owner -/

/-- `/^[A-Za-z0-9][A-Za-z0-9._-]*$/` -/
def validProvider (provider : String) : Bool :=
  match provider.toList with
  | [] => false
  | c :: cs => c.isAlphanum ∧ cs.all fun c ↦ c.isAlphanum || c = '.' || c = '_' || c = '-'

/-- The owner adds a key; the secret and the address are left out. -/
def createAiKey (key : WorkspaceAiKey) : Procedure Unit := do
  let name := jsTrim key.name
  let provider := lowerCase (jsTrim (if key.provider = "" then "openai" else key.provider))
  require (jsTrim key.provider = "" ∨ validProvider (jsTrim key.provider))
    (.badRequest "provider may only contain letters, digits, dots, dashes and underscores")
  require (name ≠ "") (.badRequest "name is required")
  require (provider ≠ "") (.badRequest "provider is required")
  let inserted ← ask (.changeKey (.insertAiKey { key with
    name := name
    provider := provider
    isActive := true }))
  require (inserted = true) (.badRequest ("A workspace AI key named \"" ++ name ++ "\" already " ++
    "exists. Remove it first, then add it again to change its provider or API key."))

def deleteAiKey (organizationId keyId : ℕ) : Procedure Unit := do
  let _ ← ask (.changeKey (.deleteAiKey keyId organizationId))
  pure ()

def allocateAiKey (organizationId projectId : ℕ) (workspaceAiKeyId : Option ℕ) :
    Procedure Unit := do
  let organization ← query fun s ↦ s.organizationOf projectId
  require (organization = some organizationId) (.notFound "Project not found")
  match workspaceAiKeyId with
  | none => pure ()
  | some keyId => do
      let key ← query fun s ↦ s.keys.find keyId
      require (key.map WorkspaceAiKey.organizationId = some organizationId)
        (.notFound "AI key not found")
  let _ ← ask (.changeKey (.allocateAiKey projectId workspaceAiKeyId))
  pure ()

/-! ## Embedding -/

/-- `resolved`, in a statement each. -/
def resolveEmbeddingAllocation (projectId : ℕ) : Procedure (Option EmbeddingKeyAllocation) := do
  let voyageKey ← query fun s ↦ s.voyageApiKey
  if jsTrim voyageKey ≠ "" then pure (some voyageEmbedding)
  else do
    let allocated ← query (allocatedKey projectId)
    match (allocated.filter fun key ↦ key.isActive).bind toAllocation with
    | some allocation => pure (some allocation)
    | none => do
        let organization ← query fun s ↦ s.organizationOf projectId
        match organization with
        | none => pure none
        | some organizationId => do
            let fallback ← query (fallbackKey organizationId)
            pure (fallback.bind toAllocation)

def embedTexts (allocation : EmbeddingKeyAllocation) (inputs : List String) :
    Procedure (List EmbeddingVector) := do
  let values ← must (ask (.embed allocation.model inputs))
  pure (values.map (EmbeddingVector.mk allocation.model))

def embedBatches (allocation : EmbeddingKeyAllocation) :
    List (List String) → Procedure (List EmbeddingVector)
  | [] => pure []
  | batch :: batches => do
      let vectors ← embedTexts allocation batch
      let rest ← embedBatches allocation batches
      pure (vectors ++ rest)

section Jobs

variable [Sha256] [Chunking]

/-- The live row of a source. -/
def sourceRow (projectId : ℕ) (sourceType : SourceType) (sourceId : ℕ) (s : Data) :
    Option Source :=
  (s.sources.find (sourceType, sourceId)).filter fun source ↦
    source.projectId = projectId ∧ source.live

/-- The rows of the chunks whose vector has the width of the column. -/
def chunkRows (projectId : ℕ) (sourceType : SourceType) (sourceId : ℕ) (contentHash : String)
    (allocation : EmbeddingKeyAllocation) (chunks : List RagChunk) (vectors : List EmbeddingVector) :
    List VectorRow :=
  (chunks.zip vectors).filterMap fun (chunk, vector) ↦
    if vector.values.length = ragEmbeddingDimension then
      some ⟨projectId, sourceType, sourceId, some chunk, contentHash, allocation.model, vector⟩
    else none

def processKnowledgeSource (projectId : ℕ) (sourceType : SourceType) (sourceId : ℕ) :
    Procedure Unit := do
  let source ← query (sourceRow projectId sourceType sourceId)
  match source with
  | none => pure ()
  | some source => do
      let content := embeddingText sourceType source.content
      if content = "" then pure ()
      else do
        let allocation ← resolveEmbeddingAllocation projectId
        match allocation with
        | none => pure ()
        | some allocation => do
            let contentHash := Sha256.hex content
            if source.contentHash = some contentHash then pure ()
            else do
              let chunks := Chunking.chunk content
              if chunks = [] then pure ()
              else do
                let vectors ← embedBatches allocation (batches (chunks.map RagChunk.content))
                must (ask (.storeVectors projectId sourceType sourceId
                  (chunkRows projectId sourceType sourceId contentHash allocation chunks vectors)))
                must (ask (.markReady sourceType sourceId contentHash))

def processTestcase (projectId testcaseId : ℕ) : Procedure Unit := do
  let source ← query (sourceRow projectId .testcase testcaseId)
  match source with
  | none => pure ()
  | some source => do
      let text := embeddingText .testcase source.content
      if text = "" then pure ()
      else do
        let allocation ← resolveEmbeddingAllocation projectId
        match allocation with
        | none => pure ()
        | some allocation => do
            let contentHash := Sha256.hex text
            if source.contentHash = some contentHash then pure ()
            else do
              let vectors ← embedTexts allocation [text]
              match vectors.head?.filter fun v ↦ v.values.length = ragEmbeddingDimension with
              | none => pure ()
              | some vector => do
                  must (ask (.storeVectors projectId .testcase testcaseId
                    [⟨projectId, .testcase, testcaseId, none, contentHash, allocation.model, vector⟩]))
                  must (ask (.markReady .testcase testcaseId contentHash))

def process (projectId : ℕ) (sourceType : SourceType) (sourceId : ℕ) : Procedure Unit :=
  match sourceType with
  | .document | .file => processKnowledgeSource projectId sourceType sourceId
  | .testcase => processTestcase projectId sourceId

end Jobs

/-! ## Searches -/

/-- `annSearch` and `annSearchTestcases` -/
def annSearch (projectId : ℕ) (collection : Collection) (allocation : EmbeddingKeyAllocation)
    (text : String) (excluded : Option ℕ) : Procedure (List Hit) := do
  let vectors ← embedTexts allocation [text]
  match vectors.head? with
  | none => pure []
  | some queryVector => must (ask (.search projectId collection queryVector excluded))

def ragMinSimilarity : ℚ := 50 / 100

def testcaseSimilarityThreshold : ℚ := 86 / 100

def testcaseUpdateThreshold : ℚ := 95 / 100

/-- The hits of a text; a failure leaves none. -/
def hitsFor (projectId : ℕ) (collection : Collection) (queryText : String) (excluded : Option ℕ) :
    Procedure (List Hit) := do
  let text := jsTrim queryText
  if text = "" then pure []
  else do
    let answer ← (do
      let allocation ← resolveEmbeddingAllocation projectId
      match allocation with
      | none => pure []
      | some allocation => annSearch projectId collection allocation text excluded).attempt
    match answer with
    | .ok hits => pure hits
    | .error _ => pure []

/-- The passages a message is answered from, of those found by meaning. -/
def retrieveWithDiagnostics (projectId : ℕ) (query : String) : Procedure (List Hit) := do
  let hits ← hitsFor projectId .knowledge query none
  pure (hits.filter fun hit ↦ ragMinSimilarity ≤ hit.cosineSimilarity)

structure SimilarTestcaseMatch where
  testcaseId : ℕ
  cosineSimilarity : ℚ
deriving DecidableEq, Repr

def findSimilarTestcases (projectId : ℕ) (queryText : String) (excludeTestcaseId : Option ℕ)
    (limit : ℕ) : Procedure (List SimilarTestcaseMatch) := do
  let hits ← hitsFor projectId .testcases queryText excludeTestcaseId
  pure (((hits.filter fun hit ↦ testcaseSimilarityThreshold ≤ hit.cosineSimilarity).take limit).map
    fun hit ↦ ⟨hit.row.sourceId, hit.cosineSimilarity⟩)

structure Draft where
  title : String
  description : String
  stepsJson : String

def draftText (draft : Draft) : String :=
  jsSlice 4000 ("\n".intercalate
    ([draft.title, draft.description, draft.stepsJson].filter fun text ↦ text ≠ ""))

def matchesOf (projectId : ℕ) : List Draft → Procedure (List (Option SimilarTestcaseMatch))
  | [] => pure []
  | draft :: drafts => do
      let found ← findSimilarTestcases projectId (draftText draft) none 1
      let rest ← matchesOf projectId drafts
      pure (found.head? :: rest)

/-- The match of each draft; the feedback to the model is left out. -/
def zyraSimilarityFeedbackForDrafts (projectId : ℕ) (drafts : List Draft) :
    Procedure (List (Option SimilarTestcaseMatch)) := do
  let embedded ← query fun s ↦ s.vectors.any fun row ↦
    row.projectId = projectId ∧ row.sourceType = .testcase
  if embedded = false then pure (drafts.map fun _ ↦ none)
  else matchesOf projectId drafts

/-- The operations of the final drafts; the matches are those of the first ones. -/
def operationsOf (found : List (Option SimilarTestcaseMatch)) (finalCount : ℕ) :
    List ZyraOperation :=
  (List.range finalCount).map fun index ↦
    match (found[index]?.join).filter fun target ↦
        testcaseUpdateThreshold ≤ target.cosineSimilarity with
    | some target => .update target.testcaseId target.cosineSimilarity
    | none => .create

def generateZyraDrafts (projectId : ℕ) (drafts : List Draft) (finalCount : ℕ) :
    Procedure Unit := do
  let matchesByIndex ← zyraSimilarityFeedbackForDrafts projectId drafts
  ask (.stage projectId (operationsOf matchesByIndex finalCount))

end Tesbo.Embeddings
