import Tesbo.EmbeddingModels

/-!
# A query is ranked against vectors of its model

The searches look at all of a project's vectors, so these have to be of one model: that of the key
the project has.  A change of the keys leaves the vectors as they are.
-/

namespace Tesbo.Embeddings

open Reasoning Proc
open Rag (Content SourceType RagChunk Chunking embeddingText batches ragEmbeddingDimension)

/-! ## Calls -/

inductive Call where
  | setVoyageApiKey (key : String)
  | createAiKey (key : WorkspaceAiKey)
  | deleteAiKey (organizationId keyId : ℕ)
  | setActive (keyId : ℕ) (active : Bool)
  | allocateAiKey (organizationId projectId : ℕ) (workspaceAiKeyId : Option ℕ)
  | changeSource (change : SourceChange)
  | process (projectId : ℕ) (sourceType : SourceType) (sourceId : ℕ)
  | retrieve (projectId : ℕ) (query : String)
  | findSimilar (projectId : ℕ) (query : String) (excludeTestcaseId : Option ℕ) (limit : ℕ)
  | generate (projectId : ℕ) (drafts : List Draft) (finalCount : ℕ)

/-- The answer of a call, of which only what is staged is kept. -/
def discard {α : Type} (p : Procedure α) : Procedure Unit := do
  let _ ← p
  pure ()

section Machine

variable [Sha256] [Chunking] [CosineSimilarity]

def enter : Call → Procedure Unit
  | .setVoyageApiKey key => discard (ask (.changeKey (.setVoyageApiKey key)))
  | .createAiKey key => createAiKey key
  | .deleteAiKey organizationId keyId => deleteAiKey organizationId keyId
  | .setActive keyId active => discard (ask (.changeKey (.setActive keyId active)))
  | .allocateAiKey organizationId projectId workspaceAiKeyId =>
      allocateAiKey organizationId projectId workspaceAiKeyId
  | .changeSource change => ask (.changeSource change)
  | .process projectId sourceType sourceId => process projectId sourceType sourceId
  | .retrieve projectId query => discard (retrieveWithDiagnostics projectId query)
  | .findSimilar projectId query excludeTestcaseId limit =>
      discard (findSimilarTestcases projectId query excludeTestcaseId limit)
  | .generate projectId drafts finalCount => generateZyraDrafts projectId drafts finalCount

abbrev Run := Config Data (Procedure Unit)

def step (c : Run) (m : Move Call) : Run := c.move enter (fun _ ↦ Proc.exec perform) m

/-! ## The property and its condition -/

/-- A search of the project has ranked its query against vectors of the query's model. -/
def Comparable (x : Search) : Prop :=
  ∀ hit ∈ x.hits, hit.row.embedding.model = x.query.model ∧
    hit.cosineSimilarity = CosineSimilarity.similarity x.query.values hit.row.embedding.values

omit [Sha256] [Chunking] in
instance (x : Search) : Decidable (Comparable x) :=
  inferInstanceAs (Decidable (∀ hit ∈ x.hits, _ ∧ _))

/-- All searches of the project, and so those behind each update that has been made of a draft. -/
structure OneVectorSpace (projectId : ℕ) (s : Data) : Prop where
  ranked : ∀ x ∈ s.searches, x.projectId = projectId → Comparable x
  updates : ∀ testcaseId similarity, (projectId, .update testcaseId similarity) ∈ s.staged →
    testcaseUpdateThreshold ≤ similarity ∧ ∃ x ∈ s.searches, x.projectId = projectId ∧
      Comparable x ∧ ∃ hit ∈ x.hits,
        hit.row.sourceId = testcaseId ∧ hit.cosineSimilarity = similarity

/-- The model of the key that the project has is that of its vectors after a change of the keys, and
still that of the vectors a job stores, or of the query of a search. -/
def Steady (projectId : ℕ) (s : Data) : Write → Prop
  | .changeKey change => ∀ allocation ∈ resolved projectId (s.changeKey change).2,
      ∀ row ∈ s.vectors, row.projectId = projectId → row.embeddingModel = allocation.model
  | .storeVectors _ _ _ rows => ∀ row ∈ rows, row.projectId = projectId →
      (resolved projectId s).map EmbeddingKeyAllocation.model = some row.embeddingModel
  | .search id _ queryVector _ => id = projectId →
      (resolved projectId s).map EmbeddingKeyAllocation.model = some queryVector.model
  | _ => True

omit [Sha256] [Chunking] [CosineSimilarity] in
instance (projectId : ℕ) (s : Data) (w : Write) : Decidable (Steady projectId s w) := by
  cases w with
  | changeKey change => exact inferInstanceAs (Decidable (∀ allocation ∈ _, ∀ row ∈ _, _ → _))
  | storeVectors _ _ _ rows => exact inferInstanceAs (Decidable (∀ row ∈ rows, _ → _))
  | search id _ queryVector _ => exact inferInstanceAs (Decidable (_ → _))
  | _ => exact instDecidableTrue

/-- A project with nothing embedded, before any search of it. -/
structure NothingEmbedded (projectId : ℕ) (s : Data) : Prop where
  vectors : ∀ row ∈ s.vectors, row.projectId ≠ projectId
  searches : ∀ x ∈ s.searches, x.projectId ≠ projectId
  staged : ∀ operation ∈ s.staged, operation.1 ≠ projectId

end Machine

/-! ## Where a call is

The searches it has been answered. -/

abbrev Phase := List Search

def turn : Phase → (w : Write) → Reply w → Phase
  | phase, .search projectId collection queryVector _, .ok hits =>
      ⟨projectId, collection, queryVector, hits⟩ :: phase
  | phase, _, _ => phase

/-- A hit of one of the searches. -/
def Matched (projectId : ℕ) (phase : Phase) (testcaseId : ℕ) (similarity : ℚ) : Prop :=
  ∃ x ∈ phase, x.projectId = projectId ∧
    ∃ hit ∈ x.hits, hit.row.sourceId = testcaseId ∧ hit.cosineSimilarity = similarity

/-- The rows of a job are of its model; an update is of a hit. -/
def Legal (phase : Phase) (_ : Data) : Write → Prop
  | .storeVectors _ _ _ rows => ∀ row ∈ rows, row.embedding.model = row.embeddingModel
  | .stage projectId operations => ∀ testcaseId similarity,
      .update testcaseId similarity ∈ operations →
        testcaseUpdateThreshold ≤ similarity ∧ Matched projectId phase testcaseId similarity
  | _ => True

/-- The state is left to the invariant. -/
def Anything (_ _ : Data) : Prop := True

theorem anything_refl (s : Data) : Anything s s := trivial

theorem anything_trans (a b c : Data) (_ : Anything a b) (_ : Anything b c) : Anything a c :=
  trivial

/-! ### What each call asks for -/

section Calls

variable {t : Phase} {s : Data} {α β : Type}

/-- What is true of an answer; the searches before it are not lost. -/
abbrev Asking (Q : α → Phase → Prop) (t : Phase) (s : Data) (p : Procedure α) : Prop :=
  Ends turn Anything Legal (fun a t' _ ↦ t ⊆ t' ∧ Q a t') (fun _ t' _ ↦ t ⊆ t') t s p

theorem asking_pure {Q : α → Phase → Prop} {a : α} (h : Q a t) : Asking Q t s (pure a) :=
  ends_pure fun _ _ ↦ ⟨fun _ hx ↦ hx, h⟩

theorem asking_query_seq {g : Data → α} {f : α → Procedure β} {Q : β → Phase → Prop}
    (hf : ∀ s', Asking Q t s' (f (g s'))) : Asking Q t s (query g >>= f) :=
  ends_query_seq fun s' _ ↦ hf s'

theorem asking_ofExcept {r : Except Failure α} {Q : α → Phase → Prop}
    (h : ∀ a, r = .ok a → Q a t) : Asking Q t s (ofExcept r) :=
  ends_ofExcept (fun a ha _ _ ↦ ⟨fun _ hx ↦ hx, h a ha⟩) fun _ _ _ _ _ hx ↦ hx

theorem subset_turn (t : Phase) (w : Write) (r : Reply w) : t ⊆ turn t w r := by
  cases w with
  | search projectId collection queryVector excluded =>
      cases r with
      | ok hits => exact fun x hx ↦ List.mem_cons_of_mem _ hx
      | error e => exact fun x hx ↦ hx
  | _ => exact fun x hx ↦ hx

theorem asking_ask {w : Write} (hw : Legal t s w) :
    Asking (fun r t' ↦ t' = turn t w r) t s (ask w) :=
  ends_issue anything_trans (fun _ _ ↦ hw) fun r _ _ ↦ ⟨subset_turn t w r, rfl⟩

theorem asking_seq {P : α → Phase → Prop} {Q : β → Phase → Prop} {p : Procedure α}
    {f : α → Procedure β} (hp : Asking P t s p)
    (hf : ∀ a t' s', t ⊆ t' → P a t' → Asking Q t' s' (f a)) : Asking Q t s (p >>= f) := by
  refine ends_seq anything_refl anything_trans hp (fun _ _ _ _ h _ ↦ h) ?_
  intro a t' s' _ h
  refine (hf a t' s' h.1 h.2).mono (fun b t'' _ hb ↦ ?_) fun _ t'' _ hb ↦ ?_
  · exact ⟨fun x hx ↦ hb.1 (h.1 hx), hb.2⟩
  · exact fun x hx ↦ hb (h.1 hx)

theorem Asking.weaken {P Q : α → Phase → Prop} {p : Procedure α} (h : Asking P t s p)
    (hQ : ∀ a t', t ⊆ t' → P a t' → Q a t') : Asking Q t s p :=
  Ends.mono h (fun a t' _ ha ↦ ⟨ha.1, hQ a t' ha.1 ha.2⟩) fun _ _ _ he ↦ he

/-- A statement that must go through. -/
theorem asking_must {P : Except Failure α → Phase → Prop} {Q : α → Phase → Prop}
    {p : Procedure (Except Failure α)} (hp : Asking P t s p)
    (hok : ∀ a t', P (.ok a) t' → Q a t') : Asking Q t s (must p) := by
  refine asking_seq hp fun r t' s' _ hr ↦ asking_ofExcept fun a ha ↦ ?_
  subst ha
  exact hok a t' hr

/-- An error that is caught. -/
theorem asking_attempt {P : α → Phase → Prop} {p : Procedure α} (hp : Asking P t s p) :
    Asking (fun r t' ↦ ∀ a, r = .ok a → P a t') t s p.attempt := by
  refine Ends.mono (ends_attempt hp) (fun r t' _ hr ↦ ?_) fun _ _ _ he ↦ he
  cases r with
  | ok a =>
      obtain ⟨ht, ha⟩ := hr.1 a rfl
      refine ⟨ht, fun b hb ↦ ?_⟩
      obtain rfl := Except.ok.inj hb
      exact ha
  | error e => exact ⟨hr.2 e rfl, fun _ hb ↦ by cases hb⟩

theorem Matched.mono {projectId testcaseId : ℕ} {similarity : ℚ} {t t' : Phase}
    (h : Matched projectId t testcaseId similarity) (ht : t ⊆ t') :
    Matched projectId t' testcaseId similarity := by
  obtain ⟨x, hx, hrest⟩ := h
  exact ⟨x, ht hx, hrest⟩

theorem asking_resolveEmbeddingAllocation {projectId : ℕ} :
    Asking (fun _ _ ↦ True) t s (resolveEmbeddingAllocation projectId) := by
  unfold resolveEmbeddingAllocation
  refine asking_query_seq fun s₁ ↦ ?_
  split
  · exact asking_pure trivial
  refine asking_query_seq fun s₂ ↦ ?_
  split
  · exact asking_pure trivial
  refine asking_query_seq fun s₃ ↦ ?_
  split
  · exact asking_pure trivial
  · exact asking_query_seq fun s₄ ↦ asking_pure trivial

/-- The vectors of a key are of its model. -/
theorem asking_embedTexts {allocation : EmbeddingKeyAllocation} {inputs : List String} :
    Asking (fun vectors _ ↦ ∀ vector ∈ vectors, vector.model = allocation.model) t s
      (embedTexts allocation inputs) := by
  have hembed : Asking (fun _ _ ↦ True) t s (must (ask (.embed allocation.model inputs))) :=
    asking_must (asking_ask (t := t) (w := .embed allocation.model inputs) trivial)
      fun _ _ _ ↦ trivial
  refine asking_seq hembed fun values t' s' _ _ ↦ asking_pure fun vector hvector ↦ ?_
  obtain ⟨_, -, rfl⟩ := List.mem_map.mp hvector
  rfl

theorem asking_embedBatches {allocation : EmbeddingKeyAllocation} {inputs : List (List String)} :
    Asking (fun vectors _ ↦ ∀ vector ∈ vectors, vector.model = allocation.model) t s
      (embedBatches allocation inputs) := by
  induction inputs generalizing t s with
  | nil => exact asking_pure fun _ h ↦ (List.not_mem_nil h).elim
  | cons batch batches ih =>
      refine asking_seq asking_embedTexts fun vectors t' s' _ hvectors ↦ ?_
      refine asking_seq ih fun rest t'' s'' _ hrest ↦ asking_pure fun vector hvector ↦ ?_
      exact (List.mem_append.mp hvector).elim (hvectors vector) (hrest vector)

section Jobs

variable [Sha256] [Chunking] {projectId sourceId : ℕ} {sourceType : SourceType}

omit [Sha256] [Chunking] in
theorem model_of_mem_chunkRows {contentHash : String} {allocation : EmbeddingKeyAllocation}
    {chunks : List RagChunk} {vectors : List EmbeddingVector}
    (hvectors : ∀ vector ∈ vectors, vector.model = allocation.model) {row : VectorRow}
    (hrow : row ∈ chunkRows projectId sourceType sourceId contentHash allocation chunks vectors) :
    row.embedding.model = row.embeddingModel := by
  obtain ⟨⟨chunk, vector⟩, hpair, hsome⟩ := List.mem_filterMap.mp hrow
  dsimp only at hsome
  split at hsome
  · obtain rfl := Option.some.inj hsome
    exact hvectors vector (List.of_mem_zip hpair).2
  · cases hsome

omit [Sha256] [Chunking] in
/-- The rows of a source, and then its hash. -/
theorem asking_store {rows : List VectorRow} {contentHash : String}
    (hrows : ∀ row ∈ rows, row.embedding.model = row.embeddingModel) :
    Asking (fun _ _ ↦ True) t s (do
      must (ask (.storeVectors projectId sourceType sourceId rows))
      must (ask (.markReady sourceType sourceId contentHash))) := by
  have hstore : Asking (fun _ _ ↦ True) t s
      (must (ask (.storeVectors projectId sourceType sourceId rows))) :=
    asking_must (asking_ask (t := t) (w := .storeVectors projectId sourceType sourceId rows) hrows)
      fun _ _ _ ↦ trivial
  refine asking_seq hstore fun _ t' s' _ _ ↦ ?_
  exact asking_must (asking_ask (t := t') (w := .markReady sourceType sourceId contentHash) trivial)
    fun _ _ _ ↦ trivial

theorem asking_processKnowledgeSource :
    Asking (fun _ _ ↦ True) t s (processKnowledgeSource projectId sourceType sourceId) := by
  unfold processKnowledgeSource
  refine asking_query_seq fun s₁ ↦ ?_
  split
  · exact asking_pure trivial
  dsimp only
  split
  · exact asking_pure trivial
  refine asking_seq asking_resolveEmbeddingAllocation fun allocation t₁ s₂ _ _ ↦ ?_
  cases allocation with
  | none => exact asking_pure trivial
  | some allocation =>
      dsimp only
      split
      · exact asking_pure trivial
      split
      · exact asking_pure trivial
      refine asking_seq asking_embedBatches fun vectors t₂ s₃ _ hvectors ↦ ?_
      exact asking_store fun row hrow ↦ model_of_mem_chunkRows hvectors hrow

omit [Chunking] in
theorem asking_processTestcase :
    Asking (fun _ _ ↦ True) t s (processTestcase projectId sourceId) := by
  unfold processTestcase
  refine asking_query_seq fun s₁ ↦ ?_
  split
  · exact asking_pure trivial
  dsimp only
  split
  · exact asking_pure trivial
  refine asking_seq asking_resolveEmbeddingAllocation fun allocation t₁ s₂ _ _ ↦ ?_
  cases allocation with
  | none => exact asking_pure trivial
  | some allocation =>
      dsimp only
      split
      · exact asking_pure trivial
      refine asking_seq asking_embedTexts fun vectors t₂ s₃ _ hvectors ↦ ?_
      split
      · exact asking_pure trivial
      · rename_i vector hvector
        refine asking_store fun row hrow ↦ ?_
        obtain rfl := List.mem_singleton.mp hrow
        exact hvectors vector (List.mem_of_mem_head? (Option.filter_eq_some_iff.mp hvector).1)

theorem asking_process :
    Asking (fun _ _ ↦ True) t s (process projectId sourceType sourceId) := by
  cases sourceType with
  | document => exact asking_processKnowledgeSource
  | file => exact asking_processKnowledgeSource
  | testcase => exact asking_processTestcase

end Jobs

/-! ### Searches -/

/-- The hits are those of a search. -/
def Found (projectId : ℕ) (hits : List Hit) (phase : Phase) : Prop :=
  ∀ hit ∈ hits, Matched projectId phase hit.row.sourceId hit.cosineSimilarity

theorem found_nil {projectId : ℕ} : Found projectId [] t := fun _ h ↦ (List.not_mem_nil h).elim

section Searches

variable {projectId : ℕ} {collection : Collection}

theorem asking_annSearch {allocation : EmbeddingKeyAllocation} {text : String}
    {excluded : Option ℕ} :
    Asking (Found projectId) t s (annSearch projectId collection allocation text excluded) := by
  refine asking_seq asking_embedTexts fun vectors t₁ s₁ _ _ ↦ ?_
  cases vectors.head? with
  | none => exact asking_pure found_nil
  | some queryVector =>
      refine asking_must (asking_ask (t := t₁)
        (w := .search projectId collection queryVector excluded) trivial) fun hits t' ht' ↦ ?_
      rw [ht']
      exact fun hit hhit ↦ ⟨_, List.mem_cons_self, rfl, hit, hhit, rfl, rfl⟩

theorem asking_allocated {text : String} {excluded : Option ℕ} :
    Asking (Found projectId) t s (do
      let allocation ← resolveEmbeddingAllocation projectId
      match allocation with
      | none => pure []
      | some allocation => annSearch projectId collection allocation (jsTrim text) excluded) := by
  refine asking_seq asking_resolveEmbeddingAllocation fun allocation t₁ s₁ _ _ ↦ ?_
  cases allocation with
  | none => exact asking_pure found_nil
  | some allocation => exact asking_annSearch

theorem asking_hitsFor {text : String} {excluded : Option ℕ} :
    Asking (Found projectId) t s (hitsFor projectId collection text excluded) := by
  unfold hitsFor
  dsimp only
  split
  · exact asking_pure found_nil
  refine asking_seq (asking_attempt asking_allocated) fun answer t₁ s₁ _ hanswer ↦ ?_
  cases answer with
  | ok hits => exact asking_pure (hanswer hits rfl)
  | error e => exact asking_pure found_nil

theorem asking_findSimilarTestcases {text : String} {excluded : Option ℕ} {limit : ℕ} :
    Asking (fun found t' ↦ ∀ target ∈ found,
      Matched projectId t' target.testcaseId target.cosineSimilarity) t s
      (findSimilarTestcases projectId text excluded limit) := by
  refine asking_seq asking_hitsFor fun hits t₁ s₁ _ hhits ↦ asking_pure fun target htarget ↦ ?_
  obtain ⟨hit, hhit, rfl⟩ := List.mem_map.mp htarget
  exact hhits hit (List.mem_filter.mp (List.mem_of_mem_take hhit)).1

/-- Each match of a draft is a hit. -/
def Targets (projectId : ℕ) (found : List (Option SimilarTestcaseMatch)) (phase : Phase) : Prop :=
  ∀ target, some target ∈ found →
    Matched projectId phase target.testcaseId target.cosineSimilarity

theorem asking_matchesOf {drafts : List Draft} :
    Asking (Targets projectId) t s (matchesOf projectId drafts) := by
  induction drafts generalizing t s with
  | nil => exact asking_pure fun _ h ↦ (List.not_mem_nil h).elim
  | cons draft drafts ih =>
      refine asking_seq asking_findSimilarTestcases fun found t₁ s₁ _ hfound ↦ ?_
      refine asking_seq ih fun rest t₂ s₂ ht hrest ↦ asking_pure fun target htarget ↦ ?_
      rcases List.mem_cons.mp htarget with hhead | htail
      · exact (hfound target (List.mem_of_mem_head? hhead.symm)).mono ht
      · exact hrest target htail

theorem asking_zyraSimilarityFeedbackForDrafts {drafts : List Draft} :
    Asking (Targets projectId) t s (zyraSimilarityFeedbackForDrafts projectId drafts) := by
  unfold zyraSimilarityFeedbackForDrafts
  refine asking_query_seq fun s₁ ↦ ?_
  split
  · refine asking_pure fun target htarget ↦ ?_
    obtain ⟨_, -, hnone⟩ := List.mem_map.mp htarget
    cases hnone
  · exact asking_matchesOf

/-- An update is of a match that reaches the threshold. -/
theorem exists_of_mem_operationsOf {found : List (Option SimilarTestcaseMatch)} {finalCount : ℕ}
    {testcaseId : ℕ} {similarity : ℚ}
    (h : .update testcaseId similarity ∈ operationsOf found finalCount) :
    testcaseUpdateThreshold ≤ similarity ∧ some ⟨testcaseId, similarity⟩ ∈ found := by
  obtain ⟨index, -, hindex⟩ := List.mem_map.mp h
  split at hindex
  · rename_i target htarget
    obtain ⟨htarget, hthreshold⟩ := Option.filter_eq_some_iff.mp htarget
    obtain ⟨rfl, rfl⟩ := ZyraOperation.update.inj hindex
    refine ⟨of_decide_eq_true hthreshold, List.mem_of_getElem? (i := index) ?_⟩
    exact Option.join_eq_some_iff.mp htarget
  · cases hindex

theorem asking_generateZyraDrafts {drafts : List Draft} {finalCount : ℕ} :
    Asking (fun _ _ ↦ True) t s (generateZyraDrafts projectId drafts finalCount) := by
  refine asking_seq asking_zyraSimilarityFeedbackForDrafts fun found t₁ s₁ _ hfound ↦ ?_
  have hlegal : Legal t₁ s₁ (.stage projectId (operationsOf found finalCount)) := by
    intro testcaseId similarity hmem
    obtain ⟨hthreshold, hsome⟩ := exists_of_mem_operationsOf hmem
    exact ⟨hthreshold, hfound _ hsome⟩
  exact (asking_ask hlegal).weaken fun _ _ _ _ ↦ trivial

end Searches

/-! ### The owner's calls -/

theorem asking_changeKey {change : KeyChange} :
    Asking (fun _ _ ↦ True) t s (ask (.changeKey change)) :=
  (asking_ask (t := t) (w := .changeKey change) trivial).weaken fun _ _ _ _ ↦ trivial

theorem asking_require_seq {p : Prop} [Decidable p] {e : Failure} {f : Unit → Procedure β}
    {Q : β → Phase → Prop} (hf : p → Asking Q t s (f ())) : Asking Q t s (require p e >>= f) := by
  unfold require
  by_cases hp : p
  · rw [if_pos hp]
    exact hf hp
  · rw [if_neg hp]
    exact ends_fail fun _ _ _ hx ↦ hx

theorem asking_require {p : Prop} [Decidable p] {e : Failure} :
    Asking (fun _ _ ↦ True) t s (require p e) := by
  unfold require
  by_cases hp : p
  · rw [if_pos hp]
    exact asking_pure trivial
  · rw [if_neg hp]
    exact ends_fail fun _ _ _ hx ↦ hx

theorem asking_createAiKey {key : WorkspaceAiKey} :
    Asking (fun _ _ ↦ True) t s (createAiKey key) := by
  unfold createAiKey
  refine asking_require_seq fun _ ↦ asking_require_seq fun _ ↦ asking_require_seq fun _ ↦ ?_
  exact asking_seq asking_changeKey fun _ _ _ _ _ ↦ asking_require

theorem asking_allocateAiKey {organizationId projectId : ℕ} {workspaceAiKeyId : Option ℕ} :
    Asking (fun _ _ ↦ True) t s (allocateAiKey organizationId projectId workspaceAiKeyId) := by
  unfold allocateAiKey
  refine asking_query_seq fun s₁ ↦ asking_require_seq fun _ ↦ ?_
  cases workspaceAiKeyId with
  | none =>
      exact asking_seq asking_changeKey fun _ _ _ _ _ ↦ asking_pure trivial
  | some keyId =>
      refine asking_query_seq fun s₂ ↦ asking_require_seq fun _ ↦ ?_
      exact asking_seq asking_changeKey fun _ _ _ _ _ ↦ asking_pure trivial

theorem asking_discard {Q : α → Phase → Prop} {p : Procedure α} (hp : Asking Q t s p) :
    Asking (fun _ _ ↦ True) t s (discard p) :=
  asking_seq hp fun _ _ _ _ _ ↦ asking_pure trivial

theorem asking_enter [Sha256] [Chunking] (call : Call) :
    Asking (fun _ _ ↦ True) t s (enter call) := by
  cases call with
  | setVoyageApiKey key => exact asking_discard asking_changeKey
  | createAiKey key => exact asking_createAiKey
  | deleteAiKey organizationId keyId =>
      exact asking_seq asking_changeKey fun _ _ _ _ _ ↦ asking_pure trivial
  | setActive keyId active => exact asking_discard asking_changeKey
  | allocateAiKey organizationId projectId workspaceAiKeyId => exact asking_allocateAiKey
  | changeSource change =>
      exact (asking_ask (t := t) (w := .changeSource change) trivial).weaken fun _ _ _ _ ↦ trivial
  | process projectId sourceType sourceId => exact asking_process
  | retrieve projectId query =>
      exact asking_discard (asking_seq asking_hitsFor fun _ _ _ _ _ ↦
        asking_pure (Q := fun _ _ ↦ True) trivial)
  | findSimilar projectId query excludeTestcaseId limit =>
      exact asking_discard asking_findSimilarTestcases
  | generate projectId drafts finalCount => exact asking_generateZyraDrafts

end Calls

/-! ## The invariant -/

section Invariant

variable [CosineSimilarity] {projectId : ℕ} {s s' : Data} {phase : ℕ → Phase} {k : ℕ}

/-- The vectors of the project are of one model, that of its key where it has one. -/
structure Held (projectId : ℕ) (s : Data) (phase : ℕ → Phase) : Prop where
  models : ∀ row ∈ s.vectors, row.projectId = projectId →
    row.embedding.model = row.embeddingModel
  steady : ∀ allocation ∈ resolved projectId s, ∀ row ∈ s.vectors, row.projectId = projectId →
    row.embeddingModel = allocation.model
  answered : ∀ k, ∀ x ∈ phase k, x ∈ s.searches
  space : OneVectorSpace projectId s

/-- A statement that makes no vector, no search and no operation. -/
theorem Held.frame (h : Held projectId s phase) (hvectors : s'.vectors ⊆ s.vectors)
    (hsteady : ∀ allocation ∈ resolved projectId s', ∀ row ∈ s.vectors,
      row.projectId = projectId → row.embeddingModel = allocation.model)
    (hsearches : s'.searches = s.searches) (hstaged : s'.staged = s.staged) :
    Held projectId s' phase := by
  constructor
  case models => exact fun row hrow ↦ h.models row (hvectors hrow)
  case steady => exact fun allocation ha row hrow ↦ hsteady allocation ha row (hvectors hrow)
  case answered =>
    rw [hsearches]
    exact h.answered
  case space =>
    constructor
    · rw [hsearches]
      exact h.space.ranked
    · rw [hsearches, hstaged]
      exact h.space.updates

theorem Held.next (h : Held projectId s phase) : Held projectId s.next phase :=
  h.frame (fun _ hrow ↦ hrow) h.steady rfl rfl

omit [CosineSimilarity] in
theorem changeKey_kept (change : KeyChange) (s : Data) :
    (s.changeKey change).2.vectors = s.vectors ∧ (s.changeKey change).2.searches = s.searches ∧
      (s.changeKey change).2.staged = s.staged := by
  cases change with
  | setVoyageApiKey key => exact ⟨rfl, rfl, rfl⟩
  | insertAiKey key =>
      unfold Data.changeKey
      dsimp only
      split
      · exact ⟨rfl, rfl, rfl⟩
      split
      · exact ⟨rfl, rfl, rfl⟩
      · exact ⟨rfl, rfl, rfl⟩
  | deleteAiKey id organizationId =>
      unfold Data.changeKey
      dsimp only
      split
      · exact ⟨rfl, rfl, rfl⟩
      · exact ⟨rfl, rfl, rfl⟩
  | setActive id active => exact ⟨rfl, rfl, rfl⟩
  | allocateAiKey projectId workspaceAiKeyId =>
      unfold Data.changeKey
      dsimp only
      split
      · exact ⟨rfl, rfl, rfl⟩
      · exact ⟨rfl, rfl, rfl⟩

omit [CosineSimilarity] in
theorem changeSource_kept (change : SourceChange) (s : Data) :
    (s.changeSource change).vectors ⊆ s.vectors ∧
      resolved projectId (s.changeSource change) = resolved projectId s ∧
      (s.changeSource change).searches = s.searches ∧
      (s.changeSource change).staged = s.staged := by
  cases change with
  | create source =>
      unfold Data.changeSource
      dsimp only
      split
      · exact ⟨fun _ hrow ↦ hrow, rfl, rfl, rfl⟩
      · exact ⟨fun _ hrow ↦ hrow, rfl, rfl, rfl⟩
  | edit sourceType id content => exact ⟨fun _ hrow ↦ hrow, rfl, rfl, rfl⟩
  | setLive sourceType id live => exact ⟨fun _ hrow ↦ hrow, rfl, rfl, rfl⟩
  | setStatus sourceType id status => exact ⟨fun _ hrow ↦ hrow, rfl, rfl, rfl⟩
  | remove sourceType id => exact ⟨fun _ hrow ↦ (List.mem_filter.mp hrow).1, rfl, rfl, rfl⟩

/-- A statement that leaves its call's searches as they are. -/
theorem Held.stays (h : Held projectId s' phase) {ph : Phase} (hph : ph = phase k) :
    Held projectId s' (Function.update phase k ph) := by
  rw [hph, Function.update_eq_self]
  exact h

theorem Held.turns_changeKey (h : Held projectId s phase) {change : KeyChange}
    (hsteady : Steady projectId s (.changeKey change)) :
    Turns perform turn (Held projectId) phase k (.changeKey change) s := by
  unfold Turns Service.wp perform
  obtain ⟨hvectors, hsearches, hstaged⟩ := changeKey_kept change s
  exact (h.frame (hvectors ▸ fun _ hrow ↦ hrow) hsteady hsearches hstaged).stays rfl

theorem Held.turns_changeSource (h : Held projectId s phase) {change : SourceChange} :
    Turns perform turn (Held projectId) phase k (.changeSource change) s := by
  refine (Service.wp_write _).mpr ?_
  obtain ⟨hvectors, hresolved, hsearches, hstaged⟩ :=
    @changeSource_kept projectId change s
  refine (h.frame hvectors ?_ hsearches hstaged).stays rfl
  rw [hresolved]
  exact h.steady

theorem Held.turns_embed (h : Held projectId s phase) {model : Option String}
    {inputs : List String} :
    Turns perform turn (Held projectId) phase k (.embed model inputs) s := by
  unfold Turns perform perhaps
  exact Service.wp_perhaps (fun _ ↦ h.next.stays rfl) fun _ ↦ h.next.stays rfl

theorem Held.turns_storeVectors (h : Held projectId s phase) {id sourceId : ℕ}
    {sourceType : SourceType} {rows : List VectorRow}
    (hlegal : Legal (phase k) s (.storeVectors id sourceType sourceId rows))
    (hsteady : Steady projectId s (.storeVectors id sourceType sourceId rows)) :
    Turns perform turn (Held projectId) phase k (.storeVectors id sourceType sourceId rows) s := by
  unfold Turns perform perhaps
  refine Service.wp_perhaps (fun _ ↦ Held.stays ?_ rfl) fun _ ↦ h.next.stays rfl
  constructor
  case models =>
    intro row hrow hproject
    rcases List.mem_append.mp hrow with hold | hnew
    · exact h.models row (List.mem_filter.mp hold).1 hproject
    · exact hlegal row hnew
  case steady =>
    intro allocation hallocation row hrow hproject
    rcases List.mem_append.mp hrow with hold | hnew
    · exact h.steady allocation hallocation row (List.mem_filter.mp hold).1 hproject
    · have hmodel := hsteady row hnew hproject
      obtain ⟨allocation', hresolved, hmodel⟩ := Option.map_eq_some_iff.mp hmodel
      obtain rfl : allocation' = allocation := Option.some.inj (hresolved.symm.trans hallocation)
      exact hmodel.symm
  case answered => exact h.answered
  case space => exact ⟨h.space.ranked, h.space.updates⟩

theorem Held.turns_markReady (h : Held projectId s phase) {sourceType : SourceType}
    {sourceId : ℕ} {contentHash : String} :
    Turns perform turn (Held projectId) phase k (.markReady sourceType sourceId contentHash) s := by
  unfold Turns perform perhaps
  refine Service.wp_perhaps (fun _ ↦ Held.stays ?_ rfl) fun _ ↦ h.next.stays rfl
  exact h.frame (fun _ hrow ↦ hrow) h.steady rfl rfl

/-- A hit is a row of the project, and its similarity that of the two vectors. -/
theorem of_mem_search {collection : Collection} {queryVector : EmbeddingVector}
    {excluded : Option ℕ} {hit : Hit}
    (h : hit ∈ s.search projectId collection queryVector excluded) :
    hit.row ∈ s.vectors ∧ hit.row.projectId = projectId ∧ hit.cosineSimilarity =
      CosineSimilarity.similarity queryVector.values hit.row.embedding.values := by
  have hmem := (List.mem_insertionSort _).mp (List.mem_of_mem_take h)
  obtain ⟨row, hrow, rfl⟩ := List.mem_map.mp hmem
  obtain ⟨hrow, hsearchable⟩ := List.mem_filter.mp hrow
  exact ⟨hrow, (of_decide_eq_true hsearchable).1, rfl⟩

theorem Held.turns_search (h : Held projectId s phase) {id : ℕ} {collection : Collection}
    {queryVector : EmbeddingVector} {excluded : Option ℕ}
    (hsteady : Steady projectId s (.search id collection queryVector excluded)) :
    Turns perform turn (Held projectId) phase k (.search id collection queryVector excluded) s := by
  unfold Turns perform perhaps
  refine Service.wp_perhaps (fun _ ↦ ?_) fun _ ↦ h.next.stays rfl
  have hcomparable : id = projectId →
      Comparable ⟨id, collection, queryVector, s.search id collection queryVector excluded⟩ := by
    rintro rfl hit hhit
    obtain ⟨hrow, hproject, hsimilarity⟩ := of_mem_search hhit
    refine ⟨?_, hsimilarity⟩
    obtain ⟨allocation, hresolved, hmodel⟩ := Option.map_eq_some_iff.mp (hsteady rfl)
    rw [h.models _ hrow hproject, h.steady allocation hresolved _ hrow hproject]
    exact hmodel
  constructor
  case models => exact h.models
  case steady => exact h.steady
  case answered =>
    intro j x hx
    by_cases hjk : j = k
    · subst hjk
      rw [Function.update_self] at hx
      rcases List.mem_cons.mp hx with rfl | hx
      · exact List.mem_cons_self
      · exact List.mem_cons_of_mem _ (h.answered j x hx)
    · rw [Function.update_of_ne hjk] at hx
      exact List.mem_cons_of_mem _ (h.answered j x hx)
  case space =>
    constructor
    · intro x hx hproject
      rcases List.mem_cons.mp hx with rfl | hx
      · exact hcomparable hproject
      · exact h.space.ranked x hx hproject
    · intro testcaseId similarity hmem
      obtain ⟨hthreshold, x, hx, hrest⟩ := h.space.updates testcaseId similarity hmem
      exact ⟨hthreshold, x, List.mem_cons_of_mem _ hx, hrest⟩

theorem Held.turns_stage (h : Held projectId s phase) {id : ℕ} {operations : List ZyraOperation}
    (hlegal : Legal (phase k) s (.stage id operations)) :
    Turns perform turn (Held projectId) phase k (.stage id operations) s := by
  refine (Service.wp_write _).mpr (Held.stays ?_ rfl)
  refine ⟨h.models, h.steady, h.answered, h.space.ranked, fun testcaseId similarity hmem ↦ ?_⟩
  rcases List.mem_append.mp hmem with hnew | hold
  · obtain ⟨operation, hoperation, heq⟩ := List.mem_map.mp hnew
    obtain ⟨rfl, rfl⟩ := Prod.mk.inj heq
    obtain ⟨hthreshold, x, hx, hproject, hhit⟩ := hlegal testcaseId similarity hoperation
    have hsearch := h.answered k x hx
    exact ⟨hthreshold, x, hsearch, hproject, h.space.ranked x hsearch hproject, hhit⟩
  · exact h.space.updates testcaseId similarity hold

/-- Each statement keeps the invariant. -/
theorem Held.turns (h : Held projectId s phase) {w : Write} (hlegal : Legal (phase k) s w)
    (hsteady : Steady projectId s w) : Turns perform turn (Held projectId) phase k w s := by
  cases w with
  | changeKey change => exact h.turns_changeKey hsteady
  | changeSource change => exact h.turns_changeSource
  | embed model inputs => exact h.turns_embed
  | storeVectors id sourceType sourceId rows => exact h.turns_storeVectors hlegal hsteady
  | markReady sourceType sourceId contentHash => exact h.turns_markReady
  | search id collection queryVector excluded => exact h.turns_search hsteady
  | stage id operations => exact h.turns_stage hlegal

end Invariant

/-! ## Whole runs -/

section Runs

variable [Sha256] [Chunking] [CosineSimilarity] {projectId : ℕ} {s : Data}

omit [Sha256] [Chunking] in
theorem NothingEmbedded.held (h : NothingEmbedded projectId s) :
    Held projectId s fun _ ↦ [] := by
  refine ⟨?_, ?_, fun _ _ hx ↦ (List.not_mem_nil hx).elim, ?_, ?_⟩
  · exact fun row hrow hproject ↦ absurd hproject (h.vectors row hrow)
  · exact fun _ _ row hrow hproject ↦ absurd hproject (h.vectors row hrow)
  · exact fun x hx hproject ↦ absurd hproject (h.searches x hx)
  · exact fun _ _ hmem ↦ absurd rfl (h.staged _ hmem)

abbrev HeldRun (projectId : ℕ) : Run → Prop :=
  Phased turn (Held projectId) Anything Legal fun _ _ _ ↦ True

theorem HeldRun.step {c : Run} {m : Move Call} (hc : HeldRun projectId c)
    (hm : AtWrite (Steady projectId) c m) : HeldRun projectId (step c m) := by
  refine Phased.move anything_refl anything_trans ?_ ?_ hc hm
  · intro s phase k call h
    refine ⟨[], ⟨h.models, h.steady, fun j x hx ↦ ?_, h.space⟩, ?_⟩
    · by_cases hjk : j = k
      · subst hjk
        rw [Function.update_self] at hx
        exact (List.not_mem_nil hx).elim
      · rw [Function.update_of_ne hjk] at hx
        exact h.answered j x hx
    · exact (asking_enter call).follows.mono fun _ _ _ _ ↦ trivial
  · exact fun s phase k w h hlegal hsteady ↦ ⟨h.turns hlegal hsteady, trivial⟩

/-- In every run in which the key the project has is of the model of its vectors, each search ranks
its query against vectors of the query's model. -/
theorem oneVectorSpace_always (h : NothingEmbedded projectId s) {ms : List (Move Call)}
    (hms : Along step (AtWrite (Steady projectId)) (Config.idle s) ms) :
    Always step (fun c ↦ OneVectorSpace projectId c.shared) (Config.idle s) ms := by
  have hstart : HeldRun projectId (Config.idle s) := Phased.idle h.held
  have hall := (Along.invariant (fun c m hc hm ↦ ⟨hc.step hm, trivial⟩) hstart hms).1
  refine hall.mono fun c hc ↦ ?_
  obtain ⟨_, hheld, _⟩ := hc
  exact hheld.space

end Runs

/-! ## A test case and a draft of the same text -/

section Example

abbrev plainHash : Sha256 := ⟨id, Function.injective_id⟩

abbrev oneChunk : Chunking := ⟨fun text ↦ [⟨0, none, text, 1⟩]⟩

/-- The cosine of unit vectors. -/
abbrev dotProduct : CosineSimilarity := ⟨fun a b ↦ (List.zipWith (· * ·) a b).sum⟩

def unitVector : List ℚ := 1 :: List.replicate (ragEmbeddingDimension - 1) 0

/-- A project without keys; every statement goes through, and each text gets one vector. -/
def noKeys : Data where
  voyageApiKey := ""
  keys := .empty
  allocations := .empty
  organizationOf _ := some 10
  sources := .empty
  vectors := []
  answers _ := ⟨true, [unitVector]⟩
  searches := []
  staged := []

theorem nothingEmbedded_noKeys : NothingEmbedded 100 noKeys := by
  constructor
  · exact fun _ h ↦ (List.not_mem_nil h).elim
  · exact fun _ h ↦ (List.not_mem_nil h).elim
  · exact fun _ h ↦ (List.not_mem_nil h).elim

def call (k n : ℕ) (c : Call) : List (Move Call) := .enter k c :: List.replicate n (.advance k)

def addKey (k id : ℕ) (provider : String) : List (Move Call) :=
  call k 1 (.createAiKey ⟨id, 10, provider, provider, true, id⟩) ++
    call (k + 1) 3 (.allocateAiKey 10 100 (some id))

def loginCase : Source :=
  ⟨.testcase, 1, 100, "", "", ⟨none, some "Login", none, none⟩, true, none⟩

/-- A key is added and given to the project, and a test case is embedded with it. -/
def embedLogin : List (Move Call) :=
  addKey 0 1 "openai" ++ call 2 1 (.changeSource (.create loginCase)) ++
    call 3 6 (.process 100 .testcase 1)

def draftLogin (k : ℕ) : List (Move Call) := call k 6 (.generate 100 [⟨"Login", "", ""⟩] 1)

def runProject (ms : List (Move Call)) : Run :=
  letI := plainHash
  letI := oneChunk
  letI := dotProduct
  ms.foldl step (Config.idle noKeys)

theorem oneVectorSpace_draftLogin :
    (runProject (embedLogin ++ draftLogin 4)).shared.staged = [(100, .update 1 1)] ∧
      Always (@step plainHash oneChunk dotProduct)
        (fun c ↦ @OneVectorSpace dotProduct 100 c.shared) (Config.idle noKeys)
        (embedLogin ++ draftLogin 4) :=
  ⟨by decide +kernel,
    @oneVectorSpace_always plainHash oneChunk dotProduct 100 noKeys nothingEmbedded_noKeys
      (embedLogin ++ draftLogin 4) (by decide +kernel)⟩

/-- The project is given a key of another provider, and the draft becomes an update on the strength
of a similarity between vectors of two models. -/
theorem not_oneVectorSpace_reallocated :
    NothingEmbedded 100 noKeys ∧
      (runProject (embedLogin ++ addKey 4 2 "mistral" ++ draftLogin 6)).shared.staged =
        [(100, .update 1 1)] ∧
      ¬ @OneVectorSpace dotProduct 100
        (runProject (embedLogin ++ addKey 4 2 "mistral" ++ draftLogin 6)).shared := by
  refine ⟨nothingEmbedded_noKeys, by decide +kernel, fun h ↦ ?_⟩
  have hranked := @OneVectorSpace.ranked dotProduct _ _ h
  revert hranked
  decide +kernel

end Example

end Tesbo.Embeddings
