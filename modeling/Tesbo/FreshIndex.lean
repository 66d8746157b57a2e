import Tesbo.EmbeddingJobs

/-!
# The index of a source is that of its text

An edit is indexed by a job that starts after it.  The queue adds no job while it has one with the
same id, so what an edit needs is that the queue has none, or one that has still to read the text.
-/

namespace Tesbo.Rag

open Reasoning Proc

/-! ## Edits, workers and the other jobs of the queue -/

inductive Call where
  | edit (content : Content)
  | work
  | otherCompletes
  | otherFails

section Machine

variable [Sha256] [Chunking]

def enter (sourceType : SourceType) : Call → Procedure Unit
  | .edit content => editAndEnqueue content
  | .work => work sourceType
  | .otherCompletes => ask .otherCompleted
  | .otherFails => ask .otherFailed

abbrev Run := Config Shared (Procedure Unit)

def step (sourceType : SourceType) (c : Run) (m : Move Call) : Run :=
  c.move (enter sourceType) (fun _ ↦ Proc.exec perform) m

/-! ## The property and its condition -/

/-- What of a source is indexed by itself: its chunks, or a test case as a whole. -/
def pieces (sourceType : SourceType) (source : Content) : List (Option RagChunk) :=
  if embeddingText sourceType source = "" then []
  else
    match sourceType with
    | .document | .file => (Chunking.chunk (embeddingText sourceType source)).map some
    | .testcase => [none]

def hashOf (sourceType : SourceType) (source : Content) : String :=
  Sha256.hex (embeddingText sourceType source)

/-- The rows are those of the content's pieces, under its hash. -/
def RowsOf (sourceType : SourceType) (source : Content) (rows : List IndexRow) : Prop :=
  rows.map (fun row ↦ (row.chunk, row.contentHash)) =
    (pieces sourceType source).map fun piece ↦ (piece, hashOf sourceType source)

/-- The index and the hash are those of the content; without pieces there is nothing to index. -/
def Indexed (s : Shared) (source : Content) : Prop :=
  RowsOf s.sourceType source s.index ∧
    (pieces s.sourceType source ≠ [] → s.contentHash = some (hashOf s.sourceType source))

instance (s : Shared) (source : Content) : Decidable (Indexed s source) :=
  inferInstanceAs (Decidable (_ = _ ∧ (_ → _)))

/-- A job that waits or is at work. -/
def Job.underWay : Job → Bool
  | .waiting _ | .active _ _ _ => true
  | .completed _ | .failed _ => false

/-- With every edit's call over, no job under way, and the last one not failed, the index is that of
the text, and the source is not marked as queued. -/
def FreshWhenQuiet (s : Shared) : Prop :=
  s.pending = [] → (∀ job ∈ s.job, job.underWay = false) → s.succeeded = some true →
    Indexed s s.content ∧ s.status ≠ .queued

instance (s : Shared) : Decidable (FreshWhenQuiet s) :=
  inferInstanceAs (Decidable (_ → _ → _ → _ ∧ _))

/-- A job that is still to read the text, or has read it as it is and has a status to write. -/
def WillIndex (s : Shared) : Job → Prop
  | .waiting _ => True
  | .active _ seen settled => settled = false ∧
      ∀ source ∈ seen, embeddingText s.sourceType source = embeddingText s.sourceType s.content
  | .completed _ | .failed _ => False

instance (s : Shared) (job : Job) : Decidable (WillIndex s job) := by
  cases job with
  | waiting n => exact instDecidableTrue
  | active n seen settled => exact inferInstanceAs (Decidable (_ ∧ ∀ source ∈ seen, _))
  | completed n => exact instDecidableFalse
  | failed n => exact instDecidableFalse

/-- What goes through asks for it: a job is added where the queue has none or one that will index
the text; a text that was indexed before is not marked as queued when its job is at it, and still
indexed; a job that leaves the index alone finds it in order; each input gets a vector of the width
of the column. -/
def Attended (s : Shared) : Write → Prop
  | .add _ => (s.answers 0).ok = true ∧ ∀ job ∈ s.job, WillIndex s job
  | .resolveEmbeddingAllocation => (s.answers 0).ok = true → (s.answers 0).model ≠ none →
      seenIndexed s → s.status ≠ .queued ∧ ∀ source ∈ s.seen, Indexed s source
  | .leave _ => (s.answers 0).ok = true → ∀ source ∈ s.seen, Indexed s source
  | .embedTexts _ inputs => (s.answers 0).ok = true →
      (s.answers 0).vectors.length = inputs.length ∧
        ∀ vector ∈ (s.answers 0).vectors, vector.width = ragEmbeddingDimension
  | _ => True

instance (s : Shared) (w : Write) : Decidable (Attended s w) := by
  cases w with
  | add n => exact inferInstanceAs (Decidable (_ ∧ ∀ job ∈ s.job, _))
  | resolveEmbeddingAllocation =>
      exact inferInstanceAs (Decidable (_ → _ → _ → _ ∧ ∀ source ∈ s.seen, _))
  | leave status => exact inferInstanceAs (Decidable (_ → ∀ source ∈ s.seen, _))
  | embedTexts model inputs => exact inferInstanceAs (Decidable (_ → _ ∧ ∀ vector ∈ _, _))
  | _ => exact instDecidableTrue

/-- A source that has just been created, with nothing indexed and no job. -/
structure Created (sourceType : SourceType) (s : Shared) : Prop where
  source : s.sourceType = sourceType
  live : s.live = true
  job : s.job = none
  pending : s.pending = []
  succeeded : s.succeeded = none

end Machine

/-! ## Where a call is -/

/-- An edit that is not in the queue yet; a worker that has taken the job, has read the row, has a
key to embed with, has written the index, or has only to end the job.  `astray` is a worker whose
vectors are not those of its inputs. -/
inductive Phase where
  | idle
  | edited (number : ℕ)
  | taken
  | saw (source : Content) (contentHash : Option String)
  | keyed (source : Content)
  | indexed (source : Content)
  | exiting (source : Content)
  | astray
deriving DecidableEq

section Phases

variable [Sha256] [Chunking] (sourceType : SourceType)

def turn : Phase → (w : Write) → Reply w → Phase
  | .idle, .edit _, number => .edited number
  | .idle, .take, taken => if taken then .taken else .idle
  | .edited _, .add _, _ => .idle
  | .taken, .readSource, .ok (some row) => .saw row.content row.contentHash
  | .taken, .readSource, .ok none => .astray
  | .saw source contentHash, .resolveEmbeddingAllocation, .ok (some _) =>
      if contentHash = some (hashOf sourceType source) then .exiting source else .keyed source
  | .saw source _, .leave _, .ok _ | .keyed source, .leave _, .ok _ => .exiting source
  | .keyed source, .embedTexts _ inputs, .ok vectors =>
      if vectors.length = inputs.length ∧ ∀ vector ∈ vectors, vector.width = ragEmbeddingDimension
      then .keyed source else .astray
  | .keyed source, .replaceIndex _, .ok _ => .indexed source
  | .indexed source, .markReady _, .ok _ => .exiting source
  | .exiting _, .complete, _ => .idle
  | .taken, .fail, _ | .saw _ _, .fail, _ | .keyed _, .fail, _ | .indexed _, .fail, _ => .idle
  | phase, _, _ => phase

def Legal (phase : Phase) (_ : Shared) (w : Write) : Prop :=
  match phase, w with
  | .astray, _ => True
  | .idle, .edit _ | .idle, .take | .idle, .setStatus .failed | .idle, .otherCompleted
  | .idle, .otherFailed => True
  | .edited n, .setQueued n' | .edited n, .add n' => n' = n
  | .taken, .readSource | .taken, .fail => True
  | .saw source _, .leave status => status ≠ .queued ∧
      (pieces sourceType source = [] ∨ status = .pending)
  | .saw _ _, .resolveEmbeddingAllocation | .saw _ _, .fail => True
  | .keyed source, .leave status => status ≠ .queued ∧ pieces sourceType source = []
  | .keyed source, .replaceIndex rows => RowsOf sourceType source rows
  | .keyed _, .setStatus .processing | .keyed _, .embedTexts _ _ | .keyed _, .fail => True
  | .indexed source, .markReady contentHash => contentHash = hashOf sourceType source
  | .indexed _, .fail => True
  | .exiting _, .complete => True
  | _, _ => False

end Phases

/-- The state is left to the invariant. -/
def Anything (_ _ : Shared) : Prop := True

theorem anything_refl (s : Shared) : Anything s s := trivial

theorem anything_trans (a b c : Shared) (_ : Anything a b) (_ : Anything b c) : Anything a c :=
  trivial

/-! ### What each call asks for -/

section Calls

variable [Sha256] [Chunking] {sourceType : SourceType} {s : Shared} {t : Phase}

/-- A worker that has the job, with nothing written that would end it. -/
def Holding : Phase → Prop
  | .taken | .saw _ _ | .keyed _ | .indexed _ | .astray => True
  | _ => False

/-- A worker that has only to end the job. -/
def Exiting : Phase → Prop
  | .exiting _ | .astray => True
  | _ => False

abbrev Asking {α : Type} (sourceType : SourceType) (Q : α → Phase → Prop) (t : Phase) (s : Shared)
    (p : Procedure α) : Prop :=
  Follows (turn sourceType) Anything (Legal sourceType) (fun a t _ ↦ Q a t) t s p

/-- A part of a job: it may fail with the job in hand. -/
abbrev Working {α : Type} (sourceType : SourceType) (Q : α → Phase → Prop) (t : Phase) (s : Shared)
    (p : Procedure α) : Prop :=
  Ends (turn sourceType) Anything (Legal sourceType) (fun a t _ ↦ Q a t) (fun _ t _ ↦ Holding t) t s p

omit [Chunking] in
theorem turn_astray (w : Write) (r : Reply w) : turn sourceType .astray w r = .astray := by
  cases w <;> rfl

theorem asking_astray {α : Type} {Q : α → Phase → Prop} (hQ : ∀ a, Q a .astray) {p : Procedure α} :
    Asking sourceType Q .astray s p :=
  follows_anything (fun _ _ ↦ trivial) turn_astray fun a _ ↦ hQ a

theorem working_astray {α : Type} {Q : α → Phase → Prop} (hQ : ∀ a, Q a .astray)
    {p : Procedure α} : Working sourceType Q .astray s p :=
  ends_anything (fun _ _ ↦ trivial) turn_astray (fun a _ ↦ hQ a) fun _ _ ↦ trivial

theorem asking_ask {w : Write} (hw : Legal sourceType t s w) :
    Asking sourceType (fun r t' ↦ t' = turn sourceType t w r) t s (ask w) :=
  follows_issue anything_trans (fun _ _ ↦ hw) fun _ _ _ ↦ rfl

theorem asking_seq {α β : Type} {P : α → Phase → Prop} {Q : β → Phase → Prop} {p : Procedure α}
    {f : α → Procedure β} (hp : Asking sourceType P t s p)
    (hf : ∀ a t' s', P a t' → Asking sourceType Q t' s' (f a)) :
    Asking sourceType Q t s (p >>= f) :=
  follows_seq anything_refl anything_trans hp fun a t' s' _ h ↦ hf a t' s' h

theorem working_pure {α : Type} {Q : α → Phase → Prop} {a : α} (h : Q a t) :
    Working sourceType Q t s (pure a) := ends_pure fun _ _ ↦ h

theorem working_ask {w : Write} (hw : Legal sourceType t s w) :
    Working sourceType (fun r t' ↦ t' = turn sourceType t w r) t s (ask w) :=
  ends_issue anything_trans (fun _ _ ↦ hw) fun _ _ _ ↦ rfl

theorem working_seq {α β : Type} {P : α → Phase → Prop} {Q : β → Phase → Prop} {p : Procedure α}
    {f : α → Procedure β} (hp : Working sourceType P t s p)
    (hf : ∀ a t' s', P a t' → Working sourceType Q t' s' (f a)) :
    Working sourceType Q t s (p >>= f) :=
  ends_seq anything_refl anything_trans hp (fun _ _ _ _ h _ ↦ h) fun a t' s' _ h ↦ hf a t' s' h

/-- A statement that must go through. -/
theorem working_must {α : Type} {P : Except Failure α → Phase → Prop} {Q : α → Phase → Prop}
    {p : Procedure (Except Failure α)} (hp : Working sourceType P t s p)
    (hok : ∀ a t', P (.ok a) t' → Q a t') (herror : ∀ e t', P (.error e) t' → Holding t') :
    Working sourceType Q t s (must p) := by
  refine working_seq hp fun r t' s' hr ↦ ?_
  cases r with
  | ok a =>
      refine ends_ofExcept (fun b hb _ _ ↦ ?_) fun _ h ↦ (by cases h)
      obtain rfl := Except.ok.inj hb
      exact hok a t' hr
  | error e => exact ends_ofExcept (fun _ h ↦ (by cases h)) fun _ _ _ _ ↦ herror e t' hr

omit [Sha256] [Chunking] in
/-- The loop goes through all inputs, a batch at a time. -/
theorem flatten_batches (inputs : List String) : (batches inputs).flatten = inputs := by
  have htake : ∀ n, ((List.range n).map fun i ↦
      (inputs.drop (i * ragEmbeddingBatchSize)).take ragEmbeddingBatchSize).flatten =
        inputs.take (n * ragEmbeddingBatchSize) := by
    intro n
    induction n with
    | zero => simp only [List.range_zero, List.map_nil, List.flatten_nil, Nat.zero_mul, List.take_zero]
    | succ n ih =>
        rw [List.range_succ, List.map_append, List.flatten_append, ih, List.map_singleton,
          List.flatten_singleton, Nat.succ_mul, List.take_add]
  unfold batches
  rw [htake]
  refine List.take_of_length_le ?_
  unfold ragEmbeddingBatchSize
  omega

/-- Vectors of the right number and width, or a worker gone astray. -/
def Embedded (source : Content) (inputs : List String) (vectors : List Embedding)
    (phase : Phase) : Prop :=
  phase = .astray ∨ phase = .keyed source ∧ vectors.length = inputs.length ∧
    ∀ vector ∈ vectors, vector.width = ragEmbeddingDimension

theorem working_embedTexts {source : Content} {model : String} {inputs : List String} :
    Working sourceType (Embedded source inputs) (.keyed source) s
      (must (ask (.embedTexts model inputs))) := by
  refine working_must
    (working_ask (t := .keyed source) (w := .embedTexts model inputs) trivial) ?_ ?_
  · rintro vectors t' rfl
    simp only [turn]
    split
    · rename_i hgood
      exact .inr ⟨rfl, hgood⟩
    · exact .inl rfl
  · rintro e t' rfl
    exact trivial

theorem working_embedBatches {source : Content} {model : String} {inputs : List (List String)} :
    Working sourceType (Embedded source inputs.flatten) (.keyed source) s
      (embedBatches model inputs) := by
  induction inputs generalizing s with
  | nil => exact working_pure (.inr ⟨rfl, rfl, fun _ h ↦ (List.not_mem_nil h).elim⟩)
  | cons batch batches ih =>
      refine working_seq working_embedTexts fun vectors t' s' hvectors ↦ ?_
      rcases hvectors with rfl | ⟨rfl, hlength, hwidth⟩
      · exact working_astray fun _ ↦ .inl rfl
      · refine working_seq ih fun rest t'' s'' hrest ↦ ?_
        rcases hrest with rfl | ⟨rfl, hlength', hwidth'⟩
        · exact working_astray fun _ ↦ .inl rfl
        · refine working_pure (.inr ⟨rfl, ?_, ?_⟩)
          · rw [List.length_append, List.flatten_cons, List.length_append, hlength, hlength']
          · intro vector hvector
            exact (List.mem_append.mp hvector).elim (hwidth vector) (hwidth' vector)

omit [Sha256] [Chunking] in
/-- With a vector of the right width for each chunk no chunk is left out. -/
theorem map_chunkRows {contentHash model : String} {chunks : List RagChunk}
    {vectors : List Embedding} (hlength : vectors.length = chunks.length)
    (hwidth : ∀ vector ∈ vectors, vector.width = ragEmbeddingDimension) :
    (chunkRows contentHash model chunks vectors).map (fun row ↦ (row.chunk, row.contentHash)) =
      chunks.map fun chunk ↦ (some chunk, contentHash) := by
  induction chunks generalizing vectors with
  | nil => rfl
  | cons chunk chunks ih =>
      cases vectors with
      | nil => cases hlength
      | cons vector vectors =>
          have hrest := @ih vectors (Nat.succ.inj hlength)
            fun v hv ↦ hwidth v (List.mem_cons_of_mem vector hv)
          unfold chunkRows at hrest ⊢
          rw [List.zip_cons_cons, List.filterMap_cons]
          simp only [hwidth vector List.mem_cons_self, if_true]
          rw [List.map_cons, List.map_cons, hrest]

theorem working_readSource :
    Working sourceType (fun source t' ↦ t' = .astray ∨
      ∃ row, source = some row ∧ t' = .saw row.content row.contentHash) .taken s
      (must (ask .readSource)) := by
  refine working_must (working_ask (t := .taken) (w := .readSource) trivial) ?_ ?_
  · rintro source t' rfl
    cases source with
    | none => exact .inl rfl
    | some row => exact .inr ⟨row, rfl, rfl⟩
  · rintro e t' rfl
    exact trivial

theorem working_resolveEmbeddingAllocation {source : Content} {contentHash : Option String} :
    Working sourceType (fun model t' ↦ match model with
      | none => t' = .saw source contentHash
      | some _ => t' = if contentHash = some (hashOf sourceType source) then .exiting source
          else .keyed source) (.saw source contentHash) s
      (must (ask .resolveEmbeddingAllocation)) := by
  refine working_must (working_ask (t := .saw source contentHash) (w := .resolveEmbeddingAllocation)
    trivial) ?_ ?_
  · rintro model t' rfl
    cases model with
    | none => rfl
    | some model => rfl
  · rintro e t' rfl
    exact trivial

/-- A job that leaves the index alone. -/
theorem working_leave {source : Content} {status : EmbeddingStatus}
    (ht : (∃ contentHash, t = .saw source contentHash) ∨ t = .keyed source)
    (hlegal : Legal sourceType t s (.leave status)) :
    Working sourceType (fun _ t' ↦ Exiting t') t s (must (ask (.leave status))) := by
  refine working_must (working_ask (t := t) (w := .leave status) hlegal) ?_ ?_
  · rintro ⟨⟩ t' rfl
    rcases ht with ⟨contentHash, rfl⟩ | rfl
    · exact trivial
    · exact trivial
  · rintro e t' rfl
    rcases ht with ⟨contentHash, rfl⟩ | rfl
    · exact trivial
    · exact trivial

theorem working_processing {source : Content} :
    Working sourceType (fun _ t' ↦ t' = .keyed source) (.keyed source) s
      (must (ask (.setStatus .processing))) := by
  refine working_must (working_ask (t := .keyed source) (w := .setStatus .processing) trivial) ?_ ?_
  · rintro ⟨⟩ t' rfl
    rfl
  · rintro e t' rfl
    exact trivial

/-- The rows of the text, and then its hash. -/
theorem working_index {source : Content} {rows : List IndexRow}
    (hrows : RowsOf sourceType source rows) :
    Working sourceType (fun _ t' ↦ Exiting t') (.keyed source) s (do
      must (ask (.replaceIndex rows))
      must (ask (.markReady (hashOf sourceType source)))) := by
  have hreplace : Working sourceType (fun _ t' ↦ t' = .indexed source) (.keyed source) s
      (must (ask (.replaceIndex rows))) := by
    refine working_must (working_ask (t := .keyed source) (w := .replaceIndex rows) hrows) ?_ ?_
    · rintro ⟨⟩ t' rfl
      rfl
    · rintro e t' rfl
      exact trivial
  refine working_seq hreplace ?_
  rintro ⟨⟩ t' s' rfl
  refine working_must (working_ask (t := .indexed source)
    (w := .markReady (hashOf sourceType source)) rfl) ?_ ?_
  · rintro ⟨⟩ t' rfl
    exact trivial
  · rintro e t' rfl
    exact trivial

theorem working_processKnowledgeSource (hsource : sourceType ≠ .testcase) :
    Working sourceType (fun _ t' ↦ Exiting t') .taken s (processKnowledgeSource sourceType) := by
  have hpieces : ∀ source, embeddingText sourceType source ≠ "" → pieces sourceType source =
      (Chunking.chunk (embeddingText sourceType source)).map some := by
    intro source htext
    unfold pieces
    rw [if_neg htext]
    cases sourceType with
    | document => rfl
    | file => rfl
    | testcase => exact absurd rfl hsource
  unfold processKnowledgeSource
  refine working_seq working_readSource fun source t₁ s₁ h₁ ↦ ?_
  obtain rfl | ⟨row, rfl, rfl⟩ := h₁
  · exact working_astray fun _ ↦ trivial
  · dsimp only
    split
    · rename_i htext
      exact working_leave (.inl ⟨_, rfl⟩) ⟨nofun, .inl (if_pos htext)⟩
    · rename_i htext
      refine working_seq working_resolveEmbeddingAllocation fun model t₂ s₂ h₂ ↦ ?_
      cases model with
      | none =>
          obtain rfl : t₂ = _ := h₂
          exact working_leave (.inl ⟨_, rfl⟩) ⟨nofun, .inr rfl⟩
      | some model =>
          obtain rfl : t₂ = _ := h₂
          dsimp only
          split
          · rename_i hsame
            have hexit : row.contentHash = some (Sha256.hex (embeddingText sourceType row.content)) := hsame
            rw [if_pos hexit]
            exact working_pure trivial
          · rename_i hsame
            have hkeyed : ¬ row.contentHash = some (Sha256.hex (embeddingText sourceType row.content)) := hsame
            rw [if_neg hkeyed]
            refine working_seq working_processing fun _ t₃ s₃ h₃ ↦ ?_
            obtain rfl : t₃ = _ := h₃
            split
            · rename_i hchunks
              refine working_leave (.inr rfl) ⟨nofun, ?_⟩
              rw [hpieces row.content htext, hchunks]
              rfl
            · refine working_seq working_embedBatches fun embeddings t₄ s₄ h₄ ↦ ?_
              rcases h₄ with rfl | ⟨rfl, hlength, hwidth⟩
              · exact working_astray fun _ ↦ trivial
              · rw [flatten_batches, List.length_map] at hlength
                refine working_index ?_
                unfold RowsOf
                rw [map_chunkRows hlength hwidth, hpieces row.content htext, List.map_map]
                rfl

theorem working_processTestcase :
    Working .testcase (fun _ t' ↦ Exiting t') .taken s processTestcase := by
  unfold processTestcase
  refine working_seq working_readSource fun source t₁ s₁ h₁ ↦ ?_
  obtain rfl | ⟨row, rfl, rfl⟩ := h₁
  · exact working_astray fun _ ↦ trivial
  · dsimp only
    split
    · rename_i htext
      exact working_leave (.inl ⟨_, rfl⟩) ⟨nofun, .inl (if_pos htext)⟩
    · rename_i htext
      refine working_seq working_resolveEmbeddingAllocation fun model t₂ s₂ h₂ ↦ ?_
      cases model with
      | none =>
          obtain rfl : t₂ = _ := h₂
          exact working_leave (.inl ⟨_, rfl⟩) ⟨nofun, .inr rfl⟩
      | some model =>
          obtain rfl : t₂ = _ := h₂
          dsimp only
          split
          · rename_i hsame
            have hexit : row.contentHash = some (Sha256.hex (buildTestcaseEmbeddingText row.content)) := hsame
            rw [if_pos hexit]
            exact working_pure trivial
          · rename_i hsame
            have hkeyed : ¬ row.contentHash = some (Sha256.hex (buildTestcaseEmbeddingText row.content)) := hsame
            rw [if_neg hkeyed]
            refine working_seq working_processing fun _ t₃ s₃ h₃ ↦ ?_
            obtain rfl : t₃ = _ := h₃
            refine working_seq working_embedTexts fun vectors t₄ s₄ h₄ ↦ ?_
            rcases h₄ with rfl | ⟨rfl, hlength, hwidth⟩
            · exact working_astray fun _ ↦ trivial
            · obtain ⟨vector, rfl⟩ := List.length_eq_one_iff.mp hlength
              have hfound : [vector].head?.filter (fun v ↦ v.width = ragEmbeddingDimension) =
                  some vector := by
                rw [List.head?_cons, Option.filter_some, if_pos]
                exact decide_eq_true (hwidth vector List.mem_cons_self)
              rw [hfound]
              have hpieces : pieces .testcase row.content = [none] := if_neg htext
              refine working_index ?_
              unfold RowsOf
              rw [hpieces]
              rfl

theorem working_process :
    Working sourceType (fun _ t' ↦ Exiting t') .taken s (process sourceType) := by
  cases sourceType with
  | document => exact working_processKnowledgeSource nofun
  | file => exact working_processKnowledgeSource nofun
  | testcase => exact working_processTestcase

theorem asking_work : Asking sourceType (fun _ _ ↦ True) .idle s (work sourceType) := by
  unfold work
  refine asking_seq (asking_ask (t := .idle) (w := .take) trivial) fun taken t₁ s₁ h₁ ↦ ?_
  cases taken with
  | false => exact follows_pure fun _ _ ↦ trivial
  | true =>
      obtain rfl : t₁ = .taken := h₁
      refine follows_attempt_seq anything_refl anything_trans working_process ?_ ?_
      · intro _ t₂ s₂ _ hexit
        cases t₂ with
        | exiting source =>
            exact (asking_ask (t := .exiting source) (w := .complete) trivial).mono
              fun _ _ _ _ ↦ trivial
        | astray => exact asking_astray fun _ ↦ trivial
        | _ => exact hexit.elim
      · intro e t₂ s₂ _ hhold
        -- the job is given back, and after the last attempt the source is marked
        have hfail : Legal sourceType t₂ s₂ .fail := by
          cases t₂ with
          | taken => exact trivial
          | saw source contentHash => exact trivial
          | keyed source => exact trivial
          | indexed source => exact trivial
          | astray => exact trivial
          | _ => exact hhold.elim
        refine asking_seq (asking_ask (t := t₂) (w := .fail) hfail) fun exhausted t₃ s₃ h₃ ↦ ?_
        cases exhausted with
        | false => exact follows_pure fun _ _ ↦ trivial
        | true =>
            have hmark : Legal sourceType t₃ s₃ (.setStatus .failed) := by
              obtain rfl : t₃ = _ := h₃
              cases t₂ with
              | taken => exact trivial
              | saw source contentHash => exact trivial
              | keyed source => exact trivial
              | indexed source => exact trivial
              | astray => exact trivial
              | _ => exact hhold.elim
            refine asking_seq (asking_ask (t := t₃) (w := .setStatus .failed) hmark) fun _ _ _ _ ↦ ?_
            exact follows_pure fun _ _ ↦ trivial

theorem asking_editAndEnqueue {content : Content} :
    Asking sourceType (fun _ _ ↦ True) .idle s (editAndEnqueue content) := by
  unfold editAndEnqueue
  refine asking_seq (asking_ask (t := .idle) (w := .edit content) trivial) ?_
  rintro number t₁ s₁ rfl
  have hqueued : Legal sourceType (.edited number) s₁ (.setQueued number) := rfl
  refine asking_seq (asking_ask (t := .edited number) (w := .setQueued number) hqueued) ?_
  rintro _ t₂ s₂ rfl
  have hadd : Legal sourceType (.edited number) s₂ (.add number) := rfl
  refine asking_seq (asking_ask (t := .edited number) (w := .add number) hadd) fun _ _ _ _ ↦ ?_
  exact follows_pure fun _ _ ↦ trivial

theorem asking_enter (call : Call) :
    Asking sourceType (fun _ _ ↦ True) .idle s (enter sourceType call) := by
  cases call with
  | edit content => exact asking_editAndEnqueue
  | work => exact asking_work
  | otherCompletes =>
      exact (asking_ask (t := .idle) (w := .otherCompleted) trivial).mono fun _ _ _ _ ↦ trivial
  | otherFails =>
      exact (asking_ask (t := .idle) (w := .otherFailed) trivial).mono fun _ _ _ _ ↦ trivial

end Calls

/-! ## The invariant -/

/-- A worker that has the job. -/
def AtJob : Phase → Prop
  | .taken | .saw _ _ | .keyed _ | .indexed _ | .exiting _ => True
  | _ => False

section Invariant

variable [Sha256] [Chunking] {sourceType : SourceType} {s s' : Shared} {phase : ℕ → Phase} {k : ℕ}

/-- What the job says of its worker. -/
def Holds (s : Shared) (seen : Option Content) (settled : Bool) : Phase → Prop
  | .taken => seen = none ∧ settled = false
  | .saw source contentHash => seen = some source ∧ settled = false ∧ s.contentHash = contentHash
  | .keyed source => seen = some source ∧ settled = false
  | .indexed source => seen = some source ∧ settled = false ∧ RowsOf s.sourceType source s.index
  | .exiting source => seen = some source ∧ settled = true ∧ Indexed s source
  | _ => False

def HoldsJob (s : Shared) (phase : Phase) : Prop :=
  ∃ attemptsMade seen settled, s.job = some (.active attemptsMade seen settled) ∧
    Holds s seen settled phase

/-- What the state says of an ended or a settled job. -/
structure InOrder (s : Shared) : Prop where
  fresh : FreshWhenQuiet s
  current : s.pending = [] → ∀ attemptsMade source settled,
    s.job = some (.active attemptsMade (some source) settled) →
      embeddingText s.sourceType source = embeddingText s.sourceType s.content
  settled : s.pending = [] → ∀ attemptsMade seen,
    s.job = some (.active attemptsMade seen true) → s.status ≠ .queued

structure Attending (sourceType : SourceType) (s : Shared) (phase : ℕ → Phase) : Prop where
  source : s.sourceType = sourceType
  live : s.live = true
  numbers : ∀ n ∈ s.pending, n < s.edits
  edited : ∀ k n, phase k = .edited n → n ∈ s.pending
  apart : ∀ j k n, phase j = .edited n → phase k = .edited n → j = k
  kept : ∀ k, phase k ≠ .astray
  worker : ∀ k, AtJob (phase k) → HoldsJob s (phase k)
  alone : ∀ j k, AtJob (phase j) → AtJob (phase k) → j = k
  order : InOrder s

/-- A call's step: what it leaves to the others, and where it is then. -/
theorem Attending.turned (h : Attending sourceType s phase) {ph : Phase}
    (hsource : s'.sourceType = s.sourceType) (hlive : s'.live = s.live)
    (hnumbers : ∀ n ∈ s'.pending, n < s'.edits)
    (hedited : ∀ j, j ≠ k → ∀ n, phase j = .edited n → n ∈ s'.pending)
    (hown : ∀ n, ph = .edited n → n ∈ s'.pending ∧ ∀ j, j ≠ k → phase j ≠ .edited n)
    (hastray : ph ≠ .astray)
    (hothers : ∀ j, j ≠ k → AtJob (phase j) → HoldsJob s' (phase j) ∧ ¬ AtJob ph)
    (hworker : AtJob ph → HoldsJob s' ph) (horder : InOrder s') :
    Attending sourceType s' (Function.update phase k ph) := by
  constructor
  case source => exact hsource.trans h.source
  case live => exact hlive.trans h.live
  case numbers => exact hnumbers
  case edited =>
    intro j n hj
    by_cases hjk : j = k
    · subst hjk
      rw [Function.update_self] at hj
      exact (hown n hj).1
    · rw [Function.update_of_ne hjk] at hj
      exact hedited j hjk n hj
  case apart =>
    intro i j n hi hj
    by_cases hik : i = k
    · subst hik
      by_cases hjk : j = i
      · exact hjk.symm
      · rw [Function.update_self] at hi
        rw [Function.update_of_ne hjk] at hj
        exact absurd hj ((hown n hi).2 j hjk)
    · rw [Function.update_of_ne hik] at hi
      by_cases hjk : j = k
      · subst hjk
        rw [Function.update_self] at hj
        exact absurd hi ((hown n hj).2 i hik)
      · rw [Function.update_of_ne hjk] at hj
        exact h.apart i j n hi hj
  case kept =>
    intro j
    by_cases hjk : j = k
    · subst hjk
      rw [Function.update_self]
      exact hastray
    · rw [Function.update_of_ne hjk]
      exact h.kept j
  case worker =>
    intro j hj
    by_cases hjk : j = k
    · subst hjk
      rw [Function.update_self] at hj ⊢
      exact hworker hj
    · rw [Function.update_of_ne hjk] at hj ⊢
      exact (hothers j hjk hj).1
  case alone =>
    intro i j hi hj
    by_cases hik : i = k
    · subst hik
      by_cases hjk : j = i
      · exact hjk.symm
      · rw [Function.update_self] at hi
        rw [Function.update_of_ne hjk] at hj
        exact absurd hi (hothers j hjk hj).2
    · rw [Function.update_of_ne hik] at hi
      by_cases hjk : j = k
      · subst hjk
        rw [Function.update_self] at hj
        exact absurd hj (hothers i hik hi).2
      · rw [Function.update_of_ne hjk] at hj
        exact h.alone i j hi hj
  case order => exact horder

/-- A step of the worker at the job. -/
theorem Attending.byWorker (h : Attending sourceType s phase) (hk : AtJob (phase k)) {ph : Phase}
    (hsource : s'.sourceType = s.sourceType) (hlive : s'.live = s.live)
    (hpending : s'.pending = s.pending) (hedits : s'.edits = s.edits)
    (hph : AtJob ph ∧ HoldsJob s' ph ∨ ph = .idle) (horder : InOrder s') :
    Attending sourceType s' (Function.update phase k ph) := by
  refine h.turned hsource hlive ?_ ?_ ?_ ?_ ?_ ?_ horder
  · rw [hpending, hedits]
    exact h.numbers
  · rw [hpending]
    exact fun j _ n hj ↦ h.edited j n hj
  · rintro n rfl
    rcases hph with ⟨hat, -⟩ | hidle
    · exact hat.elim
    · cases hidle
  · rintro rfl
    rcases hph with ⟨hat, -⟩ | hidle
    · exact hat.elim
    · cases hidle
  · exact fun j hjk hj ↦ absurd (h.alone j k hj hk) hjk
  · rintro hat
    rcases hph with ⟨-, hholds⟩ | rfl
    · exact hholds
    · exact hat.elim

/-- A worker's job is seen by the others as before. -/
theorem HoldsJob.congr {ph : Phase} (h : HoldsJob s ph) (hsource : s'.sourceType = s.sourceType)
    (hindex : s'.index = s.index) (hhash : s'.contentHash = s.contentHash)
    (hjob : s'.job = s.job) : HoldsJob s' ph := by
  obtain ⟨attemptsMade, seen, settled, hactive, hholds⟩ := h
  refine ⟨attemptsMade, seen, settled, hjob.trans hactive, ?_⟩
  cases ph with
  | taken => exact hholds
  | saw source contentHash => exact ⟨hholds.1, hholds.2.1, hhash.trans hholds.2.2⟩
  | keyed source => exact hholds
  | indexed source => exact ⟨hholds.1, hholds.2.1, by rw [hsource, hindex]; exact hholds.2.2⟩
  | exiting source =>
      refine ⟨hholds.1, hholds.2.1, ?_⟩
      unfold Indexed
      rw [hsource, hindex, hhash]
      exact hholds.2.2
  | idle => exact hholds
  | edited n => exact hholds
  | astray => exact hholds

/-- A step of another call, or of a worker without the job. -/
theorem Attending.byOther (h : Attending sourceType s phase) {ph : Phase}
    (hph : ¬ AtJob ph) (hastray : ph ≠ .astray) (hsource : s'.sourceType = s.sourceType)
    (hlive : s'.live = s.live) (hindex : s'.index = s.index)
    (hhash : s'.contentHash = s.contentHash)
    (hjob : ∀ attemptsMade seen settled, s.job = some (.active attemptsMade seen settled) →
      s'.job = s.job)
    (hnumbers : ∀ n ∈ s'.pending, n < s'.edits)
    (hedited : ∀ j, j ≠ k → ∀ n, phase j = .edited n → n ∈ s'.pending)
    (hown : ∀ n, ph = .edited n → n ∈ s'.pending ∧ ∀ j, j ≠ k → phase j ≠ .edited n)
    (horder : InOrder s') : Attending sourceType s' (Function.update phase k ph) := by
  refine h.turned hsource hlive hnumbers hedited hown hastray ?_ (fun hat ↦ absurd hat hph) horder
  intro j _ hj
  obtain ⟨attemptsMade, seen, settled, hactive, hholds⟩ := h.worker j hj
  exact ⟨(h.worker j hj).congr hsource hindex hhash (hjob attemptsMade seen settled hactive), hph⟩

/-! ### What each statement leaves in order -/

/-- An edit whose call is on its way still has its job to come. -/
theorem InOrder.of_pending {n : ℕ} (h : n ∈ s.pending) : InOrder s := by
  have hne : s.pending ≠ [] := List.ne_nil_of_mem h
  exact ⟨fun hnil ↦ absurd hnil hne, fun hnil ↦ absurd hnil hne, fun hnil ↦ absurd hnil hne⟩

theorem InOrder.of_waiting {n : ℕ} (h : s.job = some (.waiting n)) : InOrder s := by
  refine ⟨fun _ hrest ↦ ?_, fun _ _ _ _ hjob ↦ ?_, fun _ _ _ hjob ↦ ?_⟩
  · exact absurd (hrest _ h) (by simp only [Job.underWay, Bool.true_eq_false, not_false_iff])
  · rw [h] at hjob
    cases hjob
  · rw [h] at hjob
    cases hjob

theorem InOrder.of_active {attemptsMade : ℕ} {seen : Option Content} {settled : Bool}
    (h : s.job = some (.active attemptsMade seen settled))
    (hcurrent : s.pending = [] → ∀ source ∈ seen,
      embeddingText s.sourceType source = embeddingText s.sourceType s.content)
    (hsettled : s.pending = [] → settled = true → s.status ≠ .queued) : InOrder s := by
  refine ⟨fun _ hrest ↦ ?_, fun hnil _ source _ hjob ↦ ?_, fun hnil _ _ hjob ↦ ?_⟩
  · exact absurd (hrest _ h) (by simp only [Job.underWay, Bool.true_eq_false, not_false_iff])
  · rw [h] at hjob
    cases hjob
    exact hcurrent hnil source rfl
  · rw [h] at hjob
    cases hjob
    exact hsettled hnil rfl

/-- A job that is over. -/
theorem InOrder.of_over (h : ∀ job ∈ s.job, job.underWay = false)
    (hfresh : s.pending = [] → s.succeeded = some true →
      Indexed s s.content ∧ s.status ≠ .queued) : InOrder s := by
  refine ⟨fun hnil _ hsucceeded ↦ hfresh hnil hsucceeded, fun _ _ _ _ hjob ↦ ?_,
    fun _ _ _ hjob ↦ ?_⟩
  · exact absurd (h _ hjob) (by simp only [Job.underWay, Bool.true_eq_false, not_false_iff])
  · exact absurd (h _ hjob) (by simp only [Job.underWay, Bool.true_eq_false, not_false_iff])

theorem Attending.next (h : Attending sourceType s phase) {ph : Phase} (hph : ph = phase k) :
    Attending sourceType s.next (Function.update phase k ph) := by
  subst hph
  rw [Function.update_eq_self]
  exact ⟨h.source, h.live, h.numbers, h.edited, h.apart, h.kept, h.worker, h.alone,
    ⟨h.order.fresh, h.order.current, h.order.settled⟩⟩

/-- A phase in which a write is allowed, and that is not astray. -/
theorem phase_of_edit {ph : Phase} {content : Content} (h : Legal sourceType ph s (.edit content))
    (hk : ph ≠ .astray) : ph = .idle := by
  cases ph with
  | idle => rfl
  | astray => exact absurd rfl hk
  | _ => exact h.elim

theorem phase_of_setQueued {ph : Phase} {n : ℕ} (h : Legal sourceType ph s (.setQueued n))
    (hk : ph ≠ .astray) : ph = .edited n := by
  cases ph with
  | edited n' => exact congrArg Phase.edited (Eq.symm h)
  | astray => exact absurd rfl hk
  | _ => exact h.elim

theorem phase_of_add {ph : Phase} {n : ℕ} (h : Legal sourceType ph s (.add n))
    (hk : ph ≠ .astray) : ph = .edited n := by
  cases ph with
  | edited n' => exact congrArg Phase.edited (Eq.symm h)
  | astray => exact absurd rfl hk
  | _ => exact h.elim

theorem phase_of_take {ph : Phase} (h : Legal sourceType ph s .take) (hk : ph ≠ .astray) :
    ph = .idle := by
  cases ph with
  | idle => rfl
  | astray => exact absurd rfl hk
  | _ => exact h.elim

theorem Attending.turns_edit (h : Attending sourceType s phase) {content : Content}
    (hlegal : Legal sourceType (phase k) s (.edit content)) :
    Turns perform (turn sourceType) (Attending sourceType) phase k (.edit content) s := by
  have hk := phase_of_edit hlegal (h.kept k)
  unfold Turns Service.wp
  rw [hk]
  refine h.byOther (fun hat ↦ hat) nofun rfl rfl rfl rfl (fun _ _ _ _ ↦ rfl) ?_ ?_ ?_
    (InOrder.of_pending List.mem_cons_self)
  · intro n hn
    rcases List.mem_cons.mp hn with rfl | hn
    · exact Nat.lt_succ_self _
    · exact (h.numbers n hn).trans (Nat.lt_succ_self _)
  · exact fun j _ n hj ↦ List.mem_cons_of_mem _ (h.edited j n hj)
  · rintro n hn
    obtain rfl := Phase.edited.inj hn
    exact ⟨List.mem_cons_self, fun j _ hj ↦ (h.numbers _ (h.edited j _ hj)).false⟩

theorem Attending.turns_setQueued (h : Attending sourceType s phase) {n : ℕ}
    (hlegal : Legal sourceType (phase k) s (.setQueued n)) :
    Turns perform (turn sourceType) (Attending sourceType) phase k (.setQueued n) s := by
  have hk := phase_of_setQueued hlegal (h.kept k)
  unfold Turns perform perhaps
  rw [hk]
  refine Service.wp_perhaps (fun _ ↦ ?_) fun _ ↦ h.next hk.symm
  refine h.byOther (fun hat ↦ hat) nofun rfl rfl rfl rfl (fun _ _ _ _ ↦ rfl) h.numbers
    (fun j _ n' hj ↦ h.edited j n' hj) ?_ (InOrder.of_pending (h.edited k n hk))
  rintro n' hn'
  obtain rfl := Phase.edited.inj hn'
  exact ⟨h.edited k n hk, fun j hjk hj ↦ hjk (h.apart j k n hj hk)⟩

theorem Attending.turns_add (h : Attending sourceType s phase) {n : ℕ}
    (hlegal : Legal sourceType (phase k) s (.add n)) (hattended : Attended s (.add n)) :
    Turns perform (turn sourceType) (Attending sourceType) phase k (.add n) s := by
  have hk := phase_of_add hlegal (h.kept k)
  obtain ⟨hok, hjob⟩ := hattended
  unfold Turns perform perhaps
  rw [hk]
  refine Service.wp_perhaps (fun _ ↦ ?_) fun herror ↦ ?_
  · refine h.byOther (fun hat ↦ hat) nofun rfl rfl rfl rfl (fun a seen settled hactive ↦ ?_) ?_ ?_
      nofun ?_
    · change s.job.or _ = s.job
      rw [hactive]
      rfl
    · exact fun n' hn' ↦ h.numbers n' (List.mem_filter.mp hn').1
    · intro j hjk n' hj
      refine List.mem_filter.mpr ⟨h.edited j n' hj, decide_eq_true ?_⟩
      rintro rfl
      exact hjk (h.apart j k n' hj hk)
    · cases hcase : s.job with
      | none =>
          refine InOrder.of_waiting (n := 0) ?_
          change s.job.or _ = _
          rw [hcase]
          rfl
      | some job =>
          have hjob' : (s.next.addJob n).job = some job := by
            change s.job.or _ = _
            rw [hcase]
            rfl
          have hwill := hjob job hcase
          cases job with
          | waiting attemptsMade => exact InOrder.of_waiting hjob'
          | active attemptsMade seen settled =>
              obtain ⟨hsettled, hseen⟩ := hwill
              refine InOrder.of_active hjob' (fun _ ↦ hseen) fun _ htrue ↦ ?_
              rw [hsettled] at htrue
              cases htrue
          | completed newer => exact hwill.elim
          | failed newer => exact hwill.elim
  · rw [hok] at herror
    cases herror

theorem Attending.turns_take (h : Attending sourceType s phase)
    (hlegal : Legal sourceType (phase k) s .take) :
    Turns perform (turn sourceType) (Attending sourceType) phase k .take s := by
  have hk := phase_of_take hlegal (h.kept k)
  unfold Turns Service.wp perform
  rw [hk]
  have hsame : s.takeJob = (false, s) → Attending sourceType s.takeJob.2 (Function.update phase k
      (turn sourceType .idle .take s.takeJob.1)) := by
    intro htake
    rw [htake]
    have hidle : turn sourceType .idle .take false = phase k := hk.symm
    rw [hidle, Function.update_eq_self]
    exact h
  cases hjob : s.job with
  | none => exact hsame (by unfold Shared.takeJob; rw [hjob])
  | some job =>
      cases job with
      | active a seen settled => exact hsame (by unfold Shared.takeJob; rw [hjob])
      | completed newer => exact hsame (by unfold Shared.takeJob; rw [hjob])
      | failed newer => exact hsame (by unfold Shared.takeJob; rw [hjob])
      | waiting attemptsMade =>
          have htake : s.takeJob = (true, { s with job := some (.active attemptsMade none false) }) := by
            unfold Shared.takeJob
            rw [hjob]
          dsimp only
          rw [htake]
          refine h.turned rfl rfl h.numbers (fun j _ n hj ↦ h.edited j n hj) nofun nofun ?_ ?_ ?_
          · intro j _ hj
            obtain ⟨a, seen, settled, hactive, -⟩ := h.worker j hj
            rw [hjob] at hactive
            cases hactive
          · exact fun _ ↦ ⟨attemptsMade, none, false, rfl, rfl, rfl⟩
          · exact InOrder.of_active rfl (fun _ _ h ↦ by cases h) fun _ h ↦ by cases h

/-- The job of the worker, and the order it is in. -/
theorem Attending.job (h : Attending sourceType s phase) {ph : Phase} (hk : phase k = ph)
    (hat : AtJob ph) : HoldsJob s ph := by
  subst hk
  exact h.worker k hat

omit [Sha256] [Chunking] in
theorem note_active {s : Shared} {attemptsMade : ℕ} {seen seen' : Option Content}
    {settled settled' : Bool} (h : s.job = some (.active attemptsMade seen settled)) :
    s.note seen' settled' = { s with job := some (.active attemptsMade seen' settled') } := by
  unfold Shared.note
  rw [h]

omit [Sha256] [Chunking] in
theorem seen_active {s : Shared} {attemptsMade : ℕ} {seen : Option Content} {settled : Bool}
    (h : s.job = some (.active attemptsMade seen settled)) : s.seen = seen := by
  unfold Shared.seen
  rw [h]

omit [Sha256] [Chunking] in
theorem settle_active {s : Shared} {attemptsMade : ℕ} {seen : Option Content} {settled : Bool}
    (h : s.job = some (.active attemptsMade seen settled)) :
    s.settle = { s with job := some (.active attemptsMade seen true) } := by
  unfold Shared.settle
  rw [note_active h, seen_active h]

theorem Attending.turns_readSource (h : Attending sourceType s phase)
    (hlegal : Legal sourceType (phase k) s .readSource) :
    Turns perform (turn sourceType) (Attending sourceType) phase k .readSource s := by
  have hk : phase k = .taken := by
    have hkept := h.kept k
    cases hph : phase k with
    | taken => rfl
    | astray => exact absurd hph hkept
    | _ =>
        rw [hph] at hlegal
        exact hlegal.elim
  obtain ⟨a, seen, settled, hactive, rfl, rfl⟩ := h.job hk trivial
  unfold Turns perform perhaps
  rw [hk]
  refine Service.wp_perhaps (fun _ ↦ ?_) fun _ ↦ h.next hk.symm
  have hread : readSource s.next = (some ⟨s.content, s.contentHash⟩,
      { s.next with job := some (.active a (some s.content) false) }) := by
    have hlive : s.next.live = true := h.live
    unfold readSource
    rw [if_pos hlive, @note_active s.next a none (some s.next.content) false false hactive]
    rfl
  dsimp only
  rw [hread]
  refine h.byWorker (hk ▸ trivial) rfl rfl rfl rfl (.inl ⟨trivial, a, _, _, rfl, rfl, rfl, rfl⟩) ?_
  refine InOrder.of_active rfl (fun _ source hsource ↦ ?_) fun _ h ↦ by cases h
  obtain rfl := Option.some.inj hsource
  rfl

theorem Attending.turns_resolveEmbeddingAllocation (h : Attending sourceType s phase)
    (hlegal : Legal sourceType (phase k) s .resolveEmbeddingAllocation)
    (hattended : Attended s .resolveEmbeddingAllocation) :
    Turns perform (turn sourceType) (Attending sourceType) phase k .resolveEmbeddingAllocation
      s := by
  have hk : ∃ source contentHash, phase k = .saw source contentHash := by
    have hkept := h.kept k
    cases hph : phase k with
    | saw source contentHash => exact ⟨source, contentHash, rfl⟩
    | astray => exact absurd hph hkept
    | _ =>
        rw [hph] at hlegal
        exact hlegal.elim
  obtain ⟨source, contentHash, hk⟩ := hk
  obtain ⟨a, seen, settled, hactive, rfl, rfl, rfl⟩ := h.job hk trivial
  have hsource := h.source
  unfold Turns perform perhaps
  rw [hk]
  refine Service.wp_perhaps (fun hok ↦ ?_) fun _ ↦ h.next hk.symm
  have hseen : seenIndexed s.next ↔ s.contentHash = some (hashOf sourceType source) := by
    unfold seenIndexed
    rw [@seen_active s.next a _ _ hactive, ← hsource]
    constructor
    · rintro ⟨source', hsource', hsame⟩
      obtain rfl := Option.some.inj hsource'
      exact hsame
    · exact fun hsame ↦ ⟨source, rfl, hsame⟩
  cases hmodel : (s.answers 0).model with
  | none =>
      have hstate : resolveEmbeddingAllocation none s.next = (none, s.next) := by
        unfold resolveEmbeddingAllocation
        rw [if_neg (by rintro ⟨hcontra, -⟩; cases hcontra)]
      dsimp only
      rw [hmodel, hstate]
      exact h.next hk.symm
  | some model =>
      by_cases hsame : s.contentHash = some (hashOf sourceType source)
      · have hstate : resolveEmbeddingAllocation (some model) s.next =
            (some model, { s.next with job := some (.active a (some source) true) }) := by
          unfold resolveEmbeddingAllocation
          rw [if_pos ⟨rfl, hseen.mpr hsame⟩, @settle_active s.next a _ _ hactive]
        obtain ⟨hstatus, hindexed⟩ := hattended hok (by rw [hmodel]; nofun) (hseen.mpr hsame)
        have hindexed' := hindexed source (seen_active hactive)
        dsimp only
        rw [hmodel, hstate]
        simp only [turn, if_pos hsame]
        refine h.byWorker (hk ▸ trivial) rfl rfl rfl rfl
          (.inl ⟨trivial, a, _, _, rfl, rfl, rfl, hindexed'⟩) ?_
        refine InOrder.of_active rfl (fun hnil source' hsource' ↦ ?_) fun _ _ ↦ hstatus
        obtain rfl := Option.some.inj hsource'
        exact h.order.current hnil a source false hactive
      · have hstate : resolveEmbeddingAllocation (some model) s.next = (some model, s.next) := by
          unfold resolveEmbeddingAllocation
          rw [if_neg (fun hboth ↦ hsame (hseen.mp hboth.2))]
        dsimp only
        rw [hmodel, hstate]
        simp only [turn, if_neg hsame]
        refine h.byWorker (hk ▸ trivial) rfl rfl rfl rfl
          (.inl ⟨trivial, a, _, _, hactive, rfl, rfl⟩) ?_
        exact ⟨h.order.fresh, h.order.current, h.order.settled⟩

/-- A status that is not the mark of the queue. -/
theorem InOrder.mark (h : InOrder s) {status : EmbeddingStatus} (hstatus : status ≠ .queued) :
    InOrder { s.next with status := status } := by
  refine ⟨fun hnil hrest hsucceeded ↦ ?_, h.current, fun _ _ _ _ ↦ hstatus⟩
  exact ⟨(h.fresh hnil hrest hsucceeded).1, hstatus⟩

theorem Attending.turns_setStatus (h : Attending sourceType s phase) {status : EmbeddingStatus}
    (hlegal : Legal sourceType (phase k) s (.setStatus status)) :
    Turns perform (turn sourceType) (Attending sourceType) phase k (.setStatus status) s := by
  have hkept := h.kept k
  unfold Turns perform perhaps
  cases hk : phase k with
  | idle =>
      rw [hk] at hlegal
      refine Service.wp_perhaps (fun _ ↦ ?_) fun _ ↦ h.next hk.symm
      have hstatus : status ≠ .queued := by
        rintro rfl
        exact hlegal.elim
      exact h.byOther (fun hat ↦ hat) nofun rfl rfl rfl rfl (fun _ _ _ _ ↦ rfl) h.numbers
        (fun j _ n hj ↦ h.edited j n hj) nofun (h.order.mark hstatus)
  | keyed source =>
      rw [hk] at hlegal
      refine Service.wp_perhaps (fun _ ↦ ?_) fun _ ↦ h.next hk.symm
      have hstatus : status ≠ .queued := by
        rintro rfl
        exact hlegal.elim
      obtain ⟨a, seen, settled, hactive, hholds⟩ := h.job hk trivial
      exact h.byWorker (hk ▸ trivial) rfl rfl rfl rfl
        (.inl ⟨trivial, a, seen, settled, hactive, hholds⟩) (h.order.mark hstatus)
  | astray => exact absurd hk hkept
  | _ =>
      rw [hk] at hlegal
      exact hlegal.elim

/-- What the job's last status leaves. -/
theorem Attending.exit (h : Attending sourceType s phase) {a : ℕ} {source : Content}
    (hat : AtJob (phase k)) (hactive : s.job = some (.active a (some source) false))
    {status : EmbeddingStatus} {contentHash : Option String} (hstatus : status ≠ .queued)
    (hindexed : Indexed { s with contentHash := contentHash } source) :
    Attending sourceType { s.next.settle with status := status, contentHash := contentHash }
      (Function.update phase k (.exiting source)) := by
  rw [@settle_active s.next a _ _ hactive]
  refine h.byWorker hat rfl rfl rfl rfl (.inl ⟨trivial, a, _, _, rfl, rfl, rfl, hindexed⟩) ?_
  refine InOrder.of_active rfl (fun hnil source' hsource' ↦ ?_) fun _ _ ↦ hstatus
  obtain rfl := Option.some.inj hsource'
  exact h.order.current hnil a source false hactive

theorem Attending.turns_leave (h : Attending sourceType s phase) {status : EmbeddingStatus}
    (hlegal : Legal sourceType (phase k) s (.leave status))
    (hattended : Attended s (.leave status)) :
    Turns perform (turn sourceType) (Attending sourceType) phase k (.leave status) s := by
  have hkept := h.kept k
  unfold Turns perform perhaps
  have hexit : ∀ {a source}, AtJob (phase k) → s.job = some (.active a (some source) false) →
      status ≠ .queued → (s.answers 0).ok = true →
        Attending sourceType { s.next.settle with status := status }
          (Function.update phase k (.exiting source)) := by
    intro a source hat hactive hstatus hok
    have hhash : s.next.settle.contentHash = s.contentHash := by
      rw [@settle_active s.next a _ _ hactive]
      rfl
    have hindexed : Indexed { s with contentHash := s.contentHash } source :=
      hattended hok source (seen_active hactive)
    have hexit := h.exit hat hactive hstatus hindexed
    rw [← hhash] at hexit
    exact hexit
  cases hk : phase k with
  | saw source contentHash =>
      rw [hk] at hlegal
      obtain ⟨a, seen, settled, hactive, rfl, rfl, -⟩ := h.job hk trivial
      exact Service.wp_perhaps (fun hok ↦ hexit (hk ▸ trivial) hactive hlegal.1 hok)
        fun _ ↦ h.next hk.symm
  | keyed source =>
      rw [hk] at hlegal
      obtain ⟨a, seen, settled, hactive, rfl, rfl⟩ := h.job hk trivial
      exact Service.wp_perhaps (fun hok ↦ hexit (hk ▸ trivial) hactive hlegal.1 hok)
        fun _ ↦ h.next hk.symm
  | astray => exact absurd hk hkept
  | _ =>
      rw [hk] at hlegal
      exact hlegal.elim

theorem Attending.turns_embedTexts (h : Attending sourceType s phase) {model : String}
    {inputs : List String} (hlegal : Legal sourceType (phase k) s (.embedTexts model inputs))
    (hattended : Attended s (.embedTexts model inputs)) :
    Turns perform (turn sourceType) (Attending sourceType) phase k (.embedTexts model inputs)
      s := by
  have hkept := h.kept k
  unfold Turns perform perhaps
  cases hk : phase k with
  | keyed source =>
      refine Service.wp_perhaps (fun hok ↦ ?_) fun _ ↦ h.next hk.symm
      simp only [turn, if_pos (hattended hok)]
      exact h.next hk.symm
  | astray => exact absurd hk hkept
  | _ =>
      rw [hk] at hlegal
      exact hlegal.elim

theorem Attending.turns_replaceIndex (h : Attending sourceType s phase) {rows : List IndexRow}
    (hlegal : Legal sourceType (phase k) s (.replaceIndex rows)) :
    Turns perform (turn sourceType) (Attending sourceType) phase k (.replaceIndex rows) s := by
  have hkept := h.kept k
  have hsource := h.source
  unfold Turns perform perhaps
  cases hk : phase k with
  | keyed source =>
      rw [hk] at hlegal
      obtain ⟨a, seen, settled, hactive, rfl, rfl⟩ := h.job hk trivial
      refine Service.wp_perhaps (fun _ ↦ ?_) fun _ ↦ h.next hk.symm
      refine h.byWorker (hk ▸ trivial) rfl rfl rfl rfl
        (.inl ⟨trivial, a, _, _, hactive, rfl, rfl, ?_⟩) ?_
      · change RowsOf s.sourceType source rows
        rw [hsource]
        exact hlegal
      · exact InOrder.of_active hactive (fun hnil source' hsource' ↦ by
          obtain rfl := Option.some.inj hsource'
          exact h.order.current hnil a source false hactive) fun _ hfalse ↦ by cases hfalse
  | astray => exact absurd hk hkept
  | _ =>
      rw [hk] at hlegal
      exact hlegal.elim

theorem Attending.turns_markReady (h : Attending sourceType s phase) {contentHash : String}
    (hlegal : Legal sourceType (phase k) s (.markReady contentHash)) :
    Turns perform (turn sourceType) (Attending sourceType) phase k (.markReady contentHash) s := by
  have hkept := h.kept k
  have hsource := h.source
  unfold Turns perform perhaps
  cases hk : phase k with
  | indexed source =>
      rw [hk] at hlegal
      obtain rfl : contentHash = hashOf sourceType source := hlegal
      obtain ⟨a, seen, settled, hactive, rfl, rfl, hrows⟩ := h.job hk trivial
      refine Service.wp_perhaps (fun _ ↦ ?_) fun _ ↦ h.next hk.symm
      refine h.exit (hk ▸ trivial) hactive nofun ⟨hrows, fun _ ↦ ?_⟩
      change some (hashOf sourceType source) = some (hashOf s.sourceType source)
      rw [hsource]
  | astray => exact absurd hk hkept
  | _ =>
      rw [hk] at hlegal
      exact hlegal.elim

/-- What is indexed is a matter of the text. -/
theorem Indexed.congr {source source' : Content} (h : Indexed s source)
    (htext : embeddingText s.sourceType source = embeddingText s.sourceType source') :
    Indexed s source' := by
  have hpieces : pieces s.sourceType source' = pieces s.sourceType source := by
    unfold pieces
    rw [htext]
  have hhash : hashOf s.sourceType source' = hashOf s.sourceType source := by
    unfold hashOf
    rw [htext]
  unfold Indexed RowsOf at h ⊢
  rw [hpieces, hhash]
  exact h

omit [Sha256] [Chunking] in
theorem endJob_active {a : ℕ} {seen : Option Content} {settled : Bool} {job : ℕ → Option Job}
    {succeeded : Option Bool} (h : s.job = some (.active a seen settled)) :
    s.endJob job succeeded = { s with job := job a, succeeded := succeeded } := by
  unfold Shared.endJob
  rw [h]

theorem Attending.turns_complete (h : Attending sourceType s phase)
    (hlegal : Legal sourceType (phase k) s .complete) :
    Turns perform (turn sourceType) (Attending sourceType) phase k .complete s := by
  have hkept := h.kept k
  cases hk : phase k with
  | exiting source =>
      obtain ⟨a, seen, settled, hactive, rfl, rfl, hindexed⟩ := h.job hk trivial
      refine (Service.wp_write _).mpr ?_
      rw [hk, endJob_active hactive]
      refine h.byWorker (hk ▸ trivial) rfl rfl rfl rfl (.inr rfl) ?_
      refine InOrder.of_over (fun job hjob ↦ ?_) fun hnil _ ↦ ?_
      · obtain rfl := Option.some.inj hjob
        rfl
      · have htext := h.order.current hnil a source true hactive
        exact ⟨hindexed.congr htext, h.order.settled hnil a _ hactive⟩
  | astray => exact absurd hk hkept
  | _ =>
      rw [hk] at hlegal
      exact hlegal.elim

/-- A job that is given back, for another attempt or for good. -/
theorem Attending.giveBack (h : Attending sourceType s phase) (hat : AtJob (phase k))
    (hlegal : Legal sourceType (phase k) s .fail) :
    Turns perform (turn sourceType) (Attending sourceType) phase k .fail s := by
  obtain ⟨a, seen, settled, hactive, -⟩ := h.worker k hat
  have hidle : ∀ exhausted, turn sourceType (phase k) .fail exhausted = .idle := by
    intro exhausted
    cases hk : phase k with
    | exiting source =>
        rw [hk] at hlegal
        exact hlegal.elim
    | idle =>
        rw [hk] at hat
        exact hat.elim
    | edited n =>
        rw [hk] at hat
        exact hat.elim
    | astray =>
        rw [hk] at hat
        exact hat.elim
    | _ => rfl
  unfold Turns Service.wp perform
  dsimp only
  rw [hactive]
  dsimp only
  by_cases hmore : a + 1 < attempts
  · rw [if_pos hmore, endJob_active hactive]
    dsimp only
    rw [hidle]
    exact h.byWorker hat rfl rfl rfl rfl (.inr rfl) (InOrder.of_waiting rfl)
  · rw [if_neg hmore, endJob_active hactive]
    dsimp only
    rw [hidle]
    refine h.byWorker hat rfl rfl rfl rfl (.inr rfl) ?_
    refine InOrder.of_over (fun job hjob ↦ ?_) fun _ hsucceeded ↦ ?_
    · obtain rfl := Option.some.inj hjob
      rfl
    · cases hsucceeded

theorem Attending.turns_fail (h : Attending sourceType s phase)
    (hlegal : Legal sourceType (phase k) s .fail) :
    Turns perform (turn sourceType) (Attending sourceType) phase k .fail s := by
  have hkept := h.kept k
  refine h.giveBack ?_ hlegal
  cases hk : phase k with
  | idle =>
      rw [hk] at hlegal
      exact hlegal.elim
  | edited n =>
      rw [hk] at hlegal
      exact hlegal.elim
  | astray => exact absurd hk hkept
  | _ => exact trivial

/-- Another job of the queue ends, and the one of the source may be forgotten. -/
theorem Attending.forgets (h : Attending sourceType s phase)
    {job : Option Job} (hactive : ∀ a seen settled, s.job = some (.active a seen settled) →
      job = s.job) (hover : job = s.job ∨ (∀ j ∈ s.job, j.underWay = false) ∧
        ∀ j ∈ job, j.underWay = false) :
    Attending sourceType { s with job := job } (Function.update phase k .idle) := by
  refine h.byOther (fun hat ↦ hat) nofun rfl rfl rfl rfl hactive h.numbers
    (fun j _ n hj ↦ h.edited j n hj) nofun ?_
  rcases hover with rfl | ⟨hbefore, hafter⟩
  · exact ⟨h.order.fresh, h.order.current, h.order.settled⟩
  · exact InOrder.of_over hafter fun hnil hsucceeded ↦ h.order.fresh hnil hbefore hsucceeded

/-- A write of another job's end is a call's only one. -/
theorem Attending.turns_other (h : Attending sourceType s phase) {w : Write}
    (hlegal : Legal sourceType (phase k) s w) (hw : w = .otherCompleted ∨ w = .otherFailed) :
    phase k = .idle ∧ ∀ r, turn sourceType (phase k) w r = .idle := by
  have hk : phase k = .idle := by
    have hkept := h.kept k
    cases hph : phase k with
    | idle => rfl
    | astray => exact absurd hph hkept
    | _ =>
        rw [hph] at hlegal
        rcases hw with rfl | rfl
        all_goals exact hlegal.elim
  refine ⟨hk, fun r ↦ ?_⟩
  rw [hk]
  rcases hw with rfl | rfl
  all_goals rfl

theorem Attending.turns_otherCompleted (h : Attending sourceType s phase)
    (hlegal : Legal sourceType (phase k) s .otherCompleted) :
    Turns perform (turn sourceType) (Attending sourceType) phase k .otherCompleted s := by
  obtain ⟨hk, hturn⟩ := h.turns_other hlegal (.inl rfl)
  refine (Service.wp_write _).mpr ?_
  rw [hturn ()]
  unfold Shared.otherCompleted
  split
  · rename_i newer hjob
    refine h.forgets (fun a seen settled hactive ↦ ?_) (.inr ⟨fun j hj ↦ ?_, fun j hj ↦ ?_⟩)
    · rw [hjob] at hactive
      cases hactive
    · rw [hjob] at hj
      obtain rfl := Option.some.inj hj
      rfl
    · split at hj
      · obtain rfl := Option.some.inj hj
        rfl
      · cases hj
  · exact h.forgets (fun _ _ _ _ ↦ rfl) (.inl rfl)

theorem Attending.turns_otherFailed (h : Attending sourceType s phase)
    (hlegal : Legal sourceType (phase k) s .otherFailed) :
    Turns perform (turn sourceType) (Attending sourceType) phase k .otherFailed s := by
  obtain ⟨hk, hturn⟩ := h.turns_other hlegal (.inr rfl)
  refine (Service.wp_write _).mpr ?_
  rw [hturn ()]
  unfold Shared.otherFailed
  split
  · rename_i newer hjob
    refine h.forgets (fun a seen settled hactive ↦ ?_) (.inr ⟨fun j hj ↦ ?_, fun j hj ↦ ?_⟩)
    · rw [hjob] at hactive
      cases hactive
    · rw [hjob] at hj
      obtain rfl := Option.some.inj hj
      rfl
    · split at hj
      · obtain rfl := Option.some.inj hj
        rfl
      · cases hj
  · exact h.forgets (fun _ _ _ _ ↦ rfl) (.inl rfl)

/-- Each statement keeps the invariant. -/
theorem Attending.turns (h : Attending sourceType s phase) {w : Write}
    (hlegal : Legal sourceType (phase k) s w) (hattended : Attended s w) :
    Turns perform (turn sourceType) (Attending sourceType) phase k w s := by
  cases w with
  | edit content => exact h.turns_edit hlegal
  | setQueued n => exact h.turns_setQueued hlegal
  | add n => exact h.turns_add hlegal hattended
  | take => exact h.turns_take hlegal
  | readSource => exact h.turns_readSource hlegal
  | resolveEmbeddingAllocation => exact h.turns_resolveEmbeddingAllocation hlegal hattended
  | setStatus status => exact h.turns_setStatus hlegal
  | leave status => exact h.turns_leave hlegal hattended
  | embedTexts model inputs => exact h.turns_embedTexts hlegal hattended
  | replaceIndex rows => exact h.turns_replaceIndex hlegal
  | markReady contentHash => exact h.turns_markReady hlegal
  | complete => exact h.turns_complete hlegal
  | fail => exact h.turns_fail hlegal
  | otherCompleted => exact h.turns_otherCompleted hlegal
  | otherFailed => exact h.turns_otherFailed hlegal

end Invariant

/-! ## Whole runs -/

section Runs

variable [Sha256] [Chunking] {sourceType : SourceType} {s : Shared}

theorem Created.attending (h : Created sourceType s) :
    Attending sourceType s fun _ ↦ .idle := by
  constructor
  case source => exact h.source
  case live => exact h.live
  case numbers =>
    rw [h.pending]
    exact fun n hn ↦ (List.not_mem_nil hn).elim
  case edited => exact fun _ _ hidle ↦ by cases hidle
  case apart => exact fun _ _ _ hidle ↦ by cases hidle
  case kept => exact fun _ hidle ↦ by cases hidle
  case worker => exact fun _ hat ↦ hat.elim
  case alone => exact fun _ _ hat ↦ hat.elim
  case order =>
    refine InOrder.of_over (fun job hjob ↦ ?_) fun _ hsucceeded ↦ ?_
    · rw [h.job] at hjob
      cases hjob
    · rw [h.succeeded] at hsucceeded
      cases hsucceeded

abbrev AttendingRun (sourceType : SourceType) : Run → Prop :=
  Phased (turn sourceType) (Attending sourceType) Anything (Legal sourceType) fun _ _ _ ↦ True

/-- A call that is over leaves the invariant to the others. -/
theorem Attending.idle_at {phase : ℕ → Phase} (h : Attending sourceType s phase) (k : ℕ) :
    Attending sourceType s (Function.update phase k .idle) :=
  h.turned rfl rfl h.numbers (fun j _ n hj ↦ h.edited j n hj) nofun nofun
    (fun j _ hj ↦ ⟨h.worker j hj, fun hat ↦ hat⟩) (fun hat ↦ hat.elim) h.order

theorem AttendingRun.step {c : Run} {m : Move Call} (hc : AttendingRun sourceType c)
    (hm : AtWrite Attended c m) : AttendingRun sourceType (step sourceType c m) := by
  refine Phased.move anything_refl anything_trans ?_ ?_ hc hm
  · exact fun s phase k call h ↦ ⟨.idle, h.idle_at k, asking_enter call⟩
  · exact fun s phase k w h hlegal hattended ↦ ⟨h.turns hlegal hattended, trivial⟩

/-- In every run from a source's creation whose statements that go through ask for `Attended`, the
index is that of the text whenever the queue has nothing under way. -/
theorem freshWhenQuiet_always (h : Created sourceType s) {ms : List (Move Call)}
    (hms : Along (step sourceType) (AtWrite Attended) (Config.idle s) ms) :
    Always (step sourceType) (fun c ↦ FreshWhenQuiet c.shared) (Config.idle s) ms := by
  have hstart : AttendingRun sourceType (Config.idle s) := Phased.idle h.attending
  have hall := (Along.invariant (fun c m hc hm ↦ ⟨AttendingRun.step hc hm, trivial⟩) hstart hms).1
  refine hall.mono fun c hc ↦ ?_
  obtain ⟨_, hattending, _⟩ := hc
  exact hattending.order.fresh

end Runs

/-! ## A document edited twice -/

section Example

abbrev plainHash : Sha256 := ⟨id, Function.injective_id⟩

abbrev oneChunk : Chunking := ⟨fun text ↦ [⟨0, none, text, 1⟩]⟩

def written (text : String) : Content := ⟨some text, none, none, none⟩

/-- A document without text; every statement goes through, and a batch gets one vector. -/
def blankDocument : Shared where
  sourceType := .document
  live := true
  content := written ""
  status := .pending
  contentHash := none
  index := []
  job := none
  answers _ := ⟨true, some "voyage-3.5", [⟨"voyage-3.5", ragEmbeddingDimension⟩]⟩
  edits := 0
  pending := []
  succeeded := none

theorem created_blankDocument : Created .document blankDocument := ⟨rfl, rfl, rfl, rfl, rfl⟩

/-- An edit, and a worker that indexes it. -/
def indexedEdit : List (Move Call) :=
  [.enter 0 (.edit (written "Login"))] ++ List.replicate 3 (.advance 0) ++ [.enter 1 .work] ++
    List.replicate 8 (.advance 1)

/-- A second edit, whose call finds the first one's job in the queue. -/
def secondEdit : List (Move Call) :=
  [.enter 2 (.edit (written "Logout"))] ++ List.replicate 3 (.advance 2)

def runDocument (ms : List (Move Call)) : Run :=
  letI := plainHash
  letI := oneChunk
  ms.foldl (step .document) (Config.idle blankDocument)

theorem freshWhenQuiet_indexedEdit :
    ((runDocument indexedEdit).shared.succeeded = some true ∧
      (runDocument indexedEdit).shared.status = .ready ∧
      (runDocument indexedEdit).shared.index.length = 1) ∧
      Always (@step plainHash oneChunk .document)
        (fun c ↦ @FreshWhenQuiet plainHash oneChunk c.shared) (Config.idle blankDocument)
        indexedEdit :=
  ⟨by decide +kernel,
    @freshWhenQuiet_always plainHash oneChunk .document blankDocument created_blankDocument
      indexedEdit (by decide +kernel)⟩

/-- The job of the first edit is completed and retained, so the second edit is not indexed, and the
document stays marked as queued. -/
theorem not_freshWhenQuiet_secondEdit :
    Created .document blankDocument ∧
      ¬ @FreshWhenQuiet plainHash oneChunk (runDocument (indexedEdit ++ secondEdit)).shared :=
  ⟨created_blankDocument, by decide +kernel⟩

end Example

end Tesbo.Rag
