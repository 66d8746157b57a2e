import Tesbo.NyraApprovals

/-!
# Approvals keep a person's edits

An approval tells an edit by the text alone, and by the hash of what it has read back; it reads the
document, writes it and stores the hash in statements of their own.
-/

namespace Tesbo.Nyra

open Reasoning Proc

/-! ## Calls -/

inductive Call where
  | approve (caller : Member) (looks : ℕ) (scan : Option String) (replaceEdits : Bool)
      (product : Product)
  | update (caller : Member) (documentId : ℕ) (body : Body)
  | delete (caller : Member) (documentId : ℕ)
  | restore (caller : Member) (documentId : ℕ)

/-- Access to the project is looked up first, and remembered for the rest of a call. -/
def withAccess {α : Type} (p : Procedure α) : Procedure Unit := do
  must (.reach false)
  let _ ← p
  pure ()

section Machine

variable [Sha256]

def enter : Call → Procedure Unit
  | .approve caller looks scan replaceEdits product =>
      withAccess (approve caller looks scan replaceEdits product)
  | .update caller documentId body =>
      withAccess (updateKnowledgeDocument .person caller documentId body)
  | .delete caller documentId => withAccess (deleteKnowledgeDocument caller documentId)
  | .restore caller documentId => withAccess (restoreKnowledgeDocument caller documentId)

abbrev Run := Config Data (Procedure Unit)

def step (c : Run) (m : Move Call) : Run := c.move enter (fun _ ↦ Proc.exec perform) m

/-! ## The property and its condition -/

/-- Without the word to replace edits, no column a person had changed is overwritten. -/
def Overwrite.Spares (w : Overwrite) : Prop :=
  w.replaceEdits = false → ∀ column ∈ w.changed, w.before.differs w.after column = false

instance (w : Overwrite) : Decidable w.Spares := inferInstanceAs (Decidable (_ → ∀ _ ∈ _, _))

structure KeepsEdits (s : Data) : Prop where
  spares : ∀ w ∈ s.overwrites, w.Spares
  blames : ∀ changed ∈ s.refused, changed ≠ []
  one : ∀ i j d d', s.documents i = some d → s.documents j = some d' → d.product = true →
    d'.product = true → d.isDeleted = false → d'.isDeleted = false → i = j

/-- The document an approval is at. -/
def Stage.documentId : Stage → Option ℕ
  | .refusing documentId | .checked documentId _ | .found documentId _ | .created documentId
  | .wrote documentId | .readBack documentId _ => some documentId
  | .locked | .missing | .recorded => none

/-- The document is written, and its hash is not stored. -/
def Stage.unrecorded : Stage → Bool
  | .created _ | .wrote _ | .readBack _ _ => true
  | _ => false

/-- An edit would be overwritten now, or taken for what was written. -/
def Stage.blind : Stage → Bool
  | .checked _ replaceEdits | .found _ replaceEdits => !replaceEdits
  | .created _ | .wrote _ => true
  | _ => false

/-- The product's document: the one an approval is at, or else the one that is recorded. -/
def currentId (s : Data) : Option ℕ :=
  (s.lock.bind Stage.documentId).or (s.kb.map KbDocument.documentId)

/-- The hash that its text will be told apart by. -/
def expectedHash (s : Data) : Option String :=
  match s.lock with
  | some (.readBack _ contentText) => some (Sha256.hex (contentText.getD ""))
  | _ => s.kb.bind KbDocument.contentHash

def textHash (content : Content) : String := Sha256.hex (content.contentText.getD "")

/-- A person who changes the product's document changes its text, to one that was not written last,
and not between what an approval reads of it and what it reads back.  A person restores it only where
no other has taken its place, or is about to, and not edited behind the back of an approval.  Once an
approval has written the document, its statements go through up to the one that stores the hash. -/
def Careful (s : Data) : Write → Prop
  | .updateDocument .person documentId update => currentId s = some documentId →
      ∀ d ∈ s.documents documentId, columns.filter (d.content.differs update.content) ≠ [] →
        (∀ stage ∈ s.lock, stage.blind = false) ∧ some (textHash update.content) ≠ expectedHash s
  | .restoreDocument documentId => ∀ d ∈ s.documents documentId, d.product = true →
      d.isDeleted = true → currentId s = some documentId ∧ s.lock ≠ some .missing ∧
        (s.lock = some (.checked documentId false) → some (textHash d.content) = expectedHash s)
  | .readDocument (.approval _) documentId => ∀ stage ∈ s.lock, stage.unrecorded = true →
      s.answers 0 = true ∧ (findDocument documentId s).isSome = true
  | .updateDocument (.approval _) _ _ | .reach true | .readStored _ | .record _ _ =>
      ∀ stage ∈ s.lock, stage.unrecorded = true → s.answers 0 = true
  | _ => True

instance (s : Data) (w : Write) : Decidable (Careful s w) := by
  cases w with
  | updateDocument author documentId update =>
      cases author with
      | person => exact inferInstanceAs (Decidable (_ → ∀ d ∈ s.documents documentId, _ → _ ∧ _))
      | approval _ => exact inferInstanceAs (Decidable (∀ stage ∈ s.lock, _ → _))
  | restoreDocument documentId =>
      exact inferInstanceAs (Decidable (∀ d ∈ s.documents documentId, _ → _ → _ ∧ _ ∧ (_ → _)))
  | readDocument author documentId =>
      cases author with
      | person => exact instDecidableTrue
      | approval _ => exact inferInstanceAs (Decidable (∀ stage ∈ s.lock, _ → _ ∧ _))
  | reach locked =>
      cases locked with
      | false => exact instDecidableTrue
      | true => exact inferInstanceAs (Decidable (∀ stage ∈ s.lock, _ → _))
  | readStored _ => exact inferInstanceAs (Decidable (∀ stage ∈ s.lock, _ → _))
  | record _ _ => exact inferInstanceAs (Decidable (∀ stage ∈ s.lock, _ → _))
  | _ => exact instDecidableTrue

/-- Nothing has been approved of the NYRA project. -/
structure NothingApproved (s : Data) : Prop where
  fresh : ∀ id, s.nextId ≤ id → s.documents id = none
  products : ∀ id d, s.documents id = some d → d.product = false
  kb : s.kb = none
  lock : s.lock = none
  overwrites : s.overwrites = []
  refused : s.refused = []

end Machine

/-! ## Where a call is -/

/-- Without the lock, or with it and so far.  `astray` is an approval that has failed with a document
it has written and not recorded. -/
inductive Phase where
  | idle
  | holding (stage : Stage)
  | astray
deriving DecidableEq

/-- What a new document can be published with. -/
structure Content.Publishable (content : Content) : Prop where
  title : content.title ≠ ""
  own : isZyraMemoryDocument content = false
  length : jsLength content.title ≤ Knowledge.kbDocumentTitleMaxLength

instance (content : Content) : Decidable content.Publishable :=
  decidable_of_iff (content.title ≠ "" ∧ isZyraMemoryDocument content = false ∧
    jsLength content.title ≤ Knowledge.kbDocumentTitleMaxLength)
    ⟨fun h ↦ ⟨h.1, h.2.1, h.2.2⟩, fun h ↦ ⟨h.title, h.own, h.length⟩⟩

/-- The new document is not read back as it was made. -/
def strays : Stage → (w : Write) → Value w → Bool
  | .created _, .readDocument _ _, none => true
  | .created _, .readDocument _ _, some doc => doc.isReadOnly || ¬ doc.content.Publishable
  | _, _, _ => false

def turn : Phase → (w : Write) → Reply w → Phase
  | .idle, .lock, .ok true => .holding .locked
  | .holding _, .unlock, _ => .idle
  | .holding stage, w, .ok value =>
      if strays stage w value = true then .astray else .holding (stage.next w value)
  | .holding stage, _, .error _ => if stage.unrecorded = true then .astray else .holding stage
  | phase, _, _ => phase

/-- A statement of an approval that has the lock. -/
def Write.underLock : Write → Bool
  | .reach locked => locked
  | .lock | .deleteDocument _ | .restoreDocument _ => false
  | .readDocument author _ | .updateDocument author _ _ => author.locked
  | _ => true

section Phases

variable [Sha256]

/-- What an approval may ask for at each stage. -/
def Fits (stage : Stage) : Write → Prop
  | .reach true => True
  | .findFolder | .insertFolder | .readFolder _ => stage.unrecorded = false
  | .readWritten _ => stage = .locked
  | .refuse documentId => stage = .refusing documentId
  | .readDocument (.approval replaceEdits) documentId =>
      stage = .checked documentId replaceEdits ∨ stage = .created documentId
  | .updateDocument (.approval replaceEdits) documentId _ =>
      stage = .found documentId replaceEdits ∨ stage = .created documentId
  | .insertDocument content _ _ => stage = .missing ∧ content.Publishable
  | .readStored documentId => stage = .wrote documentId
  | .record documentId contentHash => ∃ contentText, stage = .readBack documentId contentText ∧
      contentHash = Sha256.hex (contentText.getD "")
  | .unlock => stage.unrecorded = false
  | _ => False

def Legal : Phase → Write → Prop
  | .idle, w => w.underLock = false
  | .holding stage, w => Fits stage w
  | .astray, _ => True

/-! ### What each call asks for -/

abbrev Holding {α : Type} (Q : α → Phase → Prop) (E : Failure → Phase → Prop) (t : Phase)
    (p : Procedure α) : Prop := Passes turn Legal Q E t p

/-- The lock can be given back. -/
def Settled : Phase → Prop
  | .idle => False
  | .holding stage => stage.unrecorded = false
  | .astray => True

end Phases

section Calls

variable [Sha256] {t : Phase} {stage : Stage} {caller : Member} {replaceEdits : Bool} {id : ℕ}

omit [Sha256] in
theorem turn_astray (w : Write) (r : Reply w) : turn .astray w r = .astray := by
  cases r with
  | error e => rfl
  | ok value => cases w <;> rfl

theorem holding_astray {α : Type} {Q : α → Phase → Prop} {E : Failure → Phase → Prop}
    {p : Procedure α} (hQ : ∀ a, Q a .astray) (hE : ∀ e, E e .astray) : Holding Q E .astray p :=
  passes_anything (fun _ ↦ trivial) turn_astray hQ hE

theorem holding_must {w : Write} {Q : Value w → Phase → Prop} {E : Failure → Phase → Prop}
    (hw : Legal t w) (hok : ∀ value, Q value (turn t w (.ok value)))
    (herror : ∀ e, E unreachable (turn t w (.error e))) : Holding Q E t (must w) := by
  unfold must
  refine passes_issue_seq hw fun r ↦ ?_
  cases r with
  | ok value => exact passes_pure (hok value)
  | error e => exact passes_fail (herror e)

/-- The lock can be given back, and a document that was not found is not there. -/
def Halfway (e : Failure) (t : Phase) : Prop :=
  Settled t ∧ (isNotFound e = true → t = .holding .missing)

/-- A statement under the lock that takes an approval nowhere. -/
theorem holding_reach (hstage : stage.unrecorded = false) :
    Holding (fun _ t ↦ t = .holding stage) (fun e t ↦ t = .holding stage ∧ e = unreachable)
      (.holding stage) (must (.reach true)) := by
  have hnext : ∀ value, turn (.holding stage) (.reach true) (.ok value) = .holding stage := by
    intro value
    cases stage <;> rfl
  have herror : ∀ e, turn (.holding stage) (.reach true) (.error e) = .holding stage := by
    intro e
    simp only [turn, hstage]
    rfl
  exact holding_must trivial hnext fun e ↦ ⟨herror e, rfl⟩

omit [Sha256] in
theorem isNotFound_mutateAccess {ownerId : ℕ} {e : Failure}
    (h : kbRequireMutateAccess caller ownerId = .error e) : isNotFound e = false := by
  unfold kbRequireMutateAccess at h
  split at h
  · cases h
  · obtain rfl := Except.error.inj h
    rfl

omit [Sha256] in
theorem isNotFound_payloadSize {bytes : ℕ} {e : Failure}
    (h : Knowledge.assertKnowledgeDocumentPayloadSize bytes = .error e) : isNotFound e = false := by
  unfold Knowledge.assertKnowledgeDocumentPayloadSize at h
  split at h
  · obtain rfl := Except.error.inj h
    rfl
  · cases h

omit [Sha256] in
/-- No check of an update says that the document is not there. -/
theorem isNotFound_nextColumns {doc : Document} {body : Body} {e : Failure}
    (h : nextColumns doc body = .error e) : isNotFound e = false := by
  unfold nextColumns at h
  dsimp only at h
  split at h
  · obtain rfl := Except.error.inj h
    rfl
  split at h
  · obtain rfl := Except.error.inj h
    rfl
  split at h
  · obtain rfl := Except.error.inj h
    rfl
  split at h
  · obtain rfl := Except.error.inj h
    rfl
  split at h
  · obtain rfl := Except.error.inj h
    rfl
  split at h
  · obtain rfl := Except.error.inj h
    rfl
  rcases except_bind_eq_error.mp h with hsize | ⟨_, -, h⟩
  · exact isNotFound_payloadSize hsize
  · cases h

/-- The document of an earlier approval is updated, or is not there. -/
theorem holding_update {body : Body} :
    Holding (fun _ t ↦ t = .holding (.wrote id)) Halfway (.holding (.checked id replaceEdits))
      (updateKnowledgeDocument (.approval replaceEdits) caller id body) := by
  have hfound : Holding (fun _ t ↦ t = .holding (.found id replaceEdits)) Halfway
      (.holding (.checked id replaceEdits)) (kbDocument (.approval replaceEdits) id) := by
    unfold kbDocument
    refine passes_seq (P := fun found t ↦ t = match found with
      | none => .holding .missing
      | some _ => .holding (.found id replaceEdits)) ?_ fun found t ht ↦ ?_
    · refine holding_must (.inl rfl) (fun value ↦ ?_) fun e ↦ ⟨rfl, nofun⟩
      cases value with
      | none => rfl
      | some doc => rfl
    · cases found with
      | none => exact passes_fail ⟨ht ▸ rfl, fun _ ↦ ht⟩
      | some doc => exact passes_pure ht
  have hreach : Holding (fun _ t ↦ t = .holding (.found id replaceEdits)) Halfway
      (.holding (.found id replaceEdits)) (must (.reach true)) := by
    refine (holding_reach rfl).mono (fun _ _ h ↦ h) ?_
    rintro e t ⟨rfl, rfl⟩
    exact ⟨rfl, nofun⟩
  unfold updateKnowledgeDocument
  refine passes_seq hfound ?_
  rintro doc t rfl
  refine passes_seq hreach ?_
  rintro _ t rfl
  -- the checks refuse, but never as if the document were gone
  refine passes_ofExcept_seq (fun e he ↦ ⟨rfl, fun h ↦ ?_⟩) fun _ _ ↦ ?_
  · rw [isNotFound_mutateAccess he] at h
    cases h
  refine passes_ofExcept_seq (fun e he ↦ ⟨rfl, fun h ↦ ?_⟩) fun update _ ↦ ?_
  · rw [isNotFound_nextColumns he] at h
    cases h
  have hwrite : Holding (fun _ t ↦ t = .holding (.wrote id)) Halfway
      (.holding (.found id replaceEdits))
      (must (.updateDocument (.approval replaceEdits) id update)) :=
    holding_must (t := .holding (.found id replaceEdits))
      (w := .updateDocument (.approval replaceEdits) id update) (.inl rfl) (fun _ ↦ rfl)
      fun _ ↦ ⟨rfl, nofun⟩
  dsimp only
  split
  · have hsnapshot : Holding (fun _ t ↦ t = .holding (.found id replaceEdits)) Halfway
        (.holding (.found id replaceEdits)) (snapshot (.approval replaceEdits)) := by
      refine passes_seq hreach ?_
      rintro _ t rfl
      exact hreach
    refine passes_seq hsnapshot ?_
    rintro _ t rfl
    exact hwrite
  · exact hwrite

omit [Sha256] in
/-- A new document passes the checks of the update that publishes it. -/
theorem nextColumns_published {doc : Document} (hreadOnly : doc.isReadOnly = false)
    (hcontent : doc.content.Publishable) : ∃ update, nextColumns doc published = .ok update := by
  have hover : (published.over doc.content).title = doc.content.title := rfl
  have hzyra : doc.content.title ≠ Knowledge.zyraMemoryDocTitle ∨
      (published.over doc.content).title = doc.content.title := .inr rfl
  refine ⟨⟨published.over doc.content, none, nextStatus doc published⟩, ?_⟩
  unfold nextColumns
  dsimp only
  rw [if_neg (by rw [hreadOnly]; exact Bool.false_ne_true), hcontent.own, hover,
    if_neg (fun h ↦ Bool.false_ne_true h.1), if_neg (fun h ↦ Bool.false_ne_true h.1),
    if_neg (fun h ↦ h.2.2 rfl), if_neg (fun h ↦ hcontent.title h.1),
    if_neg (Nat.not_lt.mpr hcontent.length)]
  rfl

/-- A document that has been made is published, unless a statement fails. -/
theorem holding_publish (hrole : caller.role ≠ .qaEngineer) :
    Holding (fun _ t ↦ t = .holding (.wrote id) ∨ t = .astray) (fun _ t ↦ t = .astray)
      (.holding (.created id))
      (updateKnowledgeDocument (.approval replaceEdits) caller id published) := by
  have hfound : Holding (fun doc t ↦ t = .astray ∨ t = .holding (.created id) ∧
      doc.isReadOnly = false ∧ doc.content.Publishable) (fun _ t ↦ t = .astray)
      (.holding (.created id)) (kbDocument (.approval replaceEdits) id) := by
    unfold kbDocument
    refine passes_seq (P := fun found t ↦ t = .astray ∨ ∃ doc, found = some doc ∧
      t = .holding (.created id) ∧ doc.isReadOnly = false ∧ doc.content.Publishable) ?_ ?_
    · refine holding_must (t := .holding (.created id))
        (w := .readDocument (.approval replaceEdits) id) (.inr rfl) (fun value ↦ ?_) fun _ ↦ rfl
      cases value with
      | none => exact .inl rfl
      | some doc =>
          simp only [turn]
          split
          · exact .inl rfl
          · rename_i hdoc
            simp only [strays, Bool.or_eq_true, decide_eq_true_eq, not_or, not_not,
              Bool.not_eq_true] at hdoc
            exact .inr ⟨doc, rfl, rfl, hdoc.1, hdoc.2⟩
    · rintro found t (rfl | ⟨doc, rfl, rfl, hdoc⟩)
      · exact holding_astray (fun doc ↦ Or.inl rfl) fun _ ↦ rfl
      · exact passes_pure (.inr ⟨rfl, hdoc⟩)
  have hreach : Holding (fun _ t ↦ t = .holding (.created id) ∨ t = .astray) (fun _ t ↦ t = .astray)
      (.holding (.created id)) (must (.reach true)) :=
    holding_must trivial (fun _ ↦ .inl rfl) fun _ ↦ rfl
  unfold updateKnowledgeDocument
  refine passes_seq hfound ?_
  rintro doc t (rfl | ⟨rfl, hreadOnly, hcontent⟩)
  -- from here on only a statement that fails can keep the document from being published
  · exact holding_astray (fun _ ↦ .inr rfl) fun _ ↦ rfl
  refine passes_seq hreach ?_
  rintro _ t (rfl | rfl)
  swap
  · exact holding_astray (fun _ ↦ .inr rfl) fun _ ↦ rfl
  have haccess : kbRequireMutateAccess caller doc.createdBy = .ok () := by
    unfold kbRequireMutateAccess
    refine if_pos ?_
    cases hr : caller.role with
    | owner => exact .inl rfl
    | manager => exact .inr (.inl rfl)
    | qaEngineer => exact absurd hr hrole
  obtain ⟨update, hupdate⟩ := nextColumns_published hreadOnly hcontent
  rw [haccess, hupdate]
  have hwrite : ∀ t, t = .holding (.created id) ∨ t = .astray →
      Holding (fun _ t ↦ t = .holding (.wrote id) ∨ t = .astray) (fun _ t ↦ t = .astray) t
        (must (.updateDocument (.approval replaceEdits) id update)) := by
    rintro t (rfl | rfl)
    · exact holding_must (t := .holding (.created id))
        (w := .updateDocument (.approval replaceEdits) id update) (.inr rfl) (fun _ ↦ .inl rfl)
        fun _ ↦ rfl
    · exact holding_astray (fun _ ↦ .inr rfl) fun _ ↦ rfl
  change Holding _ _ _ (if contentChanged doc.content update.content then _ else _)
  split
  · have hsnapshot : Holding (fun _ t ↦ t = .holding (.created id) ∨ t = .astray)
        (fun _ t ↦ t = .astray) (.holding (.created id)) (snapshot (.approval replaceEdits)) := by
      refine passes_seq hreach ?_
      rintro _ t (rfl | rfl)
      · exact hreach
      · exact holding_astray (fun _ ↦ .inr rfl) fun _ ↦ rfl
    exact passes_seq hsnapshot fun _ t ht ↦ hwrite t ht
  · exact hwrite _ (.inl rfl)

omit [Sha256] in
theorem publishable_newContent {product : Product} {content : Content}
    (h : newContent product = .ok content) : content.Publishable := by
  have htrim : jsTrim (jsTrim product.title) = jsTrim product.title :=
    jsTrim_eq (trimmed_jsTrim product.title)
  unfold newContent at h
  dsimp only at h
  split at h
  · cases h
  rename_i htitle
  split at h
  · cases h
  rename_i hzyra
  split at h
  · cases h
  rename_i hlength
  obtain ⟨_, -, h⟩ := except_bind_eq_ok.mp h
  obtain rfl := Except.ok.inj h
  refine ⟨htitle, ?_, Nat.not_lt.mp hlength⟩
  unfold isZyraMemoryDocument
  rw [htrim]
  exact decide_eq_false hzyra

theorem holding_create {folderId : ℕ} {product : Product} :
    Holding (fun id t ↦ t = .holding (.created id)) (fun _ t ↦ Settled t) (.holding .missing)
      (createKnowledgeDocument caller folderId product) := by
  unfold createKnowledgeDocument
  refine passes_ofExcept_seq (fun _ _ ↦ rfl) fun content hcontent ↦ ?_
  refine passes_seq (P := fun _ t ↦ t = .holding .missing) ?_ ?_
  · exact holding_must (t := .holding .missing) (w := .readFolder folderId) rfl (fun _ ↦ rfl)
      fun _ ↦ rfl
  rintro hit t rfl
  refine passes_require_seq (fun _ ↦ rfl) fun _ ↦ ?_
  exact holding_must (t := .holding .missing) (w := .insertDocument content folderId caller.userId)
    ⟨rfl, publishable_newContent hcontent⟩ (fun _ ↦ rfl) fun _ ↦ rfl

theorem holding_createPublished {folderId : ℕ} {product : Product}
    (hrole : caller.role ≠ .qaEngineer) :
    Holding (fun id t ↦ t = .holding (.wrote id) ∨ t = .astray) (fun _ t ↦ Settled t)
      (.holding .missing) (createPublished replaceEdits caller folderId product) := by
  unfold createPublished
  refine passes_seq holding_create ?_
  rintro id t rfl
  refine passes_seq ((holding_publish hrole).mono (fun _ _ h ↦ h) ?_) fun _ t ht ↦ passes_pure ht
  rintro _ t rfl
  exact trivial

theorem holding_updateExisting {product : Product} {existingId : Option ℕ}
    (ht : t = match existingId with
      | none => .holding .missing
      | some id => .holding (.checked id replaceEdits)) :
    Holding (fun updated t ↦ match updated with
      | none => t = .holding .missing
      | some id => t = .holding (.wrote id)) (fun _ t ↦ Settled t) t
      (updateExisting replaceEdits caller product existingId) := by
  cases existingId with
  | none => exact passes_pure ht
  | some id =>
      obtain rfl : t = _ := ht
      refine passes_attempt_seq holding_update (fun _ t ht ↦ passes_pure ht) fun e t he ↦ ?_
      dsimp only
      split
      · rename_i hnotFound
        exact passes_pure (he.2 hnotFound)
      · exact passes_fail he.1

/-- The document is there and its hash is stored, or nothing has been written. -/
theorem holding_writeDocument {folderId : ℕ} {product : Product} {existingId : Option ℕ}
    (hrole : caller.role ≠ .qaEngineer) (ht : t = match existingId with
      | none => .holding .missing
      | some id => .holding (.checked id replaceEdits)) :
    Holding (fun _ t ↦ t = .holding .recorded ∨ t = .astray) (fun _ t ↦ Settled t) t
      (writeDocument replaceEdits caller folderId existingId product) := by
  unfold writeDocument
  refine passes_seq (holding_updateExisting ht) fun updated t₁ h₁ ↦ ?_
  have hdocument : Holding (fun id t ↦ t = .holding (.wrote id) ∨ t = .astray)
      (fun _ t ↦ Settled t) t₁ (match updated with
        | some id => pure id
        | none => createPublished replaceEdits caller folderId product) := by
    cases updated with
    | none =>
        obtain rfl : t₁ = _ := h₁
        exact holding_createPublished hrole
    | some id => exact passes_pure (.inl h₁)
  have hrest : ∀ id t, t = .holding (.wrote id) ∨ t = .astray →
      Holding (fun (_ : ℕ) t ↦ t = .holding .recorded ∨ t = .astray) (fun _ t ↦ Settled t) t (do
        let stored ← must (.readStored id)
        must (.record id (Sha256.hex (stored.getD "")))
        pure id) := by
    rintro id t (rfl | rfl)
    swap
    · exact holding_astray (fun _ ↦ .inr rfl) fun _ ↦ trivial
    refine passes_seq (P := fun stored t ↦ t = .holding (.readBack id stored)) ?_ ?_
    · exact holding_must (t := .holding (.wrote id)) (w := .readStored id) rfl (fun _ ↦ rfl)
        fun _ ↦ trivial
    rintro stored t rfl
    refine passes_seq (P := fun _ t ↦ t = .holding .recorded) ?_ fun _ t ht ↦ passes_pure (.inl ht)
    exact holding_must (t := .holding (.readBack id stored))
      (w := .record id (Sha256.hex (stored.getD ""))) ⟨stored, rfl, rfl⟩ (fun _ ↦ rfl)
      fun _ ↦ trivial
  cases updated with
  | none => exact passes_seq hdocument hrest
  | some id => exact hrest id t₁ (.inl h₁)

/-- Folders are looked up and made with nothing written. -/
theorem holding_folder (hstage : stage.unrecorded = false) :
    Holding (fun _ t ↦ t = .holding stage) (fun _ t ↦ t = .holding stage) (.holding stage)
      folder := by
  have hstays : ∀ w, (w = .reach true ∨ w = .findFolder ∨ w = .insertFolder) →
      Holding (fun _ t ↦ t = .holding stage) (fun _ t ↦ t = .holding stage) (.holding stage)
        (must w) := by
    intro w hw
    have hlegal : Legal (.holding stage) w := by
      rcases hw with rfl | rfl | rfl
      · exact trivial
      · exact hstage
      · exact hstage
    rcases hw with rfl | rfl | rfl
    all_goals
      refine holding_must hlegal (fun value ↦ ?_) fun e ↦ ?_
      · cases stage <;> rfl
      · simp only [turn, hstage]
        rfl
  have hcreate : Holding (fun _ t ↦ t = .holding stage) (fun _ t ↦ t = .holding stage)
      (.holding stage) createKnowledgeFolder := by
    unfold createKnowledgeFolder
    refine passes_seq (hstays (.reach true) (.inl rfl)) ?_
    rintro _ t rfl
    refine passes_seq (hstays .insertFolder (.inr (.inr rfl))) ?_
    rintro inserted t rfl
    cases inserted with
    | none => exact passes_fail rfl
    | some folderId => exact passes_pure rfl
  unfold folder
  refine passes_seq (hstays .findFolder (.inr (.inl rfl))) ?_
  rintro found t rfl
  cases found with
  | some folderId => exact passes_pure rfl
  | none =>
      refine passes_attempt_seq hcreate (fun _ t ht ↦ passes_pure ht) ?_
      rintro e t rfl
      refine passes_seq (hstays .findFolder (.inr (.inl rfl))) ?_
      rintro again t rfl
      cases again with
      | some folderId => exact passes_pure rfl
      | none => exact passes_fail rfl

theorem holding_approveLocked {product : Product} (hrole : caller.role ≠ .qaEngineer) :
    Holding (fun _ t ↦ Settled t) (fun _ t ↦ Settled t) (.holding .locked)
      (approveLocked caller replaceEdits product) := by
  have hsettled : ∀ {stage : Stage}, stage.unrecorded = false →
      Holding (fun _ t ↦ t = .holding stage) (fun _ t ↦ Settled t) (.holding stage)
        (must (.reach true)) := by
    intro stage hstage
    refine (holding_reach hstage).mono (fun _ _ h ↦ h) ?_
    rintro e t ⟨rfl, -⟩
    exact hstage
  unfold approveLocked
  refine passes_seq (hsettled rfl) ?_
  rintro _ t rfl
  refine passes_require_seq (fun _ ↦ rfl) fun _ ↦ ?_
  refine passes_seq (P := fun written t ↦ t = .holding (Stage.next .locked
    (.readWritten replaceEdits) written)) ?_ ?_
  · exact holding_must (t := .holding .locked) (w := .readWritten replaceEdits) rfl (fun _ ↦ rfl)
      fun _ ↦ rfl
  rintro written t rfl
  have happroves : ∀ t, (t = match written.map Written.documentId with
      | none => .holding .missing
      | some id => .holding (.checked id replaceEdits)) →
      Holding (fun (_ : Approved) t ↦ Settled t) (fun _ t ↦ Settled t) t (do
        let folderId ← folder
        let documentId ← writeDocument replaceEdits caller folderId
          (written.map Written.documentId) product
        must (.reach true)
        must (.reach true)
        must (.reach true)
        pure ⟨documentId, product.title, product.itemCount⟩) := by
    intro t ht
    obtain ⟨stage, rfl, hstage⟩ : ∃ stage, t = .holding stage ∧ stage.unrecorded = false := by
      cases written with
      | none => exact ⟨.missing, ht, rfl⟩
      | some written => exact ⟨.checked written.documentId replaceEdits, ht, rfl⟩
    refine passes_seq ((holding_folder hstage).mono (fun _ _ h ↦ h) ?_) ?_
    · rintro _ t rfl
      exact hstage
    rintro folderId t rfl
    refine passes_seq (holding_writeDocument hrole ht) ?_
    rintro documentId t (rfl | rfl)
    swap
    · exact holding_astray (fun _ ↦ trivial) fun _ ↦ trivial
    refine passes_seq (hsettled rfl) ?_
    rintro _ t rfl
    refine passes_seq (hsettled rfl) ?_
    rintro _ t rfl
    refine passes_seq (hsettled rfl) ?_
    rintro _ t rfl
    exact passes_pure rfl
  cases written with
  | none => exact happroves _ rfl
  | some written =>
      by_cases hedited : written.edited = true ∧ replaceEdits = false
      · have hfilter : (some written).filter (fun written ↦
            written.edited = true ∧ replaceEdits = false) = some written :=
          Option.filter_eq_some_iff.mpr ⟨rfl, decide_eq_true hedited⟩
        rw [hfilter]
        simp only [Stage.next, if_pos hedited]
        refine passes_issue_seq rfl fun r ↦ passes_fail ?_
        cases r with
        | ok _ => exact rfl
        | error _ => exact rfl
      · have hfilter : (some written).filter (fun written ↦
            written.edited = true ∧ replaceEdits = false) = none := by
          simp only [Option.filter_some, decide_eq_true_eq, if_neg hedited]
        rw [hfilter]
        simp only [Stage.next, if_neg hedited]
        exact happroves _ rfl

theorem holding_acquire (looks : ℕ) :
    Holding (fun _ t ↦ t = .holding .locked) (fun _ _ ↦ True) .idle (acquire looks) := by
  induction looks with
  | zero => exact passes_fail trivial
  | succ looks ih =>
      refine passes_seq (P := fun taken t ↦ t = if taken then .holding .locked else .idle) ?_ ?_
      · refine holding_must (t := .idle) (w := .lock) rfl (fun taken ↦ ?_) fun _ ↦ trivial
        cases taken with
        | true => rfl
        | false => rfl
      · rintro taken t rfl
        cases taken with
        | true => exact passes_pure rfl
        | false => exact ih

abbrev Asking {α : Type} (p : Procedure α) : Prop :=
  Holding (fun _ _ ↦ True) (fun _ _ ↦ True) .idle p

/-- However the transaction ends, the lock is let go. -/
theorem holding_unlock (outcome : Except Failure Approved) {t : Phase} (ht : Settled t) :
    Holding (fun (_ : Approved) _ ↦ True) (fun _ _ ↦ True) t (do
      let ended ← ask .unlock
      match outcome with
      | .error e => fail e
      | .ok approved => do
          ofExcept ended
          pure approved) := by
  cases t with
  | idle => exact ht.elim
  | astray => exact holding_astray (fun _ ↦ trivial) fun _ ↦ trivial
  | holding stage =>
      refine passes_issue_seq ht fun r ↦ ?_
      cases outcome with
      | error e => exact passes_fail trivial
      | ok approved =>
          exact passes_ofExcept_seq (fun _ _ ↦ trivial) fun _ _ ↦ passes_pure trivial

theorem asking_approve {looks : ℕ} {scan : Option String} {product : Product} :
    Asking (approve caller looks scan replaceEdits product) := by
  unfold approve
  refine passes_seq (P := fun _ t ↦ t = .idle) ?_ ?_
  · exact holding_must (t := .idle) (w := .reach false) rfl (fun _ ↦ rfl) fun _ ↦ trivial
  rintro _ t rfl
  refine passes_require_seq (fun _ ↦ trivial) fun hrole ↦ ?_
  refine passes_ofExcept_seq (fun _ _ ↦ trivial) fun _ _ ↦ ?_
  refine passes_seq (holding_acquire looks) ?_
  rintro _ t rfl
  exact passes_attempt_seq (holding_approveLocked hrole) (fun a _ ht ↦ holding_unlock (.ok a) ht)
    fun e _ ht ↦ holding_unlock (.error e) ht

/-- A statement without the lock. -/
theorem asking_must {w : Write} (hw : w.underLock = false) (hlock : ∀ r, turn .idle w r = .idle) :
    Holding (fun _ t ↦ t = .idle) (fun _ _ ↦ True) .idle (must w) :=
  holding_must (t := .idle) hw (fun value ↦ hlock (.ok value)) fun _ ↦ trivial

theorem asking_reach :
    Holding (fun _ t ↦ t = .idle) (fun _ _ ↦ True) .idle (must (.reach false)) := by
  refine asking_must rfl fun r ↦ ?_
  cases r with
  | error e => rfl
  | ok value => rfl

theorem asking_kbDocument :
    Holding (fun _ t ↦ t = .idle) (fun _ _ ↦ True) .idle (kbDocument .person id) := by
  unfold kbDocument
  refine passes_seq (asking_must (w := .readDocument .person id) rfl fun r ↦ ?_) ?_
  · cases r with
    | error e => rfl
    | ok value => rfl
  rintro found t rfl
  cases found with
  | none => exact passes_fail trivial
  | some doc => exact passes_pure rfl

theorem asking_update {body : Body} :
    Asking (updateKnowledgeDocument .person caller id body) := by
  unfold updateKnowledgeDocument
  refine passes_seq asking_kbDocument ?_
  rintro doc t rfl
  refine passes_seq asking_reach ?_
  rintro _ t rfl
  refine passes_ofExcept_seq (fun _ _ ↦ trivial) fun _ _ ↦ ?_
  refine passes_ofExcept_seq (fun _ _ ↦ trivial) fun update _ ↦ ?_
  have hwrite : Asking (must (.updateDocument .person id update)) :=
    holding_must (t := .idle) (w := .updateDocument .person id update) rfl (fun _ ↦ trivial)
      fun _ ↦ trivial
  dsimp only
  split
  · have hsnapshot : Holding (fun _ t ↦ t = .idle) (fun _ _ ↦ True) .idle (snapshot .person) := by
      refine passes_seq asking_reach ?_
      rintro _ t rfl
      exact asking_reach
    refine passes_seq hsnapshot ?_
    rintro _ t rfl
    exact hwrite
  · exact hwrite

theorem asking_delete : Asking (deleteKnowledgeDocument caller id) := by
  unfold deleteKnowledgeDocument
  refine passes_seq asking_kbDocument ?_
  rintro doc t rfl
  refine passes_seq asking_reach ?_
  rintro _ t rfl
  refine passes_ofExcept_seq (fun _ _ ↦ trivial) fun _ _ ↦ ?_
  refine passes_require_seq (fun _ ↦ trivial) fun _ ↦ ?_
  exact holding_must (t := .idle) (w := .deleteDocument id) rfl (fun _ ↦ trivial) fun _ ↦ trivial

theorem asking_restore : Asking (restoreKnowledgeDocument caller id) := by
  unfold restoreKnowledgeDocument
  refine passes_seq asking_reach ?_
  rintro _ t rfl
  refine passes_ofExcept_seq (fun _ _ ↦ trivial) fun _ _ ↦ ?_
  refine passes_seq (P := fun _ t ↦ t = .idle) ?_ ?_
  · refine asking_must (w := .restoreDocument id) rfl fun r ↦ ?_
    cases r with
    | error e => rfl
    | ok value => rfl
  rintro hit t rfl
  unfold require
  split
  · exact passes_pure trivial
  · exact passes_fail trivial

theorem asking_enter (call : Call) : Asking (enter call) := by
  have haccess : ∀ {α : Type} {p : Procedure α}, Asking p → Asking (withAccess p) := by
    intro α p hp
    unfold withAccess
    refine passes_seq asking_reach ?_
    rintro _ t rfl
    exact passes_seq hp fun _ _ _ ↦ passes_pure trivial
  cases call with
  | approve caller looks scan replaceEdits product => exact haccess asking_approve
  | update caller documentId body => exact haccess asking_update
  | delete caller documentId => exact haccess asking_delete
  | restore caller documentId => exact haccess asking_restore

end Calls

/-! ## The invariant -/

/-- What an approval knows of the document it is at. -/
def Stage.Asserts : Stage → Document → Prop
  | .refusing _, d => d.changed ≠ []
  | .checked _ replaceEdits, d => replaceEdits = false → d.isDeleted = false → d.changed = []
  | .found _ replaceEdits, d => replaceEdits = false → d.changed = []
  | .created _, d => d.changed = [] ∧ d.isReadOnly = false ∧ d.content.Publishable
  | .wrote _, d => d.changed = []
  | _, _ => True

/-- The hash that is expected is of what was written last. -/
def Stage.tells : Stage → Bool
  | .created _ | .wrote _ => false
  | _ => true

section Invariant

variable [Sha256]

/-- A person has changed the document when its text is not the one of the hash, and only then. -/
def Tells (contentHash : Option String) (d : Document) : Prop :=
  ∃ hash, contentHash = some hash ∧ hash ≠ "" ∧ (d.changed = [] ↔ textHash d.content = hash)

structure Marked (s : Data) (d : Document) : Prop where
  product : d.product = true
  asserts : ∀ stage, s.lock = some stage → stage.Asserts d
  tells : (∀ stage, s.lock = some stage → stage.tells = true) → Tells (expectedHash s) d

structure Sound (s : Data) : Prop where
  fresh : ∀ id, s.nextId ≤ id → s.documents id = none
  current : ∀ id, currentId s = some id → ∃ d, s.documents id = some d ∧ Marked s d
  recorded : ∀ stage id, s.lock = some stage → stage.unrecorded = false →
    stage.documentId = some id → s.kb.map KbDocument.documentId = some id
  missing : s.lock = some .missing → ∀ id d, s.documents id = some d → d.product = true →
    d.isDeleted = true
  alone : ∀ id d, s.documents id = some d → d.product = true → d.isDeleted = false →
    currentId s = some id
  spares : ∀ w ∈ s.overwrites, w.Spares
  blames : ∀ changed ∈ s.refused, changed ≠ []

variable {s : Data} {id : ℕ} {d : Document} {stage : Stage}

theorem Sound.next (h : Sound s) : Sound s.next :=
  ⟨h.fresh, fun id hid ↦ by
    obtain ⟨d, hd, hmarked⟩ := h.current id hid
    exact ⟨d, hd, hmarked.product, hmarked.asserts, hmarked.tells⟩,
    h.recorded, h.missing, h.alone, h.spares, h.blames⟩

omit [Sha256] in
theorem Stage.asserts_of_nowhere (h : stage.documentId = none) : stage.Asserts d := by
  cases stage with
  | locked => exact trivial
  | missing => exact trivial
  | recorded => exact trivial
  | _ => cases h

omit [Sha256] in
theorem Stage.tells_of_recorded (h : stage.unrecorded = false) : stage.tells = true := by
  cases stage with
  | created _ => cases h
  | wrote _ => cases h
  | _ => rfl

/-- No document is written and not recorded. -/
def Plain (lock : Option Stage) : Prop := ∀ stage, lock = some stage → stage.unrecorded = false

omit [Sha256] in
/-- The product's document is the one that is recorded. -/
theorem currentId_recorded
    (hat : ∀ stage id, s.lock = some stage → stage.documentId = some id →
      s.kb.map KbDocument.documentId = some id) :
    currentId s = s.kb.map KbDocument.documentId := by
  unfold currentId
  cases hlock : s.lock with
  | none => rfl
  | some stage =>
      cases hid : stage.documentId with
      | none => simp only [Option.bind_some, hid, Option.none_or]
      | some id =>
          simp only [Option.bind_some, hid, Option.some_or]
          exact (hat stage id hlock hid).symm

theorem expectedHash_plain (hplain : Plain s.lock) :
    expectedHash s = s.kb.bind KbDocument.contentHash := by
  unfold expectedHash
  split
  · rename_i id contentText hlock
    cases hplain _ hlock
  · rfl

/-- The lock is taken, given back or moves on, with nothing written. -/
theorem Sound.restage (h : Sound s) (hplain : Plain s.lock) {lock : Option Stage}
    (hplain' : Plain lock)
    (hat : ∀ stage id, lock = some stage → stage.documentId = some id →
      s.kb.map KbDocument.documentId = some id)
    (hasserts : ∀ stage id d, lock = some stage → stage.documentId = some id →
      s.documents id = some d → Marked s d → stage.Asserts d)
    (hmissing : lock = some .missing → ∀ id d, s.documents id = some d → d.product = true →
      d.isDeleted = true) : Sound { s with lock := lock } := by
  have hbefore : currentId s = s.kb.map KbDocument.documentId :=
    currentId_recorded fun stage id hlock hid ↦ h.recorded stage id hlock (hplain stage hlock) hid
  have hafter : currentId { s with lock := lock } = s.kb.map KbDocument.documentId :=
    currentId_recorded (s := { s with lock := lock }) hat
  have hexpected : expectedHash { s with lock := lock } = expectedHash s := by
    rw [expectedHash_plain (s := { s with lock := lock }) hplain', expectedHash_plain hplain]
  refine ⟨h.fresh, fun id hid ↦ ?_, fun stage id hlock _ hid ↦ hat stage id hlock hid, hmissing, ?_,
    h.spares, h.blames⟩
  · rw [hafter, ← hbefore] at hid
    obtain ⟨d, hd, hmarked⟩ := h.current id hid
    refine ⟨d, hd, hmarked.product, fun stage hlock ↦ ?_, fun _ ↦ ?_⟩
    · cases hstage : stage.documentId with
      | none => exact Stage.asserts_of_nowhere hstage
      | some id' =>
          have hsame : some id = some id' := by
            rw [← hid, hbefore, hat stage id' hlock hstage]
          obtain rfl := Option.some.inj hsame
          exact hasserts stage id d hlock hstage hd hmarked
    · rw [hexpected]
      exact hmarked.tells fun stage hlock ↦ Stage.tells_of_recorded (hplain stage hlock)
  · intro id d hd hproduct hlive
    rw [hafter, ← hbefore]
    exact h.alone id d hd hproduct hlive

/-- A document is changed by a person. -/
theorem Sound.setDocument (h : Sound s) (hd : s.documents id = some d) {d' : Document}
    (hproduct : d'.product = d.product)
    (hmarked : currentId s = some id → Marked s d → Marked s d')
    (hlive : d'.product = true → d'.isDeleted = false → d.isDeleted = true →
      currentId s = some id ∧ s.lock ≠ some .missing) :
    Sound { s with documents := Function.update s.documents id (some d') } := by
  refine ⟨fun j hj ↦ ?_, fun j hj ↦ ?_, h.recorded, fun hmissing j e he hproduct' ↦ ?_,
    fun j e he hproduct' hlive' ↦ ?_, h.spares, h.blames⟩
  · have hne : j ≠ id := by
      rintro rfl
      rw [h.fresh j hj] at hd
      cases hd
    simp only [Function.update_of_ne hne]
    exact h.fresh j hj
  · obtain ⟨e, he, hmark⟩ := h.current j hj
    by_cases hji : j = id
    · subst hji
      obtain rfl := Option.some.inj (he.symm.trans hd)
      have hmark' := hmarked hj hmark
      exact ⟨d', by simp only [Function.update_self], hmark'.product, hmark'.asserts, hmark'.tells⟩
    · refine ⟨e, ?_, hmark.product, hmark.asserts, hmark.tells⟩
      simp only [Function.update_of_ne hji]
      exact he
  · by_cases hji : j = id
    · subst hji
      simp only [Function.update_self, Option.some.injEq] at he
      subst he
      cases hdeleted : d'.isDeleted with
      | true => rfl
      | false =>
          have hold := h.missing hmissing j d hd (hproduct ▸ hproduct')
          exact absurd hmissing (hlive hproduct' hdeleted hold).2
    · simp only [Function.update_of_ne hji] at he
      exact h.missing hmissing j e he hproduct'
  · by_cases hji : j = id
    · subst hji
      simp only [Function.update_self, Option.some.injEq] at he
      subst he
      cases hdeleted : d.isDeleted with
      | true => exact (hlive hproduct' hlive' hdeleted).1
      | false => exact h.alone j d hd (hproduct ▸ hproduct') hdeleted
    · simp only [Function.update_of_ne hji] at he
      exact h.alone j e he hproduct' hlive'

/-- An approval updates the document it is at. -/
theorem Sound.writes (h : Sound s) (hlock : s.lock = some stage) (hid : stage.documentId = some id)
    (hd : s.documents id = some d) {d' : Document} (hproduct : d'.product = d.product)
    (hdeleted : d'.isDeleted = d.isDeleted) (hchanged : d'.changed = []) {w : Overwrite}
    (hw : w.Spares) :
    Sound { s with
      documents := Function.update s.documents id (some d')
      overwrites := w :: s.overwrites
      lock := some (.wrote id) } := by
  have hcurrent : currentId s = some id := by
    unfold currentId
    rw [hlock]
    simp only [Option.bind_some, hid, Option.some_or]
  refine ⟨fun j hj ↦ ?_, fun j hj ↦ ?_, fun stage' j hlock' hunrecorded _ ↦ ?_, nofun,
    fun j e he hproduct' hlive ↦ ?_, fun w' hw' ↦ ?_, h.blames⟩
  · have hne : j ≠ id := by
      rintro rfl
      rw [h.fresh j hj] at hd
      cases hd
    simp only [Function.update_of_ne hne]
    exact h.fresh j hj
  · obtain rfl : id = j := Option.some.inj hj
    obtain ⟨e, he, hmark⟩ := h.current id hcurrent
    obtain rfl := Option.some.inj (he.symm.trans hd)
    refine ⟨d', by simp only [Function.update_self], hproduct.trans hmark.product,
      fun stage' hlock' ↦ ?_, fun htells ↦ by cases htells _ rfl⟩
    obtain rfl := Option.some.inj hlock'
    exact hchanged
  · obtain rfl := Option.some.inj hlock'
    cases hunrecorded
  · change some id = some j
    by_cases hji : j = id
    · rw [hji]
    · simp only [Function.update_of_ne hji] at he
      rw [← hcurrent]
      exact h.alone j e he hproduct' hlive
  · rcases List.mem_cons.mp hw' with rfl | hw'
    · exact hw
    · exact h.spares w' hw'

/-- An approval makes a document where there is none. -/
theorem Sound.inserts (h : Sound s) (hlock : s.lock = some .missing)
    (hproduct : d.product = true) (hchanged : d.changed = []) (hreadOnly : d.isReadOnly = false)
    (hcontent : d.content.Publishable) :
    Sound { s with
      documents := Function.update s.documents s.nextId (some d)
      nextId := s.nextId + 1
      lock := some (.created s.nextId) } := by
  refine ⟨fun j hj ↦ ?_, fun j hj ↦ ?_, fun stage' j hlock' hunrecorded _ ↦ ?_, nofun,
    fun j e he hproduct' hlive ↦ ?_, h.spares, h.blames⟩
  · have hj' : s.nextId + 1 ≤ j := hj
    have hne : j ≠ s.nextId := by omega
    simp only [Function.update_of_ne hne]
    exact h.fresh j (by omega)
  · obtain rfl : s.nextId = j := Option.some.inj hj
    refine ⟨d, by simp only [Function.update_self], hproduct, fun stage' hlock' ↦ ?_,
      fun htells ↦ by cases htells _ rfl⟩
    obtain rfl := Option.some.inj hlock'
    exact ⟨hchanged, hreadOnly, hcontent⟩
  · obtain rfl := Option.some.inj hlock'
    cases hunrecorded
  · change some s.nextId = some j
    by_cases hji : j = s.nextId
    · rw [hji]
    · simp only [Function.update_of_ne hji] at he
      rw [h.missing hlock j e he hproduct'] at hlive
      cases hlive

/-- An approval reads back what it has written. -/
theorem Sound.readsBack (hhex : ∀ text, Sha256.hex text ≠ "") (h : Sound s)
    (hlock : s.lock = some (.wrote id)) :
    Sound { s with lock := some (.readBack id
      ((s.documents id).bind fun d ↦ d.content.contentText)) } := by
  have hcurrent : currentId s = some id := by
    unfold currentId
    rw [hlock]
    rfl
  refine ⟨h.fresh, fun j hj ↦ ?_, fun stage' j hlock' hunrecorded _ ↦ ?_, nofun,
    fun j e he hproduct hlive ↦ ?_, h.spares, h.blames⟩
  · obtain rfl : id = j := Option.some.inj hj
    obtain ⟨d, hd, hmark⟩ := h.current id hcurrent
    refine ⟨d, hd, hmark.product, fun stage' hlock' ↦ ?_, fun _ ↦ ⟨_, rfl, hhex _, ?_⟩⟩
    · obtain rfl := Option.some.inj hlock'
      exact trivial
    · have hchanged : d.changed = [] := hmark.asserts _ hlock
      refine ⟨fun _ ↦ ?_, fun _ ↦ hchanged⟩
      rw [hd]
      rfl
  · obtain rfl := Option.some.inj hlock'
    cases hunrecorded
  · change some id = some j
    rw [← hcurrent]
    exact h.alone j e he hproduct hlive

/-- An approval stores the hash. -/
theorem Sound.records (h : Sound s) {contentText : Option String}
    (hlock : s.lock = some (.readBack id contentText)) :
    Sound { s with
      kb := some ⟨id, some (Sha256.hex (contentText.getD ""))⟩
      lock := some .recorded } := by
  have hcurrent : currentId s = some id := by
    unfold currentId
    rw [hlock]
    rfl
  have hexpected : expectedHash s = some (Sha256.hex (contentText.getD "")) := by
    unfold expectedHash
    rw [hlock]
  refine ⟨h.fresh, fun j hj ↦ ?_, fun stage' j hlock' _ hid ↦ ?_, nofun,
    fun j e he hproduct hlive ↦ ?_, h.spares, h.blames⟩
  · obtain rfl : id = j := Option.some.inj hj
    obtain ⟨d, hd, hmark⟩ := h.current id hcurrent
    refine ⟨d, hd, hmark.product, fun stage' hlock' ↦ ?_, fun _ ↦ ?_⟩
    · obtain rfl := Option.some.inj hlock'
      exact trivial
    · have htold := hmark.tells fun stage' hlock' ↦ by
        obtain rfl := Option.some.inj (hlock.symm.trans hlock')
        rfl
      rw [hexpected] at htold
      exact htold
  · obtain rfl := Option.some.inj hlock'
    cases hid
  · change some id = some j
    rw [← hcurrent]
    exact h.alone j e he hproduct hlive

/-! ### What a person does -/

omit [Sha256] in
theorem eq_of_same {content content' : Content}
    (h : columns.filter (content.differs content') = []) : content = content' := by
  have hsame : ∀ column ∈ columns, content.differs content' column = false := by
    intro column hcolumn
    exact Bool.eq_false_iff.mpr (List.filter_eq_nil_iff.mp h column hcolumn)
  have htitle := hsame .title (by decide)
  have hjson := hsame .json (by decide)
  have hhtml := hsame .html (by decide)
  have htext := hsame .text (by decide)
  simp only [Content.differs, ne_eq, decide_not, Bool.not_eq_false', decide_eq_true_eq] at *
  obtain ⟨title, json, html, text⟩ := content
  obtain ⟨title', json', html', text'⟩ := content'
  simp_all only

omit [Sha256] in
theorem setDocument_some {f : Document → Document} (hd : s.documents id = some d) :
    s.setDocument id f = { s with documents := Function.update s.documents id (some (f d)) } := by
  unfold Data.setDocument
  rw [hd]
  rfl

omit [Sha256] in
theorem setDocument_none {f : Document → Document} (hd : s.documents id = none) :
    s.setDocument id f = s := by
  unfold Data.setDocument
  rw [hd, Option.map_none, ← hd, Function.update_eq_self]

omit [Sha256] in
theorem updateDocument_some {author : Author} {update : Update} (hd : s.documents id = some d) :
    updateDocument author id update s = { s with
      documents := Function.update s.documents id (some (d.updated author update))
      overwrites := match author with
        | .person => s.overwrites
        | .approval replaceEdits =>
            ⟨replaceEdits, d.changed, d.content, update.content⟩ :: s.overwrites } := by
  unfold updateDocument
  rw [hd]
  dsimp only
  rw [setDocument_some hd] <;> rfl

/-- What is known of the document is known of it with a person's changes. -/
theorem Marked.updated {update : Update} (h : Marked s d)
    (hcareful : columns.filter (d.content.differs update.content) ≠ [] →
      (∀ stage ∈ s.lock, stage.blind = false) ∧ some (textHash update.content) ≠ expectedHash s) :
    Marked s (d.updated .person update) := by
  by_cases hsame : columns.filter (d.content.differs update.content) = []
  -- a person who sends what is there has changed nothing
  · have hcontent : (d.updated .person update).content = d.content := (eq_of_same hsame).symm
    have hchanged : (d.updated .person update).changed = d.changed := by
      unfold Document.updated
      dsimp only
      rw [hsame, List.append_nil]
    refine ⟨h.product, fun stage hlock ↦ ?_, fun htells ↦ ?_⟩
    · have hstage := h.asserts stage hlock
      cases stage with
      | refusing _ => exact fun hnil ↦ hstage (hchanged.symm.trans hnil)
      | checked _ _ => exact fun hr hlive ↦ hchanged.trans (hstage hr hlive)
      | found _ _ => exact fun hr ↦ hchanged.trans (hstage hr)
      | created _ => exact ⟨hchanged.trans hstage.1, hstage.2.1, hcontent ▸ hstage.2.2⟩
      | wrote _ => exact hchanged.trans hstage
      | _ => exact trivial
    · obtain ⟨hash, hexpected, hne, hiff⟩ := h.tells htells
      refine ⟨hash, hexpected, hne, ?_⟩
      rw [hchanged, hcontent]
      exact hiff
  -- otherwise no approval is at a stage where the edit would pass unseen
  · obtain ⟨hblind, htext⟩ := hcareful hsame
    have hchanged : (d.updated .person update).changed ≠ [] :=
      fun hnil ↦ hsame (List.append_eq_nil_iff.mp hnil).2
    refine ⟨h.product, fun stage hlock ↦ ?_, fun htells ↦ ?_⟩
    · have hseen := hblind stage hlock
      cases stage with
      | refusing _ => exact hchanged
      | checked _ replaceEdits =>
          intro hr
          rw [hr] at hseen
          cases hseen
      | found _ replaceEdits =>
          intro hr
          rw [hr] at hseen
          cases hseen
      | created _ => cases hseen
      | wrote _ => cases hseen
      | _ => exact trivial
    · obtain ⟨hash, hexpected, hne, -⟩ := h.tells htells
      refine ⟨hash, hexpected, hne, fun hnil ↦ absurd hnil hchanged, fun hsame' ↦ ?_⟩
      exact absurd (hexpected ▸ congrArg some hsame') htext

theorem Sound.person_update (h : Sound s) {update : Update}
    (hcareful : Careful s (.updateDocument .person id update)) :
    Sound (updateDocument .person id update s) := by
  cases hd : s.documents id with
  | none =>
      unfold updateDocument
      rw [hd]
      exact h
  | some d =>
      rw [updateDocument_some hd]
      refine h.setDocument hd rfl (fun hcurrent hmarked ↦ ?_) fun _ hlive hdeleted ↦ ?_
      · exact hmarked.updated (hcareful hcurrent d hd)
      · exact absurd (hlive.symm.trans hdeleted) Bool.false_ne_true

theorem Sound.person_delete (h : Sound s) :
    Sound (s.setDocument id fun d ↦ { d with isDeleted := true }) := by
  cases hd : s.documents id with
  | none => exact (setDocument_none hd).symm ▸ h
  | some d =>
      rw [setDocument_some hd]
      refine h.setDocument hd rfl (fun _ hmarked ↦ ?_) fun _ hlive _ ↦ by cases hlive
      refine ⟨hmarked.product, fun stage hlock ↦ ?_, hmarked.tells⟩
      have hstage := hmarked.asserts stage hlock
      cases stage with
      | checked _ _ => exact fun _ hlive ↦ by cases hlive
      | _ => exact hstage

theorem Sound.person_restore (h : Sound s) (hcareful : Careful s (.restoreDocument id)) :
    Sound (s.setDocument id fun d ↦ { d with isDeleted := false }) := by
  cases hd : s.documents id with
  | none => exact (setDocument_none hd).symm ▸ h
  | some d =>
      rw [setDocument_some hd]
      refine h.setDocument hd rfl (fun hcurrent hmarked ↦ ?_) fun hproduct _ hdeleted ↦ ?_
      · refine ⟨hmarked.product, fun stage hlock ↦ ?_, hmarked.tells⟩
        have hstage := hmarked.asserts stage hlock
        cases stage with
        | checked j replaceEdits =>
            rintro rfl -
            cases hdeleted : d.isDeleted with
            | false => exact hstage rfl hdeleted
            | true =>
                have hj : some j = some id := by
                  rw [← hcurrent]
                  unfold currentId
                  rw [hlock]
                  rfl
                obtain rfl := Option.some.inj hj
                have hsame := (hcareful d hd hmarked.product hdeleted).2.2 hlock
                obtain ⟨hash, hexpected, -, hiff⟩ := hmarked.tells fun stage' hlock' ↦ by
                  obtain rfl := Option.some.inj (hlock.symm.trans hlock')
                  rfl
                rw [hexpected] at hsame
                exact hiff.mpr (Option.some.inj hsame)
        | _ => exact hstage
      · exact ⟨(hcareful d hd hproduct hdeleted).1, (hcareful d hd hproduct hdeleted).2.1⟩

/-! ### What an approval does -/

theorem Sound.reads_written (h : Sound s) (hlock : s.lock = some .locked) {replaceEdits : Bool} :
    Sound { s with lock := some (Stage.next .locked (.readWritten replaceEdits)
      (writtenDocument s)) } := by
  have hplain : Plain s.lock := by
    intro stage hstage
    obtain rfl := Option.some.inj (hlock.symm.trans hstage)
    rfl
  have hcurrent : currentId s = s.kb.map KbDocument.documentId := by
    unfold currentId
    rw [hlock]
    rfl
  rcases Option.eq_none_or_eq_some s.kb with hkb | ⟨row, hkb⟩
  · have hnext : Stage.next .locked (.readWritten replaceEdits) (writtenDocument s) = .missing := by
      unfold writtenDocument
      rw [hkb]
      rfl
    rw [hnext]
    -- no document is recorded, so none of the product is live
    refine Sound.restage h hplain (fun stage hstage ↦ ?_) (fun stage id hstage hid ↦ ?_)
      (fun stage id d hstage hid ↦ ?_) fun _ id d hd hproduct ↦ ?_
    · obtain rfl := Option.some.inj hstage
      rfl
    · obtain rfl := Option.some.inj hstage
      cases hid
    · obtain rfl := Option.some.inj hstage
      cases hid
    · cases hdeleted : d.isDeleted with
      | true => rfl
      | false =>
          have hid := h.alone id d hd hproduct hdeleted
          rw [hcurrent, hkb] at hid
          cases hid
  · have hid : s.kb.map KbDocument.documentId = some row.documentId := by
      rw [hkb]
      rfl
    obtain ⟨d, hd, hmarked⟩ := h.current row.documentId (hcurrent.trans hid)
    obtain ⟨hash, hexpected, hne, hiff⟩ := hmarked.tells fun stage hstage ↦ by
      obtain rfl := Option.some.inj (hlock.symm.trans hstage)
      rfl
    have hrow : row.contentHash = some hash := by
      rw [expectedHash_plain hplain, hkb] at hexpected
      exact hexpected
    have hwritten : writtenDocument s = some ⟨row.documentId, !d.isDeleted,
        d.isDeleted = false ∧ textHash d.content ≠ hash⟩ := by
      have hfound : (findDocument row.documentId s).isSome = !d.isDeleted := by
        unfold findDocument
        rw [hd]
        cases hdeleted : d.isDeleted <;> simp [hdeleted]
      unfold writtenDocument
      rw [hkb, Option.map_some, hfound, hd, hrow]
      cases d.isDeleted with
      | true => simp
      | false => simp [hne, textHash]
    rw [hwritten]
    have hat : ∀ (stage : Stage) (id : ℕ), (stage = .refusing row.documentId ∨
        stage = .checked row.documentId replaceEdits) → stage.documentId = some id →
        s.kb.map KbDocument.documentId = some id := by
      rintro stage id (rfl | rfl) hstage
      · exact hid.trans hstage
      · exact hid.trans hstage
    simp only [Stage.next, decide_eq_true_eq]
    by_cases hedited : (d.isDeleted = false ∧ textHash d.content ≠ hash) ∧ replaceEdits = false
    · rw [if_pos hedited]
      refine h.restage hplain (fun stage hstage ↦ ?_) (fun stage id hstage hid ↦ ?_)
        (fun stage id e hstage hid he _ ↦ ?_) (fun hmissing ↦ by cases hmissing)
      · obtain rfl := Option.some.inj hstage
        rfl
      · exact hat stage id (.inl (Option.some.inj hstage).symm) hid
      · obtain rfl := Option.some.inj hstage
        obtain rfl := Option.some.inj hid
        obtain rfl := Option.some.inj (hd.symm.trans he)
        exact fun hnil ↦ hedited.1.2 (hiff.mp hnil)
    · rw [if_neg hedited]
      refine h.restage hplain (fun stage hstage ↦ ?_) (fun stage id hstage hid ↦ ?_)
        (fun stage id e hstage hid he _ ↦ ?_) (fun hmissing ↦ by cases hmissing)
      · obtain rfl := Option.some.inj hstage
        rfl
      · exact hat stage id (.inr (Option.some.inj hstage).symm) hid
      · obtain rfl := Option.some.inj hstage
        obtain rfl := Option.some.inj hid
        obtain rfl := Option.some.inj (hd.symm.trans he)
        intro hr hlive
        refine hiff.mpr ?_
        by_contra htext
        exact hedited ⟨⟨hlive, htext⟩, hr⟩

theorem Sound.reads_document (h : Sound s) {replaceEdits : Bool}
    (hlock : s.lock = some (.checked id replaceEdits)) :
    Sound { s with lock := some (Stage.next (.checked id replaceEdits)
      (.readDocument (.approval replaceEdits) id) (findDocument id s)) } := by
  have hplain : Plain s.lock := by
    intro stage hstage
    obtain rfl := Option.some.inj (hlock.symm.trans hstage)
    rfl
  have hid : s.kb.map KbDocument.documentId = some id := h.recorded _ id hlock rfl rfl
  have hcurrent : currentId s = some id := by
    unfold currentId
    rw [hlock]
    rfl
  obtain ⟨d, hd, hmarked⟩ := h.current id hcurrent
  cases hdeleted : d.isDeleted with
  | true =>
      have hnext : Stage.next (.checked id replaceEdits) (.readDocument (.approval replaceEdits) id)
          (findDocument id s) = .missing := by
        unfold findDocument
        rw [hd, Option.filter_some, hdeleted]
        rfl
      rw [hnext]
      refine h.restage hplain (fun stage hstage ↦ ?_)
        (fun stage j hstage hj ↦ ?_) (fun stage j e hstage hj ↦ ?_) fun _ j e he hproduct ↦ ?_
      · obtain rfl := Option.some.inj hstage
        rfl
      · obtain rfl := Option.some.inj hstage
        cases hj
      · obtain rfl := Option.some.inj hstage
        cases hj
      · cases hlive : e.isDeleted with
        | true => rfl
        | false =>
            have hj := h.alone j e he hproduct hlive
            obtain rfl := Option.some.inj (hcurrent.symm.trans hj)
            obtain rfl := Option.some.inj (hd.symm.trans he)
            exact absurd (hlive.symm.trans hdeleted) Bool.false_ne_true
  | false =>
      have hnext : Stage.next (.checked id replaceEdits) (.readDocument (.approval replaceEdits) id)
          (findDocument id s) = .found id replaceEdits := by
        unfold findDocument
        rw [hd, Option.filter_some, hdeleted]
        rfl
      rw [hnext]
      refine h.restage hplain (fun stage hstage ↦ ?_)
        (fun stage j hstage hj ↦ ?_) (fun stage j e hstage hj he _ ↦ ?_)
        fun hmissing ↦ by cases hmissing
      · obtain rfl := Option.some.inj hstage
        rfl
      · obtain rfl := Option.some.inj hstage
        exact hid.trans hj
      · obtain rfl := Option.some.inj hstage
        obtain rfl := Option.some.inj hj
        obtain rfl := Option.some.inj (hd.symm.trans he)
        exact fun hr ↦ hmarked.asserts _ hlock hr hdeleted

/-- What an approval without the word to replace edits overwrites, no person has changed. -/
theorem Sound.approval_update (h : Sound s) {replaceEdits : Bool} {update : Update}
    (hlock : s.lock = some stage)
    (hstage : stage = .found id replaceEdits ∨ stage = .created id) :
    Sound { updateDocument (.approval replaceEdits) id update s with lock := some (.wrote id) } := by
  have hid : stage.documentId = some id := by
    rcases hstage with rfl | rfl
    · rfl
    · rfl
  have hcurrent : currentId s = some id := by
    unfold currentId
    rw [hlock]
    simp only [Option.bind_some, hid, Option.some_or]
  obtain ⟨d, hd, hmarked⟩ := h.current id hcurrent
  rw [updateDocument_some hd]
  refine h.writes hlock hid hd (show (d.updated (.approval replaceEdits) update).product = _ from rfl)
    rfl rfl fun hr column hcolumn ↦ ?_
  have hchanged : d.changed = [] := by
    have hasserts := hmarked.asserts stage hlock
    rcases hstage with rfl | rfl
    · exact hasserts hr
    · exact hasserts.1
  rw [hchanged] at hcolumn
  cases hcolumn

/-! ### Each statement -/

/-- No call has gone astray, at most one has the lock, and the state agrees with where it is. -/
structure Guarded (s : Data) (phase : ℕ → Phase) : Prop where
  kept : ∀ k, phase k ≠ .astray
  holder : ∀ k stage, phase k = .holding stage → s.lock = some stage
  alone : ∀ j k stage stage', phase j = .holding stage → phase k = .holding stage' → j = k
  sound : Sound s

variable {phase : ℕ → Phase} {k : ℕ} {s' : Data}

theorem Guarded.outside (h : Guarded s phase) (hlock : s'.lock = s.lock) (hsound : Sound s') :
    Guarded s' (Function.update phase k .idle) := by
  have hback : ∀ j stage, Function.update phase k .idle j = .holding stage →
      phase j = .holding stage := by
    intro j stage hj
    by_cases hjk : j = k
    · subst hjk
      simp only [Function.update_self] at hj
      cases hj
    · simpa only [Function.update_of_ne hjk] using hj
  refine ⟨fun j ↦ ?_, fun j stage hj ↦ ?_, fun i j stage stage' hi hj ↦ ?_, hsound⟩
  · by_cases hjk : j = k
    · subst hjk
      simp only [Function.update_self]
      exact nofun
    · simp only [Function.update_of_ne hjk]
      exact h.kept j
  · exact hlock.trans (h.holder j stage (hback j stage hj))
  · exact h.alone i j stage stage' (hback i stage hi) (hback j stage' hj)

/-- The call that has the lock, or takes it, is at a stage. -/
theorem Guarded.advances (h : Guarded s phase) (hothers : ∀ j stage, phase j = .holding stage → j = k)
    (hlock : s'.lock = some stage) (hsound : Sound s') :
    Guarded s' (Function.update phase k (.holding stage)) := by
  have honly : ∀ j stage', Function.update phase k (.holding stage) j = .holding stage' →
      j = k := by
    intro j stage' hj
    by_contra hjk
    simp only [Function.update_of_ne hjk] at hj
    exact hjk (hothers j stage' hj)
  refine ⟨fun j ↦ ?_, fun j stage' hj ↦ ?_, fun i j stage' stage'' hi hj ↦ ?_, hsound⟩
  · by_cases hjk : j = k
    · subst hjk
      simp only [Function.update_self]
      exact nofun
    · simp only [Function.update_of_ne hjk]
      exact h.kept j
  · obtain rfl := honly j stage' hj
    simp only [Function.update_self, Phase.holding.injEq] at hj
    exact hj ▸ hlock
  · exact (honly i stage' hi).trans (honly j stage'' hj).symm

/-- The lock is given back. -/
theorem Guarded.returns (h : Guarded s phase) (hk : phase k = .holding stage) (hsound : Sound s') :
    Guarded s' (Function.update phase k .idle) := by
  have hnone : ∀ j stage', Function.update phase k .idle j ≠ .holding stage' := by
    intro j stage' hj
    by_cases hjk : j = k
    · subst hjk
      simp only [Function.update_self] at hj
      cases hj
    · simp only [Function.update_of_ne hjk] at hj
      exact hjk (h.alone j k stage' stage hj hk)
  refine ⟨fun j ↦ ?_, fun j stage' hj ↦ absurd hj (hnone j stage'),
    fun j _ stage' _ hj ↦ absurd hj (hnone j stage'), hsound⟩
  by_cases hjk : j = k
  · subst hjk
    simp only [Function.update_self]
    exact nofun
  · simp only [Function.update_of_ne hjk]
    exact h.kept j

omit [Sha256] in
theorem lockAfter_some {w : Write} {value : Value w} (hw : w ≠ .unlock) :
    lockAfter (some stage) w value = some (stage.next w value) := by
  cases w with
  | unlock => exact absurd rfl hw
  | lock =>
      cases value with
      | true => cases stage <;> rfl
      | false => rfl
  | _ => rfl

omit [Sha256] in
theorem lockAfter_outside {lock : Option Stage} {w : Write} {value : Value w}
    (hw : w.underLock = false) (hlock : w ≠ .lock) : lockAfter lock w value = lock := by
  have hstays : ∀ stage : Stage, stage.next w value = stage := by
    intro stage
    cases w with
    | reach _ => cases stage <;> rfl
    | lock => exact absurd rfl hlock
    | deleteDocument _ => cases stage <;> rfl
    | restoreDocument _ => cases stage <;> rfl
    | readDocument author _ =>
        cases author with
        | person => cases stage <;> cases value <;> rfl
        | approval _ => cases hw
    | updateDocument author _ _ =>
        cases author with
        | person => cases stage <;> rfl
        | approval _ => cases hw
    | _ => cases hw
  cases w with
  | lock => exact absurd rfl hlock
  | unlock => cases hw
  | _ =>
      cases lock with
      | none => rfl
      | some stage => exact congrArg some (hstays stage)

theorem effect_lock (w : Write) (s : Data) : (effect w s).2.lock = s.lock := by
  cases w with
  | updateDocument author id update =>
      simp only [effect, updateDocument]
      split <;> rfl
  | insertFolder =>
      simp only [effect]
      split <;> rfl
  | _ => rfl

/-- A statement without the lock, other than the one that takes it. -/
theorem Guarded.turns_outside (h : Guarded s phase) {w : Write} (hk : phase k = .idle)
    (hw : w.underLock = false) (hlock : w ≠ .lock) (hsound : Sound (effect w s.next).2) :
    Guarded (act w s.next).2
      (Function.update phase k (turn (phase k) w (.ok (act w s.next).1))) := by
  have hturn : turn (phase k) w (.ok (act w s.next).1) = .idle := by
    rw [hk]
    cases w with
    | lock => exact absurd rfl hlock
    | _ => rfl
  have hstate : (act w s.next).2 = (effect w s.next).2 := by
    unfold act
    dsimp only
    rw [lockAfter_outside hw hlock, ← effect_lock w s.next]
  rw [hturn, hstate]
  exact h.outside (effect_lock w s.next) hsound

/-- A statement under the lock, other than the one that gives it back. -/
theorem Guarded.turns_under (h : Guarded s phase) {w : Write} (hk : phase k = .holding stage)
    (hw : w ≠ .unlock) (hstrays : strays stage w (effect w s.next).1 = false)
    (hsound : Sound { (effect w s.next).2 with
      lock := some (stage.next w (effect w s.next).1) }) :
    Guarded (act w s.next).2
      (Function.update phase k (turn (phase k) w (.ok (act w s.next).1))) := by
  have hlock : s.next.lock = some stage := h.holder k stage hk
  have hturn : turn (phase k) w (.ok (act w s.next).1) =
      .holding (stage.next w (effect w s.next).1) := by
    rw [hk]
    cases w with
    | unlock => exact absurd rfl hw
    | _ =>
        refine if_neg ?_
        rw [show strays stage _ (act _ s.next).1 = false from hstrays]
        exact Bool.false_ne_true
  have hstate : (act w s.next).2 = { (effect w s.next).2 with
      lock := some (stage.next w (effect w s.next).1) } := by
    unfold act
    dsimp only
    rw [hlock, lockAfter_some hw]
  rw [hturn, hstate]
  exact h.advances (fun j stage' hj ↦ h.alone j k stage' stage hj hk) rfl hsound

theorem Sound.stays (h : Sound s) (hlock : s.lock = some stage) {stage' : Stage}
    (hnext : stage' = stage) : Sound { s with lock := some stage' } := by
  rw [hnext, ← hlock]
  exact h

/-- What an approval asks for keeps the invariant. -/
theorem Sound.under (hhex : ∀ text, Sha256.hex text ≠ "") (h : Sound s)
    (hlock : s.lock = some stage) {w : Write} (hfits : Fits stage w) (hw : w ≠ .unlock) :
    Sound { (effect w s).2 with lock := some (stage.next w (effect w s).1) } := by
  cases w with
  | reach locked =>
      cases locked with
      | false => exact hfits.elim
      | true => exact h.stays hlock (by cases stage <;> rfl)
  | lock => exact hfits.elim
  | readWritten replaceEdits =>
      obtain rfl : stage = .locked := hfits
      exact h.reads_written hlock
  | refuse id =>
      obtain rfl : stage = .refusing id := hfits
      have hcurrent : currentId s = some id := by
        unfold currentId
        rw [hlock]
        rfl
      obtain ⟨d, hd, hmarked⟩ := h.current id hcurrent
      have hrefused : Sound { s with
          refused := ((s.documents id).elim [] Document.changed) :: s.refused } := by
        refine ⟨h.fresh, fun j hj ↦ ?_, h.recorded, h.missing, h.alone, h.spares,
          fun changed hchanged ↦ ?_⟩
        · obtain ⟨e, he, hmark⟩ := h.current j hj
          exact ⟨e, he, hmark.product, hmark.asserts, hmark.tells⟩
        · rcases List.mem_cons.mp hchanged with rfl | hchanged
          · rw [hd]
            exact hmarked.asserts _ hlock
          · exact h.blames changed hchanged
      exact hrefused.stays hlock rfl
  | findFolder => exact h.stays hlock (by cases stage <;> rfl)
  | insertFolder =>
      have hfolder : Sound { s with folder := some s.nextId, nextId := s.nextId + 1 } := by
        refine ⟨fun j hj ↦ h.fresh j (Nat.le_of_succ_le hj), fun j hj ↦ ?_, h.recorded, h.missing,
          h.alone, h.spares, h.blames⟩
        obtain ⟨e, he, hmark⟩ := h.current j hj
        exact ⟨e, he, hmark.product, hmark.asserts, hmark.tells⟩
      simp only [effect]
      split
      · exact h.stays hlock (by cases stage <;> rfl)
      · exact hfolder.stays hlock (by cases stage <;> rfl)
  | readFolder folderId => exact h.stays hlock (by cases stage <;> rfl)
  | readDocument author id =>
      cases author with
      | person => exact hfits.elim
      | approval replaceEdits =>
          rcases hfits with rfl | rfl
          · exact h.reads_document hlock
          · exact h.stays hlock rfl
  | updateDocument author id update =>
      cases author with
      | person => exact hfits.elim
      | approval replaceEdits =>
          have hwrote : Sound { updateDocument (.approval replaceEdits) id update s with
              lock := some (.wrote id) } := h.approval_update hlock hfits
          rcases hfits with rfl | rfl
          · exact hwrote
          · exact hwrote
  | insertDocument content folderId createdBy =>
      obtain ⟨rfl, hcontent⟩ := hfits
      exact h.inserts hlock rfl rfl rfl hcontent
  | deleteDocument id => exact hfits.elim
  | restoreDocument id => exact hfits.elim
  | readStored id =>
      obtain rfl : stage = .wrote id := hfits
      exact h.readsBack hhex hlock
  | record id contentHash =>
      obtain ⟨contentText, rfl, rfl⟩ := hfits
      exact h.records hlock
  | unlock => exact absurd rfl hw

/-- Whether a person's statement meets the condition is no matter of what goes through. -/
theorem Careful.next {w : Write} (h : Careful s w) (hw : w.underLock = false) :
    Careful s.next w := by
  cases w with
  | reach locked =>
      cases locked with
      | false => exact trivial
      | true => cases hw
  | readDocument author _ =>
      cases author with
      | person => exact trivial
      | approval _ => cases hw
  | updateDocument author _ _ =>
      cases author with
      | person => exact h
      | approval _ => cases hw
  | restoreDocument _ => exact h
  | lock => exact trivial
  | deleteDocument _ => exact trivial
  | _ => cases hw

/-- What a person asks for keeps the invariant where it meets the condition. -/
theorem Sound.outside (h : Sound s) {w : Write} (hw : w.underLock = false)
    (hcareful : Careful s w) : Sound (effect w s).2 := by
  cases w with
  | reach _ => exact h
  | lock => exact h
  | readDocument _ _ => exact h
  | updateDocument author id update =>
      cases author with
      | person => exact h.person_update hcareful
      | approval _ => cases hw
  | deleteDocument id => exact h.person_delete
  | restoreDocument id => exact h.person_restore hcareful
  | _ => cases hw

/-- A document that has just been made is read as it was made. -/
theorem Guarded.strays_eq (h : Guarded s phase) (hk : phase k = .holding stage) {w : Write}
    (hfits : Fits stage w) (hcareful : Careful s w) : strays stage w (effect w s.next).1 = false := by
  have hlock := h.holder k stage hk
  cases w with
  | readDocument author id =>
      cases author with
      | person => exact hfits.elim
      | approval replaceEdits =>
          rcases hfits with rfl | rfl
          · rfl
          · have hcurrent : currentId s = some id := by
              unfold currentId
              rw [hlock]
              rfl
            obtain ⟨d, hd, hmarked⟩ := h.sound.current id hcurrent
            obtain ⟨-, hreadOnly, hcontent⟩ := hmarked.asserts _ hlock
            obtain ⟨doc, hdoc⟩ := Option.isSome_iff_exists.mp (hcareful _ hlock rfl).2
            have hsame : d = doc := by
              have hsome := (Option.filter_eq_some_iff.mp hdoc).1
              exact Option.some.inj (hd.symm.trans hsome)
            change strays (.created id) (.readDocument (.approval replaceEdits) id)
              (findDocument id s) = false
            rw [hdoc, ← hsame]
            simp only [strays, hreadOnly, hcontent, not_true_eq_false, decide_false, Bool.or_false]
  | _ => cases stage <;> rfl

/-- Each statement keeps the invariant. -/
theorem Guarded.turns (hhex : ∀ text, Sha256.hex text ≠ "") (h : Guarded s phase) {w : Write}
    (hlegal : Legal (phase k) w) (hcareful : Careful s w) :
    Turns perform turn Guarded phase k w s := by
  have hsound := h.sound.next
  unfold Turns perform
  cases hk : phase k with
  | astray => exact absurd hk (h.kept k)
  | idle =>
      rw [hk] at hlegal
      refine Service.wp_perhaps (fun _ ↦ ?_) fun _ ↦ ?_
      · rw [← hk]
        by_cases hw : w = .lock
        · subst hw
          cases hlock : s.lock with
          | none =>
              -- the lock is free: nobody is at a stage
              have hstate : (act .lock s.next).2 = { s.next with lock := some .locked } := by
                simp only [act, effect, Data.next, hlock]
                rfl
              have hturn : turn (phase k) .lock (.ok (act .lock s.next).1) = .holding .locked := by
                rw [hk]
                simp only [act, effect, Data.next, hlock]
                rfl
              rw [hstate, hturn]
              refine h.advances (fun j stage hj ↦ ?_) rfl ?_
              · have hheld := h.holder j stage hj
                rw [hlock] at hheld
                cases hheld
              · refine hsound.restage (fun stage hstage ↦ ?_) (fun stage hstage ↦ ?_)
                  (fun stage id hstage hid ↦ ?_) (fun stage id d hstage hid ↦ ?_)
                  fun hmissing ↦ by cases hmissing
                · cases hlock.symm.trans hstage
                · obtain rfl := Option.some.inj hstage
                  rfl
                · obtain rfl := Option.some.inj hstage
                  cases hid
                · obtain rfl := Option.some.inj hstage
                  cases hid
          | some stage =>
              have hstate : (act .lock s.next).2 = s.next := by
                simp only [act, effect, Data.next, hlock]
                cases stage <;> rfl
              have hturn : turn (phase k) .lock (.ok (act .lock s.next).1) = .idle := by
                rw [hk]
                simp only [act, effect, Data.next, hlock]
                rfl
              rw [hstate, hturn]
              exact h.outside rfl hsound
        · exact h.turns_outside hk hlegal hw (hsound.outside hlegal (hcareful.next hlegal))
      · have hturn : turn .idle w (.error unreachable) = .idle := by
          cases w <;> rfl
        have hskip : skip w s.next = s.next := by
          cases w with
          | unlock => cases hlegal
          | _ => rfl
        rw [hturn, hskip]
        exact h.outside rfl hsound
  | holding stage =>
      rw [hk] at hlegal
      have hlock := h.holder k stage hk
      have hfits : Fits stage w := hlegal
      by_cases hw : w = .unlock
      · subst hw
        have hfreed : Sound { s.next with lock := none } := by
          refine hsound.restage (fun stage' hstage' ↦ ?_) nofun nofun nofun nofun
          obtain rfl := Option.some.inj (hlock.symm.trans hstage')
          exact hfits
        refine Service.wp_perhaps (fun _ ↦ ?_) fun _ ↦ ?_
        · exact h.returns hk hfreed
        · exact h.returns hk hfreed
      · refine Service.wp_perhaps (fun _ ↦ ?_) fun hfails ↦ ?_
        · rw [← hk]
          exact h.turns_under hk hw (h.strays_eq hk hfits hcareful)
            (hsound.under hhex hlock hfits hw)
        -- a statement that fails takes the approval nowhere; by the condition it has not written yet
        · have hrecorded : stage.unrecorded = false := by
            cases hstage : stage.unrecorded with
            | false => rfl
            | true =>
                have hgoes : s.answers 0 = true → False := by
                  intro hanswer
                  cases w with
                  | refuse _ => cases hfails
                  | _ => exact Bool.false_ne_true (hfails.symm.trans hanswer)
                cases w with
                | reach locked =>
                    cases locked with
                    | false => exact hfits.elim
                    | true => exact (hgoes (hcareful stage hlock hstage)).elim
                | readDocument author id =>
                    cases author with
                    | person => exact hfits.elim
                    | approval _ => exact (hgoes (hcareful stage hlock hstage).1).elim
                | updateDocument author id update =>
                    cases author with
                    | person => exact hfits.elim
                    | approval _ => exact (hgoes (hcareful stage hlock hstage)).elim
                | readStored id => exact (hgoes (hcareful stage hlock hstage)).elim
                | record id contentHash => exact (hgoes (hcareful stage hlock hstage)).elim
                | refuse _ => cases hfails
                | findFolder => exact hstage.symm.trans hfits
                | insertFolder => exact hstage.symm.trans hfits
                | readFolder _ => exact hstage.symm.trans hfits
                | readWritten _ =>
                    obtain rfl : stage = .locked := hfits
                    cases hstage
                | insertDocument content folderId createdBy =>
                    obtain rfl := hfits.1
                    cases hstage
                | unlock => exact absurd rfl hw
                | _ => exact hfits.elim
          have hturn : turn (.holding stage) w (.error unreachable) = .holding stage := by
            cases w with
            | unlock => exact absurd rfl hw
            | _ => exact if_neg (by rw [hrecorded]; exact Bool.false_ne_true)
          have hskip : skip w s.next = s.next := by
            cases w with
            | unlock => exact absurd rfl hw
            | _ => rfl
          rw [hturn, hskip]
          exact h.advances (fun j stage' hj ↦ h.alone j k stage' stage hj hk) hlock hsound

end Invariant

/-! ## Whole runs -/

section Runs

variable [Sha256] {s : Data}

theorem NothingApproved.guarded (h : NothingApproved s) : Guarded s fun _ ↦ .idle := by
  have hcurrent : currentId s = none := by
    unfold currentId
    rw [h.lock, h.kb]
    rfl
  refine ⟨fun _ ↦ nofun, nofun, nofun, h.fresh, fun id hid ↦ ?_, fun stage id hlock ↦ ?_,
    fun hmissing ↦ ?_, fun id d hd hproduct ↦ ?_, ?_, ?_⟩
  · rw [hcurrent] at hid
    cases hid
  · rw [h.lock] at hlock
    cases hlock
  · rw [h.lock] at hmissing
    cases hmissing
  · rw [h.products id d hd] at hproduct
    cases hproduct
  · rw [h.overwrites]
    exact nofun
  · rw [h.refused]
    exact nofun

abbrev GuardedRun : Run → Prop :=
  Phased turn Guarded Freely (fun t _ w ↦ Legal t w) fun _ _ _ ↦ True

theorem GuardedRun.step (hhex : ∀ text, Sha256.hex text ≠ "") {c : Run} {m : Move Call}
    (hc : GuardedRun c) (hm : AtWrite Careful c m) : GuardedRun (step c m) := by
  refine Phased.move freely_refl freely_trans ?_ ?_ hc hm
  · intro s phase k call h
    exact ⟨.idle, h.outside rfl h.sound, (asking_enter call).follows s⟩
  · exact fun s phase k w h hlegal hcareful ↦ ⟨h.turns hhex hlegal hcareful, trivial⟩

theorem Sound.keepsEdits (h : Sound s) : KeepsEdits s := by
  refine ⟨h.spares, h.blames, fun i j d d' hd hd' hproduct hproduct' hlive hlive' ↦ ?_⟩
  have hi := h.alone i d hd hproduct hlive
  have hj := h.alone j d' hd' hproduct' hlive'
  exact Option.some.inj (hi.symm.trans hj)

/-- In every run from a project of which nothing is approved, whose statements meet the condition, an
approval overwrites no edit that it was not told to, blames no one who has not edited, and leaves one
live document at most. -/
theorem keepsEdits_always (hhex : ∀ text, Sha256.hex text ≠ "") (h : NothingApproved s)
    {ms : List (Move Call)} (hms : Along step (AtWrite Careful) (Config.idle s) ms) :
    Always step (fun c ↦ KeepsEdits c.shared) (Config.idle s) ms := by
  have hstart : GuardedRun (Config.idle s) := Phased.idle h.guarded
  have hall :=
    (Along.invariant (fun c m hc hm ↦ ⟨GuardedRun.step hhex hc hm, trivial⟩) hstart hms).1
  refine hall.mono fun c hc ↦ ?_
  obtain ⟨_, hguarded, _⟩ := hc
  exact hguarded.sound.keepsEdits

end Runs

/-! ## A document that is renamed -/

section Example

@[reducible] def markedHash : Sha256 where
  hex text := text.push '#'
  injective text text' h := by
    have hlist := congrArg String.toList h
    simp only [String.toList_push, List.append_cancel_right_eq] at hlist
    exact String.toList_inj.mp hlist

theorem hex_markedHash_ne (text : String) : markedHash.hex text ≠ "" := by
  intro h
  have hlist : (text.push '#').toList = [] := congrArg String.toList h
  rw [String.toList_push] at hlist
  exact List.append_ne_nil_of_right_ne_nil _ (List.cons_ne_nil _ _) hlist

def noProducts : Data where
  documents _ := none
  nextId := 0
  folder := none
  kb := none
  lock := none
  answers _ := true
  overwrites := []
  refused := []

theorem nothingApproved_noProducts : NothingApproved noProducts :=
  ⟨fun _ _ ↦ rfl, nofun, rfl, rfl, rfl, rfl⟩

def manager : Member := ⟨1, .manager⟩

/-- A call that is made from beginning to end. -/
def wholly (k : ℕ) (call : Call) : List (Move Call) :=
  .enter k call :: List.replicate 24 (.advance k)

def approveShop (k : ℕ) (replaceEdits : Bool) : List (Move Call) :=
  wholly k (.approve manager 1 (some "completed") replaceEdits
    ⟨1, true, "Shop", "Sign in", "<p>Sign in</p>", 21⟩)

/-- The approved document, edited; an approval is refused, and one told to replace the edit. -/
def editedText : List (Move Call) :=
  approveShop 0 false ++
    wholly 1 (.update manager 1 ⟨none, none, none, some (some "Sign in twice"), none, none, 13⟩) ++
    approveShop 2 false ++ approveShop 3 true

/-- The approved document, renamed, and approved again. -/
def renamed : List (Move Call) :=
  approveShop 0 false ++
    wholly 1 (.update manager 1 ⟨some "Our shop", none, none, none, none, none, 0⟩) ++
    approveShop 2 false

def runApprovals (ms : List (Move Call)) : Run :=
  letI := markedHash
  ms.foldl step (Config.idle noProducts)

theorem keepsEdits_editedText :
    (runApprovals editedText).shared.refused = [[.text]] ∧
      Always (@step markedHash) (fun c ↦ KeepsEdits c.shared) (Config.idle noProducts) editedText :=
  ⟨by decide +kernel,
    @keepsEdits_always markedHash noProducts hex_markedHash_ne nothingApproved_noProducts
      editedText (by decide +kernel)⟩

/-- The text is still the one that was written, so the new title is overwritten. -/
theorem not_keepsEdits_renamed :
    NothingApproved noProducts ∧ ¬ KeepsEdits (runApprovals renamed).shared :=
  ⟨nothingApproved_noProducts, fun h ↦ absurd h.spares (by decide +kernel)⟩

end Example

end Tesbo.Nyra
