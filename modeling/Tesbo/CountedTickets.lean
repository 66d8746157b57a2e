import Tesbo.SyncTickets

/-!
# The end of a sync run

A run is finished by the job that sees its counts reach the total.  That this is the job of the last
ticket rests on each ticket adding one to the two counts, whichever way its job ends.
-/

namespace Tesbo.Sync

open Reasoning Proc

/-! ## A run and the jobs of its tickets -/

abbrev Jobs := Config Shared (Procedure Unit)

/-- The job of a number takes its next step. -/
def stepJobs (c : Jobs) (k : ℕ) : Jobs :=
  c.move (nofun : Empty → Procedure Unit) (fun _ ↦ Proc.exec perform) (.advance k)

/-- The jobs of a run are queued, and the run has its total. -/
structure FannedOut [MirrorText] (jobs : List TicketJob) (runId : Uuid) (c : Jobs) : Prop where
  queued : ∀ k, c.pc k = jobs[k]?.map ticketJob
  ofRun : ∀ job ∈ jobs, job.runId = runId
  apart : (jobs.map TicketJob.ticketId).Nodup
  nonempty : jobs ≠ []
  run : ∃ r, c.shared.runs.find runId = some r ∧ r.status = .running ∧
    r.totalTickets = jobs.length ∧ r.processedTickets = 0 ∧ r.failedTickets = 0
  uncounted : c.shared.counted = []
  unclosed : c.shared.closed = []

/-- A ticket has ended when its result is recorded, or its job is over without. -/
def Ended (s : Shared) (ticketId : Uuid) : Prop := ticketId ∈ s.counted ∨ ticketId ∈ s.closed

instance (s : Shared) (ticketId : Uuid) : Decidable (Ended s ticketId) :=
  inferInstanceAs (Decidable (_ ∨ _))

/-- What the completion of a run looks at: its status, its total and its two counts. -/
def tally (runId : Uuid) (runs : Runs) : Option (RunStatus × ℕ × ℕ) :=
  (runs.find runId).map fun r ↦ (r.status, r.totalTickets, r.processedTickets + r.failedTickets)

/-- The run is open as long as one of the tickets is, its counts reach the total with the last, and
it is no longer open when all jobs are over; no ticket is counted twice. -/
structure EndsWithTickets (tickets : List Uuid) (runId : Uuid) (s : Shared) : Prop where
  early : (∃ t ∈ tickets, ¬ Ended s t) →
    ∃ total sum, tally runId s.runs = some (.running, total, sum) ∧ sum < total
  reached : (∀ t ∈ tickets, Ended s t) →
    ∃ status total sum, tally runId s.runs = some (status, total, sum) ∧ total ≤ sum
  settled : (∀ t ∈ tickets, t ∈ s.closed) →
    ∃ status total sum, tally runId s.runs = some (status, total, sum) ∧ status.active = false
  once : s.counted.Nodup

/-- A ticket there is no room for is the last, the count of a failure for good goes through, and so
does the end of the run. -/
def CountsOne (s : Shared) : Write → Prop
  | .addTicketResult runId _ delta =>
      (delta = refused → ∀ r ∈ s.runs, r.id = runId → r.totalTickets ≤ s.counted.length + 1) ∧
        (delta = failedForGood → (s.answers 0).ok = true)
  | .finishRun _ _ => (s.answers 0).ok = true
  | _ => True

instance (s : Shared) (w : Write) : Decidable (CountsOne s w) := by
  cases w with
  | addTicketResult runId ticketId delta => exact inferInstanceAs (Decidable (_ ∧ _))
  | finishRun runId note => exact inferInstanceAs (Decidable (_ = _))
  | _ => exact instDecidableTrue

/-! ## Where a job is -/

/-- A job without a result, one that has to end the run, one with its result recorded, and one that
is over; `astray` is a job that has failed to end the run or to count its failure. -/
inductive Phase where
  | waiting (ticketId : Uuid)
  | finishing (ticketId : Uuid)
  | recorded (ticketId : Uuid)
  | resting
  | astray

def turn : Phase → (w : Write) → Reply w → Phase
  | .waiting t, .addTicketResult _ _ _, .ok (some r) =>
      if complete r then .finishing t else .recorded t
  | .waiting _, .addTicketResult _ _ _, .ok none => .astray
  | .waiting t, .addTicketResult _ _ delta, .error _ =>
      if delta = failedForGood then .astray else .waiting t
  | .finishing t, .finishRun _ _, .ok _ => .recorded t
  | .finishing _, .finishRun _ _, .error _ => .astray
  | .recorded _, .endJob _, _ => .resting
  | phase, _, _ => phase

def Legal (runId : Uuid) : Phase → Shared → Write → Prop
  | .astray, _, _ => True
  | .waiting t, _, .addTicketResult runId' t' delta =>
      runId' = runId ∧ t' = t ∧ (delta = refused ∨ delta.processed + delta.failed = 1)
  | .waiting _, _, .finishRun _ _ | .waiting _, _, .endJob _ => False
  | .waiting _, _, _ => True
  | .finishing _, _, .finishRun runId' _ => runId' = runId
  | .recorded t, _, .endJob t' => t' = t
  | _, _, _ => False

/-- The state is left to the invariant. -/
def Anything (_ _ : Shared) : Prop := True

/-! ### What a job asks for -/

/-- No result yet, or astray. -/
def Open (ticketId : Uuid) (phase : Phase) : Prop := phase = .waiting ticketId ∨ phase = .astray

def Recorded (ticketId : Uuid) (phase : Phase) : Prop :=
  phase = .recorded ticketId ∨ phase = .astray

section Calls

variable {job : TicketJob} {s : Shared} {t : Phase}

/-- A part of a job after which there is one, unless it fails. -/
abbrev Records (job : TicketJob) (t : Phase) (s : Shared) (p : Procedure Unit) : Prop :=
  Ends turn Anything (Legal job.runId) (fun _ t _ ↦ Recorded job.ticketId t)
    (fun _ t _ ↦ Open job.ticketId t) t s p

theorem legal_open {w : Write} (ht : Open job.ticketId t)
    (hw : Legal job.runId (.waiting job.ticketId) s w) : Legal job.runId t s w := by
  rcases ht with rfl | rfl
  · exact hw
  · exact trivial

theorem anything_refl (s : Shared) : Anything s s := trivial

theorem anything_trans (a b c : Shared) (_ : Anything a b) (_ : Anything b c) : Anything a c :=
  trivial

/-- The end of the run leaves its job with a result, or astray. -/
theorem ends_finishRun (ht : t = .finishing job.ticketId ∨ t = .astray) :
    Ends turn Anything (Legal job.runId) (fun _ t _ ↦ Recorded job.ticketId t)
      (fun _ t _ ↦ t = .astray) t s
      (do let finished ← ask (.finishRun job.runId none); ofExcept finished) := by
  refine ends_issue_seq (fun s' _ ↦ ?_) fun r s' _ ↦ ?_
  · rcases ht with rfl | rfl
    · rfl
    · exact trivial
  · cases r with
    | ok a =>
        refine ends_ofExcept (fun _ _ _ _ ↦ ?_) (fun _ h ↦ by cases h)
        rcases ht with rfl | rfl
        · exact .inl rfl
        · exact .inr rfl
    | error e =>
        refine ends_ofExcept (fun _ h ↦ by cases h) (fun _ _ _ _ ↦ ?_)
        rcases ht with rfl | rfl
        · rfl
        · rfl

theorem records_recordTicketResult {delta : TicketProgressDelta} (ht : Open job.ticketId t)
    (hdelta : delta = refused ∨ delta.processed + delta.failed = 1) :
    Ends turn Anything (Legal job.runId) (fun _ t _ ↦ Recorded job.ticketId t)
      (fun _ t _ ↦ t = .astray ∨ delta ≠ failedForGood ∧ t = .waiting job.ticketId) t s
      (recordTicketResult job delta) := by
  unfold recordTicketResult
  refine ends_issue_seq (fun s' _ ↦ legal_open ht ⟨rfl, rfl, hdelta⟩) fun recorded s' _ ↦ ?_
  cases recorded with
  | error e =>
      refine ends_fail fun _ _ ↦ ?_
      rcases ht with rfl | rfl
      · simp only [turn]
        split
        · exact .inl rfl
        · rename_i hdelta'
          exact .inr ⟨hdelta', rfl⟩
      · exact .inl rfl
  | ok row =>
      cases row with
      | none =>
          refine ends_pure fun _ _ ↦ .inr ?_
          rcases ht with rfl | rfl
          · rfl
          · rfl
      | some r =>
          change Ends turn Anything (Legal job.runId) _ _ _ _
            (if complete r then _ else pure () : Procedure Unit)
          by_cases hr : complete r = true
          · rw [if_pos hr]
            refine Ends.mono (ends_finishRun ?_) (fun _ _ _ h ↦ h) fun _ _ _ h ↦ .inl h
            rcases ht with rfl | rfl
            · exact .inl (if_pos hr)
            · exact .inr rfl
          · rw [if_neg hr]
            refine ends_pure fun _ _ ↦ ?_
            rcases ht with rfl | rfl
            · exact .inl (if_neg hr)
            · exact .inr rfl

/-- A result of `processTicket`. -/
theorem records_processed {delta : TicketProgressDelta} (ht : Open job.ticketId t)
    (hdelta : delta = refused ∨ delta.processed + delta.failed = 1) :
    Records job t s (recordTicketResult job delta) := by
  refine Ends.mono (records_recordTicketResult ht hdelta) (fun _ _ _ h ↦ h) ?_
  rintro e t' s' (rfl | ⟨-, rfl⟩)
  · exact .inr rfl
  · exact .inl rfl

/-- A statement that counts nothing leaves the job where it is. -/
theorem records_ask_seq {w : Write} {f : Reply w → Procedure Unit} (ht : Open job.ticketId t)
    (hw : ∀ s, Legal job.runId (.waiting job.ticketId) s w)
    (hturn : ∀ r, turn (.waiting job.ticketId) w r = .waiting job.ticketId)
    (hf : ∀ r s', Records job t s' (f r)) : Records job t s (ask w >>= f) := by
  refine ends_issue_seq (fun s' _ ↦ legal_open ht (hw s')) fun r s' _ ↦ ?_
  have hstays : turn t w r = t := by
    rcases ht with rfl | rfl
    · exact hturn r
    · rfl
  rw [hstays]
  exact hf r s'

theorem records_ofExcept_seq {α : Type} {r : Except Failure α} {f : α → Procedure Unit}
    (ht : Open job.ticketId t) (hf : ∀ a, Records job t s (f a)) :
    Records job t s (Proc.ofExcept r >>= f) := by
  cases r with
  | ok a => exact hf a
  | error e => exact ends_fail fun _ _ ↦ ht

theorem records_reading_seq {α : Type} {g : Shared → α} {f : α → Procedure Unit}
    (ht : Open job.ticketId t) (hf : ∀ a s', Records job t s' (f a)) :
    Records job t s (reading g >>= f) := by
  refine records_ask_seq ht (fun _ ↦ trivial) (fun _ ↦ rfl) fun reached s₁ ↦ ?_
  cases reached with
  | ok a => exact ends_query_seq fun s₂ _ ↦ hf (g s₂) s₂
  | error e => exact ends_fail fun _ _ ↦ ht

theorem records_require_seq {p : Prop} [Decidable p] {e : Failure} {f : Unit → Procedure Unit}
    (ht : Open job.ticketId t) (hf : Records job t s (f ())) :
    Records job t s (Proc.require p e >>= f) := by
  by_cases hp : p
  · unfold Proc.require
    rw [if_pos hp]
    exact hf
  · unfold Proc.require
    rw [if_neg hp]
    exact ends_fail fun _ _ ↦ ht

theorem written_units {inserted : Bool} {consulted : Consulted} :
    (written inserted consulted).processed + (written inserted consulted).failed = 1 := rfl

theorem records_processTicket [MirrorText] (ht : Open job.ticketId t) :
    Records job t s (processTicket job) := by
  unfold processTicket
  refine records_reading_seq ht fun row s₁ ↦ ?_
  cases row with
  | none => exact records_processed ht (.inr rfl)
  | some row =>
      refine records_reading_seq ht fun connected s₂ ↦ ?_
      refine records_require_seq ht ?_
      refine records_ask_seq ht (fun _ ↦ trivial) (fun _ ↦ rfl) fun answer s₃ ↦ ?_
      refine records_ofExcept_seq ht fun consulted ↦ ?_
      refine records_reading_seq ht fun previous s₄ ↦ ?_
      split
      · exact records_processed ht (.inr rfl)
      · refine records_ask_seq ht (fun _ ↦ trivial) (fun _ ↦ rfl) fun checked s₅ ↦ ?_
        refine records_ofExcept_seq ht fun refusal ↦ ?_
        cases refusal with
        | some reason =>
            refine records_ask_seq ht (fun _ ↦ trivial) (fun _ ↦ rfl) fun _ s₆ ↦ ?_
            exact records_processed ht (.inl rfl)
        | none =>
            refine records_ask_seq ht (fun _ ↦ trivial) (fun _ ↦ rfl) fun upserted s₆ ↦ ?_
            refine records_ofExcept_seq ht fun inserted ↦ ?_
            exact records_processed ht (.inr written_units)

theorem follows_attempts [MirrorText] (n : ℕ) (ht : Open job.ticketId t) :
    Follows turn Anything (Legal job.runId) (fun _ t _ ↦ Recorded job.ticketId t) t s
      (attempts job n) := by
  induction n generalizing s t with
  | zero =>
      have hfailed := @records_recordTicketResult job s t failedForGood ht (.inr rfl)
      refine follows_attempt_seq anything_refl anything_trans hfailed ?_ ?_
      · exact fun _ t' _ _ ht' ↦ follows_pure fun _ _ ↦ ht'
      · rintro e t' s' - (rfl | ⟨hcontra, -⟩)
        · exact follows_pure fun _ _ ↦ .inr rfl
        · exact absurd rfl hcontra
  | succ n ih =>
      refine follows_attempt_seq anything_refl anything_trans (records_processTicket ht) ?_ ?_
      · exact fun _ t' _ _ ht' ↦ follows_pure fun _ _ ↦ ht'
      · exact fun _ t' s' _ ht' ↦ ih ht'

theorem follows_ticketJob [MirrorText] :
    Follows turn Anything (Legal job.runId) (fun _ _ _ ↦ True) (.waiting job.ticketId) s
      (ticketJob job) := by
  refine follows_seq anything_refl anything_trans (follows_attempts 3 (.inl rfl)) ?_
  intro _ t' s' _ ht'
  refine follows_issue (w := Write.endJob job.ticketId) (Q := fun _ _ _ ↦ True) anything_trans
    (fun s'' _ ↦ ?_) fun _ _ _ ↦ trivial
  rcases ht' with rfl | rfl
  · rfl
  · exact trivial

end Calls

/-! ## What the statements leave of the run -/

section Tally

variable {runs : Runs} {p : SyncRun → Bool} {f : SyncRun → SyncRun} {id : Uuid}

theorem tally_updateWhere {hf : ∀ r, (f r).id = r.id} :
    tally id (runs.updateWhere p f hf) = (runs.find id).map fun r ↦
      ((if p r then f r else r).status, (if p r then f r else r).totalTickets,
        (if p r then f r else r).processedTickets + (if p r then f r else r).failedTickets) := by
  have hrows : Table.UpdatedRows runs (runs.updateWhere p f hf) p f := rfl
  unfold tally
  rw [hrows.find hf id, Option.map_map]
  rfl

theorem tally_noteRefusal {runId : Uuid} {reason : String} {now : Time} :
    tally id (noteRefusal runId reason now runs) = tally id runs := by
  unfold noteRefusal updateRun
  rw [tally_updateWhere]
  unfold tally
  congr 1
  funext r
  split
  · rfl
  · rfl

theorem tally_addTicketResult {delta : TicketProgressDelta} {now : Time}
    {status : RunStatus} {total sum : ℕ} (h : tally id runs = some (status, total, sum)) :
    tally id (addTicketResult id delta now runs) =
      some (status, total, sum + (delta.processed + delta.failed)) := by
  obtain ⟨r, hfind, hr⟩ := Option.map_eq_some_iff.mp h
  obtain ⟨rfl, rfl, rfl⟩ : r.status = status ∧ r.totalTickets = total ∧
      r.processedTickets + r.failedTickets = sum := by simpa using hr
  have hid := (Table.find_eq_some.mp hfind).2
  unfold addTicketResult updateRun
  rw [tally_updateWhere, hfind]
  simp only [Option.map_some, hid, decide_true, if_true]
  congr 3
  omega

theorem tally_finishRun {note : Option String} {now : Time} {status : RunStatus}
    {total sum : ℕ} (h : tally id runs = some (status, total, sum)) :
    ∃ status', tally id (finishRun id note now runs) = some (status', total, sum) ∧
      status'.active = false := by
  obtain ⟨r, hfind, hr⟩ := Option.map_eq_some_iff.mp h
  obtain ⟨rfl, rfl, rfl⟩ : r.status = status ∧ r.totalTickets = total ∧
      r.processedTickets + r.failedTickets = sum := by simpa using hr
  have hid := (Table.find_eq_some.mp hfind).2
  unfold finishRun settleRun
  rw [tally_updateWhere, hfind]
  cases hactive : r.status.active with
  | true =>
      refine ⟨if 0 < r.failedTickets then .partly else .succeeded, ?_, ?_⟩
      · simp only [Option.map_some, hid, hactive, decide_true, and_self, if_true]
      · split
        · rfl
        · rfl
  | false =>
      refine ⟨r.status, ?_, hactive⟩
      simp only [Option.map_some, hactive, Bool.false_eq_true, and_false, decide_false, if_false]

end Tally

/-! ## The invariant -/

/-- Where the job of a number may be. -/
def Placed (tickets : List Uuid) (s : Shared) (k : ℕ) : Phase → Prop
  | .waiting t => tickets[k]? = some t ∧ t ∉ s.counted
  | .finishing t => tickets[k]? = some t ∧ t ∉ s.closed ∧ tickets.length ≤ s.counted.length
  | .recorded t => tickets[k]? = some t ∧ t ∈ s.counted
  | .resting => True
  | .astray => False

/-- The counts are as many as the tickets counted until the last is, and then the run is over, or
one job is about to end it. -/
structure Counting (tickets : List Uuid) (runId : Uuid) (s : Shared) (phase : ℕ → Phase) :
    Prop where
  running : s.counted.length < tickets.length →
    tally runId s.runs = some (.running, tickets.length, s.counted.length)
  reached : tickets.length ≤ s.counted.length →
    ∃ status sum, tally runId s.runs = some (status, tickets.length, sum) ∧
      tickets.length ≤ sum ∧ (status.active = false ∨ ∃ k t, phase k = .finishing t)
  nodup : s.counted.Nodup
  known : ∀ t ∈ s.counted, t ∈ tickets
  closed : ∀ t ∈ s.closed, t ∈ s.counted
  placed : ∀ k, Placed tickets s k (phase k)

section Statements

variable {tickets : List Uuid} {runId : Uuid} {s s' : Shared} {phase : ℕ → Phase} {k : ℕ} {t : Uuid}

theorem Placed.congr {ph : Phase} (h : Placed tickets s k ph) (hcounted : s'.counted = s.counted)
    (hclosed : s'.closed = s.closed) : Placed tickets s' k ph := by
  cases ph with
  | waiting t => exact ⟨h.1, hcounted ▸ h.2⟩
  | finishing t => exact ⟨h.1, hclosed ▸ h.2.1, hcounted ▸ h.2.2⟩
  | recorded t => exact ⟨h.1, hcounted ▸ h.2⟩
  | resting => exact trivial
  | astray => exact h

/-- What neither counts a ticket nor changes the counts. -/
theorem Counting.kept (h : Counting tickets runId s phase) {ph : Phase}
    (htally : tally runId s'.runs = tally runId s.runs) (hcounted : s'.counted = s.counted)
    (hclosed : s'.closed = s.closed) (hph : ph = phase k) :
    Counting tickets runId s' (Function.update phase k ph) := by
  subst hph
  rw [Function.update_eq_self]
  exact
    { running := by
        rw [htally, hcounted]
        exact h.running
      reached := by
        rw [htally, hcounted]
        exact h.reached
      nodup := hcounted ▸ h.nodup
      known := hcounted ▸ h.known
      closed := by
        rw [hcounted, hclosed]
        exact h.closed
      placed := fun j ↦ (h.placed j).congr hcounted hclosed }

/-- As long as a ticket is not counted, the counts are those of the others. -/
theorem Counting.length_lt (h : Counting tickets runId s phase) (ht : t ∈ tickets)
    (hnew : t ∉ s.counted) : s.counted.length < tickets.length := by
  have hnodup : (t :: s.counted).Nodup := List.nodup_cons.mpr ⟨hnew, h.nodup⟩
  have hsub : t :: s.counted ⊆ tickets := by
    intro t' ht'
    rcases List.mem_cons.mp ht' with rfl | ht'
    · exact ht
    · exact h.known t' ht'
  exact (List.subperm_of_subset hnodup hsub).length_le

/-- Two numbers do not have one ticket. -/
theorem ne_of_getElem? (hnodup : tickets.Nodup) {j : ℕ} {t' : Uuid} (hj : tickets[j]? = some t')
    (hk : tickets[k]? = some t) (hjk : j ≠ k) : t' ≠ t := by
  rintro rfl
  obtain ⟨hlt, -⟩ := List.getElem?_eq_some_iff.mp hj
  exact hjk ((List.getElem?_inj hlt hnodup).mp (hj.trans hk.symm))

/-- A result is counted; the count that reaches the total leaves the end of the run to its job. -/
theorem Counting.count (hnodup : tickets.Nodup) (h : Counting tickets runId s phase)
    {delta : TicketProgressDelta} (hk : phase k = .waiting t)
    (hdelta : delta = refused ∨ delta.processed + delta.failed = 1)
    (hlast : delta = refused → tickets.length ≤ s.counted.length + 1) {r : SyncRun}
    (htally : tally runId s'.runs = some (.running, tickets.length,
      s.counted.length + (delta.processed + delta.failed)))
    (hr : s'.runs.find runId = some r) (hcounted : s'.counted = t :: s.counted)
    (hclosed : s'.closed = s.closed) :
    Counting tickets runId s'
      (Function.update phase k (if complete r then .finishing t else .recorded t)) := by
  have hplaced := h.placed k
  rw [hk] at hplaced
  obtain ⟨hat, hnew⟩ := hplaced
  have hlength : s'.counted.length = s.counted.length + 1 := by rw [hcounted]; rfl
  have hunits : 1 ≤ delta.processed + delta.failed := by
    rcases hdelta with rfl | hone
    · exact Nat.le_succ 1
    · exact hone.ge
  have hcomplete : complete r = true ↔
      tickets.length ≤ s.counted.length + (delta.processed + delta.failed) := by
    unfold tally at htally
    rw [hr, Option.map_some, Option.some.injEq, Prod.mk.injEq, Prod.mk.injEq] at htally
    obtain ⟨-, htotal, hsum⟩ := htally
    unfold complete
    rw [decide_eq_true_eq, htotal, hsum]
  constructor
  case running =>
    intro hlt
    rw [hlength] at hlt ⊢
    rcases hdelta with rfl | hone
    · exact absurd (hlast rfl) (by omega)
    · rw [htally, hone]
  case reached =>
    intro hle
    rw [hlength] at hle
    refine ⟨.running, _, htally, by omega, .inr ⟨k, t, ?_⟩⟩
    rw [Function.update_self, if_pos (hcomplete.mpr (by omega))]
  case nodup =>
    rw [hcounted]
    exact List.nodup_cons.mpr ⟨hnew, h.nodup⟩
  case known =>
    intro t' ht'
    rw [hcounted] at ht'
    rcases List.mem_cons.mp ht' with rfl | ht'
    · exact List.mem_of_getElem? hat
    · exact h.known t' ht'
  case closed =>
    rw [hcounted, hclosed]
    exact fun t' ht' ↦ List.mem_cons_of_mem t (h.closed t' ht')
  case placed =>
    intro j
    by_cases hjk : j = k
    · subst hjk
      rw [Function.update_self]
      split
      · rename_i hdone
        refine ⟨hat, fun hcontra ↦ hnew (h.closed t (hclosed ▸ hcontra)), ?_⟩
        have hreached := hcomplete.mp hdone
        rw [hlength]
        rcases hdelta with rfl | hone
        · exact hlast rfl
        · omega
      · exact ⟨hat, hcounted ▸ List.mem_cons_self⟩
    · rw [Function.update_of_ne hjk]
      have hj := h.placed j
      cases hphase : phase j with
      | waiting t' =>
          rw [hphase] at hj
          refine ⟨hj.1, fun hcontra ↦ ?_⟩
          rw [hcounted] at hcontra
          rcases List.mem_cons.mp hcontra with rfl | hold
          · exact ne_of_getElem? hnodup hj.1 hat hjk rfl
          · exact hj.2 hold
      | finishing t' =>
          rw [hphase] at hj
          exact ⟨hj.1, hclosed ▸ hj.2.1, hj.2.2.trans (by omega)⟩
      | recorded t' =>
          rw [hphase] at hj
          exact ⟨hj.1, hcounted ▸ List.mem_cons_of_mem t hj.2⟩
      | resting => exact trivial
      | astray =>
          rw [hphase] at hj
          exact hj.elim

/-- The job that saw the last count ends the run. -/
theorem Counting.finish (h : Counting tickets runId s phase) (hk : phase k = .finishing t)
    (hfinished : ∀ status total sum, tally runId s.runs = some (status, total, sum) →
      ∃ status', tally runId s'.runs = some (status', total, sum) ∧ status'.active = false)
    (hcounted : s'.counted = s.counted) (hclosed : s'.closed = s.closed) :
    Counting tickets runId s' (Function.update phase k (.recorded t)) := by
  have hplaced := h.placed k
  rw [hk] at hplaced
  obtain ⟨hat, -, hlength⟩ := hplaced
  obtain ⟨status, sum, htally, hle, -⟩ := h.reached hlength
  obtain ⟨status', htally', hended⟩ := hfinished status _ sum htally
  refine
    { running := fun hlt ↦ ?_
      reached := fun _ ↦ ⟨status', sum, htally', hle, .inl hended⟩
      nodup := hcounted ▸ h.nodup
      known := hcounted ▸ h.known
      closed := ?_
      placed := fun j ↦ ?_ }
  · rw [hcounted] at hlt
    exact absurd hlt (Nat.not_lt.mpr hlength)
  · rw [hcounted, hclosed]
    exact h.closed
  · by_cases hjk : j = k
    · subst hjk
      rw [Function.update_self]
      refine ⟨hat, ?_⟩
      rw [hcounted]
      by_contra hnew
      exact absurd (h.length_lt (List.mem_of_getElem? hat) hnew) (Nat.not_lt.mpr hlength)
    · rw [Function.update_of_ne hjk]
      exact (h.placed j).congr hcounted hclosed

theorem Counting.close (hnodup : tickets.Nodup) (h : Counting tickets runId s phase)
    (hk : phase k = .recorded t) :
    Counting tickets runId { s with closed := t :: s.closed }
      (Function.update phase k .resting) := by
  have hplaced := h.placed k
  rw [hk] at hplaced
  obtain ⟨hat, hcounted⟩ := hplaced
  constructor
  case running => exact h.running
  case reached =>
    intro hle
    obtain ⟨status, sum, htally, hsum, hended⟩ := h.reached hle
    refine ⟨status, sum, htally, hsum, hended.imp id ?_⟩
    rintro ⟨j, t', hj⟩
    refine ⟨j, t', ?_⟩
    rw [Function.update_of_ne _, hj]
    rintro rfl
    rw [hk] at hj
    cases hj
  case nodup => exact h.nodup
  case known => exact h.known
  case closed =>
    intro t' ht'
    rcases List.mem_cons.mp ht' with rfl | ht'
    · exact hcounted
    · exact h.closed t' ht'
  case placed =>
    intro j
    by_cases hjk : j = k
    · subst hjk
      rw [Function.update_self]
      exact trivial
    · rw [Function.update_of_ne hjk]
      have hj := h.placed j
      cases hphase : phase j with
      | finishing t' =>
          rw [hphase] at hj
          refine ⟨hj.1, fun hcontra ↦ ?_, hj.2.2⟩
          rcases List.mem_cons.mp hcontra with rfl | hold
          · exact ne_of_getElem? hnodup hj.1 hat hjk rfl
          · exact hj.2.1 hold
      | waiting t' =>
          rw [hphase] at hj
          exact hj
      | recorded t' =>
          rw [hphase] at hj
          exact hj
      | resting => exact trivial
      | astray =>
          rw [hphase] at hj
          exact hj

/-- A statement that has no part in the counts. -/
theorem Counting.unturned (h : Counting tickets runId s phase) {w : Write} {r : Reply w}
    (hturn : ∀ ph, turn ph w r = ph) (htally : tally runId s'.runs = tally runId s.runs)
    (hcounted : s'.counted = s.counted) (hclosed : s'.closed = s.closed) :
    Counting tickets runId s' (Function.update phase k (turn (phase k) w r)) :=
  h.kept htally hcounted hclosed (hturn (phase k))

theorem Counting.turns_addTicketResult (hnodup : tickets.Nodup)
    (h : Counting tickets runId s phase) {runId' ticketId : Uuid} {delta : TicketProgressDelta}
    (hlegal : Legal runId (phase k) s (.addTicketResult runId' ticketId delta))
    (hcounts : CountsOne s (.addTicketResult runId' ticketId delta)) :
    Turns perform turn (Counting tickets runId) phase k (.addTicketResult runId' ticketId delta)
      s := by
  have hplaced := h.placed k
  cases hk : phase k with
  | waiting t =>
      rw [hk] at hlegal hplaced
      obtain ⟨rfl, rfl, hdelta⟩ := hlegal
      obtain ⟨hat, hnew⟩ := hplaced
      have htally := h.running (h.length_lt (List.mem_of_getElem? hat) hnew)
      unfold Turns perform perhaps
      refine Service.wp_perhaps (fun _ ↦ ?_) fun herror ↦ ?_
      · have htally' := @tally_addTicketResult _ _ delta s.now _ _ _ htally
        obtain ⟨r, hr, hrow⟩ := Option.map_eq_some_iff.mp htally
        have htotal : r.totalTickets = tickets.length := (Prod.mk.inj (Prod.mk.inj hrow).2).1
        obtain ⟨r', hr', -⟩ := Option.map_eq_some_iff.mp htally'
        have hlast : delta = refused → tickets.length ≤ s.counted.length + 1 := by
          intro hrefused
          obtain ⟨hmem, hid⟩ := Table.find_eq_some.mp hr
          exact htotal ▸ hcounts.1 hrefused r hmem hid
        have hcount := @Counting.count _ _ _ (recordResult runId' ticketId delta s.next).2 _ _ _
          hnodup h _ hk hdelta hlast r' htally' hr' rfl rfl
        have hfound : (recordResult runId' ticketId delta s.next).1 = some r' := hr'
        rw [hk, hfound]
        exact hcount
      · refine h.kept rfl rfl rfl ?_
        rw [hk]
        refine if_neg fun hgood ↦ ?_
        have hok := hcounts.2 hgood
        rw [herror] at hok
        cases hok
  | finishing t =>
      rw [hk] at hlegal
      exact hlegal.elim
  | recorded t =>
      rw [hk] at hlegal
      exact hlegal.elim
  | resting =>
      rw [hk] at hlegal
      exact hlegal.elim
  | astray =>
      rw [hk] at hplaced
      exact hplaced.elim

theorem Counting.turns_finishRun (h : Counting tickets runId s phase) {runId' : Uuid}
    {note : Option String} (hlegal : Legal runId (phase k) s (.finishRun runId' note))
    (hcounts : CountsOne s (.finishRun runId' note)) :
    Turns perform turn (Counting tickets runId) phase k (.finishRun runId' note) s := by
  have hplaced := h.placed k
  cases hk : phase k with
  | finishing t =>
      rw [hk] at hlegal
      obtain rfl : runId' = runId := hlegal
      unfold Turns perform perhaps
      refine Service.wp_perhaps (fun _ ↦ ?_) fun herror ↦ ?_
      · rw [hk]
        exact h.finish hk (fun status total sum htally ↦ tally_finishRun htally) rfl rfl
      · have hok : (s.answers 0).ok = true := hcounts
        rw [herror] at hok
        cases hok
  | waiting t =>
      rw [hk] at hlegal
      exact hlegal.elim
  | recorded t =>
      rw [hk] at hlegal
      exact hlegal.elim
  | resting =>
      rw [hk] at hlegal
      exact hlegal.elim
  | astray =>
      rw [hk] at hplaced
      exact hplaced.elim

theorem Counting.turns_endJob (hnodup : tickets.Nodup) (h : Counting tickets runId s phase)
    {ticketId : Uuid} (hlegal : Legal runId (phase k) s (.endJob ticketId)) :
    Turns perform turn (Counting tickets runId) phase k (.endJob ticketId) s := by
  have hplaced := h.placed k
  cases hk : phase k with
  | recorded t =>
      rw [hk] at hlegal
      obtain rfl : ticketId = t := hlegal
      refine (Service.wp_write _).mpr ?_
      rw [hk]
      exact h.close hnodup hk
  | waiting t =>
      rw [hk] at hlegal
      exact hlegal.elim
  | finishing t =>
      rw [hk] at hlegal
      exact hlegal.elim
  | resting =>
      rw [hk] at hlegal
      exact hlegal.elim
  | astray =>
      rw [hk] at hplaced
      exact hplaced.elim

/-- Each statement keeps the invariant. -/
theorem Counting.turns (hnodup : tickets.Nodup) (h : Counting tickets runId s phase) {w : Write}
    (hlegal : Legal runId (phase k) s w) (hcounts : CountsOne s w) :
    Turns perform turn (Counting tickets runId) phase k w s := by
  cases w with
  | reach =>
      have hturn : ∀ r ph, turn ph .reach r = ph := fun r ph ↦ by cases ph <;> rfl
      unfold Turns perform perhaps
      exact Service.wp_perhaps (fun _ ↦ h.unturned (hturn _) rfl rfl rfl) fun _ ↦
        h.unturned (hturn _) rfl rfl rfl
  | consult ticketId =>
      have hturn : ∀ r ph, turn ph (.consult ticketId) r = ph := fun r ph ↦ by cases ph <;> rfl
      unfold Turns perform perhaps
      exact Service.wp_perhaps (fun _ ↦ h.unturned (hturn _) rfl rfl rfl) fun _ ↦
        h.unturned (hturn _) rfl rfl rfl
  | checkStorageAvailable organizationId incomingBytes =>
      have hturn : ∀ r ph, turn ph (.checkStorageAvailable organizationId incomingBytes) r = ph :=
        fun r ph ↦ by cases ph <;> rfl
      unfold Turns perform perhaps
      exact Service.wp_perhaps (fun _ ↦ h.unturned (hturn _) rfl rfl rfl) fun _ ↦
        h.unturned (hturn _) rfl rfl rfl
  | noteRefusal runId' reason =>
      have hturn : ∀ r ph, turn ph (.noteRefusal runId' reason) r = ph :=
        fun r ph ↦ by cases ph <;> rfl
      unfold Turns perform perhaps
      exact Service.wp_perhaps (fun _ ↦ h.unturned (hturn _) tally_noteRefusal rfl rfl) fun _ ↦
        h.unturned (hturn _) rfl rfl rfl
  | upsertDocument key mirror =>
      have hturn : ∀ r ph, turn ph (.upsertDocument key mirror) r = ph :=
        fun r ph ↦ by cases ph <;> rfl
      unfold Turns perform perhaps
      exact Service.wp_perhaps (fun _ ↦ h.unturned (hturn _) rfl rfl rfl) fun _ ↦
        h.unturned (hturn _) rfl rfl rfl
  | addTicketResult runId' ticketId delta => exact h.turns_addTicketResult hnodup hlegal hcounts
  | finishRun runId' note => exact h.turns_finishRun hlegal hcounts
  | endJob ticketId => exact h.turns_endJob hnodup hlegal

/-- What the invariant says of the end of the run. -/
theorem Counting.endsWithTickets (hnodup : tickets.Nodup) (h : Counting tickets runId s phase) :
    EndsWithTickets tickets runId s := by
  have hcounted : (∀ t ∈ tickets, t ∈ s.counted) → tickets.length ≤ s.counted.length :=
    fun hall ↦ (List.subperm_of_subset hnodup hall).length_le
  constructor
  case early =>
    rintro ⟨t, ht, hopen⟩
    have hlt := h.length_lt ht fun hcontra ↦ hopen (.inl hcontra)
    exact ⟨_, _, h.running hlt, hlt⟩
  case reached =>
    intro hended
    obtain ⟨status, sum, htally, hsum, -⟩ :=
      h.reached (hcounted fun t ht ↦ (hended t ht).elim id (h.closed t))
    exact ⟨status, _, sum, htally, hsum⟩
  case settled =>
    intro hclosed
    obtain ⟨status, sum, htally, -, hended | ⟨k, t, hk⟩⟩ :=
      h.reached (hcounted fun t ht ↦ h.closed t (hclosed t ht))
    · exact ⟨status, _, sum, htally, hended⟩
    · have hplaced := h.placed k
      rw [hk] at hplaced
      exact absurd (hclosed t (List.mem_of_getElem? hplaced.1)) hplaced.2.1
  case once => exact h.nodup

end Statements

/-! ## Whole runs -/

section Runs

variable [MirrorText] {jobs : List TicketJob} {runId : Uuid} {c : Jobs}

abbrev CountingJobs (jobs : List TicketJob) (runId : Uuid) : Jobs → Prop :=
  Phased turn (Counting (jobs.map TicketJob.ticketId) runId) Anything (Legal runId)
    fun _ _ _ ↦ True

/-- At first every job waits, and nothing is counted. -/
theorem FannedOut.counting (h : FannedOut jobs runId c) : CountingJobs jobs runId c := by
  obtain ⟨r, hfind, hstatus, htotal, hprocessed, hfailed⟩ := h.run
  have htickets : 0 < (jobs.map TicketJob.ticketId).length := by
    rw [List.length_map]
    exact List.length_pos_iff.mpr h.nonempty
  refine ⟨fun k ↦ (jobs[k]?.map fun job ↦ Phase.waiting job.ticketId).getD .resting, ?_, ?_⟩
  · constructor
    case running =>
      intro _
      unfold tally
      rw [hfind, Option.map_some, hstatus, htotal, hprocessed, hfailed, h.uncounted,
        List.length_map]
      rfl
    case reached =>
      intro hle
      rw [h.uncounted] at hle
      exact absurd hle (Nat.not_le.mpr htickets)
    case nodup =>
      rw [h.uncounted]
      exact List.nodup_nil
    case known =>
      rw [h.uncounted]
      exact fun t ht ↦ (List.not_mem_nil ht).elim
    case closed =>
      rw [h.unclosed]
      exact fun t ht ↦ (List.not_mem_nil ht).elim
    case placed =>
      intro k
      cases hk : jobs[k]? with
      | none => exact trivial
      | some job =>
          refine ⟨?_, ?_⟩
          · rw [List.getElem?_map, hk]
            rfl
          · rw [h.uncounted]
            exact List.not_mem_nil
  · intro k p hp
    rw [h.queued k] at hp
    obtain ⟨job, hk, rfl⟩ := Option.map_eq_some_iff.mp hp
    have hjob := h.ofRun job (List.mem_of_getElem? hk)
    simp only [hk, Option.map_some, Option.getD_some]
    rw [← hjob]
    exact follows_ticketJob

omit [MirrorText] in
theorem CountingJobs.step (hnodup : (jobs.map TicketJob.ticketId).Nodup)
    (hc : CountingJobs jobs runId c) {k : ℕ}
    (hk : AtWrite CountsOne c (.advance k : Move Empty)) :
    CountingJobs jobs runId (stepJobs c k) :=
  Phased.move anything_refl anything_trans (fun _ _ _ r _ ↦ r.elim)
    (fun _ _ _ _ hI hlegal hcounts ↦ ⟨hI.turns hnodup hlegal hcounts, trivial⟩) hc hk

/-- In every run in which no ticket but the last is refused for want of room, and the last count of
each ticket and the end of the run go through, the run ends with its last ticket. -/
theorem endsWithTickets_always (h : FannedOut jobs runId c) {ks : List ℕ}
    (hks : Along stepJobs (fun c k ↦ AtWrite CountsOne c (.advance k : Move Empty)) c ks) :
    Always stepJobs
      (fun c ↦ EndsWithTickets (jobs.map TicketJob.ticketId) runId c.shared) c ks := by
  have hstep : ∀ c k, CountingJobs jobs runId c → AtWrite CountsOne c (.advance k : Move Empty) →
      CountingJobs jobs runId (stepJobs c k) ∧ True :=
    fun c k hc hk ↦ ⟨CountingJobs.step h.apart hc hk, trivial⟩
  have hcounting := (Along.invariant hstep h.counting hks).1
  exact hcounting.mono fun c hc ↦ hc.elim fun _ hI ↦ hI.1.endsWithTickets h.apart

end Runs

/-! ## A run of two tickets -/

section Example

abbrev titledByIssue : MirrorText where
  buildMirror ticket _ := ⟨ticket.issueId, ticket.fields.headD "", ""⟩

def twoJobs : List TicketJob := [⟨7, 10, 100, .jira, 1⟩, ⟨7, 10, 100, .jira, 2⟩]

def runOfTwo : SyncRun where
  id := 7
  organizationId := 10
  projectId := 100
  provider := .jira
  remoteProjectKey := some "QA"
  triggeredBy := some 1
  triggerSource := .manual
  nightlyCycleDate := none
  status := .running
  stage := .buildingDocuments
  totalTickets := 2
  processedTickets := 0
  failedTickets := 0
  documentsCreated := 0
  documentsUpdated := 0
  commentsSynced := 0
  decisionSummaries := 0
  error := none
  truncated := false
  windowStart := some 1000
  syncSince := none
  startedAt := some 1000
  finishedAt := none
  createdAt := 1000
  updatedAt := 1000

def goesThrough (refusal : Option String) : Answer := ⟨true, id, ⟨none, [], none, false⟩, refusal⟩

/-- Two tickets with a row; there is room for a document or not. -/
def twoTickets (refusal : Option String) : Shared where
  tickets := ⟨[⟨1, 100, .jira, "QA-1", ["Login"], none, 500⟩,
    ⟨2, 100, .jira, "QA-2", ["Logout"], none, 500⟩], by decide⟩
  documents := .empty
  connected _ _ := true
  runs := ⟨[runOfTwo], by decide⟩
  now := 2000
  answers _ := goesThrough refusal
  counted := []
  closed := []

def twoQueued (refusal : Option String) : Jobs :=
  letI := titledByIssue
  ⟨twoTickets refusal, fun k ↦ twoJobs[k]?.map ticketJob⟩

theorem fannedOut_twoQueued (refusal : Option String) :
    @FannedOut titledByIssue twoJobs 7 (twoQueued refusal) :=
  letI := titledByIssue
  { queued := fun _ ↦ rfl
    ofRun := by decide
    apart := by decide
    nonempty := by decide
    run := ⟨runOfTwo, rfl, rfl, rfl, rfl, rfl⟩
    uncounted := rfl
    unclosed := rfl }

def bothInTurn : List ℕ := List.replicate 14 0 ++ List.replicate 14 1

theorem endsWithTickets_both :
    ((bothInTurn.foldl stepJobs (twoQueued none)).shared.closed = [2, 1] ∧
      tally 7 (bothInTurn.foldl stepJobs (twoQueued none)).shared.runs = some (.succeeded, 2, 2)) ∧
      Always stepJobs (fun c ↦ EndsWithTickets [1, 2] 7 c.shared) (twoQueued none) bothInTurn :=
  ⟨by decide +kernel,
    @endsWithTickets_always titledByIssue twoJobs 7 (twoQueued none) (fannedOut_twoQueued none)
      bothInTurn (by decide +kernel)⟩

/-- There is no room for the first document, and the run ends with the second ticket untouched. -/
theorem not_endsWithTickets_refused :
    @FannedOut titledByIssue twoJobs 7 (twoQueued (some "No room")) ∧
      ¬ EndsWithTickets [1, 2] 7
        ((List.replicate 12 0).foldl stepJobs (twoQueued (some "No room"))).shared := by
  refine ⟨fannedOut_twoQueued _, fun h ↦ ?_⟩
  obtain ⟨total, sum, htally, -⟩ := h.early ⟨2, by decide, by decide +kernel⟩
  have hended : tally 7 ((List.replicate 12 0).foldl stepJobs
      (twoQueued (some "No room"))).shared.runs = some (.partly, 2, 2) := by decide +kernel
  rw [hended] at htally
  cases htally

end Example

end Tesbo.Sync
