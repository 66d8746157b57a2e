import Tesbo.SyncRuns
import Tesbo.Reasoning.Phases

/-!
# The tickets of a sync run

A job for each ticket of a run writes its document to the knowledge base and tells the run.  The job
is tried three times; each statement and each request may fail.  What a document says is
`MirrorText`; the cached comments and summaries are left out, and so is what the job only logs.
-/

namespace Tesbo.Sync

open Reasoning
open TicketComments (Provider)

/-! ## Rows -/

/-- A row of the provider's table of tickets; `fields` are the texts a document is made of. -/
structure Ticket where
  id : Uuid
  projectId : Uuid
  provider : Provider
  issueId : String
  fields : List String
  updatedAt : Option Time
  syncedAt : Time
deriving DecidableEq, Repr

/-- What mirrors a ticket in the knowledge base. -/
structure MirrorKey where
  projectId : Uuid
  provider : Provider
  issueId : String
deriving DecidableEq, Repr

/-- A live document of the provider's folder. -/
structure Mirror where
  key : MirrorKey
  title : String
  contentText : Option String
  contentHtml : Option String
deriving DecidableEq, Repr

/-- What the provider and the summarising model say of a ticket when its document is built. -/
structure Consulted where
  description : Option String
  comments : List String
  decisionSummary : Option String
  summarized : Bool
deriving DecidableEq, Repr

structure BuiltDocument where
  title : String
  markdown : String
  html : String
deriving DecidableEq, Repr

/-- How a document is worded. -/
class MirrorText where
  buildMirror : Ticket → Consulted → BuiltDocument

/-- The payload of a ticket's job. -/
structure TicketJob where
  runId : Uuid
  organizationId : Uuid
  projectId : Uuid
  provider : Provider
  ticketId : Uuid
deriving DecidableEq, Repr

/-- What a job reads of the workspace besides its run. -/
structure Mirrored where
  tickets : Table Ticket.id
  documents : Table Mirror.key
  connected : Uuid → Provider → Bool

/-- How the next statement or request turns out, and what others do meanwhile. -/
structure Answer where
  ok : Bool
  meanwhile : Mirrored → Mirrored
  consulted : Consulted
  /-- Why there is no room for a document. -/
  refusal : Option String

/-- `answers` are those to come.  `counted` are the tickets whose result is recorded, a ticket as
often as it is, and `closed` those whose job has ended, with what follows a failure; no job reads
these two. -/
structure Shared extends Mirrored where
  runs : Runs
  now : Time
  answers : ℕ → Answer
  counted : List Uuid
  closed : List Uuid

/-! ## Statements -/

inductive Write where
  /-- Whether a read goes through; what it reads is read next. -/
  | reach
  | consult (ticketId : Uuid)
  | checkStorageAvailable (organizationId : Uuid) (incomingBytes : ℕ)
  | noteRefusal (runId : Uuid) (reason : String)
  | upsertDocument (key : MirrorKey) (mirror : BuiltDocument)
  | addTicketResult (runId ticketId : Uuid) (delta : TicketProgressDelta)
  | finishRun (runId : Uuid) (note : Option String)
  | endJob (ticketId : Uuid)

/-- What a statement answers with; its failure is an answer. -/
@[reducible] def Reply : Write → Type
  | .reach | .noteRefusal _ _ | .finishRun _ _ => Except Failure Unit
  | .consult _ => Except Failure Consulted
  | .checkStorageAvailable _ _ => Except Failure (Option String)
  | .upsertDocument _ _ => Except Failure Bool
  | .addTicketResult _ _ _ => Except Failure (Option SyncRun)
  | .endJob _ => Unit

def Shared.next (s : Shared) : Shared :=
  { s with
    toMirrored := (s.answers 0).meanwhile s.toMirrored, answers := fun n ↦ s.answers (n + 1) }

def unreachable : Failure := .sqlState "08006" ""

/-- A statement may fail, and leaves the rows as they were then. -/
def perhaps {α : Type} (f : Answer → Shared → α × Shared) :
    Service Failure Shared (Except Failure α) :=
  Service.perhaps (fun s ↦ (s.answers 0).ok) unreachable (fun s ↦ f (s.answers 0) s.next)
    Shared.next

def Shared.setRuns (s : Shared) (runs : Runs) : Shared := { s with runs := runs }

/-- Whether the document is a new one. -/
def upsertDocument (key : MirrorKey) (mirror : BuiltDocument) (s : Shared) : Bool × Shared :=
  let documents := s.documents.upsert
    (⟨key, mirror.title, some mirror.markdown, some mirror.html⟩ : Mirror)
    (fun d ↦ { d with
      title := mirror.title, contentText := some mirror.markdown,
      contentHtml := some mirror.html })
    fun _ ↦ rfl
  ((s.documents.find key).isNone, { s with documents := documents })

def recordResult (runId ticketId : Uuid) (delta : TicketProgressDelta) (s : Shared) :
    Option SyncRun × Shared :=
  let runs := addTicketResult runId delta s.now s.runs
  (runs.find runId, { s with runs := runs, counted := ticketId :: s.counted })

def perform : (w : Write) → Service Failure Shared (Reply w)
  | .reach => perhaps fun _ s ↦ ((), s)
  | .consult _ => perhaps fun answer s ↦ (answer.consulted, s)
  | .checkStorageAvailable _ _ => perhaps fun answer s ↦ (answer.refusal, s)
  | .noteRefusal runId reason =>
      perhaps fun _ s ↦ ((), s.setRuns (noteRefusal runId reason s.now s.runs))
  | .upsertDocument key mirror => perhaps fun _ s ↦ upsertDocument key mirror s
  | .addTicketResult runId ticketId delta => perhaps fun _ s ↦ recordResult runId ticketId delta s
  | .finishRun runId note => perhaps fun _ s ↦ ((), s.setRuns (finishRun runId note s.now s.runs))
  | .endJob ticketId => Service.write fun s ↦ { s with closed := ticketId :: s.closed }

abbrev Procedure (α : Type) := Proc Shared Reply Failure α

open Proc

abbrev ask (w : Write) : Procedure (Reply w) := issue w

def reading {α : Type} (f : Shared → α) : Procedure α := do
  let reached ← ask .reach
  let _ ← ofExcept reached
  query f

/-! ## A ticket's job -/

def recordTicketResult (job : TicketJob) (delta : TicketProgressDelta) : Procedure Unit := do
  let recorded ← ask (.addTicketResult job.runId job.ticketId delta)
  let row ← ofExcept recorded
  match row with
  | none => pure ()
  | some row =>
      if complete row then do
        let finished ← ask (.finishRun job.runId none)
        ofExcept finished
      else pure ()

def processed : TicketProgressDelta := ⟨1, 0, 0, 0, 0, 0⟩

/-- A ticket there is no room for is counted on both sides. -/
def refused : TicketProgressDelta := ⟨1, 1, 0, 0, 0, 0⟩

def failedForGood : TicketProgressDelta := ⟨0, 1, 0, 0, 0, 0⟩

def written (inserted : Bool) (consulted : Consulted) : TicketProgressDelta where
  processed := 1
  failed := 0
  created := if inserted then 1 else 0
  updated := if inserted then 0 else 1
  comments := consulted.comments.length
  decisions :=
    if consulted.summarized ∧ (consulted.decisionSummary.getD "") ≠ "" then 1 else 0

def lineEnd (c : Char) : Bool := c = '\n' || c = '\r' || c.toNat = 0x2028 || c.toNat = 0x2029

/-- `replace(/^- \*\*Updated:\*\*.*$/m, "")` -/
def stripVolatile (lineStart : Bool) : List Char → List Char
  | [] => []
  | c :: cs =>
      if lineStart ∧ "- **Updated:**".toList <+: c :: cs then
        (c :: cs).dropWhile fun c ↦ !lineEnd c
      else c :: stripVolatile (lineEnd c) cs

def stripVolatileMeta (text : String) : List Char := stripVolatile true text.toList

def contentChanged (previous : Option Mirror) (mirror : BuiltDocument) : Bool :=
  match previous.bind Mirror.contentText with
  | none => true
  | some text => stripVolatileMeta text ≠ stripVolatileMeta mirror.markdown ||
      previous.map Mirror.title ≠ some mirror.title

section Job

variable [MirrorText]

def processTicket (job : TicketJob) : Procedure Unit := do
  let row ← reading fun s ↦ (s.tickets.find job.ticketId).filter fun t ↦ t.projectId = job.projectId
  match row with
  | none => recordTicketResult job processed
  | some row => do
      let connected ← reading fun s ↦ s.connected job.organizationId job.provider
      require (connected = true) (.badRequest s!"{job.provider.text} connection disappeared mid-run")
      let answer ← ask (.consult row.id)
      let consulted ← ofExcept answer
      let mirror := MirrorText.buildMirror row consulted
      let key : MirrorKey := ⟨job.projectId, job.provider, row.issueId⟩
      let previous ← reading fun s ↦ s.documents.find key
      if contentChanged previous mirror = false then recordTicketResult job processed
      else do
        let checked ← ask (.checkStorageAvailable job.organizationId
          (mirror.markdown.utf8ByteSize + mirror.html.utf8ByteSize))
        let refusal ← ofExcept checked
        match refusal with
        | some reason => do
            -- that the reason cannot be noted does not stop the job
            let _ ← ask (.noteRefusal job.runId reason)
            recordTicketResult job refused
        | none => do
            let upserted ← ask (.upsertDocument key mirror)
            let inserted ← ofExcept upserted
            recordTicketResult job (written inserted consulted)

/-- A job with so many attempts left: an error of the last one is counted, and nothing follows when
that fails. -/
def attempts (job : TicketJob) : ℕ → Procedure Unit
  | 0 => do
      let _ ← (recordTicketResult job failedForGood).attempt
      pure ()
  | n + 1 => do
      let outcome ← (processTicket job).attempt
      match outcome with
      | .ok _ => pure ()
      | .error _ => attempts job n

def ticketJob (job : TicketJob) : Procedure Unit := do
  attempts job 3
  ask (.endJob job.ticketId)

end Job

end Tesbo.Sync
