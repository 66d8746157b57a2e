import Tesbo.KnowledgeBase
import Tesbo.Reasoning.Doubles

/-!
# Storage warnings

The owner of a workspace is told when its files take up 80, 95 and 100 per cent of what its plan
allows.  The row of the workspace keeps the highest of these that was told, and only an upload looks
at it.  The notice that a grace period is over, sent where an upload is refused, is left out.
-/

namespace Tesbo.StorageWarnings

open Reasoning.Doubles
open Knowledge (storageLimitBytes storageReason kilobyte)

structure Config where
  isStripeBillingEnabled : Bool
  frontendUrl : String
  supportContactEmail : String

/-- A workspace always has an owner, whose account has an address. -/
structure Workspace where
  name : String
  owner : String
  owner_ne : owner ≠ ""
  effectivePlan : Knowledge.Plan
  /-- What the live files and attachments take up. -/
  usedBytes : ℕ
  storageWarnedPct : Option ℕ

structure StorageWarning where
  email : String
  name : String
  threshold : ℕ
  used : String
  limit : String
  isPro : Bool
  billingUrl : String
  supportContactEmail : String
deriving DecidableEq, Repr

def storageWarnThresholds : List ℕ := [100, 95, 80]

def megabyte : ℕ := kilobyte * kilobyte

def gigabyte : ℕ := kilobyte * kilobyte * kilobyte

def formatBytes (bytes : ℕ) : String :=
  if gigabyte ≤ bytes then
    let tenths := (20 * bytes + gigabyte) / (2 * gigabyte)
    s!"{tenths / 10}.{tenths % 10}GB"
  else if megabyte ≤ bytes then s!"{(2 * bytes + megabyte) / (2 * megabyte)}MB"
  else s!"{(2 * bytes + kilobyte) / (2 * kilobyte)}KB"

/-- `Math.floor((usedBytes / limitBytes) * 100)`, in doubles. -/
def pctOf (usedBytes limitBytes : ℕ) : ℤ :=
  if 0 < limitBytes then ⌊double (double (usedBytes / limitBytes) * 100)⌋ else 0

def maybeWarnStorage (cfg : Config) (w : Workspace) (usedBytes limitBytes : ℕ) (isPro : Bool) :
    Workspace × Option StorageWarning :=
  match storageWarnThresholds.find? fun t : ℕ ↦ t ≤ pctOf usedBytes limitBytes with
  | none => ({ w with storageWarnedPct := none }, none)
  | some crossed =>
      if w.storageWarnedPct.all (· < crossed) then
        ({ w with storageWarnedPct := some crossed },
          if w.owner = "" then none
          else some ⟨w.owner, w.name, crossed, formatBytes usedBytes, formatBytes limitBytes, isPro,
            cfg.frontendUrl ++ "/settings?tab=billing", cfg.supportContactEmail⟩)
      else if w.storageWarnedPct.any (crossed < ·) then
        ({ w with storageWarnedPct := some crossed }, none)
      else (w, none)

def maxSafeInteger : ℕ := 2 ^ 53 - 1

structure Check where
  allowed : Bool
  reason : Option String
  usedBytes : ℕ
  limitBytes : ℕ
deriving DecidableEq, Repr

def checkStorageAvailable (cfg : Config) (w : Workspace) (incomingBytes : ℕ) :
    Workspace × Option StorageWarning × Check :=
  if ¬ cfg.isStripeBillingEnabled then (w, none, ⟨true, none, w.usedBytes, maxSafeInteger⟩)
  else
    let limit := storageLimitBytes w.effectivePlan
    if limit < w.usedBytes + incomingBytes then
      (w, none,
        ⟨false, some (storageReason cfg.supportContactEmail w.effectivePlan), w.usedBytes, limit⟩)
    else
      let warned := maybeWarnStorage cfg w (w.usedBytes + incomingBytes) limit
        (w.effectivePlan = .pro)
      (warned.1, warned.2, ⟨true, none, w.usedBytes, limit⟩)

inductive Event where
  | upload (bytes : ℕ)
  /-- Files that are deleted, by what they take up. -/
  | delete (bytes : ℕ)
deriving DecidableEq, Repr

/-- What an event leaves, and the warning that is sent. -/
def occur (cfg : Config) (w : Workspace) : Event → Workspace × Option StorageWarning
  | .upload bytes =>
      let (w', sent, check) := checkStorageAvailable cfg w bytes
      (if check.allowed then { w' with usedBytes := w'.usedBytes + bytes } else w', sent)
  | .delete bytes => ({ w with usedBytes := w.usedBytes - bytes }, none)

def step (cfg : Config) (w : Workspace) (e : Event) : Workspace := (occur cfg w e).1

end Tesbo.StorageWarnings
