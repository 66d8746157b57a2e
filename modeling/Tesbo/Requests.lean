import Tesbo.ImportRules
import Tesbo.Reasoning.Runs

/-!
# Requests on suites and test cases

One request after the other, each answered or refused before the next comes in.
-/

namespace Tesbo

open Reasoning Service

inductive Call where
  | createTestCaseForUser (projectId : IdText) (body : TestcaseBody)
  | updateTestCaseForUser (projectId testcaseId : IdText) (body : TestcaseBody)
  | bulkUpdateTestCases (projectId : IdText) (testcaseIds : List IdText) (body : TestcaseBody)
  | bulkDeleteTestCases (projectId : IdText) (testcaseIds : List IdText)
  | importTestCases (projectId : IdText) (body : ImportBody)
  | createSuiteForUser (projectId : IdText) (body : SuiteBody)
  | updateSuite (suiteId : IdText) (body : SuiteBody)
  | deleteSuite (suiteId : IdText) (mode : DeleteMode)

/-- A call, who makes it and when. -/
structure Request where
  userId : Option Uuid
  now : Time
  call : Call

/-- A handler run for its effect. -/
def effect {α : Type} (m : Handler α) : Handler Unit := do
  let _ ← m
  pure ()

def Call.run [Unicode] (userId : Option Uuid) : Call → Handler Unit
  | .createTestCaseForUser projectId body =>
      effect (Tesbo.createTestCaseForUser userId projectId body)
  | .updateTestCaseForUser projectId testcaseId body =>
      Tesbo.updateTestCaseForUser userId projectId testcaseId body
  | .bulkUpdateTestCases projectId ids body => Tesbo.bulkUpdateTestCases projectId userId ids body
  | .bulkDeleteTestCases projectId ids => Tesbo.bulkDeleteTestCases projectId userId ids
  | .importTestCases projectId body => effect (Tesbo.importTestCases userId projectId body)
  | .createSuiteForUser projectId body => effect (Tesbo.createSuiteForUser userId projectId body)
  | .updateSuite suiteId body => Tesbo.updateSuite userId suiteId body
  | .deleteSuite suiteId mode => Tesbo.deleteSuite userId suiteId mode

/-- One request, answered or refused. -/
def step [Unicode] (db : Db) (r : Request) : Db :=
  after (r.call.run r.userId) { db with now := r.now }

/-- The caller is a member of the project. -/
def CallerIn (db : Db) (userId : Option Uuid) (projectId : Uuid) : Prop :=
  ∃ uid ∈ userId, IsMember db projectId uid

instance (db : Db) (userId : Option Uuid) (projectId : Uuid) :
    Decidable (CallerIn db userId projectId) :=
  inferInstanceAs (Decidable (∃ uid ∈ userId, IsMember db projectId uid))

theorem wp_effect {α : Type} {m : Handler α} {P : Db → Prop} {db : Db} :
    wp (effect m) (fun _ db' ↦ P db') (fun _ db' ↦ P db') db ↔
      wp m (fun _ db' ↦ P db') (fun _ db' ↦ P db') db := by
  unfold effect
  simp only [wp_bind, wp_pure]

/-- Two workspaces with a project each, of one member each. -/
def twoTenants : Db :=
  { Db.empty with
    uuids := fun n ↦ 1000 + n
    users := ⟨[⟨1, "ann@one.test", some 10⟩, ⟨2, "bob@two.test", some 20⟩], by decide⟩
    organizations := ⟨[⟨10, 0⟩, ⟨20, 0⟩], by decide⟩
    organizationMembers := ⟨[⟨10, 1, "owner"⟩, ⟨20, 2, "owner"⟩], by decide⟩
    projects := ⟨[⟨100, some 10, "ONE", "", none⟩, ⟨200, some 20, "TWO", "", none⟩], by decide⟩
    projectMembers := ⟨[⟨100, 1, "owner"⟩, ⟨200, 2, "owner"⟩], by decide⟩ }

end Tesbo
