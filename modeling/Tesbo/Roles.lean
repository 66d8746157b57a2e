import Tesbo.Text

/-!
# Roles

Stored roles are read by `normalizeRole`, which takes anything it does not know for a QA engineer;
roles a caller supplies are read by `parseRole`, which refuses what it does not know.
-/

namespace Tesbo

inductive Role where
  | owner
  | manager
  | qaEngineer
deriving DecidableEq, Repr

/-- The role as it is stored. -/
def Role.text : Role → String
  | .owner => "owner"
  | .manager => "manager"
  | .qaEngineer => "qa_engineer"

/-- `trim().toLowerCase()` as far as the comparisons below can see it: no letter outside ASCII has
a lower case form that is one of the role names. -/
def roleWord (role : String) : List Char := (trimChars role.toList).map Char.toLower

def normalizeRole (role : String) : Role :=
  let n := String.ofList ((roleWord role).map fun c ↦ if c = '-' ∨ c = ' ' then '_' else c)
  if n = "owner" then .owner
  else if n = "manager" ∨ n = "admin" ∨ n = "test_manager" then .manager
  else .qaEngineer

/-- `replace(/[-\s]+/g, "_")` -/
def underscoreRuns : List Char → List Char
  | [] => []
  | [c] => if jsSpace c || c = '-' then ['_'] else [c]
  | c :: d :: cs =>
      if (jsSpace c || c = '-') && (jsSpace d || d = '-') then underscoreRuns (d :: cs)
      else (if jsSpace c || c = '-' then '_' else c) :: underscoreRuns (d :: cs)

def parseRole (role : String) : Option Role :=
  let n := String.ofList (underscoreRuns (roleWord role))
  if n = "owner" then some .owner
  else if n = "manager" ∨ n = "admin" ∨ n = "test_manager" then some .manager
  else if n = "qa_engineer" ∨ n = "qa" ∨ n = "tester" ∨ n = "member" then some .qaEngineer
  else none

/-- Reading a stored role back gives the role. -/
@[simp] theorem normalizeRole_text (r : Role) : normalizeRole r.text = r := by
  cases r <;> decide

/-- A role that is refused when a caller supplies it reads as a QA engineer once stored. -/
example : parseRole "ownr" = none ∧ normalizeRole "ownr" = .qaEngineer := by decide

end Tesbo
