import Tesbo.RunHistory
import Tesbo.Reasoning.Assoc

/-!
# The configuration file of the reporter

`tesbo.config.json` holds three keys of the SDK beside what a project has put there itself.  `init`
writes the file over and over, each time over what it reads of it.
-/

namespace Tesbo.ConfigFile

open Reasoning
open RunHistory (Json)

def configFilename : String := "tesbo.config.json"

inductive OwnedKey where
  | baseUrl
  | projectId
  | token
deriving DecidableEq, Repr

def OwnedKey.name : OwnedKey → String
  | .baseUrl => "baseUrl"
  | .projectId => "projectId"
  | .token => "token"

def ownedKeys : List OwnedKey := [.baseUrl, .projectId, .token]

def ownedKey? (key : String) : Option OwnedKey := ownedKeys.find? fun owned ↦ owned.name = key

/-- A `TesboConfigInput`; `none` is `undefined`. -/
abbrev Values := OwnedKey → Option String

/-- The file as it is read.  An object is written as a text that parses to it. -/
inductive Content where
  | missing
  | unreadable (message : String)
  | notJson (message : String)
  | parsed (j : Json)

structure FileConfig where
  values : Values
  /-- Whether there is a file; `path` is then its place. -/
  found : Bool
  error : Option String
  extra : Assoc String Json

def noFileConfig : FileConfig := ⟨fun _ ↦ none, false, none, []⟩

def FileConfig.failed (error : String) : FileConfig := ⟨fun _ ↦ none, true, some error, []⟩

/-- `typeof`, and `array` for a list. -/
def typeName : Json → String
  | .text _ => "string"
  | .number _ => "number"
  | .boolean _ => "boolean"
  | .list _ => "array"
  | .null | .object _ => "object"

/-- `extra[key] = value`; with this one key it sets the prototype of the object instead. -/
def assign (extra : Assoc String Json) (key : String) (value : Json) : Assoc String Json :=
  if key = "__proto__" then extra else extra.set key value

def readEntries : List (String × Json) → Values → Assoc String Json →
    Except String (Values × Assoc String Json)
  | [], values, extra => .ok (values, extra)
  | (key, value) :: rest, values, extra =>
      match ownedKey? key with
      | none => readEntries rest values (assign extra key value)
      | some owned =>
          match value with
          | .null => readEntries rest values extra
          | .text s =>
              if jsTrim s = "" then readEntries rest values extra
              else readEntries rest (Function.update values owned (some (jsTrim s))) extra
          | value =>
              .error (configFilename ++ ": \"" ++ key ++ "\" must be a string, got " ++
                typeName value ++ ".")

def readConfigFile : Content → FileConfig
  | .missing => noFileConfig
  | .unreadable message => .failed (configFilename ++ " could not be read: " ++ message)
  | .notJson message => .failed (configFilename ++ " is not valid JSON: " ++ message)
  | .parsed (.object fields) =>
      match readEntries fields (fun _ ↦ none) [] with
      | .ok (values, extra) => ⟨values, true, none, extra⟩
      | .error e => .failed e
  | .parsed _ => .failed (configFilename ++ " must contain a JSON object.")

/-- What a key is written with, if it is written. -/
def usable (next : Option String) : Option String := (next.map jsTrim).filter (· ≠ "")

/-- What the keys of a file are taken over from. -/
def previous (existing : FileConfig) : Values :=
  if existing.error.isSome then fun _ ↦ none else existing.values

def setOwned (existing : FileConfig) (values : Values) (body : Assoc String Json)
    (key : OwnedKey) : Assoc String Json :=
  match usable ((values key).or (previous existing key)) with
  | some s => body.set key.name (.text s)
  | none => body.erase key.name

def writtenBody (existing : FileConfig) (values : Values) : Assoc String Json :=
  ownedKeys.foldl (setOwned existing values) (if existing.error.isSome then [] else existing.extra)

def tokenIn (body : Assoc String Json) : Bool :=
  match body.get OwnedKey.token.name with
  | some (.text s) => s ≠ ""
  | _ => false

structure File where
  content : Content
  /-- The permissions, as `chmod` counts them. -/
  mode : ℕ

/-- A file that is there keeps its permissions, unless it holds a token now. -/
def writeConfigFile (values : Values) (file : File) : File :=
  let body := writtenBody (readConfigFile file.content) values
  ⟨.parsed (.object body),
    if tokenIn body then 0o600
    else match file.content with
      | .missing => 0o644
      | _ => file.mode⟩

end Tesbo.ConfigFile
