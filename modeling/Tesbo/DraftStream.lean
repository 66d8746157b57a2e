import Tesbo.Reasoning.JsonSyntax

/-!
# The drafts of a streamed answer

While the model is still writing `{"drafts": […]}`, its text is read unit by unit, and each object of
the array is handed on as soon as its closing brace has come.
-/

namespace Tesbo.DraftStream

open Reasoning.JsonSyntax
open CodeUnits

inductive Container where
  | object
  | array
deriving DecidableEq, Repr

/-- `ZyraDraftStreamParser` between two units.  `text` is what has been read, the innermost container
is the first of `stack`, and `stringStart` is there while a string is open. -/
structure Parser where
  text : Text
  stack : List Container
  stringStart : Option ℕ
  escaped : Bool
  lastTopLevelKey : Option Text
  draftsDepth : Option ℕ
  draftStart : Option ℕ
  elements : ℕ

def fresh : Parser where
  text := []
  stack := []
  stringStart := none
  escaped := false
  lastTopLevelKey := none
  draftsDepth := none
  draftStart := none
  elements := 0

def draftsKey : Text := literal ['d', 'r', 'a', 'f', 't', 's']

/-- `parsed && typeof parsed === "object" && !Array.isArray(parsed)` -/
def isObject : Value → Bool
  | .object _ => true
  | _ => false

/-- What a closed element is handed on as. -/
def draftOf (text : Text) (index : ℕ) : List (Value × ℕ) :=
  ((parse text).toList.filter isObject).map (·, index)

/-- A unit inside of a string. -/
def Parser.inString (s : Parser) (start : ℕ) (c : UInt16) : Parser :=
  let next := { s with text := s.text ++ [c] }
  if s.escaped then { next with escaped := false }
  else if c = unit '\\' then { next with escaped := true }
  else if c = unit '"' then
    { next with
      stringStart := none
      lastTopLevelKey :=
        if s.stack.length = 1 then some (s.text.drop (start + 1)) else s.lastTopLevelKey }
  else next

/-- A closing brace or bracket. -/
def Parser.close (s : Parser) (c : UInt16) : Parser × List (Value × ℕ) :=
  let next := { s with text := s.text ++ [c] }
  match s.stack with
  | [] => (next, [])
  | _ :: stack =>
      let draftsDepth :=
        if c = unit ']' ∧ s.draftsDepth.any (stack.length < ·) then none else s.draftsDepth
      match s.draftStart with
      | none => ({ next with stack := stack, draftsDepth := draftsDepth }, [])
      | some start =>
          if c = unit '}' ∧ draftsDepth = some stack.length then
            ({ next with
                stack := stack, draftsDepth := draftsDepth, draftStart := none,
                elements := s.elements + 1 },
              draftOf (next.text.drop start) s.elements)
          else ({ next with stack := stack, draftsDepth := draftsDepth }, [])

/-- The body of the loop of `push`. -/
def Parser.step (s : Parser) (c : UInt16) : Parser × List (Value × ℕ) :=
  let next := { s with text := s.text ++ [c] }
  match s.stringStart with
  | some start => (s.inString start c, [])
  | none =>
      if c = unit '"' then
        (if s.stack = [] then next else { next with stringStart := some s.text.length }, [])
      else if c = unit '{' then
        ({ next with
            draftStart :=
              if s.draftsDepth = some s.stack.length then some s.text.length else s.draftStart
            stack := .object :: s.stack }, [])
      else if c = unit '[' then
        (if s.stack = [] then next
          else
            { next with
              stack := .array :: s.stack
              draftsDepth :=
                if s.draftsDepth = none ∧ (Container.array :: s.stack).length = 2 ∧
                    s.lastTopLevelKey = some draftsKey then some 2
                else s.draftsDepth }, [])
      else if c = unit '}' ∨ c = unit ']' then s.close c
      else (next, [])

def push : Parser → Text → Parser × List (Value × ℕ)
  | s, [] => (s, [])
  | s, c :: chunk =>
      let r := s.step c
      let more := push r.1 chunk
      (more.1, r.2 ++ more.2)

/-- The drafts a sink is given for the chunks of one answer. -/
def feed : Parser → List Text → List (Value × ℕ)
  | _, [] => []
  | s, chunk :: chunks =>
      let r := push s chunk
      r.2 ++ feed r.1 chunks

/-- The objects of the arrays under `drafts`. -/
def drafts (fields : List (Text × Value)) : List Value :=
  fields.flatMap fun f ↦
    if f.1 = draftsKey then
      match f.2 with
      | .array items => items.filter isObject
      | _ => []
    else []

/-- The objects of an array with their places in it, as the final parse numbers them. -/
def placed (items : List Value) : List (Value × ℕ) := items.zipIdx.filter fun p ↦ isObject p.1

end Tesbo.DraftStream
