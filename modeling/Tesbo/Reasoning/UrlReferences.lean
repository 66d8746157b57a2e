import Mathlib.Data.List.DropRight
import Mathlib.Tactic

/-!
# URL references

The URL parser of browsers, followed as far as it decides the origin: a reference is read against the
URL of a site.  Its states are functions on what is left to read.  Hosts are parsed elsewhere.
-/

namespace Tesbo.Reasoning.UrlReferences

/-- The host parser: whether the host is opaque, and its text. -/
class HostParser where
  hostParser : Bool → List Char → Option String

def isSpecial (scheme : String) : Bool :=
  scheme ∈ ["ftp", "file", "http", "https", "ws", "wss"]

def defaultPort (scheme : String) : Option ℕ :=
  if scheme = "ftp" then some 21
  else if scheme = "http" ∨ scheme = "ws" then some 80
  else if scheme = "https" ∨ scheme = "wss" then some 443
  else none

/-- Two opaque origins are never the same. -/
inductive Origin where
  | opaqueOrigin
  | tuple (scheme host : String) (port : Option ℕ)
deriving DecidableEq, Repr

/-- A site that is served over HTTP; a port is kept when it is not the default one. -/
structure Site where
  secure : Bool
  host : String
  port : Option ℕ
deriving DecidableEq, Repr

def Site.scheme (site : Site) : String := if site.secure then "https" else "http"

def Site.origin (site : Site) : Origin := .tuple site.scheme site.host site.port

def slash (c : Char) : Bool := c = '/' || c = '\\'

def authorityEnd (special : Bool) (c : Char) : Bool :=
  c = '/' || c = '?' || c = '#' || (special && c = '\\')

/-! ## States -/

/-- Host state: up to a colon that is not in brackets. -/
def splitHost : Bool → List Char → List Char × Option (List Char)
  | _, [] => ([], none)
  | inBrackets, c :: cs =>
      if c = ':' ∧ ¬ inBrackets then ([], some cs)
      else
        let (host, port) :=
          splitHost (if c = '[' then true else if c = ']' then false else inBrackets) cs
        (c :: host, port)

def digit (c : Char) : Bool := '0' ≤ c && c ≤ '9'

/-- Port state; a failure is `none`. -/
def portState (scheme : String) : Option (List Char) → Option (Option ℕ)
  | none | some [] => some none
  | some cs =>
      let port := cs.foldl (fun n c ↦ n * 10 + (c.toNat - '0'.toNat)) 0
      if ¬ cs.all digit ∨ 65535 < port then none
      else if defaultPort scheme = some port then some none
      else some (some port)

def hostState [HostParser] (scheme : String) (text : List Char) : Option Origin :=
  let (host, port) := splitHost false text
  if host = [] then none
  else do
    let host ← HostParser.hostParser (¬ isSpecial scheme) host
    let port ← portState scheme port
    some (.tuple scheme host port)

/-- Authority state of a scheme with an origin of its own: the credentials end at the last `@`. -/
def authorityState [HostParser] (scheme : String) (input : List Char) : Option Origin :=
  let text := input.takeWhile fun c ↦ ¬ authorityEnd (isSpecial scheme) c
  hostState scheme ((text.reverse.takeWhile (· ≠ '@')).reverse)

/-- Special authority slashes state, and the one that ignores more of them. -/
def slashesState [HostParser] (scheme : String) (input : List Char) : Option Origin :=
  authorityState scheme (input.dropWhile slash)

/-- Relative slash state. -/
def relativeSlashState [HostParser] (site : Site) (input : List Char) : Option Origin :=
  if input.head?.any slash then slashesState site.scheme input else some site.origin

/-- Relative state: a path, a query or a fragment of the site. -/
def relativeState [HostParser] (site : Site) (input : List Char) : Option Origin :=
  match input with
  | [] => some site.origin
  | c :: rest => if slash c then relativeSlashState site rest else some site.origin

def asciiAlpha (c : Char) : Bool := ('a' ≤ c && c ≤ 'z') || ('A' ≤ c && c ≤ 'Z')

def schemeChar (c : Char) : Bool := asciiAlpha c || digit c || c = '+' || c = '-' || c = '.'

def asciiLower (c : Char) : Char := if 'A' ≤ c && c ≤ 'Z' then Char.ofNat (c.toNat + 32) else c

/-- Scheme start state and scheme state: the scheme, and what comes after its colon. -/
def schemeOf (input : List Char) : Option (String × List Char) :=
  if input.head?.any asciiAlpha then
    match input.dropWhile schemeChar with
    | ':' :: rest => some (String.ofList ((input.takeWhile schemeChar).map asciiLower), rest)
    | _ => none
  else none

/-- After the scheme.  Files, and schemes that are not special, have an opaque origin, but for what a
`blob:` holds; they are not parsed further. -/
def afterScheme [HostParser] (site : Site) (scheme : String) (rest : List Char) : Option Origin :=
  if scheme = "blob" then
    match schemeOf rest with
    | some (inner, rest) =>
        if inner = "http" ∨ inner = "https" then
          some ((slashesState inner rest).getD .opaqueOrigin)
        else some .opaqueOrigin
    | none => some .opaqueOrigin
  else if scheme = "file" ∨ ¬ isSpecial scheme then some .opaqueOrigin
  else if scheme = site.scheme ∧ ¬ ['/', '/'].isPrefixOf rest then relativeState site rest
  else slashesState scheme rest

/-- What is at the ends of a reference and does not count. -/
def controlOrSpace (c : Char) : Bool := c.toNat ≤ 0x20

def tabOrNewline (c : Char) : Bool := c = '\t' || c = '\n' || c = '\r'

def cleaned (reference : List Char) : List Char :=
  ((reference.dropWhile controlOrSpace).rdropWhile controlOrSpace).filter (¬ tabOrNewline ·)

/-- The origin of a reference on a site; `none` is a failure. -/
def resolve [HostParser] (site : Site) (reference : String) : Option Origin :=
  let input := cleaned reference.toList
  match schemeOf input with
  | some (scheme, rest) => afterScheme site scheme rest
  | none => relativeState site input

/-! ## Paths -/

/-- Without a tab and a newline only the end of such a reference can be cleaned away. -/
theorem cleaned_path {rest : List Char} (h : ∀ c ∈ rest, tabOrNewline c = false) :
    ∃ kept, kept <+: rest ∧ cleaned ('/' :: rest) = '/' :: kept := by
  have hdrop : ('/' :: rest).dropWhile controlOrSpace = '/' :: rest :=
    List.dropWhile_cons_of_neg (by decide)
  obtain ⟨kept, hkept⟩ : ∃ kept, ('/' :: rest).rdropWhile controlOrSpace = '/' :: kept := by
    cases hend : ('/' :: rest).rdropWhile controlOrSpace with
    | nil =>
        have hall := List.rdropWhile_eq_nil_iff.mp hend '/' List.mem_cons_self
        exact absurd hall (by decide)
    | cons c kept =>
        have hstart := List.rdropWhile_prefix controlOrSpace (l := '/' :: rest)
        rw [hend] at hstart
        obtain ⟨rfl, -⟩ := List.cons_prefix_cons.mp hstart
        exact ⟨kept, rfl⟩
  have hstart := List.rdropWhile_prefix controlOrSpace (l := '/' :: rest)
  rw [hkept] at hstart
  obtain ⟨-, hstart⟩ := List.cons_prefix_cons.mp hstart
  refine ⟨kept, hstart, ?_⟩
  unfold cleaned
  rw [hdrop, hkept, List.filter_eq_self]
  intro c hc
  rcases List.mem_cons.mp hc with rfl | hc
  · decide
  · simp [h c (hstart.subset hc)]

variable [HostParser]

/-- A path that is rooted at one slash stays on the site. -/
theorem relativeState_path (site : Site) {rest : List Char} (h : ∀ c ∈ rest.head?, slash c = false) :
    relativeState site ('/' :: rest) = some site.origin := by
  have hhead : rest.head?.any slash = false := by
    cases hc : rest.head? with
    | none => rfl
    | some c => exact h c hc
  unfold relativeState
  dsimp only
  rw [if_pos (by decide)]
  unfold relativeSlashState
  rw [hhead]
  exact if_neg Bool.false_ne_true

/-- A reference rooted at a single slash, with neither a tab nor a newline, is a path of the site. -/
theorem resolve_path (site : Site) {reference : String} {rest : List Char}
    (htext : reference.toList = '/' :: rest) (hslash : ∀ c ∈ rest.head?, slash c = false)
    (hclean : ∀ c ∈ rest, tabOrNewline c = false) :
    resolve site reference = some site.origin := by
  obtain ⟨kept, hstart, hkept⟩ := cleaned_path hclean
  have hscheme : schemeOf ('/' :: kept) = none := by
    unfold schemeOf
    exact if_neg (by simp [asciiAlpha])
  unfold resolve
  rw [htext, hkept]
  dsimp only
  rw [hscheme]
  apply relativeState_path
  intro c hc
  apply hslash
  cases kept with
  | nil => cases hc
  | cons c' kept =>
      obtain ⟨tail, htail⟩ := hstart
      rw [← htail]
      exact hc

end Tesbo.Reasoning.UrlReferences
