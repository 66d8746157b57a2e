import Tesbo.ClientKeys

/-!
# Requests to an address a user typed in

A URL is checked as text, its host is resolved here, every address of the answer is checked, and the
connection is made to the first of them.
-/

namespace Tesbo.SafeFetch

open Reasoning ClientKeys

/-! ## Addresses -/

inductive IpAddress where
  | v4 (n : Fin (2 ^ 32))
  | v6 (n : Fin (2 ^ 128))
deriving DecidableEq, Repr

structure Url where
  protocol : String
  username : String
  password : String
  hostname : String
deriving DecidableEq, Repr

/-- What Node.js brings along: `net.isIP` with the address a `BlockList` compares, and the URL
parser. -/
class Node where
  parseAddress : String → Option IpAddress
  parseUrl : String → Option Url

/-- `a.b.c.d` -/
def ipv4 (a b c d : ℕ) : ℕ := ((a * 256 + b) * 256 + c) * 256 + d

/-- Eight groups. -/
def ipv6 (a b c d e f g h : ℕ) : ℕ := [a, b, c, d, e, f, g, h].foldl (fun n group ↦ n * 65536 + group) 0

/-- Membership in one of some subnets, each an address with the length of its prefix. -/
def check (width : ℕ) (subnets : List (ℕ × ℕ)) (n : ℕ) : Bool :=
  subnets.any fun subnet ↦ n / 2 ^ (width - subnet.2) = subnet.1 / 2 ^ (width - subnet.2)

/-- `ALWAYS_BLOCKED` -/
def alwaysBlocked4 : List (ℕ × ℕ) :=
  [(ipv4 0 0 0 0, 8), (ipv4 169 254 0 0, 16), (ipv4 100 100 100 200, 32), (ipv4 224 0 0 0, 4),
    (ipv4 240 0 0 0, 4)]

def alwaysBlocked6 : List (ℕ × ℕ) :=
  [(ipv6 0 0 0 0 0 0 0 0, 96), (ipv6 0xfe80 0 0 0 0 0 0 0, 10), (ipv6 0xfd00 0xec2 0 0 0 0 0 0, 32),
    (ipv6 0xff00 0 0 0 0 0 0 0, 8)]

/-- `PRIVATE` -/
def private4 : List (ℕ × ℕ) :=
  [(ipv4 10 0 0 0, 8), (ipv4 100 64 0 0, 10), (ipv4 127 0 0 0, 8), (ipv4 172 16 0 0, 12),
    (ipv4 192 0 0 0, 24), (ipv4 192 0 2 0, 24), (ipv4 192 168 0 0, 16), (ipv4 198 18 0 0, 15),
    (ipv4 198 51 100 0, 24), (ipv4 203 0 113 0, 24)]

def private6 : List (ℕ × ℕ) :=
  [(ipv6 0 0 0 0 0 0 0 1, 128), (ipv6 0xfc00 0 0 0 0 0 0 0, 7), (ipv6 0xfec0 0 0 0 0 0 0 0, 10),
    (ipv6 0x2001 0xdb8 0 0 0 0 0 0, 32), (ipv6 0x2001 0 0 0 0 0 0 0, 32),
    (ipv6 0x2002 0 0 0 0 0 0 0, 16), (ipv6 0x64 0xff9b 0 0 0 0 0 0, 96),
    (ipv6 0x64 0xff9b 1 0 0 0 0 0, 48), (ipv6 0x100 0 0 0 0 0 0 0, 64)]

def loopback6 : List (ℕ × ℕ) := [(ipv6 0 0 0 0 0 0 0 1, 128)]

inductive AddressClass where
  | «public»
  | «private»
  | blocked
deriving DecidableEq, Repr

/-! ## `classifyAddress` -/

/-- `[0-9a-f]{1,4}`, in any case of letters, as a number. -/
def hexGroup (cs : List Char) : Option ℕ :=
  let digits := cs.map Char.toLower
  if 1 ≤ digits.length && digits.length ≤ 4 && digits.all (· ∈ "0123456789abcdef".toList)
  then some (digits.foldl (fun n c ↦ n * 16 + "0123456789abcdef".toList.idxOf c) 0) else none

/-- The IPv4 address an IPv4-mapped one wraps, in its dotted and its hexadecimal form. -/
def unwrapMapped (address : String) : String :=
  let cs := address.toList
  let rest := cs.drop mappedPrefix.length
  if mappedPrefix.isPrefixOf (cs.map Char.toLower) then
    if dotted rest then String.ofList rest
    else
      match (rest.splitOn ':').map hexGroup with
      | [some high, some low] => s!"{high / 256}.{high % 256}.{low / 256}.{low % 256}"
      | _ => address
  else address

/-- `replace(/^\[|\]$/g, "")` -/
def stripBrackets (cs : List Char) : List Char :=
  let cs := if cs.head? = some '[' then cs.drop 1 else cs
  if cs.getLast? = some ']' then cs.dropLast else cs

/-- The class of an address, its loopback picked out before what is always blocked. -/
def classOf : IpAddress → AddressClass
  | .v4 n =>
      if check 32 alwaysBlocked4 n then .blocked
      else if check 32 private4 n then .private else .public
  | .v6 n =>
      if check 128 loopback6 n then .private
      else if check 128 alwaysBlocked6 n then .blocked
      else if check 128 private6 n then .private else .public

section Check

variable [Node]

def classifyAddress (raw : String) : AddressClass :=
  match Node.parseAddress (unwrapMapped
      (String.ofList ((stripBrackets raw.toList).takeWhile (· ≠ '%')))) with
  | none => .blocked
  | some address => classOf address

/-! ## `assertSafeUrlSyntax` -/

structure UnsafeOutboundUrlError where
  message : String
deriving DecidableEq, Repr

def internalMessage : String :=
  "The URL points at a private or internal address, which is not allowed."

def localSuffixes : List String :=
  [".localhost", ".local", ".internal", ".home.arpa", ".lan", ".intranet", ".corp", ".localdomain"]

def isLocalName (host : String) : Bool :=
  host = "localhost" || '.' ∉ host.toList ||
    localSuffixes.any fun suffix ↦ suffix.toList.isSuffixOf host.toList

def maxUrlLength : ℕ := 2048

/-- An address that is refused. -/
def refused (allowPrivate : Bool) (address : String) : Bool :=
  classifyAddress address = .blocked || (classifyAddress address = .private && !allowPrivate)

def isIP (host : String) : Bool := (Node.parseAddress host).isSome

/-- The host of a URL without brackets and without a point at its end. -/
def hostOf (url : Url) : String :=
  let cs := stripBrackets url.hostname.toList
  String.ofList (if cs.getLast? = some '.' then cs.dropLast else cs)

def assertSafeUrlSyntax [Unicode] (raw : String) (allowPrivate : Bool) :
    Except UnsafeOutboundUrlError Url :=
  let text := jsTrim raw
  if text = "" then .error ⟨"The URL is empty."⟩
  else if maxUrlLength < jsLength text then .error ⟨"The URL is too long."⟩
  else
    match Node.parseUrl text with
    | none => .error
        ⟨"The URL is not valid. Use the full address, for example https://api.example.com/v1."⟩
    | some url =>
        if url.protocol ≠ "https:" ∧ ¬ (allowPrivate = true ∧ url.protocol = "http:") then
          .error ⟨if allowPrivate then "The URL must start with https:// or http://."
            else "The URL must start with https://. Plain http is not accepted because it sends the API key unencrypted."⟩
        else if url.username ≠ "" ∨ url.password ≠ "" then
          .error ⟨"The URL must not contain a username or password."⟩
        else
          let host := Unicode.toLowerCase (hostOf url)
          if host = "" then .error ⟨"The URL has no host."⟩
          else if isIP host then
            if refused allowPrivate host then .error ⟨internalMessage⟩ else .ok url
          else if !allowPrivate && isLocalName host then .error ⟨internalMessage⟩
          else .ok url

/-! ## `resolveSafeTarget` -/

/-- An address of an answer, of family 4 or 6. -/
structure Answer where
  address : String
  family : ℕ
deriving DecidableEq, Repr

/-- The answers to a name, or that the resolver throws. -/
abbrev Lookup := String → Option (List Answer)

structure ResolvedTarget where
  url : Url
  address : String
  family : ℕ
deriving DecidableEq, Repr

/-- A literal address is its own answer. -/
def answersOf (url : Url) (lookup : Lookup) : Except UnsafeOutboundUrlError (List Answer) :=
  let host := hostOf url
  match Node.parseAddress host with
  | some (.v4 _) => .ok [⟨host, 4⟩]
  | some (.v6 _) => .ok [⟨host, 6⟩]
  | none =>
      match lookup host with
      | some answers => .ok answers
      | none => .error ⟨"The host name could not be resolved."⟩

/-- The loop over the answers. -/
def assertAnswers (allowPrivate : Bool) : List Answer → Except UnsafeOutboundUrlError Unit
  | [] => .ok ()
  | answer :: answers =>
      if refused allowPrivate answer.address then .error ⟨internalMessage⟩
      else assertAnswers allowPrivate answers

def resolveSafeTarget [Unicode] (raw : String) (allowPrivate : Bool) (lookup : Lookup) :
    Except UnsafeOutboundUrlError ResolvedTarget := do
  let url ← assertSafeUrlSyntax raw allowPrivate
  let answers ← answersOf url lookup
  match answers with
  | [] => .error ⟨"The host name could not be resolved."⟩
  | chosen :: _ =>
      assertAnswers allowPrivate answers
      .ok ⟨url, chosen.address, if chosen.family = 6 then 6 else 4⟩

/-! ## What is promised of a target -/

/-- The address is one of the answers; none of these is refused, and the scheme is encrypted unless
private hosts are allowed. -/
structure Checked (allowPrivate : Bool) (answers : List Answer) (target : ResolvedTarget) : Prop where
  answered : ∃ answer ∈ answers, target.address = answer.address
  notBlocked : classifyAddress target.address ≠ .blocked
  isPublic : allowPrivate = false → classifyAddress target.address = .public
  accepted : ∀ answer ∈ answers, refused allowPrivate answer.address = false
  scheme : target.url.protocol = "https:" ∨
    (allowPrivate = true ∧ target.url.protocol = "http:")

end Check

/-! ## The checks -/

section Checks

variable [Node]

theorem refused_eq_false {allowPrivate : Bool} {address : String}
    (h : refused allowPrivate address = false) : classifyAddress address ≠ .blocked ∧
      (allowPrivate = false → classifyAddress address = .public) := by
  unfold refused at h
  rw [Bool.or_eq_false_iff, Bool.and_eq_false_iff, decide_eq_false_iff_not,
    decide_eq_false_iff_not] at h
  refine ⟨h.1, fun hpublic ↦ ?_⟩
  have hprivate : classifyAddress address ≠ .private := by
    rcases h.2 with hprivate | hallow
    · exact hprivate
    · rw [hpublic] at hallow
      cases hallow
  cases hclass : classifyAddress address with
  | «public» => rfl
  | «private» => exact absurd hclass hprivate
  | blocked => exact absurd hclass h.1

/-- The loop ends if no answer is refused. -/
theorem assertAnswers_ok_iff {allowPrivate : Bool} {answers : List Answer} :
    assertAnswers allowPrivate answers = .ok () ↔
      ∀ answer ∈ answers, refused allowPrivate answer.address = false := by
  induction answers with
  | nil => simp [assertAnswers]
  | cons answer answers ih =>
      rw [assertAnswers, List.forall_mem_cons]
      by_cases h : refused allowPrivate answer.address = true
      · simp [h]
      · rw [if_neg h, ih]
        simp [h]

theorem assertAnswers_error {allowPrivate : Bool} {answers : List Answer}
    (h : ∃ answer ∈ answers, refused allowPrivate answer.address = true) :
    assertAnswers allowPrivate answers = .error ⟨internalMessage⟩ := by
  induction answers with
  | nil =>
      obtain ⟨answer, hmem, -⟩ := h
      cases hmem
  | cons answer answers ih =>
      rw [assertAnswers]
      by_cases hfirst : refused allowPrivate answer.address = true
      · rw [if_pos hfirst]
      · rw [if_neg hfirst]
        apply ih
        obtain ⟨other, hother, hrefused⟩ := h
        rcases List.mem_cons.mp hother with rfl | hother
        · exact absurd hrefused hfirst
        · exact ⟨other, hother, hrefused⟩

theorem scheme_of_checked [Unicode] {raw : String} {allowPrivate : Bool} {url : Url}
    (h : assertSafeUrlSyntax raw allowPrivate = .ok url) :
    url.protocol = "https:" ∨ (allowPrivate = true ∧ url.protocol = "http:") := by
  unfold assertSafeUrlSyntax at h
  dsimp only at h
  split at h
  · cases h
  split at h
  · cases h
  split at h
  · cases h
  split at h
  · cases h
  rename_i parsed _ hscheme
  have hparsed : url = parsed := by
    split at h
    · cases h
    split at h
    · cases h
    split at h
    · split at h
      · cases h
      · exact (Except.ok.inj h).symm
    · split at h
      · cases h
      · exact (Except.ok.inj h).symm
  rw [hparsed]
  by_cases hhttps : parsed.protocol = "https:"
  · exact .inl hhttps
  · exact .inr (by_contra fun hhttp ↦ hscheme ⟨hhttps, hhttp⟩)

/-- The call past the syntax and the lookup. -/
theorem resolveSafeTarget_eq [Unicode] {raw : String} {allowPrivate : Bool} {lookup : Lookup}
    {url : Url} {answers : List Answer} (hchecked : assertSafeUrlSyntax raw allowPrivate = .ok url)
    (hanswers : answersOf url lookup = .ok answers) :
    resolveSafeTarget raw allowPrivate lookup =
      match answers.head? with
      | none => .error ⟨"The host name could not be resolved."⟩
      | some chosen => (assertAnswers allowPrivate answers).map fun _ ↦
          ⟨url, chosen.address, if chosen.family = 6 then 6 else 4⟩ := by
  unfold resolveSafeTarget
  rw [hchecked]
  show (answersOf url lookup >>= _) = _
  rw [hanswers]
  cases answers with
  | nil => rfl
  | cons chosen answers =>
      show (assertAnswers allowPrivate (chosen :: answers) >>= _) = Except.map _ _
      cases assertAnswers allowPrivate (chosen :: answers) <;> rfl

theorem resolveSafeTarget_ok [Unicode] {raw : String} {allowPrivate : Bool} {lookup : Lookup}
    {target : ResolvedTarget} (h : resolveSafeTarget raw allowPrivate lookup = .ok target) :
    ∃ url answers, assertSafeUrlSyntax raw allowPrivate = .ok url ∧
      answersOf url lookup = .ok answers := by
  unfold resolveSafeTarget at h
  cases hchecked : assertSafeUrlSyntax raw allowPrivate with
  | error e => rw [hchecked] at h; cases h
  | ok url =>
      rw [hchecked] at h
      change (answersOf url lookup >>= _) = _ at h
      cases hanswers : answersOf url lookup with
      | error e => rw [hanswers] at h; cases h
      | ok answers => exact ⟨url, answers, rfl, hanswers⟩

theorem exists_checked [Unicode] {raw : String} {allowPrivate : Bool} {lookup : Lookup}
    {target : ResolvedTarget} (h : resolveSafeTarget raw allowPrivate lookup = .ok target) :
    ∃ answers, answersOf target.url lookup = .ok answers ∧ Checked allowPrivate answers target := by
  obtain ⟨url, answers, hchecked, hanswers⟩ := resolveSafeTarget_ok h
  rw [resolveSafeTarget_eq hchecked hanswers] at h
  cases answers with
  | nil => cases h
  | cons chosen answers =>
      rw [List.head?_cons] at h
      dsimp only at h
      cases hloop : assertAnswers allowPrivate (chosen :: answers) with
      | error e => rw [hloop] at h; cases h
      | ok u =>
          rw [hloop] at h
          cases h
          have haccepted := assertAnswers_ok_iff.mp hloop
          have hchosen := refused_eq_false (haccepted chosen List.mem_cons_self)
          exact ⟨chosen :: answers, hanswers, ⟨chosen, List.mem_cons_self, rfl⟩, hchosen.1,
            hchosen.2, haccepted, scheme_of_checked hchecked⟩

/-- Only an address that was checked is returned, and one refused answer refuses the call. -/
theorem resolveSafeTarget_pins [Unicode] (raw : String) (allowPrivate : Bool) (lookup : Lookup) :
    (∀ target, resolveSafeTarget raw allowPrivate lookup = .ok target →
      ∃ answers, answersOf target.url lookup = .ok answers ∧
        Checked allowPrivate answers target) ∧
    ∀ url answers, assertSafeUrlSyntax raw allowPrivate = .ok url →
      answersOf url lookup = .ok answers →
      (∃ answer ∈ answers, refused allowPrivate answer.address = true) →
      resolveSafeTarget raw allowPrivate lookup = .error ⟨internalMessage⟩ := by
  refine ⟨fun target h ↦ exists_checked h, ?_⟩
  intro url answers hchecked hanswers hrefused
  rw [resolveSafeTarget_eq hchecked hanswers, assertAnswers_error hrefused]
  cases answers with
  | nil =>
      obtain ⟨answer, hmem, -⟩ := hrefused
      cases hmem
  | cons chosen answers => rfl

end Checks

end Tesbo.SafeFetch
