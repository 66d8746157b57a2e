import Tesbo.PlaywrightReporter

/-!
# Whom a failure is counted for

The rate limits count failures by the address of a client: an IPv4 address as it is, an IPv6 address
as its /64.  The key is cut from the text of the address, in which a run of zero groups is left out.
-/

namespace Tesbo.ClientKeys

open Reasoning

/-! ## `clientKey` -/

/-- `\d{1,3}(?:\.\d{1,3}){3}` -/
def dotted (cs : List Char) : Bool :=
  (cs.splitOn '.').length = 4 &&
    (cs.splitOn '.').all fun part ↦ part.all Char.isDigit && 1 ≤ part.length && part.length ≤ 3

def mappedPrefix : List Char := "::ffff:".toList

/-- The IPv4 address in an IPv4-mapped one. -/
def mapped (cs : List Char) : Option (List Char) :=
  if mappedPrefix.isPrefixOf cs && dotted (cs.drop mappedPrefix.length)
  then some (cs.drop mappedPrefix.length) else none

/-- `split("::")[0]` -/
def beforeGap : List Char → List Char
  | [] => []
  | [c] => [c]
  | c :: d :: cs => if c = ':' ∧ d = ':' then [] else c :: beforeGap (d :: cs)

/-- `raw.split("::")[0].split(":").filter(Boolean)` -/
def groupsOf (cs : List Char) : List (List Char) :=
  ((beforeGap cs).splitOn ':').filter (· ≠ [])

def clientKey [Unicode] (ip : Option String) : String :=
  let raw := Unicode.toLowerCase (jsTrim (ip.getD ""))
  if raw = "" then "unknown"
  else match mapped raw.toList with
    | some v4 => String.ofList v4
    | none =>
        if ':' ∈ raw.toList then
          String.ofList ([':'].intercalate ((groupsOf raw.toList).take 4) ++ "::/64".toList)
        else raw

/-! ## Addresses and their texts -/

/-- An IPv6 address, in eight groups of sixteen bits. -/
structure Address where
  (g₀ g₁ g₂ g₃ g₄ g₅ g₆ g₇ : Fin 65536)
deriving DecidableEq, Repr

def Address.groups (a : Address) : List ℕ :=
  [a.g₀, a.g₁, a.g₂, a.g₃, a.g₄, a.g₅, a.g₆, a.g₇]

/-- The first 64 bits. -/
def Address.network (a : Address) : List ℕ := [a.g₀, a.g₁, a.g₂, a.g₃]

/-- Which groups are zero. -/
def Address.zeros (a : Address) : List Bool :=
  [a.g₀, a.g₁, a.g₂, a.g₃, a.g₄, a.g₅, a.g₆, a.g₇].map fun g ↦ decide (g = 0)

/-- The zeros from a place on. -/
def runAt (zeros : List Bool) (i : ℕ) : ℕ := ((zeros.drop i).takeWhile fun zero ↦ zero).length

/-- The first of the longest runs of zeros. -/
def longestAt (zeros : List Bool) : ℕ :=
  (List.range zeros.length).foldl
    (fun best i ↦ if runAt zeros best < runAt zeros i then i else best) 0

/-- Where the groups are cut by `::`, which stands for two zero groups or more. -/
def gapAt (zeros : List Bool) : Option (ℕ × ℕ) :=
  let i := longestAt zeros
  if 2 ≤ runAt zeros i then some (i, i + runAt zeros i) else none

/-- Lower-case hexadecimal groups without leading zeros. -/
def groupsText (groups : List ℕ) : List Char := [':'].intercalate (groups.map (Nat.toDigits 16))

/-- The canonical text of RFC 5952. -/
def Address.text (a : Address) : String :=
  String.ofList <| match gapAt a.zeros with
    | some (i, j) => groupsText (a.groups.take i) ++ "::".toList ++ groupsText (a.groups.drop j)
    | none => groupsText a.groups

/-- An IPv4 address. -/
structure Address4 where
  (d₀ d₁ d₂ d₃ : Fin 256)
deriving DecidableEq, Repr

def Address4.text (a : Address4) : String :=
  String.ofList (['.'].intercalate ([a.d₀, a.d₁, a.d₂, a.d₃].map fun d ↦ Nat.toDigits 10 d))

/-- An IPv4 client, on a socket of its own or on one for both protocols. -/
def Address4.texts (a : Address4) : List String := [a.text, "::ffff:" ++ a.text]

/-- The key of an IPv6 client stands for its /64, and for no IPv4 client. -/
structure IdentifiesNetwork [Unicode] (a : Address) : Prop where
  shared : ∀ b : Address, clientKey (some a.text) = clientKey (some b.text) ↔ a.network = b.network
  apart : ∀ b : Address4, ∀ text ∈ b.texts, clientKey (some a.text) ≠ clientKey (some text)

/-- The first 64 bits do not end in a zero group, and no two groups in a row are zero there. -/
def Address.Solid (a : Address) : Prop :=
  a.g₃ ≠ 0 ∧ ¬ (a.g₀ = 0 ∧ a.g₁ = 0) ∧ ¬ (a.g₁ = 0 ∧ a.g₂ = 0)

/-! ## Digits -/

/-- A character that `trim` and `toLowerCase` leave as it is. -/
structure Settled (c : Char) : Prop where
  solid : jsSpace c = false
  ascii : c.toNat < 128
  lower : c.toLower = c

theorem settled_of_mem_mappedPrefix : ∀ c ∈ mappedPrefix, Settled c := by
  have hspec : ∀ c ∈ mappedPrefix, jsSpace c = false ∧ c.toNat < 128 ∧ c.toLower = c := by decide
  exact fun c hc ↦ ⟨(hspec c hc).1, (hspec c hc).2.1, (hspec c hc).2.2⟩

theorem settled_colon : Settled ':' := ⟨by decide, by decide, by decide⟩

theorem settled_point : Settled '.' := ⟨by decide, by decide, by decide⟩

theorem digitChar_spec : ∀ d < 16, Nat.digitChar d ≠ ':' ∧ Nat.digitChar d ≠ '.' ∧
    jsSpace (Nat.digitChar d) = false ∧ (Nat.digitChar d).toNat < 128 ∧
      (Nat.digitChar d).toLower = Nat.digitChar d := by
  decide +kernel

theorem exists_digit_of_mem_toDigits {base n : ℕ} (hbase : 1 < base) {c : Char}
    (h : c ∈ Nat.toDigits base n) : ∃ d < base, c = Nat.digitChar d := by
  induction n using Nat.strong_induction_on with
  | h n ih =>
      rw [Nat.toDigits_eq_if hbase] at h
      split at h
      · rename_i hlt
        exact ⟨n, hlt, List.mem_singleton.mp h⟩
      · rcases List.mem_append.mp h with h | h
        · exact ih (n / base) (Nat.div_lt_self (by omega) hbase) h
        · exact ⟨n % base, Nat.mod_lt n (by omega), List.mem_singleton.mp h⟩

theorem settled_of_mem_toDigits {base n : ℕ} (hbase : 1 < base) (hle : base ≤ 16) {c : Char}
    (h : c ∈ Nat.toDigits base n) : Settled c ∧ c ≠ ':' ∧ c ≠ '.' := by
  obtain ⟨d, hd, rfl⟩ := exists_digit_of_mem_toDigits hbase h
  have hspec := digitChar_spec d (by omega)
  exact ⟨⟨hspec.2.2.1, hspec.2.2.2.1, hspec.2.2.2.2⟩, hspec.1, hspec.2.1⟩

def hexDigits : List Char := "0123456789abcdef".toList

theorem hexDigit_spec : ∀ d < 16, Nat.digitChar d ∈ hexDigits ∧
    hexDigits.idxOf (Nat.digitChar d) = d := by
  decide +kernel

/-- A number is read back from its digits. -/
theorem foldl_toDigits {base : ℕ} (hbase : 1 < base) (hle : base ≤ 16) (n : ℕ) :
    (Nat.toDigits base n).foldl (fun n c ↦ n * base + hexDigits.idxOf c) 0 = n := by
  induction n using Nat.strong_induction_on with
  | h n ih =>
      rw [Nat.toDigits_eq_if hbase]
      split
      · rename_i hlt
        rw [List.foldl_cons, List.foldl_nil, (hexDigit_spec n (by omega)).2]
        omega
      · have hmod : n % base < base := Nat.mod_lt n (by omega)
        have hdiv : n / base < n := Nat.div_lt_self (by omega) hbase
        rw [List.foldl_append, ih (n / base) hdiv, List.foldl_cons, List.foldl_nil,
          (hexDigit_spec (n % base) (by omega)).2]
        exact Nat.div_add_mod' n base

theorem toDigits_injective {base : ℕ} (hbase : 1 < base) (hle : base ≤ 16) :
    Function.Injective (Nat.toDigits base) :=
  Function.LeftInverse.injective (foldl_toDigits hbase hle)

theorem colon_not_mem_toDigits (n : ℕ) : ':' ∉ Nat.toDigits 16 n := fun h ↦
  (settled_of_mem_toDigits (by decide) (by decide) h).2.1 rfl

/-! ## The groups of a text -/

theorem beforeGap_cons_of_ne {c : Char} (hc : c ≠ ':') (cs : List Char) :
    beforeGap (c :: cs) = c :: beforeGap cs := by
  cases cs with
  | nil => rfl
  | cons d cs => rw [beforeGap, if_neg fun h ↦ hc h.1]

theorem beforeGap_append {part : List Char} (hpart : ':' ∉ part) (rest : List Char) :
    beforeGap (part ++ rest) = part ++ beforeGap rest := by
  induction part with
  | nil => rfl
  | cons c part ih =>
      rw [List.mem_cons, not_or] at hpart
      rw [List.cons_append, beforeGap_cons_of_ne (Ne.symm hpart.1), ih hpart.2, List.cons_append]

theorem groupsText_cons_cons (g g' : ℕ) (groups : List ℕ) :
    groupsText (g :: g' :: groups) = Nat.toDigits 16 g ++ ':' :: groupsText (g' :: groups) := by
  simp [groupsText, List.intercalate_cons_cons]

theorem groupsText_singleton (g : ℕ) : groupsText [g] = Nat.toDigits 16 g := by
  simp [groupsText]

theorem exists_head_groupsText (g : ℕ) (groups : List ℕ) :
    ∃ d cs, groupsText (g :: groups) = d :: cs ∧ d ≠ ':' := by
  obtain ⟨d, cs, heq⟩ := List.exists_cons_of_ne_nil (@Nat.toDigits_ne_nil g 16)
  have hd : d ≠ ':' := by
    rintro rfl
    exact colon_not_mem_toDigits g (heq ▸ List.mem_cons_self)
  cases groups with
  | nil => exact ⟨d, cs, by rw [groupsText_singleton, heq], hd⟩
  | cons g' groups =>
      exact ⟨d, cs ++ ':' :: groupsText (g' :: groups), by rw [groupsText_cons_cons, heq]; rfl, hd⟩

theorem beforeGap_groupsText (groups : List ℕ) (rest : List Char) :
    beforeGap (groupsText groups ++ rest) = groupsText groups ++ beforeGap rest := by
  induction groups with
  | nil => rfl
  | cons g groups ih =>
      cases groups with
      | nil =>
          rw [groupsText_singleton]
          exact beforeGap_append (colon_not_mem_toDigits g) rest
      | cons g' groups =>
          obtain ⟨d, cs, hhead, hd⟩ := exists_head_groupsText g' groups
          have hcolon : beforeGap (':' :: (groupsText (g' :: groups) ++ rest)) =
              ':' :: beforeGap (groupsText (g' :: groups) ++ rest) := by
            rw [hhead, List.cons_append, beforeGap, if_neg fun h ↦ hd h.2]
          rw [groupsText_cons_cons, List.append_assoc, List.cons_append,
            beforeGap_append (colon_not_mem_toDigits g), hcolon, ih, List.append_assoc]
          rfl

theorem splitOn_groupsText (groups : List ℕ) :
    ((groupsText groups).splitOn ':').filter (· ≠ []) = groups.map (Nat.toDigits 16) := by
  cases groups with
  | nil => rfl
  | cons g groups =>
      have hsplit : (groupsText (g :: groups)).splitOn ':' =
          (g :: groups).map (Nat.toDigits 16) := by
        refine List.splitOn_intercalate ':' (fun part hpart ↦ ?_) (by simp)
        obtain ⟨n, -, rfl⟩ := List.mem_map.mp hpart
        exact colon_not_mem_toDigits n
      rw [hsplit, List.filter_eq_self]
      intro part hpart
      obtain ⟨n, -, rfl⟩ := List.mem_map.mp hpart
      simp

/-- Groups are read off their text. -/
theorem groupsText_injective : Function.Injective groupsText := by
  intro groups groups' h
  have hparts := congrArg (fun cs : List Char ↦ (cs.splitOn ':').filter (· ≠ [])) h
  simp only [splitOn_groupsText] at hparts
  exact List.map_injective_iff.mpr (toDigits_injective (by decide) (by decide)) hparts

/-! ## The text of an address -/

theorem settled_of_mem_groupsText {groups : List ℕ} {c : Char} (h : c ∈ groupsText groups) :
    Settled c ∧ c ≠ '.' := by
  induction groups with
  | nil => cases h
  | cons g groups ih =>
      have hdigits : c ∈ Nat.toDigits 16 g → Settled c ∧ c ≠ '.' := by
        intro hmem
        have hsettled := settled_of_mem_toDigits (by decide) (by decide) hmem
        exact ⟨hsettled.1, hsettled.2.2⟩
      cases groups with
      | nil => exact hdigits (groupsText_singleton g ▸ h)
      | cons g' groups =>
          rw [groupsText_cons_cons] at h
          rcases List.mem_append.mp h with h | h
          · exact hdigits h
          · rcases List.mem_cons.mp h with rfl | h
            · exact ⟨settled_colon, by decide⟩
            · exact ih h

namespace Address

/-- The groups before the gap. -/
def shown (a : Address) : List ℕ :=
  match gapAt a.zeros with
  | some (i, _) => a.groups.take i
  | none => a.groups

/-- How many groups the key names. -/
def cut (zeros : List Bool) : ℕ :=
  match gapAt zeros with
  | some (i, _) => min 4 i
  | none => 4

theorem take_shown (a : Address) : a.shown.take 4 = a.groups.take (cut a.zeros) := by
  unfold shown cut
  cases gapAt a.zeros with
  | none => rfl
  | some gap => exact List.take_take

theorem settled_text (a : Address) {c : Char} (h : c ∈ a.text.toList) : Settled c ∧ c ≠ '.' := by
  unfold text at h
  rw [String.toList_ofList] at h
  split at h
  · rcases List.mem_append.mp h with h | h
    · rcases List.mem_append.mp h with h | h
      · exact settled_of_mem_groupsText h
      · rcases List.mem_cons.mp h with rfl | h
        · exact ⟨settled_colon, by decide⟩
        · rw [List.mem_singleton.mp h]
          exact ⟨settled_colon, by decide⟩
    · exact settled_of_mem_groupsText h
  · exact settled_of_mem_groupsText h

theorem colon_mem_text (a : Address) : ':' ∈ a.text.toList := by
  unfold text
  rw [String.toList_ofList]
  split
  · simp
  · rw [show a.groups = (a.g₀ : ℕ) :: (a.g₁ : ℕ) :: a.groups.drop 2 from rfl,
      groupsText_cons_cons]
    simp

theorem groupsOf_text (a : Address) : groupsOf a.text.toList = a.shown.map (Nat.toDigits 16) := by
  have hbefore : beforeGap a.text.toList = groupsText a.shown := by
    unfold text shown
    rw [String.toList_ofList]
    split
    · rw [List.append_assoc, beforeGap_groupsText]
      exact List.append_nil _
    · have h := beforeGap_groupsText a.groups []
      rwa [List.append_nil, show beforeGap [] = [] from rfl, List.append_nil] at h
  rw [groupsOf, hbefore, splitOn_groupsText]

end Address

/-! ## IPv4 addresses -/

theorem mapped_of_no_point {cs : List Char} (h : '.' ∉ cs) : mapped cs = none := by
  have hdotted : dotted (cs.drop mappedPrefix.length) = false := by
    unfold dotted
    rw [List.splitOn_eq_singleton fun hmem ↦ h (List.mem_of_mem_drop hmem)]
    rfl
  unfold mapped
  rw [hdotted, Bool.and_false]
  rfl

theorem mapped_of_no_colon {cs : List Char} (h : ':' ∉ cs) : mapped cs = none := by
  have hstart : mappedPrefix.isPrefixOf cs = false := by
    rw [Bool.eq_false_iff]
    intro hstart
    exact h ((List.isPrefixOf_iff_prefix.mp hstart).subset (by decide))
  unfold mapped
  rw [hstart, Bool.false_and]
  rfl

theorem toList_text4 (b : Address4) : b.text.toList =
    Nat.toDigits 10 b.d₀ ++ '.' :: (Nat.toDigits 10 b.d₁ ++ '.' :: (Nat.toDigits 10 b.d₂ ++
      '.' :: Nat.toDigits 10 b.d₃)) := by
  simp [Address4.text, List.intercalate_cons_cons]

theorem settled_of_mem_text4 {b : Address4} {c : Char} (h : c ∈ b.text.toList) :
    Settled c ∧ c ≠ ':' := by
  have hdigits : ∀ d : Fin 256, c ∈ Nat.toDigits 10 d → Settled c ∧ c ≠ ':' := by
    intro d hd
    have hsettled := settled_of_mem_toDigits (by decide) (by decide) hd
    exact ⟨hsettled.1, hsettled.2.1⟩
  have hpoint : c = '.' → Settled c ∧ c ≠ ':' := by
    rintro rfl
    exact ⟨settled_point, by decide⟩
  rw [toList_text4] at h
  simp only [List.mem_append, List.mem_cons] at h
  rcases h with h | h | h | h | h | h | h
  · exact hdigits _ h
  · exact hpoint h
  · exact hdigits _ h
  · exact hpoint h
  · exact hdigits _ h
  · exact hpoint h
  · exact hdigits _ h

theorem splitOn_text4 (b : Address4) : b.text.toList.splitOn '.' =
    [b.d₀, b.d₁, b.d₂, b.d₃].map fun d : Fin 256 ↦ Nat.toDigits 10 d := by
  unfold Address4.text
  rw [String.toList_ofList]
  refine List.splitOn_intercalate '.' (fun part hpart hmem ↦ ?_) (by simp)
  obtain ⟨d, -, rfl⟩ := List.mem_map.mp hpart
  exact (settled_of_mem_toDigits (by decide) (by decide) hmem).2.2 rfl

theorem dotted_text4 (b : Address4) : dotted b.text.toList = true := by
  unfold dotted
  rw [splitOn_text4, Bool.and_eq_true, List.all_eq_true]
  refine ⟨rfl, fun part hpart ↦ ?_⟩
  obtain ⟨d, -, rfl⟩ := List.mem_map.mp hpart
  have hlength : (Nat.toDigits 10 d).length ≤ 3 :=
    (Nat.length_toDigits_le_iff (by decide) (by decide)).mpr (by omega)
  have hpos : 1 ≤ (Nat.toDigits 10 d).length := Nat.length_toDigits_pos
  have hdigits : (Nat.toDigits 10 d).all Char.isDigit = true :=
    List.all_eq_true.mpr fun c hc ↦ Nat.isDigit_of_mem_toDigits (by decide) (by decide) hc
  simp [hlength, hpos, hdigits]

theorem mapped_text4 (b : Address4) :
    mapped (mappedPrefix ++ b.text.toList) = some b.text.toList := by
  unfold mapped
  rw [List.drop_left, dotted_text4, List.isPrefixOf_iff_prefix.mpr (List.prefix_append _ _)]
  rfl

/-! ## Keys -/

section Keys

variable [LetterCase]

theorem normalized {text : String} (h : ∀ c ∈ text.toList, Settled c) :
    Unicode.toLowerCase (jsTrim text) = text := by
  have hlower : text.toList.map Char.toLower = text.toList :=
    (List.map_congr_left fun c hc ↦ (h c hc).lower).trans (List.map_id _)
  rw [jsTrim_eq (trimmed_of_solid fun c hc ↦ (h c hc).solid),
    LetterCase.toLowerCase_ascii text fun c hc ↦ (h c hc).ascii, hlower, String.ofList_toList]

/-- The key of an IPv6 address names the groups before the gap, four of them at most. -/
theorem clientKey_text (a : Address) : clientKey (some a.text) =
    String.ofList (groupsText (a.groups.take (Address.cut a.zeros)) ++ "::/64".toList) := by
  have hne : a.text ≠ "" := by
    intro h
    have hcolon := a.colon_mem_text
    rw [h] at hcolon
    cases hcolon
  unfold clientKey
  rw [Option.getD_some, normalized fun c hc ↦ (a.settled_text hc).1]
  dsimp only
  rw [if_neg hne, mapped_of_no_point fun h ↦ (a.settled_text h).2 rfl]
  dsimp only
  rw [if_pos a.colon_mem_text, a.groupsOf_text, ← List.map_take, a.take_shown]
  rfl

/-- Two keys are the same if they name the same groups. -/
theorem clientKey_eq_iff (a b : Address) : clientKey (some a.text) = clientKey (some b.text) ↔
    a.groups.take (Address.cut a.zeros) = b.groups.take (Address.cut b.zeros) := by
  rw [clientKey_text, clientKey_text]
  constructor
  · intro h
    exact groupsText_injective (List.append_cancel_right (String.ofList_injective h))
  · intro h
    rw [h]

/-- The key of an IPv4 client is its address. -/
theorem clientKey_text4 (b : Address4) {text : String} (h : text ∈ b.texts) :
    clientKey (some text) = b.text := by
  have hcolon : ':' ∉ b.text.toList := fun hmem ↦ (settled_of_mem_text4 hmem).2 rfl
  have hne : b.text ≠ "" := by
    intro heq
    have hlist := toList_text4 b
    rw [heq] at hlist
    simp at hlist
  unfold clientKey
  rcases List.mem_cons.mp h with rfl | h
  · rw [Option.getD_some, normalized fun c hc ↦ (settled_of_mem_text4 hc).1]
    dsimp only
    rw [if_neg hne, mapped_of_no_colon hcolon]
    exact if_neg hcolon
  · have htext : text.toList = mappedPrefix ++ b.text.toList := by
      rw [List.mem_singleton.mp h, String.toList_append]
      rfl
    have hsettled : ∀ c ∈ text.toList, Settled c := by
      intro c hc
      rw [htext] at hc
      rcases List.mem_append.mp hc with hc | hc
      · exact settled_of_mem_mappedPrefix c hc
      · exact (settled_of_mem_text4 hc).1
    have hnonempty : text ≠ "" := by
      rintro rfl
      cases htext
    rw [Option.getD_some, normalized hsettled]
    dsimp only
    rw [if_neg hnonempty, htext, mapped_text4]
    exact String.ofList_toList

theorem clientKey_ne_text4 (a : Address) (b : Address4) {text : String} (h : text ∈ b.texts) :
    clientKey (some a.text) ≠ clientKey (some text) := by
  rw [clientKey_text, clientKey_text4 b h]
  intro heq
  have hcolon : ':' ∈ b.text.toList := by
    rw [← heq, String.toList_ofList]
    exact List.mem_append_right _ (by decide)
  exact (settled_of_mem_text4 hcolon).2 rfl

end Keys

/-! ## Where the text is cut -/

namespace Address

theorem cut_le (zeros : List Bool) : cut zeros ≤ 4 := by
  unfold cut
  split
  · exact min_le_left _ _
  · exact le_rfl

theorem cut_of_solid : ∀ z₀ z₁ z₂ z₄ z₅ z₆ z₇ : Bool, (z₀ && z₁) = false → (z₁ && z₂) = false →
    cut [z₀, z₁, z₂, false, z₄, z₅, z₆, z₇] = 4 := by
  decide +kernel

/-- In another network the texts of some addresses are cut at different places, unless its last
three groups are zero. -/
theorem cut_of_not_solid : ∀ z₀ z₁ z₂ z₃ : Bool,
    ¬ (z₃ = false ∧ (z₀ && z₁) = false ∧ (z₁ && z₂) = false) →
    cut [z₀, z₁, z₂, z₃, true, true, true, true] ≠
        cut [z₀, z₁, z₂, z₃, false, true, true, true] ∨
      cut [z₀, z₁, z₂, z₃, true, true, true, true] ≠
        cut [z₀, z₁, z₂, z₃, false, false, false, false] ∨
      (z₁ = true ∧ z₂ = true ∧ z₃ = true) := by
  decide +kernel

/-- Then the text is cut before them, as that of the next network may be, too. -/
theorem cut_of_zeros : ∀ z₀ z₄ z₅ z₆ z₇ : Bool,
    cut [z₀, true, true, true, z₄, z₅, z₆, z₇] =
        cut [z₀, true, true, false, false, false, false, false] ∧
      cut [z₀, true, true, false, false, false, false, false] ≤ 3 := by
  decide +kernel

theorem length_take_cut (a : Address) : (a.groups.take (cut a.zeros)).length = cut a.zeros := by
  rw [List.length_take]
  have hle := cut_le a.zeros
  have hlength : a.groups.length = 8 := rfl
  omega

theorem cut_eq_four {a : Address} (h : a.Solid) : cut a.zeros = 4 := by
  have hzeros : a.zeros = [decide (a.g₀ = 0), decide (a.g₁ = 0), decide (a.g₂ = 0), false,
      decide (a.g₄ = 0), decide (a.g₅ = 0), decide (a.g₆ = 0), decide (a.g₇ = 0)] := by
    rw [← decide_eq_false h.1]
    rfl
  rw [hzeros]
  apply cut_of_solid
  · rw [← Bool.decide_and]
    exact decide_eq_false h.2.1
  · rw [← Bool.decide_and]
    exact decide_eq_false h.2.2

theorem solid_congr {a b : Address} (h : a.network = b.network) (ha : a.Solid) : b.Solid := by
  simp only [network, List.cons.injEq, Fin.val_inj, and_true] at h
  obtain ⟨h₀, h₁, h₂, h₃⟩ := h
  unfold Solid at ha ⊢
  rwa [h₀, h₁, h₂, h₃] at ha

end Address

/-! ## Networks -/

section Networks

variable [LetterCase] {a : Address}

theorem identifiesNetwork_of_solid (h : a.Solid) : IdentifiesNetwork a where
  shared b := by
    rw [clientKey_eq_iff, Address.cut_eq_four h]
    constructor
    · intro htake
      have hcut : Address.cut b.zeros = 4 := by
        rw [← b.length_take_cut, ← htake]
        rfl
      rw [hcut] at htake
      exact htake
    · intro hnetwork
      rw [Address.cut_eq_four (Address.solid_congr hnetwork h)]
      exact hnetwork
  apart b text htext := clientKey_ne_text4 a b htext

/-- The addresses of a network with one key are cut at one place. -/
theorem IdentifiesNetwork.cut_eq (h : IdentifiesNetwork a) {b : Address}
    (hb : a.network = b.network) : Address.cut b.zeros = Address.cut a.zeros := by
  rw [← a.length_take_cut, ← b.length_take_cut,
    (clientKey_eq_iff a b).mp ((h.shared b).mpr hb)]

theorem solid_of_identifiesNetwork (h : IdentifiesNetwork a) : a.Solid := by
  by_contra hsolid
  have hpattern : ¬ (decide (a.g₃ = 0) = false ∧ (decide (a.g₀ = 0) && decide (a.g₁ = 0)) = false ∧
      (decide (a.g₁ = 0) && decide (a.g₂ = 0)) = false) := by
    intro hbools
    apply hsolid
    refine ⟨of_decide_eq_false hbools.1, ?_, ?_⟩
    · have := hbools.2.1
      rw [← Bool.decide_and] at this
      exact of_decide_eq_false this
    · have := hbools.2.2
      rw [← Bool.decide_and] at this
      exact of_decide_eq_false this
  have hzeros := @IdentifiesNetwork.cut_eq _ a h { a with g₄ := 0, g₅ := 0, g₆ := 0, g₇ := 0 } rfl
  have hlate := @IdentifiesNetwork.cut_eq _ a h { a with g₄ := 1, g₅ := 0, g₆ := 0, g₇ := 0 } rfl
  have hnone := @IdentifiesNetwork.cut_eq _ a h { a with g₄ := 1, g₅ := 1, g₆ := 1, g₇ := 1 } rfl
  rcases Address.cut_of_not_solid _ _ _ _ hpattern with hne | hne | hlast
  · exact hne (hzeros.trans hlate.symm)
  · exact hne (hzeros.trans hnone.symm)
  · -- the network after this one has an address of the same key
    obtain ⟨h₁, h₂, h₃⟩ := hlast
    obtain ⟨hcut, hle⟩ := Address.cut_of_zeros (decide (a.g₀ = 0)) (decide (a.g₄ = 0))
      (decide (a.g₅ = 0)) (decide (a.g₆ = 0)) (decide (a.g₇ = 0))
    let next : Address := { a with g₃ := 1, g₄ := 1, g₅ := 1, g₆ := 1, g₇ := 1 }
    have hzero : a.zeros = [decide (a.g₀ = 0), decide (a.g₁ = 0), decide (a.g₂ = 0),
        decide (a.g₃ = 0), decide (a.g₄ = 0), decide (a.g₅ = 0), decide (a.g₆ = 0),
        decide (a.g₇ = 0)] := rfl
    have hnext : next.zeros = [decide (a.g₀ = 0), decide (a.g₁ = 0), decide (a.g₂ = 0), false,
        false, false, false, false] := rfl
    rw [h₁, h₂, h₃] at hzero
    rw [h₁, h₂] at hnext
    have hkey : clientKey (some a.text) = clientKey (some next.text) := by
      rw [clientKey_eq_iff, hzero, hnext, hcut, ← min_eq_left hle, ← List.take_take,
        ← List.take_take]
      rfl
    have hnetwork : [(a.g₃ : ℕ)] = [1] :=
      congrArg (List.drop 3) ((h.shared next).mp hkey)
    rw [of_decide_eq_true h₃] at hnetwork
    exact absurd hnetwork (by decide)

/-- An address is counted with its /64, and with nothing else, exactly when the first 64 bits do not
end in a zero group and have no two zero groups in a row. -/
theorem identifiesNetwork_iff (a : Address) : IdentifiesNetwork a ↔ a.Solid :=
  ⟨solid_of_identifiesNetwork, identifiesNetwork_of_solid⟩

end Networks

/-- Two addresses of 2001:db8::/64 with two keys, and one of another network with the same key. -/
theorem not_identifiesNetwork_db8 :
    ¬ @IdentifiesNetwork asciiCase ⟨0x2001, 0xdb8, 0, 0, 1, 2, 3, 4⟩ := by
  intro h
  have hshared := @IdentifiesNetwork.shared asciiCase _ h
    ⟨0x2001, 0xdb8, 0, 0, 1, 0, 0, 0⟩
  exact absurd (hshared.mpr (by decide)) (by decide +kernel)

end Tesbo.ClientKeys
