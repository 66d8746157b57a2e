import Tesbo.SafeFetch

/-!
# IPv4 addresses inside IPv6 addresses

An IPv4 address is written inside IPv6 ones of several kinds.  A request to such an address should be
no more welcome than one to the address it wraps.
-/

namespace Tesbo.SafeFetch

open Reasoning ClientKeys

/-! ## Wrappers -/

def value (v : Address4) : Fin (2 ^ 32) := ⟨ipv4 v.d₀ v.d₁ v.d₂ v.d₃, by unfold ipv4; omega⟩

/-- The two groups of an IPv4 address. -/
def high (v : Address4) : ℕ := v.d₀ * 256 + v.d₁

def low (v : Address4) : ℕ := v.d₂ * 256 + v.d₃

theorem ipv6_eq (a b c d e f g h : ℕ) : ipv6 a b c d e f g h =
    (((((((0 * 65536 + a) * 65536 + b) * 65536 + c) * 65536 + d) * 65536 + e) * 65536 + f) * 65536 +
      g) * 65536 + h :=
  rfl

theorem ipv6_sum (a b c d e f g h : ℕ) : ipv6 a b c d e f g h = a * 2 ^ 112 + b * 2 ^ 96 +
    c * 2 ^ 80 + d * 2 ^ 64 + e * 2 ^ 48 + f * 2 ^ 32 + g * 2 ^ 16 + h := by
  rw [ipv6_eq]
  ring

theorem ipv6_lt {a b c d e f g h : ℕ} (ha : a < 65536) (hb : b < 65536) (hc : c < 65536)
    (hd : d < 65536) (he : e < 65536) (hf : f < 65536) (hg : g < 65536) (hh : h < 65536) :
    ipv6 a b c d e f g h < 2 ^ 128 := by
  rw [ipv6_eq]
  omega

theorem groups_lt (v : Address4) : high v < 65536 ∧ low v < 65536 := by
  unfold high low
  omega

/-- `64:ff9b::v` -/
def nat64 (v : Address4) : Fin (2 ^ 128) :=
  ⟨ipv6 0x64 0xff9b 0 0 0 0 (high v) (low v), by
    have hgroups := groups_lt v
    apply ipv6_lt <;> omega⟩

/-- `2002:v::` -/
def sixToFour (v : Address4) : Fin (2 ^ 128) :=
  ⟨ipv6 0x2002 (high v) (low v) 0 0 0 0 0, by
    have hgroups := groups_lt v
    apply ipv6_lt <;> omega⟩

def mappedDotted (v : Address4) : String := "::ffff:" ++ v.text

def mappedHex (v : Address4) : String :=
  String.ofList (mappedPrefix ++ groupsText [high v, low v])

/-- An address without its brackets and its zone. -/
def bare (text : String) : String :=
  String.ofList ((stripBrackets text.toList).takeWhile (· ≠ '%'))

/-- The IPv4-mapped forms, in any case of letters. -/
def Mapped (text : String) : Prop := mappedPrefix <+: (bare text).toList.map Char.toLower

section Wrapping

variable [Node]

/-- The text is an address that is not in a mapped form. -/
structure Names (text : String) (n : Fin (2 ^ 128)) : Prop where
  parsed : Node.parseAddress (bare text) = some (.v6 n)
  unmapped : ¬ Mapped text

/-- The texts of the IPv6 addresses that wrap an IPv4 one. -/
inductive Wraps (v : Address4) (text : String) : Prop
  | mappedDotted : bare text = mappedDotted v → Wraps v text
  | mappedHex : bare text = mappedHex v → Wraps v text
  | nat64 : Names text (nat64 v) → Wraps v text
  | sixToFour : Names text (sixToFour v) → Wraps v text

end Wrapping

/-- public < private < blocked -/
def AddressClass.rank : AddressClass → ℕ
  | .public => 0
  | .private => 1
  | .blocked => 2

/-- The gate is no more open for the wrapper than for what it wraps, and no wrapper of an address
that is always blocked is ever connected to. -/
structure Guarded [Unicode] [Node] (v : Address4) (text : String) : Prop where
  monotone : (classifyAddress v.text).rank ≤ (classifyAddress text).rank
  refused : check 32 alwaysBlocked4 (value v) = true → ∀ raw lookup target,
    resolveSafeTarget raw true lookup = .ok target → target.address ≠ text

/-! ## Dotted texts -/

theorem mem_text4 {v : Address4} {c : Char} (h : c ∈ v.text.toList) :
    c.isDigit = true ∨ c = '.' := by
  have hdigits : ∀ d : Fin 256, c ∈ Nat.toDigits 10 d → c.isDigit = true ∨ c = '.' :=
    fun d hd ↦ .inl (Nat.isDigit_of_mem_toDigits (by decide) (by decide) hd)
  rw [toList_text4] at h
  simp only [List.mem_append, List.mem_cons] at h
  rcases h with h | h | h | h | h | h | h
  · exact hdigits _ h
  · exact .inr h
  · exact hdigits _ h
  · exact .inr h
  · exact hdigits _ h
  · exact .inr h
  · exact hdigits _ h

theorem stripBrackets_eq {cs : List Char} (h : ∀ c ∈ cs, c ≠ '[' ∧ c ≠ ']') :
    stripBrackets cs = cs := by
  have hhead : cs.head? ≠ some '[' := fun heq ↦ (h _ (List.mem_of_mem_head? heq)).1 rfl
  have hlast : cs.getLast? ≠ some ']' := fun heq ↦ (h _ (List.mem_of_mem_getLast? heq)).2 rfl
  unfold stripBrackets
  rw [if_neg hhead]
  exact if_neg hlast

theorem takeWhile_zone {cs : List Char} (h : '%' ∉ cs) : cs.takeWhile (· ≠ '%') = cs :=
  List.takeWhile_eq_self_iff.mpr fun _ hc ↦ decide_eq_true fun heq ↦ h (heq ▸ hc)

theorem bare_eq {text : String} (hbrackets : ∀ c ∈ text.toList, c ≠ '[' ∧ c ≠ ']')
    (hzone : '%' ∉ text.toList) : bare text = text := by
  unfold bare
  rw [stripBrackets_eq hbrackets, takeWhile_zone hzone, String.ofList_toList]

theorem classifyAddress_eq [Node] (text : String) : classifyAddress text =
    match Node.parseAddress (unwrapMapped (bare text)) with
    | none => .blocked
    | some address => classOf address :=
  rfl

theorem unwrapMapped_unmapped {text : String}
    (h : ¬ mappedPrefix <+: text.toList.map Char.toLower) : unwrapMapped text = text := by
  unfold unwrapMapped
  exact if_neg fun hstart ↦ h (List.isPrefixOf_iff_prefix.mp hstart)

theorem unmapped_text4 (v : Address4) : ¬ mappedPrefix <+: v.text.toList.map Char.toLower := by
  intro h
  have hcolon : ':' ∈ v.text.toList.map Char.toLower := h.subset (by decide)
  obtain ⟨c, hc, hlower⟩ := List.mem_map.mp hcolon
  rw [(settled_of_mem_text4 hc).1.lower] at hlower
  exact (settled_of_mem_text4 hc).2 hlower

/-! ## The hexadecimal form -/

theorem hexGroup_toDigits {n : ℕ} (hn : n < 65536) : hexGroup (Nat.toDigits 16 n) = some n := by
  have hlower : (Nat.toDigits 16 n).map Char.toLower = Nat.toDigits 16 n :=
    (List.map_congr_left fun c hc ↦
      (settled_of_mem_toDigits (by decide) (by decide) hc).1.lower).trans (List.map_id _)
  have hlength : (Nat.toDigits 16 n).length ≤ 4 :=
    (Nat.length_toDigits_le_iff (by decide) (by decide)).mpr (by omega)
  have hpos : 1 ≤ (Nat.toDigits 16 n).length := Nat.length_toDigits_pos
  have hdigits : (Nat.toDigits 16 n).all (· ∈ "0123456789abcdef".toList) = true := by
    refine List.all_eq_true.mpr fun c hc ↦ decide_eq_true ?_
    obtain ⟨d, hd, rfl⟩ := exists_digit_of_mem_toDigits (by decide) hc
    exact (hexDigit_spec d hd).1
  unfold hexGroup
  dsimp only
  rw [hlower, hdigits, decide_eq_true hlength, decide_eq_true hpos]
  exact congrArg some (foldl_toDigits (by decide) (by decide) n)

theorem toList_mappedHex (v : Address4) : (mappedHex v).toList =
    mappedPrefix ++ (Nat.toDigits 16 (high v) ++ ':' :: Nat.toDigits 16 (low v)) := by
  rw [mappedHex, String.toList_ofList, groupsText_cons_cons, groupsText_singleton]

theorem toList_mappedDotted (v : Address4) :
    (mappedDotted v).toList = mappedPrefix ++ v.text.toList :=
  String.toList_append

theorem mapped_of_front {text : String} {rest : List Char} (h : text.toList = mappedPrefix ++ rest) :
    mappedPrefix <+: text.toList.map Char.toLower := by
  rw [h, List.map_append]
  exact List.prefix_append _ _

/-- The rest of a mapped text is unwrapped. -/
theorem unwrapMapped_of_front {text : String} {rest : List Char}
    (h : text.toList = mappedPrefix ++ rest) : unwrapMapped text =
      if dotted rest then String.ofList rest
      else
        match (rest.splitOn ':').map hexGroup with
        | [some high, some low] => s!"{high / 256}.{high % 256}.{low / 256}.{low % 256}"
        | _ => text := by
  unfold unwrapMapped
  dsimp only
  rw [if_pos (List.isPrefixOf_iff_prefix.mpr (mapped_of_front h)), h, List.drop_left] <;> rfl

theorem unwrapMapped_mappedDotted (v : Address4) : unwrapMapped (mappedDotted v) = v.text := by
  rw [unwrapMapped_of_front (toList_mappedDotted v), if_pos (dotted_text4 v), String.ofList_toList]

theorem unwrapMapped_mappedHex (v : Address4) : unwrapMapped (mappedHex v) = v.text := by
  have hpoint : '.' ∉ Nat.toDigits 16 (high v) ++ ':' :: Nat.toDigits 16 (low v) := by
    intro hmem
    rw [List.mem_append, List.mem_cons] at hmem
    rcases hmem with hmem | hmem | hmem
    · exact (settled_of_mem_toDigits (by decide) (by decide) hmem).2.2 rfl
    · exact absurd hmem (by decide)
    · exact (settled_of_mem_toDigits (by decide) (by decide) hmem).2.2 rfl
  have hdotted : dotted (Nat.toDigits 16 (high v) ++ ':' :: Nat.toDigits 16 (low v)) ≠ true := by
    unfold dotted
    rw [List.splitOn_eq_singleton hpoint]
    simp
  have hsplit : (Nat.toDigits 16 (high v) ++ ':' :: Nat.toDigits 16 (low v)).splitOn ':' =
      [Nat.toDigits 16 (high v), Nat.toDigits 16 (low v)] := by
    have h := @List.splitOn_intercalate _ [Nat.toDigits 16 (high v), Nat.toDigits 16 (low v)] _ _ ':'
      (fun part hpart ↦ by
        rcases List.mem_pair.mp hpart with rfl | rfl
        · exact colon_not_mem_toDigits _
        · exact colon_not_mem_toDigits _) (by simp)
    simpa [List.intercalate_cons_cons] using h
  rw [unwrapMapped_of_front (toList_mappedHex v), if_neg hdotted, hsplit, List.map_cons,
    List.map_singleton, hexGroup_toDigits (groups_lt v).1, hexGroup_toDigits (groups_lt v).2]
  dsimp only
  have hparts : high v / 256 = v.d₀ ∧ high v % 256 = v.d₁ ∧ low v / 256 = v.d₂ ∧
      low v % 256 = v.d₃ := by
    unfold high low
    omega
  rw [hparts.1, hparts.2.1, hparts.2.2.1, hparts.2.2.2]
  apply String.toList_injective
  rw [toList_text4]
  simp
  rfl

/-! ## Classes -/

theorem blocked_or_rank_le_one (n : Fin (2 ^ 32)) :
    classOf (.v4 n) = .blocked ∧ check 32 alwaysBlocked4 n = true ∨
      (classOf (.v4 n)).rank ≤ 1 ∧ check 32 alwaysBlocked4 n = false := by
  cases h : check 32 alwaysBlocked4 n with
  | true => exact .inl ⟨by rw [classOf, if_pos h], rfl⟩
  | false =>
      refine .inr ⟨?_, rfl⟩
      rw [classOf, if_neg (by rw [h]; exact Bool.false_ne_true)]
      split <;> decide

theorem check_eq_false {width : ℕ} {subnets : List (ℕ × ℕ)} {n : ℕ}
    (h : ∀ subnet ∈ subnets, n / 2 ^ (width - subnet.2) ≠ subnet.1 / 2 ^ (width - subnet.2)) :
    check width subnets n = false :=
  List.any_eq_false.mpr fun subnet hmem ↦ by simpa using h subnet hmem

theorem check_eq_true {width : ℕ} {subnets : List (ℕ × ℕ)} {n : ℕ} {subnet : ℕ × ℕ}
    (hmem : subnet ∈ subnets)
    (h : n / 2 ^ (width - subnet.2) = subnet.1 / 2 ^ (width - subnet.2)) :
    check width subnets n = true :=
  List.any_eq_true.mpr ⟨subnet, hmem, decide_eq_true h⟩

theorem classOf_private6 {n : Fin (2 ^ 128)} (hloopback : check 128 loopback6 n = false)
    (hblocked : check 128 alwaysBlocked6 n = false) (hprivate : check 128 private6 n = true) :
    classOf (.v6 n) = .private := by
  rw [classOf, hloopback, hblocked, hprivate]
  rfl

/-- Both forms lie in subnets that are private, whatever address they wrap. -/
theorem classOf_nat64 (v : Address4) : classOf (.v6 (nat64 v)) = .private := by
  have hn : (nat64 v : ℕ) = 0x64ff9b * 2 ^ 96 + high v * 65536 + low v :=
    (ipv6_sum ..).trans (by omega)
  have hgroups := groups_lt v
  apply classOf_private6
  · apply check_eq_false
    simp only [loopback6, ipv6_eq, List.forall_mem_singleton]
    omega
  · apply check_eq_false
    simp only [alwaysBlocked6, ipv6_eq, List.forall_mem_cons,
      List.not_mem_nil, false_implies, implies_true, and_true]
    omega
  · refine @check_eq_true _ _ _ (ipv6 0x64 0xff9b 0 0 0 0 0 0, 96) (by decide) ?_
    simp only [ipv6_eq]
    omega

theorem classOf_sixToFour (v : Address4) : classOf (.v6 (sixToFour v)) = .private := by
  have hn : (sixToFour v : ℕ) = 0x2002 * 2 ^ 112 + high v * 2 ^ 96 + low v * 2 ^ 80 :=
    (ipv6_sum ..).trans (by omega)
  have hgroups := groups_lt v
  apply classOf_private6
  · apply check_eq_false
    simp only [loopback6, ipv6_eq, List.forall_mem_singleton]
    omega
  · apply check_eq_false
    simp only [alwaysBlocked6, ipv6_eq, List.forall_mem_cons,
      List.not_mem_nil, false_implies, implies_true, and_true]
    omega
  · refine @check_eq_true _ _ _ (ipv6 0x2002 0 0 0 0 0 0 0, 16) (by decide) ?_
    simp only [ipv6_eq]
    omega

section Guard

variable [Node] (hdotted : ∀ v : Address4, Node.parseAddress v.text = some (.v4 (value v)))

include hdotted

theorem classifyAddress_unwrapped {v : Address4} {text : String}
    (h : unwrapMapped (bare text) = v.text) : classifyAddress text = classOf (.v4 (value v)) := by
  rw [classifyAddress_eq, h, hdotted v]

theorem classifyAddress_text4 (v : Address4) : classifyAddress v.text = classOf (.v4 (value v)) := by
  have hchars : ∀ c ∈ v.text.toList, (c ≠ '[' ∧ c ≠ ']') ∧ c ≠ '%' := by
    intro c hc
    rcases mem_text4 hc with hdigit | rfl
    · refine ⟨⟨?_, ?_⟩, ?_⟩ <;> rintro rfl <;> exact absurd hdigit (by decide)
    · decide
  apply classifyAddress_unwrapped hdotted
  rw [bare_eq (fun c hc ↦ (hchars c hc).1) fun hmem ↦ (hchars _ hmem).2 rfl,
    unwrapMapped_unmapped (unmapped_text4 v)]

end Guard

theorem classifyAddress_names [Node] {text : String} {n : Fin (2 ^ 128)} (h : Names text n) :
    classifyAddress text = classOf (.v6 n) := by
  rw [classifyAddress_eq, unwrapMapped_unmapped h.unmapped, h.parsed]

/-! ## What the gate sees of a wrapper -/

/-- A wrapper is unwrapped, or it has a form that is private as a whole. -/
theorem classifyAddress_wraps [Node]
    (hdotted : ∀ v : Address4, Node.parseAddress v.text = some (.v4 (value v))) {v : Address4}
    {text : String} (h : Wraps v text) :
    Mapped text ∧ classifyAddress text = classOf (.v4 (value v)) ∨
      ¬ Mapped text ∧ classifyAddress text = .private := by
  cases h with
  | mappedDotted h =>
      refine .inl ⟨?_, classifyAddress_unwrapped hdotted ?_⟩
      · unfold Mapped
        rw [h]
        exact mapped_of_front (toList_mappedDotted v)
      · rw [h]
        exact unwrapMapped_mappedDotted v
  | mappedHex h =>
      refine .inl ⟨?_, classifyAddress_unwrapped hdotted ?_⟩
      · unfold Mapped
        rw [h]
        exact mapped_of_front (toList_mappedHex v)
      · rw [h]
        exact unwrapMapped_mappedHex v
  | nat64 h => exact .inr ⟨h.unmapped, (classifyAddress_names h).trans (classOf_nat64 v)⟩
  | sixToFour h => exact .inr ⟨h.unmapped, (classifyAddress_names h).trans (classOf_sixToFour v)⟩

/-- Only what is blocked keeps an address from being connected to where private hosts are allowed. -/
theorem ne_of_blocked [Unicode] [Node] {text : String} (h : classifyAddress text = .blocked)
    {raw : String} {allowPrivate : Bool} {lookup : Lookup} {target : ResolvedTarget}
    (hok : resolveSafeTarget raw allowPrivate lookup = .ok target) : target.address ≠ text := by
  rintro rfl
  obtain ⟨answers, -, hchecked⟩ := exists_checked hok
  exact hchecked.notBlocked h

theorem guarded_iff [Unicode] [Node]
    (hdotted : ∀ v : Address4, Node.parseAddress v.text = some (.v4 (value v))) (v : Address4)
    (text : String) (h : Wraps v text) :
    Guarded v text ↔ Mapped text ∨ check 32 alwaysBlocked4 (value v) = false := by
  have hplain := classifyAddress_text4 hdotted v
  rcases classifyAddress_wraps hdotted h with ⟨hmapped, hclass⟩ | ⟨hmapped, hclass⟩
  · refine ⟨fun _ ↦ .inl hmapped, fun _ ↦ ⟨?_, fun halways raw lookup target hok ↦ ?_⟩⟩
    · rw [hplain, hclass]
    · apply ne_of_blocked _ hok
      rw [hclass, classOf, if_pos halways]
  · rcases blocked_or_rank_le_one (value v) with ⟨hblocked, halways⟩ | ⟨hle, halways⟩
    · refine ⟨fun hguarded ↦ ?_, fun hor ↦ ?_⟩
      · have hle := hguarded.monotone
        rw [hplain, hclass, hblocked] at hle
        exact absurd hle (by decide)
      · rcases hor with hor | hor
        · exact absurd hor hmapped
        · rw [halways] at hor
          cases hor
    · refine ⟨fun _ ↦ .inr halways, fun _ ↦ ⟨?_, fun hyes ↦ ?_⟩⟩
      · rw [hplain, hclass]
        exact hle
      · rw [halways] at hyes
        cases hyes

/-! ## A metadata service behind NAT64 -/

def octet (cs : List Char) : Option (Fin 256) :=
  let n := cs.foldl (fun n c ↦ n * 10 + hexDigits.idxOf c) 0
  if h : n < 256 ∧ Nat.toDigits 10 n = cs then some ⟨n, h.1⟩ else none

theorem octet_toDigits (d : Fin 256) : octet (Nat.toDigits 10 d) = some d := by
  have hd := foldl_toDigits (by decide) (by decide : 10 ≤ 16) (d : ℕ)
  unfold octet
  rw [dif_pos ⟨by rw [hd]; exact d.isLt, by rw [hd]⟩]
  exact congrArg some (Fin.ext hd)

def parseDotted (text : String) : Option IpAddress :=
  match (text.toList.splitOn '.').map octet with
  | [some d₀, some d₁, some d₂, some d₃] => some (.v4 (value ⟨d₀, d₁, d₂, d₃⟩))
  | _ => none

theorem parseDotted_text4 (v : Address4) : parseDotted v.text = some (.v4 (value v)) := by
  unfold parseDotted
  rw [splitOn_text4]
  simp only [List.map_cons, List.map_nil, octet_toDigits]

def metadata : Address4 := ⟨169, 254, 169, 254⟩

/-- `http://169.254.169.254/` as a URL over IPv6. -/
@[reducible] def metadataNode : Node where
  parseAddress text :=
    if text = "64:ff9b::a9fe:a9fe" then some (.v6 (nat64 metadata)) else parseDotted text
  parseUrl text :=
    if text = "http://[64:ff9b::a9fe:a9fe]/" then
      some ⟨"http:", "", "", "[64:ff9b::a9fe:a9fe]"⟩
    else none

theorem parseAddress_text4 (v : Address4) :
    metadataNode.parseAddress v.text = some (.v4 (value v)) := by
  have hne : v.text ≠ "64:ff9b::a9fe:a9fe" := by
    intro h
    have hcolon : ':' ∈ v.text.toList := by
      rw [h]
      decide
    exact (settled_of_mem_text4 hcolon).2 rfl
  exact (if_neg hne).trans (parseDotted_text4 v)

theorem wraps_metadata : @Wraps metadataNode metadata "64:ff9b::a9fe:a9fe" :=
  @Wraps.nat64 metadataNode _ _ (@Names.mk metadataNode _ _ (if_pos (by decide +kernel))
    (by unfold Mapped; decide +kernel))

/-- A private network is as open as its subnets, an address that is never reachable included. -/
theorem not_guarded_nat64 : letI : Unicode := asciiCase
    letI : Node := metadataNode
    Wraps metadata "64:ff9b::a9fe:a9fe" ∧ classifyAddress metadata.text = .blocked ∧
      (resolveSafeTarget "http://[64:ff9b::a9fe:a9fe]/" true fun _ ↦ none).toOption.map
        ResolvedTarget.address = some "64:ff9b::a9fe:a9fe" ∧
      ¬ Guarded metadata "64:ff9b::a9fe:a9fe" := by
  refine ⟨wraps_metadata, by decide +kernel, by decide +kernel, fun h ↦ ?_⟩
  have hle := @Guarded.monotone asciiCase metadataNode _ _ h
  revert hle
  decide +kernel

theorem guarded_iff_nat64 : letI : Unicode := asciiCase
    letI : Node := metadataNode
    Guarded metadata "64:ff9b::a9fe:a9fe" ↔
      Mapped "64:ff9b::a9fe:a9fe" ∨ check 32 alwaysBlocked4 (value metadata) = false :=
  @guarded_iff asciiCase metadataNode parseAddress_text4 metadata "64:ff9b::a9fe:a9fe" wraps_metadata

end Tesbo.SafeFetch
