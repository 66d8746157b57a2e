import Tesbo.PlaywrightReporter

/-!
# How an uploaded file leaves the server

The type a client claims for an upload is kept if it is one, else it is looked up by the extension
of the file's name; a type a browser would execute becomes plain text.
-/

namespace Tesbo.FileDelivery

open Reasoning

/-! ## Media types -/

/-- `[a-z0-9]` -/
def alphanumeric : List Char := "abcdefghijklmnopqrstuvwxyz0123456789".toList

/-- `[a-z0-9!#$&^_.+-]` -/
def tokenChars : List Char := alphanumeric ++ "!#$&^_.+-".toList

/-- `[a-z0-9][a-z0-9!#$&^_.+-]{0,126}` -/
def token : List Char → Bool
  | [] => false
  | c :: cs => c ∈ alphanumeric && cs.all (· ∈ tokenChars) && cs.length ≤ 126

/-- `MEDIA_TYPE`: two tokens with a slash between them. -/
def mediaType (cs : List Char) : Bool :=
  token (cs.takeWhile (· ≠ '/')) &&
    match cs.dropWhile (· ≠ '/') with
    | [] => false
    | _ :: subtype => token subtype

def octetStream : String := "application/octet-stream"

def textPlain : String := "text/plain"

/-- `ACTIVE_TO_TEXT` -/
def activeToText : List String :=
  ["text/html", "application/xhtml+xml", "text/xml", "application/xml", "text/xsl",
    "application/xslt+xml", "text/javascript", "application/javascript",
    "application/x-javascript", "text/ecmascript", "application/ecmascript", "text/css",
    "text/cache-manifest", "text/x-component"]

/-- `INLINE_SAFE` -/
def inlineSafe : List String :=
  ["image/png", "image/jpeg", "image/gif", "image/webp", "image/bmp", "application/pdf",
    "video/mp4", "video/webm", "video/quicktime", "audio/mpeg", "audio/wav", "audio/x-wav",
    "audio/mp4", "audio/aac", "audio/ogg", "audio/webm", "text/plain", "text/csv",
    "text/markdown", "application/json"]

/-- `EXTENSION_TYPES` -/
def extensionTypes : List (String × String) :=
  [("png", "image/png"), ("jpg", "image/jpeg"), ("jpeg", "image/jpeg"), ("gif", "image/gif"),
    ("webp", "image/webp"), ("svg", "image/svg+xml"), ("pdf", "application/pdf"),
    ("mp4", "video/mp4"), ("webm", "video/webm"), ("mov", "video/quicktime"),
    ("mp3", "audio/mpeg"), ("wav", "audio/wav"), ("m4a", "audio/mp4"), ("txt", "text/plain"),
    ("log", "text/plain"), ("md", "text/markdown"), ("csv", "text/csv"),
    ("json", "application/json")]

/-- The properties of `Object.prototype`, which every object literal inherits. -/
def inheritedProperties : List String :=
  ["constructor", "__defineGetter__", "__defineSetter__", "hasOwnProperty", "__lookupGetter__",
    "__lookupSetter__", "isPrototypeOf", "propertyIsEnumerable", "toString", "valueOf",
    "__proto__", "toLocaleString"]

/-- A text, or the function or object an inherited property holds. -/
inductive Value where
  | text (text : String)
  | inherited (property : String)
deriving DecidableEq, Repr

/-- `EXTENSION_TYPES[extension]`; no property is none. -/
def extensionType (extension : String) : Option Value :=
  match extensionTypes.lookup extension with
  | some type => some (.text type)
  | none => if extension ∈ inheritedProperties then some (.inherited extension) else none

/-! ## The functions -/

section Delivery

variable [Unicode]

/-- `raw.split(";")[0].trim().toLowerCase()` -/
def bareType (raw : String) : String :=
  Unicode.toLowerCase (jsTrim (String.ofList (raw.toList.takeWhile (· ≠ ';'))))

def baseType : Option Value → Option String
  | some (.text raw) => if mediaType (bareType raw).toList then some (bareType raw) else none
  | _ => none

/-- What follows the last point, if there is one. -/
def extensionOf (fileName : Option String) : String :=
  let name := (fileName.getD "").toList
  if '.' ∈ name then Unicode.toLowerCase (String.ofList (name.rtakeWhile (· ≠ '.'))) else ""

/-- The type before the active ones are taken out. -/
def typeOf (claimed : Option String) (fileName : Option String) : Value :=
  match claimed with
  | some type =>
      if type ≠ octetStream then .text type
      else (extensionType (extensionOf fileName)).getD (.text type)
  | none => (extensionType (extensionOf fileName)).getD (.text octetStream)

/-- `ACTIVE_TO_TEXT.has(type) ? TEXT_PLAIN : type` -/
def activeAsText (type : Value) : Value :=
  if type ∈ activeToText.map Value.text then .text textPlain else type

def safeContentType (clientType : Option Value) (fileName : Option String) : Value :=
  activeAsText (typeOf (baseType clientType) fileName)

/-- Only a text has `startsWith`; the call throws on anything else. -/
def headerType : Value → Option String
  | .text type =>
      some (if "text/".toList.isPrefixOf type.toList then type ++ "; charset=utf-8" else type)
  | .inherited _ => none

structure Delivery where
  contentType : String
  inline : Bool
deriving DecidableEq, Repr

/-- The delivery, `none` where the call throws. -/
def resolveFileDelivery (storedType : Option Value) (fileName : Option String)
    (wantInline : Bool) : Option Delivery :=
  let type := safeContentType storedType fileName
  (headerType type).map fun contentType ↦
    ⟨contentType, wantInline && type ∈ inlineSafe.map Value.text⟩

/-! ## What is promised -/

/-- `type/subtype`, without a capital letter. -/
structure WellFormed (type : String) : Prop where
  tokens : ∃ main subtype : List Char, type.toList = main ++ '/' :: subtype ∧
    token main = true ∧ token subtype = true
  lower : ∀ c ∈ type.toList, c.isUpper = false

/-- A browser never runs the file: its type is a harmless one, at upload and again at download, and
no call throws. -/
structure RunsNoScript (clientType fileName : Option String) : Prop where
  stored : ∃ type, safeContentType (clientType.map .text) fileName = .text type ∧
    WellFormed type ∧ type ∉ activeToText
  again : safeContentType (some (safeContentType (clientType.map .text) fileName)) fileName =
    safeContentType (clientType.map .text) fileName
  delivered : ∀ wantInline, ∃ delivery,
    resolveFileDelivery (clientType.map .text) fileName wantInline = some delivery ∧
      (delivery.inline = true → wantInline = true ∧
        ∃ type ∈ inlineSafe, safeContentType (clientType.map .text) fileName = .text type)

/-- The client sent a media type other than the one for bytes of any kind. -/
def Claims (clientType : Option String) : Prop :=
  ∃ raw ∈ clientType, mediaType (bareType raw).toList = true ∧ bareType raw ≠ octetStream

/-- The name ends in a point and an inherited property, in any case of letters. -/
def NamesProperty (fileName : Option String) : Prop :=
  ∃ name ∈ fileName, ∃ stem ending : List Char, name.toList = stem ++ '.' :: ending ∧
    '.' ∉ ending ∧ Unicode.toLowerCase (String.ofList ending) ∈ inheritedProperties

end Delivery

/-! ## Media types are harmless text -/

theorem tokenChars_spec : ∀ c ∈ tokenChars,
    c ≠ '/' ∧ c ≠ ';' ∧ jsSpace c = false ∧ c.toNat < 128 ∧ c.toLower = c ∧ c.isUpper = false := by
  decide +kernel

theorem mem_tokenChars_of_token {cs : List Char} (h : token cs = true) :
    ∀ c ∈ cs, c ∈ tokenChars := by
  cases cs with
  | nil => cases h
  | cons c cs =>
      simp only [token, Bool.and_eq_true, decide_eq_true_eq, List.all_eq_true] at h
      intro d hd
      rcases List.mem_cons.mp hd with rfl | hd
      · exact List.mem_append_left _ h.1.1
      · exact h.1.2 d hd

theorem mediaType_iff {cs : List Char} : mediaType cs = true ↔
    ∃ main subtype, cs = main ++ '/' :: subtype ∧ token main = true ∧ token subtype = true := by
  unfold mediaType
  constructor
  · intro h
    rw [Bool.and_eq_true] at h
    cases hdrop : cs.dropWhile (· ≠ '/') with
    | nil => rw [hdrop] at h; cases h.2
    | cons c subtype =>
        rw [hdrop] at h
        have hc : c = '/' := by
          have hhead := @head?_dropWhile _ (· ≠ '/') cs c (by rw [hdrop]; rfl)
          simpa using hhead
        refine ⟨cs.takeWhile (· ≠ '/'), subtype, ?_, h.1, h.2⟩
        subst hc
        rw [← hdrop, List.takeWhile_append_dropWhile]
  · rintro ⟨main, subtype, rfl, hmain, hsubtype⟩
    have hslash : ∀ c ∈ main, decide (c ≠ '/') = true := fun c hc ↦
      decide_eq_true (tokenChars_spec c (mem_tokenChars_of_token hmain c hc)).1
    rw [List.takeWhile_append_of_pos hslash, List.dropWhile_append_of_pos hslash,
      List.takeWhile_cons, List.dropWhile_cons, if_neg (by simp), if_neg (by simp),
      List.append_nil, hmain, Bool.true_and]
    exact hsubtype

theorem mediaType_chars {cs : List Char} (h : mediaType cs = true) :
    ∀ c ∈ cs, c ≠ ';' ∧ jsSpace c = false ∧ c.toNat < 128 ∧ c.toLower = c ∧ c.isUpper = false := by
  obtain ⟨main, subtype, rfl, hmain, hsubtype⟩ := mediaType_iff.mp h
  intro c hc
  rcases List.mem_append.mp hc with hc | hc
  · exact (tokenChars_spec c (mem_tokenChars_of_token hmain c hc)).2
  · rcases List.mem_cons.mp hc with rfl | hc
    · decide
    · exact (tokenChars_spec c (mem_tokenChars_of_token hsubtype c hc)).2

theorem wellFormed_of_mediaType {type : String} (h : mediaType type.toList = true) :
    WellFormed type :=
  ⟨mediaType_iff.mp h, fun c hc ↦ (mediaType_chars h c hc).2.2.2.2⟩

/-- A type that is served: plain text for one a browser would execute. -/
def downgraded (type : String) : String := if type ∈ activeToText then textPlain else type

theorem mediaType_downgraded {type : String} (h : mediaType type.toList = true) :
    mediaType (downgraded type).toList = true := by
  unfold downgraded
  split
  · decide +kernel
  · exact h

theorem downgraded_not_active (type : String) : downgraded type ∉ activeToText := by
  unfold downgraded
  split
  · decide
  · assumption

theorem downgraded_downgraded (type : String) :
    downgraded (downgraded type) = downgraded type :=
  if_neg (downgraded_not_active type)

theorem downgraded_eq_octetStream {type : String} (h : downgraded type = octetStream) :
    type = octetStream := by
  unfold downgraded at h
  split at h
  · exact absurd h (by decide)
  · exact h

/-- The table holds media types, and not the one for bytes of any kind. -/
theorem extensionTypes_spec : ∀ entry ∈ extensionTypes,
    mediaType entry.2.toList = true ∧ entry.2 ≠ octetStream := by
  decide +kernel

theorem inheritedProperties_spec : ∀ property ∈ inheritedProperties,
    extensionTypes.lookup property = none := by
  decide +kernel

theorem activeAsText_text (type : String) :
    activeAsText (.text type) = .text (downgraded type) := by
  unfold activeAsText downgraded
  by_cases h : type ∈ activeToText
  · rw [if_pos (List.mem_map_of_mem h), if_pos h]
  · rw [if_neg h, if_neg]
    intro hmem
    obtain ⟨other, hother, heq⟩ := List.mem_map.mp hmem
    exact h (Value.text.inj heq ▸ hother)

theorem activeAsText_inherited (property : String) :
    activeAsText (.inherited property) = .inherited property := by
  refine if_neg fun hmem ↦ ?_
  obtain ⟨other, -, heq⟩ := List.mem_map.mp hmem
  cases heq

theorem spec_of_extensionType {extension type : String}
    (h : extensionType extension = some (.text type)) :
    mediaType type.toList = true ∧ type ≠ octetStream := by
  unfold extensionType at h
  split at h
  · rename_i hlookup
    cases h
    obtain ⟨before, after, heq, -⟩ := List.lookup_eq_some_iff.mp hlookup
    exact extensionTypes_spec (extension, type) (by rw [heq]; simp)
  · split at h
    · cases h
    · cases h

theorem extensionType_eq_inherited {extension : String} :
    (∃ property, extensionType extension = some (.inherited property)) ↔
      extension ∈ inheritedProperties := by
  constructor
  · rintro ⟨property, h⟩
    unfold extensionType at h
    split at h
    · cases h
    · split at h
      · assumption
      · cases h
  · intro h
    refine ⟨extension, ?_⟩
    rw [extensionType, inheritedProperties_spec extension h]
    exact if_pos h

/-! ## The extension -/

/-- What follows the last point of a name. -/
theorem rtakeWhile_point {stem ending : List Char} (h : '.' ∉ ending) :
    (stem ++ '.' :: ending).rtakeWhile (· ≠ '.') = ending := by
  induction ending using List.reverseRecOn with
  | nil => exact List.rtakeWhile_concat_neg _ _ _ (by simp)
  | append_singleton ending c ih =>
      have hc : c ≠ '.' := fun heq ↦ h (by simp [heq])
      rw [← List.cons_append, ← List.append_assoc,
        List.rtakeWhile_concat_pos _ _ _ (by simpa using hc), ih fun hmem ↦ h (by simp [hmem])]

theorem exists_lastPoint {name : List Char} (h : '.' ∈ name) :
    ∃ stem ending, name = stem ++ '.' :: ending ∧ '.' ∉ ending := by
  obtain ⟨front, rest, heq, hfront⟩ := List.eq_append_cons_of_mem (List.mem_reverse.mpr h)
  refine ⟨rest.reverse, front.reverse, ?_, fun hmem ↦ hfront (List.mem_reverse.mp hmem)⟩
  rw [← List.reverse_reverse name, heq]
  simp

/-! ## What is returned -/

section Returned

variable [LetterCase]

theorem bareType_of_mediaType {type : String} (h : mediaType type.toList = true) :
    bareType type = type := by
  have hchars := mediaType_chars h
  have hwhole : type.toList.takeWhile (· ≠ ';') = type.toList :=
    List.takeWhile_eq_self_iff.mpr fun c hc ↦ decide_eq_true (hchars c hc).1
  have hlower : type.toList.map Char.toLower = type.toList :=
    (List.map_congr_left fun c hc ↦ (hchars c hc).2.2.2.1).trans (List.map_id _)
  unfold bareType
  rw [hwhole, String.ofList_toList,
    jsTrim_eq (trimmed_of_solid fun c hc ↦ (hchars c hc).2.1),
    LetterCase.toLowerCase_ascii type fun c hc ↦ (hchars c hc).2.2.1, hlower, String.ofList_toList]

theorem baseType_of_mediaType {type : String} (h : mediaType type.toList = true) :
    baseType (some (.text type)) = some type := by
  rw [baseType, bareType_of_mediaType h, if_pos h]

theorem mediaType_of_baseType {value : Option Value} {type : String}
    (h : baseType value = some type) : mediaType type.toList = true := by
  unfold baseType at h
  split at h
  · split at h
    · rw [← Option.some.inj h]
      assumption
    · cases h
  · cases h

theorem safeContentType_claimed {value : Option Value} {type : String} (fileName : Option String)
    (h : baseType value = some type) (hne : type ≠ octetStream) :
    safeContentType value fileName = .text (downgraded type) := by
  rw [safeContentType, h, typeOf, if_pos hne, activeAsText_text]

theorem safeContentType_unclaimed {value : Option Value} (fileName : Option String)
    (h : ∀ type ∈ baseType value, type = octetStream) :
    safeContentType value fileName =
      activeAsText ((extensionType (extensionOf fileName)).getD (.text octetStream)) := by
  unfold safeContentType typeOf
  cases hbase : baseType value with
  | none => rfl
  | some type =>
      cases h type hbase
      rfl

theorem claims_iff (clientType : Option String) :
    Claims clientType ↔ ∃ type, baseType (clientType.map .text) = some type ∧
      type ≠ octetStream := by
  cases clientType with
  | none => simp [Claims, baseType]
  | some raw =>
      by_cases h : mediaType (bareType raw).toList = true
      · simp [Claims, baseType, h]
      · simp [Claims, baseType, h]

theorem namesProperty_iff (fileName : Option String) :
    NamesProperty fileName ↔ extensionOf fileName ∈ inheritedProperties := by
  constructor
  · rintro ⟨name, hname, stem, ending, heq, hending, hmem⟩
    cases hname
    have hpoint : '.' ∈ name.toList := by rw [heq]; simp
    rw [extensionOf, Option.getD_some, if_pos hpoint, heq, rtakeWhile_point hending]
    exact hmem
  · intro h
    cases fileName with
    | none =>
        have hnone : extensionOf none = "" := rfl
        rw [hnone] at h
        exact absurd h (by decide)
    | some name =>
        have hsome : extensionOf (some name) = if '.' ∈ name.toList
            then Unicode.toLowerCase (String.ofList (name.toList.rtakeWhile (· ≠ '.'))) else "" :=
          rfl
        by_cases hpoint : '.' ∈ name.toList
        · obtain ⟨stem, ending, heq, hending⟩ := exists_lastPoint hpoint
          rw [hsome, if_pos hpoint, heq, rtakeWhile_point hending] at h
          exact ⟨name, rfl, stem, ending, heq, hending, h⟩
        · rw [hsome, if_neg hpoint] at h
          exact absurd h (by decide)

/-- A file served under a media type is safe, if the type is found again at download. -/
theorem runsNoScript_of_text {clientType fileName : Option String} {type : String}
    (hmedia : mediaType type.toList = true)
    (hfound : type = octetStream →
      (extensionType (extensionOf fileName)).getD (.text octetStream) = .text octetStream)
    (hstored : safeContentType (clientType.map .text) fileName = .text (downgraded type)) :
    RunsNoScript clientType fileName where
  stored := ⟨downgraded type, hstored, wellFormed_of_mediaType (mediaType_downgraded hmedia),
    downgraded_not_active type⟩
  again := by
    have hbase := baseType_of_mediaType (mediaType_downgraded hmedia)
    rw [hstored]
    by_cases hoctet : downgraded type = octetStream
    · have hall : ∀ other ∈ baseType (some (.text (downgraded type))), other = octetStream := by
        intro other hother
        rw [hbase] at hother
        rw [← Option.some.inj hother, hoctet]
      rw [safeContentType_unclaimed fileName hall, hfound (downgraded_eq_octetStream hoctet),
        activeAsText_text, hoctet]
      rfl
    · rw [safeContentType_claimed fileName hbase hoctet, downgraded_downgraded]
  delivered wantInline := by
    unfold resolveFileDelivery
    dsimp only
    rw [hstored]
    refine ⟨_, rfl, fun hinline ↦ ?_⟩
    rw [Bool.and_eq_true, decide_eq_true_eq] at hinline
    obtain ⟨safe, hsafe, heq⟩ := List.mem_map.mp hinline.2
    exact ⟨hinline.1, safe, hsafe, by rw [heq]⟩

/-- An upload is served safely unless its name ends in a property every object inherits and the
client claims no type that would be used instead. -/
theorem runsNoScript_iff (clientType fileName : Option String) :
    RunsNoScript clientType fileName ↔ Claims clientType ∨ ¬ NamesProperty fileName := by
  rw [claims_iff, namesProperty_iff, ← extensionType_eq_inherited]
  constructor
  · intro h
    by_contra hnot
    rw [not_or, not_not] at hnot
    obtain ⟨hclaims, property, hproperty⟩ := hnot
    obtain ⟨type, htype, -, -⟩ := h.stored
    have hall : ∀ type ∈ baseType (clientType.map .text), type = octetStream :=
      fun type hbase ↦ by_contra fun hne ↦ hclaims ⟨type, hbase, hne⟩
    rw [safeContentType_unclaimed fileName hall, hproperty, Option.getD_some,
      activeAsText_inherited] at htype
    cases htype
  · intro h
    by_cases hclaims : ∃ type, baseType (clientType.map .text) = some type ∧ type ≠ octetStream
    · obtain ⟨type, hbase, hne⟩ := hclaims
      exact runsNoScript_of_text (mediaType_of_baseType hbase) (fun heq ↦ absurd heq hne)
        (safeContentType_claimed fileName hbase hne)
    · have hall : ∀ type ∈ baseType (clientType.map .text), type = octetStream :=
        fun type hbase ↦ by_contra fun hne ↦ hclaims ⟨type, hbase, hne⟩
      have hstored := safeContentType_unclaimed fileName hall
      have hproperty := h.resolve_left hclaims
      cases hextension : extensionType (extensionOf fileName) with
      | none =>
          rw [hextension] at hstored
          refine @runsNoScript_of_text _ _ _ octetStream (by decide +kernel) (fun _ ↦ ?_) hstored
          rw [hextension]
          rfl
      | some value =>
          rw [hextension] at hstored
          cases value with
          | text type =>
              have hspec := spec_of_extensionType hextension
              exact runsNoScript_of_text hspec.1 (fun heq ↦ absurd heq hspec.2)
                (hstored.trans (activeAsText_text type))
          | inherited property => exact absurd ⟨property, hextension⟩ hproperty

end Returned

/-- An upload called `shot.constructor`, for which the client sends no type. -/
theorem not_runsNoScript_constructor :
    ¬ @RunsNoScript asciiCase none (some "shot.constructor") := by
  intro h
  have hinherited : @safeContentType asciiCase (none.map .text) (some "shot.constructor") =
      .inherited "constructor" := by
    decide +kernel
  obtain ⟨type, htype, -⟩ := @RunsNoScript.stored asciiCase _ _ h
  rw [hinherited] at htype
  cases htype

end Tesbo.FileDelivery
