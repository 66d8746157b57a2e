import Tesbo.FieldRoundTrip
import Tesbo.ZyraSave

/-!
# Default values of custom fields

A default is checked when its field is configured, and filled in when a test case is written.
Between the two its options can be deactivated and days pass.
-/

namespace Tesbo.DefaultValues

open Reasoning

/-! ## Changes of a definition -/

/-- A configuration as it is sent again. -/
def resent (option : FieldOption ℚ) : RawOption ℚ :=
  ⟨.value option.id, .value (.text option.label), .value option.active, some option.order⟩

/-- A value as sent, where one is stored. -/
def sentAs {α β : Type} (f : α → β) (stored : Option α) : Arg β :=
  stored.elim .undefined fun a ↦ .value (f a)

/-- The fields a request sends; those it leaves out are `undefined`, and so are its options where
`sendsOptions` is false. -/
structure ConfigPatch where
  raw : RawConfig ℚ
  sendsOptions : Bool

/-- `{ ...existing, ...sent }` at one field. -/
def spread {α : Type} (existing sent : Arg α) : Arg α := if sent.sent then sent else existing

/-- `{ ...existing.config, ...body.config }` -/
def mergedConfig (existing : FieldConfig ℚ) (patch : ConfigPatch) : RawConfig ℚ where
  maxLength := spread (sentAs .number existing.maxLength) patch.raw.maxLength
  displayFormat := spread (sentAs id existing.displayFormat) patch.raw.displayFormat
  options := if patch.sendsOptions then patch.raw.options else existing.options.map resent
  defaultOptionId := spread existing.defaultOptionId patch.raw.defaultOptionId
  defaultOptionIds := spread existing.defaultOptionIds patch.raw.defaultOptionIds
  minSelected := spread (sentAs .number existing.minSelected) patch.raw.minSelected
  maxSelected := spread (sentAs .number existing.maxSelected) patch.raw.maxSelected
  min := spread (sentAs .number existing.min) patch.raw.min
  max := spread (sentAs .number existing.max) patch.raw.max
  decimalsAllowed := spread (sentAs id existing.decimalsAllowed) patch.raw.decimalsAllowed
  unit := spread existing.unit patch.raw.unit
  allowPastDates := spread (sentAs id existing.allowPastDates) patch.raw.allowPastDates
  allowFutureDates := spread (sentAs id existing.allowFutureDates) patch.raw.allowFutureDates
  defaultValue := spread existing.defaultValue patch.raw.defaultValue

/-- `option.active = active` for the first option with the id. -/
def activate (optionId : String) (active : Bool) : List (FieldOption ℚ) → List (FieldOption ℚ)
  | [] => []
  | o :: options =>
      if o.id = optionId then { o with active := active } :: options
      else o :: activate optionId active options

def reservedTestcaseHeaders : List String :=
  ["externalid", "title", "description", "preconditions", "postconditions", "steps", "action",
    "expectedresult", "testdata", "priority", "severity", "type", "status", "suite", "component",
    "estimatedduration", "automationstatus", "attachments"]

def nameMaxLength : ℕ := 160

section Changes

variable [JsNumber ℚ] [Unicode]

/-- `replace(/[^a-z0-9]+/g, "")` of the name in small letters. -/
def normalizeTestcaseHeader (value : String) : String :=
  String.ofList ((Unicode.toLowerCase value).toList.filter fun c ↦
    ('a' ≤ c && c ≤ 'z') || c.isDigit)

def requireFieldName (name : String) : Except Failure Unit :=
  if name = "" then .error (.badRequest "name is required")
  else if nameMaxLength < jsLength name then
    .error (.badRequest s!"name must be {nameMaxLength} characters or fewer")
  else if normalizeTestcaseHeader name ∈ reservedTestcaseHeaders then
    .error (.badRequest "This name is reserved for a built-in test case field")
  else .ok ()

/-- The body of an update; of the names other fields of the project have, `taken` holds. -/
structure DefinitionUpdate where
  name : Arg String
  fieldType : Option FieldType
  required : Arg Bool
  config : Option ConfigPatch
  taken : String → Bool

/-- The name a definition gets. -/
def updatedName (body : DefinitionUpdate) (existing : String) : Except Failure String :=
  if body.name.sent then do
    let name := jsTrim (body.name.nullish.getD "")
    requireFieldName name
    if Unicode.toLowerCase name ≠ Unicode.toLowerCase existing ∧ body.taken name then
      .error (.badRequest "A field with this name already exists")
    else .ok name
  else .ok existing

/-- `fresh` gives the ids of new options, `today` is the day of the request. -/
def updateDefinition (fresh : ℕ → String) (today : String) (body : DefinitionUpdate)
    (d : CustomFieldDefinition) : Except Failure CustomFieldDefinition :=
  if d.status = .archived then .error (.badRequest "Archived fields are read-only")
  else if ∃ fieldType ∈ body.fieldType, fieldType ≠ d.fieldType then
    .error (.badRequest "Field type cannot be changed after creation")
  else do
    let name ← updatedName body d.name
    let patch := body.config.getD ⟨FieldRoundTrip.RawConfig.empty ℚ, false⟩
    let config ← validateConfigShape fresh today d.fieldType (mergedConfig d.config patch)
    .ok { d with
      name := name, config := config
      required := if body.required.sent then body.required.nullish = some true else d.required }

def addOption (fresh label : String) (d : CustomFieldDefinition) :
    Except Failure CustomFieldDefinition :=
  let trimmed := jsTrim label
  let options := d.config.options
  if trimmed = "" then .error (.badRequest "label is required")
  else if d.status = .archived then .error (.badRequest "Archived fields are read-only")
  else if d.fieldType ≠ .singleSelect ∧ d.fieldType ≠ .multiSelect then
    .error (.badRequest "Only select fields have options")
  else if ∃ o ∈ options, Unicode.toLowerCase o.label = Unicode.toLowerCase trimmed then
    .error (.badRequest "Duplicate option label")
  else .ok { d with config := { d.config with
    options := options ++ [⟨fresh, trimmed, true, JsNumber.ofNat options.length⟩] } }

def setOptionActive (optionId : String) (active : Bool) (d : CustomFieldDefinition) :
    Except Failure CustomFieldDefinition :=
  if d.status = .archived then .error (.badRequest "Archived fields are read-only")
  else if optionId ∉ d.config.options.map FieldOption.id then
    .error (.notFound "Option not found")
  else .ok { d with config := { d.config with
    options := activate optionId active d.config.options } }

/-- A change of a definition. -/
inductive Change where
  | updateDefinition (fresh : ℕ → String) (today : String) (body : DefinitionUpdate)
  | addOption (fresh label : String)
  | setOptionActive (optionId : String) (active : Bool)

def Change.apply : Change → CustomFieldDefinition → Except Failure CustomFieldDefinition
  | .updateDefinition fresh today body => DefaultValues.updateDefinition fresh today body
  | .addOption fresh label => DefaultValues.addOption fresh label
  | .setOptionActive optionId active => DefaultValues.setOptionActive optionId active

/-- The definitions there can be: created from a request and changed in any way after that. -/
inductive Reachable : CustomFieldDefinition → Prop
  | created {fresh : ℕ → String} {today : String} {raw : RawConfig ℚ} {d : CustomFieldDefinition} :
      validateConfigShape fresh today d.fieldType raw = .ok d.config → Reachable d
  | changed {d d' : CustomFieldDefinition} (change : Change) :
      Reachable d → change.apply d = .ok d' → Reachable d'
  | moved {d : CustomFieldDefinition} (status : FieldStatus) :
      Reachable d → Reachable { d with status := status }

/-! ## `normalizeValues` -/

/-- The message of a `BadRequestException` that names a field. -/
def messageOf : Failure → String
  | .invalidField message _ => if message = "" then "Invalid value" else message
  | _ => "Invalid value"

/-- A definition with its value, which is null where it is cleared. -/
abbrev Entry := CustomFieldDefinition × Option Json

/-- One entry of the values sent. -/
def normalizeEntry (today : String) (definitions : List CustomFieldDefinition)
    (sent : Uuid × Option Json) : Except (Uuid × String) Entry :=
  match definitions.find? fun d ↦ d.id = sent.1 with
  | none => .error (sent.1, "Unknown custom field")
  | some d =>
      if d.status = .archived then .error (sent.1, "Cannot set a value for an archived field")
      else
        match sent.2.filter fun v ↦ !v.isEmptyValue with
        | none => .ok (d, none)
        | some raw =>
            match validateAndNormalizeValue today (toString sent.1) d.fieldType d.config raw with
            | .ok v => .ok (d, some v)
            | .error e => .error (sent.1, messageOf e)

/-- The values a test case is written with, and what is wrong with those sent. -/
def normalizeValues (today : String) (definitions : List CustomFieldDefinition)
    (values : List (Uuid × Option Json)) (existing : Uuid → Option Json) :
    List Entry × List (Uuid × String) :=
  let checked := values.map (normalizeEntry today definitions)
  let missing := definitions.filter fun d ↦ d.id ∉ values.map Prod.fst
  let normalized := checked.filterMap Except.toOption ++ missingDefaults missing existing
  let required := definitions.filter fun d ↦ d.status = .active && d.required
  (normalized, checked.filterMap errorOf ++ (required.filter fun d ↦
    isEmptyValue (effectiveValue normalized existing d.id)).map fun d ↦
      (d.id, d.name ++ " is required"))
where
  errorOf : Except (Uuid × String) Entry → Option (Uuid × String)
    | .ok _ => none
    | .error e => some e

/-! ## Values that keep -/

/-- The value is accepted by the check of its own definition, which leaves it as it is. -/
def Keeps (today : String) (d : CustomFieldDefinition) (v : Json) : Prop :=
  validateAndNormalizeValue today (toString d.id) d.fieldType d.config v = .ok v

/-- The id of an option that is active now. -/
def Active (d : CustomFieldDefinition) (id : String) : Prop :=
  id ∈ activeIds d.config.options

/-- Distinct active options, as many as may be selected. -/
structure Selection (d : CustomFieldDefinition) (v : Json) (ids : List String) : Prop where
  texts : v = .list (ids.map Scalar.text)
  nodup : ids.Nodup
  active : ∀ id ∈ ids, Active d id
  enough : ∀ m ∈ d.config.minSelected, ltNumber (JsNumber.ofNat ids.length) m = false
  notTooMany : ∀ m ∈ d.config.maxSelected, ltNumber m (JsNumber.ofNat ids.length) = false

/-- What a default is like for its definition, on a day: a text without space around it, active
options, a day of those allowed. -/
def Fits (today : String) (d : CustomFieldDefinition) (v : Json) : Prop :=
  match d.fieldType with
  | .text | .longText => ∀ s ∈ v.text?, jsTrim s = s
  | .boolean | .number => True
  | .singleSelect => ∃ id ∈ v.text?, Active d id
  | .multiSelect => ∃ ids, Selection d v ids
  | .date => ∀ date ∈ v.text?,
      (d.config.allowPastDates = some false → ¬ date < today) ∧
        (d.config.allowFutureDates = some false → ¬ today < date)

/-- The default a definition has. -/
inductive HasDefault (d : CustomFieldDefinition) : Json → Prop
  | value {v : Json} : d.config.defaultValue = .value v → HasDefault d v
  | option {id : String} : d.config.defaultValue = .undefined → d.fieldType = .singleSelect →
      d.config.defaultOptionId = .value (.text id) → id ≠ "" → HasDefault d (.text id)
  | otherOption {written : String} : d.config.defaultValue = .undefined →
      d.fieldType = .singleSelect → d.config.defaultOptionId = .value (.other written) →
      written ∉ ["0", "false"] → HasDefault d .other
  | options {v : Json} : d.config.defaultValue = .undefined → d.fieldType = .multiSelect →
      d.config.defaultOptionIds = .value v → v.isEmptyValue = false → HasDefault d v

/-- What an accepted configuration says of its default. -/
def Sound (fieldType : FieldType) (config : FieldConfig ℚ) : Prop :=
  ∀ v ∈ config.defaultValue.nullish,
    match fieldType with
    | .text | .longText => ∃ s, v = .text s ∧
        ∀ m ∈ config.maxLength, ltNumber m (JsNumber.ofNat (jsLength s)) = false
    | .boolean => v.isBoolean = true
    | .number => ∃ x, v = .number x ∧
        ∀ field subject, checkNumber field subject config.min config.max
          (config.decimalsAllowed.getD true) x = .ok ()
    | .date => ∃ s, v = .text s ∧ isDateText s = true
    | .singleSelect | .multiSelect => True

/-! ## Accepted configurations -/

omit [JsNumber ℚ] [Unicode] in
theorem refuseIf_seq {β : Type} {p : Prop} [Decidable p] {field message : String}
    {x : Except Failure β} {b : β} :
    (do refuseIf p field message; x) = .ok b ↔ ¬ p ∧ x = .ok b := by
  unfold refuseIf
  by_cases hp : p
  · rw [if_pos hp]
    exact ⟨fun h ↦ (by cases h), fun h ↦ absurd hp h.1⟩
  · rw [if_neg hp]
    exact ⟨fun h ↦ ⟨hp, h⟩, fun h ↦ h.2⟩

omit [JsNumber ℚ] [Unicode] in
theorem wanted_seq {α β : Type} {value : Option α} {field message : String}
    {f : α → Except Failure β} {b : β} :
    (do let a ← wanted value field message; f a) = .ok b ↔ ∃ a, value = some a ∧ f a = .ok b := by
  cases value with
  | none => exact ⟨fun h ↦ (by cases h), fun ⟨a, h, _⟩ ↦ (by cases h)⟩
  | some a => exact ⟨fun h ↦ ⟨a, rfl, h⟩, fun ⟨_, h, hf⟩ ↦ (by cases h; exact hf)⟩

omit [Unicode] in
/-- The three checks of a number do not depend on how it is called. -/
theorem checkNumber_ok {field subject : String} {min max : Option ℚ} {decimalsAllowed : Bool}
    {x : ℚ} : checkNumber field subject min max decimalsAllowed x = .ok () ↔
      (¬ ∃ m ∈ min, ltNumber x m) ∧ (¬ ∃ m ∈ max, ltNumber m x) ∧
        ¬ (decimalsAllowed = false ∧ JsNumber.isInteger x = false) := by
  unfold checkNumber
  rw [refuseIf_seq, refuseIf_seq]
  unfold refuseIf
  split <;> simp_all

omit [Unicode] in
theorem sound_of_text {ceiling : ℕ} {raw : RawConfig ℚ} {config : FieldConfig ℚ}
    (h : textConfig ceiling raw = .ok config) {v : Json} (hv : v ∈ config.defaultValue.nullish) :
    ∃ s, v = .text s ∧
      ∀ m ∈ config.maxLength, ltNumber m (JsNumber.ofNat (jsLength s)) = false := by
  obtain ⟨maxLength, -, h⟩ := except_bind_eq_ok.mp h
  rw [refuseIf_seq, refuseIf_seq] at h
  obtain ⟨htext, hlength, h⟩ := h
  cases h
  have hraw : raw.defaultValue.nullish = some v := hv
  cases v with
  | text s =>
      refine ⟨s, rfl, fun m hm ↦ ?_⟩
      rw [Bool.eq_false_iff]
      intro hlt
      exact hlength ⟨m, hm, s, Option.mem_def.mpr (by rw [hraw]; rfl), hlt⟩
  | number x => exact absurd ⟨_, hv, rfl⟩ htext
  | boolean b => exact absurd ⟨_, hv, rfl⟩ htext
  | list items => exact absurd ⟨_, hv, rfl⟩ htext
  | other => exact absurd ⟨_, hv, rfl⟩ htext

omit [Unicode] in
theorem sound_of_number {raw : RawConfig ℚ} {config : FieldConfig ℚ}
    (h : numberConfig raw = .ok config) {v : Json} (hv : v ∈ config.defaultValue.nullish) :
    ∃ x, v = .number x ∧ ∀ field subject, checkNumber field subject config.min config.max
      (config.decimalsAllowed.getD true) x = .ok () := by
  obtain ⟨min, -, h⟩ := except_bind_eq_ok.mp h
  obtain ⟨max, -, h⟩ := except_bind_eq_ok.mp h
  rw [refuseIf_seq] at h
  obtain ⟨-, h⟩ := h
  dsimp only at h
  rw [refuseIf_seq] at h
  obtain ⟨-, h⟩ := h
  obtain ⟨defaultValue, hdefault, h⟩ := except_bind_eq_ok.mp h
  obtain ⟨_, hchecked, h⟩ := except_bind_eq_ok.mp h
  cases h
  have hraw : raw.defaultValue.nullish = some v := hv
  unfold numberField at hdefault
  rw [hraw] at hdefault
  dsimp only at hdefault
  cases v with
  | number x =>
      cases hdefault
      exact ⟨x, rfl, fun field subject ↦ checkNumber_ok.mpr (checkNumber_ok.mp hchecked)⟩
  | text s => cases hdefault
  | boolean b => cases hdefault
  | list items => cases hdefault
  | other => cases hdefault

omit [JsNumber ℚ] [Unicode] in
theorem sound_of_date {today : String} {raw : RawConfig ℚ} {config : FieldConfig ℚ}
    (h : dateConfig today raw = .ok config) {v : Json} (hv : v ∈ config.defaultValue.nullish) :
    ∃ s, v = .text s ∧ isDateText s = true := by
  unfold dateConfig at h
  dsimp only at h
  split at h
  · rename_i hnone
    cases h
    have hsome : raw.defaultValue.nullish = some v := hv
    rw [hnone] at hsome
    cases hsome
  · rename_i value hvalue
    obtain ⟨date, hdate, h⟩ := except_bind_eq_ok.mp h
    obtain ⟨_, -, h⟩ := except_bind_eq_ok.mp h
    cases h
    obtain rfl : value = v := Option.some.inj (hvalue.symm.trans hv)
    have hsome := FieldRoundTrip.wanted_eq_ok hdate
    obtain ⟨htext, hok⟩ := Option.filter_eq_some_iff.mp hsome
    cases value with
    | text s => exact ⟨s, rfl, by cases htext; exact hok⟩
    | number x => cases htext
    | boolean b => cases htext
    | list items => cases htext
    | other => cases htext

theorem sound_of_accepted {fresh : ℕ → String} {today : String} {fieldType : FieldType}
    {raw : RawConfig ℚ} {config : FieldConfig ℚ}
    (h : validateConfigShape fresh today fieldType raw = .ok config) : Sound fieldType config := by
  intro v hv
  cases fieldType with
  | text => exact sound_of_text h hv
  | longText => exact sound_of_text h hv
  | boolean =>
      unfold validateConfigShape booleanConfig at h
      dsimp only at h
      rw [refuseIf_seq, refuseIf_seq] at h
      obtain ⟨-, hboolean, h⟩ := h
      cases h
      dsimp only
      by_contra hne
      exact hboolean ⟨v, hv, Bool.eq_false_iff.mpr hne⟩
  | singleSelect => trivial
  | multiSelect => trivial
  | number => exact sound_of_number h hv
  | date => exact sound_of_date h hv

omit [Unicode] in
/-- Options say nothing of a default. -/
theorem Sound.withOptions {fieldType : FieldType} {config : FieldConfig ℚ}
    (h : Sound fieldType config) (options : List (FieldOption ℚ)) :
    Sound fieldType { config with options := options } := by
  intro v hv
  have hsound := h v hv
  cases fieldType <;> exact hsound

theorem Change.sound {change : Change} {d d' : CustomFieldDefinition}
    (hsound : Sound d.fieldType d.config) (h : change.apply d = .ok d') :
    Sound d'.fieldType d'.config := by
  cases change with
  | updateDefinition fresh today body =>
      change DefaultValues.updateDefinition _ _ _ _ = .ok d' at h
      unfold DefaultValues.updateDefinition at h
      dsimp only at h
      split at h
      · cases h
      split at h
      · cases h
      obtain ⟨name, -, h⟩ := except_bind_eq_ok.mp h
      obtain ⟨config, hconfig, h⟩ := except_bind_eq_ok.mp h
      cases h
      exact sound_of_accepted hconfig
  | addOption fresh label =>
      change DefaultValues.addOption _ _ _ = .ok d' at h
      unfold DefaultValues.addOption at h
      dsimp only at h
      split at h
      · cases h
      split at h
      · cases h
      split at h
      · cases h
      split at h
      · cases h
      cases h
      exact hsound.withOptions _
  | setOptionActive optionId active =>
      change DefaultValues.setOptionActive _ _ _ = .ok d' at h
      unfold DefaultValues.setOptionActive at h
      dsimp only at h
      split at h
      · cases h
      split at h
      · cases h
      cases h
      exact hsound.withOptions _

theorem Reachable.sound {d : CustomFieldDefinition} (h : Reachable d) :
    Sound d.fieldType d.config := by
  induction h with
  | created h => exact sound_of_accepted h
  | changed change _ h ih => exact change.sound ih h
  | moved status _ ih => exact ih

/-! ## Values by kind -/

omit [JsNumber ℚ] [Unicode] in
@[simp] theorem text?_eq_some {v : Json} {s : String} : v.text? = some s ↔ v = .text s := by
  cases v <;> simp [FieldValue.text?]

omit [JsNumber ℚ] [Unicode] in
@[simp] theorem number?_eq_some {v : Json} {x : ℚ} : v.number? = some x ↔ v = .number x := by
  cases v <;> simp [FieldValue.number?]

omit [JsNumber ℚ] [Unicode] in
@[simp] theorem list?_eq_some {v : Json} {items : List Scalar} :
    v.list? = some items ↔ v = .list items := by
  cases v <;> simp [FieldValue.list?]

omit [JsNumber ℚ] [Unicode] in
theorem textsOf_eq_some {items : List Scalar} {ids : List String} :
    textsOf items = some ids ↔ items = ids.map Scalar.text := by
  refine ⟨fun h ↦ ?_, fun h ↦ h ▸ FieldRoundTrip.textsOf_map ids⟩
  unfold textsOf at h
  induction items generalizing ids with
  | nil => cases h; rfl
  | cons item items ih =>
      rw [List.mapM_cons] at h
      obtain ⟨id, hid, h⟩ := Option.bind_eq_some_iff.mp h
      obtain ⟨rest, hrest, h⟩ := Option.bind_eq_some_iff.mp h
      cases h
      cases item with
      | text s => cases hid; rw [ih hrest]; rfl
      | other written => cases hid

omit [JsNumber ℚ] [Unicode] in
theorem nodup_eraseDups (ids : List String) : ids.eraseDups.Nodup := by
  induction hn : ids.length using Nat.strong_induction_on generalizing ids with
  | h n ih =>
      cases ids with
      | nil => exact List.nodup_nil
      | cons id ids =>
          rw [List.eraseDups_cons]
          refine List.nodup_cons.mpr ⟨fun hmem ↦ ?_, ?_⟩
          · rw [List.mem_eraseDups] at hmem
            simpa using (List.mem_filter.mp hmem).2
          · apply ih _ _ _ rfl
            rw [← hn]
            exact Nat.lt_succ_of_le (List.length_filter_le _ ids)

omit [JsNumber ℚ] [Unicode] in
theorem eraseDups_of_nodup {ids : List String} (h : ids.Nodup) : ids.eraseDups = ids := by
  induction ids with
  | nil => rfl
  | cons id ids ih =>
      obtain ⟨hid, hids⟩ := List.nodup_cons.mp h
      have hfilter : (ids.filter fun b ↦ !b == id) = ids := by
        apply List.filter_eq_self.mpr
        intro b hb
        simpa using fun heq : b = id ↦ hid (heq ▸ hb)
      rw [List.eraseDups_cons, hfilter, ih hids]

omit [JsNumber ℚ] [Unicode] in
theorem ok_eq_ok {a v : Json} : (.ok a : Except Failure Json) = .ok v ↔ v = a :=
  ⟨fun h ↦ (by cases h; rfl), fun h ↦ h ▸ rfl⟩

omit [JsNumber ℚ] [Unicode] in
theorem not_exists_eq_true {o : Option ℚ} {p : ℚ → Bool} :
    (¬ ∃ m ∈ o, p m = true) ↔ ∀ m ∈ o, p m = false := by
  simp only [not_exists, not_and, Bool.not_eq_true]

section Kinds

variable {today field : String} {d : CustomFieldDefinition} {config : FieldConfig ℚ} {raw v : Json}

omit [Unicode] in
theorem normalizeText_ok : normalizeText field config raw = .ok v ↔ ∃ s, raw = .text s ∧
    (∀ m ∈ config.maxLength, ltNumber m (JsNumber.ofNat (jsLength (jsTrim s))) = false) ∧
      v = .text (jsTrim s) := by
  unfold normalizeText
  rw [wanted_seq]
  refine exists_congr fun s ↦ ?_
  dsimp only
  rw [refuseIf_seq, text?_eq_some, not_exists_eq_true, ok_eq_ok]

omit [JsNumber ℚ] [Unicode] in
theorem normalizeSingleSelect_ok : normalizeSingleSelect field config raw = .ok v ↔
    ∃ id, raw = .text id ∧ id ∈ activeIds config.options ∧ v = .text id := by
  unfold normalizeSingleSelect
  rw [wanted_seq]
  constructor
  · rintro ⟨o, hfound, hv⟩
    cases hv
    have ho := List.find?_some hfound
    rw [Bool.and_eq_true, decide_eq_true_eq, text?_eq_some] at ho
    exact ⟨o.id, ho.1, List.mem_map_of_mem
      (List.mem_filter.mpr ⟨List.mem_of_find?_eq_some hfound, ho.2⟩), rfl⟩
  · rintro ⟨id, rfl, hactive, rfl⟩
    obtain ⟨o, ho, rfl⟩ := List.mem_map.mp hactive
    obtain ⟨hmem, hon⟩ := List.mem_filter.mp ho
    obtain ⟨found, hfound⟩ : ∃ found, (config.options.find? fun o' ↦
        (FieldValue.text o.id : Json).text? = some o'.id && o'.active) = some found := by
      apply Option.isSome_iff_exists.mp
      rw [List.find?_isSome]
      exact ⟨o, hmem, by rw [hon, Bool.and_true]; exact decide_eq_true rfl⟩
    refine ⟨found, hfound, ?_⟩
    have hfirst := List.find?_some hfound
    rw [Bool.and_eq_true, decide_eq_true_eq] at hfirst
    rw [← Option.some.inj hfirst.1]

omit [Unicode] in
theorem normalizeMultiSelect_ok : normalizeMultiSelect field config raw = .ok v ↔
    ∃ ids : List String, raw = .list (ids.map Scalar.text) ∧
      (∀ id ∈ ids, id ∈ activeIds config.options) ∧
      (∀ m ∈ config.minSelected, ltNumber (JsNumber.ofNat ids.eraseDups.length) m = false) ∧
      (∀ m ∈ config.maxSelected, ltNumber m (JsNumber.ofNat ids.eraseDups.length) = false) ∧
      v = .list (ids.eraseDups.map Scalar.text) := by
  unfold normalizeMultiSelect
  rw [wanted_seq]
  refine exists_congr fun ids ↦ ?_
  dsimp only
  rw [refuseIf_seq, refuseIf_seq, refuseIf_seq]
  have hlist : raw.list?.bind textsOf = some ids ↔ raw = .list (ids.map Scalar.text) := by
    simp [Option.bind_eq_some_iff, textsOf_eq_some]
  rw [hlist, not_exists_eq_true, not_exists_eq_true, ok_eq_ok]
  simp only [List.mem_eraseDups, not_exists, not_and, not_not]

omit [Unicode] in
theorem normalizeNumber_ok : normalizeNumber field config raw = .ok v ↔ ∃ x, raw = .number x ∧
    checkNumber field "Value" config.min config.max (config.decimalsAllowed.getD true) x = .ok () ∧
      v = .number x := by
  unfold normalizeNumber
  rw [wanted_seq]
  refine exists_congr fun x ↦ ?_
  rw [except_bind_eq_ok, number?_eq_some]
  refine and_congr_right fun _ ↦ ?_
  exact ⟨fun ⟨_, hchecked, hv⟩ ↦ ⟨hchecked, ok_eq_ok.mp hv⟩,
    fun ⟨hchecked, hv⟩ ↦ ⟨_, hchecked, ok_eq_ok.mpr hv⟩⟩

omit [JsNumber ℚ] [Unicode] in
theorem normalizeDate_ok : normalizeDate today field config raw = .ok v ↔ ∃ date,
    raw = .text date ∧ isDateText date = true ∧
      (¬ (config.allowPastDates = some false ∧ date < today) ∧
        ¬ (config.allowFutureDates = some false ∧ today < date)) ∧ v = .text date := by
  unfold normalizeDate
  rw [wanted_seq]
  refine exists_congr fun date ↦ ?_
  have hrange : checkDateRange field date today config = .ok () ↔
      ¬ (config.allowPastDates = some false ∧ date < today) ∧
        ¬ (config.allowFutureDates = some false ∧ today < date) := by
    unfold checkDateRange
    rw [refuseIf_seq]
    unfold refuseIf
    split <;> simp_all
  rw [Option.filter_eq_some_iff, text?_eq_some, except_bind_eq_ok, and_assoc, ← hrange]
  refine and_congr_right fun _ ↦ and_congr_right fun _ ↦ ?_
  exact ⟨fun ⟨_, hchecked, hv⟩ ↦ ⟨hchecked, ok_eq_ok.mp hv⟩,
    fun ⟨hchecked, hv⟩ ↦ ⟨_, hchecked, ok_eq_ok.mpr hv⟩⟩

end Kinds

omit [Unicode] in
/-- What the check gives back, it takes as it is. -/
theorem validated_again {today field : String} {fieldType : FieldType} {config : FieldConfig ℚ}
    {raw v : Json} (h : validateAndNormalizeValue today field fieldType config raw = .ok v) :
    validateAndNormalizeValue today field fieldType config v = .ok v := by
  have htext (h : normalizeText field config raw = .ok v) :
      normalizeText field config v = .ok v := by
    obtain ⟨s, -, hlength, rfl⟩ := normalizeText_ok.mp h
    have htrim : jsTrim (jsTrim s) = jsTrim s := jsTrim_eq (trimmed_jsTrim s)
    exact normalizeText_ok.mpr ⟨jsTrim s, rfl, by rwa [htrim], by rw [htrim]⟩
  cases fieldType with
  | text => exact htext h
  | longText => exact htext h
  | boolean =>
      unfold validateAndNormalizeValue normalizeBoolean at h ⊢
      dsimp only at h ⊢
      rw [refuseIf_seq] at h
      obtain ⟨hboolean, hv⟩ := h
      cases hv
      exact refuseIf_seq.mpr ⟨hboolean, rfl⟩
  | singleSelect =>
      obtain ⟨id, -, hactive, rfl⟩ := normalizeSingleSelect_ok.mp h
      exact normalizeSingleSelect_ok.mpr ⟨id, rfl, hactive, rfl⟩
  | multiSelect =>
      obtain ⟨ids, -, hactive, henough, hmost, rfl⟩ := normalizeMultiSelect_ok.mp h
      have hsame := eraseDups_of_nodup (nodup_eraseDups ids)
      refine normalizeMultiSelect_ok.mpr ⟨ids.eraseDups, rfl, fun id hid ↦ ?_, ?_, ?_, ?_⟩
      · exact hactive id (List.mem_eraseDups.mp hid)
      · rwa [hsame]
      · rwa [hsame]
      · rw [hsame]
  | number =>
      obtain ⟨x, -, hchecked, rfl⟩ := normalizeNumber_ok.mp h
      exact normalizeNumber_ok.mpr ⟨x, rfl, hchecked, rfl⟩
  | date =>
      obtain ⟨date, -, hdate, hrange, rfl⟩ := normalizeDate_ok.mp h
      exact normalizeDate_ok.mpr ⟨date, rfl, hdate, hrange, rfl⟩

/-! ## Defaults -/

omit [JsNumber ℚ] [Unicode] in
theorem applyDefaultIfMissing_iff {d : CustomFieldDefinition} {v : Json} :
    applyDefaultIfMissing d.config d.fieldType = .value v ↔ HasDefault d v := by
  unfold applyDefaultIfMissing
  constructor
  · intro h
    split at h
    · exact .value h
    rename_i hsent
    have hdefault : d.config.defaultValue = .undefined := by
      cases hvalue : d.config.defaultValue with
      | undefined => rfl
      | null => rw [hvalue] at hsent; exact absurd rfl hsent
      | value w => rw [hvalue] at hsent; exact absurd rfl hsent
    split at h
    · rename_i htype
      cases hid : d.config.defaultOptionId with
      | undefined => rw [hid] at h; cases h
      | null => rw [hid] at h; cases h
      | value id =>
          rw [hid] at h
          cases id with
          | text id =>
              by_cases hempty : id = ""
              · exact absurd h (by simp [Arg.nullish, hempty])
              · obtain rfl : .text id = v := by simpa [Arg.nullish, hempty] using h
                exact .option hdefault htype hid hempty
          | other written =>
              by_cases hfalsy : written ∈ ["0", "false"]
              · simp only [Arg.nullish, if_pos hfalsy] at h
                cases h
              · simp only [Arg.nullish, if_neg hfalsy] at h
                cases h
                exact .otherOption hdefault htype hid hfalsy
    · rename_i htype
      cases hids : d.config.defaultOptionIds with
      | undefined => rw [hids] at h; cases h
      | null => rw [hids] at h; cases h
      | value ids =>
          rw [hids] at h
          cases hempty : ids.isEmptyValue with
          | true => simp [Arg.nullish, hempty] at h
          | false =>
              obtain rfl : ids = v := by simpa [Arg.nullish, hempty] using h
              exact .options hdefault htype hids hempty
    all_goals cases h
  · intro h
    cases h with
    | value h => rw [if_pos (by rw [h]; rfl), h]
    | option hdefault htype hid hempty =>
        rw [if_neg (by rw [hdefault]; exact Bool.false_ne_true), htype, hid]
        simp [Arg.nullish, hempty]
    | otherOption hdefault htype hid hfalsy =>
        rw [if_neg (by rw [hdefault]; exact Bool.false_ne_true), htype, hid]
        simp only [Arg.nullish, if_neg hfalsy]
    | options hdefault htype hids hempty =>
        rw [if_neg (by rw [hdefault]; exact Bool.false_ne_true), htype, hids]
        simp [Arg.nullish, hempty]

omit [JsNumber ℚ] [Unicode] in
/-- Only a select field has a default elsewhere than in `defaultValue`. -/
theorem HasDefault.configured {d : CustomFieldDefinition} {v : Json} (h : HasDefault d v)
    (hsingle : d.fieldType ≠ .singleSelect) (hmulti : d.fieldType ≠ .multiSelect) :
    v ∈ d.config.defaultValue.nullish := by
  cases h with
  | value h => rw [h]; rfl
  | option _ htype => exact absurd htype hsingle
  | otherOption _ htype => exact absurd htype hsingle
  | options _ htype => exact absurd htype hmulti

/-- The check takes the default of a definition exactly where it fits. -/
theorem keeps_iff_fits {today : String} {d : CustomFieldDefinition} (hreach : Reachable d)
    {v : Json} (h : HasDefault d v) : Keeps today d v ↔ Fits today d v := by
  have hsound := hreach.sound
  have hconfigured := h.configured
  have htext (hs : ∃ s, v = .text s ∧
      ∀ m ∈ d.config.maxLength, ltNumber m (JsNumber.ofNat (jsLength s)) = false) :
      normalizeText (toString d.id) d.config v = .ok v ↔ ∀ s ∈ v.text?, jsTrim s = s := by
    obtain ⟨s, rfl, hlength⟩ := hs
    rw [normalizeText_ok]
    constructor
    · rintro ⟨s', hs', -, htrim⟩ t ht
      cases hs'
      cases ht
      exact (FieldValue.text.inj htrim).symm
    · intro htrim
      have hs := htrim s rfl
      exact ⟨s, rfl, by rwa [hs], by rw [hs]⟩
  unfold Keeps Fits
  cases htype : d.fieldType with
  | text =>
      rw [htype] at hsound hconfigured
      exact htext (hsound v (hconfigured (by decide) (by decide)))
  | longText =>
      rw [htype] at hsound hconfigured
      exact htext (hsound v (hconfigured (by decide) (by decide)))
  | boolean =>
      rw [htype] at hsound hconfigured
      have hboolean : v.isBoolean = true := hsound v (hconfigured (by decide) (by decide))
      refine iff_of_true (refuseIf_seq.mpr ⟨?_, rfl⟩) trivial
      rw [hboolean]
      decide
  | singleSelect =>
      dsimp only [validateAndNormalizeValue]
      rw [normalizeSingleSelect_ok]
      constructor
      · rintro ⟨id, rfl, hactive, -⟩
        exact ⟨id, rfl, hactive⟩
      · rintro ⟨id, hid, hactive⟩
        obtain rfl := text?_eq_some.mp hid
        exact ⟨id, rfl, hactive, rfl⟩
  | multiSelect =>
      dsimp only [validateAndNormalizeValue]
      rw [normalizeMultiSelect_ok]
      constructor
      · rintro ⟨ids, hids, hactive, henough, hmost, hsame⟩
        have hmap : Function.Injective Scalar.text := fun s t h ↦ Scalar.text.inj h
        have hlists : ids = ids.eraseDups :=
          List.map_injective_iff.mpr hmap (FieldValue.list.inj (hids.symm.trans hsame))
        have hnodup : ids.Nodup := by
          rw [hlists]
          exact nodup_eraseDups ids
        rw [← hlists] at henough hmost
        exact ⟨ids, hids, hnodup, hactive, henough, hmost⟩
      · rintro ⟨ids, hids, hnodup, hactive, henough, hmost⟩
        have hsame := eraseDups_of_nodup hnodup
        exact ⟨ids, hids, hactive, by rwa [hsame], by rwa [hsame], by rw [hsame]; exact hids⟩
  | number =>
      rw [htype] at hsound hconfigured
      obtain ⟨x, rfl, hchecked⟩ := hsound v (hconfigured (by decide) (by decide))
      exact iff_of_true (normalizeNumber_ok.mpr ⟨x, rfl, hchecked _ _, rfl⟩) trivial
  | date =>
      rw [htype] at hsound hconfigured
      obtain ⟨date, rfl, hdate⟩ := hsound v (hconfigured (by decide) (by decide))
      dsimp only [validateAndNormalizeValue]
      rw [normalizeDate_ok]
      constructor
      · rintro ⟨date', hdate', -, hrange, -⟩ t ht
        cases hdate'
        cases ht
        exact ⟨fun hpast hlt ↦ hrange.1 ⟨hpast, hlt⟩, fun hfuture hlt ↦ hrange.2 ⟨hfuture, hlt⟩⟩
      · intro hrange
        obtain ⟨hpast, hfuture⟩ := hrange date rfl
        exact ⟨date, rfl, hdate, ⟨fun h ↦ hpast h.1 h.2, fun h ↦ hfuture h.1 h.2⟩, rfl⟩

/-! ## What is written -/

omit [Unicode] in
theorem keeps_of_entry {today : String} {definitions : List CustomFieldDefinition}
    {sent : Uuid × Option Json} {e : Entry} (h : normalizeEntry today definitions sent = .ok e)
    {v : Json} (hv : v ∈ e.2) : Keeps today e.1 v := by
  unfold normalizeEntry at h
  split at h
  · cases h
  rename_i d hfound
  split at h
  · cases h
  split at h
  · cases h
    cases hv
  split at h
  · rename_i v' hvalidated
    cases h
    cases hv
    have hid := List.find?_some hfound
    rw [decide_eq_true_eq] at hid
    unfold Keeps
    rw [hid]
    exact validated_again hvalidated
  · cases h

omit [JsNumber ℚ] [Unicode] in
theorem mem_missingDefaults {definitions : List CustomFieldDefinition}
    {existing : Uuid → Option Json} {d : CustomFieldDefinition} {v : Json} :
    (d, some v) ∈ missingDefaults definitions existing ↔
      d ∈ definitions ∧ (d.status = .active ∧ existing d.id = none) ∧ HasDefault d v := by
  unfold missingDefaults
  rw [List.mem_filterMap, ← applyDefaultIfMissing_iff]
  constructor
  · rintro ⟨d', hd', h⟩
    obtain ⟨hmem, hactive⟩ := List.mem_filter.mp hd'
    rw [Bool.and_eq_true, decide_eq_true_eq, Option.isNone_iff_eq_none] at hactive
    split at h
    · cases h
    · cases h
    · rename_i w hdefault
      cases h
      exact ⟨hmem, hactive, hdefault⟩
  · rintro ⟨hmem, hactive, hdefault⟩
    refine ⟨d, List.mem_filter.mpr ⟨hmem, ?_⟩, by rw [hdefault]⟩
    rw [Bool.and_eq_true, decide_eq_true_eq, Option.isNone_iff_eq_none]
    exact hactive

/-- Every value written is one the check takes as it is. -/
def Kept (today : String) (definitions : List CustomFieldDefinition)
    (values : List (Uuid × Option Json)) (existing : Uuid → Option Json) : Prop :=
  ∀ e ∈ (normalizeValues today definitions values existing).1, ∀ v ∈ e.2, Keeps today e.1 v

/-- Values are kept exactly where the defaults that are filled in fit. -/
theorem keepsDefaults_iff (today : String) (definitions : List CustomFieldDefinition)
    (hreach : ∀ d ∈ definitions, Reachable d) (values : List (Uuid × Option Json))
    (existing : Uuid → Option Json) : Kept today definitions values existing ↔
      ∀ d ∈ definitions, d.status = .active → d.id ∉ values.map Prod.fst →
        existing d.id = none → ∀ v, HasDefault d v → Fits today d v := by
  constructor
  · intro h d hd hactive hsent hexisting v hdefault
    apply (keeps_iff_fits (hreach d hd) hdefault).mp
    refine h (d, some v) (List.mem_append_right _ ?_) v rfl
    apply mem_missingDefaults.mpr
    exact ⟨List.mem_filter.mpr ⟨hd, decide_eq_true hsent⟩, ⟨hactive, hexisting⟩, hdefault⟩
  · rintro h ⟨d, value⟩ he v hv
    rcases List.mem_append.mp he with he | he
    · obtain ⟨checked, hchecked, hok⟩ := List.mem_filterMap.mp he
      obtain ⟨sent, -, rfl⟩ := List.mem_map.mp hchecked
      cases hentry : normalizeEntry today definitions sent with
      | error e => rw [hentry] at hok; cases hok
      | ok e =>
          rw [hentry] at hok
          cases hok
          exact keeps_of_entry hentry hv
    · obtain rfl : value = some v := hv
      obtain ⟨hmem, ⟨hactive, hexisting⟩, hdefault⟩ := mem_missingDefaults.mp he
      obtain ⟨hd, hsent⟩ := List.mem_filter.mp hmem
      apply (keeps_iff_fits (hreach d hd) hdefault).mpr
      exact h d hd hactive (of_decide_eq_true hsent) hexisting v hdefault

end Changes

/-! ## A default that is no option any more -/

@[reducible] def rationals : JsNumber ℚ where
  ofNat n := n
  le x y := decide (x ≤ y)
  isInteger x := x.den = 1
  text x := toString x
  parse _ := none

/-- A choice of two, the first unless said otherwise. -/
def browserConfig : RawConfig ℚ :=
  { FieldRoundTrip.RawConfig.empty ℚ with
    options := [⟨.value "a", .value (.text "Chrome"), .undefined, none⟩,
      ⟨.value "b", .value (.text "Firefox"), .undefined, none⟩]
    defaultOptionId := .value (.text "a") }

/-- The field of that choice, its first option active or not. -/
def browser (active : Bool) : CustomFieldDefinition where
  id := 1
  projectId := 1
  key := "browser"
  name := "Browser"
  fieldType := .singleSelect
  status := .active
  required := false
  config := { FieldConfig.plain .undefined with
    options := [⟨"a", "Chrome", active, @JsNumber.ofNat ℚ rationals 0⟩,
      ⟨"b", "Firefox", true, @JsNumber.ofNat ℚ rationals 1⟩]
    defaultOptionId := .value (.text "a") }
  deletedAt := none

theorem reachable_browser : @Reachable rationals asciiCase (browser true) :=
  @Reachable.created rationals asciiCase (fun _ ↦ "") "" browserConfig _ rfl

theorem keepsDefaults_iff_browser :
    letI := rationals
    letI := asciiCase
    Kept "" [browser true] [] (fun _ ↦ none) ↔
      ∀ d ∈ [browser true], d.status = .active →
        d.id ∉ ([] : List (Uuid × Option Json)).map Prod.fst →
          (none : Option Json) = none → ∀ v, HasDefault d v → Fits "" d v :=
  @keepsDefaults_iff rationals asciiCase "" [browser true]
    (fun _ hd ↦ List.mem_singleton.mp hd ▸ reachable_browser) [] fun _ ↦ none

/-- The default of a field outlives the option it names. -/
theorem not_kept_deactivated :
    letI := rationals
    letI := asciiCase
    Change.apply (.setOptionActive "a" false) (browser true) = .ok (browser false) ∧
      Reachable (browser false) ∧
      normalizeValues "" [browser false] [] (fun _ ↦ none) =
        ([(browser false, some (.text "a"))], []) ∧
      validateAndNormalizeValue "" "1" .singleSelect (browser false).config (.text "a") =
        .error (.invalidField "Value must be a currently active option" "1") ∧
      ¬ Kept "" [browser false] [] fun _ ↦ none := by
  let _ := rationals
  let _ := asciiCase
  have hchange : Change.apply (.setOptionActive "a" false) (browser true) = .ok (browser false) :=
    rfl
  refine ⟨hchange, .changed (.setOptionActive "a" false) reachable_browser hchange, rfl, rfl,
    fun h ↦ ?_⟩
  have hkeeps := h (browser false, some (.text "a")) List.mem_cons_self (.text "a") rfl
  cases hkeeps

end Tesbo.DefaultValues
