import Tesbo.Text
import Tesbo.Reasoning.Pieces

/-!
# Custom fields

The kinds of custom field a project can define, what their configuration may say, which values they
take, and the form a value has in an exported file: written on the server, read in the browser.
-/

namespace Tesbo

open Reasoning

/-- The finite numbers of JavaScript: `String`, `Number` of a text, `<=` and `Number.isInteger`. -/
class JsNumber (ν : Type) where
  ofNat : ℕ → ν
  le : ν → ν → Bool
  isInteger : ν → Bool
  text : ν → String
  parse : String → Option ν

/-- What the two conversions promise of each other: a number is read back from its text, which has
no white space, and a text with white space between other characters is no number. -/
class LawfulJsNumber (ν : Type) [JsNumber ν] : Prop where
  parse_text : ∀ x : ν, JsNumber.parse (JsNumber.text x) = some x
  text_ne_empty : ∀ x : ν, (JsNumber.text x).toList ≠ []
  text_solid : ∀ x : ν, ∀ c ∈ (JsNumber.text x).toList, jsSpace c = false
  parse_spaced : ∀ (s : String) (before after : List Char) (c : Char),
    s.toList = before ++ c :: after → jsSpace c = true → (∃ b ∈ before, jsSpace b = false) →
      (∃ a ∈ after, jsSpace a = false) → JsNumber.parse s = (none : Option ν)

/-- `new Date(text).toISOString().slice(0, 10)`, where the text is a date. -/
class JsDate where
  isoDay : String → Option String

/-- `toLowerCase` of JavaScript on ASCII text, and on a comma or semicolon anywhere. -/
class LawfulLowerCase [Unicode] : Prop where
  ascii : ∀ s : String, (∀ c ∈ s.toList, c.toNat < 128) →
    Unicode.toLowerCase s = String.ofList (s.toList.map Char.toLower)
  separator : ∀ (s : String) (c : Char), c = ',' ∨ c = ';' →
    (c ∈ (Unicode.toLowerCase s).toList ↔ c ∈ s.toList)

inductive FieldType where
  | text | longText | boolean | singleSelect | multiSelect | number | date
deriving DecidableEq, Repr

/-- A text, number or boolean of a JSON document, the last two by what `String` writes. -/
inductive Scalar where
  | text (s : String)
  | other (written : String)
deriving DecidableEq

/-- `String(x)` -/
def Scalar.string : Scalar → String
  | text s | other s => s

/-- A JSON value that is not `null`, as far as a custom field can tell them apart. -/
inductive FieldValue (ν : Type) where
  | text (s : String)
  | number (x : ν)
  | boolean (b : Bool)
  | list (items : List Scalar)
  | other
deriving DecidableEq

structure FieldOption (ν : Type) where
  id : String
  label : String
  active : Bool
  order : ν
deriving DecidableEq

/-- A configuration as stored.  What belongs to fields of another type is left out. -/
structure FieldConfig (ν : Type) where
  maxLength : Option ν
  displayFormat : Option String
  options : List (FieldOption ν)
  defaultOptionId : Arg Scalar
  defaultOptionIds : Arg (FieldValue ν)
  minSelected : Option ν
  maxSelected : Option ν
  min : Option ν
  max : Option ν
  decimalsAllowed : Option Bool
  unit : Arg String
  allowPastDates : Option Bool
  allowFutureDates : Option Bool
  defaultValue : Arg (FieldValue ν)

/-- A configuration with a default value only. -/
def FieldConfig.plain {ν : Type} (defaultValue : Arg (FieldValue ν)) : FieldConfig ν where
  maxLength := none
  displayFormat := none
  options := []
  defaultOptionId := .undefined
  defaultOptionIds := .undefined
  minSelected := none
  maxSelected := none
  min := none
  max := none
  decimalsAllowed := none
  unit := .undefined
  allowPastDates := none
  allowFutureDates := none
  defaultValue := defaultValue

/-- An option of a request; `order` is absent when it is no number. -/
structure RawOption (ν : Type) where
  id : Arg String
  label : Arg Scalar
  active : Arg Bool
  order : Option ν

/-- The configuration of a request; `options` is empty when it is no list. -/
structure RawConfig (ν : Type) where
  maxLength : Arg (FieldValue ν)
  displayFormat : Arg String
  options : List (RawOption ν)
  defaultOptionId : Arg Scalar
  defaultOptionIds : Arg (FieldValue ν)
  minSelected : Arg (FieldValue ν)
  maxSelected : Arg (FieldValue ν)
  min : Arg (FieldValue ν)
  max : Arg (FieldValue ν)
  decimalsAllowed : Arg Bool
  unit : Arg String
  allowPastDates : Arg Bool
  allowFutureDates : Arg Bool
  defaultValue : Arg (FieldValue ν)

structure FieldDefinition (ν : Type) where
  name : String
  fieldType : FieldType
  config : FieldConfig ν

namespace FieldValue

variable {ν : Type}

/-- `isEmptyValue`, of a value that is not nullish. -/
def isEmptyValue : FieldValue ν → Bool
  | text s => s = ""
  | list items => items.isEmpty
  | number _ | boolean _ | other => false

def text? : FieldValue ν → Option String
  | text s => some s
  | number _ | boolean _ | list _ | other => none

def number? : FieldValue ν → Option ν
  | number x => some x
  | text _ | boolean _ | list _ | other => none

def isBoolean : FieldValue ν → Bool
  | boolean _ => true
  | text _ | number _ | list _ | other => false

def list? : FieldValue ν → Option (List Scalar)
  | list items => some items
  | text _ | number _ | boolean _ | other => none

end FieldValue

/-! ## Configurations -/

/-- `throw new BadRequestException({ field, message })` where `p` holds. -/
def refuseIf (p : Prop) [Decidable p] (field message : String) : Except Failure Unit :=
  if p then .error (.invalidField message field) else .ok ()

/-- `/^\d{4}-\d{2}-\d{2}$/` -/
def isDateText (s : String) : Bool :=
  match s.toList with
  | [y₁, y₂, y₃, y₄, '-', m₁, m₂, '-', d₁, d₂] =>
      [y₁, y₂, y₃, y₄, m₁, m₂, d₁, d₂].all Char.isDigit
  | _ => false

section Config

variable {ν : Type} [JsNumber ν] [Unicode]

open JsNumber

def checkDateRange (field date today : String) (config : FieldConfig ν) : Except Failure Unit := do
  refuseIf (config.allowPastDates = some false ∧ date < today) field
    "Past dates are not allowed for this field"
  refuseIf (config.allowFutureDates = some false ∧ today < date) field
    "Future dates are not allowed for this field"

/-- `x < y` -/
def ltNumber (x y : ν) : Bool := !le y x

/-- A field that is nullish or a number of the kind `ok`. -/
def numberField (raw : Arg (FieldValue ν)) (ok : ν → Bool) (field message : String) :
    Except Failure (Option ν) :=
  match raw.nullish with
  | none => .ok none
  | some value =>
      match value.number?.filter ok with
      | none => .error (.invalidField message field)
      | some x => .ok (some x)

/-- A number in a message, where there is one. -/
def written (x : Option ν) : String := (x.map text).getD ""

def textConfig (ceiling : ℕ) (raw : RawConfig ν) : Except Failure (FieldConfig ν) := do
  let maxLength ← numberField raw.maxLength
    (fun m ↦ isInteger m && ltNumber (ofNat 0) m && le m (ofNat ceiling)) "maxLength"
    s!"maxLength must be a positive integer up to {ceiling}"
  refuseIf (∃ v ∈ raw.defaultValue.nullish, v.text?.isNone) "defaultValue"
    "Default value must be text"
  refuseIf (∃ m ∈ maxLength, ∃ s ∈ raw.defaultValue.nullish.bind FieldValue.text?,
    ltNumber m (ofNat (jsLength s))) "defaultValue"
    s!"Default value exceeds maxLength ({written maxLength})"
  .ok { FieldConfig.plain raw.defaultValue with maxLength }

def booleanConfig (raw : RawConfig ν) : Except Failure (FieldConfig ν) := do
  let displayFormat := raw.displayFormat.truthy
  refuseIf (∃ f ∈ displayFormat, f ≠ "yes_no" ∧ f ≠ "true_false") "displayFormat"
    "displayFormat must be 'yes_no' or 'true_false'"
  refuseIf (∃ v ∈ raw.defaultValue.nullish, v.isBoolean = false) "defaultValue"
    "Default value must be true or false"
  .ok { FieldConfig.plain raw.defaultValue with
    displayFormat := some (displayFormat.getD "yes_no") }

/-- The loop over `options`; `fresh` is what `randomUUID` gives the option at a place. -/
def readOptions (fresh : ℕ → String) (index : ℕ) (seenLabels : List String) :
    List (RawOption ν) → Except Failure (List (FieldOption ν))
  | [] => .ok []
  | opt :: rest => do
      let label := jsTrim ((opt.label.nullish.map Scalar.string).getD "")
      refuseIf (label = "") "options" "Every option needs a label"
      let key := Unicode.toLowerCase label
      refuseIf (key ∈ seenLabels) "options" s!"Duplicate option label: {label}"
      let options ← readOptions fresh (index + 1) (key :: seenLabels) rest
      .ok ({ id := opt.id.truthy.getD (fresh index), label := label,
             active := opt.active.nullish ≠ some false,
             order := (opt.order.filter isInteger).getD (ofNat index) } :: options)

def activeIds (options : List (FieldOption ν)) : List String :=
  (options.filter FieldOption.active).map FieldOption.id

def singleSelectConfig (fresh : ℕ → String) (raw : RawConfig ν) :
    Except Failure (FieldConfig ν) := do
  refuseIf (raw.options = []) "options" "At least one option is required"
  let options ← readOptions fresh 0 [] raw.options
  refuseIf (∃ id ∈ raw.defaultOptionId.nullish, id.string ∉ activeIds options) "defaultOptionId"
    "Default option must reference an active option"
  .ok { FieldConfig.plain raw.defaultValue with
    options := options, defaultOptionId := raw.defaultOptionId }

/-- Whether the default selections are no list of active options. -/
def badDefaults (options : List (FieldOption ν)) (ids : Arg (FieldValue ν)) : Bool :=
  match ids.nullish with
  | none => false
  | some value =>
      match value.list? with
      | none => true
      | some items => items.any fun id ↦ id.string ∉ activeIds options

def multiSelectConfig (fresh : ℕ → String) (raw : RawConfig ν) :
    Except Failure (FieldConfig ν) := do
  refuseIf (raw.options = []) "options" "At least one option is required"
  let options ← readOptions fresh 0 [] raw.options
  let minSelected ← numberField raw.minSelected (fun m ↦ isInteger m && le (ofNat 0) m)
    "minSelected" "minSelected must be a non-negative integer"
  let maxSelected ← numberField raw.maxSelected
    (fun m ↦ isInteger m && le (ofNat 1) m && le m (ofNat options.length))
    "maxSelected" "maxSelected must be between 1 and the number of options"
  refuseIf (∃ low ∈ minSelected, ∃ high ∈ maxSelected, ltNumber high low) "minSelected"
    "Minimum selections cannot be greater than maximum selections."
  refuseIf (badDefaults options raw.defaultOptionIds) "defaultOptionIds"
    "Default selections must reference active options"
  .ok { FieldConfig.plain raw.defaultValue with
    options := options, minSelected := minSelected, maxSelected := maxSelected
    defaultOptionIds := raw.defaultOptionIds }

/-- `min`, `max` and whole numbers, for a default value and for a value. -/
def checkNumber (field subject : String) (min max : Option ν) (decimalsAllowed : Bool) (x : ν) :
    Except Failure Unit := do
  refuseIf (∃ m ∈ min, ltNumber x m) field s!"{subject} must be >= {written min}"
  refuseIf (∃ m ∈ max, ltNumber m x) field s!"{subject} must be <= {written max}"
  refuseIf (decimalsAllowed = false ∧ isInteger x = false) field
    s!"{subject} must be a whole number"

def numberConfig (raw : RawConfig ν) : Except Failure (FieldConfig ν) := do
  let min ← numberField raw.min (fun _ ↦ true) "min" "min must be a number"
  let max ← numberField raw.max (fun _ ↦ true) "max" "max must be a number"
  refuseIf (∃ low ∈ min, ∃ high ∈ max, ltNumber high low) "min" "min cannot exceed max"
  let decimalsAllowed := decide (raw.decimalsAllowed.nullish ≠ some false)
  refuseIf (∃ u ∈ raw.unit.nullish, 32 < jsLength u) "unit" "unit must be 32 characters or fewer"
  let defaultValue ← numberField raw.defaultValue (fun _ ↦ true) "defaultValue"
    "Default value must be a number"
  defaultValue.elim (.ok ()) (checkNumber "defaultValue" "Default value" min max decimalsAllowed)
  .ok { FieldConfig.plain raw.defaultValue with
    min := min, max := max, decimalsAllowed := some decimalsAllowed, unit := raw.unit }

def dateConfig (today : String) (raw : RawConfig ν) : Except Failure (FieldConfig ν) := do
  let config := { FieldConfig.plain raw.defaultValue with
    allowPastDates := some (decide (raw.allowPastDates.nullish ≠ some false))
    allowFutureDates := some (decide (raw.allowFutureDates.nullish ≠ some false)) }
  match raw.defaultValue.nullish with
  | none => .ok config
  | some value => do
      let date ← (value.text?.filter fun s ↦ isDateText s).elim
        (.error (.invalidField "Default date must be in YYYY-MM-DD format" "defaultValue")) .ok
      checkDateRange "defaultValue" date today config
      .ok config

def validateConfigShape (fresh : ℕ → String) (today : String) :
    FieldType → RawConfig ν → Except Failure (FieldConfig ν)
  | .text => textConfig 10000
  | .longText => textConfig 50000
  | .boolean => booleanConfig
  | .singleSelect => singleSelectConfig fresh
  | .multiSelect => multiSelectConfig fresh
  | .number => numberConfig
  | .date => dateConfig today

/-! ## Values -/

/-- A value that is none of the kind wanted is refused. -/
def wanted {β : Type} (value : Option β) (field message : String) : Except Failure β :=
  value.elim (.error (.invalidField message field)) .ok

/-- The texts of a list of texts. -/
def textsOf (items : List Scalar) : Option (List String) :=
  items.mapM fun item ↦
    match item with
    | .text s => some s
    | .other _ => none

def normalizeText (field : String) (config : FieldConfig ν) (raw : FieldValue ν) :
    Except Failure (FieldValue ν) := do
  let value ← wanted raw.text? field "Value must be text"
  let trimmed := jsTrim value
  refuseIf (∃ m ∈ config.maxLength, ltNumber m (ofNat (jsLength trimmed))) field
    s!"Value exceeds the {written config.maxLength} character limit"
  .ok (.text trimmed)

def normalizeBoolean (field : String) (raw : FieldValue ν) : Except Failure (FieldValue ν) := do
  refuseIf (raw.isBoolean = false) field "Value must be true or false"
  .ok raw

def normalizeSingleSelect (field : String) (config : FieldConfig ν) (raw : FieldValue ν) :
    Except Failure (FieldValue ν) := do
  let option ← wanted (config.options.find? fun o ↦ raw.text? = some o.id && o.active) field
    "Value must be a currently active option"
  .ok (.text option.id)

def normalizeMultiSelect (field : String) (config : FieldConfig ν) (raw : FieldValue ν) :
    Except Failure (FieldValue ν) := do
  let ids ← wanted (raw.list?.bind textsOf) field "Value must be a list of option ids"
  let deduped := ids.eraseDups
  refuseIf (∃ id ∈ deduped, id ∉ activeIds config.options) field
    "Value contains an inactive or unknown option"
  refuseIf (∃ m ∈ config.minSelected, ltNumber (ofNat deduped.length) m) field
    s!"Select at least {written config.minSelected} option(s)"
  refuseIf (∃ m ∈ config.maxSelected, ltNumber m (ofNat deduped.length)) field
    s!"Select at most {written config.maxSelected} option(s)"
  .ok (.list (deduped.map Scalar.text))

def normalizeNumber (field : String) (config : FieldConfig ν) (raw : FieldValue ν) :
    Except Failure (FieldValue ν) := do
  let x ← wanted raw.number? field "Value must be a number"
  checkNumber field "Value" config.min config.max (config.decimalsAllowed.getD true) x
  .ok (.number x)

def normalizeDate (today field : String) (config : FieldConfig ν) (raw : FieldValue ν) :
    Except Failure (FieldValue ν) := do
  let date ← wanted (raw.text?.filter fun s ↦ isDateText s) field
    "Value must be in YYYY-MM-DD format"
  checkDateRange field date today config
  .ok (.text date)

def validateAndNormalizeValue (today fieldName : String) (fieldType : FieldType)
    (config : FieldConfig ν) (raw : FieldValue ν) : Except Failure (FieldValue ν) :=
  match fieldType with
  | .text | .longText => normalizeText fieldName config raw
  | .boolean => normalizeBoolean fieldName raw
  | .singleSelect => normalizeSingleSelect fieldName config raw
  | .multiSelect => normalizeMultiSelect fieldName config raw
  | .number => normalizeNumber fieldName config raw
  | .date => normalizeDate today fieldName config raw

/-! ## The form in a file -/

/-- `String(x)` -/
def FieldValue.string : FieldValue ν → String
  | .text s => s
  | .number x => JsNumber.text x
  | .boolean b => if b then "true" else "false"
  | .list items => String.ofList (joined [','] (items.map fun item ↦ item.string.toList))
  | .other => "[object Object]"

def FieldValue.truthy : FieldValue ν → Bool
  | .text s => s ≠ ""
  | .number x => !(le x (ofNat 0) && le (ofNat 0) x)
  | .boolean b => b
  | .list _ | .other => true

/-- The label of the first option with the id. -/
def labelOf (options : List (FieldOption ν)) (raw : FieldValue ν) : String :=
  ((options.find? fun o ↦ raw.text? = some o.id).map FieldOption.label).getD ""

def formatCustomFieldExportValue (definition : FieldDefinition ν) :
    Option (FieldValue ν) → String
  | none => ""
  | some raw =>
      if raw.text? = some "" then ""
      else match definition.fieldType with
        | .boolean =>
            let trueFalse := definition.config.displayFormat = some "true_false"
            if raw.truthy then if trueFalse then "True" else "Yes"
            else if trueFalse then "False" else "No"
        | .singleSelect => labelOf definition.config.options raw
        | .multiSelect =>
            let labels := ((raw.list?.getD []).map fun id ↦
              match id with
              | .text s => labelOf definition.config.options (.text s : FieldValue ν)
              | .other _ => "").filter fun label ↦ label ≠ ""
            String.ofList (joined [',', ' '] (labels.map String.toList))
        | .number =>
            match definition.config.unit.truthy with
            | none => raw.string
            | some unit => raw.string ++ " " ++ unit
        | .text | .longText | .date => raw.string

/-- `[,;]` -/
def listSeparator (c : Char) : Bool := c = ',' || c = ';'

/-- The first option of the label, in any case of letters. -/
def optionNamed (options : List (FieldOption ν)) (label : String) : Option (FieldOption ν) :=
  options.find? fun o ↦ Unicode.toLowerCase o.label = Unicode.toLowerCase label

/-- The loop over the tokens of a cell. -/
def tokenIds (definition : FieldDefinition ν) : List String → Except String (List String)
  | [] => .ok []
  | token :: tokens =>
      match (optionNamed definition.config.options token).filter FieldOption.active with
      | none => .error s!"'{token}' is not a valid option for {definition.name}"
      | some option => do
          let ids ← tokenIds definition tokens
          .ok (option.id :: ids)

/-- The value of a cell, none when it is blank, or the message for its row. -/
def coerceCustomFieldImportValue [JsDate] (definition : FieldDefinition ν) (raw : String) :
    Except String (Option (FieldValue ν)) :=
  let trimmed := jsTrim raw
  if trimmed = "" then .ok none
  else match definition.fieldType with
    | .text | .longText => .ok (some (.text trimmed))
    | .boolean =>
        let normalized := Unicode.toLowerCase trimmed
        if normalized ∈ ["yes", "true", "1"] then .ok (some (.boolean true))
        else if normalized ∈ ["no", "false", "0"] then .ok (some (.boolean false))
        else .error s!"'{raw}' is not a valid value for {definition.name} (expected yes/no)"
    | .number =>
        match JsNumber.parse trimmed with
        | none => .error s!"'{raw}' is not a valid number for {definition.name}"
        | some x => .ok (some (.number x))
    | .date =>
        if isDateText trimmed then .ok (some (.text trimmed))
        else match JsDate.isoDay trimmed with
          | none => .error s!"'{raw}' is not a valid date for {definition.name}"
          | some day => .ok (some (.text day))
    | .singleSelect =>
        match optionNamed definition.config.options trimmed with
        | none => .error s!"'{raw}' is not a valid option for {definition.name}"
        | some option =>
            if option.active then .ok (some (.text option.id))
            else .error s!"'{raw}' is an inactive option for {definition.name}"
    | .multiSelect => do
        let tokens := (pieces jsSpace listSeparator trimmed.toList).map String.ofList
        let ids ← tokenIds definition tokens
        .ok (some (.list (ids.map Scalar.text)))

end Config

end Tesbo
