import Tesbo.CustomFields
import Tesbo.AccessSteps
import Tesbo.Reasoning.Table

/-!
# Custom field values through a file

When the cell an export writes for a stored value is read back as that value.
-/

namespace Tesbo.FieldRoundTrip

open Reasoning

/-! ## What an accepted configuration says -/

theorem refuseIf_eq_ok {p : Prop} [Decidable p] {field message : String}
    (h : refuseIf p field message = .ok ()) : ¬ p := by
  intro hp
  unfold refuseIf at h
  rw [if_pos hp] at h
  cases h

theorem wanted_eq_ok {β : Type} {value : Option β} {field message : String} {b : β}
    (h : wanted value field message = .ok b) : value = some b := by
  unfold wanted at h
  cases value with
  | none => cases h
  | some b' => cases h; rfl

/-- A label is not blank and has no space around it. -/
def GoodLabel (label : String) : Prop := label.toList ≠ [] ∧ Trimmed jsSpace label.toList

theorem not_space_of_isDigit {c : Char} (h : c.isDigit = true) : jsSpace c = false := by
  have hbounds : 48 ≤ c.toNat ∧ c.toNat ≤ 57 := by
    unfold Char.isDigit at h
    simpa [UInt32.le_iff_toNat_le] using h
  unfold jsSpace
  simp only [Bool.or_eq_false_iff, Bool.and_eq_false_iff, decide_eq_false_iff_not]
  omega

/-- A day has no white space. -/
theorem solid_of_isDateText {s : String} (h : isDateText s = true) :
    s.toList ≠ [] ∧ ∀ c ∈ s.toList, jsSpace c = false := by
  unfold isDateText at h
  split at h
  · rename_i y₁ y₂ y₃ y₄ m₁ m₂ d₁ d₂ hs
    rw [hs]
    refine ⟨List.cons_ne_nil _ _, fun c hc ↦ ?_⟩
    have hdigits := List.all_eq_true.mp h
    rcases eq_or_ne c '-' with rfl | hdash
    · decide
    · refine not_space_of_isDigit (hdigits c ?_)
      simp only [List.mem_cons, List.not_mem_nil, or_false] at hc ⊢
      tauto
  · cases h

theorem textsOf_map (ids : List String) : textsOf (ids.map Scalar.text) = some ids := by
  unfold textsOf
  induction ids with
  | nil => rfl
  | cons id ids ih => rw [List.map_cons, List.mapM_cons, ih]; rfl

section Fields

variable {ν : Type} [JsNumber ν] [Unicode]

/-- Labels are good, and distinct in any case of letters. -/
structure GoodOptions (options : List (FieldOption ν)) : Prop where
  good : ∀ o ∈ options, GoodLabel o.label
  distinct : (options.map fun o ↦ Unicode.toLowerCase o.label).Nodup

theorem readOptions_spec {fresh : ℕ → String} {index : ℕ} {seen : List String}
    {raws : List (RawOption ν)} {options : List (FieldOption ν)}
    (h : readOptions fresh index seen raws = .ok options) :
    GoodOptions options ∧ ∀ o ∈ options, Unicode.toLowerCase o.label ∉ seen := by
  induction raws generalizing index seen options with
  | nil =>
      cases h
      exact ⟨⟨fun o ho ↦ (by cases ho), List.nodup_nil⟩, fun o ho ↦ (by cases ho)⟩
  | cons opt rest ih =>
      obtain ⟨_, hblank, h⟩ := except_bind_eq_ok.mp h
      obtain ⟨_, hseen, h⟩ := except_bind_eq_ok.mp h
      obtain ⟨others, hothers, h⟩ := except_bind_eq_ok.mp h
      cases h
      obtain ⟨hgood, hnew⟩ := ih hothers
      have hne := refuseIf_eq_ok hblank
      refine ⟨⟨?_, ?_⟩, ?_⟩
      · rintro o (_ | ⟨_, ho⟩)
        · exact ⟨fun hnil ↦ hne (String.toList_eq_nil_iff.mp hnil), trimmed_jsTrim _⟩
        · exact hgood.good o ho
      · refine List.nodup_cons.mpr ⟨fun hin ↦ ?_, hgood.distinct⟩
        obtain ⟨o, ho, hkey⟩ := List.mem_map.mp hin
        exact hnew o ho (hkey ▸ List.mem_cons_self)
      · rintro o (_ | ⟨_, ho⟩)
        · exact refuseIf_eq_ok hseen
        · exact fun hin ↦ hnew o ho (List.mem_cons_of_mem _ hin)

omit [JsNumber ν] in
theorem optionNamed_eq_some {options : List (FieldOption ν)} (h : GoodOptions options)
    {label : String} {o : FieldOption ν} : optionNamed options label = some o ↔
      o ∈ options ∧ Unicode.toLowerCase o.label = Unicode.toLowerCase label :=
  Table.find_eq_some (t := ⟨options, h.distinct⟩)

/-- The options of a select field are good. -/
theorem goodOptions_of_accepted {fresh : ℕ → String} {today : String} {fieldType : FieldType}
    {raw : RawConfig ν} {config : FieldConfig ν}
    (h : validateConfigShape fresh today fieldType raw = .ok config)
    (hselect : fieldType = .singleSelect ∨ fieldType = .multiSelect) :
    GoodOptions config.options := by
  rcases hselect with rfl | rfl
  · obtain ⟨_, -, h⟩ := except_bind_eq_ok.mp h
    obtain ⟨options, hoptions, h⟩ := except_bind_eq_ok.mp h
    obtain ⟨_, -, h⟩ := except_bind_eq_ok.mp h
    cases h
    exact (readOptions_spec hoptions).1
  · obtain ⟨_, -, h⟩ := except_bind_eq_ok.mp h
    obtain ⟨options, hoptions, h⟩ := except_bind_eq_ok.mp h
    obtain ⟨minSelected, -, h⟩ := except_bind_eq_ok.mp h
    obtain ⟨maxSelected, -, h⟩ := except_bind_eq_ok.mp h
    obtain ⟨_, -, h⟩ := except_bind_eq_ok.mp h
    obtain ⟨_, -, h⟩ := except_bind_eq_ok.mp h
    cases h
    exact (readOptions_spec hoptions).1

/-! ## When a cell is read back -/

/-- The unit, where there is one, is white space. -/
def BlankUnit (config : FieldConfig ν) : Prop :=
  ∀ unit ∈ config.unit.truthy, ∀ c ∈ unit.toList, jsSpace c = true

/-- The first option with the id is active. -/
def FirstActive (options : List (FieldOption ν)) (id : String) : Prop :=
  ∃ o ∈ options.find? fun o ↦ o.id = id, o.active = true

/-- The token is the label of an active option with the id, in any case of letters. -/
def Names (options : List (FieldOption ν)) (token id : String) : Prop :=
  ∃ o ∈ options, o.active = true ∧ o.id = id ∧
    Unicode.toLowerCase o.label = Unicode.toLowerCase token

/-- The texts between the separators in the labels of the ids. -/
def tokensOf (options : List (FieldOption ν)) (ids : List String) : List String :=
  (ids.flatMap fun id ↦ pieces jsSpace listSeparator
    (labelOf options (.text id : FieldValue ν)).toList).map String.ofList

/-- The texts between the separators in the labels name the ids, one by one. -/
def LabelsNameIds (options : List (FieldOption ν)) (ids : List String) : Prop :=
  List.Forall₂ (Names options) (tokensOf options ids) ids

/-- What a stored value and its field are like where the cell is read back. -/
def ReadsBack (definition : FieldDefinition ν) (stored : FieldValue ν) : Prop :=
  match definition.fieldType with
  | .text | .longText | .boolean | .date => True
  | .number => BlankUnit definition.config
  | .singleSelect => ∀ id ∈ stored.text?, FirstActive definition.config.options id
  | .multiSelect =>
      ∀ ids ∈ stored.list?.bind textsOf, LabelsNameIds definition.config.options ids

section Cells

variable {name : String} {config : FieldConfig ν}

omit [Unicode] in
/-- The cell of a text or a day is the text itself. -/
theorem format_text {s : String} (hne : s ≠ "") {fieldType : FieldType}
    (htype : fieldType = .text ∨ fieldType = .longText ∨ fieldType = .date) :
    formatCustomFieldExportValue ⟨name, fieldType, config⟩ (some (.text s)) = s := by
  have htext : ¬ (FieldValue.text s : FieldValue ν).text? = some "" :=
    fun h ↦ hne (Option.some.inj h)
  simp only [formatCustomFieldExportValue, if_neg htext]
  rcases htype with rfl | rfl | rfl <;> rfl

variable [JsDate]

theorem text_readsBack {s : String} (hs : Trimmed jsSpace s.toList) (hne : s ≠ "")
    {fieldType : FieldType} (htype : fieldType = .text ∨ fieldType = .longText) :
    coerceCustomFieldImportValue ⟨name, fieldType, config⟩
      (formatCustomFieldExportValue ⟨name, fieldType, config⟩ (some (.text s))) =
        .ok (some (.text s)) := by
  rw [format_text hne (htype.imp_right .inl)]
  unfold coerceCustomFieldImportValue
  simp only [jsTrim_eq hs, if_neg hne]
  rcases htype with rfl | rfl <;> rfl

theorem date_readsBack {s : String} (hs : isDateText s = true) :
    coerceCustomFieldImportValue ⟨name, .date, config⟩
      (formatCustomFieldExportValue ⟨name, .date, config⟩ (some (.text s))) =
        .ok (some (.text s)) := by
  obtain ⟨hnil, hsolid⟩ := solid_of_isDateText hs
  have hne : s ≠ "" := fun h ↦ hnil (h ▸ rfl)
  rw [format_text hne (.inr (.inr rfl))]
  unfold coerceCustomFieldImportValue
  simp only [jsTrim_eq (trimmed_of_solid hsolid), if_neg hne, if_pos hs]

theorem boolean_readsBack [LawfulLowerCase] (b : Bool) :
    coerceCustomFieldImportValue ⟨name, .boolean, config⟩
      (formatCustomFieldExportValue ⟨name, .boolean, config⟩ (some (.boolean b))) =
        .ok (some (.boolean b)) := by
  have hword : ∀ word lowered : String, jsTrim word = word → word ≠ "" →
      (∀ c ∈ word.toList, c.toNat < 128) →
      String.ofList (word.toList.map Char.toLower) = lowered →
      (b = true ∧ lowered ∈ ["yes", "true"] ∨ b = false ∧ lowered ∈ ["no", "false"]) →
      coerceCustomFieldImportValue ⟨name, .boolean, config⟩ word =
        .ok (some (.boolean b)) := by
    intro word lowered htrim hne hascii hlower hb
    unfold coerceCustomFieldImportValue
    simp only [htrim, if_neg hne, LawfulLowerCase.ascii word hascii, hlower]
    rcases hb with ⟨rfl, hb⟩ | ⟨rfl, hb⟩
    · fin_cases hb <;> rfl
    · fin_cases hb <;> rfl
  have htext : ¬ (FieldValue.boolean b : FieldValue ν).text? = some "" := fun h ↦ (by cases h)
  simp only [formatCustomFieldExportValue, if_neg htext]
  cases b with
  | true =>
      change coerceCustomFieldImportValue _ (if config.displayFormat = some "true_false"
        then "True" else "Yes") = _
      split
      · exact hword "True" "true" (by decide) (by decide) (by decide) (by decide) (by decide)
      · exact hword "Yes" "yes" (by decide) (by decide) (by decide) (by decide) (by decide)
  | false =>
      change coerceCustomFieldImportValue _ (if config.displayFormat = some "true_false"
        then "False" else "No") = _
      split
      · exact hword "False" "false" (by decide) (by decide) (by decide) (by decide) (by decide)
      · exact hword "No" "no" (by decide) (by decide) (by decide) (by decide) (by decide)

/-! ### Numbers -/

section Numbers

variable [LawfulJsNumber ν]

omit [Unicode] [JsDate] in
/-- A number with a unit after it is no number. -/
theorem parse_decorated (x : ν) {unit : String} (hunit : ∃ c ∈ unit.toList, jsSpace c = false) :
    JsNumber.parse (jsTrim (JsNumber.text x ++ " " ++ unit)) = (none : Option ν) := by
  have hsolid := LawfulJsNumber.text_solid x
  have hnumber := trimmed_of_solid hsolid
  obtain ⟨digit, digits, hdigits⟩ :=
    List.exists_cons_of_ne_nil (LawfulJsNumber.text_ne_empty x)
  have hchars : (JsNumber.text x ++ " " ++ unit).toList =
      (JsNumber.text x).toList ++ ' ' :: unit.toList := by
    rw [String.toList_append, String.toList_append, List.append_assoc]
    rfl
  have hrest : (' ' :: unit.toList).rdropWhile jsSpace ≠ [] := by
    obtain ⟨c, hc, hspace⟩ := hunit
    intro h
    rw [(List.rdropWhile_eq_nil_iff).mp h c (List.mem_cons_of_mem _ hc)] at hspace
    cases hspace
  obtain ⟨first, after, hafter⟩ := List.exists_cons_of_ne_nil hrest
  have hfirst : first = ' ' := by
    have hprefix := List.rdropWhile_prefix jsSpace (' ' :: unit.toList)
    rw [hafter, List.cons_prefix_cons] at hprefix
    exact hprefix.1
  have hlast : ∃ a ∈ after, jsSpace a = false := by
    have hend := List.rdropWhile_last_not jsSpace (' ' :: unit.toList) hrest
    simp only [hafter, hfirst] at hend
    cases hcs : after with
    | nil =>
        simp only [hcs, List.getLast_singleton] at hend
        exact absurd (by decide) hend
    | cons c cs =>
        simp only [hcs, List.getLast_cons_cons] at hend
        exact ⟨_, List.getLast_mem (List.cons_ne_nil c cs), Bool.eq_false_iff.mpr hend⟩
  have htrim : (jsTrim (JsNumber.text x ++ " " ++ unit)).toList =
      (JsNumber.text x).toList ++ first :: after := by
    unfold jsTrim
    rw [String.toList_ofList, hchars, ← hafter]
    exact hnumber.trim_append (LawfulJsNumber.text_ne_empty x) hrest
  refine LawfulJsNumber.parse_spaced _ _ after first htrim (hfirst ▸ by decide) ?_ hlast
  exact ⟨digit, hdigits ▸ List.mem_cons_self, hsolid digit (hdigits ▸ List.mem_cons_self)⟩

theorem number_readsBack_iff (x : ν) :
    coerceCustomFieldImportValue ⟨name, .number, config⟩
      (formatCustomFieldExportValue ⟨name, .number, config⟩ (some (.number x))) =
        .ok (some (.number x)) ↔ BlankUnit config := by
  have htext : ¬ (FieldValue.number x : FieldValue ν).text? = some "" := fun h ↦ (by cases h)
  have hsolid := LawfulJsNumber.text_solid x
  have hread : ∀ cell : String, jsTrim cell = JsNumber.text x →
      coerceCustomFieldImportValue ⟨name, .number, config⟩ cell = .ok (some (.number x)) := by
    intro cell hcell
    have hne : JsNumber.text x ≠ "" :=
      fun h ↦ LawfulJsNumber.text_ne_empty x (by rw [h]; rfl)
    simp only [coerceCustomFieldImportValue, hcell, if_neg hne, LawfulJsNumber.parse_text]
  simp only [formatCustomFieldExportValue, if_neg htext]
  cases hunit : config.unit.truthy with
  | none =>
      refine ⟨fun _ unit h ↦ ?_, fun _ ↦ hread _ (jsTrim_eq (trimmed_of_solid hsolid))⟩
      rw [hunit] at h
      cases h
  | some unit =>
      simp only [FieldValue.string]
      constructor
      · rintro h unit' hunit' c hc
        obtain rfl := Option.some.inj (hunit.symm.trans hunit')
        by_contra hspace
        have hnone := parse_decorated x ⟨c, hc, Bool.eq_false_iff.mpr hspace⟩
        simp only [coerceCustomFieldImportValue] at h
        rw [hnone] at h
        split at h <;> cases h
      · intro hblank
        refine hread _ ?_
        have hchars : (JsNumber.text x ++ " " ++ unit).toList =
            (JsNumber.text x).toList ++ ' ' :: unit.toList := by
          rw [String.toList_append, String.toList_append, List.append_assoc]
          rfl
        unfold jsTrim
        rw [hchars]
        have hspaces : ∀ c ∈ ' ' :: unit.toList, jsSpace c = true := by
          rintro c (_ | ⟨_, hc⟩)
          · decide
          · exact hblank unit hunit c hc
        rw [show trimChars ((JsNumber.text x).toList ++ ' ' :: unit.toList) =
          (JsNumber.text x).toList from (trimmed_of_solid hsolid).trim_append_spaces hspaces,
          String.ofList_toList]

end Numbers

/-! ### Options -/

omit [JsNumber ν] [Unicode] [JsDate] in
theorem labelOf_text {options : List (FieldOption ν)} {id : String} {o : FieldOption ν}
    (h : (options.find? fun o ↦ o.id = id) = some o) :
    labelOf options (.text id : FieldValue ν) = o.label := by
  have hsame : (fun o : FieldOption ν ↦
      decide ((FieldValue.text id : FieldValue ν).text? = some o.id)) =
        fun o : FieldOption ν ↦ decide (o.id = id) := by
    funext o
    exact decide_eq_decide.mpr ⟨fun h ↦ (Option.some.inj h).symm, fun h ↦ congrArg some h.symm⟩
  unfold labelOf
  rw [hsame, h]
  rfl

omit [JsNumber ν] [Unicode] [JsDate] in
theorem exists_first {options : List (FieldOption ν)} {id : String}
    (h : ∃ o ∈ options, o.id = id) :
    ∃ o ∈ options, o.id = id ∧ (options.find? fun o ↦ o.id = id) = some o := by
  obtain ⟨o, ho, hid⟩ := h
  cases hfirst : options.find? fun o ↦ o.id = id with
  | none => exact absurd (decide_eq_true hid) (List.find?_eq_none.mp hfirst o ho)
  | some first =>
      have hid' : first.id = id := by simpa using List.find?_some hfirst
      exact ⟨first, List.mem_of_find?_eq_some hfirst, hid', rfl⟩

theorem single_readsBack_iff (hgood : GoodOptions config.options) {id : String} (hne : id ≠ "")
    (hid : ∃ o ∈ config.options, o.id = id) :
    coerceCustomFieldImportValue ⟨name, .singleSelect, config⟩
      (formatCustomFieldExportValue ⟨name, .singleSelect, config⟩ (some (.text id))) =
        .ok (some (.text id)) ↔ FirstActive config.options id := by
  obtain ⟨first, hmem, hfirstId, hfirst⟩ := exists_first hid
  obtain ⟨hlabel, htrimmed⟩ := hgood.good first hmem
  have hlabelNe : first.label ≠ "" := fun h ↦ hlabel (h ▸ rfl)
  have htext : ¬ (FieldValue.text id : FieldValue ν).text? = some "" :=
    fun h ↦ hne (Option.some.inj h)
  have hnamed := (optionNamed_eq_some hgood).mpr ⟨hmem, rfl⟩
  simp only [formatCustomFieldExportValue, if_neg htext, labelOf_text hfirst,
    coerceCustomFieldImportValue, jsTrim_eq htrimmed, if_neg hlabelNe, hnamed]
  unfold FirstActive
  rw [hfirst]
  cases hactive : first.active with
  | true => simp [hactive, hfirstId]
  | false => simp [hactive]

omit [JsNumber ν] [JsDate] in
theorem tokenIds_eq_ok {definition : FieldDefinition ν}
    (hgood : GoodOptions definition.config.options) {tokens ids : List String} :
    tokenIds definition tokens = .ok ids ↔
      List.Forall₂ (Names definition.config.options) tokens ids := by
  induction tokens generalizing ids with
  | nil =>
      rw [List.forall₂_nil_left_iff]
      exact ⟨fun h ↦ (Except.ok.inj h).symm, fun h ↦ by rw [h]; rfl⟩
  | cons token tokens ih =>
      unfold tokenIds
      rw [List.forall₂_cons_left_iff]
      cases hnamed : (optionNamed definition.config.options token).filter FieldOption.active with
      | none =>
          refine ⟨fun h ↦ (by cases h), ?_⟩
          rintro ⟨id, rest, ⟨o, ho, hactive, -, hlabel⟩, -⟩
          rw [(optionNamed_eq_some hgood).mpr ⟨ho, hlabel⟩, Option.filter_some, if_pos hactive]
            at hnamed
          cases hnamed
      | some o =>
          obtain ⟨hfound, hactive⟩ := Option.filter_eq_some_iff.mp hnamed
          obtain ⟨ho, hlabel⟩ := (optionNamed_eq_some hgood).mp hfound
          rw [except_bind_eq_ok]
          constructor
          · rintro ⟨rest, hrest, h⟩
            cases h
            exact ⟨o.id, rest, ⟨o, ho, hactive, rfl, hlabel⟩, ih.mp hrest, rfl⟩
          · rintro ⟨id, rest, ⟨o', ho', -, rfl, hlabel'⟩, hrest, rfl⟩
            have hsame := (optionNamed_eq_some hgood).mpr ⟨ho', hlabel'⟩
            obtain rfl := Option.some.inj (hfound.symm.trans hsame)
            exact ⟨rest, ih.mpr hrest, rfl⟩

theorem multi_readsBack_iff (hgood : GoodOptions config.options) {ids : List String}
    (hne : ids ≠ []) (hids : ∀ id ∈ ids, ∃ o ∈ config.options, o.id = id) :
    coerceCustomFieldImportValue ⟨name, .multiSelect, config⟩
      (formatCustomFieldExportValue ⟨name, .multiSelect, config⟩
        (some (.list (ids.map Scalar.text)))) = .ok (some (.list (ids.map Scalar.text))) ↔
      LabelsNameIds config.options ids := by
  have htext : ¬ (FieldValue.list (ids.map Scalar.text) : FieldValue ν).text? = some "" :=
    fun h ↦ (by cases h)
  have hlabels : ∀ label ∈ ids.map fun id ↦ labelOf config.options (.text id : FieldValue ν),
      GoodLabel label := by
    intro label hlabel
    obtain ⟨id, hid, rfl⟩ := List.mem_map.mp hlabel
    obtain ⟨first, hmem, -, hfirst⟩ := exists_first (hids id hid)
    rw [labelOf_text hfirst]
    exact hgood.good first hmem
  have hcell : formatCustomFieldExportValue ⟨name, .multiSelect, config⟩
      (some (.list (ids.map Scalar.text))) =
        String.ofList (joined [',', ' '] ((ids.map fun id ↦
          labelOf config.options (.text id : FieldValue ν)).map String.toList)) := by
    have hkept : (ids.map fun id ↦ labelOf config.options (.text id : FieldValue ν)).filter
        (fun label ↦ label ≠ "") =
          ids.map fun id ↦ labelOf config.options (.text id : FieldValue ν) :=
      List.filter_eq_self.mpr fun label hlabel ↦
        decide_eq_true fun h ↦ (hlabels label hlabel).1 (h ▸ rfl)
    simp only [formatCustomFieldExportValue, if_neg htext]
    conv_rhs => rw [← hkept]
    simp only [FieldValue.list?, Option.getD_some, List.map_map]
    rfl
  generalize hjoined : joined [',', ' '] ((ids.map fun id ↦
    labelOf config.options (.text id : FieldValue ν)).map String.toList) = cell at hcell
  have hparts : ∀ part ∈ (ids.map fun id ↦
      labelOf config.options (.text id : FieldValue ν)).map String.toList,
      part ≠ [] ∧ Trimmed jsSpace part := by
    intro part hpart
    obtain ⟨label, hlabel, rfl⟩ := List.mem_map.mp hpart
    exact hlabels label hlabel
  have htrim : jsTrim (String.ofList cell) = String.ofList cell := by
    refine jsTrim_eq ?_
    rw [String.toList_ofList, ← hjoined]
    exact trimmed_joined hparts
  have hnonempty : String.ofList cell ≠ "" := by
    intro h
    have hnil : cell = [] := by simpa using congrArg String.toList h
    refine joined_ne_nil ?_ (fun part hpart ↦ (hparts part hpart).1) (hjoined.trans hnil)
    simpa using hne
  have htokens : (pieces jsSpace listSeparator cell).map String.ofList =
      tokensOf config.options ids := by
    unfold tokensOf
    rw [← hjoined, pieces_joined (by decide) (by decide) (by decide), List.flatMap_map,
      List.flatMap_map]
  rw [hcell]
  simp only [coerceCustomFieldImportValue, htrim, if_neg hnonempty, String.toList_ofList, htokens]
  unfold LabelsNameIds
  rw [except_bind_eq_ok]
  constructor
  · rintro ⟨read, hread, h⟩
    have hsame : read.map Scalar.text = ids.map Scalar.text := by
      simpa using h
    obtain rfl := List.map_injective_iff.mpr (fun _ _ h ↦ Scalar.text.inj h) hsame
    exact (tokenIds_eq_ok hgood).mp hread
  · intro h
    exact ⟨ids, (tokenIds_eq_ok hgood).mpr h, rfl⟩

end Cells

/-! ## The values a field takes -/

section Values

variable {today field : String} {config : FieldConfig ν} {value stored : FieldValue ν}

omit [Unicode] in
theorem normalizeText_eq_ok (h : normalizeText field config value = .ok stored) :
    ∃ s, stored = .text (jsTrim s) := by
  obtain ⟨s, -, h⟩ := except_bind_eq_ok.mp h
  obtain ⟨_, -, h⟩ := except_bind_eq_ok.mp h
  cases h
  exact ⟨s, rfl⟩

omit [JsNumber ν] [Unicode] in
theorem normalizeBoolean_eq_ok (h : normalizeBoolean field value = .ok stored) :
    ∃ b, stored = .boolean b := by
  obtain ⟨_, hboolean, h⟩ := except_bind_eq_ok.mp h
  cases h
  cases value with
  | boolean b => exact ⟨b, rfl⟩
  | text s => exact absurd rfl (refuseIf_eq_ok hboolean)
  | number x => exact absurd rfl (refuseIf_eq_ok hboolean)
  | list items => exact absurd rfl (refuseIf_eq_ok hboolean)
  | other => exact absurd rfl (refuseIf_eq_ok hboolean)

omit [JsNumber ν] [Unicode] in
theorem normalizeSingleSelect_eq_ok (h : normalizeSingleSelect field config value = .ok stored) :
    ∃ o ∈ config.options, stored = .text o.id := by
  obtain ⟨o, hfound, h⟩ := except_bind_eq_ok.mp h
  cases h
  exact ⟨o, List.mem_of_find?_eq_some (wanted_eq_ok hfound), rfl⟩

omit [Unicode] in
theorem normalizeMultiSelect_eq_ok (h : normalizeMultiSelect field config value = .ok stored) :
    ∃ ids : List String, stored = .list (ids.map Scalar.text) ∧
      ∀ id ∈ ids, ∃ o ∈ config.options, o.id = id := by
  obtain ⟨ids, -, h⟩ := except_bind_eq_ok.mp h
  obtain ⟨_, hactive, h⟩ := except_bind_eq_ok.mp h
  obtain ⟨_, -, h⟩ := except_bind_eq_ok.mp h
  obtain ⟨_, -, h⟩ := except_bind_eq_ok.mp h
  cases h
  refine ⟨ids.eraseDups, rfl, fun id hid ↦ ?_⟩
  by_contra hnone
  refine refuseIf_eq_ok hactive ⟨id, hid, fun hin ↦ hnone ?_⟩
  obtain ⟨o, ho, hoid⟩ := List.mem_map.mp hin
  exact ⟨o, List.mem_of_mem_filter ho, hoid⟩

omit [Unicode] in
theorem normalizeNumber_eq_ok (h : normalizeNumber field config value = .ok stored) :
    ∃ x, stored = .number x := by
  obtain ⟨x, -, h⟩ := except_bind_eq_ok.mp h
  obtain ⟨_, -, h⟩ := except_bind_eq_ok.mp h
  cases h
  exact ⟨x, rfl⟩

omit [JsNumber ν] [Unicode] in
theorem normalizeDate_eq_ok (h : normalizeDate today field config value = .ok stored) :
    ∃ date, isDateText date = true ∧ stored = .text date := by
  obtain ⟨date, hdate, h⟩ := except_bind_eq_ok.mp h
  obtain ⟨_, -, h⟩ := except_bind_eq_ok.mp h
  cases h
  exact ⟨date, (Option.filter_eq_some_iff.mp (wanted_eq_ok hdate)).2, rfl⟩

end Values

/-- An accepted, stored value is read back from the cell an export writes for it exactly when its
unit is blank, its option the first with its id, or its labels name it piece by piece. -/
theorem cell_readsBack_iff [LawfulJsNumber ν] [LawfulLowerCase] [JsDate]
    {fresh : ℕ → String} {today today' field name : String} {fieldType : FieldType}
    {raw : RawConfig ν} {config : FieldConfig ν} {value stored : FieldValue ν}
    (hconfig : validateConfigShape fresh today fieldType raw = .ok config)
    (hvalue : validateAndNormalizeValue today' field fieldType config value = .ok stored)
    (hstored : stored.isEmptyValue = false) :
    coerceCustomFieldImportValue ⟨name, fieldType, config⟩
      (formatCustomFieldExportValue ⟨name, fieldType, config⟩ (some stored)) =
        .ok (some stored) ↔ ReadsBack ⟨name, fieldType, config⟩ stored := by
  cases fieldType with
  | text =>
      obtain ⟨s, rfl⟩ := normalizeText_eq_ok hvalue
      exact iff_of_true (text_readsBack (trimmed_jsTrim s) (of_decide_eq_false hstored) (.inl rfl))
        trivial
  | longText =>
      obtain ⟨s, rfl⟩ := normalizeText_eq_ok hvalue
      exact iff_of_true (text_readsBack (trimmed_jsTrim s) (of_decide_eq_false hstored) (.inr rfl))
        trivial
  | boolean =>
      obtain ⟨b, rfl⟩ := normalizeBoolean_eq_ok hvalue
      exact iff_of_true (boolean_readsBack b) trivial
  | singleSelect =>
      have hgood := goodOptions_of_accepted hconfig (.inl rfl)
      obtain ⟨o, ho, rfl⟩ := normalizeSingleSelect_eq_ok hvalue
      rw [single_readsBack_iff hgood (of_decide_eq_false hstored) ⟨o, ho, rfl⟩]
      exact ⟨fun h id hid ↦ Option.some.inj hid ▸ h, fun h ↦ h o.id rfl⟩
  | multiSelect =>
      have hgood := goodOptions_of_accepted hconfig (.inr rfl)
      obtain ⟨ids, rfl, hids⟩ := normalizeMultiSelect_eq_ok hvalue
      have hne : ids ≠ [] := by
        rintro rfl
        cases hstored
      rw [multi_readsBack_iff hgood hne hids]
      have hread : ((FieldValue.list (ids.map Scalar.text) : FieldValue ν).list?.bind textsOf) =
          some ids := textsOf_map ids
      refine ⟨fun h ids' hids' ↦ ?_, fun h ↦ h ids hread⟩
      obtain rfl := Option.some.inj (hread.symm.trans hids')
      exact h
  | number =>
      obtain ⟨x, rfl⟩ := normalizeNumber_eq_ok hvalue
      exact number_readsBack_iff x
  | date =>
      obtain ⟨date, hdate, rfl⟩ := normalizeDate_eq_ok hvalue
      exact iff_of_true (date_readsBack hdate) trivial

end Fields

/-! ## Whole numbers -/

instance : JsNumber ℕ where
  ofNat n := n
  le a b := a ≤ b
  isInteger _ := true
  text n := n.repr
  parse s :=
    if s.toList ≠ [] ∧ ∀ c ∈ s.toList, c.isDigit = true
    then some (Nat.ofDigitChars 10 s.toList 0) else none

theorem isDigit_of_mem_repr {n : ℕ} : ∀ c ∈ n.repr.toList, c.isDigit = true := by
  intro c hc
  rw [Nat.toList_repr] at hc
  exact Nat.isDigit_of_mem_toDigits (by decide) (by decide) hc

theorem repr_ne_nil (n : ℕ) : n.repr.toList ≠ [] := by
  rw [Nat.toList_repr]
  exact Nat.toDigits_ne_nil

instance : LawfulJsNumber ℕ where
  parse_text n := by
    change (if _ then some (Nat.ofDigitChars 10 n.repr.toList 0) else none) = some n
    rw [if_pos ⟨repr_ne_nil n, isDigit_of_mem_repr⟩, Nat.toList_repr,
      Nat.ofDigitChars_ten_toDigits]
  text_ne_empty n := repr_ne_nil n
  text_solid n c hc := not_space_of_isDigit (isDigit_of_mem_repr c hc)
  parse_spaced s before after c hs hspace _ _ := by
    refine if_neg fun h ↦ ?_
    have hdigit := h.2 c (by rw [hs]; simp)
    rw [not_space_of_isDigit hdigit] at hspace
    cases hspace

theorem lawfulAsciiCase : @LawfulLowerCase asciiCase := by
  refine @LawfulLowerCase.mk asciiCase (fun _ _ ↦ rfl) fun s c hc ↦ ?_
  have hlower : ∀ a : Char, a.toLower = c ↔ a = c := by
    intro a
    unfold Char.toLower
    split
    · rename_i hupper
      have hbounds : 65 ≤ a.val.toNat ∧ a.val.toNat ≤ 90 := by
        simpa [UInt32.le_iff_toNat_le] using hupper
      refine iff_of_false (fun h ↦ ?_) fun h ↦ ?_
      · have hval := congrArg (fun d : Char ↦ d.val.toNat) h
        simp only [UInt32.toNat_add] at hval
        rcases hc with rfl | rfl <;> simp at hval hbounds <;> omega
      · subst h
        rcases hc with rfl | rfl <;> simp at hbounds
    · exact Iff.rfl
  change c ∈ (String.ofList (s.toList.map Char.toLower)).toList ↔ c ∈ s.toList
  rw [String.toList_ofList, List.mem_map]
  simp only [hlower, exists_eq_right]

/-- A configuration that says nothing. -/
def RawConfig.empty (ν : Type) : RawConfig ν where
  maxLength := .undefined
  displayFormat := .undefined
  options := []
  defaultOptionId := .undefined
  defaultOptionIds := .undefined
  minSelected := .undefined
  maxSelected := .undefined
  min := .undefined
  max := .undefined
  decimalsAllowed := .undefined
  unit := .undefined
  allowPastDates := .undefined
  allowFutureDates := .undefined
  defaultValue := .undefined

def kilograms : RawConfig ℕ := { RawConfig.empty ℕ with unit := .value "kg" }

/-- Two options with ids, active and in order. -/
def twoOptions (label label' : String) : RawConfig ℕ :=
  { RawConfig.empty ℕ with
    options := [⟨.value "a", .value (.text label), .undefined, none⟩,
      ⟨.value "b", .value (.text label'), .undefined, none⟩] }

@[reducible] def noDates : JsDate := ⟨fun _ ↦ none⟩

theorem cell_readsBack_twoOptions :
    letI := asciiCase
    letI := noDates
    ∃ config : FieldConfig ℕ,
      validateConfigShape (fun _ ↦ "") "" .multiSelect (twoOptions "Red" "Green") = .ok config ∧
        (coerceCustomFieldImportValue ⟨"Colour", .multiSelect, config⟩
          (formatCustomFieldExportValue ⟨"Colour", .multiSelect, config⟩
            (some (.list [.text "b", .text "a"]))) = .ok (some (.list [.text "b", .text "a"])) ↔
          ReadsBack ⟨"Colour", .multiSelect, config⟩ (.list [.text "b", .text "a"])) := by
  refine ⟨_, rfl, ?_⟩
  exact @cell_readsBack_iff ℕ _ asciiCase _ lawfulAsciiCase noDates (fun _ ↦ "") "" "" "" "Colour"
    .multiSelect (twoOptions "Red" "Green") _ (.list [.text "b", .text "a"]) _ rfl rfl rfl

/-- A number with a unit is refused, and a label with a comma is read as two. -/
theorem not_cell_readsBack :
    letI := asciiCase
    letI := noDates
    (∃ config : FieldConfig ℕ,
      validateConfigShape (fun _ ↦ "") "" .number kilograms = .ok config ∧
        validateAndNormalizeValue "" "" .number config (.number 5) = .ok (.number 5) ∧
        coerceCustomFieldImportValue ⟨"Weight", .number, config⟩
          (formatCustomFieldExportValue ⟨"Weight", .number, config⟩ (some (.number 5))) =
            .error "'5 kg' is not a valid number for Weight") ∧
    ∃ config : FieldConfig ℕ,
      validateConfigShape (fun _ ↦ "") "" .multiSelect (twoOptions "Red" "Red, bright") =
        .ok config ∧
      validateAndNormalizeValue "" "" .multiSelect config (.list [.text "b"]) =
        .ok (.list [.text "b"]) ∧
      coerceCustomFieldImportValue ⟨"Colour", .multiSelect, config⟩
        (formatCustomFieldExportValue ⟨"Colour", .multiSelect, config⟩
          (some (.list [.text "b"]))) = .error "'bright' is not a valid option for Colour" :=
  ⟨⟨_, rfl, rfl, by decide +kernel⟩, ⟨_, rfl, rfl, by decide +kernel⟩⟩

end Tesbo.FieldRoundTrip
