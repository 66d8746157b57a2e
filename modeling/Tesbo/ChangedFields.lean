import Tesbo.TextDiff

/-!
# The fields of a change

The change of a document names its title when that changed, and otherwise every label under which the
two versions have different texts.  No text but that of a heading is left out of them.
-/

namespace Tesbo.TextDiff

open Reasoning
open Reasoning.Filed
open Reasoning.Coverings
open CodeUnits

def fields (oldDoc newDoc : Document) : List ChangedField :=
  (summarizeDocumentChange oldDoc newDoc).fields

def Document.body (d : Document) : Text := d.contentText.getD []

/-- A title that is not blank, in one line. -/
structure InLine (title : Text) : Prop where
  named : trim isSpace title ≠ []
  unbroken : ∀ c ∈ title, isLineTerminator c = false

instance (title : Text) : Decidable (InLine title) :=
  decidable_of_iff (trim isSpace title ≠ [] ∧ title.any isLineTerminator = false)
    ⟨fun h ↦ ⟨h.1, eq_false_of_any h.2⟩, fun h ↦ ⟨h.1, by simpa using h.2⟩⟩

def isHeading (block : Text) : Bool :=
  match readBlock block with
  | .text _ => false
  | _ => true

/-- The blocks of a text that are no headings. -/
def nonHeadings (content : Text) : List Text := (blocksOf content).filter fun block ↦ !isHeading block

/-- A title that is blank is no heading, and the body of that version may have the other's title for
one.  A block that stands apart from its heading in one version is glued to it in the other: the
texts under the heading are the same. -/
theorem blank_title_and_glued_block :
    (¬ ∀ oldDoc newDoc, oldDoc.title ≠ [] → newDoc.title ≠ [] →
      (∀ c ∈ oldDoc.title ++ newDoc.title, isLineTerminator c = false) →
        trim isSpace oldDoc.title ≠ trim isSpace newDoc.title →
          titleLabel ∈ (fields oldDoc newDoc).map (·.label)) ∧
      ¬ ∀ oldDoc newDoc, InLine oldDoc.title → InLine newDoc.title →
        oldDoc.title = newDoc.title → nonHeadings oldDoc.body ≠ nonHeadings newDoc.body →
          fields oldDoc newDoc ≠ [] := by
  constructor
  · intro h
    have hnamed := h ⟨[unit ' '], some (literal ['#', ' ', 'T'])⟩ ⟨[unit 'T'], none⟩
      (by decide) (by decide) (eq_false_of_any (by decide)) (by decide)
    exact absurd hnamed (by decide)
  · intro h
    have hfields := h ⟨[unit 'T'], some (literal ['#', '#', ' ', 'A', '\n', 'x'])⟩
      ⟨[unit 'T'], some (literal ['#', '#', ' ', 'A', '\n', '\n', 'x'])⟩
      (by decide) (by decide) rfl (by decide)
    exact hfields (by decide)

/-! ## Labels -/

/-- The fields are those under which the texts differ. -/
theorem mem_labels_fields {oldDoc newDoc : Document} {label : Text} :
    label ∈ (fields oldDoc newDoc).map (·.label) ↔
      filedUnder oldDoc label ≠ filedUnder newDoc label := by
  have hfields : fields oldDoc newDoc =
      fieldsOf (groupSections (wrap oldDoc)) (groupSections (wrap newDoc)) := by
    unfold fields summarizeDocumentChange summarizeTextChange
    dsimp only
    split
    · rename_i hnil
      rw [hnil]
    · rfl
  rw [hfields, labels_fieldsOf, mem_changedLabels, textUnder_groupSections,
    textUnder_groupSections]
  rfl

theorem fields_eq_nil_iff {oldDoc newDoc : Document} :
    fields oldDoc newDoc = [] ↔ ∀ label, filedUnder oldDoc label = filedUnder newDoc label := by
  constructor
  · intro hnil label
    by_contra hne
    have hmem := mem_labels_fields.mpr hne
    rw [hnil] at hmem
    cases hmem
  · intro h
    rw [← List.map_eq_nil_iff (f := ChangedField.label), List.eq_nil_iff_forall_not_mem]
    exact fun label hmem ↦ mem_labels_fields.mp hmem (h label)

/-! ## The title -/

variable {d : Document}

theorem newline_not_mem_of_unbroken {l : Text} (h : ∀ c ∈ l, isLineTerminator c = false) :
    newline ∉ l := fun hmem ↦ absurd (h newline hmem) (by decide)

/-- The synthetic heading is a block of its own. -/
theorem blocksOf_wrap (hunbroken : ∀ c ∈ d.title, isLineTerminator c = false) :
    blocksOf (wrap d) = (literal ['#', ' '] ++ d.title) :: blocksOf d.body := by
  have hnewline : newline ∉ literal ['#', ' '] ++ d.title := by
    rw [List.mem_append, not_or]
    exact ⟨by decide, newline_not_mem_of_unbroken hunbroken⟩
  unfold blocksOf wrap splitAtEach
  rw [List.append_assoc _ blankLine]
  generalize literal ['#', ' '] ++ d.title = heading at hnewline
  rw [splitMatches_append]
  · rw [splitMatches_of_match (by simp) (by decide), List.modifyHead_cons, List.append_nil]
    rfl
  · intro x y hxy hy
    -- no match begins inside the heading, which has no line break
    obtain ⟨c, y, rfl⟩ := List.exists_cons_of_ne_nil hy
    apply if_neg
    intro hmatch
    obtain ⟨rest, hrest⟩ := List.isPrefixOf_iff_prefix.mp hmatch
    have hhead : newline = c := (List.cons.inj hrest).1
    apply hnewline
    rw [hxy, hhead]
    exact List.mem_append_right _ List.mem_cons_self

theorem trim_decomposition (l : Text) :
    ∃ before after, l = before ++ trim isSpace l ++ after ∧ (∀ c ∈ before, isSpace c = true) ∧
      ∀ c ∈ after, isSpace c = true := by
  refine ⟨l.takeWhile isSpace, (l.dropWhile isSpace).rtakeWhile isSpace, ?_, ?_, ?_⟩
  · unfold trim
    rw [List.append_assoc, List.rdropWhile_append_rtakeWhile, List.takeWhile_append_dropWhile]
  · exact fun c hc ↦ List.mem_takeWhile_imp hc
  · exact fun c hc ↦ List.mem_rtakeWhile_imp hc

/-- The synthetic heading without the spaces at its end. -/
theorem trim_title {title : Text} (h : InLine title) :
    ∃ before, (∀ c ∈ before, isSpace c = true) ∧
      trim isSpace (literal ['#', ' '] ++ title) =
        literal ['#', ' '] ++ before ++ trim isSpace title := by
  obtain ⟨before, after, htitle, hbefore, hafter⟩ := trim_decomposition title
  refine ⟨before, hbefore, ?_⟩
  have hassoc : literal ['#', ' '] ++ title =
      (literal ['#', ' '] ++ before ++ trim isSpace title) ++ after := by
    conv_lhs => rw [htitle]
    simp only [List.append_assoc]
  rw [hassoc, trim_append_spaces hafter]
  apply Trimmed.trim_eq
  constructor
  · intro c hc
    obtain rfl : unit '#' = c := Option.some.inj hc
    decide
  · intro c hc
    rw [List.getLast?_append_of_ne_nil _ h.named] at hc
    exact (trimmed_trim title).2 c hc

theorem dropWhile_spaces {before rest : Text} (hbefore : ∀ c ∈ before, isSpace c = true)
    (hrest : ∀ c ∈ rest.head?, isSpace c = false) :
    (before ++ rest).dropWhile isSpace = rest := by
  rw [List.dropWhile_append_of_pos hbefore]
  exact dropWhile_eq_self hrest

theorem readBlock_title {title : Text} (h : InLine title) :
    readBlock (literal ['#', ' '] ++ title) = .title (trim isSpace title) := by
  have hline : ∀ c ∈ literal ['#', ' '] ++ title, (c != newline) = true := by
    intro c hc
    rcases List.mem_append.mp hc with hc | hc
    · exact List.all_eq_true.mp (by decide : (literal ['#', ' ']).all (· != newline) = true) c hc
    · have hbroken := h.unbroken c hc
      rw [bne_iff_ne]
      rintro rfl
      exact absurd hbroken (by decide)
  obtain ⟨before, hbefore, htrim⟩ := trim_title h
  have htrimmed : Trimmed isSpace (trim isSpace title) := trimmed_trim title
  have hspaces : ∀ c ∈ unit ' ' :: before, isSpace c = true := by
    intro c hc
    rcases List.mem_cons.mp hc with rfl | hc
    · decide
    · exact hbefore c hc
  have hheading : headingLine (literal ['#', ' '] ++ before ++ trim isSpace title) =
      some (1, trim isSpace title) := by
    have hshape : literal ['#', ' '] ++ before ++ trim isSpace title =
        unit '#' :: ((unit ' ' :: before) ++ trim isSpace title) := rfl
    rw [hshape]
    unfold headingLine
    rw [List.takeWhile_cons_of_pos (by decide), List.cons_append,
      List.takeWhile_cons_of_neg (by decide)]
    have hspaced : (unit '#' :: ((unit ' ' :: before) ++ trim isSpace title)).drop 1 =
        (unit ' ' :: before) ++ trim isSpace title := rfl
    dsimp only [List.length_cons, List.length_nil]
    rw [← List.cons_append, Nat.zero_add, hspaced, dropWhile_spaces hspaces htrimmed.1, if_pos]
    refine ⟨rfl, List.all_eq_true.mpr fun c hc ↦ ?_⟩
    rw [h.unbroken c ((isInfix_trim title).subset hc)]
    rfl
  unfold readBlock bodyAfterHeading
  dsimp only
  rw [List.takeWhile_eq_self_iff.mpr hline, htrim, hheading, List.dropWhile_eq_nil_iff.mpr hline]
  dsimp only
  rw [if_pos rfl, List.drop_nil, if_neg fun hnot ↦ hnot rfl, htrimmed.trim_eq]

/-- The text under the label `Title` begins with the title, and its first line is the title. -/
theorem firstLine_title (h : InLine d.title) :
    (filedUnder d titleLabel).takeWhile (· != newline) = trim isSpace d.title := by
  have hruns : runsOf (wrap d) =
      (titleLabel, trim isSpace d.title) :: runsFrom detailsLabel [] (blocksOf d.body) := by
    unfold runsOf
    rw [blocksOf_wrap h.unbroken, runsFrom, readBlock_title h]
    rfl
  unfold filedUnder filed Filed.textsOf
  rw [hruns, List.filter_cons_of_pos (by simp), List.map_cons,
    List.dropWhile_cons_of_neg (by simp [h.named])]
  generalize ((runsFrom detailsLabel [] (blocksOf d.body)).filter _).map Prod.snd = rest
  have hline : ∀ c ∈ trim isSpace d.title, (c != newline) = true := by
    intro c hc
    have hbroken := h.unbroken c ((isInfix_trim d.title).subset hc)
    rw [bne_iff_ne]
    rintro rfl
    exact absurd hbroken (by decide)
  cases rest with
  | nil => exact List.takeWhile_eq_self_iff.mpr hline
  | cons next rest =>
      rw [joined, List.append_assoc, List.takeWhile_append_of_pos hline, blankLine, List.cons_append,
        List.takeWhile_cons_of_neg (by decide), List.append_nil]

/-! ## What is filed -/

/-- A title's text is what is glued to its heading, where there is something. -/
theorem title_of_glued {block heading : Text} (hread : readBlock block = .title heading)
    (hglued : bodyAfterHeading block ≠ []) : heading = bodyAfterHeading block := by
  unfold readBlock at hread
  dsimp only at hread
  cases hline : headingLine (trim isSpace (block.takeWhile (· != newline))) with
  | none =>
      rw [hline] at hread
      cases hread
  | some found =>
      rw [hline] at hread
      dsimp only at hread
      split at hread
      · exact (Block.title.inj hread).symm
      · split at hread <;> cases hread

theorem infix_closed (label : Text) {run : List Text} {text : Text} (h : text ∈ run) :
    ∃ entry ∈ (if run = [] then [] else [(label, joined blankLine run)]), text <:+: entry.2 := by
  rw [if_neg (List.ne_nil_of_mem h)]
  exact ⟨_, List.mem_singleton_self _, infix_joined h⟩

/-- No text of a block is left out of the runs. -/
theorem infix_runsFrom {text : Text} (blocks : List Text) (label : Text) (run : List Text)
    (h : text ∈ run ∨ ∃ block ∈ blocks, text ∈ plainText block) :
    ∃ entry ∈ runsFrom label run blocks, text <:+: entry.2 := by
  induction blocks generalizing label run with
  | nil =>
      rcases h with hrun | ⟨block, hblock, -⟩
      · exact infix_closed label hrun
      · cases hblock
  | cons block blocks ih =>
      rw [runsFrom]
      cases hread : readBlock block with
      | title heading =>
          dsimp only
          rcases h with hrun | ⟨block', hblock, htext⟩
          · obtain ⟨entry, hentry, hin⟩ := infix_closed label hrun
            exact ⟨entry, List.mem_append_left _ hentry, hin⟩
          · rcases List.mem_cons.mp hblock with rfl | hblock
            · -- what is glued to a title is filed in its place
              unfold plainText at htext
              rw [hread] at htext
              dsimp only at htext
              split at htext
              · rename_i hglued
                obtain rfl := Option.some.inj htext
                have hheading : heading = bodyAfterHeading block' := title_of_glued hread hglued
                refine ⟨(titleLabel, heading), ?_, ?_⟩
                · exact List.mem_append_right _ List.mem_cons_self
                · exact hheading ▸ List.infix_refl _
              · cases htext
            · obtain ⟨entry, hentry, hin⟩ := ih detailsLabel [] (.inr ⟨block', hblock, htext⟩)
              exact ⟨entry, List.mem_append_right _ (List.mem_cons_of_mem _ hentry), hin⟩
      | heading label' rest =>
          dsimp only
          rcases h with hrun | ⟨block', hblock, htext⟩
          · obtain ⟨entry, hentry, hin⟩ := infix_closed label hrun
            exact ⟨entry, List.mem_append_left _ hentry, hin⟩
          · have hnext : text ∈ (if rest ≠ [] then [rest] else []) ∨
                ∃ block ∈ blocks, text ∈ plainText block := by
              rcases List.mem_cons.mp hblock with rfl | hblock
              · unfold plainText at htext
                rw [hread] at htext
                dsimp only at htext
                split at htext
                · rename_i hglued
                  obtain rfl := Option.some.inj htext
                  rw [if_pos hglued]
                  exact .inl (List.mem_singleton_self _)
                · cases htext
              · exact .inr ⟨block', hblock, htext⟩
            obtain ⟨entry, hentry, hin⟩ := ih label' _ hnext
            exact ⟨entry, List.mem_append_right _ hentry, hin⟩
      | text block' =>
          dsimp only
          apply ih
          rcases h with hrun | ⟨block'', hblock, htext⟩
          · exact .inl (List.mem_append_left _ hrun)
          · rcases List.mem_cons.mp hblock with rfl | hblock
            · unfold plainText at htext
              rw [hread] at htext
              obtain rfl := Option.some.inj htext
              exact .inl (List.mem_append_right _ (List.mem_singleton_self _))
            · exact .inr ⟨block'', hblock, htext⟩

/-- No text of a block that is not a heading, or that is glued to one, is dropped. -/
theorem infix_filedUnder {block text : Text} (hblock : block ∈ blocksOf (wrap d))
    (htext : text ∈ plainText block) : ∃ label, text <:+: filedUnder d label := by
  obtain ⟨⟨label, filedText⟩, hentry, hin⟩ :=
    infix_runsFrom (blocksOf (wrap d)) detailsLabel [] (.inr ⟨block, hblock, htext⟩)
  exact ⟨label, hin.trans (infix_filed hentry)⟩

/-- The title is named when it changed; two equal versions have no field; a version has none exactly
when it has the same text as the other under every label; and no text but that of headings is
dropped: each block that is no heading, and what is glued to a heading, is under some label. -/
theorem change_is_named (oldDoc newDoc : Document) (hold : InLine oldDoc.title)
    (hnew : InLine newDoc.title) :
    (trim isSpace oldDoc.title ≠ trim isSpace newDoc.title →
        titleLabel ∈ (fields oldDoc newDoc).map (·.label)) ∧
      (oldDoc.title = newDoc.title → oldDoc.body = newDoc.body → fields oldDoc newDoc = []) ∧
      (fields oldDoc newDoc = [] ↔ ∀ label, filedUnder oldDoc label = filedUnder newDoc label) ∧
      ∀ block ∈ blocksOf newDoc.body, ∀ text ∈ plainText block,
        ∃ label, text <:+: filedUnder newDoc label := by
  refine ⟨?_, ?_, fields_eq_nil_iff, ?_⟩
  · intro hdiffer
    rw [mem_labels_fields]
    intro hsame
    apply hdiffer
    rw [← firstLine_title hold, ← firstLine_title hnew, hsame]
  · intro htitle hbody
    have hwrap : wrap oldDoc = wrap newDoc := by
      unfold wrap
      rw [htitle]
      exact congrArg _ hbody
    rw [fields_eq_nil_iff]
    intro label
    unfold filedUnder
    rw [hwrap]
  · intro block hblock text htext
    refine infix_filedUnder ?_ htext
    rw [blocksOf_wrap hnew.unbroken]
    exact List.mem_cons_of_mem _ hblock

/-- A document that is given a new title, and a first block. -/
theorem renamed_change_is_named :
    titleLabel ∈ (fields ⟨[unit 'T'], none⟩ ⟨[unit 'U'], some [unit 'x']⟩).map (·.label) ∧
      ∃ label, [unit 'x'] <:+: filedUnder ⟨[unit 'U'], some [unit 'x']⟩ label := by
  have h := change_is_named ⟨[unit 'T'], none⟩ ⟨[unit 'U'], some [unit 'x']⟩ (by decide) (by decide)
  refine ⟨h.1 (by decide), ?_⟩
  exact h.2.2.2 [unit 'x'] (by decide) [unit 'x'] (by decide)

end Tesbo.TextDiff
