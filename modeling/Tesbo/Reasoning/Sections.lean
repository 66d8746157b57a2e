import Mathlib.Data.List.ModifyLast
import Tesbo.Reasoning.Pieces

/-!
# Texts in sections

A text is read line by line: some lines head a section, and what follows up to the next heading is
the section's.  Sections are written under their headings with blank lines between them.  Reading
what was written gives it back, and reading any text gives something that can be written so.
-/

namespace Tesbo.Reasoning

variable {α β : Type} [DecidableEq α]

/-! ## Lines of a trimmed text -/

section Lines

variable {space : α → Bool} {newline : α}

/-- The lines of the end of a text are those of the text, the first one without its beginning. -/
theorem line_of_spaces_append {p y line : List α} (hp : ∀ c ∈ p, space c = true)
    (h : line ∈ y.splitOn newline) :
    ∃ line' ∈ (p ++ y).splitOn newline, trim space line' = trim space line := by
  induction p with
  | nil => exact ⟨line, h, rfl⟩
  | cons c p ih =>
      obtain ⟨line', hline', htrim⟩ := ih fun d hd ↦ hp d (List.mem_cons_of_mem c hd)
      rw [List.cons_append, List.splitOn_cons_eq_if_modifyHead]
      split
      · exact ⟨line', List.mem_cons_of_mem _ hline', htrim⟩
      · obtain ⟨first, rest, hsplit⟩ :=
          List.exists_cons_of_ne_nil (List.splitOn_ne_nil newline (p ++ y))
        rw [hsplit] at hline' ⊢
        rw [List.modifyHead_cons]
        rcases List.mem_cons.mp hline' with rfl | hrest
        · refine ⟨c :: line', List.mem_cons_self, ?_⟩
          rw [trim_cons_space (hp c List.mem_cons_self), htrim]
        · exact ⟨line', List.mem_cons_of_mem _ hrest, htrim⟩

omit [DecidableEq α] in
theorem trim_append_spaces {l s : List α} (hs : ∀ c ∈ s, space c = true) :
    trim space (l ++ s) = trim space l := by
  induction s using List.reverseRecOn with
  | nil => rw [List.append_nil]
  | append_singleton s c ih =>
      rw [← List.append_assoc, trim_concat_space (hs c (by simp))]
      exact ih fun d hd ↦ hs d (List.mem_append_left _ hd)

/-- The lines of the beginning of a text are those of the text, the last one without its end. -/
theorem lines_append_spaces {y s : List α} (hs : ∀ c ∈ s, space c = true) :
    ∃ first rest, (y ++ s).splitOn newline = first ++ rest ∧
      List.Forall₂ (fun line line' ↦ ∃ t, (∀ c ∈ t, space c = true) ∧ line' = line ++ t)
        (y.splitOn newline) first := by
  induction y with
  | nil =>
      obtain ⟨first, rest, hsplit⟩ := List.exists_cons_of_ne_nil (List.splitOn_ne_nil newline s)
      have hprefix : first <+: s := by
        have hjoin : [newline].intercalate (s.splitOn newline) = s := List.intercalate_splitOn newline
        rw [hsplit] at hjoin
        cases rest with
        | nil => exact ⟨[], by rw [← hjoin]; simp⟩
        | cons second rest =>
            exact ⟨_, by rw [← hjoin, List.intercalate_cons_cons, List.append_assoc]⟩
      refine ⟨[first], rest, hsplit, ?_⟩
      rw [List.splitOn_nil]
      exact .cons ⟨first, fun c hc ↦ hs c (List.IsPrefix.subset hprefix hc), rfl⟩ .nil
  | cons c y ih =>
      obtain ⟨first, rest, hsplit, hall⟩ := ih
      rw [List.cons_append, List.splitOn_cons_eq_if_modifyHead, List.splitOn_cons_eq_if_modifyHead,
        hsplit]
      split
      · exact ⟨[] :: first, rest, rfl, .cons ⟨[], fun c h ↦ absurd h List.not_mem_nil, rfl⟩ hall⟩
      · obtain ⟨line, lines, hlines⟩ :=
          List.exists_cons_of_ne_nil (List.splitOn_ne_nil newline y)
        rw [hlines] at hall ⊢
        cases hall with
        | cons hline hall =>
            obtain ⟨t, ht, rfl⟩ := hline
            exact ⟨_, rest, rfl, .cons ⟨t, ht, rfl⟩ hall⟩

theorem line_of_append_spaces {y s line : List α} (hs : ∀ c ∈ s, space c = true)
    (h : line ∈ y.splitOn newline) :
    ∃ line' ∈ (y ++ s).splitOn newline, trim space line' = trim space line := by
  obtain ⟨first, rest, hsplit, hall⟩ :=
    @lines_append_spaces α _ space newline y s hs
  obtain ⟨i, hi, rfl⟩ := List.getElem_of_mem h
  have hlt : i < first.length := hall.length_eq ▸ hi
  obtain ⟨t, ht, heq⟩ := hall.get hi hlt
  refine ⟨first[i], hsplit ▸ List.mem_append_left _ (List.getElem_mem hlt), ?_⟩
  simp only [List.get_eq_getElem] at heq
  rw [heq, trim_append_spaces ht]

/-- Each line of a trimmed text is one of the text's, but for space at its ends. -/
theorem line_of_trim {x line : List α} (h : line ∈ (trim space x).splitOn newline) :
    ∃ line' ∈ x.splitOn newline, trim space line' = trim space line := by
  have hsplit : x.takeWhile space ++ (trim space x ++ (x.dropWhile space).rtakeWhile space) = x := by
    rw [trim, List.rdropWhile_append_rtakeWhile, List.takeWhile_append_dropWhile]
  obtain ⟨line₁, h₁, htrim₁⟩ := line_of_append_spaces
    (s := (x.dropWhile space).rtakeWhile space) (fun c hc ↦ List.mem_rtakeWhile_imp hc) h
  obtain ⟨line₂, h₂, htrim₂⟩ := line_of_spaces_append
    (p := x.takeWhile space) (fun c hc ↦ List.mem_takeWhile_imp hc) h₁
  rw [hsplit] at h₂
  exact ⟨line₂, h₂, htrim₂.trans htrim₁⟩

end Lines

/-! ## Reading and writing -/

/-- A text in front of the first heading, and the sections in order. -/
structure Sections (α β : Type) where
  front : List α
  entries : List (β × List α)

section Text

variable (space : α → Bool) (newline : α) (heading : List α → Option β) (mark : β → List α)

/-- A line goes to the section last begun, or to the front; a heading begins the next one. -/
def pushLine (st : List (List α) × List (β × List (List α))) (line : List α) :
    List (List α) × List (β × List (List α)) :=
  match heading (trim space line) with
  | some id => (st.1, st.2 ++ [(id, [])])
  | none =>
      if st.2.isEmpty then (st.1 ++ [line], st.2)
      else (st.1, st.2.modifyLast fun e ↦ (e.1, e.2 ++ [line]))

/-- Lines as one text, trimmed. -/
def textOf (lines : List (List α)) : List α := trim space ([newline].intercalate lines)

def parse (text : List α) : Sections α β :=
  let (front, entries) := (text.splitOn newline).foldl (pushLine space heading) ([], [])
  ⟨textOf space newline front, entries.map fun e ↦ (e.1, textOf space newline e.2)⟩

def serialize (m : Sections α β) : List α :=
  [newline, newline].intercalate ((m.front :: m.entries.map fun e ↦
    trim space (mark e.1 ++ newline :: e.2)).filter fun text ↦ !text.isEmpty)

/-- No line of the text is a heading. -/
def Plain (text : List α) : Prop :=
  ∀ line ∈ text.splitOn newline, heading (trim space line) = none

/-- The heading of the id reads back. -/
structure Marked (id : β) : Prop where
  trimmed : Trimmed space (mark id)
  ne_nil : mark id ≠ []
  oneLine : newline ∉ mark id
  heading : heading (mark id) = some id

/-- Texts as they are read: trimmed and without headings. -/
structure WellFormed (m : Sections α β) : Prop where
  front : Trimmed space m.front ∧ Plain space newline heading m.front
  entries : ∀ e ∈ m.entries, Marked space newline heading mark e.1 ∧ Trimmed space e.2 ∧
    Plain space newline heading e.2

end Text

section RoundTrip

variable {space : α → Bool} {newline : α} {heading : List α → Option β} {mark : β → List α}

/-- The lines in front of the first heading, and those of each section. -/
def sectionsOf (space : α → Bool) (heading : List α → Option β) :
    List (List α) → List (List α) × List (β × List (List α))
  | [] => ([], [])
  | line :: lines =>
      match heading (trim space line) with
      | some id => ([], (id, (sectionsOf space heading lines).1) ::
          (sectionsOf space heading lines).2)
      | none => (line :: (sectionsOf space heading lines).1, (sectionsOf space heading lines).2)

omit [DecidableEq α] in
theorem sectionsOf_cons_heading {line : List α} {lines : List (List α)} {id : β}
    (h : heading (trim space line) = some id) :
    sectionsOf space heading (line :: lines) = ([], (id, (sectionsOf space heading lines).1) ::
      (sectionsOf space heading lines).2) := by
  rw [sectionsOf, h]

omit [DecidableEq α] in
theorem sectionsOf_cons_plain {line : List α} {lines : List (List α)}
    (h : heading (trim space line) = none) :
    sectionsOf space heading (line :: lines) =
      (line :: (sectionsOf space heading lines).1, (sectionsOf space heading lines).2) := by
  rw [sectionsOf, h]

omit [DecidableEq α] in
/-- Once a section is begun, lines up to the next heading go to its end. -/
theorem foldl_pushLine_begun (front : List (List α)) (entries : List (β × List (List α))) (id : β)
    (own lines : List (List α)) :
    lines.foldl (pushLine space heading) (front, entries ++ [(id, own)]) =
      (front, entries ++ (id, own ++ (sectionsOf space heading lines).1) ::
        (sectionsOf space heading lines).2) := by
  induction lines generalizing entries id own with
  | nil => simp [sectionsOf]
  | cons line lines ih =>
      rw [List.foldl_cons, pushLine]
      cases hline : heading (trim space line) with
      | some next =>
          rw [sectionsOf_cons_heading hline]
          dsimp only
          rw [ih, List.append_nil, List.nil_append, List.append_assoc, List.singleton_append]
      | none =>
          rw [sectionsOf_cons_plain hline]
          dsimp only
          rw [if_neg (by simp), List.modifyLast_concat, ih, List.append_assoc,
            List.singleton_append]

omit [DecidableEq α] in
theorem foldl_pushLine (front lines : List (List α)) :
    lines.foldl (pushLine space heading) (front, []) =
      (front ++ (sectionsOf space heading lines).1, (sectionsOf space heading lines).2) := by
  induction lines generalizing front with
  | nil => simp [sectionsOf]
  | cons line lines ih =>
      rw [List.foldl_cons, pushLine]
      cases hline : heading (trim space line) with
      | some id =>
          rw [sectionsOf_cons_heading hline]
          exact (foldl_pushLine_begun front [] id [] lines).trans (by simp)
      | none =>
          rw [sectionsOf_cons_plain hline]
          exact (ih (front ++ [line])).trans (by simp)

theorem parse_eq (text : List α) :
    parse space newline heading text =
      ⟨textOf space newline (sectionsOf space heading (text.splitOn newline)).1,
        (sectionsOf space heading (text.splitOn newline)).2.map fun e ↦
          (e.1, textOf space newline e.2)⟩ := by
  unfold parse
  rw [foldl_pushLine]
  rfl

/-! ## What is read can be written -/

omit [DecidableEq α] in
/-- What holds of every line holds of the lines of every section, and every id is that of a line. -/
theorem mem_sectionsOf {P : List α → Prop} {lines : List (List α)} (h : ∀ line ∈ lines, P line) :
    (∀ line ∈ (sectionsOf space heading lines).1, P line ∧ heading (trim space line) = none) ∧
      ∀ e ∈ (sectionsOf space heading lines).2,
        (∃ line, heading (trim space line) = some e.1) ∧
          ∀ line ∈ e.2, P line ∧ heading (trim space line) = none := by
  induction lines with
  | nil => exact ⟨fun _ h ↦ absurd h List.not_mem_nil, fun _ h ↦ absurd h List.not_mem_nil⟩
  | cons line lines ih =>
      obtain ⟨hfront, hentries⟩ := ih fun l hl ↦ h l (List.mem_cons_of_mem _ hl)
      cases hline : heading (trim space line) with
      | some id =>
          rw [sectionsOf_cons_heading hline]
          refine ⟨fun _ h ↦ absurd h List.not_mem_nil, fun e he ↦ ?_⟩
          rcases List.mem_cons.mp he with rfl | he
          · exact ⟨⟨line, hline⟩, hfront⟩
          · exact hentries e he
      | none =>
          rw [sectionsOf_cons_plain hline]
          refine ⟨fun l hl ↦ ?_, hentries⟩
          rcases List.mem_cons.mp hl with rfl | hl
          · exact ⟨h l List.mem_cons_self, hline⟩
          · exact hfront l hl

/-- Lines that are no headings make a trimmed text without headings. -/
theorem plain_textOf (hblank : heading [] = none) {lines : List (List α)}
    (h : ∀ line ∈ lines, newline ∉ line ∧ heading (trim space line) = none) :
    Plain space newline heading (textOf space newline lines) := by
  intro line hline
  obtain ⟨line', hline', htrim⟩ := line_of_trim hline
  rw [← htrim]
  by_cases hne : lines = []
  · subst hne
    rw [List.intercalate_nil, List.splitOn_nil, List.mem_singleton] at hline'
    rw [hline']
    exact hblank
  · rw [List.splitOn_intercalate newline (fun l hl ↦ (h l hl).1) hne] at hline'
    exact (h line' hline').2

theorem wellFormed_parse (hblank : heading [] = none)
    (hmark : ∀ line id, heading (trim space line) = some id → Marked space newline heading mark id)
    (text : List α) : WellFormed space newline heading mark (parse space newline heading text) := by
  have hlines : ∀ line ∈ text.splitOn newline, newline ∉ line := by
    intro line hline hin
    rw [List.splitOn_eq_splitOnP] at hline
    have hne := not_sep_of_mem_splitOnP hline newline hin
    simp at hne
  obtain ⟨hfront, hentries⟩ := @mem_sectionsOf α β space heading _ _ hlines
  rw [parse_eq]
  refine ⟨⟨trimmed_trim _, plain_textOf hblank hfront⟩, fun e he ↦ ?_⟩
  obtain ⟨own, hown, rfl⟩ := List.mem_map.mp he
  obtain ⟨⟨line, hline⟩, hown⟩ := hentries own hown
  exact ⟨hmark line own.1 hline, trimmed_trim _, plain_textOf hblank hown⟩

/-! ## What is written reads back -/

omit [DecidableEq α] in
/-- Lines without headings go to the text they stand in. -/
theorem sectionsOf_append_plain {own : List (List α)}
    (h : ∀ line ∈ own, heading (trim space line) = none) (lines : List (List α)) :
    sectionsOf space heading (own ++ lines) =
      (own ++ (sectionsOf space heading lines).1, (sectionsOf space heading lines).2) := by
  induction own with
  | nil => rfl
  | cons line own ih =>
      rw [List.cons_append, sectionsOf_cons_plain (h line List.mem_cons_self),
        ih fun l hl ↦ h l (List.mem_cons_of_mem _ hl)]
      rfl

/-- The lines a text is written in; an empty text is left out. -/
def linesOf (newline : α) (text : List α) : List (List α) :=
  if text = [] then [] else text.splitOn newline

theorem plain_linesOf (text : List α) (h : Plain space newline heading text) :
    ∀ line ∈ linesOf newline text, heading (trim space line) = none := by
  intro line hline
  unfold linesOf at hline
  split at hline
  · exact absurd hline List.not_mem_nil
  · exact h line hline

omit [DecidableEq α] in
theorem intercalate_concat_nil (glue : List α) {lines : List (List α)} (hne : lines ≠ []) :
    glue.intercalate (lines ++ [[]]) = glue.intercalate lines ++ glue := by
  induction lines with
  | nil => exact absurd rfl hne
  | cons line lines ih =>
      cases lines with
      | nil => simp
      | cons second lines =>
          rw [List.cons_append, List.cons_append, List.intercalate_cons_cons,
            List.intercalate_cons_cons, ← List.cons_append, ih (List.cons_ne_nil _ _)]
          simp only [List.append_assoc]

/-- A trimmed text is read back from its lines, also with a blank line after them. -/
theorem textOf_linesOf (hnewline : space newline = true) {text : List α}
    (h : Trimmed space text) :
    textOf space newline (linesOf newline text) = text ∧
      textOf space newline (linesOf newline text ++ [[]]) = text := by
  unfold linesOf textOf
  by_cases hne : text = []
  · subst hne
    rw [if_pos rfl]
    exact ⟨rfl, rfl⟩
  · rw [if_neg hne, intercalate_concat_nil _ (List.splitOn_ne_nil _ _), List.intercalate_splitOn]
    exact ⟨h.trim_eq, h.trim_append_spaces fun c hc ↦ List.mem_singleton.mp hc ▸ hnewline⟩

/-- A section as it is written. -/
def entryText (space : α → Bool) (newline : α) (mark : β → List α) (e : β × List α) : List α :=
  trim space (mark e.1 ++ newline :: e.2)

omit [DecidableEq α] in
theorem entryText_eq (hnewline : space newline = true) {e : β × List α}
    (hmark : Marked space newline heading mark e.1) (htext : Trimmed space e.2) :
    entryText space newline mark e =
      if e.2 = [] then mark e.1 else mark e.1 ++ newline :: e.2 := by
  unfold entryText
  by_cases hne : e.2 = []
  · rw [if_pos hne, hne]
    exact hmark.trimmed.trim_append_spaces fun c hc ↦ List.mem_singleton.mp hc ▸ hnewline
  · rw [if_neg hne]
    have hboth := hmark.trimmed.append (c := [newline]) htext hmark.ne_nil hne
    rw [List.append_assoc, List.singleton_append] at hboth
    exact hboth.trim_eq

/-- The lines of a section: its heading and those of its text. -/
theorem splitOn_entryText (hnewline : space newline = true) {e : β × List α}
    (hmark : Marked space newline heading mark e.1) (htext : Trimmed space e.2) :
    (entryText space newline mark e).splitOn newline = mark e.1 :: linesOf newline e.2 := by
  rw [entryText_eq hnewline hmark htext, linesOf]
  by_cases hne : e.2 = []
  · rw [if_pos hne, if_pos hne, List.splitOn_eq_singleton hmark.oneLine]
  · rw [if_neg hne, if_neg hne, List.splitOn_append_cons_self_of_not_mem hmark.oneLine]

omit [DecidableEq α] in
theorem entryText_ne_nil (hnewline : space newline = true) {e : β × List α}
    (hmark : Marked space newline heading mark e.1) (htext : Trimmed space e.2) :
    entryText space newline mark e ≠ [] := by
  rw [entryText_eq hnewline hmark htext]
  split
  · exact hmark.ne_nil
  · simp

/-- The lines of two texts with a blank line between them. -/
theorem splitOn_intercalate_cons_cons (a b : List α) (rest : List (List α)) :
    ([newline, newline].intercalate (a :: b :: rest)).splitOn newline =
      a.splitOn newline ++ [] :: ([newline, newline].intercalate (b :: rest)).splitOn newline := by
  rw [List.intercalate_cons_cons, List.append_assoc, List.cons_append, List.cons_append,
    List.nil_append, List.splitOn_append_cons_self, List.splitOn_cons_eq_if_modifyHead]
  simp

/-- Sections that are written one after the other are read back. -/
theorem sectionsOf_entries (hnewline : space newline = true) (hblank : heading [] = none)
    {entries : List (β × List α)} (hne : entries ≠ [])
    (h : ∀ e ∈ entries, Marked space newline heading mark e.1 ∧ Trimmed space e.2 ∧
      Plain space newline heading e.2) :
    let read := sectionsOf space heading (([newline, newline].intercalate
      (entries.map (entryText space newline mark))).splitOn newline)
    read.1 = [] ∧ read.2.map (fun e ↦ (e.1, textOf space newline e.2)) = entries := by
  induction entries with
  | nil => exact absurd rfl hne
  | cons e entries ih =>
      obtain ⟨hmark, htrim, hplain⟩ := h e List.mem_cons_self
      have hheading : heading (trim space (mark e.1)) = some e.1 := by
        rw [hmark.trimmed.trim_eq]
        exact hmark.heading
      obtain ⟨hread, hreadBlank⟩ := textOf_linesOf hnewline htrim
      cases entries with
      | nil =>
          rw [List.map_singleton, List.intercalate_singleton,
            splitOn_entryText hnewline hmark htrim]
          dsimp only
          rw [sectionsOf_cons_heading hheading, ← List.append_nil (linesOf newline e.2),
            sectionsOf_append_plain (plain_linesOf _ hplain)]
          simp only [sectionsOf, List.append_nil, hread, List.map_cons, List.map_nil, true_and]
      | cons second entries =>
          obtain ⟨hfront, hrest⟩ := ih (List.cons_ne_nil _ _) fun d hd ↦
            h d (List.mem_cons_of_mem _ hd)
          rw [List.map_cons, List.map_cons, splitOn_intercalate_cons_cons,
            splitOn_entryText hnewline hmark htrim, ← List.map_cons]
          generalize ([newline, newline].intercalate ((second :: entries).map
            (entryText space newline mark))).splitOn newline = lines at hfront hrest ⊢
          have hblankLine : heading (trim space ([] : List α)) = none := hblank
          have hown : sectionsOf space heading (linesOf newline e.2 ++ [] :: lines) =
              (linesOf newline e.2 ++ [[]], (sectionsOf space heading lines).2) := by
            rw [sectionsOf_append_plain (plain_linesOf _ hplain),
              sectionsOf_cons_plain hblankLine, hfront]
          dsimp only
          rw [List.cons_append, sectionsOf_cons_heading hheading, hown, List.map_cons, hrest,
            hreadBlank]
          exact ⟨rfl, rfl⟩

omit [DecidableEq α] in
/-- Only an empty front is left out of what is written. -/
theorem serialize_eq (m : Sections α β)
    (h : ∀ e ∈ m.entries, entryText space newline mark e ≠ []) :
    serialize space newline mark m = [newline, newline].intercalate
      ((if m.front = [] then [] else [m.front]) ++
        m.entries.map (entryText space newline mark)) := by
  have hentries : (m.entries.map (entryText space newline mark)).filter (fun text ↦ !text.isEmpty) =
      m.entries.map (entryText space newline mark) := by
    apply List.filter_eq_self.mpr
    intro text htext
    obtain ⟨e, he, rfl⟩ := List.mem_map.mp htext
    simpa using h e he
  show [newline, newline].intercalate ((m.front :: m.entries.map
    (entryText space newline mark)).filter fun text ↦ !text.isEmpty) = _
  by_cases hfront : m.front = []
  · rw [if_pos hfront, List.filter_cons_of_neg (by simp [hfront]), hentries]
    rfl
  · rw [if_neg hfront, List.filter_cons_of_pos (by simp [hfront]), hentries]
    rfl

/-- Sections that were written are read back. -/
theorem parse_serialize (hnewline : space newline = true) (hblank : heading [] = none)
    {m : Sections α β} (h : WellFormed space newline heading mark m) :
    parse space newline heading (serialize space newline mark m) = m := by
  obtain ⟨front, entries⟩ := m
  obtain ⟨⟨htrim, hplain⟩, hentries⟩ := h
  have hne : ∀ e ∈ entries, entryText space newline mark e ≠ [] := fun e he ↦
    entryText_ne_nil hnewline (hentries e he).1 (hentries e he).2.1
  have hblankLine : heading (trim space ([] : List α)) = none := hblank
  dsimp only at htrim hplain hentries
  obtain ⟨hread, hreadBlank⟩ := textOf_linesOf hnewline htrim
  rw [serialize_eq _ hne, parse_eq]
  dsimp only
  by_cases hfront : front = []
  · -- nothing stands in front
    subst hfront
    rw [if_pos rfl, List.nil_append]
    by_cases hnil : entries = []
    · subst hnil
      rw [List.map_nil, List.intercalate_nil, List.splitOn_nil, sectionsOf_cons_plain hblankLine]
      rfl
    · obtain ⟨hnone, hall⟩ := sectionsOf_entries hnewline hblank hnil hentries
      rw [hnone, hall]
      rfl
  · rw [if_neg hfront, List.singleton_append]
    have hlines : linesOf newline front = front.splitOn newline := if_neg hfront
    by_cases hnil : entries = []
    · -- there is nothing but the front
      subst hnil
      rw [List.map_nil, List.intercalate_singleton, ← hlines,
        ← List.append_nil (linesOf newline front),
        sectionsOf_append_plain (plain_linesOf _ hplain)]
      simp only [sectionsOf, List.append_nil, hread, List.map_nil]
    · obtain ⟨hnone, hall⟩ := sectionsOf_entries hnewline hblank hnil hentries
      obtain ⟨e, rest, rfl⟩ := List.exists_cons_of_ne_nil hnil
      rw [List.map_cons, splitOn_intercalate_cons_cons, ← List.map_cons, ← hlines,
        sectionsOf_append_plain (plain_linesOf _ hplain), sectionsOf_cons_plain hblankLine]
      dsimp only
      rw [hnone, hreadBlank, hall]

end RoundTrip

end Tesbo.Reasoning
