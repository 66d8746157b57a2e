import Tesbo.Schema
import Tesbo.Text
import Tesbo.Reasoning.Sections
import Tesbo.Reasoning.Service

/-!
# The memory of Zyra

One document keeps what Zyra remembers, an entry under each heading with a timestamp, in free text.
People replace or remove single entries of it: the text is read, changed and written.
-/

namespace Tesbo.ZyraMemory

open Reasoning

/-! ## Headings -/

/-- A date and a time, with 0 for any digit. -/
def timestampShape : List Char := "0000-00-00T00:00:00".toList

def fits (shape c : Char) : Bool := if shape = '0' then c.isDigit else c = shape

/-- `Z`, or a fraction of a second and `Z`. -/
def endsTimestamp : List Char → Bool
  | ['Z'] => true
  | '.' :: fraction =>
      fraction.takeWhile Char.isDigit ≠ [] && fraction.dropWhile Char.isDigit = ['Z']
  | _ => false

/-- `\d{4}-\d{2}-\d{2}T\d{2}:\d{2}:\d{2}(?:\.\d+)?Z` -/
def isTimestamp (cs : List Char) : Bool :=
  timestampShape.length ≤ cs.length && (timestampShape.zip cs).all (fun e ↦ fits e.1 e.2) &&
    endsTimestamp (cs.drop timestampShape.length)

/-- `ZYRA_MEMORY_ENTRY_HEADING_RE`: two signs, space, the timestamp, with nothing else but space. -/
def headingTimestamp : List Char → Option String
  | '#' :: '#' :: c :: rest =>
      if jsSpace c && isTimestamp (trimChars rest) then some (String.ofList (trimChars rest))
      else none
  | _ => none

def headingLine (id : String) : List Char := '#' :: '#' :: ' ' :: id.toList

/-! ## The text -/

/-- The text above the first heading, and the entries by their timestamps. -/
abbrev Memory := Sections Char String

def parseZyraMemory (text : Option String) : Memory :=
  parse jsSpace '\n' headingTimestamp (text.getD "").toList

def serializeZyraMemory (memory : Memory) : String :=
  String.ofList (serialize jsSpace '\n' headingLine memory)

def entryMaxLength : ℤ := 2500

/-- `ZYRA_MEMORY_UNSTRUCTURED_ID` -/
def unstructuredId : String := "unstructured"

/-- The note as it will be stored, `none` for a removal. -/
def acceptNote (id : String) : Option String → Except Failure (Option (List Char))
  | none => .ok none
  | some note =>
      let nextNote := jsTrim note
      let max := entryMaxLength - jsLength s!"## {id}\n"
      if nextNote = "" then
        .error (.badRequest "A memory entry can't be empty — remove it instead.")
      else if max < jsLength nextNote then
        .error (.badRequest s!"A memory entry must be at most {max} characters.")
      else if (nextNote.toList.splitOn '\n').any fun line ↦
          (headingTimestamp (trimChars line)).isSome then
        .error (.badRequest "A memory entry can't contain a timestamp heading line.")
      else .ok (some nextNote.toList)

/-- The entry, the first one of its id, replaced or removed. -/
def changeEntry (id : String) (note : Option (List Char)) (memory : Memory) :
    Except Failure Memory :=
  if id = unstructuredId then
    if memory.front = [] then .error (.notFound "Memory entry not found")
    else .ok { memory with front := note.getD [] }
  else match memory.entries.findIdx? fun e ↦ e.1 = id with
    | none => .error (.notFound "Memory entry not found")
    | some index => .ok { memory with
        entries := match note with
          | none => memory.entries.eraseIdx index
          | some note => memory.entries.set index (id, note) }

/-- The text `writeZyraMemoryEntry` stores in the place of the one it reads under the lock. -/
def writeZyraMemoryEntry (id : String) (note contentText : Option String) :
    Except Failure String := do
  let nextNote ← acceptNote id note
  let memory ← changeEntry id nextNote (parseZyraMemory contentText)
  pure (serializeZyraMemory memory)

/-- The entry of the id, the first one, has the note or is gone, and nothing else is changed. -/
def OneChange (id : String) (note : Option (List Char)) (memory memory' : Memory) : Prop :=
  if id = unstructuredId then
    memory.front ≠ [] ∧ memory' = ⟨note.getD [], memory.entries⟩
  else ∃ before old after, memory.entries = before ++ (id, old) :: after ∧
    (∀ e ∈ before, e.1 ≠ id) ∧
      memory' = ⟨memory.front, before ++ (note.map fun note ↦ (id, note)).toList ++ after⟩

/-! ## Timestamps stand in headings -/

theorem not_space_of_isDigit {c : Char} (h : c.isDigit = true) : jsSpace c = false := by
  unfold Char.isDigit at h
  simp only [Bool.and_eq_true, decide_eq_true_eq] at h
  have hlow : 48 ≤ c.toNat := h.1
  have hhigh : c.toNat ≤ 57 := h.2
  unfold jsSpace
  simp
  omega

theorem not_space_of_fits {shape c : Char} (hshape : jsSpace shape = false)
    (h : fits shape c = true) : jsSpace c = false := by
  unfold fits at h
  split at h
  · exact not_space_of_isDigit h
  · rw [of_decide_eq_true h]
    exact hshape

theorem not_space_of_endsTimestamp {cs : List Char} (h : endsTimestamp cs = true) :
    ∀ c ∈ cs, jsSpace c = false := by
  unfold endsTimestamp at h
  split at h
  · decide
  · rename_i fraction
    rw [Bool.and_eq_true] at h
    have hend : fraction.dropWhile Char.isDigit = ['Z'] := of_decide_eq_true h.2
    intro c hc
    rcases List.mem_cons.mp hc with rfl | hc
    · decide
    · rw [← List.takeWhile_append_dropWhile (p := Char.isDigit) (l := fraction), hend] at hc
      rcases List.mem_append.mp hc with hc | hc
      · exact not_space_of_isDigit (List.mem_takeWhile_imp hc)
      · rw [List.mem_singleton.mp hc]
        decide
  · cases h

/-- A timestamp is not empty and has no space in it. -/
theorem solid_of_isTimestamp {cs : List Char} (h : isTimestamp cs = true) :
    cs ≠ [] ∧ ∀ c ∈ cs, jsSpace c = false := by
  unfold isTimestamp at h
  rw [Bool.and_eq_true, Bool.and_eq_true] at h
  obtain ⟨⟨hlength, hall⟩, hend⟩ := h
  have hlength : timestampShape.length ≤ cs.length := of_decide_eq_true hlength
  constructor
  · rintro rfl
    exact absurd hlength (by decide)
  · intro c hc
    rw [← List.take_append_drop timestampShape.length cs] at hc
    rcases List.mem_append.mp hc with hc | hc
    · obtain ⟨i, hi, rfl⟩ := List.getElem_of_mem hc
      rw [List.length_take, Nat.lt_min] at hi
      rw [List.getElem_take]
      have hmem : (timestampShape[i], cs[i]) ∈ timestampShape.zip cs := by
        have hzip : i < (timestampShape.zip cs).length := by
          rw [List.length_zip]
          exact Nat.lt_min.mpr hi
        have hpair : (timestampShape.zip cs)[i] = (timestampShape[i], cs[i]) := List.getElem_zip
        rw [← hpair]
        exact List.getElem_mem hzip
      have hshape : ∀ shape ∈ timestampShape, jsSpace shape = false := by decide
      exact not_space_of_fits (hshape _ (List.getElem_mem hi.1)) (List.all_eq_true.mp hall _ hmem)
    · exact not_space_of_endsTimestamp hend c hc

/-- What is taken from a heading is a timestamp. -/
theorem isTimestamp_of_heading {line : List Char} {id : String}
    (h : headingTimestamp line = some id) : isTimestamp id.toList = true := by
  unfold headingTimestamp at h
  split at h
  · split at h
    · rename_i hstamp
      rw [← Option.some.inj h, String.toList_ofList]
      exact (Bool.and_eq_true _ _ ▸ hstamp).2
    · cases h
  · cases h

/-- The heading of a timestamp is read back. -/
theorem marked_of_isTimestamp {id : String} (h : isTimestamp id.toList = true) :
    Marked jsSpace '\n' headingTimestamp headingLine id := by
  obtain ⟨hne, hsolid⟩ := solid_of_isTimestamp h
  have htrim : trimChars id.toList = id.toList := (trimmed_of_solid hsolid).trim_eq
  have hline : Trimmed jsSpace (['#', '#'] ++ [' '] ++ id.toList) :=
    Trimmed.append (by decide) (trimmed_of_solid hsolid) (by decide) hne
  have hnewline : '\n' ∉ id.toList := fun hin ↦ absurd (hsolid _ hin) (by decide)
  refine ⟨hline, List.cons_ne_nil _ _, ?_, ?_⟩
  · simp [headingLine, hnewline]
  · show (if jsSpace ' ' && isTimestamp (trimChars id.toList)
      then some (String.ofList (trimChars id.toList)) else none) = some id
    rw [htrim, h, String.ofList_toList]
    rfl

/-! ## Reading, changing and writing -/

/-- Trimmed texts without headings, under timestamps. -/
abbrev Sound (memory : Memory) : Prop :=
  WellFormed jsSpace '\n' headingTimestamp headingLine memory

theorem sound_parseZyraMemory (text : Option String) : Sound (parseZyraMemory text) :=
  wellFormed_parse rfl (fun _ _ h ↦ marked_of_isTimestamp (isTimestamp_of_heading h)) _

theorem parse_serializeZyraMemory {memory : Memory} (h : Sound memory) :
    parseZyraMemory (some (serializeZyraMemory memory)) = memory := by
  unfold parseZyraMemory serializeZyraMemory
  rw [Option.getD_some, String.toList_ofList]
  exact parse_serialize (by decide) rfl h

/-- A note that is accepted is trimmed and has no heading in it. -/
theorem acceptNote_eq_ok {id : String} {note : Option String} {nextNote : Option (List Char)}
    (h : acceptNote id note = .ok nextNote) :
    nextNote = note.map (fun note ↦ (jsTrim note).toList) ∧
      ∀ text ∈ nextNote, Trimmed jsSpace text ∧ Plain jsSpace '\n' headingTimestamp text := by
  cases note with
  | none =>
      cases h
      exact ⟨rfl, fun _ h ↦ by cases h⟩
  | some note =>
      unfold acceptNote at h
      dsimp only at h
      split at h
      · cases h
      · split at h
        · cases h
        · split at h
          · cases h
          · rename_i hplain
            cases h
            refine ⟨rfl, fun text htext ↦ ?_⟩
            obtain rfl := Option.some.inj htext
            refine ⟨trimmed_jsTrim note, fun line hline ↦ ?_⟩
            by_contra hheading
            apply hplain
            rw [List.any_eq_true]
            exact ⟨line, hline, Option.isSome_iff_ne_none.mpr hheading⟩

/-- A change that is carried out changes the one entry, and leaves a memory that can be written. -/
theorem changeEntry_eq_ok {id : String} {note : Option (List Char)} {memory memory' : Memory}
    (h : changeEntry id note memory = .ok memory') (hsound : Sound memory)
    (hnote : ∀ text ∈ note, Trimmed jsSpace text ∧ Plain jsSpace '\n' headingTimestamp text) :
    OneChange id note memory memory' ∧ Sound memory' := by
  unfold changeEntry at h
  unfold OneChange
  split at h
  · rename_i hid
    rw [if_pos hid]
    split at h
    · cases h
    · rename_i hfront
      cases h
      refine ⟨⟨hfront, rfl⟩, ?_, hsound.entries⟩
      cases note with
      | none =>
          refine ⟨Trimmed.nil, fun line hline ↦ ?_⟩
          rw [Option.getD_none, List.splitOn_nil, List.mem_singleton] at hline
          rw [hline]
          rfl
      | some text => exact hnote text rfl
  · rename_i hid
    rw [if_neg hid]
    cases hfind : memory.entries.findIdx? fun e ↦ e.1 = id with
    | none =>
        rw [hfind] at h
        cases h
    | some index =>
        rw [hfind] at h
        obtain ⟨hlt, hfound, hfirst⟩ := List.findIdx?_eq_some_iff_getElem.mp hfind
        have hentry : memory.entries[index].1 = id := of_decide_eq_true hfound
        have hsplit : memory.entries = memory.entries.take index ++
            (id, memory.entries[index].2) :: memory.entries.drop (index + 1) := by
          rw [← hentry, Prod.mk.eta, List.cons_getElem_drop_succ, List.take_append_drop]
        have hbefore : ∀ e ∈ memory.entries.take index, e.1 ≠ id := by
          intro e he
          obtain ⟨j, hj, rfl⟩ := List.getElem_of_mem he
          rw [List.length_take, Nat.lt_min] at hj
          rw [List.getElem_take]
          simpa using hfirst j hj.1
        cases h
        cases note with
        | none =>
            refine ⟨⟨_, _, _, hsplit, hbefore, ?_⟩, hsound.front, fun e he ↦
              hsound.entries e (List.mem_of_mem_eraseIdx he)⟩
            rw [Option.map_none, Option.toList_none, List.append_nil, List.eraseIdx_eq_take_drop_succ]
        | some text =>
            refine ⟨⟨_, _, _, hsplit, hbefore, ?_⟩, hsound.front, fun e he ↦ ?_⟩
            · rw [Option.map_some, Option.toList_some, List.append_assoc, List.singleton_append]
              show Sections.mk memory.front (memory.entries.set index (id, text)) = _
              rw [List.set_eq_take_append_cons_drop, if_pos hlt]
            · rcases List.mem_or_eq_of_mem_set he with he | rfl
              · exact hsound.entries e he
              · have hown := hsound.entries _ (List.getElem_mem hlt)
                rw [hentry] at hown
                exact ⟨hown.1, hnote text rfl⟩

/-- Memory that was read can be written and read again; and a text in which an entry was replaced or
removed reads as the memory with this one change. -/
theorem memory_reads_back :
    (∀ text, parseZyraMemory (some (serializeZyraMemory (parseZyraMemory text))) =
      parseZyraMemory text) ∧
    ∀ text id note next, writeZyraMemoryEntry id note text = .ok next →
      OneChange id (note.map fun note ↦ (jsTrim note).toList) (parseZyraMemory text)
        (parseZyraMemory (some next)) := by
  constructor
  · exact fun text ↦ parse_serializeZyraMemory (sound_parseZyraMemory text)
  · intro text id note next h
    unfold writeZyraMemoryEntry at h
    obtain ⟨nextNote, hnote, hrest⟩ := except_bind_eq_ok.mp h
    obtain ⟨memory', hchange, hnext⟩ := except_bind_eq_ok.mp hrest
    obtain ⟨hnextNote, hplain⟩ := acceptNote_eq_ok hnote
    obtain ⟨hone, hsound⟩ := changeEntry_eq_ok hchange (sound_parseZyraMemory text) hplain
    rw [hnextNote] at hone
    cases hnext
    rw [parse_serializeZyraMemory hsound]
    exact hone

end Tesbo.ZyraMemory
