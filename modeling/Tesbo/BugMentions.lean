import Tesbo.Text
import Mathlib.Data.List.Sort

/-!
# Mentions in a comment

The members whose name or address stands after an `@` of the text.  Labels are tried longest first,
and what one of them matched is blanked before the next is tried.
-/

namespace Tesbo.BugMentions

/-! ## Labels in a text -/

/-- UTF-16 code units of a character. -/
def utf16Width (c : Char) : ℕ := if c.toNat < 0x10000 then 1 else 2

/-- What the flags `i` and `u` of a regular expression rest on: which characters are letters, numbers
or `_`, and the simple case folding, which keeps a character in its plane. -/
class RegExpLetters where
  word : Char → Bool
  fold : Char → Char
  word_space : word ' ' = false
  utf16Width_eq : ∀ c d, fold c = fold d → utf16Width c = utf16Width d

section Pattern

variable [RegExpLetters]

open RegExpLetters

/-- `[^\p{L}\p{N}_.@]` -/
def leads (c : Char) : Bool := !(word c || c = '.' || c = '@')

/-- The same text in any case of letters. -/
def alike (a b : List Char) : Bool := a.map fold = b.map fold

/-- The label stands at the front, after an `@` and up to the end of a word. -/
def standsAt (label : List Char) : List Char → Bool
  | [] => false
  | c :: rest =>
      c = '@' && label.length ≤ rest.length && alike label (rest.take label.length) &&
        (rest.drop label.length).head?.all fun d ↦ !word d

/-- `pattern.test`: whether the label stands at an `@` that starts a word.  `lead` is whether the
character before leads a word. -/
def occurs (label : List Char) : Bool → List Char → Bool
  | _, [] => false
  | lead, c :: cs => (lead && standsAt label (c :: cs)) || occurs label (leads c) cs

/-- `replace(pattern, …)`, where `skip` characters more belong to a match: a match is replaced by a
space, and the last character of a match leads no other. -/
def blankOut (label : List Char) : Bool → ℕ → List Char → List Char
  | _, _, [] => []
  | _, skip + 1, _ :: cs => blankOut label false skip cs
  | lead, 0, c :: cs =>
      if (lead && standsAt label (c :: cs)) = true
      then ' ' :: blankOut label false label.length cs
      else c :: blankOut label (leads c) 0 cs

end Pattern

/-! ## The members -/

/-- A row of the query; the name is trimmed, and none when it is blank. -/
structure MemberRow where
  id : Uuid
  name : Option String
  email : String
deriving DecidableEq, Repr

structure Candidate where
  m : MemberRow
  label : String
deriving DecidableEq, Repr

structure Mentioned where
  id : Uuid
  name : String
deriving DecidableEq, Repr

/-- `[m.name, m.email].filter(label => !!label)` -/
def MemberRow.labels (m : MemberRow) : List String :=
  (m.name.toList ++ [m.email]).filter fun label ↦ label ≠ ""

/-- The longest labels first. -/
def candidates (members : List MemberRow) : List Candidate :=
  (members.flatMap fun m ↦ m.labels.map fun label ↦ ⟨m, label⟩).insertionSort
    fun a b ↦ jsLength b.label ≤ jsLength a.label

/-- `m.name || m.email` -/
def MemberRow.shown (m : MemberRow) : String := (m.name.filter fun name ↦ name ≠ "").getD m.email

/-- One turn of the loop, on what is left of the text and whom has been found. -/
def tryCandidate [RegExpLetters] (state : List Char × List Mentioned) (c : Candidate) :
    List Char × List Mentioned :=
  if occurs c.label.toList true state.1 then
    (blankOut c.label.toList true 0 state.1,
      if state.2.any fun found ↦ found.id = c.m.id then state.2
      else state.2 ++ [⟨c.m.id, c.m.shown⟩])
  else state

def bugCommentMentions [RegExpLetters] (members : List MemberRow) (text : String) :
    List Mentioned :=
  if '@' ∉ text.toList then []
  else ((candidates members).foldl tryCandidate (text.toList, [])).2

/-! ## Who is named -/

section Named

variable [RegExpLetters]

/-- The labels of a member, and of all members. -/
def labelsOf (members : List MemberRow) (id : Uuid) : Set (List Char) :=
  {label | ∃ m ∈ members, m.id = id ∧ ∃ text ∈ m.labels, label = text.toList}

def allLabels (members : List MemberRow) : Set (List Char) :=
  {label | ∃ m ∈ members, ∃ text ∈ m.labels, label = text.toList}

/-- The text so far ends where a word may start. -/
def WordStart (before : List Char) : Prop := ∀ c ∈ before.getLast?, leads c = true

/-- The label stands at this place, and no longer one does. -/
def LongestAt (labels : Set (List Char)) (label rest : List Char) : Prop :=
  standsAt label rest = true ∧
    ∀ label' ∈ labels, label.length < label'.length → standsAt label' rest = false

/-- At some `@` that starts a word the label names somebody. -/
def NamedBy (labels : Set (List Char)) (label text : List Char) : Prop :=
  ∃ before rest, text = before ++ rest ∧ WordStart before ∧ LongestAt labels label rest

def Named (members : List MemberRow) (text : String) (id : Uuid) : Prop :=
  ∃ label ∈ labelsOf members id, NamedBy (allLabels members) label text.toList

/-- The members found are those that are named, in whatever order the rows come. -/
def ReachesNamed (members : List MemberRow) (text : String) : Prop :=
  ∀ rows : List MemberRow, rows.Perm members → ∀ id,
    id ∈ (bugCommentMentions rows text).map Mentioned.id ↔ Named members text id

/-- Whoever is named is named by a label that is nobody else's. -/
def OwnLabels (members : List MemberRow) (text : String) : Prop :=
  ∀ id, Named members text id →
    ∃ label ∈ labelsOf members id, NamedBy (allLabels members) label text.toList ∧
      ∀ other, (∃ label' ∈ labelsOf members other, alike label' label = true) → other = id

/-! ## The pieces of a text -/

/-- Characters that name nobody, an `@` with the label that stands there, or the space left of it. -/
inductive Piece where
  | plain (cs : List Char)
  | mention (cs : List Char)
  | blanked (cs : List Char)

def Piece.now : Piece → List Char
  | plain cs => cs
  | mention cs => '@' :: cs
  | blanked _ => [' ']

def render (ps : List Piece) : List Char := ps.flatMap Piece.now

/-- Some of the mentions have been blanked. -/
def Blanks (ps ps' : List Piece) : Prop :=
  List.Forall₂ (fun p p' ↦ p' = p ∨ ∃ cs, p = .mention cs ∧ p' = .blanked cs) ps ps'

/-- No `@` among the characters that starts a word has the label. -/
def Quiet (label : List Char) : Bool → List Char → List Char → Prop
  | _, [], _ => True
  | lead, c :: cs, tail =>
      ¬ (lead = true ∧ standsAt label (c :: cs ++ tail) = true) ∧ Quiet label (leads c) cs tail

/-- Whether the last of the characters leads a word. -/
def leadAfter (lead : Bool) (cs : List Char) : Bool := cs.foldl (fun _ c ↦ leads c) lead

/-- A mention: at the start of a word there stand labels, the longest of them is as long as the
mention, blanking mentions that follow changes none of it, and no other label stands inside.  A
mention that follows directly is not alike. -/
structure Standing (labels : Set (List Char)) (starts : Bool) (cs : List Char) (ps : List Piece) :
    Prop where
  starts : starts = true
  named : ∃ label ∈ labels, alike label cs = true ∧ standsAt label ('@' :: cs ++ render ps) = true
  longest : ∀ label ∈ labels, standsAt label ('@' :: cs ++ render ps) = true →
    label.length ≤ cs.length
  steady : ∀ ps', Blanks ps ps' → ∀ label ∈ labels,
    standsAt label ('@' :: cs ++ render ps') = standsAt label ('@' :: cs ++ render ps)
  quiet : ∀ ps', Blanks ps ps' → ∀ label ∈ labels, Quiet label false cs (render ps')
  unlike : ∀ cs' ps', ps = .mention cs' :: ps' → alike cs cs' = false

/-- The pieces do not disturb each other: none of the labels stands at an `@` outside the mentions,
also where blanking a mention has made it start a word.  `starts` is whether a word starts here,
`may` whether one does once a mention is blanked. -/
def Isolated (labels : Set (List Char)) : Bool → Bool → List Piece → Prop
  | _, _, [] => True
  | starts, may, .plain cs :: ps =>
      cs ≠ [] ∧ (∀ ps', Blanks ps ps' → ∀ label ∈ labels, Quiet label may cs (render ps')) ∧
        Isolated labels (leadAfter starts cs) (leadAfter may cs) ps
  | starts, _, .mention cs :: ps =>
      Standing labels starts cs ps ∧ Isolated labels (leadAfter starts ('@' :: cs)) true ps
  | _, _, .blanked _ :: _ => False

/-- The text can be taken apart into mentions and characters that do not disturb each other. -/
def MentionsIsolated (members : List MemberRow) (text : String) : Prop :=
  ∃ ps, render ps = text.toList ∧ Isolated (allLabels members) true true ps

end Named

/-! ## Places in a text -/

section Places

variable [RegExpLetters]

/-- Something holds at a place where a word starts. -/
def Somewhere (P : List Char → Prop) : Bool → List Char → Prop
  | _, [] => False
  | lead, c :: cs => lead = true ∧ P (c :: cs) ∨ Somewhere P (leads c) cs

theorem occurs_iff {label : List Char} (lead : Bool) (text : List Char) :
    occurs label lead text = true ↔ Somewhere (fun rest ↦ standsAt label rest = true) lead text := by
  induction text generalizing lead with
  | nil => exact iff_of_false Bool.false_ne_true id
  | cons c cs ih =>
      rw [occurs, Bool.or_eq_true, Bool.and_eq_true, ih]
      rfl

theorem somewhere_iff {P : List Char → Prop} (lead : Bool) (text : List Char) :
    Somewhere P lead text ↔
      ∃ before rest, text = before ++ rest ∧ rest ≠ [] ∧ leadAfter lead before = true ∧ P rest := by
  induction text generalizing lead with
  | nil =>
      refine iff_of_false id ?_
      rintro ⟨before, rest, htext, hrest, -⟩
      exact hrest (List.append_eq_nil_iff.mp htext.symm).2
  | cons c cs ih =>
      rw [Somewhere, ih]
      constructor
      · rintro (⟨hlead, hP⟩ | ⟨before, rest, rfl, hrest, hlead, hP⟩)
        · exact ⟨[], c :: cs, rfl, List.cons_ne_nil c cs, hlead, hP⟩
        · exact ⟨c :: before, rest, rfl, hrest, hlead, hP⟩
      · rintro ⟨before, rest, htext, hrest, hlead, hP⟩
        cases before with
        | nil =>
            rw [List.nil_append] at htext
            rw [htext]
            exact .inl ⟨hlead, hP⟩
        | cons d before =>
            obtain ⟨rfl, rfl⟩ := List.cons.inj htext
            exact .inr ⟨before, rest, rfl, hrest, hlead, hP⟩

theorem leadAfter_concat (lead : Bool) (cs : List Char) (c : Char) :
    leadAfter lead (cs ++ [c]) = leads c := by
  unfold leadAfter
  rw [List.foldl_append]
  rfl

/-- After some characters it is only the last of them that counts. -/
theorem leadAfter_eq {cs : List Char} (hne : cs ≠ []) (lead lead' : Bool) :
    leadAfter lead cs = leadAfter lead' cs := by
  rw [← List.dropLast_concat_getLast hne, leadAfter_concat, leadAfter_concat]

theorem wordStart_iff (before : List Char) : WordStart before ↔ leadAfter true before = true := by
  unfold WordStart
  rcases List.eq_nil_or_concat before with rfl | ⟨cs, c, rfl⟩
  · exact iff_of_true (fun _ h ↦ nomatch h) rfl
  · rw [List.concat_eq_append, leadAfter_concat, List.getLast?_concat]
    simp

/-- A label names somebody just where it stands longest at the start of a word. -/
theorem namedBy_iff {labels : Set (List Char)} {label text : List Char} :
    NamedBy labels label text ↔ Somewhere (LongestAt labels label) true text := by
  rw [somewhere_iff]
  unfold NamedBy
  constructor
  · rintro ⟨before, rest, htext, hstart, hlongest⟩
    refine ⟨before, rest, htext, ?_, (wordStart_iff before).mp hstart, hlongest⟩
    rintro rfl
    cases hlongest.1
  · rintro ⟨before, rest, htext, -, hlead, hlongest⟩
    exact ⟨before, rest, htext, (wordStart_iff before).mpr hlead, hlongest⟩

theorem Quiet.mono {label cs tail : List Char} {lead lead' : Bool}
    (hlead : lead' = true → lead = true) (h : Quiet label lead cs tail) :
    Quiet label lead' cs tail := by
  cases cs with
  | nil => trivial
  | cons c cs => exact ⟨fun hstands ↦ h.1 ⟨hlead hstands.1, hstands.2⟩, h.2⟩

/-- Nothing that needs a label holds among quiet characters. -/
theorem somewhere_quiet {labels : Set (List Char)} {P : List Char → Prop} {lead : Bool}
    {cs tail : List Char} (hP : ∀ rest, P rest → ∃ label ∈ labels, standsAt label rest = true)
    (hquiet : ∀ label ∈ labels, Quiet label lead cs tail) :
    Somewhere P lead (cs ++ tail) ↔ Somewhere P (leadAfter lead cs) tail := by
  induction cs generalizing lead with
  | nil => exact Iff.rfl
  | cons c cs ih =>
      rw [List.cons_append, Somewhere, ih fun label hlabel ↦ (hquiet label hlabel).2]
      constructor
      · rintro (⟨hlead, hp⟩ | h)
        · obtain ⟨label, hlabel, hstands⟩ := hP _ hp
          exact absurd ⟨hlead, hstands⟩ (hquiet label hlabel).1
        · exact h
      · exact .inr

/-- Quiet characters are left as they are. -/
theorem blankOut_quiet {label cs tail : List Char} {lead : Bool} (h : Quiet label lead cs tail) :
    blankOut label lead 0 (cs ++ tail) = cs ++ blankOut label (leadAfter lead cs) 0 tail := by
  induction cs generalizing lead with
  | nil => rfl
  | cons c cs ih =>
      have hnot : ¬ (lead && standsAt label (c :: (cs ++ tail))) = true := by
        rw [Bool.and_eq_true]
        exact h.1
      rw [List.cons_append, blankOut, if_neg hnot, ih h.2]
      rfl

/-- The characters of a match are skipped. -/
theorem blankOut_skip (label cs tail : List Char) :
    blankOut label false cs.length (cs ++ tail) = blankOut label false 0 tail := by
  induction cs with
  | nil => rfl
  | cons c cs ih => exact ih

end Places

/-! ## Mentions among the pieces -/

section Mentions

variable [RegExpLetters] {labels : Set (List Char)}

/-- Something holds of a mention that has not been blanked, and of the pieces after it. -/
def AtMention (Q : List Char → List Piece → Prop) : List Piece → Prop
  | [] => False
  | .mention cs :: ps => Q cs ps ∨ AtMention Q ps
  | .plain _ :: ps => AtMention Q ps
  | .blanked _ :: ps => AtMention Q ps

theorem leads_at : leads '@' = false := by simp [leads]

theorem leads_space : leads ' ' = true := by simp [leads, RegExpLetters.word_space]

omit [RegExpLetters] in
theorem render_cons (p : Piece) (ps : List Piece) : render (p :: ps) = p.now ++ render ps := rfl

theorem standsAt_cons_of_ne {label cs : List Char} {c : Char} (hc : c ≠ '@') :
    standsAt label (c :: cs) = false := by
  simp [standsAt, hc]

/-- However many mentions have been blanked, labels stand at the mentions left and nowhere else. -/
theorem somewhere_render {P : List Char → Prop}
    (hP : ∀ rest, P rest → ∃ label ∈ labels, standsAt label rest = true) {ps ps' : List Piece}
    {starts may lead : Bool} (hiso : Isolated labels starts may ps) (hblanks : Blanks ps ps')
    (hstarts : starts = true → lead = true) (hmay : lead = true → may = true) :
    Somewhere P lead (render ps') ↔ AtMention (fun cs tail ↦ P ('@' :: cs ++ render tail)) ps' := by
  induction hblanks generalizing starts may lead with
  | nil => exact Iff.rfl
  | @cons p p' ps ps' hp htail ih =>
      cases p with
      | plain cs =>
          obtain rfl : p' = .plain cs := by
            rcases hp with hp | ⟨_, hp, _⟩
            · exact hp
            · cases hp
          obtain ⟨hne, hquiet, hiso⟩ := hiso
          have hlead := leadAfter_eq hne
          rw [render_cons]
          show Somewhere P lead (cs ++ render ps') ↔ _
          rw [somewhere_quiet hP fun label hlabel ↦ (hquiet ps' htail label hlabel).mono hmay]
          apply ih hiso
          · rw [hlead starts lead]
            exact id
          · rw [hlead may lead]
            exact id
      | mention cs =>
          obtain ⟨hstanding, hiso⟩ := hiso
          have htrue := hstarts hstanding.starts
          rcases hp with rfl | ⟨_, hp, rfl⟩
          · show (lead = true ∧ P ('@' :: (cs ++ render ps'))) ∨
              Somewhere P (leads '@') (cs ++ render ps') ↔ _
            rw [leads_at, somewhere_quiet hP (hstanding.quiet ps' htail)]
            have hrest := ih hiso (fun h ↦ h) (fun _ ↦ rfl)
            have hlead : leadAfter starts ('@' :: cs) = leadAfter false cs := by
              show leadAfter (leads '@') cs = _
              rw [leads_at]
            rw [hlead] at hrest
            rw [hrest]
            constructor
            · rintro (⟨-, h⟩ | h)
              · exact .inl h
              · exact .inr h
            · rintro (h | h)
              · exact .inl ⟨htrue, h⟩
              · exact .inr h
          · show (lead = true ∧ P (' ' :: render ps')) ∨ Somewhere P (leads ' ') (render ps') ↔ _
            rw [leads_space, ih hiso (fun _ ↦ rfl) (fun _ ↦ rfl)]
            constructor
            · rintro (⟨-, h⟩ | h)
              · obtain ⟨label, -, hstands⟩ := hP _ h
                rw [standsAt_cons_of_ne (by decide)] at hstands
                cases hstands
              · exact h
            · exact .inr
      | blanked cs => exact hiso.elim

end Mentions

/-! ## Labels that are alike -/

section Alike

variable [RegExpLetters] {a b c : List Char}

open RegExpLetters

theorem alike_iff : alike a b = true ↔ a.map fold = b.map fold := by
  unfold alike
  rw [decide_eq_true_eq]

theorem alike_comm : alike a b = alike b a := by
  rw [Bool.eq_iff_iff, alike_iff, alike_iff]
  exact eq_comm

theorem alike_congr (h : alike a b = true) (c : List Char) : alike a c = alike b c := by
  rw [Bool.eq_iff_iff, alike_iff, alike_iff, alike_iff.mp h]

theorem length_of_alike (h : alike a b = true) : a.length = b.length := by
  rw [← List.length_map fold, alike_iff.mp h, List.length_map]

/-- Labels that are alike stand at the same places. -/
theorem standsAt_congr (h : alike a b = true) (rest : List Char) :
    standsAt a rest = standsAt b rest := by
  cases rest with
  | nil => rfl
  | cons d rest =>
      unfold standsAt
      rw [length_of_alike h]
      simp only [alike_congr h]

def codeUnits (cs : List Char) : ℕ := (cs.map utf16Width).sum

omit [RegExpLetters] in
theorem jsLength_eq (s : String) : jsLength s = codeUnits s.toList := rfl

omit [RegExpLetters] in
theorem codeUnits_append (a b : List Char) : codeUnits (a ++ b) = codeUnits a + codeUnits b := by
  unfold codeUnits
  rw [List.map_append, List.sum_append]

omit [RegExpLetters] in
theorem utf16Width_pos (c : Char) : 0 < utf16Width c := by
  unfold utf16Width
  split <;> decide

theorem codeUnits_of_alike (h : alike a b = true) : codeUnits a = codeUnits b := by
  rw [alike_iff] at h
  induction a generalizing b with
  | nil =>
      obtain rfl : b = [] := List.map_eq_nil_iff.mp h.symm
      rfl
  | cons c a ih =>
      cases b with
      | nil => cases h
      | cons d b =>
          obtain ⟨hc, hcs⟩ := List.cons.inj h
          unfold codeUnits at *
          rw [List.map_cons, List.map_cons, List.sum_cons, List.sum_cons, utf16Width_eq c d hc, ih hcs]

/-- A text that begins another one, up to case, and is shorter has fewer code units. -/
theorem codeUnits_lt (h : alike a (b.take a.length) = true) (hlt : a.length < b.length) :
    codeUnits a < codeUnits b := by
  have hb : codeUnits b = codeUnits a + codeUnits (b.drop a.length) := by
    rw [codeUnits_of_alike h, ← codeUnits_append, List.take_append_drop]
  have hpos : 0 < codeUnits (b.drop a.length) := by
    cases hdrop : b.drop a.length with
    | nil => exact absurd (List.drop_eq_nil_iff.mp hdrop) (Nat.not_le.mpr hlt)
    | cons c cs =>
        unfold codeUnits
        rw [List.map_cons, List.sum_cons]
        exact Nat.add_pos_left (utf16Width_pos c) _
  omega

theorem standsAt_at {label rest : List Char} (h : standsAt label ('@' :: rest) = true) :
    alike label (rest.take label.length) = true := by
  unfold standsAt at h
  simp only [Bool.and_eq_true] at h
  exact h.1.2

end Alike

/-! ## What the loop has blanked -/

section Stages

variable [RegExpLetters] {labels : Set (List Char)}

/-- A mention is blanked once a label like it has been tried. -/
def stage (done : List Candidate) : Piece → Piece
  | .mention cs =>
      if done.any fun c ↦ alike c.label.toList cs then .blanked cs else .mention cs
  | .plain cs => .plain cs
  | .blanked cs => .blanked cs

theorem stage_done {done : List Candidate} {cs : List Char}
    (h : (done.any fun c ↦ alike c.label.toList cs) = true) :
    stage done (.mention cs) = .blanked cs := if_pos h

theorem stage_left {done : List Candidate} {cs : List Char}
    (h : (done.any fun c ↦ alike c.label.toList cs) = false) :
    stage done (.mention cs) = .mention cs := if_neg (Bool.eq_false_iff.mp h)

theorem blanks_stage (done : List Candidate) (ps : List Piece) :
    Blanks ps (ps.map (stage done)) := by
  unfold Blanks
  induction ps with
  | nil => exact .nil
  | cons p ps ih =>
      refine .cons ?_ ih
      cases p with
      | plain cs => exact .inl rfl
      | blanked cs => exact .inl rfl
      | mention cs =>
          cases h : done.any fun c ↦ alike c.label.toList cs with
          | true => exact .inr ⟨cs, rfl, stage_done h⟩
          | false => exact .inl (stage_left h)

/-- The labels that have more code units than this one have been tried. -/
def WiderDone (labels : Set (List Char)) (done : List Candidate) (label : List Char) : Prop :=
  ∀ label' ∈ labels, codeUnits label < codeUnits label' → ∃ d ∈ done, d.label.toList = label'

section Standing

variable {starts : Bool} {cs label : List Char} {ps ps' : List Piece} {done : List Candidate}

/-- A label like a mention stands at it. -/
theorem Standing.stands (h : Standing labels starts cs ps) (hblanks : Blanks ps ps')
    (halike : alike label cs = true) : standsAt label ('@' :: cs ++ render ps') = true := by
  obtain ⟨longest, hmem, hlongest, hstands⟩ := h.named
  have hsame : alike label longest = true := by
    rw [alike_congr halike, alike_comm]
    exact hlongest
  rw [standsAt_congr hsame, h.steady ps' hblanks longest hmem]
  exact hstands

/-- A label as long as a mention at which it stands is like it. -/
theorem alike_of_stands (h : standsAt label ('@' :: cs ++ render ps) = true)
    (hlength : label.length = cs.length) : alike label cs = true := by
  have hfront : alike label ((cs ++ render ps).take label.length) = true := standsAt_at h
  rwa [hlength, List.take_left] at hfront

/-- Once the wider labels have been tried, a label that stands at a mention is like it. -/
theorem Standing.alike_of_stands (h : Standing labels starts cs ps) (hblanks : Blanks ps ps')
    (hlabel : label ∈ labels) (hdone : WiderDone labels done label)
    (hleft : (done.any fun c ↦ alike c.label.toList cs) = false)
    (hstands : standsAt label ('@' :: cs ++ render ps') = true) : alike label cs = true := by
  rw [h.steady ps' hblanks label hlabel] at hstands
  have hle := h.longest label hlabel hstands
  rcases Nat.lt_or_eq_of_le hle with hlt | heq
  · -- the longest label is wider, so the mention would have been blanked
    obtain ⟨longest, hmem, hlongest, -⟩ := h.named
    have hbegins : alike label (cs.take label.length) = true := by
      have hfront : alike label ((cs ++ render ps).take label.length) = true :=
        standsAt_at hstands
      rwa [List.take_append_of_le_length hle] at hfront
    have hwider : codeUnits label < codeUnits longest := by
      rw [codeUnits_of_alike hlongest]
      exact codeUnits_lt hbegins hlt
    obtain ⟨d, hd, hdlabel⟩ := hdone longest hmem hwider
    rw [List.any_eq_false] at hleft
    exact absurd (hdlabel ▸ hlongest) (hleft d hd)
  · exact BugMentions.alike_of_stands hstands heq

end Standing

theorem starts_of_isolated {starts may : Bool} {cs : List Char} {ps : List Piece}
    (h : Isolated labels starts may (.mention cs :: ps)) : starts = true := h.1.starts

/-- Trying a label blanks the mentions that are like it and have been left. -/
theorem blankOut_stage {done : List Candidate} {c : Candidate} (hc : c.label.toList ∈ labels)
    (hdone : WiderDone labels done c.label.toList) {ps : List Piece} {starts may lead : Bool}
    (hiso : Isolated labels starts may ps) (hmay : lead = true → may = true)
    (hhead : lead = false →
      ∀ cs ps', ps = .mention cs :: ps' → alike c.label.toList cs = false) :
    blankOut c.label.toList lead 0 (render (ps.map (stage done))) =
      render (ps.map (stage (done ++ [c]))) := by
  induction ps generalizing starts may lead with
  | nil => rfl
  | cons p ps ih =>
      cases p with
      | blanked cs => exact hiso.elim
      | plain cs =>
          obtain ⟨hne, hquiet, hiso⟩ := hiso
          have hlead := leadAfter_eq hne
          show blankOut _ lead 0 (cs ++ render (ps.map (stage done))) = cs ++ _
          rw [blankOut_quiet ((hquiet _ (blanks_stage done ps) _ hc).mono hmay), ih hiso]
          · rfl
          · rw [hlead lead may]
            exact id
          · rintro hfalse cs' ps' rfl
            have hstart := starts_of_isolated hiso
            rw [hlead starts lead, hfalse] at hstart
            cases hstart
      | mention cs =>
          obtain ⟨hstanding, hiso⟩ := hiso
          have hblanks := blanks_stage done ps
          have hany : ((done ++ [c]).any fun d ↦ alike d.label.toList cs) =
              ((done.any fun d ↦ alike d.label.toList cs) || alike c.label.toList cs) := by
            simp
          rw [List.map_cons, List.map_cons]
          cases hleft : done.any fun d ↦ alike d.label.toList cs with
          | true =>
              rw [hleft, Bool.true_or] at hany
              rw [stage_done hleft, stage_done hany]
              show blankOut _ lead 0 (' ' :: render (ps.map (stage done))) = ' ' :: _
              have hnot : ¬ (lead && standsAt c.label.toList
                  (' ' :: render (ps.map (stage done)))) = true := by
                rw [standsAt_cons_of_ne (by decide), Bool.and_false]
                exact Bool.false_ne_true
              rw [blankOut, if_neg hnot, leads_space, ih hiso (fun _ ↦ rfl)]
              · rfl
              · exact fun h ↦ nomatch h
          | false =>
              rw [hleft, Bool.false_or] at hany
              rw [stage_left hleft]
              show blankOut _ lead 0 ('@' :: (cs ++ render (ps.map (stage done)))) = _
              cases hlike : alike c.label.toList cs with
              | true =>
                  have hlead : lead = true := by
                    by_contra h
                    rw [hhead (Bool.eq_false_iff.mpr h) cs ps rfl] at hlike
                    cases hlike
                  rw [stage_done (hany.trans hlike), blankOut, if_pos, length_of_alike hlike,
                    blankOut_skip, ih hiso]
                  · rfl
                  · exact fun h ↦ nomatch h
                  · rintro - cs' ps' rfl
                    rw [alike_congr hlike]
                    exact hstanding.unlike cs' ps' rfl
                  · rw [hlead, Bool.true_and]
                    exact hstanding.stands hblanks hlike
              | false =>
                  have hnot : ¬ (lead && standsAt c.label.toList
                      ('@' :: (cs ++ render (ps.map (stage done))))) = true := by
                    intro h
                    rw [Bool.and_eq_true] at h
                    rw [hstanding.alike_of_stands hblanks hc hdone hleft h.2] at hlike
                    cases hlike
                  have hstart : leadAfter starts ('@' :: cs) = leadAfter false cs := by
                    show leadAfter (leads '@') cs = _
                    rw [leads_at]
                  rw [stage_left (hany.trans hlike), blankOut, if_neg hnot, leads_at,
                    blankOut_quiet (hstanding.quiet _ hblanks _ hc), ih hiso (fun _ ↦ rfl)]
                  · rfl
                  · rintro hfalse cs' ps' rfl
                    have := starts_of_isolated hiso
                    rw [hstart, hfalse] at this
                    cases this

end Stages

/-! ## Whom the loop finds -/

section Loop

variable [RegExpLetters] {labels : Set (List Char)} {ps : List Piece}

/-- What holds of the mentions left, where it only depends on the mention. -/
theorem atMention_stage {done : List Candidate} {Q : List Char → List Piece → Prop}
    {R : List Char → Prop} {starts may : Bool} (hiso : Isolated labels starts may ps)
    (hQ : ∀ starts cs tail, Standing labels starts cs tail →
      (done.any fun c ↦ alike c.label.toList cs) = false →
      (Q cs (tail.map (stage done)) ↔ R cs)) :
    AtMention Q (ps.map (stage done)) ↔
      ∃ cs, .mention cs ∈ ps ∧ (done.any fun c ↦ alike c.label.toList cs) = false ∧ R cs := by
  induction ps generalizing starts may with
  | nil => exact iff_of_false id fun ⟨_, h, _⟩ ↦ List.not_mem_nil h
  | cons p ps ih =>
      cases p with
      | blanked cs => exact hiso.elim
      | plain cs =>
          rw [List.map_cons]
          show AtMention Q (ps.map (stage done)) ↔ _
          rw [ih hiso.2.2]
          simp
      | mention cs =>
          rw [List.map_cons]
          simp only [List.mem_cons, Piece.mention.injEq, or_and_right, exists_or, exists_eq_left]
          cases hleft : done.any fun c ↦ alike c.label.toList cs with
          | true =>
              rw [stage_done hleft]
              show AtMention Q (ps.map (stage done)) ↔ _
              rw [ih hiso.2]
              simp
          | false =>
              rw [stage_left hleft]
              show Q cs (ps.map (stage done)) ∨ AtMention Q (ps.map (stage done)) ↔ _
              rw [ih hiso.2, hQ starts cs ps hiso.1 hleft]
              simp

theorem occurs_stage {done : List Candidate} {label : List Char} (hlabel : label ∈ labels)
    (hdone : WiderDone labels done label) (hiso : Isolated labels true true ps) :
    occurs label true (render (ps.map (stage done))) = true ↔
      ∃ cs, .mention cs ∈ ps ∧ (done.any fun c ↦ alike c.label.toList cs) = false ∧
        alike label cs = true := by
  rw [occurs_iff, somewhere_render (fun rest h ↦ ⟨label, hlabel, h⟩) hiso (blanks_stage done ps)
    (fun _ ↦ rfl) (fun _ ↦ rfl)]
  apply atMention_stage hiso
  intro starts cs tail hstanding hleft
  constructor
  · exact hstanding.alike_of_stands (blanks_stage done tail) hlabel hdone hleft
  · exact hstanding.stands (blanks_stage done tail)

theorem map_stage_nil (ps : List Piece) : ps.map (stage []) = ps := by
  conv_rhs => rw [← List.map_id ps]
  apply List.map_congr_left
  intro p _
  cases p <;> rfl

/-- A label names somebody just where a mention is like it. -/
theorem namedBy_render {label : List Char} (hlabel : label ∈ labels)
    (hiso : Isolated labels true true ps) :
    NamedBy labels label (render ps) ↔ ∃ cs, .mention cs ∈ ps ∧ alike label cs = true := by
  have hblanks := blanks_stage [] ps
  rw [map_stage_nil] at hblanks
  rw [namedBy_iff, somewhere_render (fun rest h ↦ ⟨label, hlabel, h.1⟩) hiso hblanks
    (fun _ ↦ rfl) (fun _ ↦ rfl)]
  have hmentions : AtMention (fun cs tail ↦ LongestAt labels label ('@' :: cs ++ render tail))
      (ps.map (stage [])) ↔ ∃ cs, .mention cs ∈ ps ∧
        (([] : List Candidate).any fun c ↦ alike c.label.toList cs) = false ∧
        alike label cs = true := by
    apply atMention_stage hiso
    intro starts cs tail hstanding _
    rw [map_stage_nil]
    have htail := blanks_stage [] tail
    rw [map_stage_nil] at htail
    constructor
    · rintro ⟨hstands, hlongest⟩
      obtain ⟨longest, hmem, hlike, hstands'⟩ := hstanding.named
      apply alike_of_stands hstands
      apply le_antisymm (hstanding.longest label hlabel hstands)
      by_contra hlt
      rw [← length_of_alike hlike, Nat.not_le] at hlt
      rw [hlongest longest hmem hlt] at hstands'
      cases hstands'
    · intro hlike
      refine ⟨hstanding.stands htail hlike, fun label' hlabel' hlt ↦ ?_⟩
      by_contra hstands
      have hle := hstanding.longest label' hlabel' (Bool.eq_true_of_not_eq_false hstands)
      rw [← length_of_alike hlike] at hle
      exact absurd hlt (Nat.not_lt.mpr hle)
  rw [map_stage_nil] at hmentions
  rw [hmentions]
  simp

/-- The first of the candidates like a mention is this member. -/
def FoundBy (ps : List Piece) (done : List Candidate) (id : Uuid) : Prop :=
  ∃ cs, .mention cs ∈ ps ∧
    ∃ c, (done.find? fun c ↦ alike c.label.toList cs) = some c ∧ c.m.id = id

theorem foundBy_concat {done : List Candidate} {c : Candidate} {id : Uuid} :
    FoundBy ps (done ++ [c]) id ↔ FoundBy ps done id ∨ c.m.id = id ∧
      ∃ cs, .mention cs ∈ ps ∧ (done.any fun c ↦ alike c.label.toList cs) = false ∧
        alike c.label.toList cs = true := by
  have hnone (cs : List Char) : (done.find? fun c ↦ alike c.label.toList cs) = none ↔
      (done.any fun c ↦ alike c.label.toList cs) = false := by
    rw [List.find?_eq_none, List.any_eq_false]
  constructor
  · rintro ⟨cs, hcs, d, hfind, hid⟩
    rw [List.find?_append] at hfind
    cases hdone : done.find? fun c ↦ alike c.label.toList cs with
    | some e =>
        rw [hdone] at hfind
        rw [Option.some_or, Option.some.injEq] at hfind
        exact .inl ⟨cs, hcs, e, hdone, hfind ▸ hid⟩
    | none =>
        rw [hdone, Option.none_or, List.find?_singleton] at hfind
        split at hfind
        · rename_i hlike
          cases hfind
          exact .inr ⟨hid, cs, hcs, (hnone cs).mp hdone, hlike⟩
        · cases hfind
  · rintro (⟨cs, hcs, d, hfind, hid⟩ | ⟨hid, cs, hcs, hleft, hlike⟩)
    · refine ⟨cs, hcs, d, ?_, hid⟩
      rw [List.find?_append, hfind]
      rfl
    · refine ⟨cs, hcs, c, ?_, hid⟩
      rw [List.find?_append, (hnone cs).mpr hleft, Option.none_or, List.find?_singleton, hlike]
      rfl

omit [RegExpLetters] in
/-- Somebody who has been found is not added again. -/
theorem mem_addFound {found : List Mentioned} {m : Mentioned} {id : Uuid} :
    id ∈ (if found.any fun other ↦ other.id = m.id then found else found ++ [m]).map
        Mentioned.id ↔ id ∈ found.map Mentioned.id ∨ m.id = id := by
  split
  · rename_i hthere
    constructor
    · exact .inl
    · rintro (h | rfl)
      · exact h
      · obtain ⟨other, hother, hsame⟩ := List.any_eq_true.mp hthere
        exact List.mem_map.mpr ⟨other, hother, of_decide_eq_true hsame⟩
  · rw [List.map_append, List.mem_append, List.map_singleton, List.mem_singleton]
    exact or_congr_right eq_comm

/-- The loop finds, for each mention, the first candidate like it. -/
theorem mem_foldl_tryCandidate (hiso : Isolated labels true true ps) (todo done : List Candidate)
    (found : List Mentioned) (hlabels : ∀ c ∈ todo, c.label.toList ∈ labels)
    (hdone : ∀ before c after, todo = before ++ c :: after →
      WiderDone labels (done ++ before) c.label.toList)
    (hfound : ∀ id, id ∈ found.map Mentioned.id ↔ FoundBy ps done id) (id : Uuid) :
    id ∈ (todo.foldl tryCandidate (render (ps.map (stage done)), found)).2.map Mentioned.id ↔
      FoundBy ps (done ++ todo) id := by
  induction todo generalizing done found with
  | nil =>
      rw [List.append_nil]
      exact hfound id
  | cons c todo ih =>
      have hwider := hdone [] c todo rfl
      rw [List.append_nil] at hwider
      have hc := hlabels c List.mem_cons_self
      have hoccurs := occurs_stage hc hwider hiso
      have hrest : ∀ d ∈ todo, d.label.toList ∈ labels :=
        fun d hd ↦ hlabels d (List.mem_cons_of_mem c hd)
      have hlater : ∀ before d after, todo = before ++ d :: after →
          WiderDone labels (done ++ [c] ++ before) d.label.toList := by
        intro before d after htodo
        have := hdone (c :: before) d after (congrArg (List.cons c) htodo)
        rwa [List.append_cons] at this
      rw [List.foldl_cons, List.append_cons]
      by_cases hocc : occurs c.label.toList true (render (ps.map (stage done))) = true
      · have hstep : tryCandidate (render (ps.map (stage done)), found) c =
            (render (ps.map (stage (done ++ [c]))),
              if found.any fun other ↦ other.id = c.m.id then found
              else found ++ [⟨c.m.id, c.m.shown⟩]) := by
          rw [tryCandidate, if_pos hocc, blankOut_stage hc hwider hiso (fun _ ↦ rfl)]
          exact fun h ↦ nomatch h
        rw [hstep]
        apply ih (done ++ [c]) _ hrest hlater
        intro other
        rw [foundBy_concat, ← hfound other]
        have hadded := @mem_addFound found ⟨c.m.id, c.m.shown⟩ other
        exact hadded.trans (or_congr_right ⟨fun h ↦ ⟨h, hoccurs.mp hocc⟩, fun h ↦ h.1⟩)
      · have hnone : ¬ ∃ cs, .mention cs ∈ ps ∧
            (done.any fun c ↦ alike c.label.toList cs) = false ∧
            alike c.label.toList cs = true := mt hoccurs.mpr hocc
        have hsame : ps.map (stage done) = ps.map (stage (done ++ [c])) := by
          apply List.map_congr_left
          intro p hp
          cases p with
          | plain cs => rfl
          | blanked cs => rfl
          | mention cs =>
              cases hleft : done.any fun d ↦ alike d.label.toList cs with
              | true => rw [stage_done hleft, stage_done (by rw [List.any_append, hleft]; rfl)]
              | false =>
                  have hlike : alike c.label.toList cs = false :=
                    Bool.eq_false_iff.mpr fun h ↦ hnone ⟨cs, hp, hleft, h⟩
                  have hstill : ((done ++ [c]).any fun d ↦ alike d.label.toList cs) = false := by
                    rw [List.any_append, hleft, List.any_cons, hlike]
                    rfl
                  rw [stage_left hleft, stage_left hstill]
        rw [tryCandidate, if_neg hocc, hsame]
        apply ih (done ++ [c]) _ hrest hlater
        intro other
        rw [foundBy_concat, ← hfound other]
        constructor
        · exact .inl
        · rintro (h | ⟨-, h⟩)
          · exact h
          · exact absurd h hnone

end Loop

/-! ## The candidates -/

section Candidates

theorem mem_candidates {members : List MemberRow} {c : Candidate} :
    c ∈ candidates members ↔ c.m ∈ members ∧ c.label ∈ c.m.labels := by
  unfold candidates
  rw [List.mem_insertionSort, List.mem_flatMap]
  constructor
  · rintro ⟨m, hm, hc⟩
    obtain ⟨label, hlabel, rfl⟩ := List.mem_map.mp hc
    exact ⟨hm, hlabel⟩
  · rintro ⟨hm, hlabel⟩
    exact ⟨c.m, hm, List.mem_map.mpr ⟨c.label, hlabel, rfl⟩⟩

theorem pairwise_candidates (members : List MemberRow) :
    (candidates members).Pairwise fun a b ↦ jsLength b.label ≤ jsLength a.label := by
  have htotal : Std.Total fun a b : Candidate ↦ jsLength b.label ≤ jsLength a.label :=
    ⟨fun a b ↦ le_total (jsLength b.label) (jsLength a.label)⟩
  have htrans : IsTrans Candidate fun a b ↦ jsLength b.label ≤ jsLength a.label :=
    ⟨fun _ _ _ hab hbc ↦ hbc.trans hab⟩
  exact List.pairwise_insertionSort _ _

theorem label_mem_allLabels {members : List MemberRow} {c : Candidate}
    (hc : c ∈ candidates members) : c.label.toList ∈ allLabels members := by
  obtain ⟨hm, hlabel⟩ := mem_candidates.mp hc
  exact ⟨c.m, hm, c.label, hlabel, rfl⟩

/-- When a label is tried, the wider ones have been. -/
theorem widerDone_candidates {members : List MemberRow} {before after : List Candidate}
    {c : Candidate} (h : candidates members = before ++ c :: after) :
    WiderDone (allLabels members) before c.label.toList := by
  rintro _ ⟨m, hm, label, hlabel, rfl⟩ hwider
  have hmem : (⟨m, label⟩ : Candidate) ∈ before ++ c :: after :=
    h ▸ mem_candidates.mpr ⟨hm, hlabel⟩
  have hsorted := pairwise_candidates members
  rw [h, List.pairwise_append] at hsorted
  rcases List.mem_append.mp hmem with hbefore | hrest
  · exact ⟨⟨m, label⟩, hbefore, rfl⟩
  · rw [← jsLength_eq, ← jsLength_eq] at hwider
    rcases List.mem_cons.mp hrest with rfl | hafter
    · exact absurd hwider (Nat.lt_irrefl _)
    · have hle := (List.pairwise_cons.mp hsorted.2.1).1 _ hafter
      exact absurd hwider (Nat.not_lt.mpr hle)

theorem allLabels_perm {rows members : List MemberRow} (h : rows.Perm members) :
    allLabels rows = allLabels members := by
  ext label
  unfold allLabels
  simp only [Set.mem_ofPred_eq, h.mem_iff]

theorem labelsOf_subset {members : List MemberRow} {id : Uuid} {label : List Char}
    (h : label ∈ labelsOf members id) : label ∈ allLabels members := by
  obtain ⟨m, hm, -, text, htext, rfl⟩ := h
  exact ⟨m, hm, text, htext, rfl⟩

end Candidates

/-! ## Mentions that do not disturb each other -/

section Main

variable [RegExpLetters] {members rows : List MemberRow} {text : String} {ps : List Piece}

/-- The answer holds, for each mention, the first candidate like it. -/
theorem mem_bugCommentMentions (htext : render ps = text.toList)
    (hiso : Isolated (allLabels rows) true true ps) (id : Uuid) :
    id ∈ (bugCommentMentions rows text).map Mentioned.id ↔ FoundBy ps (candidates rows) id := by
  have hloop := mem_foldl_tryCandidate hiso (candidates rows) [] []
    (fun _ h ↦ label_mem_allLabels h) (fun _ _ _ h ↦ widerDone_candidates h)
    (fun other ↦ by simp [FoundBy]) id
  rw [map_stage_nil, htext, List.nil_append] at hloop
  unfold bugCommentMentions
  split
  · rename_i hat
    refine iff_of_false List.not_mem_nil ?_
    rintro ⟨cs, hcs, -⟩
    apply hat
    rw [← htext]
    exact List.mem_flatMap.mpr ⟨.mention cs, hcs, List.mem_cons_self⟩
  · exact hloop

theorem named_iff (htext : render ps = text.toList)
    (hiso : Isolated (allLabels members) true true ps) {id : Uuid} :
    Named members text id ↔
      ∃ cs, .mention cs ∈ ps ∧ ∃ label ∈ labelsOf members id, alike label cs = true := by
  unfold Named
  constructor
  · rintro ⟨label, hlabel, hnamed⟩
    rw [← htext, namedBy_render (labelsOf_subset hlabel) hiso] at hnamed
    obtain ⟨cs, hcs, hlike⟩ := hnamed
    exact ⟨cs, hcs, label, hlabel, hlike⟩
  · rintro ⟨cs, hcs, label, hlabel, hlike⟩
    refine ⟨label, hlabel, ?_⟩
    rw [← htext, namedBy_render (labelsOf_subset hlabel) hiso]
    exact ⟨cs, hcs, hlike⟩

/-- Candidates like a mention come in the order of the rows. -/
theorem filter_candidates (rows : List MemberRow) (cs : List Char) :
    (candidates rows).filter (fun c ↦ alike c.label.toList cs) =
      (rows.flatMap fun m ↦ m.labels.map fun label ↦ (⟨m, label⟩ : Candidate)).filter
        fun c ↦ alike c.label.toList cs := by
  unfold candidates
  generalize rows.flatMap _ = all
  have hsame : (all.filter fun c ↦ alike c.label.toList cs).Pairwise
      fun a b ↦ jsLength b.label ≤ jsLength a.label := by
    apply List.pairwise_of_forall_mem_list
    intro a ha b hb
    have hlike := (List.mem_filter.mp ha).2
    have hlike' := (List.mem_filter.mp hb).2
    rw [jsLength_eq, jsLength_eq, codeUnits_of_alike hlike, codeUnits_of_alike hlike']
  have hsub := (List.sublist_insertionSort hsame List.filter_sublist).filter
    fun c ↦ alike c.label.toList cs
  rw [List.filter_filter] at hsub
  simp only [Bool.and_self] at hsub
  refine (hsub.eq_of_length ?_).symm
  exact ((List.perm_insertionSort _ all).filter _).length_eq.symm

/-- Where the mentions do not disturb each other, the members found are those that are named, just
where whoever is named is named by a label that is nobody else's. -/
theorem reachesNamed_iff (members : List MemberRow) (text : String)
    (hisolated : MentionsIsolated members text) :
    ReachesNamed members text ↔ OwnLabels members text := by
  obtain ⟨ps, htext, hiso⟩ := hisolated
  constructor
  · intro hreaches id hnamed
    -- with the rows of the member last, another one with the same label would be found instead
    have hperm : (members.filter (fun m ↦ !decide (m.id = id)) ++
        members.filter fun m ↦ decide (m.id = id)).Perm members := by
      have := List.filter_append_perm (fun m : MemberRow ↦ !decide (m.id = id)) members
      simpa only [Bool.not_not] using this
    generalize hrows : (members.filter (fun m ↦ !decide (m.id = id)) ++
        members.filter fun m ↦ decide (m.id = id)) = rows at hperm
    have hisoRows : Isolated (allLabels rows) true true ps := by
      rw [allLabels_perm hperm]
      exact hiso
    have hfound := (hreaches rows hperm id).mpr hnamed
    rw [mem_bugCommentMentions htext hisoRows] at hfound
    obtain ⟨cs, hcs, c, hfind, hid⟩ := hfound
    have hlike : alike c.label.toList cs = true :=
      @List.find?_some _ (fun c : Candidate ↦ alike c.label.toList cs) c _ hfind
    obtain ⟨hm, hlabel⟩ := mem_candidates.mp (List.mem_of_find?_eq_some hfind)
    have hmine : c.label.toList ∈ labelsOf members id :=
      ⟨c.m, hperm.mem_iff.mp hm, hid, c.label, hlabel, rfl⟩
    refine ⟨c.label.toList, hmine, ?_, ?_⟩
    · rw [← htext, namedBy_render (labelsOf_subset hmine) hiso]
      exact ⟨cs, hcs, hlike⟩
    · rintro other ⟨_, ⟨m, hmem, hother, label, hl, rfl⟩, hlike'⟩
      by_contra hne
      have hcs : alike label.toList cs = true := by
        rw [alike_congr hlike', hlike]
      rw [← List.head?_filter, filter_candidates, ← hrows, List.flatMap_append,
        List.filter_append] at hfind
      have hfirst : (⟨m, label⟩ : Candidate) ∈ ((members.filter fun m ↦ !decide (m.id = id)).flatMap
          fun m ↦ m.labels.map fun label ↦ (⟨m, label⟩ : Candidate)).filter
          fun c ↦ alike c.label.toList cs := by
        rw [List.mem_filter, List.mem_flatMap]
        refine ⟨⟨m, ?_, List.mem_map.mpr ⟨label, hl, rfl⟩⟩, hcs⟩
        rw [List.mem_filter, hother]
        simpa using ⟨hmem, hne⟩
      rw [List.head?_append_of_ne_nil _ (List.ne_nil_of_mem hfirst)] at hfind
      have hc := List.mem_of_head? hfind
      obtain ⟨m', hm', hc'⟩ := List.mem_flatMap.mp (List.mem_of_mem_filter hc)
      obtain ⟨label', -, rfl⟩ := List.mem_map.mp hc'
      have hnot := (List.mem_filter.mp hm').2
      rw [decide_eq_true hid] at hnot
      cases hnot
  · intro hown rows hperm id
    have hisoRows : Isolated (allLabels rows) true true ps := by
      rw [allLabels_perm hperm]
      exact hiso
    rw [mem_bugCommentMentions htext hisoRows]
    constructor
    · rintro ⟨cs, hcs, c, hfind, rfl⟩
      have hc := List.mem_of_find?_eq_some hfind
      obtain ⟨hm, hlabel⟩ := mem_candidates.mp hc
      have hlike : alike c.label.toList cs = true :=
        @List.find?_some _ (fun c : Candidate ↦ alike c.label.toList cs) c _ hfind
      rw [named_iff htext hiso]
      exact ⟨cs, hcs, _, ⟨c.m, hperm.mem_iff.mp hm, rfl, c.label, hlabel, rfl⟩, hlike⟩
    · intro hnamed
      obtain ⟨label, hlabel, hby, hnobody⟩ := hown id hnamed
      rw [← htext, namedBy_render (labelsOf_subset hlabel) hiso] at hby
      obtain ⟨cs, hcs, hlike⟩ := hby
      obtain ⟨m, hm, rfl, text', htext', rfl⟩ := hlabel
      have hmine : (⟨m, text'⟩ : Candidate) ∈ candidates rows :=
        mem_candidates.mpr ⟨hperm.mem_iff.mpr hm, htext'⟩
      cases hfind : (candidates rows).find? fun c ↦ alike c.label.toList cs with
      | none => exact absurd hlike (List.find?_eq_none.mp hfind _ hmine)
      | some c =>
          have hlike' : alike c.label.toList cs = true :=
            @List.find?_some _ (fun c : Candidate ↦ alike c.label.toList cs) c _ hfind
          obtain ⟨hcm, hclabel⟩ := mem_candidates.mp (List.mem_of_find?_eq_some hfind)
          refine ⟨cs, hcs, c, hfind, hnobody c.m.id ?_⟩
          refine ⟨c.label.toList, ⟨c.m, hperm.mem_iff.mp hcm, rfl, c.label, hclabel, rfl⟩, ?_⟩
          rw [alike_congr hlike', alike_comm]
          exact hlike

end Main

/-! ## Three members -/

/-- Lower case letters of ASCII are one code unit, as upper case ones are. -/
theorem utf16Width_toLower (c : Char) : utf16Width c.toLower = utf16Width c := by
  unfold Char.toLower
  split
  · rename_i h
    have hle : c.val.toNat ≤ 90 := UInt32.le_iff_toNat_le.mp h.2
    have hlower : (c.val + ('a'.val - 'A'.val)).toNat < 0x10000 := by
      rw [UInt32.toNat_add]
      have : ('a'.val - 'A'.val).toNat = 32 := by decide
      omega
    have hupper : c.toNat < 0x10000 := by
      show c.val.toNat < 0x10000
      omega
    unfold utf16Width
    rw [if_pos hupper]
    exact if_pos hlower
  · rfl

/-- Letters of programs that only meet ASCII text. -/
@[reducible] def asciiLetters : RegExpLetters where
  word c := c.isAlphanum || c = '_'
  fold := Char.toLower
  word_space := by decide
  utf16Width_eq c d h := by rw [← utf16Width_toLower c, h, utf16Width_toLower d]

def ann : MemberRow := ⟨1, some "Ann Lee", "ann@x.io"⟩

def otherAnn : MemberRow := ⟨2, some "Ann Lee", "al@x.io"⟩

def bob : MemberRow := ⟨3, some "Bob", "bob@x.io"⟩

theorem quiet_of_no_at [RegExpLetters] {label cs tail : List Char} {lead : Bool}
    (h : '@' ∉ cs) : Quiet label lead cs tail := by
  induction cs generalizing lead with
  | nil => trivial
  | cons c cs ih =>
      rw [List.mem_cons, not_or] at h
      refine ⟨fun hstands ↦ ?_, ih h.2⟩
      have hfalse : standsAt label (c :: cs ++ tail) = false := standsAt_cons_of_ne (Ne.symm h.1)
      rw [hfalse] at hstands
      exact Bool.false_ne_true hstands.2

theorem mem_allLabels {members : List MemberRow} {label : List Char} :
    label ∈ allLabels members ↔
      label ∈ members.flatMap fun m ↦ m.labels.map String.toList := by
  unfold allLabels
  rw [Set.mem_ofPred_eq, List.mem_flatMap]
  constructor
  · rintro ⟨m, hm, text, htext, rfl⟩
    exact ⟨m, hm, List.mem_map_of_mem htext⟩
  · rintro ⟨m, hm, hlabel⟩
    obtain ⟨text, htext, rfl⟩ := List.mem_map.mp hlabel
    exact ⟨m, hm, text, htext, rfl⟩

/-- A comment that is nothing but a mention. -/
theorem reachesNamed_annLee :
    @ReachesNamed asciiLetters [ann, bob] "@Ann Lee" ↔
      @OwnLabels asciiLetters [ann, bob] "@Ann Lee" := by
  refine @reachesNamed_iff asciiLetters [ann, bob] "@Ann Lee"
    ⟨[.mention "Ann Lee".toList], by decide, ?_, trivial⟩
  have hnil : ∀ ps', Blanks [] ps' → ps' = [] := fun ps' h ↦ List.forall₂_nil_left_iff.mp h
  have hall : ∀ label ∈ [ann, bob].flatMap fun m ↦ m.labels.map String.toList,
      @standsAt asciiLetters label ('@' :: "Ann Lee".toList ++ render []) = true →
        label.length ≤ "Ann Lee".toList.length := by
    decide
  refine @Standing.mk asciiLetters _ _ _ _ ?_ ?_ ?_ ?_ ?_ ?_
  · rfl
  · exact ⟨"Ann Lee".toList, mem_allLabels.mpr (by decide), by decide, by decide⟩
  · exact fun label hlabel ↦ hall label (mem_allLabels.mp hlabel)
  · intro ps' hblanks label _
    rw [hnil ps' hblanks]
  · exact fun _ _ _ _ ↦ @quiet_of_no_at asciiLetters _ _ _ _ (by decide)
  · exact fun _ _ h ↦ nomatch h

/-- Of two members of one name only the first is found, and a name that directly follows a mention
is found though its `@` is within a word. -/
theorem not_reachesNamed_anns :
    ¬ @ReachesNamed asciiLetters [ann, otherAnn] "@Ann Lee" ∧
      ¬ @ReachesNamed asciiLetters [ann, bob] "@Ann Lee@Bob" := by
  constructor
  · intro h
    have hanswer : (@bugCommentMentions asciiLetters [ann, otherAnn] "@Ann Lee").map
        Mentioned.id = [1] := by decide +kernel
    have hnamed : @Named asciiLetters [ann, otherAnn] "@Ann Lee" 2 := by
      have hstart : @WordStart asciiLetters [] := fun _ h ↦ nomatch h
      have hmine : "Ann Lee".toList ∈ labelsOf [ann, otherAnn] 2 :=
        ⟨otherAnn, by decide, rfl, "Ann Lee", by decide, rfl⟩
      refine ⟨"Ann Lee".toList, hmine, [], "@Ann Lee".toList, rfl, hstart, by decide, ?_⟩
      intro label hlabel
      have hall : ∀ label ∈ [ann, otherAnn].flatMap fun m ↦ m.labels.map String.toList,
          "Ann Lee".toList.length < label.length →
            @standsAt asciiLetters label "@Ann Lee".toList = false := by
        decide
      exact hall label (mem_allLabels.mp hlabel)
    have hfound := (h _ (.refl _) 2).mpr hnamed
    rw [hanswer] at hfound
    exact absurd hfound (by decide)
  · intro h
    have hanswer : (@bugCommentMentions asciiLetters [ann, bob] "@Ann Lee@Bob").map
        Mentioned.id = [1, 3] := by decide +kernel
    have hfound : 3 ∈ (@bugCommentMentions asciiLetters [ann, bob] "@Ann Lee@Bob").map
        Mentioned.id := by
      rw [hanswer]
      decide
    obtain ⟨label, hlabel, hnamed⟩ := (h _ (.refl _) 3).mp hfound
    -- the second `@` is preceded by a letter, and neither label of the member stands at the first
    have hnowhere : ∀ label ∈ bob.labels.map String.toList,
        @occurs asciiLetters label true "@Ann Lee@Bob".toList = false := by
      decide
    obtain ⟨m, hm, hid, text, htext, rfl⟩ := hlabel
    have hbob : m = bob := by
      have hcases : ∀ m ∈ [ann, bob], m.id = 3 → m = bob := by decide
      exact hcases m hm hid
    subst hbob
    rw [@namedBy_iff asciiLetters, @somewhere_iff asciiLetters] at hnamed
    obtain ⟨before, rest, heq, hne, hlead, hlongest⟩ := hnamed
    have hoccurs : @occurs asciiLetters text.toList true "@Ann Lee@Bob".toList = true :=
      (@occurs_iff asciiLetters _ _ _).mpr
        ((@somewhere_iff asciiLetters _ _ _).mpr ⟨before, rest, heq, hne, hlead, hlongest.1⟩)
    rw [hnowhere _ (List.mem_map_of_mem htext)] at hoccurs
    cases hoccurs

end Tesbo.BugMentions
