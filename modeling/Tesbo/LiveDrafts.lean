import Tesbo.DraftStream

/-!
# Live drafts and the final parse

Wherever the chunks of an answer are cut, the drafts handed on while it is streamed are the objects of
its `drafts` array as the final parse reads them.  They are numbered among themselves: a draft has the
place it has in the array as long as the array has only objects before it.
-/

namespace Tesbo.DraftStream

open Reasoning.JsonSyntax
open CodeUnits

/-! ## Chunks -/

theorem push_append (s : Parser) (a b : Text) :
    push s (a ++ b) = ((push (push s a).1 b).1, (push s a).2 ++ (push (push s a).1 b).2) := by
  induction a generalizing s with
  | nil => rfl
  | cons c a ih =>
      rw [List.cons_append, push, push, ih]
      dsimp only
      rw [List.append_assoc]

/-- It does not matter where the chunks are cut. -/
theorem feed_eq (s : Parser) (chunks : List Text) : feed s chunks = (push s chunks.flatten).2 := by
  induction chunks generalizing s with
  | nil => rfl
  | cons chunk chunks ih => rw [feed, List.flatten_cons, push_append, ih]

theorem push_cons {s : Parser} {c : UInt16} {t : Text} {s' : Parser} (h : s.step c = (s', [])) :
    push s (c :: t) = push s' t := by
  rw [push, h]
  rfl

/-! ## What leaves the structure alone -/

def Parser.reads (s : Parser) (t : Text) : Parser := { s with text := s.text ++ t }

@[simp] theorem Parser.reads_stack (s : Parser) (t : Text) : (s.reads t).stack = s.stack := rfl

@[simp] theorem Parser.reads_draftsDepth (s : Parser) (t : Text) :
    (s.reads t).draftsDepth = s.draftsDepth := rfl

theorem Parser.reads_append (s : Parser) (a b : Text) : (s.reads a).reads b = s.reads (a ++ b) := by
  unfold Parser.reads
  rw [List.append_assoc]

theorem Parser.reads_nil (s : Parser) : s.reads [] = s := by
  unfold Parser.reads
  rw [List.append_nil]

/-- A unit without a meaning outside of strings. -/
def plain (c : UInt16) : Bool := !(literal ['"', '{', '}', '[', ']']).contains c

theorem step_plain {s : Parser} (hs : s.stringStart = none) {c : UInt16} (hc : plain c = true) :
    s.step c = (s.reads [c], []) := by
  have hne : ∀ d : Char, d ∈ ['"', '{', '}', '[', ']'] → c ≠ unit d := by
    rintro d hd rfl
    have hmem : unit d ∈ literal ['"', '{', '}', '[', ']'] := List.mem_map_of_mem hd
    rw [plain, List.contains_iff_mem.mpr hmem] at hc
    cases hc
  unfold Parser.step
  rw [hs]
  dsimp only
  rw [if_neg (hne _ (by simp)), if_neg (hne _ (by simp)), if_neg (hne _ (by simp)), if_neg]
  · simp [Parser.reads, hs]
  · rintro (h | h)
    · exact hne _ (by simp) h
    · exact hne _ (by simp) h

theorem push_plain {s : Parser} (hs : s.stringStart = none) {t : Text} (ht : t.all plain = true) :
    push s t = (s.reads t, []) := by
  induction t generalizing s with
  | nil => rw [push, s.reads_nil]
  | cons c t ih =>
      rw [List.all_cons, Bool.and_eq_true] at ht
      have hstep := ih (s := s.reads [c]) hs ht.2
      rw [push_cons (step_plain hs ht.1), hstep, s.reads_append]
      rfl

theorem plain_of_isBlank {c : UInt16} (hc : isBlank c = true) : plain c = true := by
  unfold isBlank at hc
  simp only [Bool.or_eq_true, beq_iff_eq] at hc
  rcases hc with ((rfl | rfl) | rfl) | rfl
  · decide
  · decide
  · decide
  · decide

theorem plain_of_scalarUnit {c : UInt16} (hc : scalarUnit c = true) : plain c = true := by
  have hsub : ∀ d ∈ literal ['"', '{', '}', '[', ']'], scalarUnit d = false :=
    eq_false_of_any (by decide)
  unfold plain
  rw [Bool.not_eq_true', Bool.eq_false_iff]
  intro hmem
  exact absurd rfl (ne_of_scalarUnit hc (hsub c (List.contains_iff_mem.mp hmem)))

theorem Blank.all_plain (w : Blank) : w.1.all plain = true :=
  List.all_eq_true.mpr fun c hc ↦ plain_of_isBlank (List.all_eq_true.mp w.2 c hc)

/-! ## Strings -/

/-- A reader in a string, and the mode the grammar is in there. -/
theorem push_body {s : Parser} {start : ℕ} (hs : s.stringStart = some start) {m : Mode}
    (hm : s.escaped = decide (m = .escape)) {raw : Text} (hraw : isBody m raw = true) :
    push s raw = ({ s with text := s.text ++ raw, escaped := false }, []) := by
  -- on the text: `escaped` follows the mode, which the quote at the end finds plain
  induction raw generalizing s m with
  | nil =>
      have hplain : m = .plain := by simpa [isBody] using hraw
      rw [hplain] at hm
      have hstate : ({ s with text := s.text ++ [], escaped := false } : Parser) = s := by
        rw [List.append_nil]
        exact congrArg (fun b ↦ ({ s with escaped := b } : Parser)) hm.symm
      rw [push, hstate]
  | cons c raw ih =>
      rw [isBody] at hraw
      cases hnext : m.next c with
      | none =>
          rw [hnext] at hraw
          cases hraw
      | some m' =>
          rw [hnext] at hraw
          have hstep : s.step c = ({ s with
              text := s.text ++ [c], escaped := decide (m' = .escape) }, []) := by
            unfold Parser.step
            rw [hs]
            dsimp only
            unfold Parser.inString
            cases m with
            | plain =>
                obtain ⟨hquote, rfl⟩ := Mode.of_next_plain hnext
                by_cases hslash : c = unit '\\'
                · simp [hm, hs, hslash]
                · simp [hm, hs, hslash, hquote]
            | escape => simp [hm, hs, Mode.of_next_escape hnext]
            | hex left =>
                obtain ⟨hdigit, hgo⟩ := Mode.of_next_hex hnext
                have hslash : c ≠ unit '\\' := by
                  rintro rfl
                  exact absurd hdigit (by decide)
                have hquote : c ≠ unit '"' := by
                  rintro rfl
                  exact absurd hdigit (by decide)
                simp [hm, hs, hslash, hquote, hgo]
          rw [push_cons hstep, ih (s := { s with
            text := s.text ++ [c], escaped := decide (m' = .escape) }) hs rfl hraw]
          simp

/-- Where no string is open. -/
structure Outside (s : Parser) : Prop where
  noString : s.stringStart = none
  unescaped : s.escaped = false

theorem push_quoted {s : Parser} (hs : Outside s) (hstack : s.stack ≠ []) (raw : Body) :
    push s (quoted raw) = ({ s.reads (quoted raw) with
      lastTopLevelKey := if s.stack.length = 1 then some raw.1 else s.lastTopLevelKey }, []) := by
  have hopen : s.step (unit '"') = ({ s with
      text := s.text ++ [unit '"'], stringStart := some s.text.length }, []) := by
    unfold Parser.step
    rw [hs.noString]
    dsimp only
    rw [if_pos rfl, if_neg hstack]
  have hne : unit '"' ≠ unit '\\' := by decide
  rw [quoted, push_cons hopen, push_append, push_body rfl (by simp [hs.unescaped]) raw.2]
  simp [push, Parser.step, Parser.inString, Parser.reads, hs.noString, hs.unescaped, hne]

theorem Outside.reads {s : Parser} (h : Outside s) (t : Text) : Outside (s.reads t) :=
  ⟨h.noString, h.unescaped⟩

/-! ## Below the elements -/

/-- A text that only is read. -/
def Passes (s : Parser) (t : Text) : Prop := push s t = (s.reads t, [])

theorem Passes.append {s : Parser} {a b : Text} (ha : Passes s a) (hb : Passes (s.reads a) b) :
    Passes s (a ++ b) := by
  unfold Passes at ha hb ⊢
  rw [push_append, ha, hb, s.reads_append]
  rfl

theorem passes_plain {s : Parser} (h : Outside s) {t : Text} (ht : t.all plain = true) : Passes s t :=
  push_plain h.noString ht

theorem passes_blank {s : Parser} (h : Outside s) (w : Blank) : Passes s w.1 :=
  passes_plain h (Blank.all_plain w)

/-- Where nothing that is opened can be an element of `drafts`. -/
structure Quiet (s : Parser) : Prop extends Outside s where
  deep : 2 ≤ s.stack.length
  below : ∀ d ∈ s.draftsDepth, d < s.stack.length

theorem Quiet.reads {s : Parser} (h : Quiet s) (t : Text) : Quiet (s.reads t) :=
  ⟨h.toOutside.reads t, h.deep, h.below⟩

/-- Behind an opening brace or bracket. -/
def Parser.enter (s : Parser) (c : UInt16) (k : Container) : Parser :=
  { s.reads [c] with stack := k :: s.stack }

theorem Quiet.enter {s : Parser} (h : Quiet s) (c : UInt16) (k : Container) : Quiet (s.enter c k) where
  noString := h.noString
  unescaped := h.unescaped
  deep := Nat.le_succ_of_le h.deep
  below d hd := Nat.lt_succ_of_lt (h.below d hd)

theorem Quiet.passes_quoted {s : Parser} (h : Quiet s) (raw : Body) : Passes s (quoted raw) := by
  have hdeep := h.deep
  have hstack : s.stack ≠ [] := by
    intro hnil
    rw [hnil, List.length_nil] at hdeep
    omega
  have hlength : s.stack.length ≠ 1 := by omega
  unfold Passes
  rw [push_quoted h.toOutside hstack, if_neg hlength]
  rfl

/-! ### Opening and closing -/

theorem Outside.step_brace {s : Parser} (h : Outside s)
    (hdepth : s.draftsDepth ≠ some s.stack.length) :
    s.step (unit '{') = (s.enter (unit '{') .object, []) := by
  unfold Parser.step
  rw [h.noString]
  dsimp only
  rw [if_neg (by decide), if_pos rfl, if_neg hdepth]
  simp [Parser.enter, Parser.reads, h.noString]

theorem Outside.step_bracket {s : Parser} (h : Outside s) (hstack : s.stack ≠ [])
    (hkey : s.draftsDepth = none → s.stack.length = 1 → s.lastTopLevelKey ≠ some draftsKey) :
    s.step (unit '[') = (s.enter (unit '[') .array, []) := by
  have hno : ¬ (s.draftsDepth = none ∧ (Container.array :: s.stack).length = 2 ∧
      s.lastTopLevelKey = some draftsKey) :=
    fun hopen ↦ hkey hopen.1 (Nat.succ.inj hopen.2.1) hopen.2.2
  unfold Parser.step
  rw [h.noString]
  dsimp only
  rw [if_neg (by decide), if_neg (by decide), if_pos rfl, if_neg hstack, if_neg hno]
  simp [Parser.enter, Parser.reads, h.noString]

theorem Outside.step_close {s : Parser} (h : Outside s) {k : Container} {stack : List Container}
    (hstack : s.stack = k :: stack) (hover : ∀ d ∈ s.draftsDepth, d ≤ stack.length)
    (helement : s.draftStart = none ∨ s.draftsDepth ≠ some stack.length)
    {c : UInt16} (hc : c = unit '}' ∨ c = unit ']') :
    s.step c = ({ s.reads [c] with stack := stack }, []) := by
  have hover : s.draftsDepth.any (stack.length < ·) = false := by
    cases hd : s.draftsDepth with
    | none => rfl
    | some d =>
        have hle := hover d hd
        rw [Option.any_some, decide_eq_false_iff_not]
        omega
  have hplain : c ≠ unit '"' ∧ c ≠ unit '{' ∧ c ≠ unit '[' := by
    rcases hc with rfl | rfl
    · decide
    · decide
  unfold Parser.step
  rw [h.noString]
  dsimp only
  rw [if_neg hplain.1, if_neg hplain.2.1, if_neg hplain.2.2, if_pos hc]
  unfold Parser.close
  rw [hstack]
  dsimp only
  rw [hover]
  cases hstart : s.draftStart with
  | none => simp [Parser.reads, hstart]
  | some start =>
      have hdepth : s.draftsDepth ≠ some stack.length := by
        rcases helement with hnone | hdepth
        · rw [hstart] at hnone
          cases hnone
        · exact hdepth
      simp [Parser.reads, hdepth, hstart]

/-- A container that only is read. -/
theorem Outside.passes_enclosed {s : Parser} (h : Outside s) {o c : UInt16} {k : Container}
    {t : Text} (hopen : s.step o = (s.enter o k, [])) (ht : Passes (s.enter o k) t)
    (hover : ∀ d ∈ s.draftsDepth, d ≤ s.stack.length)
    (helement : s.draftStart = none ∨ s.draftsDepth ≠ some s.stack.length)
    (hc : c = unit '}' ∨ c = unit ']') : Passes s (o :: (t ++ [c])) := by
  have hinner : Outside ((s.enter o k).reads t) := ⟨h.noString, h.unescaped⟩
  have hclose := hinner.step_close (k := k) rfl hover helement hc
  unfold Passes at ht ⊢
  rw [push_cons hopen, push_append, ht]
  dsimp only
  rw [push, hclose]
  simp [push, Parser.reads, Parser.enter]

theorem Quiet.below_ne {s : Parser} (h : Quiet s) : s.draftsDepth ≠ some s.stack.length :=
  fun heq ↦ Nat.lt_irrefl _ (h.below _ heq)

theorem Quiet.passes_braces {s : Parser} (h : Quiet s) {t : Text}
    (ht : Passes (s.enter (unit '{') .object) t) : Passes s (unit '{' :: (t ++ [unit '}'])) :=
  h.toOutside.passes_enclosed (h.toOutside.step_brace h.below_ne) ht
    (fun d hd ↦ Nat.le_of_lt (h.below d hd)) (.inr h.below_ne) (.inl rfl)

theorem Quiet.passes_brackets {s : Parser} (h : Quiet s) {t : Text}
    (ht : Passes (s.enter (unit '[') .array) t) : Passes s (unit '[' :: (t ++ [unit ']'])) := by
  have hdeep := h.deep
  have hstack : s.stack ≠ [] := by
    intro hnil
    rw [hnil, List.length_nil] at hdeep
    omega
  have hopen := h.toOutside.step_bracket hstack fun _ hone ↦ by omega
  exact h.toOutside.passes_enclosed hopen ht (fun d hd ↦ Nat.le_of_lt (h.below d hd))
    (.inr h.below_ne) (.inr rfl)

theorem Quiet.passes_key {s : Parser} (h : Quiet s) (key : Key) : Passes s key.text := by
  have hbefore : Passes s key.before.1 := passes_blank h.toOutside _
  have hraw := (h.reads key.before.1).passes_quoted key.raw
  have hraws := ((h.reads key.before.1).reads (quoted key.raw))
  have hbehind : Passes _ key.behind.1 := passes_blank hraws.toOutside _
  have hcolon : Passes _ [unit ':'] := passes_plain (hraws.reads key.behind.1).toOutside (by decide)
  exact hbefore.append (hraw.append (hbehind.append hcolon))

mutual

theorem Quiet.passes_tree (t : Tree) {s : Parser} (h : Quiet s) : Passes s t.text := by
  cases t with
  | scalar t =>
      obtain ⟨-, -, -, hall⟩ := t.exists_cons
      exact passes_plain h.toOutside
        (List.all_eq_true.mpr fun c hc ↦ plain_of_scalarUnit (hall c hc))
  | string raw => exact h.passes_quoted raw
  | emptyArray inside =>
      exact h.passes_brackets (passes_blank (h.enter _ _).toOutside inside)
  | array items =>
      exact h.passes_brackets (Quiet.passes_items items (h.enter _ _))
  | emptyObject inside =>
      exact h.passes_braces (passes_blank (h.enter _ _).toOutside inside)
  | object fields =>
      exact h.passes_braces (Quiet.passes_fields fields (h.enter _ _))

theorem Quiet.passes_items (items : Items) {s : Parser} (h : Quiet s) : Passes s items.text := by
  cases items with
  | last before t behind =>
      have hbefore := passes_blank h.toOutside before
      have ht := Quiet.passes_tree t (h.reads before.1)
      have hbehind := passes_blank ((h.reads before.1).reads t.text).toOutside behind
      exact hbefore.append (ht.append hbehind)
  | cons before t behind rest =>
      have hbefore := passes_blank h.toOutside before
      have ht := Quiet.passes_tree t (h.reads before.1)
      have hread := (h.reads before.1).reads t.text
      have hbehind := passes_blank hread.toOutside behind
      have hcomma : Passes _ [unit ','] :=
        passes_plain (hread.reads behind.1).toOutside (by decide)
      have hrest := Quiet.passes_items rest ((hread.reads behind.1).reads [unit ','])
      exact hbefore.append (ht.append (hbehind.append (hcomma.append hrest)))

theorem Quiet.passes_fields (fields : Fields) {s : Parser} (h : Quiet s) : Passes s fields.text := by
  cases fields with
  | last key before t behind =>
      have hkey := h.reads key.text
      have hbefore := passes_blank hkey.toOutside before
      have ht := Quiet.passes_tree t (hkey.reads before.1)
      have hbehind := passes_blank ((hkey.reads before.1).reads t.text).toOutside behind
      exact (h.passes_key key).append (hbefore.append (ht.append hbehind))
  | cons key before t behind rest =>
      have hkey := h.reads key.text
      have hbefore := passes_blank hkey.toOutside before
      have ht := Quiet.passes_tree t (hkey.reads before.1)
      have hread := (hkey.reads before.1).reads t.text
      have hbehind := passes_blank hread.toOutside behind
      have hcomma : Passes _ [unit ','] :=
        passes_plain (hread.reads behind.1).toOutside (by decide)
      have hrest := Quiet.passes_fields rest ((hread.reads behind.1).reads [unit ','])
      exact (h.passes_key key).append (hbefore.append (ht.append (hbehind.append (hcomma.append hrest))))

end

/-! ## The elements of `drafts` -/

def Parser.after (s : Parser) (t : Text) (n : ℕ) (key : Option Text) : Parser :=
  { s with text := s.text ++ t, elements := s.elements + n, lastTopLevelKey := key }

/-- A text that is read, with the values handed on for it. -/
def Emits (s : Parser) (t : Text) (vs : List Value) : Prop :=
  ∃ key, push s t = (s.after t vs.length key, vs.zipIdx s.elements)

theorem Passes.emits {s : Parser} {t : Text} (h : Passes s t) : Emits s t [] :=
  ⟨s.lastTopLevelKey, h⟩

theorem Emits.append {s : Parser} {a b : Text} {vs ws : List Value} (ha : Emits s a vs)
    (hb : ∀ key, Emits (s.after a vs.length key) b ws) : Emits s (a ++ b) (vs ++ ws) := by
  obtain ⟨key, ha⟩ := ha
  obtain ⟨key', hb⟩ := hb key
  refine ⟨key', ?_⟩
  rw [push_append, ha]
  dsimp only
  rw [hb, List.zipIdx_append, List.length_append]
  simp [Parser.after, Nat.add_assoc]

theorem Emits.of_push {s : Parser} {a b : Text} {key : Option Text} {vs : List Value}
    (ha : push s a = (s.after a 0 key, [])) (hb : Emits (s.after a 0 key) b vs) :
    Emits s (a ++ b) vs := by
  obtain ⟨key', hb⟩ := hb
  refine ⟨key', ?_⟩
  rw [push_append, ha]
  dsimp only
  rw [hb]
  simp [Parser.after]

/-- Right inside of the array under `drafts`. -/
structure InDrafts (s : Parser) : Prop extends Outside s where
  deep : s.stack.length = 2
  open_ : s.draftsDepth = some 2
  between : s.draftStart = none

theorem InDrafts.after {s : Parser} (h : InDrafts s) (t : Text) (n : ℕ) (key : Option Text) :
    InDrafts (s.after t n key) :=
  ⟨⟨h.noString, h.unescaped⟩, h.deep, h.open_, h.between⟩

theorem InDrafts.stack_ne {s : Parser} (h : InDrafts s) : s.stack ≠ [] := by
  intro hnil
  have hdeep := h.deep
  rw [hnil] at hdeep
  cases hdeep

/-- Inside of an array in the array under `drafts`. -/
theorem InDrafts.quiet_bracket {s : Parser} (h : InDrafts s) : Quiet (s.enter (unit '[') .array) where
  noString := h.noString
  unescaped := h.unescaped
  deep := by
    show 2 ≤ s.stack.length + 1
    rw [h.deep]
    omega
  below d hd := by
    show d < s.stack.length + 1
    obtain rfl : 2 = d := Option.some.inj (h.open_.symm.trans hd)
    rw [h.deep]
    omega

theorem InDrafts.passes_brackets {s : Parser} (h : InDrafts s) {t : Text}
    (ht : Passes (s.enter (unit '[') .array) t) : Passes s (unit '[' :: (t ++ [unit ']'])) := by
  have hopen := h.toOutside.step_bracket h.stack_ne fun hnone ↦ by
    rw [h.open_] at hnone
    cases hnone
  refine h.toOutside.passes_enclosed hopen ht ?_ (.inl h.between) (.inr rfl)
  intro d hd
  obtain rfl : 2 = d := Option.some.inj (h.open_.symm.trans hd)
  exact h.deep.ge

/-- An object of `drafts` is handed on as the final parse reads it. -/
theorem InDrafts.emits_object {s : Parser} (h : InDrafts s) {t : Text} {fields : List (Text × Value)}
    (hparse : parse (unit '{' :: (t ++ [unit '}'])) = some (.object fields))
    (ht : ∀ s', Quiet s' → Passes s' t) :
    Emits s (unit '{' :: (t ++ [unit '}'])) [.object fields] := by
  let inside : Parser :=
    { s.reads [unit '{'] with stack := .object :: s.stack, draftStart := some s.text.length }
  have hopen : s.step (unit '{') = (inside, []) := by
    unfold Parser.step
    rw [h.noString]
    dsimp only
    rw [if_neg (by decide), if_pos rfl, if_pos (by rw [h.open_, h.deep])]
    simp [inside, Parser.reads, h.noString]
  have hquiet : Quiet inside := by
    refine ⟨⟨h.noString, h.unescaped⟩, ?_, ?_⟩
    · show 2 ≤ s.stack.length + 1
      rw [h.deep]
      omega
    · intro d hd
      show d < s.stack.length + 1
      obtain rfl : 2 = d := Option.some.inj (h.open_.symm.trans hd)
      rw [h.deep]
      omega
  have hinner : push inside t = (inside.reads t, []) := ht inside hquiet
  have hdraft : draftOf ((s.text ++ [unit '{'] ++ t ++ [unit '}']).drop s.text.length) s.elements =
      [(.object fields, s.elements)] := by
    have hslice : (s.text ++ [unit '{'] ++ t ++ [unit '}']).drop s.text.length =
        unit '{' :: (t ++ [unit '}']) := by
      rw [List.append_assoc, List.append_assoc, List.drop_left, List.singleton_append]
    rw [hslice, draftOf, hparse]
    rfl
  have hclose : (inside.reads t).step (unit '}') =
      (s.after (unit '{' :: (t ++ [unit '}'])) 1 s.lastTopLevelKey,
        [(.object fields, s.elements)]) := by
    unfold Parser.step
    dsimp only [inside, Parser.reads]
    rw [h.noString]
    dsimp only
    rw [if_neg (by decide), if_neg (by decide), if_neg (by decide), if_pos (.inl rfl)]
    unfold Parser.close
    dsimp only
    have hne : unit '}' ≠ unit ']' := by decide
    simp only [hne, false_and, if_false]
    rw [if_pos ⟨trivial, by rw [h.open_, h.deep]⟩, hdraft]
    simp [Parser.after, h.between, h.noString]
  refine ⟨s.lastTopLevelKey, ?_⟩
  rw [push_cons hopen, push_append, hinner]
  dsimp only
  rw [push, hclose]
  rfl

theorem InDrafts.emits_tree (t : Tree) {s : Parser} (h : InDrafts s) :
    Emits s t.text ([t.value].filter isObject) := by
  have hparse := parse_text ⟨[], rfl⟩ t ⟨[], rfl⟩
  rw [List.nil_append, List.append_nil] at hparse
  cases t with
  | scalar t =>
      obtain ⟨-, -, -, hall⟩ := t.exists_cons
      exact (passes_plain h.toOutside
        (List.all_eq_true.mpr fun c hc ↦ plain_of_scalarUnit (hall c hc))).emits
  | string raw =>
      refine ⟨s.lastTopLevelKey, ?_⟩
      rw [Tree.text, push_quoted h.toOutside h.stack_ne, if_neg (by rw [h.deep]; omega)]
      rfl
  | emptyArray inside =>
      exact (h.passes_brackets (passes_blank h.quiet_bracket.toOutside inside)).emits
  | array items =>
      exact (h.passes_brackets (Quiet.passes_items items h.quiet_bracket)).emits
  | emptyObject inside => exact h.emits_object hparse fun s' hs' ↦ passes_blank hs'.toOutside inside
  | object fields => exact h.emits_object hparse fun s' hs' ↦ Quiet.passes_fields fields hs'

theorem InDrafts.emits_items (items : Items) {s : Parser} (h : InDrafts s) :
    Emits s items.text (items.values.filter isObject) := by
  cases items with
  | last before t behind =>
      rw [Items.text, Items.values, ← List.nil_append ([t.value].filter isObject)]
      refine (passes_blank h.toOutside before).emits.append fun key ↦ ?_
      have hbefore := h.after before.1 0 key
      have ht := InDrafts.emits_tree t hbefore
      rw [← List.append_nil ([t.value].filter isObject)]
      exact ht.append fun key' ↦ (passes_blank (hbefore.after _ _ key').toOutside behind).emits
  | cons before t behind rest =>
      have hvalues : (t.value :: rest.values).filter isObject =
          [t.value].filter isObject ++ rest.values.filter isObject :=
        List.filter_append [t.value] rest.values
      have hcons : unit ',' :: rest.text = [unit ','] ++ rest.text := rfl
      rw [Items.text, Items.values, hvalues, hcons,
        ← List.nil_append ([t.value].filter isObject ++ rest.values.filter isObject)]
      refine (passes_blank h.toOutside before).emits.append fun key ↦ ?_
      have hbefore := h.after before.1 0 key
      have ht := InDrafts.emits_tree t hbefore
      refine ht.append fun key' ↦ ?_
      have hread := hbefore.after t.text ([t.value].filter isObject).length key'
      refine (passes_blank hread.toOutside behind).emits.append fun key'' ↦ ?_
      have hcomma : Passes _ [unit ','] :=
        passes_plain (hread.after behind.1 0 key'').toOutside (by decide)
      refine hcomma.emits.append fun key''' ↦ ?_
      exact InDrafts.emits_items rest ((hread.after behind.1 0 key'').after [unit ','] 0 key''')

/-! ## The fields of the answer -/

/-- Right inside of the outermost object. -/
structure TopLevel (s : Parser) : Prop extends Outside s where
  deep : s.stack.length = 1
  closed : s.draftsDepth = none
  between : s.draftStart = none

theorem TopLevel.after {s : Parser} (h : TopLevel s) (t : Text) (n : ℕ) (key : Option Text) :
    TopLevel (s.after t n key) :=
  ⟨⟨h.noString, h.unescaped⟩, h.deep, h.closed, h.between⟩

theorem TopLevel.stack_ne {s : Parser} (h : TopLevel s) : s.stack ≠ [] := by
  intro hnil
  have hdeep := h.deep
  rw [hnil] at hdeep
  cases hdeep

theorem TopLevel.quiet_enter {s : Parser} (h : TopLevel s) (c : UInt16) (k : Container) :
    Quiet (s.enter c k) where
  noString := h.noString
  unescaped := h.unescaped
  deep := by
    show 2 ≤ s.stack.length + 1
    rw [h.deep]
  below d hd := by
    have hnone := h.closed
    have hsome : s.draftsDepth = some d := hd
    rw [hnone] at hsome
    cases hsome

theorem TopLevel.le_of_mem {s : Parser} (h : TopLevel s) : ∀ d ∈ s.draftsDepth, d ≤ s.stack.length := by
  intro d hd
  rw [h.closed] at hd
  cases hd

theorem TopLevel.passes_braces {s : Parser} (h : TopLevel s) {t : Text}
    (ht : Passes (s.enter (unit '{') .object) t) : Passes s (unit '{' :: (t ++ [unit '}'])) := by
  have hopen := h.toOutside.step_brace (by rw [h.closed]; exact (Option.some_ne_none _).symm)
  exact h.toOutside.passes_enclosed hopen ht h.le_of_mem (.inl h.between) (.inl rfl)

theorem TopLevel.passes_brackets {s : Parser} (h : TopLevel s) (hkey : s.lastTopLevelKey ≠ some draftsKey)
    {t : Text} (ht : Passes (s.enter (unit '[') .array) t) :
    Passes s (unit '[' :: (t ++ [unit ']'])) := by
  have hopen := h.toOutside.step_bracket h.stack_ne fun _ _ ↦ hkey
  exact h.toOutside.passes_enclosed hopen ht h.le_of_mem (.inl h.between) (.inr rfl)

/-- The array under `drafts`. -/
theorem TopLevel.emits_brackets {s : Parser} (h : TopLevel s) (hkey : s.lastTopLevelKey = some draftsKey)
    {t : Text} {vs : List Value} (ht : ∀ s', InDrafts s' → Emits s' t vs) :
    Emits s (unit '[' :: (t ++ [unit ']'])) vs := by
  let inside : Parser :=
    { s.reads [unit '['] with stack := .array :: s.stack, draftsDepth := some 2 }
  have hlength : (Container.array :: s.stack).length = 2 := by rw [List.length_cons, h.deep]
  have hopen : s.step (unit '[') = (inside, []) := by
    unfold Parser.step
    rw [h.noString]
    dsimp only
    rw [if_neg (by decide), if_neg (by decide), if_pos rfl, if_neg h.stack_ne,
      if_pos ⟨h.closed, hlength, hkey⟩]
    simp [inside, Parser.reads, h.noString]
  have hin : InDrafts inside := ⟨⟨h.noString, h.unescaped⟩, hlength, rfl, h.between⟩
  obtain ⟨key, hinner⟩ := ht inside hin
  have hclose : (inside.after t vs.length key).step (unit ']') =
      (s.after (unit '[' :: (t ++ [unit ']'])) vs.length key, []) := by
    unfold Parser.step
    dsimp only [inside, Parser.reads, Parser.after]
    rw [h.noString]
    dsimp only
    rw [if_neg (by decide), if_neg (by decide), if_neg (by decide), if_pos (.inr rfl)]
    unfold Parser.close
    dsimp only
    rw [h.between]
    simp [h.deep, h.closed]
  refine ⟨key, ?_⟩
  rw [push_cons hopen, push_append, hinner]
  dsimp only
  rw [push, hclose]
  simp [push, inside, Parser.reads]

theorem drafts_cons (f : Text × Value) (fields : List (Text × Value)) :
    drafts (f :: fields) = drafts [f] ++ drafts fields := by
  unfold drafts
  rw [List.flatMap_cons, List.flatMap_singleton]

theorem drafts_of_ne {key : Text} (h : key ≠ draftsKey) (v : Value) : drafts [(key, v)] = [] := by
  unfold drafts
  rw [List.flatMap_singleton]
  exact if_neg h

theorem drafts_array (items : List Value) :
    drafts [(draftsKey, .array items)] = items.filter isObject := by
  unfold drafts
  rw [List.flatMap_singleton]
  exact if_pos rfl

theorem drafts_filter (fields : List (Text × Value)) :
    drafts (fields.filter fun f ↦ f.1 = draftsKey) = drafts fields := by
  induction fields with
  | nil => rfl
  | cons f fields ih =>
      by_cases hf : f.1 = draftsKey
      · rw [List.filter_cons_of_pos (by simpa using hf), drafts_cons, ih, ← drafts_cons]
      · rw [List.filter_cons_of_neg (by simpa using hf), ih, drafts_cons f, drafts_of_ne hf,
          List.nil_append]

theorem TopLevel.push_key {s : Parser} (h : TopLevel s) (key : Key) :
    push s key.text = (s.after key.text 0 (some key.raw.1), []) := by
  have hbefore : Passes s key.before.1 := passes_blank h.toOutside _
  have hraw : push (s.reads key.before.1) (quoted key.raw) =
      ((s.after key.before.1 0 (some key.raw.1)).reads (quoted key.raw), []) := by
    rw [push_quoted (h.toOutside.reads _) h.stack_ne]
    simp [Parser.after, Parser.reads, h.deep]
  have hread := (h.after key.before.1 0 (some key.raw.1)).toOutside.reads (quoted key.raw)
  have hbehind : Passes _ key.behind.1 := passes_blank hread _
  have hcolon : Passes _ [unit ':'] := passes_plain (hread.reads key.behind.1) (by decide)
  rw [Key.text, push_append, hbefore]
  dsimp only
  rw [push_append, hraw]
  dsimp only
  rw [hbehind.append hcolon]
  simp [Parser.after, Parser.reads]

theorem TopLevel.emits_value (t : Tree) {s : Parser} (h : TopLevel s) {key : Text}
    (hkey : s.lastTopLevelKey = some key) : Emits s t.text (drafts [(key, t.value)]) := by
  by_cases hdrafts : key = draftsKey
  · subst hdrafts
    -- only an array opens the drafts; an object under the key is passed over
    cases t with
    | scalar t =>
        obtain ⟨-, -, -, hall⟩ := t.exists_cons
        exact (passes_plain h.toOutside
          (List.all_eq_true.mpr fun c hc ↦ plain_of_scalarUnit (hall c hc))).emits
    | string raw => exact ⟨_, push_quoted h.toOutside h.stack_ne raw⟩
    | emptyArray inside =>
        exact h.emits_brackets hkey fun s' hs' ↦ (passes_blank hs'.toOutside inside).emits
    | array items =>
        rw [Tree.value, drafts_array]
        exact h.emits_brackets hkey fun s' hs' ↦ InDrafts.emits_items items hs'
    | emptyObject inside =>
        exact (h.passes_braces (passes_blank (h.quiet_enter _ _).toOutside inside)).emits
    | object fields =>
        exact (h.passes_braces (Quiet.passes_fields fields (h.quiet_enter _ _))).emits
  · rw [drafts_of_ne hdrafts]
    have hkey : s.lastTopLevelKey ≠ some draftsKey := by
      rw [hkey]
      exact fun heq ↦ hdrafts (Option.some.inj heq)
    cases t with
    | scalar t =>
        obtain ⟨-, -, -, hall⟩ := t.exists_cons
        exact (passes_plain h.toOutside
          (List.all_eq_true.mpr fun c hc ↦ plain_of_scalarUnit (hall c hc))).emits
    | string raw => exact ⟨_, push_quoted h.toOutside h.stack_ne raw⟩
    | emptyArray inside =>
        exact (h.passes_brackets hkey (passes_blank (h.quiet_enter _ _).toOutside inside)).emits
    | array items =>
        exact (h.passes_brackets hkey (Quiet.passes_items items (h.quiet_enter _ _))).emits
    | emptyObject inside =>
        exact (h.passes_braces (passes_blank (h.quiet_enter _ _).toOutside inside)).emits
    | object fields =>
        exact (h.passes_braces (Quiet.passes_fields fields (h.quiet_enter _ _))).emits

/-- A field up to its comma or the end of the object. -/
theorem TopLevel.emits_field {s : Parser} (h : TopLevel s) (key : Key) (before : Blank) (t : Tree)
    (behind : Blank) : Emits s (key.text ++ (before.1 ++ (t.text ++ behind.1)))
      (drafts [(key.raw.1, t.value)]) := by
  have hkey := h.after key.text 0 (some key.raw.1)
  have hbefore : push (s.after key.text 0 (some key.raw.1)) before.1 =
      ((s.after key.text 0 (some key.raw.1)).after before.1 0 (some key.raw.1), []) :=
    passes_blank hkey.toOutside before
  have hread := hkey.after before.1 0 (some key.raw.1)
  have hvalue := TopLevel.emits_value t hread rfl
  refine Emits.of_push (h.push_key key) (Emits.of_push hbefore ?_)
  rw [← List.append_nil (drafts _)]
  exact hvalue.append fun key' ↦ (passes_blank (hread.after _ _ key').toOutside behind).emits

theorem TopLevel.emits_fields (fields : Fields) {s : Parser} (h : TopLevel s) :
    Emits s fields.text (drafts fields.values) := by
  cases fields with
  | last key before t behind => exact h.emits_field key before t behind
  | cons key before t behind rest =>
      have htext : (Fields.cons key before t behind rest).text =
          (key.text ++ (before.1 ++ (t.text ++ behind.1))) ++ ([unit ','] ++ rest.text) := by
        simp [Fields.text]
      rw [htext, Fields.values, drafts_cons]
      refine (h.emits_field key before t behind).append fun key' ↦ ?_
      have hread := h.after (key.text ++ (before.1 ++ (t.text ++ behind.1)))
        (drafts [(key.raw.1, t.value)]).length key'
      have hcomma : Passes _ [unit ','] := passes_plain hread.toOutside (by decide)
      rw [← List.nil_append (drafts rest.values)]
      exact hcomma.emits.append fun key'' ↦ TopLevel.emits_fields rest (hread.after _ _ key'')

/-! ## The whole answer -/

/-- Before and after the outermost object. -/
structure Between (s : Parser) : Prop extends Outside s where
  empty : s.stack = []
  closed : s.draftsDepth = none
  between : s.draftStart = none

theorem Between.reads {s : Parser} (h : Between s) (t : Text) : Between (s.reads t) :=
  ⟨h.toOutside.reads t, h.empty, h.closed, h.between⟩

/-- Whatever has no opening brace in it is skipped. -/
theorem Between.passes {s : Parser} (h : Between s) {t : Text} (ht : unit '{' ∉ t) : Passes s t := by
  induction t generalizing s with
  | nil =>
      unfold Passes
      rw [push, s.reads_nil]
  | cons c t ih =>
      have hc : c ≠ unit '{' := fun heq ↦ ht (heq ▸ List.mem_cons_self)
      have hstep : s.step c = (s.reads [c], []) := by
        unfold Parser.step
        rw [h.noString]
        dsimp only
        -- with nothing open a quote starts no string, and a bracket opens nothing
        rw [if_neg hc, if_pos h.empty, if_pos h.empty]
        split_ifs with hquote hbracket hclose
        · simp [Parser.reads, h.noString]
        · simp [Parser.reads, h.noString]
        · unfold Parser.close
          rw [h.empty]
          simp [Parser.reads, h.noString, h.empty]
        · simp [Parser.reads, h.noString]
      have hrest := ih (h.reads [c]) fun hmem ↦ ht (List.mem_cons_of_mem c hmem)
      unfold Passes at hrest ⊢
      rw [push_cons hstep, hrest, s.reads_append]
      rfl

theorem between_fresh : Between fresh := ⟨⟨rfl, rfl⟩, rfl, rfl, rfl⟩

/-- The outermost object. -/
theorem Between.push_object {s : Parser} (h : Between s) {t : Text} {vs : List Value}
    (ht : ∀ s', TopLevel s' → Emits s' t vs) : ∃ s', Between s' ∧
      push s (unit '{' :: (t ++ [unit '}'])) = (s', vs.zipIdx s.elements) := by
  have hopen := h.toOutside.step_brace (by rw [h.closed]; exact (Option.some_ne_none _).symm)
  have htop : TopLevel (s.enter (unit '{') .object) := by
    refine ⟨⟨h.noString, h.unescaped⟩, ?_, h.closed, h.between⟩
    show (Container.object :: s.stack).length = 1
    rw [h.empty]
    rfl
  obtain ⟨key, hinner⟩ := ht _ htop
  have hread := htop.after t vs.length key
  have hstack : ((s.enter (unit '{') .object).after t vs.length key).stack = .object :: [] := by
    show Container.object :: s.stack = .object :: []
    rw [h.empty]
  have hclose := hread.toOutside.step_close hstack
    (fun d hd ↦ by rw [hread.closed] at hd; cases hd) (.inl hread.between) (c := unit '}') (.inl rfl)
  refine ⟨{ ((s.enter (unit '{') .object).after t vs.length key).reads [unit '}'] with
    stack := [] }, ?_, ?_⟩
  · exact ⟨⟨h.noString, h.unescaped⟩, rfl, h.closed, h.between⟩
  · rw [push_cons hopen, push_append, hinner]
    dsimp only
    rw [push, hclose]
    simp [push, Parser.enter, Parser.reads]

/-- The drafts of an object are those of its fields. -/
theorem Between.push_tree {s : Parser} (h : Between s) {t : Tree} {fields : List (Text × Value)}
    (ht : t.value = .object fields) : ∃ s', Between s' ∧
      push s t.text = (s', (drafts fields).zipIdx s.elements) := by
  cases t with
  | scalar t => cases ht
  | string raw => cases ht
  | emptyArray inside => cases ht
  | array items => cases ht
  | emptyObject inside =>
      cases ht
      exact h.push_object fun s' hs' ↦ (passes_blank hs'.toOutside inside).emits
  | object fields =>
      cases ht
      exact h.push_object fun s' hs' ↦ TopLevel.emits_fields fields hs'

theorem brace_not_mem_blank (w : Blank) : unit '{' ∉ w.1 :=
  fun hmem ↦ absurd (List.all_eq_true.mp w.2 _ hmem) (by decide)

theorem feed_eq_drafts {t : Text} {fields : List (Text × Value)} (h : parse t = some (.object fields))
    {before behind : Text} (hbefore : unit '{' ∉ before) (hbehind : unit '{' ∉ behind)
    {chunks : List Text} (hchunks : chunks.flatten = before ++ (t ++ behind)) :
    feed fresh chunks = (drafts fields).zipIdx := by
  obtain ⟨first, tree, last, rfl, hvalue⟩ := of_parse h
  have htext : chunks.flatten = (before ++ first.1) ++ (tree.text ++ (last.1 ++ behind)) := by
    rw [hchunks]
    simp
  have hpassed : unit '{' ∉ before ++ first.1 := by
    rw [List.mem_append]
    exact fun hmem ↦ hmem.elim hbefore (brace_not_mem_blank first)
  have hrest : unit '{' ∉ last.1 ++ behind := by
    rw [List.mem_append]
    exact fun hmem ↦ hmem.elim (brace_not_mem_blank last) hbehind
  have hstart := between_fresh.passes hpassed
  obtain ⟨s', hs', hpush⟩ := (between_fresh.reads (before ++ first.1)).push_tree hvalue
  rw [feed_eq, htext, push_append, hstart]
  dsimp only
  rw [push_append, hpush]
  dsimp only
  rw [hs'.passes hrest, List.append_nil]
  rfl

/-! ## Places -/

theorem zipIdx_filter_iff {β : Type} (p : β → Bool) (l : List β) (n : ℕ) :
    (l.filter p).zipIdx n = (l.zipIdx n).filter (fun e ↦ p e.1) ↔ l.filter p <+: l := by
  induction l generalizing n with
  | nil => simp
  | cons b l ih =>
      rw [List.zipIdx_cons]
      by_cases hb : p b = true
      · rw [List.filter_cons_of_pos hb, List.filter_cons_of_pos (by exact hb), List.zipIdx_cons,
          List.cons.injEq, List.prefix_cons_inj, ih]
        simp
      · rw [List.filter_cons_of_neg hb, List.filter_cons_of_neg (by exact hb)]
        cases hl : l.filter p with
        | nil =>
            have hnone : (l.zipIdx (n + 1)).filter (fun e ↦ p e.1) = [] := by
              rw [List.filter_eq_nil_iff] at hl ⊢
              intro e he
              exact hl e.1 (List.fst_mem_of_mem_zipIdx he)
            simp [hnone]
        | cons c cs =>
            constructor
            · intro heq
              -- behind `b` no place is `n` any more
              have hmem : (c, n) ∈ (l.zipIdx (n + 1)).filter fun e ↦ p e.1 := by
                rw [← heq, List.zipIdx_cons]
                exact List.mem_cons_self
              have hle := List.le_snd_of_mem_zipIdx (List.mem_of_mem_filter hmem)
              dsimp only at hle
              omega
            · intro hpre
              obtain ⟨more, hmore⟩ := hpre
              obtain ⟨rfl, -⟩ := List.cons.inj hmore
              have hc : c ∈ l.filter p := hl ▸ List.mem_cons_self
              exact absurd (List.of_mem_filter hc) hb

/-- Wherever the chunks of an answer are cut, and whatever stands around its object, the drafts handed
on are the objects of `drafts`, numbered among themselves; these are their places in the array just
where no other element of it comes before one of them. -/
theorem live_drafts_are_parsed (t : Text) (fields : List (Text × Value))
    (h : parse t = some (.object fields)) (before behind : Text) (hbefore : unit '{' ∉ before)
    (hbehind : unit '{' ∉ behind) (chunks : List Text)
    (hchunks : chunks.flatten = before ++ (t ++ behind)) :
    feed fresh chunks = (drafts fields).zipIdx ∧
      ∀ items, fields.filter (fun f ↦ f.1 = draftsKey) = [(draftsKey, .array items)] →
        (feed fresh chunks = placed items ↔ items.filter isObject <+: items) := by
  have hfeed := feed_eq_drafts h hbefore hbehind hchunks
  refine ⟨hfeed, ?_⟩
  intro items hitems
  have hdrafts : drafts fields = items.filter isObject := by
    rw [← drafts_filter, hitems, drafts_array]
  rw [hfeed, hdrafts]
  exact zipIdx_filter_iff isObject items 0

/-- A missing element before a draft, with the chunks cut inside of the key. -/
theorem live_drafts_after_null :
    let answer := literal ['{', '"', 'd', 'r', 'a', 'f', 't', 's', '"', ':', '[', 'n', 'u', 'l', 'l', ',',
      '{', '}', ']', '}']
    feed fresh [literal [' '] ++ answer.take 5, answer.drop 5] = [(.object [], 0)] ∧
      feed fresh [literal [' '] ++ answer.take 5, answer.drop 5] ≠
        placed [.scalar (literal ['n', 'u', 'l', 'l']), .object []] := by
  intro answer
  have h := live_drafts_are_parsed answer
    [(draftsKey, .array [.scalar (literal ['n', 'u', 'l', 'l']), .object []])] rfl (literal [' ']) []
    (by decide) (by decide) [literal [' '] ++ answer.take 5, answer.drop 5] rfl
  refine ⟨h.1, fun heq ↦ ?_⟩
  obtain ⟨more, hmore⟩ := (h.2 _ rfl).mp heq
  cases hmore

end Tesbo.DraftStream
