import Tesbo.MarkdownPages
import Tesbo.Reasoning.Composed

/-!
# Rendered Markdown has no markup of the text

Whatever a text says, the page rendered from it is made of the renderer's own tags, of letters that
begin and end no tag and no attribute, and of links to http addresses that stay within their quotes.
-/

namespace Tesbo.Markdown

open Reasoning
open Reasoning.Scans
open CodeUnits
open TicketMarkup (escapeHtml escapeUnit escapeHtml_eq boldAt linkAt
  afterScheme endsUrl strongTag strongEndTag emTag emEndTag anchorTag anchorAttributes anchorEndTag
  headingTag headingEndTag listTag listEndTag itemTag itemEndTag paragraphTag paragraphEndTag)

/-! ## Pieces -/

/-- What neither a tag nor the quoted value of an attribute begins or ends with. -/
def isLetter (c : UInt16) : Bool := c != unit '<' && c != unit '>' && c != unit '"'

def inlineTags : List Text := [codeTag, codeEndTag, strongTag, strongEndTag, emTag, emEndTag]

/-- What a line is made of before its links are marked up. -/
inductive Inline where
  | letter (c : UInt16) (h : isLetter c = true)
  | tag (t : Text) (known : t ∈ inlineTags)

def Inline.html : Inline → Text
  | letter c _ => [c]
  | tag t _ => t

def blockTags : List Text :=
  [anchorEndTag, wrapTag, tableTag, tableEndTag, headTag, headEndTag, bodyTag, bodyEndTag, rowTag,
    rowEndTag, headCellTag, headCellEndTag, cellTag, cellEndTag, preTag, preEndTag, ruleTag, breakTag,
    quoteTag, quoteEndTag, orderedTag, orderedEndTag, listTag, listEndTag, itemTag, itemEndTag,
    paragraphTag, paragraphEndTag] ++
      (List.range 6).flatMap fun n ↦ [headingTag (n + 1), headingEndTag (n + 1)]

/-- What a number is written with. -/
def isNumeral (c : UInt16) : Bool :=
  isDigit c || (literal ['.', 'e', '+', 'I', 'n', 'f', 'i', 't', 'y']).contains c

/-- An address that stays within its quotes. -/
structure WebUrl where
  url : Text
  web : literal ['h', 't', 't', 'p', ':', '/', '/'] <+: url ∨
    literal ['h', 't', 't', 'p', 's', ':', '/', '/'] <+: url
  unquoted : unit '"' ∉ url
  unspaced : ∀ c ∈ url, isSpace c = false

/-- What a page is made of. -/
inductive Piece where
  | inline (i : Inline)
  | tag (t : Text) (known : t ∈ blockTags)
  | ordered (number : Text) (numeral : ∀ c ∈ number, isNumeral c = true)
  | anchor (target : WebUrl)

def Piece.html : Piece → Text
  | inline i => i.html
  | tag t _ => t
  | ordered number _ => startTag ++ number ++ literal ['"', '>']
  | anchor target => anchorTag ++ target.url ++ unit '"' :: anchorAttributes

abbrev InLine (t : Text) : Prop := Composed Inline.html t

abbrev OnPage (t : Text) : Prop := Composed Piece.html t

/-! ## What the passes look for -/

/-- The delimiters of the passes. -/
def isMark (c : UInt16) : Bool := c == backtick || (literal ['*', '_', '[', ']', '(', ')']).contains c

theorem inlineTags_unmarked : ∀ t ∈ inlineTags, t.any isMark = false := by decide

theorem alone_of_isMark {c : UInt16} (hc : isMark c = true) : Composed.Alone Inline.html c := by
  intro p hp
  cases p with
  | letter d h =>
      obtain rfl := List.mem_singleton.mp hp
      rfl
  | tag t known =>
      have hnot := eq_false_of_any (inlineTags_unmarked t known) c hp
      rw [hc] at hnot
      cases hnot

theorem alone_of_all {word : Text} (h : word.all isMark = true) :
    ∀ c ∈ word, Composed.Alone Inline.html c :=
  fun c hc ↦ alone_of_isMark (List.all_eq_true.mp h c hc)

theorem Inline.filled (p : Inline) : p.html ≠ [] := by
  cases p with
  | letter c h => exact List.cons_ne_nil _ _
  | tag t known =>
      have hall : ∀ t ∈ inlineTags, t ≠ [] := by decide
      exact hall t known

/-- A letter of a piece that others of it follow is in a tag. -/
theorem Inline.unmarked_of_split {p : Inline} {first others : Text} {c : UInt16}
    (hp : p.html = first ++ c :: others) (hothers : others ≠ []) :
    isMark c = false ∧ ∀ d ∈ others, isMark d = false := by
  cases p with
  | letter d h =>
      have hlength := congrArg List.length hp
      have hpos := List.length_pos_of_ne_nil hothers
      simp only [Inline.html, List.length_append, List.length_cons, List.length_nil] at hlength
      omega
  | tag t known =>
      have hnone := eq_false_of_any (inlineTags_unmarked t known)
      have ht : t = first ++ c :: others := hp
      rw [ht] at hnone
      constructor
      · exact hnone c (List.mem_append_right _ List.mem_cons_self)
      · exact fun d hd ↦ hnone d (List.mem_append_right _ (List.mem_cons_of_mem c hd))

/-- A match that begins with a delimiter begins at a letter. -/
theorem Inline.first_of_mark {p : Inline} {first : Text} {c : UInt16} (hp : p.html = first ++ [c])
    (hc : isMark c = true) : first = [] := by
  have halone := alone_of_isMark hc p (by rw [hp]; exact List.mem_append_right _ List.mem_cons_self)
  rw [hp] at halone
  have hlength := congrArg List.length halone
  rw [List.length_append, List.length_singleton] at hlength
  exact List.length_eq_zero_iff.mp (by omega)

/-- A pass whose matches begin with a delimiter, and are taken apart at delimiters. -/
theorem composed_pass {γ : Type} {m : Text → Option (γ × Text)}
    (hm : Advances m) {write : γ → Text} {δ : Type} {render' : δ → Text}
    (hkeep : ∀ p : Inline, Composed render' p.html)
    (hmark : ∀ c l found rest, m (c :: l) = some (found, rest) → isMark c = true)
    (hparts : ∀ l found rest, InLine l → m l = some (found, rest) →
      Composed render' (write found) ∧ InLine rest)
    {t : Text} (h : InLine t) : Composed render' (replaceAll m (fun c ↦ [c]) write t) := by
  refine h.replaceAll hm Inline.filled hkeep ?_ ?_
  · intro p first c others rest hp hothers
    have hc := (Inline.unmarked_of_split hp hothers).1
    cases hmatch : m (c :: (others ++ rest)) with
    | none => rfl
    | some r =>
        have hmarked := hmark c _ r.1 r.2 hmatch
        rw [hc] at hmarked
        cases hmarked
  · intro p first c rest found rest' hp hrest hmatch
    have hfirst := Inline.first_of_mark hp (hmark c rest found rest' hmatch)
    rw [hfirst, List.nil_append] at hp ⊢
    have hc : InLine [c] := hp ▸ Composed.piece p
    exact hparts _ found rest' (hc.append hrest) hmatch

/-! ## The passes -/

theorem inLine_tag {t : Text} (h : t ∈ inlineTags) : InLine t := Composed.piece (Inline.tag t h)

theorem inLine_strong : InLine strongTag := inLine_tag (by decide)

theorem inLine_strongEnd : InLine strongEndTag := inLine_tag (by decide)

theorem inLine_em : InLine emTag := inLine_tag (by decide)

theorem inLine_emEnd : InLine emEndTag := inLine_tag (by decide)

theorem inLine_code : InLine codeTag := inLine_tag (by decide)

theorem inLine_codeEnd : InLine codeEndTag := inLine_tag (by decide)

/-- What stands between two words of delimiters, and after them. -/
theorem parts_of_delimited {stop : UInt16 → Bool} {c : UInt16} {word l body rest : Text}
    (hword : (c :: word).all isMark = true) (hl : InLine l)
    (h : delimited stop (c :: word) l = some (body, rest)) : InLine body ∧ InLine rest := by
  have hl' := hl
  rw [of_delimited h] at hl'
  have hinner := Composed.of_append (alone_of_all hword) hl'
  exact Composed.cut_word (alone_of_all hword) hinner

theorem mark_of_delimited {stop : UInt16 → Bool} {c d : UInt16} {word l body rest : Text}
    (hd : isMark d = true) (h : delimited stop (d :: word) (c :: l) = some (body, rest)) :
    isMark c = true := by
  have hl := of_delimited h
  rw [List.cons_append] at hl
  rw [(List.cons.inj hl).1]
  exact hd

theorem of_codeAt {l body rest : Text} (h : codeAt l = some (body, rest)) :
    l = backtick :: (body ++ backtick :: rest) := by
  unfold codeAt at h
  split at h
  · cases h
  · rename_i inner hinner
    split at h
    · cases h
    · rename_i rest' hrest
      split at h
      · cases h
      · cases h
        rw [of_after hinner]
        exact congrArg (_ :: ·) (takeWhile_append_of_after hrest)

theorem of_underscoredAt {l body rest : Text} (h : underscoredAt l = some (body, rest)) :
    l = unit '_' :: (body ++ unit '_' :: rest) := by
  unfold underscoredAt at h
  split at h
  · cases h
  · rename_i inner hinner
    split at h
    · cases h
    · rename_i rest' hrest
      split at h
      · cases h
      · cases h
        rw [of_after hinner]
        exact congrArg (_ :: ·) (takeWhile_append_of_after hrest)

theorem parts_of_mark {c : UInt16} (hc : isMark c = true) {body rest : Text}
    (h : InLine (c :: (body ++ c :: rest))) : InLine body ∧ InLine rest :=
  Composed.cut (alone_of_isMark hc) (Composed.of_cons (alone_of_isMark hc) h)

theorem suffix_of_between {c d : UInt16} {l body rest : Text} (h : c :: l = d :: (body ++ d :: rest)) :
    rest <:+ l := by
  rw [(List.cons.inj h).2]
  exact ⟨body ++ [d], by simp⟩

theorem advances_codeAt : Advances codeAt :=
  fun _ _ _ _ h ↦ suffix_of_between (of_codeAt h)

theorem advances_ledUnderscoredAt : Advances ledUnderscoredAt := by
  intro c l found rest h
  unfold ledUnderscoredAt at h
  dsimp only at h
  split at h
  · cases h
  · obtain ⟨r, hr, heq⟩ := Option.map_eq_some_iff.mp h
    cases heq
    rw [of_underscoredAt hr]
    exact ⟨unit '_' :: (r.1 ++ [unit '_']), by simp⟩

theorem inLine_codePass {t : Text} (h : InLine t) :
    InLine (replaceAll codeAt (fun c ↦ [c]) (fun body ↦ codeTag ++ body ++ codeEndTag) t) := by
  refine composed_pass advances_codeAt Composed.piece ?_ ?_ h
  · intro c l body rest hmatch
    rw [(List.cons.inj (of_codeAt hmatch)).1]
    decide
  · intro l body rest hl hmatch
    rw [of_codeAt hmatch] at hl
    obtain ⟨hbody, hrest⟩ := parts_of_mark (by decide) hl
    exact ⟨(inLine_code.append hbody).append inLine_codeEnd, hrest⟩

/-- The passes for bold text and for starred text. -/
theorem inLine_delimitedPass {c : UInt16} {word openTag endTag t : Text}
    (hword : (c :: word).all isMark = true) (hopen : InLine openTag) (hend : InLine endTag)
    (h : InLine t) : InLine (replaceAll (delimited isLineTerminator (c :: word)) (fun c ↦ [c])
      (fun body ↦ openTag ++ body ++ endTag) t) := by
  refine composed_pass (advances_delimited isLineTerminator c word) Composed.piece ?_ ?_ h
  · intro d l body rest hmatch
    exact mark_of_delimited (List.all_eq_true.mp hword c List.mem_cons_self) hmatch
  · intro l body rest hl hmatch
    obtain ⟨hbody, hrest⟩ := parts_of_delimited hword hl hmatch
    exact ⟨(hopen.append hbody).append hend, hrest⟩

theorem inLine_ledPass {t : Text} (h : InLine t) :
    InLine (replaceAll ledUnderscoredAt (fun c ↦ [c])
      (fun r ↦ r.1 :: (emTag ++ r.2 ++ emEndTag)) t) := by
  refine h.replaceAll advances_ledUnderscoredAt Inline.filled Composed.piece ?_ ?_
  · intro p first c others rest hp hothers
    -- the unit after a leading one is a delimiter, which is in no tag
    obtain ⟨d, others, rfl⟩ := List.exists_cons_of_ne_nil hothers
    have hd := (Inline.unmarked_of_split hp hothers).2 d List.mem_cons_self
    have hnone : underscoredAt (d :: (others ++ rest)) = none := by
      cases hmatch : underscoredAt (d :: (others ++ rest)) with
      | none => rfl
      | some r =>
          have hmatch' : underscoredAt (d :: (others ++ rest)) = some (r.1, r.2) := hmatch
          have heq := (List.cons.inj (of_underscoredAt hmatch')).1
          rw [heq] at hd
          exact absurd hd (by decide)
    unfold ledUnderscoredAt
    dsimp only [List.cons_append]
    rw [hnone]
    split <;> rfl
  · intro p first c rest found rest' hp hrest hmatch
    unfold ledUnderscoredAt at hmatch
    dsimp only at hmatch
    split at hmatch
    · cases hmatch
    · obtain ⟨r, hr, heq⟩ := Option.map_eq_some_iff.mp hmatch
      cases heq
      rw [of_underscoredAt hr] at hrest
      obtain ⟨hbody, hrest'⟩ := parts_of_mark (by decide) hrest
      have hfirst : InLine (first ++ [c]) := hp ▸ Composed.piece p
      have hwritten := hfirst.append ((inLine_em.append hbody).append inLine_emEnd)
      rw [List.append_assoc, List.singleton_append] at hwritten
      exact ⟨hwritten, hrest'⟩

theorem inLine_underscored {t : Text} (h : InLine t) : InLine (underscored t) := by
  unfold underscored
  dsimp only
  split
  · exact inLine_ledPass h
  · rename_i body rest hmatch
    rw [of_underscoredAt hmatch] at h
    obtain ⟨hbody, hrest⟩ := parts_of_mark (by decide) h
    exact ((inLine_em.append hbody).append inLine_emEnd).append (inLine_ledPass hrest)

/-! ## Links -/

theorem of_afterScheme {l rest : Text} (h : afterScheme l = some rest) :
    l = literal ['h', 't', 't', 'p', ':', '/', '/'] ++ rest ∨
      l = literal ['h', 't', 't', 'p', 's', ':', '/', '/'] ++ rest := by
  unfold afterScheme at h
  split at h
  · cases h
  · rename_i r hr
    rw [of_after hr]
    cases hs : after [unit 's'] r with
    | none =>
        rw [hs, Option.getD_none] at h
        left
        rw [of_after h]
        rfl
    | some r' =>
        rw [hs, Option.getD_some] at h
        right
        rw [of_after hs, of_after h]
        rfl

/-- A link: its label, its address up to the parenthesis, and what is left. -/
theorem of_linkAt {l label url rest : Text} (h : linkAt l = some ((label, url), rest)) :
    l = unit '[' :: (label ++ (literal [']', '('] ++ (url ++ unit ')' :: rest))) ∧
      (literal ['h', 't', 't', 'p', ':', '/', '/'] <+: url ∨
        literal ['h', 't', 't', 'p', 's', ':', '/', '/'] <+: url) ∧ ∀ c ∈ url, endsUrl c = false := by
  unfold linkAt at h
  split at h
  · cases h
  · rename_i inner hinner
    dsimp only at h
    split at h
    · cases h
    · rename_i target htarget
      split at h
      · cases h
      · rename_i address haddress
        split at h
        · cases h
        · rename_i last hlast
          split at h
          · cases h
          · have hlabel := takeWhile_append_of_after htarget
            have hstop : ∀ c ∈ address.takeWhile (!endsUrl ·), endsUrl c = false := fun c hc ↦ by
              simpa using List.mem_takeWhile_imp hc
            have hpath : address.takeWhile (!endsUrl ·) ++ address.dropWhile (!endsUrl ·) = address :=
              List.takeWhile_append_dropWhile
            generalize address.takeWhile (!endsUrl ·) = path at hstop hpath h
            generalize address.dropWhile (!endsUrl ·) = behind at hpath hlast h
            generalize inner.takeWhile (· != unit ']') = label' at hlabel h
            subst hpath
            rw [of_after hlast] at haddress h
            -- the address starts with the scheme, which `endsUrl` finds no end in
            obtain ⟨scheme, htext, hscheme, hends⟩ : ∃ scheme : Text,
                target = scheme ++ (path ++ ([unit ')'] ++ last)) ∧
                  (scheme = literal ['h', 't', 't', 'p', ':', '/', '/'] ∨
                    scheme = literal ['h', 't', 't', 'p', 's', ':', '/', '/']) ∧
                      scheme.any endsUrl = false := by
              rcases of_afterScheme haddress with htext | htext
              · exact ⟨_, htext, .inl rfl, by decide⟩
              · exact ⟨_, htext, .inr rfl, by decide⟩
            have htake : target.take (target.length - ([unit ')'] ++ last).length) = scheme ++ path := by
              have hlength : target.length - ([unit ')'] ++ last).length = (scheme ++ path).length := by
                rw [htext]
                simp only [List.length_append]
                omega
              rw [hlength, htext, ← List.append_assoc, List.take_left]
            rw [htake] at h
            cases h
            refine ⟨?_, ?_, ?_⟩
            · rw [of_after hinner, hlabel, htext]
              simp
            · rcases hscheme with rfl | rfl
              · exact .inl (List.prefix_append _ _)
              · exact .inr (List.prefix_append _ _)
            · intro c hc
              rcases List.mem_append.mp hc with hc | hc
              · exact eq_false_of_any hends c hc
              · exact hstop c hc

theorem advances_linkAt : Advances linkAt := by
  intro c l link rest h
  have h' : linkAt (c :: l) = some ((link.1, link.2), rest) := h
  rw [(List.cons.inj (of_linkAt h').1).2]
  exact ⟨link.1 ++ (literal [']', '('] ++ (link.2 ++ [unit ')'])), by simp⟩

/-- Within a line a quote comes with a space: it is that of a class. -/
theorem unquoted_of_unspaced {t : Text} (h : InLine t) (hspace : ∀ c ∈ t, isSpace c = false) :
    unit '"' ∉ t := by
  obtain ⟨ps, rfl⟩ := h
  intro hquote
  obtain ⟨p, hp, hquote⟩ := List.mem_flatMap.mp hquote
  cases p with
  | letter c hc =>
      obtain rfl := List.mem_singleton.mp hquote
      exact absurd hc (by decide)
  | tag t known =>
      have hall : ∀ t ∈ inlineTags, unit '"' ∈ t → t.any isSpace = true := by decide
      obtain ⟨c, hc, hs⟩ := List.any_eq_true.mp (hall t known hquote)
      have hnot := hspace c (List.mem_flatMap.mpr ⟨_, hp, hc⟩)
      rw [hs] at hnot
      cases hnot

theorem onPage_of_inLine {t : Text} (h : InLine t) : OnPage t :=
  h.map fun p ↦ Composed.piece (Piece.inline p)

theorem onPage_tag {t : Text} (h : t ∈ blockTags) : OnPage t := Composed.piece (Piece.tag t h)

theorem onPage_linkPass {t : Text} (h : InLine t) : OnPage (replaceAll linkAt (fun c ↦ [c])
    (fun link ↦ anchorTag ++ link.2 ++ unit '"' :: anchorAttributes ++ link.1 ++ anchorEndTag) t) := by
  refine composed_pass advances_linkAt (fun p ↦ Composed.piece (Piece.inline p)) ?_ ?_ h
  · intro c l found rest hmatch
    have hmatch' : linkAt (c :: l) = some ((found.1, found.2), rest) := hmatch
    rw [(List.cons.inj (of_linkAt hmatch').1).1]
    decide
  · intro l found rest hl hmatch
    have hmatch' : linkAt l = some ((found.1, found.2), rest) := hmatch
    obtain ⟨hparts, hweb, hends⟩ := of_linkAt hmatch'
    rw [hparts] at hl
    -- brackets are in no tag, so label and address are made of whole pieces
    have hinner := Composed.of_cons (alone_of_isMark (by decide)) hl
    obtain ⟨hlabel, htarget⟩ := Composed.cut_word (alone_of_all (by decide)) hinner
    obtain ⟨hurl, hrest⟩ := Composed.cut (alone_of_isMark (by decide)) htarget
    have hspace : ∀ c ∈ found.2, isSpace c = false := by
      intro c hc
      have hend := hends c hc
      unfold endsUrl at hend
      rw [Bool.or_eq_false_iff] at hend
      exact hend.1
    have hanchor : OnPage (anchorTag ++ found.2 ++ unit '"' :: anchorAttributes) :=
      Composed.piece (Piece.anchor ⟨found.2, hweb, unquoted_of_unspaced hurl hspace, hspace⟩)
    have hend : OnPage anchorEndTag := onPage_tag (by decide)
    exact ⟨(hanchor.append (onPage_of_inLine hlabel)).append hend, hrest⟩

/-! ## Blocks -/

def Letters (t : Text) : Prop := ∀ c ∈ t, isLetter c = true

theorem Letters.inLine {t : Text} (h : Letters t) : InLine t := by
  rw [← List.flatMap_singleton' t]
  exact Composed.flatMap fun c hc ↦ Composed.piece (Inline.letter c (h c hc))

theorem Letters.onPage {t : Text} (h : Letters t) : OnPage t := onPage_of_inLine h.inLine

theorem Letters.of_subset {a b : Text} (h : Letters b) (hsub : a ⊆ b) : Letters a :=
  fun c hc ↦ h c (hsub hc)

theorem onPage_mdInline {s : Text} (h : Letters s) : OnPage (mdInline s) := by
  have hcode := inLine_codePass h.inLine
  have hstars : [unit '*', unit '*'].all isMark = true := by decide
  have hbold := inLine_delimitedPass hstars inLine_strong inLine_strongEnd hcode
  have hstar : [unit '*'].all isMark = true := by decide
  have hstarred := inLine_delimitedPass hstar inLine_em inLine_emEnd hbold
  exact onPage_linkPass (inLine_underscored hstarred)

theorem Letters.trim {t : Text} (h : Letters t) : Letters (trim isSpace t) :=
  h.of_subset (isInfix_trim t).subset

/-- A text between two tags. -/
theorem onPage_between {a b t : Text} (ha : a ∈ blockTags) (ht : OnPage t) (hb : b ∈ blockTags) :
    OnPage (a ++ t ++ b) :=
  ((onPage_tag ha).append ht).append (onPage_tag hb)

theorem Letters.ite {a b : Text} (ha : Letters a) (hb : Letters b) {p : Prop} [Decidable p] :
    Letters (if p then a else b) := by
  split
  · exact ha
  · exact hb

theorem letters_cells {line cell : Text} (h : Letters line) (hcell : cell ∈ cells line) :
    Letters cell := by
  unfold cells at hcell
  obtain ⟨part, hpart, rfl⟩ := List.mem_map.mp hcell
  apply Letters.trim
  refine Letters.of_subset ?_ (mem_of_mem_splitOnP hpart)
  have hopened : Letters (if (Reasoning.trim isSpace line).head? = some bar then
      (Reasoning.trim isSpace line).tail else Reasoning.trim isSpace line) :=
    Letters.ite (h.trim.of_subset (List.tail_subset _)) h.trim
  exact Letters.ite (hopened.of_subset (List.dropLast_subset _)) hopened

theorem onPage_cells {line openTag endTag : Text} (h : Letters line) (hopen : openTag ∈ blockTags)
    (hend : endTag ∈ blockTags) :
    OnPage ((cells line).flatMap fun c ↦ openTag ++ mdInline c ++ endTag) :=
  Composed.flatMap fun _ hc ↦ onPage_between hopen (onPage_mdInline (letters_cells h hc)) hend

theorem onPage_mdTable {lines : List Text} (h : ∀ l ∈ lines, Letters l) : OnPage (mdTable lines) := by
  unfold mdTable
  have hdata : ∀ l ∈ lines.filter (!isSep ·), Letters l := fun l hl ↦ h l (List.mem_of_mem_filter hl)
  generalize lines.filter (!isSep ·) = data at hdata
  cases data with
  | nil => exact Composed.nil
  | cons hdr rows =>
      dsimp only
      have hhead : OnPage ((cells hdr).flatMap fun c ↦ headCellTag ++ mdInline c ++ headCellEndTag) :=
        onPage_cells (hdata hdr List.mem_cons_self) (by decide) (by decide)
      have hbody : OnPage (rows.flatMap fun r ↦
          rowTag ++ ((cells r).flatMap fun c ↦ cellTag ++ mdInline c ++ cellEndTag) ++ rowEndTag) := by
        apply Composed.flatMap
        intro r hr
        have hcells : OnPage ((cells r).flatMap fun c ↦ cellTag ++ mdInline c ++ cellEndTag) :=
          onPage_cells (hdata r (List.mem_cons_of_mem hdr hr)) (by decide) (by decide)
        exact onPage_between (by decide) hcells (by decide)
      have hwrap := (onPage_tag (t := wrapTag) (by decide)).append (onPage_tag (t := tableTag) (by decide))
      exact ((hwrap.append (onPage_between (by decide) hhead (by decide))).append
        (onPage_between (by decide) hbody (by decide))).append (onPage_tag (by decide))

theorem onPage_joined {glue : Text} (hglue : OnPage glue) {texts : List Text}
    (h : ∀ t ∈ texts, OnPage t) : OnPage (joined glue texts) := by
  induction texts with
  | nil => exact Composed.nil
  | cons a texts ih =>
      have ha := h a List.mem_cons_self
      have ih := ih fun t ht ↦ h t (List.mem_cons_of_mem a ht)
      cases texts with
      | nil => exact ha
      | cons b texts => exact (ha.append hglue).append ih

theorem letters_headingText {text heading : Text} (h : headingText text = some heading) :
    heading ⊆ text := by
  induction text generalizing heading with
  | nil =>
      cases h
      exact List.nil_subset _
  | cons c text ih =>
      rw [headingText] at h
      split at h
      · cases h
        exact List.nil_subset _
      · split at h
        · cases h
        · obtain ⟨r, hr, rfl⟩ := Option.map_eq_some_iff.mp h
          exact List.cons_subset_cons c (ih hr)

theorem of_headingOf {t heading : Text} {level : ℕ} (h : headingOf t = some (level, heading)) :
    (1 ≤ level ∧ level ≤ 6) ∧ heading ⊆ t := by
  unfold headingOf at h
  dsimp only at h
  split at h
  · rename_i hlevel
    obtain ⟨r, hr, heq⟩ := Option.map_eq_some_iff.mp h
    cases heq
    refine ⟨⟨hlevel.1, hlevel.2.1⟩, ?_⟩
    intro c hc
    exact List.drop_subset _ _ (List.dropWhile_subset _ (letters_headingText hr hc))
  · cases h

theorem headingTag_mem {level : ℕ} (h : 1 ≤ level ∧ level ≤ 6) :
    headingTag level ∈ blockTags ∧ headingEndTag level ∈ blockTags := by
  obtain ⟨hlow, hhigh⟩ := h
  interval_cases level <;> decide

theorem Letters.unquoted {line : Text} (h : Letters line) : Letters (unquoted line) := by
  have hdrop : Letters ((Reasoning.trim isSpace line).drop 4) := h.trim.of_subset (List.drop_subset _ _)
  exact Letters.ite (hdrop.of_subset (List.tail_subset _)) hdrop

theorem letters_orderedItem {line digits item : Text} (h : Letters line)
    (hitem : orderedItem line = some (digits, item)) :
    Letters item ∧ ∀ c ∈ digits, isDigit c = true := by
  unfold orderedItem at hitem
  dsimp only at hitem
  split at hitem
  · cases hitem
  · obtain ⟨r, hr, heq⟩ := Option.map_eq_some_iff.mp hitem
    cases heq
    constructor
    · exact (h.trim.of_subset (List.dropWhile_subset _)).of_subset (suffix_of_after hr).subset
    · exact fun c hc ↦ List.mem_takeWhile_imp hc

theorem letters_bulletItem {line item : Text} (h : Letters line) (hitem : bulletItem line = some item) :
    Letters item := by
  unfold bulletItem at hitem
  have ht := h.trim
  generalize Reasoning.trim isSpace line = t at ht hitem
  cases t with
  | nil => cases hitem
  | cons c text =>
      dsimp only at hitem
      split at hitem
      · exact (ht.of_subset (List.subset_cons_self _ _)).of_subset (suffix_of_after hitem).subset
      · cases hitem

theorem onPage_listItems {items : List Text} (h : ∀ item ∈ items, Letters item) :
    OnPage (listItems items) :=
  Composed.flatMap fun item hitem ↦
    onPage_between (by decide) (onPage_mdInline (h item hitem)) (by decide)

section

variable {numberText : Text → Text}

theorem onPage_openOrdered {digits : Text} (h : ∀ c ∈ numberText digits, isNumeral c = true) :
    OnPage (openOrdered numberText digits) := by
  unfold openOrdered
  split
  · exact onPage_tag (by decide)
  · exact Composed.piece (Piece.ordered (numberText digits) h)

/-- A block is made of pieces, whichever it is. -/
theorem onPage_block
    (hnumber : ∀ digits : Text, (∀ c ∈ digits, isDigit c = true) →
      ∀ c ∈ numberText digits, isNumeral c = true)
    {line : Text} {rest : List Text} (hline : Letters line) (hrest : ∀ l ∈ rest, Letters l) :
    OnPage (block numberText line rest).1 := by
  have hlines : ∀ (p : Text → Bool), ∀ l ∈ line :: rest.takeWhile p, Letters l := by
    intro p l hl
    rcases List.mem_cons.mp hl with rfl | hl
    · exact hline
    · exact hrest l (List.takeWhile_subset _ hl)
  unfold block
  dsimp only
  split
  · have hnewline : OnPage [newline] :=
      Letters.onPage fun c hc ↦ by obtain rfl := List.mem_singleton.mp hc; decide
    have hcode : OnPage (joined [newline] (rest.takeWhile (!closesFence ·))) :=
      onPage_joined hnewline fun l hl ↦ (hrest l (List.takeWhile_subset _ hl)).onPage
    exact onPage_between (by decide) hcode (by decide)
  · split
    · rename_i level heading hheading
      obtain ⟨hlevel, hsub⟩ := of_headingOf hheading
      have htext := onPage_mdInline (hline.trim.of_subset hsub)
      exact onPage_between (headingTag_mem hlevel).1 htext (headingTag_mem hlevel).2
    · split
      · show OnPage ruleTag
        exact onPage_tag (by decide)
      · split
        · have hquoted : ∀ t ∈ (line :: rest.takeWhile isQuote).map fun l ↦ mdInline (unquoted l),
              OnPage t := by
            intro t ht
            obtain ⟨l, hl, rfl⟩ := List.mem_map.mp ht
            exact onPage_mdInline (hlines isQuote l hl).unquoted
          exact onPage_between (by decide) (onPage_joined (onPage_tag (by decide)) hquoted) (by decide)
        · split
          · exact onPage_mdTable (hlines isTableLine)
          · split
            · rename_i digits item hitem
              have hdigits := (letters_orderedItem hline hitem).2
              have hitems : ∀ i ∈ (line :: rest.takeWhile fun l ↦ (orderedItem l).isSome).filterMap
                  (fun l ↦ (orderedItem l).map Prod.snd), Letters i := by
                intro i hi
                obtain ⟨l, hl, hil⟩ := List.mem_filterMap.mp hi
                obtain ⟨r, hr, rfl⟩ := Option.map_eq_some_iff.mp hil
                have hr' : orderedItem l = some (r.1, r.2) := hr
                exact (letters_orderedItem (hlines _ l hl) hr').1
              exact ((onPage_openOrdered (hnumber digits hdigits)).append
                (onPage_listItems hitems)).append (onPage_tag (by decide))
            · split
              · have hitems : ∀ i ∈ (line :: rest.takeWhile fun l ↦ (bulletItem l).isSome).filterMap
                    bulletItem, Letters i := by
                  intro i hi
                  obtain ⟨l, hl, hil⟩ := List.mem_filterMap.mp hi
                  exact letters_bulletItem (hlines _ l hl) hil
                exact onPage_between (by decide) (onPage_listItems hitems) (by decide)
              · split
                · show OnPage breakTag
                  exact onPage_tag (by decide)
                · exact onPage_between (by decide) (onPage_mdInline hline.trim) (by decide)

theorem onPage_blocks
    (hnumber : ∀ digits : Text, (∀ c ∈ digits, isDigit c = true) →
      ∀ c ∈ numberText digits, isNumeral c = true)
    {lines : List Text} (h : ∀ l ∈ lines, Letters l) : OnPage (blocks numberText lines) := by
  induction hlength : lines.length using Nat.strong_induction_on generalizing lines with
  | _ n ih =>
      cases lines with
      | nil =>
          rw [blocks]
          exact Composed.nil
      | cons line rest =>
          have hrest : ∀ l ∈ rest, Letters l := fun l hl ↦ h l (List.mem_cons_of_mem line hl)
          have hleft := suffix_block numberText line rest
          have hlt : (block numberText line rest).2.length < n := by
            have hle := hleft.length_le
            rw [List.length_cons] at hlength
            omega
          rw [blocks]
          apply Composed.append
          · exact onPage_block hnumber (h line List.mem_cons_self) hrest
          · exact ih _ hlt (fun l hl ↦ hrest l (hleft.subset hl)) rfl

end

theorem letters_escapeHtml (text : Text) : Letters (escapeHtml text) := by
  rw [escapeHtml_eq]
  intro c hc
  obtain ⟨u, -, hu⟩ := List.mem_flatMap.mp hc
  unfold escapeUnit at hu
  split_ifs at hu with hamp hlt hgt hquot
  · exact List.all_eq_true.mp (by decide) c hu
  · exact List.all_eq_true.mp (by decide) c hu
  · exact List.all_eq_true.mp (by decide) c hu
  · exact List.all_eq_true.mp (by decide) c hu
  · obtain rfl := List.mem_singleton.mp hu
    unfold isLetter
    simp [hlt, hgt, hquot]

/-- A rendered text is made of pieces, whatever it says. -/
theorem rendered_is_safe (numberText : Text → Text)
    (hnumber : ∀ digits : Text, (∀ c ∈ digits, isDigit c = true) →
      ∀ c ∈ numberText digits, isNumeral c = true) (text : Text) :
    ∃ pieces : List Piece, renderMarkdown numberText text = pieces.flatMap Piece.html := by
  apply onPage_blocks hnumber
  intro l hl
  exact (letters_escapeHtml text).of_subset (mem_of_mem_splitOnP hl)

/-- The text of a number below `2 ^ 53`: the leading zeros of its digits go. -/
def shortNumberText (digits : Text) : Text :=
  match digits.dropWhile (· == unit '0') with
  | [] => [unit '0']
  | c :: others => c :: others

theorem shortNumberText_numeral (digits : Text) (h : ∀ c ∈ digits, isDigit c = true) :
    ∀ c ∈ shortNumberText digits, isNumeral c = true := by
  intro c hc
  unfold shortNumberText at hc
  split at hc
  · obtain rfl := List.mem_singleton.mp hc
    decide
  · rename_i heq
    rw [← heq] at hc
    unfold isNumeral
    rw [h c (List.dropWhile_subset _ hc)]
    rfl

/-- `7. [x](https://a" b)` -/
theorem quoted_link_is_safe :
    ∃ pieces : List Piece, renderMarkdown shortNumberText
      (literal ['7', '.', ' ', '[', 'x', ']', '(', 'h', 't', 't', 'p', 's', ':', '/', '/', 'a', '"',
        ' ', 'b', ')']) = pieces.flatMap Piece.html :=
  rendered_is_safe shortNumberText shortNumberText_numeral _

end Tesbo.Markdown
