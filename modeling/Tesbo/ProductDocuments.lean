import Tesbo.NyraReview
import Tesbo.Slices

/-!
# What a product document holds

The document does not depend on the order of the findings, has each of them in one block of the
section of its kind, and knows whether one of its values was cut.
-/

namespace Tesbo.NyraReview

open Reasoning
open Reasoning.JsonTexts

/-! ## The property -/

/-- The block of a finding, with its values cut as given. -/
def blockWith [Unicode] (cut : String → ℕ → String) (kind : DocKind) (item : Item) : DocBlock :=
  ⟨cut (headingOf item.title) headingMax,
    ((factsOf kind item.data).filter fun fact ↦ jsTrim fact.2 ≠ "").map fun fact ↦
      (fact.1, cut (jsTrim fact.2) valueMax),
    (stepsOf kind item.data).map fun step ↦ cut step valueMax⟩

def uncut (v : String) (_ : ℕ) : String := v

/-- A value that is rendered differs from the one it was made of. -/
def SomethingCut [Unicode] (projectName : String) (appUrl : Option String) (items : List Item) :
    Prop :=
  (∃ i ∈ items, blockWith cutTo i.kind i ≠ blockWith uncut i.kind i ∨
      i.kind = .feature ∧ cutTo (moduleOf i) headingMax ≠ moduleOf i) ∨
    cutTo projectName headingMax ≠ projectName ∨
      cutTo (appUrl.getD "") headingMax ≠ appUrl.getD ""

def sectionId : DocKind → String
  | .screen => "screens"
  | .feature => "features"
  | .workflow => "journeys"
  | .businessRule => "rules"
  | .form => "forms"
  | .tech => "tech"

def DocSection.blocks (s : DocSection) : List DocBlock := s.groups.flatMap DocGroup.blocks

/-- The blocks of the section for a kind. -/
def ProductDocument.blocksOf (doc : ProductDocument) (k : DocKind) : List DocBlock :=
  (doc.sections.filter fun s ↦ s.id = sectionId k).flatMap DocSection.blocks

structure Holds [Unicode] (projectName : String) (appUrl : Option String) (items : List Item)
    (doc : ProductDocument) : Prop where
  sections : (doc.sections.map DocSection.id).Nodup
  kinds : ∀ s ∈ doc.sections, ∃ k, s.id = sectionId k
  blocks : ∀ k, (doc.blocksOf k).Perm ((byKind k items).map (blockWith cutTo k))
  counts : ∀ k, doc.counts k = (doc.blocksOf k).length
  clipped : doc.clipped = true ↔ SomethingCut projectName appUrl items

/-! ## Computations that mark a cut -/

/-- The computation ends with the value, and marks a cut if there is one. -/
def Gives {α : Type} (m : StateM Bool α) (a : α) (cut : Bool) : Prop :=
  ∀ before, m.run before = (a, before || cut)

theorem gives_pure {α : Type} (a : α) : Gives (pure a) a false := by
  intro before
  rw [Bool.or_false]
  rfl

theorem gives_bind {α β : Type} {m : StateM Bool α} {f : α → StateM Bool β} {a : α} {b : β}
    {cut cut' : Bool} (hm : Gives m a cut) (hf : Gives (f a) b cut') :
    Gives (m >>= f) b (cut || cut') := by
  intro before
  rw [StateT.run_bind, hm before]
  exact (hf _).trans (by rw [Bool.or_assoc])

/-- A last step that only puts values together. -/
theorem gives_map {α β : Type} {m : StateM Bool α} {a : α} {cut : Bool} (hm : Gives m a cut)
    (f : α → β) : Gives (m >>= fun a ↦ pure (f a)) (f a) cut := by
  have h := gives_bind hm (gives_pure (f a)) (f := fun a ↦ pure (f a))
  rw [Bool.or_false] at h
  exact h

theorem gives_mapM {α β : Type} {f : α → StateM Bool β} {g : α → β} {cut : α → Bool}
    (h : ∀ a, Gives (f a) (g a) (cut a)) (l : List α) :
    Gives (l.mapM f) (l.map g) (l.any cut) := by
  induction l with
  | nil => exact gives_pure []
  | cons a l ih =>
      rw [List.mapM_cons, List.map_cons, List.any_cons]
      exact gives_bind (h a) (gives_map ih fun rest ↦ g a :: rest)

/-! ## Cuts -/

def overlong (v : String) (max : ℕ) : Bool := max < jsLength v

theorem gives_clip (v : String) (max : ℕ) : Gives (clip v max) (cutTo v max) (overlong v max) := by
  intro before
  unfold clip overlong
  by_cases hle : jsLength v ≤ max
  · rw [if_neg (not_not_intro hle), decide_eq_false (Nat.not_lt.mpr hle), Bool.or_false]
    rfl
  · rw [if_pos hle, decide_eq_true (Nat.lt_of_not_le hle), Bool.or_true]
    rfl

theorem jsLength_dots : jsLength "…" = 1 := by decide

/-- What was cut has changed: it has got shorter. -/
theorem cutTo_ne_iff (v : String) {max : ℕ} (hmax : 1 ≤ max) :
    cutTo v max ≠ v ↔ overlong v max = true := by
  unfold cutTo overlong
  rw [decide_eq_true_eq]
  by_cases hle : jsLength v ≤ max
  · rw [if_pos hle]
    exact iff_of_false (fun h ↦ h rfl) (Nat.not_lt.mpr hle)
  · rw [if_neg hle]
    refine iff_of_true (fun h ↦ ?_) (Nat.lt_of_not_le hle)
    have hlen := congrArg jsLength h
    rw [jsLength_append, jsLength_jsSlice, jsLength_dots] at hlen
    omega

theorem cutTo_eq_iff (v : String) {max : ℕ} (hmax : 1 ≤ max) :
    cutTo v max = v ↔ overlong v max = false := by
  rw [← not_iff_not, ← ne_eq, cutTo_ne_iff v hmax, Bool.not_eq_false]

/-- Whether a value of the finding's block is too long. -/
def cutIn [Unicode] (kind : DocKind) (item : Item) : Bool :=
  ((factsOf kind item.data).filter fun fact ↦ jsTrim fact.2 ≠ "").any
      (fun fact ↦ overlong (jsTrim fact.2) valueMax) ||
    ((stepsOf kind item.data).any (fun step ↦ overlong step valueMax) ||
      overlong (headingOf item.title) headingMax)

theorem gives_block [Unicode] (kind : DocKind) (item : Item) :
    Gives (blockOf kind item) (blockWith cutTo kind item) (cutIn kind item) := by
  let facts := (factsOf kind item.data).filter fun fact ↦ jsTrim fact.2 ≠ ""
  have hfact : ∀ fact : String × String, Gives (clipFact fact)
      (fact.1, cutTo (jsTrim fact.2) valueMax) (overlong (jsTrim fact.2) valueMax) :=
    fun fact ↦ gives_map (gives_clip (jsTrim fact.2) valueMax) (Prod.mk fact.1)
  have hfacts := gives_mapM hfact facts
  have hsteps := gives_mapM (fun step ↦ gives_clip step valueMax) (stepsOf kind item.data)
  have hheading := fun facts steps ↦ gives_map (gives_clip (headingOf item.title) headingMax)
    fun heading ↦ DocBlock.mk heading facts steps
  unfold blockOf blockWith cutIn
  exact gives_bind hfacts (gives_bind hsteps (hheading _ _))

theorem cutIn_iff [Unicode] (kind : DocKind) (item : Item) :
    cutIn kind item = true ↔ blockWith cutTo kind item ≠ blockWith uncut kind item := by
  rw [← not_iff_not, not_not, Bool.not_eq_true]
  unfold cutIn blockWith uncut
  rw [Bool.or_eq_false_iff, Bool.or_eq_false_iff, DocBlock.mk.injEq, List.map_inj_left,
    List.map_inj_left, List.any_eq_false, List.any_eq_false, ← cutTo_eq_iff _ (by decide)]
  constructor
  · rintro ⟨hfacts, hsteps, hheading⟩
    refine ⟨hheading, fun fact hfact ↦ ?_, fun step hstep ↦ ?_⟩
    · rw [(cutTo_eq_iff _ (by decide)).mpr (Bool.not_eq_true _ ▸ hfacts fact hfact)]
    · exact (cutTo_eq_iff _ (by decide)).mpr (Bool.not_eq_true _ ▸ hsteps step hstep)
  · rintro ⟨hheading, hfacts, hsteps⟩
    refine ⟨fun fact hfact ↦ ?_, fun step hstep ↦ ?_, hheading⟩
    · rw [Bool.not_eq_true, ← cutTo_eq_iff _ (by decide)]
      exact (Prod.mk.inj (hfacts fact hfact)).2
    · rw [Bool.not_eq_true, ← cutTo_eq_iff _ (by decide)]
      exact hsteps step hstep

/-! ## The sections without the state -/

/-- The groups that entries make, by their headings. -/
def groupsOf [Collation] (last : String) (entries : List (String × DocBlock)) : List DocGroup :=
  ((Assoc.groupBy Prod.fst entries).mergeSort fun a b ↦ (byHeading last a.1 b.1).isLE).map fun g ↦
    ⟨some g.1, g.2.map Prod.snd⟩

def flatOf (blocks : List DocBlock) : List DocGroup :=
  if blocks = [] then [] else [⟨none, blocks⟩]

/-- The groups of a kind's section, out of its findings in order. -/
def groupsFor [Unicode] [Collation] (kind : DocKind) (list : List Item) : List DocGroup :=
  match kind with
  | .feature =>
      groupsOf "General" (list.map fun i ↦
        (cutTo (moduleOf i) headingMax, blockWith cutTo .feature i))
  | .businessRule =>
      groupsOf "Other" (list.map fun i ↦ (categoryOf i, blockWith cutTo .businessRule i))
  | kind => flatOf (list.map (blockWith cutTo kind))

/-- Whether a value of a finding was cut, the heading of its group included. -/
def cutFor [Unicode] (kind : DocKind) (i : Item) : Bool :=
  match kind with
  | .feature => overlong (moduleOf i) headingMax || cutIn .feature i
  | kind => cutIn kind i

theorem gives_grouped [Unicode] [Collation] (items : List Item) (kind : DocKind)
    {groupOf : Item → StateM Bool String} {heading : Item → String} {cut : Item → Bool}
    (h : ∀ i, Gives (groupOf i) (heading i) (cut i)) (last : String) :
    Gives (grouped items kind groupOf last)
      (groupsOf last ((sorted (byKind kind items)).map fun i ↦
        (heading i, blockWith cutTo kind i)))
      ((sorted (byKind kind items)).any fun i ↦ cut i || cutIn kind i) := by
  have hentry : ∀ i, Gives (do let g ← groupOf i; return (g, ← blockOf kind i))
      (heading i, blockWith cutTo kind i) (cut i || cutIn kind i) :=
    fun i ↦ gives_bind (h i) (gives_map (gives_block kind i) (Prod.mk (heading i)))
  exact gives_map (gives_mapM hentry (sorted (byKind kind items))) (groupsOf last)

theorem gives_flat [Unicode] [Collation] (items : List Item) (kind : DocKind) :
    Gives (flat items kind) (flatOf ((sorted (byKind kind items)).map (blockWith cutTo kind)))
      ((sorted (byKind kind items)).any (cutIn kind)) :=
  gives_map (gives_mapM (gives_block kind) (sorted (byKind kind items))) flatOf

/-- The order in which the sections come. -/
def sectionKinds : List (DocKind × String) :=
  [(.feature, "Features"), (.workflow, "Journeys"), (.screen, "Screens"),
    (.businessRule, "Business rules"), (.form, "Appendix: forms"),
    (.tech, "Appendix: technical profile")]

def sectionsWith [Unicode] [Collation] (items : List Item) : List DocSection :=
  (sectionKinds.map fun e ↦
    DocSection.mk (sectionId e.1) e.2 (groupsFor e.1 (sorted (byKind e.1 items)))).filter
      fun s ↦ s.groups ≠ []

def cutInSections [Unicode] [Collation] (items : List Item) : Bool :=
  sectionKinds.any fun e ↦ (sorted (byKind e.1 items)).any (cutFor e.1)

theorem gives_sections [Unicode] [Collation] (items : List Item) :
    Gives (sectionsOf items) (sectionsWith items) (cutInSections items) := by
  have hfeatures := gives_grouped items .feature (fun i ↦ gives_clip (moduleOf i) headingMax)
    "General"
  have hrules := gives_grouped items .businessRule (fun i ↦ gives_pure (categoryOf i)) "Other"
  have hcut : cutInSections items =
      ((sorted (byKind .feature items)).any (cutFor .feature) ||
        ((sorted (byKind .workflow items)).any (cutIn .workflow) ||
          ((sorted (byKind .screen items)).any (cutIn .screen) ||
            ((sorted (byKind .businessRule items)).any (fun i ↦ false || cutIn .businessRule i) ||
              ((sorted (byKind .form items)).any (cutIn .form) ||
                (sorted (byKind .tech items)).any (cutIn .tech)))))) := by
    unfold cutInSections sectionKinds
    rw [List.any_cons, List.any_cons, List.any_cons, List.any_cons, List.any_cons, List.any_cons,
      List.any_nil, Bool.or_false]
    simp only [Bool.false_or]
    rfl
  rw [hcut]
  unfold sectionsOf
  apply gives_bind hfeatures
  apply gives_bind (gives_flat items .workflow)
  apply gives_bind (gives_flat items .screen)
  apply gives_bind hrules
  apply gives_bind (gives_flat items .form)
  exact gives_map (gives_flat items .tech) _

/-! ## The document without the state -/

def introWith (projectName : String) (appUrl : Option String) (counts : DocKind → ℕ) :
    List String :=
  let app := if appUrl.getD "" = "" then "the app" else cutTo (appUrl.getD "") headingMax
  ["What " ++ cutTo projectName headingMax ++
      " is and how it behaves, from NYRA's exploration of " ++ app ++
      ". A person reviewed every finding in this document and marked it correct, or corrected it.",
    if summaryOf counts = [] then "" else "Contents: " ++ ", ".intercalate (summaryOf counts) ++ "."
  ].filter (· ≠ "")

theorem gives_intro (projectName : String) (appUrl : Option String) (counts : DocKind → ℕ) :
    Gives (introOf projectName appUrl counts) (introWith projectName appUrl counts)
      (overlong projectName headingMax || overlong (appUrl.getD "") headingMax) := by
  have happ : Gives (appOf appUrl)
      (if appUrl.getD "" = "" then "the app" else cutTo (appUrl.getD "") headingMax)
      (overlong (appUrl.getD "") headingMax) := by
    unfold appOf
    by_cases hnone : appUrl.getD "" = ""
    · rw [if_pos hnone, if_pos hnone, hnone]
      exact gives_pure "the app"
    · rw [if_neg hnone, if_neg hnone]
      exact gives_clip _ _
  exact gives_bind (gives_clip projectName headingMax) (gives_map happ _)

theorem buildProductDocument_eq [Unicode] [Collation] (projectName : String)
    (appUrl : Option String) (items : List Item) :
    buildProductDocument projectName appUrl items =
      ⟨kbTitle projectName, introWith projectName appUrl (countOf items), sectionsWith items,
        countOf items, cutInSections items ||
          (overlong projectName headingMax || overlong (appUrl.getD "") headingMax)⟩ := by
  have hparts : Gives (documentParts projectName appUrl items)
      (sectionsWith items, introWith projectName appUrl (countOf items))
      (cutInSections items ||
        (overlong projectName headingMax || overlong (appUrl.getD "") headingMax)) :=
    gives_bind (gives_sections items)
      (gives_map (gives_intro projectName appUrl (countOf items)) (Prod.mk (sectionsWith items)))
  unfold buildProductDocument
  dsimp only
  rw [hparts false, Bool.false_or]

/-! ## The order of the findings -/

theorem transCmp_comap {α : Type} (cmp : String → String → Ordering) [Std.TransCmp cmp]
    (f : α → String) : Std.TransCmp fun a b ↦ cmp (f a) (f b) where
  eq_swap {a b} := @Std.OrientedCmp.eq_swap _ cmp _ (f a) (f b)
  isLE_trans {a b c} := @Std.TransCmp.isLE_trans _ cmp _ (f a) (f b) (f c)

instance transCmp_byTitle [Collation] : Std.TransCmp byTitle := by
  have htitle := transCmp_comap Collation.localeCompare Item.title
  have hdata := transCmp_comap Collation.localeCompare fun i : Item ↦ stringify i.data
  unfold byTitle
  infer_instance

/-- Only a finding of the same kind, title and data ties with another of its kind. -/
theorem byTitle_eq [Collation] {a b : Item} (h : byTitle a b = .eq) :
    a.title = b.title ∧ a.data = b.data := by
  unfold byTitle at h
  rw [compareLex_eq_eq] at h
  exact ⟨Std.LawfulEqCmp.eq_of_compare h.1,
    stringify_injective (Std.LawfulEqCmp.eq_of_compare h.2)⟩

/-- What ties is the same finding, so its place does not matter. -/
theorem sorted_eq_of_perm [Collation] {k : DocKind} {items items' : List Item}
    (h : items.Perm items') : sorted (byKind k items) = sorted (byKind k items') := by
  have htotal : ∀ a b : Item, ((byTitle a b).isLE || (byTitle b a).isLE) = true := by
    intro a b
    rw [@Std.OrientedCmp.eq_swap _ byTitle _ b a]
    cases byTitle a b with
    | lt => rfl
    | eq => rfl
    | gt => rfl
  have hsorted : ∀ list : List Item, (sorted list).Pairwise fun a b ↦ (byTitle a b).isLE :=
    fun list ↦ List.pairwise_mergeSort (fun a b c ↦ Std.TransCmp.isLE_trans) htotal list
  have hperm : (sorted (byKind k items)).Perm (sorted (byKind k items')) :=
    (List.mergeSort_perm _ _).trans ((h.filter _).trans (List.mergeSort_perm _ _).symm)
  refine hperm.eq_of_pairwise (fun a b ha hb hab hba ↦ ?_) (hsorted _) (hsorted _)
  have hkind : ∀ {i : Item} {list : List Item}, i ∈ sorted (byKind k list) → i.kind = k :=
    fun hi ↦ of_decide_eq_true (List.mem_filter.mp ((List.mergeSort_perm _ _).mem_iff.mp hi)).2
  obtain ⟨htitle, hdata⟩ := byTitle_eq (Std.OrientedCmp.isLE_antisymm hab hba)
  have hkinds : a.kind = b.kind := (hkind ha).trans (hkind hb).symm
  cases a
  cases b
  cases htitle
  cases hdata
  cases hkinds
  rfl

theorem buildProductDocument_perm [Unicode] [Collation] (projectName : String)
    (appUrl : Option String) {items items' : List Item} (h : items.Perm items') :
    buildProductDocument projectName appUrl items = buildProductDocument projectName appUrl items' := by
  have hcount : countOf items = countOf items' := by
    funext k
    exact h.countP_eq _
  have hsections : sectionsWith items = sectionsWith items' := by
    unfold sectionsWith
    simp only [sorted_eq_of_perm h]
  have hcut : cutInSections items = cutInSections items' := by
    unfold cutInSections
    simp only [sorted_eq_of_perm h]
  rw [buildProductDocument_eq, buildProductDocument_eq, hcount, hsections, hcut]

/-! ## What the sections hold -/

theorem perm_groupsOf [Collation] (last : String) (entries : List (String × DocBlock)) :
    ((groupsOf last entries).flatMap DocGroup.blocks).Perm (entries.map Prod.snd) := by
  have hgroups : (groupsOf last entries).flatMap DocGroup.blocks =
      (((Assoc.groupBy Prod.fst entries).mergeSort fun a b ↦
        (byHeading last a.1 b.1).isLE).flatMap Prod.snd).map Prod.snd := by
    unfold groupsOf
    rw [List.flatMap_map, List.map_flatMap]
  rw [hgroups]
  apply List.Perm.map
  exact ((List.mergeSort_perm _ _).flatMap_right _).trans (Assoc.perm_groupBy entries)

theorem blocks_flatOf (blocks : List DocBlock) :
    (flatOf blocks).flatMap DocGroup.blocks = blocks := by
  unfold flatOf
  split
  · next hnone =>
      rw [hnone]
      rfl
  · simp

/-- Each finding makes one block of its section. -/
theorem perm_groupsFor [Unicode] [Collation] (kind : DocKind) (list : List Item) :
    ((groupsFor kind list).flatMap DocGroup.blocks).Perm (list.map (blockWith cutTo kind)) := by
  unfold groupsFor
  split
  · have h := perm_groupsOf "General" (list.map fun i ↦
      (cutTo (moduleOf i) headingMax, blockWith cutTo .feature i))
    rw [List.map_map] at h
    exact h
  · have h := perm_groupsOf "Other" (list.map fun i ↦
      (categoryOf i, blockWith cutTo .businessRule i))
    rw [List.map_map] at h
    exact h
  · rw [blocks_flatOf]

/-- A section without groups has no blocks. -/
theorem blocks_filter (p : DocSection → Bool) (list : List DocSection) :
    ((list.filter fun s ↦ s.groups ≠ []).filter p).flatMap DocSection.blocks =
      (list.filter p).flatMap DocSection.blocks := by
  induction list with
  | nil => rfl
  | cons s list ih =>
      by_cases hgroups : s.groups = []
      · have hnone : s.blocks = [] := by
          unfold DocSection.blocks
          rw [hgroups, List.flatMap_nil]
        rw [List.filter_cons_of_neg (by simpa using hgroups), ih, List.filter_cons]
        split
        · rw [List.flatMap_cons, hnone, List.nil_append]
        · rfl
      · rw [List.filter_cons_of_pos (by simpa using hgroups), List.filter_cons, List.filter_cons]
        split
        · rw [List.flatMap_cons, List.flatMap_cons, ih]
        · exact ih

theorem sectionKinds_filter (k : DocKind) :
    ∃ heading, (sectionKinds.filter fun e ↦ sectionId e.1 = sectionId k) = [(k, heading)] := by
  cases k with
  | screen => exact ⟨"Screens", by decide⟩
  | feature => exact ⟨"Features", by decide⟩
  | workflow => exact ⟨"Journeys", by decide⟩
  | businessRule => exact ⟨"Business rules", by decide⟩
  | form => exact ⟨"Appendix: forms", by decide⟩
  | tech => exact ⟨"Appendix: technical profile", by decide⟩

theorem blocksOf_sectionsWith [Unicode] [Collation] (items : List Item) (k : DocKind) :
    ((sectionsWith items).filter fun s ↦ s.id = sectionId k).flatMap DocSection.blocks =
      (groupsFor k (sorted (byKind k items))).flatMap DocGroup.blocks := by
  obtain ⟨heading, hkinds⟩ := sectionKinds_filter k
  unfold sectionsWith
  rw [blocks_filter, List.filter_map]
  have hfilter : (sectionKinds.filter ((fun s : DocSection ↦ decide (s.id = sectionId k)) ∘ fun e ↦
      DocSection.mk (sectionId e.1) e.2 (groupsFor e.1 (sorted (byKind e.1 items))))) =
        [(k, heading)] := hkinds
  rw [hfilter]
  exact List.append_nil _

theorem perm_blocksOf [Unicode] [Collation] (items : List Item) (k : DocKind) :
    (((sectionsWith items).filter fun s ↦ s.id = sectionId k).flatMap DocSection.blocks).Perm
      ((byKind k items).map (blockWith cutTo k)) := by
  rw [blocksOf_sectionsWith]
  exact (perm_groupsFor k _).trans ((List.mergeSort_perm _ _).map _)

/-! ## Cut values -/

theorem cutFor_iff [Unicode] (i : Item) :
    cutFor i.kind i = true ↔ blockWith cutTo i.kind i ≠ blockWith uncut i.kind i ∨
      i.kind = .feature ∧ cutTo (moduleOf i) headingMax ≠ moduleOf i := by
  unfold cutFor
  split
  · next hkind =>
      rw [Bool.or_eq_true, cutIn_iff, ← cutTo_ne_iff _ (by decide), hkind, or_comm]
      exact or_congr_right ⟨fun h ↦ ⟨rfl, h⟩, fun h ↦ h.2⟩
  · next hkind =>
      rw [cutIn_iff]
      exact ⟨.inl, fun h ↦ h.resolve_right fun hfeature ↦ hkind hfeature.1⟩

/-- A value of a section was cut when one of a finding was. -/
theorem cutInSections_iff [Unicode] [Collation] (items : List Item) :
    cutInSections items = true ↔ ∃ i ∈ items, cutFor i.kind i = true := by
  have hkinds : ∀ k : DocKind, ∃ e ∈ sectionKinds, e.1 = k := by
    intro k
    cases k with
    | screen => exact ⟨(.screen, "Screens"), by decide, rfl⟩
    | feature => exact ⟨(.feature, "Features"), by decide, rfl⟩
    | workflow => exact ⟨(.workflow, "Journeys"), by decide, rfl⟩
    | businessRule => exact ⟨(.businessRule, "Business rules"), by decide, rfl⟩
    | form => exact ⟨(.form, "Appendix: forms"), by decide, rfl⟩
    | tech => exact ⟨(.tech, "Appendix: technical profile"), by decide, rfl⟩
  have hmem : ∀ {i : Item} {k : DocKind}, i ∈ sorted (byKind k items) ↔ i ∈ items ∧ i.kind = k := by
    intro i k
    unfold sorted byKind
    rw [(List.mergeSort_perm _ _).mem_iff, List.mem_filter, decide_eq_true_eq]
  unfold cutInSections
  rw [List.any_eq_true]
  constructor
  · rintro ⟨e, -, he⟩
    obtain ⟨i, hi, hcut⟩ := List.any_eq_true.mp he
    obtain ⟨hitem, hkind⟩ := hmem.mp hi
    exact ⟨i, hitem, hkind ▸ hcut⟩
  · rintro ⟨i, hi, hcut⟩
    obtain ⟨e, he, hkind⟩ := hkinds i.kind
    refine ⟨e, he, List.any_eq_true.mpr ⟨i, hmem.mpr ⟨hi, hkind.symm⟩, ?_⟩⟩
    rw [hkind]
    exact hcut

theorem nodup_sectionIds : (sectionKinds.map fun e ↦ sectionId e.1).Nodup := by decide

theorem holds_buildProductDocument [Unicode] [Collation] (projectName : String)
    (appUrl : Option String) (items : List Item) :
    Holds projectName appUrl items (buildProductDocument projectName appUrl items) := by
  rw [buildProductDocument_eq]
  constructor
  · have hids := (List.filter_sublist (l := sectionKinds.map fun e ↦
      DocSection.mk (sectionId e.1) e.2 (groupsFor e.1 (sorted (byKind e.1 items))))
      (p := fun s ↦ s.groups ≠ [])).map DocSection.id
    apply List.Nodup.sublist hids
    rw [List.map_map]
    exact nodup_sectionIds
  · intro s hs
    obtain ⟨e, -, rfl⟩ := List.mem_map.mp (List.mem_of_mem_filter hs)
    exact ⟨e.1, rfl⟩
  · exact perm_blocksOf items
  · intro k
    have hlength := (perm_blocksOf items k).length_eq
    rw [List.length_map] at hlength
    unfold ProductDocument.blocksOf
    rw [hlength]
    exact List.countP_eq_length_filter
  · dsimp only
    unfold SomethingCut
    rw [Bool.or_eq_true, Bool.or_eq_true, cutInSections_iff, ← cutTo_ne_iff _ (by decide),
      ← cutTo_ne_iff _ (by decide)]
    simp only [cutFor_iff]

/-- What is previewed is what is stored: the document is made of the findings, in whatever order
they come, and holds each of them once. -/
theorem document_of_findings [Unicode] [Collation] (projectName : String) (appUrl : Option String)
    (items : List Item) :
    (∀ items', items.Perm items' →
        renderDocument (buildProductDocument projectName appUrl items) =
          renderDocument (buildProductDocument projectName appUrl items')) ∧
      Holds projectName appUrl items (buildProductDocument projectName appUrl items) := by
  refine ⟨fun items' h ↦ ?_, holds_buildProductDocument projectName appUrl items⟩
  rw [buildProductDocument_perm projectName appUrl h]

end Tesbo.NyraReview
