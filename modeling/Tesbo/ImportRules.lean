import Tesbo.ImportTestCases

/-!
# What an import keeps

An import writes suites and test cases of one project only, and files both under suites it knows:
the one the user had open, those it read and those it created.  The test cases of a chunk take ids
of one block.  `ImportRules` says what an invariant needs to be kept by such writes; the lemmas carry
it through the lookups, the two write paths and the savepoints.
-/

namespace Tesbo

open Reasoning Service

/-- A set of suites that the writes of an import of the project do not shrink, and that a suite it
creates joins, in states that satisfy `I`. -/
structure SuiteRules (projectId : Uuid) (good : Db → Uuid → Prop) (I : Db → Prop) : Prop where
  uuids : ∀ db uuids id, good db id → good { db with uuids := uuids } id
  suites : ∀ db s suites id, I db → s.liveIn projectId = true → db.suites.insert s = some suites →
    good db id ∨ id = s.id → good { db with suites := suites } id
  testcases : ∀ db testcases id, good db id → good { db with testcases := testcases } id

/-- An invariant that the writes of an import of the project keep: suites below good suites, test
cases in good suites under allowed ids. -/
structure ImportRules (projectId : Uuid) (good : Db → Uuid → Prop) (allowed : String → Prop)
    (I : Db → Prop) : Prop where
  uuids : ∀ db uuids, I db → I { db with uuids := uuids }
  suites : ∀ db s suites, I db → s.liveIn projectId = true →
    (∀ p, s.parentId = some p → good db p) → db.suites.insert s = some suites →
      I { db with suites := suites }
  testcases : ∀ db (rows : List Testcase) testcases, I db →
    (∀ t ∈ rows, t.projectId = projectId ∧ t.live = true ∧
      (∀ s, t.suiteId = some s → good db s) ∧ allowed t.externalId) →
      rows.foldlM insertTestcaseRow db.testcases = .ok testcases →
        I { db with testcases := testcases }

/-- The suite a text names, if it names one, is in the set. -/
def GoodText (good : Uuid → Prop) (t : Option IdText) : Prop :=
  ∀ p, t.map IdText.uuid = some (some p) → good p

instance (good : Uuid → Prop) [DecidablePred good] : ∀ t, Decidable (GoodText good t)
  | none => isTrue fun _ h ↦ by cases h
  | some t => decidable_of_iff (∀ p ∈ t.uuid, good p)
      ⟨fun h p hp ↦ h p (Option.some.inj hp), fun h p hp ↦ h p (congrArg some hp)⟩

/-- The suites the cache has under the names are in the set. -/
def GoodCache (named : String → Prop) (good : Uuid → Prop) (m : Assoc SuiteKey Uuid) : Prop :=
  ∀ e ∈ m, named e.1.2 → good e.2

/-- The ids of a block of `n` numbers, as they are stored, are allowed. -/
def BlockAllowed (allowed : String → Prop) (key : String) (start n : ℕ) : Prop :=
  ∀ i < n, ∀ id, varchar 32 (externalIdOf key (start + i)) = .ok id → allowed id

theorem BlockAllowed.of_all {allowed : String → Prop} (h : ∀ id, allowed id) (key : String)
    (start n : ℕ) : BlockAllowed allowed key start n := fun _ _ id _ ↦ h id

/-- The block without its first number. -/
theorem BlockAllowed.tail {allowed : String → Prop} {key : String} {start n : ℕ}
    (h : BlockAllowed allowed key start (n + 1)) : BlockAllowed allowed key (start + 1) n := by
  intro i hi id hid
  rw [Nat.add_assoc, Nat.add_comm 1 i] at hid
  exact h (i + 1) (by omega) id hid

theorem BlockAllowed.mono {allowed : String → Prop} {key : String} {start m n : ℕ} (hmn : m ≤ n)
    (h : BlockAllowed allowed key start n) : BlockAllowed allowed key start m :=
  fun i hi id hid ↦ h i (by omega) id hid

theorem GoodText.mono {good good' : Uuid → Prop} (h : ∀ id, good id → good' id) {t : Option IdText}
    (ht : GoodText good t) : GoodText good' t := fun p hp ↦ h p (ht p hp)

instance (named : String → Prop) (good : Uuid → Prop) [DecidablePred named] [DecidablePred good]
    (m : Assoc SuiteKey Uuid) : Decidable (GoodCache named good m) :=
  inferInstanceAs (Decidable (∀ e ∈ m, named e.1.2 → good e.2))

theorem GoodCache.mono {named : String → Prop} {good good' : Uuid → Prop}
    (h : ∀ id, good id → good' id) {m : Assoc SuiteKey Uuid} (hm : GoodCache named good m) :
    GoodCache named good' m := fun e he hn ↦ h e.2 (hm e he hn)

theorem goodText_canonical {good : Uuid → Prop} {id : Uuid} (h : good id) :
    GoodText good (some (.canonical id)) := by
  intro p hp
  obtain rfl : id = p := by simpa [IdText.uuid] using hp
  exact h

theorem goodText_none {good : Uuid → Prop} : GoodText good none := fun _ h ↦ by cases h

theorem GoodCache.get {named : String → Prop} {good : Uuid → Prop} {m : Assoc SuiteKey Uuid}
    (hm : GoodCache named good m) {key : SuiteKey} {id : Uuid} (h : m.get key = some id)
    (hn : named key.2) : good id := hm (key, id) (Assoc.mem_of_get h) hn

theorem GoodCache.set {named : String → Prop} {good : Uuid → Prop} {m : Assoc SuiteKey Uuid}
    (hm : GoodCache named good m) {key : SuiteKey} {id : Uuid} (h : named key.2 → good id) :
    GoodCache named good (m.set key id) := by
  intro e he hn
  rcases Assoc.mem_set he with rfl | he
  · exact h hn
  · exact hm e he hn

section Resolve

variable [Unicode] {projectId : Uuid} {good : Db → Uuid → Prop} {allowed : String → Prop}
  {I : Db → Prop} {named : String → Prop}

omit [Unicode] in
theorem goodCache_enterRescan {ν : Type} {good : Uuid → Prop} {keyOf : Suite → SuiteKey}
    {found : List Suite} {m : Assoc SuiteKey Uuid} {missing : Assoc SuiteKey ν}
    (hfound : ∀ s ∈ found, named (keyOf s).2 → good s.id) (hm : GoodCache named good m) :
    GoodCache named good (enterRescan keyOf found m missing).1 := by
  induction found generalizing m missing with
  | nil => exact hm
  | cons s found ih =>
      unfold enterRescan
      refine ih (fun r hr ↦ hfound r (List.mem_cons_of_mem s hr)) ?_
      exact hm.set (hfound s List.mem_cons_self)

omit [Unicode] in
/-- What is still missing after a rescan was missing before. -/
theorem mem_enterRescan_missing {ν : Type} {keyOf : Suite → SuiteKey} {found : List Suite}
    {m : Assoc SuiteKey Uuid} {missing : Assoc SuiteKey ν} {e : SuiteKey × ν}
    (h : e ∈ (enterRescan keyOf found m missing).2) : e ∈ missing := by
  induction found generalizing m missing with
  | nil => exact h
  | cons s found ih =>
      unfold enterRescan at h
      exact List.mem_of_mem_filter (ih h)

theorem createImportSuites_spec (hgood : SuiteRules projectId good I)
    (hI : ImportRules projectId good allowed I) {missing : List (Option IdText × Option IdText × String)}
    {m : Assoc SuiteKey Uuid} {db : Db} (hdb : I db) (hm : GoodCache named (good db) m)
    (hparents : ∀ e ∈ missing, GoodText (good db) e.2.1) :
    wp (createImportSuites projectId missing m)
      (fun m' db' ↦ I db' ∧ GoodCache named (good db') m' ∧ ∀ id, good db id → good db' id)
      (fun _ _ ↦ True) db := by
  induction missing generalizing m db with
  | nil => exact (wp_pure _).mpr ⟨hdb, hm, fun _ h ↦ h⟩
  | cons e missing ih =>
      obtain ⟨keyParent, parentId, name⟩ := e
      have hE : ∀ _ : Failure, True := fun _ ↦ trivial
      unfold createImportSuites
      refine wp_castUuid?_seq hE fun parent hparent ↦ ?_
      refine wp_ofExcept_seq hE fun name _ ↦ ?_
      rw [wp_bind, wp_genUuid]
      refine wp_query_seq ?_
      rw [wp_bind, wp_insertSuite]
      refine ⟨fun suites hsuites ↦ ?_, fun _ ↦ trivial⟩
      have hlive : (importedSuite (db.uuids 0) projectId parent name db.now).liveIn projectId = true :=
        Suite.liveIn_iff.mpr ⟨rfl, rfl⟩
      have hkeep : ∀ id, good db id → good { db with
          uuids := fun n ↦ db.uuids (n + 1), suites := suites } id := fun id hid ↦
        hgood.suites _ _ _ id (hI.uuids db _ hdb) hlive hsuites (.inl (hgood.uuids db _ id hid))
      refine wp_mono (ih ?_ ?_ ?_) ?_ fun _ _ h ↦ h
      · refine hI.suites _ _ _ (hI.uuids db _ hdb) hlive ?_ hsuites
        rintro p rfl
        exact hgood.uuids db _ p (hparents _ List.mem_cons_self p hparent)
      · exact (hm.mono hkeep).set fun _ ↦
          hgood.suites _ _ _ _ (hI.uuids db _ hdb) hlive hsuites (.inr rfl)
      · exact fun e he ↦ (hparents e (List.mem_cons_of_mem _ he)).mono hkeep
      · rintro m' db' ⟨hI', hm', hkeep'⟩
        exact ⟨hI', hm', fun id hid ↦ hkeep' id (hkeep id hid)⟩

/-- The names of the chunk are among the names. -/
def RowsNamed (named : String → Prop) (prepared : List PreparedImportRow) : Prop :=
  ∀ row ∈ prepared, named (normalizeImportName row.suiteName) ∧
    named (normalizeImportName row.componentName)

theorem rowsNamed_true (prepared : List PreparedImportRow) : RowsNamed (fun _ ↦ True) prepared :=
  fun _ _ ↦ ⟨trivial, trivial⟩

theorem goodText_parentSuite {ctx : ImportContext} {good : Uuid → Prop} {m : Assoc SuiteKey Uuid}
    {row : PreparedImportRow} (hdefault : GoodText good ctx.defaultSuiteId)
    (hm : GoodCache named good m) (hrow : named (normalizeImportName row.suiteName)) :
    GoodText good (parentSuite ctx m row) := by
  unfold parentSuite
  split
  · exact hdefault
  · cases hget : m.get (importSuiteKey row.suiteName ctx.defaultSuiteId) with
    | none => exact hdefault
    | some id => exact goodText_canonical (hm.get hget hrow)

theorem goodText_landingSuite {good : Uuid → Prop} {m : Assoc SuiteKey Uuid}
    {parent : Option IdText} {row : PreparedImportRow} (hparent : GoodText good parent)
    (hm : GoodCache named good m) (hrow : named (normalizeImportName row.componentName)) :
    GoodText good (landingSuite m parent row) := by
  unfold landingSuite
  cases parent with
  | none => exact goodText_none
  | some parent =>
      dsimp only
      split
      · exact hparent
      · cases hget : m.get (importSuiteKey row.componentName (some parent)) with
        | none => exact hparent
        | some id => exact goodText_canonical (hm.get hget hrow)

/-- The parents of the missing component suites are good. -/
theorem goodText_missingChild {ctx : ImportContext} {good : Uuid → Prop} {m : Assoc SuiteKey Uuid}
    (hdefault : GoodText good ctx.defaultSuiteId) (hm : GoodCache named good m)
    {prepared : List PreparedImportRow} (hrows : RowsNamed named prepared)
    {missing : Assoc SuiteKey (IdText × String)} {expand : List IdText}
    (hmissing : ∀ e ∈ missing, GoodText good (some e.2.1)) :
    ∀ e ∈ (missingChild ctx m prepared missing expand).1, GoodText good (some e.2.1) := by
  induction prepared generalizing missing expand with
  | nil => exact hmissing
  | cons row prepared ih =>
      have hrest : RowsNamed named prepared := fun r hr ↦ hrows r (List.mem_cons_of_mem row hr)
      have hparent := goodText_parentSuite hdefault hm (hrows row List.mem_cons_self).1
      unfold missingChild
      cases hcase : parentSuite ctx m row with
      | none => exact ih hrest hmissing
      | some parent =>
          rw [hcase] at hparent
          dsimp only
          split
          · exact ih hrest hmissing
          · split
            · exact ih hrest hmissing
            · refine ih hrest fun e he ↦ ?_
              rcases Assoc.mem_set he with rfl | he
              · exact hparent
              · exact hmissing e he

/-- A snapshot whose live suites of the project with one of the names are good. -/
def GoodSnapshot (projectId : Uuid) (named : String → Prop) (good : Uuid → Prop)
    (snapshot : Db) : Prop :=
  ∀ s ∈ snapshot.suites, s.liveIn projectId = true → named (normalizeImportName s.name) → good s.id

instance (named : String → Prop) (good : Uuid → Prop) [DecidablePred named] [DecidablePred good]
    (snapshot : Db) : Decidable (GoodSnapshot projectId named good snapshot) :=
  inferInstanceAs (Decidable (∀ s ∈ snapshot.suites, s.liveIn projectId = true → _ → good s.id))

theorem GoodSnapshot.mono {good good' : Uuid → Prop} (h : ∀ id, good id → good' id)
    {snapshot : Db} (hs : GoodSnapshot projectId named good snapshot) :
    GoodSnapshot projectId named good' snapshot := fun s hmem hlive hn ↦ h s.id (hs s hmem hlive hn)

omit [Unicode] in
theorem mem_rescanSuites {parent : Option Uuid} {snapshot : Db} {s : Suite}
    (h : s ∈ rescanSuites projectId parent snapshot) :
    s ∈ snapshot.suites ∧ s.liveIn projectId = true := by
  obtain ⟨hmem, hp⟩ := Table.mem_select.mp h
  exact ⟨hmem, (Bool.and_eq_true _ _ ▸ hp).1⟩

theorem resolveTopSuites_spec (hgood : SuiteRules projectId good I)
    (hI : ImportRules projectId good allowed I) {snapshot : Db} {ctx : ImportContext}
    {m : Assoc SuiteKey Uuid} {prepared : List PreparedImportRow} {db : Db}
    (hproject : ctx.projectId = projectId) (hdb : I db) (hm : GoodCache named (good db) m)
    (hdefault : GoodText (good db) ctx.defaultSuiteId)
    (hsnapshot : GoodSnapshot projectId named (good db) snapshot) :
    wp (resolveTopSuites snapshot ctx m prepared)
      (fun m' db' ↦ I db' ∧ GoodCache named (good db') m' ∧ ∀ id, good db id → good db' id)
      (fun _ _ ↦ True) db := by
  subst hproject
  unfold resolveTopSuites
  dsimp only
  refine wp_castUuid?_seq (fun _ ↦ trivial) fun defaultSuite _ ↦ ?_
  refine createImportSuites_spec hgood hI hdb (goodCache_enterRescan (fun s hs hn ↦ ?_) hm) ?_
  · split at hs
    · cases hs
    · obtain ⟨hmem, hlive⟩ := mem_rescanSuites hs
      exact hsnapshot s hmem hlive hn
  · intro e he
    obtain ⟨entry, -, rfl⟩ := List.mem_map.mp he
    exact hdefault

theorem resolveChildSuites_spec (hgood : SuiteRules projectId good I)
    (hI : ImportRules projectId good allowed I) {snapshot : Db} {ctx : ImportContext} {cache : SuiteCache}
    {prepared : List PreparedImportRow} {db : Db} (hproject : ctx.projectId = projectId)
    (hdb : I db) (hcache : GoodCache named (good db) cache.suiteIdByKey)
    (hdefault : GoodText (good db) ctx.defaultSuiteId)
    (hsnapshot : GoodSnapshot projectId named (good db) snapshot)
    (hrows : RowsNamed named prepared) :
    wp (resolveChildSuites snapshot ctx cache prepared)
      (fun cache' db' ↦ I db' ∧ GoodCache named (good db') cache'.suiteIdByKey ∧
        ∀ id, good db id → good db' id)
      (fun _ _ ↦ True) db := by
  have hE : ∀ _ : Failure, True := fun _ ↦ trivial
  subst hproject
  unfold resolveChildSuites
  dsimp only
  refine wp_ofExcept_seq hE fun parents _ ↦ ?_
  refine wp_ofExcept_seq hE fun created _ ↦ ?_
  have hmissing : ∀ e ∈ (missingChild ctx cache.suiteIdByKey prepared [] cache.expandSuiteIds).1,
      GoodText (good db) (some e.2.1) :=
    goodText_missingChild hdefault hcache hrows fun e he ↦ by cases he
  refine wp_seq (createImportSuites_spec hgood hI hdb
    (goodCache_enterRescan (fun s hs hn ↦ ?_) hcache) ?_) ?_
  · obtain ⟨parent, -, hs⟩ := List.mem_flatMap.mp hs
    obtain ⟨hmem, hlive⟩ := mem_rescanSuites hs
    exact hsnapshot s hmem hlive hn
  · intro e he
    obtain ⟨entry, hentry, rfl⟩ := List.mem_map.mp he
    exact hmissing entry (mem_enterRescan_missing hentry)
  · intro m' db' h
    exact (wp_pure _).mpr h

/-- Every row of a resolved chunk lands in no suite or in a good one. -/
theorem resolveImportSuites_spec (hgood : SuiteRules projectId good I)
    (hI : ImportRules projectId good allowed I) {snapshot : Db} {ctx : ImportContext} {cache : SuiteCache}
    {prepared : List PreparedImportRow} {db : Db} (hproject : ctx.projectId = projectId)
    (hdb : I db) (hcache : GoodCache named (good db) cache.suiteIdByKey)
    (hdefault : GoodText (good db) ctx.defaultSuiteId)
    (hsnapshot : GoodSnapshot projectId named (good db) snapshot)
    (hrows : RowsNamed named prepared) :
    wp (resolveImportSuites snapshot ctx cache prepared)
      (fun resolved db' ↦ I db' ∧ GoodCache named (good db') resolved.1.suiteIdByKey ∧
        (∀ id, good db id → good db' id) ∧ resolved.2.length = prepared.length ∧
        ∀ r ∈ resolved.2, GoodText (good db') r.suiteId)
      (fun _ _ ↦ True) db := by
  unfold resolveImportSuites
  refine wp_seq (resolveTopSuites_spec hgood hI hproject hdb hcache hdefault hsnapshot) ?_
  rintro top db₁ ⟨hdb₁, htop, hkeep₁⟩
  refine wp_seq (resolveChildSuites_spec hgood hI hproject hdb₁ htop (hdefault.mono hkeep₁)
    (hsnapshot.mono hkeep₁) hrows) ?_
  rintro cache' db₂ ⟨hdb₂, hcache', hkeep₂⟩
  refine (wp_pure _).mpr ⟨hdb₂, hcache', fun id hid ↦ hkeep₂ id (hkeep₁ id hid),
    List.length_map _, fun r hr ↦ ?_⟩
  obtain ⟨row, hrow, rfl⟩ := List.mem_map.mp hr
  obtain ⟨hsuite, hcomponent⟩ := hrows row hrow
  have hparent := goodText_parentSuite ((hdefault.mono hkeep₁).mono hkeep₂) (htop.mono hkeep₂) hsuite
  exact goodText_landingSuite hparent hcache' hcomponent

end Resolve

/-! ## The two write paths -/

section Write

variable {projectId : Uuid} {good : Db → Uuid → Prop} {allowed : String → Prop} {I : Db → Prop}

theorem importedTestcase_eq_ok {db : Db} {ctx : ImportContext} {startNumber index : ℕ}
    {r : ResolvedImportRow} {t : Testcase}
    (h : importedTestcase db ctx startNumber index r = .ok t) :
    t.projectId = ctx.projectId ∧ t.live = true ∧ r.suiteId.map IdText.uuid = t.suiteId.map some ∧
      varchar 32 (externalIdOf ctx.idPrefix (startNumber + index)) = .ok t.externalId := by
  unfold importedTestcase at h
  cases hsuite : readUuid? r.suiteId with
  | error e => rw [hsuite] at h; cases h
  | ok suiteId =>
      cases htext : storeTexts r.row.text with
      | error e => rw [hsuite, htext] at h; cases h
      | ok text =>
          cases hid : varchar 32 (externalIdOf ctx.idPrefix (startNumber + index)) with
          | error e => rw [hsuite, htext, hid] at h; cases h
          | ok externalId =>
              rw [hsuite, htext, hid] at h
              obtain rfl := Except.ok.inj h
              exact ⟨rfl, rfl, readUuid?_eq_ok.mp hsuite, rfl⟩

theorem insertImportChunk_spec (hI : ImportRules projectId good allowed I) {ctx : ImportContext}
    {resolved : List ResolvedImportRow} {startNumber : ℕ} {db : Db}
    (hproject : ctx.projectId = projectId) (hdb : I db)
    (hresolved : ∀ r ∈ resolved, GoodText (good db) r.suiteId) (hgood : SuiteRules projectId good I)
    (hids : BlockAllowed allowed ctx.idPrefix startNumber resolved.length) :
    wp (insertImportChunk ctx resolved startNumber)
      (fun _ db' ↦ I db' ∧ ∀ id, good db id → good db' id) (fun _ _ ↦ True) db := by
  have hE : ∀ _ : Failure, True := fun _ ↦ trivial
  unfold insertImportChunk takeUuids
  refine wp_check_seq hE fun rows hrows ↦ ?_
  rw [wp_bind, wp_write]
  refine wp_insertTestcases_seq hE fun testcases hinsert _ ↦ ?_
  refine wp_ofExcept_seq hE fun _ _ ↦ ?_
  rw [wp_pure]
  refine ⟨hI.testcases _ rows _ (hI.uuids db _ hdb) (fun t ht ↦ ?_) hinsert, fun id hid ↦
    hgood.testcases _ _ id (hgood.uuids db _ id hid)⟩
  obtain ⟨⟨index, r⟩, hmem, ht⟩ := exists_of_mem_mapM hrows ht
  obtain ⟨hproject', hlive, hsuite, hexternal⟩ := importedTestcase_eq_ok ht
  obtain ⟨k, hk, heq⟩ := List.mem_mapIdx.mp hmem
  obtain ⟨rfl, rfl⟩ := Prod.mk.inj heq
  refine ⟨hproject'.trans hproject, hlive, fun s hs ↦ hgood.uuids db _ s ?_, ?_⟩
  · refine hresolved _ (List.getElem_mem hk) s ?_
    rw [hsuite, hs, Option.map_some]
  · exact hids k hk _ hexternal

variable [Unicode] {named : String → Prop}

/-- The replay row by row keeps the invariant and the cache, whichever rows fail. -/
theorem insertImportRowsIndividually_spec (hgood : SuiteRules projectId good I)
    (hI : ImportRules projectId good allowed I) {snapshot : Db} {ctx : ImportContext}
    {prepared : List PreparedImportRow} (hproject : ctx.projectId = projectId)
    (hrows : RowsNamed named prepared) {nextNumber : ℕ} {st : ImportState} {db : Db} (hdb : I db)
    (hcache : GoodCache named (good db) st.cache.suiteIdByKey)
    (hdefault : GoodText (good db) ctx.defaultSuiteId)
    (hsnapshot : GoodSnapshot projectId named (good db) snapshot)
    (hids : BlockAllowed allowed ctx.idPrefix nextNumber prepared.length) :
    wp (insertImportRowsIndividually snapshot ctx prepared nextNumber st)
      (fun st' db' ↦ I db' ∧ GoodCache named (good db') st'.cache.suiteIdByKey ∧
        ∀ id, good db id → good db' id)
      (fun _ _ ↦ True) db := by
  induction prepared generalizing nextNumber st db with
  | nil => exact (wp_pure _).mpr ⟨hdb, hcache, fun _ h ↦ h⟩
  | cons row prepared ih =>
      have hrest : RowsNamed named prepared := fun r hr ↦ hrows r (List.mem_cons_of_mem row hr)
      have hrow : RowsNamed named [row] := fun r hr ↦
        List.mem_singleton.mp hr ▸ hrows row List.mem_cons_self
      -- a row that fails leaves everything as it was
      have hskip : ∀ e : Failure, wp (insertImportRowsIndividually snapshot ctx prepared nextNumber
          { st with errors := st.errors ++ [(row.rowNumber, importRowErrorMessage e)] })
          (fun st' db' ↦ I db' ∧ GoodCache named (good db') st'.cache.suiteIdByKey ∧
            ∀ id, good db id → good db' id)
          (fun _ _ ↦ True) db := fun e ↦ ih hrest hdb hcache hdefault hsnapshot
            (hids.mono (Nat.le_succ _))
      unfold insertImportRowsIndividually
      rw [wp_bind, wp_savepoint]
      refine wp_seq (wp_mono (resolveImportSuites_spec hgood hI hproject hdb hcache hdefault
        hsnapshot hrow) (fun _ _ h ↦ h) fun e _ _ ↦ hskip e) ?_
      rintro ⟨cache, resolved⟩ db₁ ⟨hdb₁, hcache₁, hkeep₁, hlength, hresolved⟩
      have hfirst : BlockAllowed allowed ctx.idPrefix nextNumber resolved.length :=
        hids.mono (hlength.le.trans (Nat.succ_le_succ (Nat.zero_le _)))
      refine wp_seq (wp_mono (insertImportChunk_spec hI hproject hdb₁ hresolved hgood hfirst)
        (fun _ _ h ↦ h) fun e _ _ ↦ hskip e) ?_
      rintro _ db₂ ⟨hdb₂, hkeep₂⟩
      have hkeep : ∀ id, good db id → good db₂ id := fun id hid ↦ hkeep₂ id (hkeep₁ id hid)
      rw [wp_pure]
      refine wp_mono (ih hrest hdb₂ (hcache₁.mono hkeep₂) (hdefault.mono hkeep)
        (hsnapshot.mono hkeep) hids.tail) ?_ fun _ _ h ↦ h
      rintro st' db₃ ⟨hdb₃, hcache₃, hkeep₃⟩
      exact ⟨hdb₃, hcache₃, fun id hid ↦ hkeep₃ id (hkeep id hid)⟩

/-- A chunk keeps the invariant and the cache; a chunk that fails leaves the database as it was. -/
theorem writeImportChunk_spec (hgood : SuiteRules projectId good I)
    (hI : ImportRules projectId good allowed I) {snapshot : Db} {ctx : ImportContext}
    {prepared : List PreparedImportRow} (hproject : ctx.projectId = projectId)
    (hrows : RowsNamed named prepared) {st : ImportState} {db : Db} (hdb : I db)
    (hcache : GoodCache named (good db) st.cache.suiteIdByKey)
    (hdefault : GoodText (good db) ctx.defaultSuiteId)
    (hsnapshot : GoodSnapshot projectId named (good db) snapshot)
    (hids : ∀ m, maxTrailingNumber (idsUnderPrefix ctx.projectId ctx.idPrefix db) = .ok m →
      BlockAllowed allowed ctx.idPrefix (m + 1) prepared.length) :
    wp (writeImportChunk snapshot ctx prepared st)
      (fun st' db' ↦ I db' ∧ GoodCache named (good db') st'.cache.suiteIdByKey ∧
        ∀ id, good db id → good db' id)
      (fun _ db' ↦ db' = db) db := by
  unfold writeImportChunk maxExternalIdSeq
  rw [wp_transaction]
  refine wp_check_seq (fun _ ↦ rfl) fun maxNumber hmax ↦ ?_
  have hids := hids maxNumber hmax
  -- the batch that fails is replayed from the state it started in
  have hreplay : wp (insertImportRowsIndividually snapshot ctx prepared (maxNumber + 1) st)
      (fun st' db' ↦ I db' ∧ GoodCache named (good db') st'.cache.suiteIdByKey ∧
        ∀ id, good db id → good db' id) (fun _ _ ↦ db = db) db :=
    wp_mono (insertImportRowsIndividually_spec hgood hI hproject hrows hdb hcache hdefault
      hsnapshot hids) (fun _ _ h ↦ h) fun _ _ _ ↦ rfl
  rw [wp_bind, wp_savepoint]
  refine wp_seq (wp_mono (resolveImportSuites_spec hgood hI hproject hdb hcache hdefault
    hsnapshot hrows) (fun _ _ h ↦ h) fun _ _ _ ↦ hreplay) ?_
  rintro ⟨cache, resolved⟩ db₁ ⟨hdb₁, hcache₁, hkeep₁, hlength, hresolved⟩
  refine wp_seq (wp_mono (insertImportChunk_spec hI hproject hdb₁ hresolved hgood
    (hids.mono hlength.le)) (fun _ _ h ↦ h) fun _ _ _ ↦ hreplay) ?_
  rintro created db₂ ⟨hdb₂, hkeep₂⟩
  rw [wp_pure, wp_pure]
  exact ⟨hdb₂, hcache₁.mono hkeep₂, fun id hid ↦ hkeep₂ id (hkeep₁ id hid)⟩

end Write

/-- Preparation drops rows and adds none. -/
theorem prepareImportRows_length_le [Unicode] (titles titlesInFile : List String) (index : ℕ)
    (rows : List ImportRow) :
    (prepareImportRows titles titlesInFile index rows).2.1.length ≤ rows.length := by
  induction rows generalizing titlesInFile index with
  | nil => exact Nat.zero_le _
  | cons raw rows ih =>
      unfold prepareImportRows
      dsimp only
      split
      · exact (ih _ _).trans (Nat.le_succ _)
      · exact Nat.succ_le_succ (ih _ _)

/-- Preparing a chunk leaves the caches. -/
theorem prepareChunk_cache [Unicode] (titles : List String) (start : ℕ) (chunk : List ImportRow)
    (st : ImportState) : (prepareChunk titles start chunk st).2.cache = st.cache := rfl

theorem prepareChunk_length_le [Unicode] (titles : List String) (start : ℕ)
    (chunk : List ImportRow) (st : ImportState) :
    (prepareChunk titles start chunk st).1.length ≤ chunk.length :=
  prepareImportRows_length_le titles st.titlesInFile start chunk

theorem length_le_of_mem_importChunks {rows : List ImportRow} {chunk : ℕ × List ImportRow}
    (h : chunk ∈ importChunks rows) : chunk.2.length ≤ importChunkSize := by
  obtain ⟨k, -, rfl⟩ := List.mem_map.mp h
  exact List.length_take_le _ _

/-! ## A whole import, with nothing between its statements -/

/-- The live suites of a project are a set an import does not shrink. -/
theorem liveSuite_rules (projectId : Uuid) (I : Db → Prop) :
    SuiteRules projectId (fun db id ↦ LiveSuite db projectId id) I where
  uuids _ _ _ h := h
  testcases _ _ _ h := h
  suites db s suites id _ hlive hinsert h := by
    rcases h with ⟨r, hr, hid, hrlive⟩ | rfl
    · exact ⟨r, (Table.mem_insert hinsert).mpr (.inl hr), hid, hrlive⟩
    · exact ⟨s, (Table.mem_insert hinsert).mpr (.inr rfl), rfl, hlive⟩

section Import

variable [Unicode] {db : Db} {I : Db → Prop}

/-- What an import has read before its first chunk: live suites of one project of the caller's. -/
theorem openImport_spec {userId : Option Uuid} {projectId : IdText} {body : ImportBody} :
    wp (openImport userId projectId body)
      (fun opened db' ↦ OnlyUsers db db' ∧ projectId.uuid = some opened.1.projectId ∧
        (∃ uid, userId = some uid ∧ opened.1.uid = uid ∧ IsMember db opened.1.projectId uid) ∧
        GoodText (LiveSuite db opened.1.projectId) opened.1.defaultSuiteId ∧
        GoodCache (fun _ ↦ True) (LiveSuite db opened.1.projectId)
          opened.2.2.cache.suiteIdByKey ∧
        IsKey opened.1.idPrefix)
      (fun _ db' ↦ OnlyUsers db db') db := by
  unfold openImport
  refine wp_requireUser_seq (fun _ ↦ .refl db) fun uid huid ↦ ?_
  refine wp_seq requireProjectAccess_spec ?_
  rintro access _ ⟨⟨users, rfl⟩, -, hproject, uid', huid', hmember⟩
  obtain rfl := Option.some.inj huid'
  have honly : OnlyUsers db { db with users := users } := ⟨users, rfl⟩
  refine wp_require_seq honly fun _ ↦ wp_require_seq honly fun _ ↦ ?_
  have hdefault : wp (resolveDefaultSuite access.project.id body.defaultSuiteId)
      (fun t db' ↦ db' = { db with users := users } ∧
        GoodText (LiveSuite db access.project.id) t)
      (fun _ db' ↦ OnlyUsers db db') { db with users := users } := by
    unfold resolveDefaultSuite
    split
    · exact (wp_pure _).mpr ⟨rfl, goodText_none⟩
    · rename_i candidate _
      rw [wp_check]
      refine ⟨fun t ht ↦ ⟨rfl, fun p hp ↦ ?_⟩, fun _ _ ↦ honly⟩
      split at ht
      · rename_i hlive
        obtain rfl := Except.ok.inj ht
        rw [Option.map_some, Option.some.injEq] at hp
        rw [Bool.and_eq_true, hp, Option.any_some] at hlive
        exact findLiveSuiteIn_isSome.mp hlive.2
      · cases ht
  refine wp_seq hdefault ?_
  rintro defaultSuiteId _ ⟨rfl, hgood⟩
  refine wp_query_seq (wp_query_seq ?_)
  rw [wp_pure]
  refine ⟨honly, hproject, ⟨uid, huid, rfl, hmember⟩, hgood, fun e he _ ↦ ?_, isKey_idPrefix _ _⟩
  obtain ⟨s, hs, rfl⟩ := List.mem_map.mp (Assoc.mem_ofList he)
  obtain ⟨hmem, hlive⟩ := Table.mem_select.mp hs
  exact ⟨s, hmem, rfl, hlive⟩

/-- The chunks one after the other keep what one chunk keeps. -/
theorem importChunkList_spec {projectId : Uuid} {ctx : ImportContext} {titles : List String}
    (hI : ImportRules projectId (fun db id ↦ LiveSuite db projectId id) (fun _ ↦ True) I)
    (hproject : ctx.projectId = projectId) (chunks : List (ℕ × List ImportRow)) {st : ImportState}
    (hdb : I db) (hcache : GoodCache (fun _ ↦ True) (LiveSuite db projectId) st.cache.suiteIdByKey)
    (hdefault : GoodText (LiveSuite db projectId) ctx.defaultSuiteId) :
    wp (importChunkList ctx titles chunks st) (fun _ db' ↦ I db') (fun _ db' ↦ I db') db := by
  induction chunks generalizing st db with
  | nil => exact (wp_pure _).mpr hdb
  | cons c chunks ih =>
      obtain ⟨start, chunk⟩ := c
      unfold importChunkList importChunk
      dsimp only
      split
      · rw [wp_bind, wp_pure]
        exact ih hdb hcache hdefault
      · rw [wp_bind]
        refine wp_query_seq ?_
        have hsnapshot : GoodSnapshot projectId (fun _ ↦ True) (LiveSuite db projectId) db :=
          fun s hs hlive _ ↦ ⟨s, hs, rfl, hlive⟩
        refine wp_mono (writeImportChunk_spec (liveSuite_rules projectId I) hI hproject
          (rowsNamed_true _) hdb (prepareChunk_cache titles start chunk st ▸ hcache) hdefault hsnapshot fun _ _ ↦ .of_all (fun _ ↦ trivial) _ _ _)
          ?_ fun _ _ h ↦ h ▸ hdb
        rintro st' db' ⟨hdb', hcache', hkeep⟩
        exact ih hdb' hcache' (hdefault.mono hkeep)

/-- What the writes of an import of a project of the caller's keep, the import keeps, whether it
answers or fails. -/
theorem importTestCases_spec {userId : Option Uuid} {projectId : IdText} {body : ImportBody}
    (husers : ∀ users, I { db with users := users })
    (hI : ∀ P uid, projectId.uuid = some P → userId = some uid → IsMember db P uid →
      ImportRules P (fun db id ↦ LiveSuite db P id) (fun _ ↦ True) I) :
    wp (importTestCases userId projectId body) (fun _ db' ↦ I db') (fun _ db' ↦ I db') db := by
  have honly : ∀ db', OnlyUsers db db' → I db' := by
    rintro _ ⟨users, rfl⟩
    exact husers users
  unfold importTestCases
  refine wp_seq (wp_mono openImport_spec (fun _ _ h ↦ h) fun _ _ h ↦ honly _ h) ?_
  rintro ⟨ctx, titles, st⟩ db' ⟨hopen, hproject, ⟨uid, huid, -, hmember⟩, hdefault, hcache, -⟩
  have hrules := hI ctx.projectId uid hproject huid hmember
  have hdb' := honly db' hopen
  obtain ⟨users, rfl⟩ := hopen
  refine wp_seq (importChunkList_spec hrules rfl _ hdb' hcache hdefault) fun _ _ h ↦ ?_
  exact (wp_pure _).mpr h

end Import

end Tesbo
