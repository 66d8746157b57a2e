import Tesbo.Migrations
import Tesbo.Reasoning.Runs

/-!
# What a run of the migrator leaves unapplied

A file is applied unless its version, its name or its content is known.  The content decides whether
that is right; a version or a name that another content has taken is a fork, and the file is passed
over.
-/

namespace Tesbo.Migrate

open Reasoning Service

def Directory.sqlFiles (dir : Directory) : List SqlFile :=
  (dir.files.getD []).filter fun file ↦ endsWithSql file.filename

/-- No two files of the directory have the same content. -/
def Apart (dir : Directory) : Prop := (dir.sqlFiles.map SqlFile.sql).Nodup

instance (dir : Directory) : Decidable (Apart dir) := inferInstanceAs (Decidable (List.Nodup _))

/-- A database the migrator has not seen. -/
structure Fresh (s : Database) : Prop where
  rows : s.schemaMigrations.rows = []
  executed : s.executed = []
  recorded : s.recorded = []

/-- Executed exactly once, or taken over from the changelog and not executed. -/
def RanOnce (s : Database) (sql : String) : Prop :=
  s.executed.count sql = 1 ∨ sql ∈ s.recorded ∧ sql ∉ s.executed

instance (s : Database) (sql : String) : Decidable (RanOnce s sql) :=
  inferInstanceAs (Decidable (_ ∨ _))

section Property

variable [Sha256] [Locale]

def stepRun (s : Database) (dir : Directory) : Database := after (main dir) s

/-- When the run ends with success, each file of its directory has run once. -/
def RunsEachOnce (s : Database) (dir : Directory) : Prop :=
  onAnswer (main dir) (fun _ s' ↦ ∀ file ∈ dir.sqlFiles, RanOnce s' file.sql) s

instance (s : Database) (dir : Directory) : Decidable (RunsEachOnce s dir) :=
  inferInstanceAs (Decidable (onAnswer _ _ _))

/-- Another content has taken the version or the name of the file. -/
def Forked (s : Database) (file : SqlFile) : Prop :=
  ∃ r ∈ s.schemaMigrations, r.checksum ≠ Sha256.hex file.sql ∧
    ((parseMigrationFilename file.filename).map Prod.fst = some r.version ∨
      r.filename = file.filename)

/-- Where the directory has another content for the version of a row, it has the row's content or
the row's name. -/
def Recognised (s : Database) (dir : Directory) : Prop :=
  ∀ migrations, readMigrations dir = .ok migrations → ∀ r ∈ s.schemaMigrations,
    ∀ m, byVersion migrations r.version = some m → m.checksum = r.checksum ∨
      (∃ m' ∈ migrations, m'.checksum = r.checksum) ∨ ∃ m' ∈ migrations, m'.filename = r.filename

/-- When the run ends with success, each file has run once or is a fork, and no row is unknown to
the directory that has its version. -/
def RunsButForks (s : Database) (dir : Directory) : Prop :=
  onAnswer (main dir)
    (fun _ s' ↦ (∀ file ∈ dir.sqlFiles, RanOnce s' file.sql ∨ Forked s' file) ∧ Recognised s' dir) s

/-! ## What the table knows -/

/-- The rows are those of the contents that have run, each once. -/
structure Faithful (s : Database) : Prop where
  once : s.executed.Nodup
  apart : ∀ sql ∈ s.recorded, sql ∉ s.executed
  known : ∀ sql, sql ∈ s.executed ∨ sql ∈ s.recorded →
    ∃ r ∈ s.schemaMigrations, r.checksum = Sha256.hex sql
  origin : ∀ r ∈ s.schemaMigrations,
    ∃ sql, r.checksum = Sha256.hex sql ∧ (sql ∈ s.executed ∨ sql ∈ s.recorded)

end Property

section Statements

variable {s s' : Database}

theorem wp_statement {α : Type} {f : Database → Except String (α × Database)}
    {Q : α → Database → Prop} {E : String → Database → Prop}
    (hdone : ∀ a s', f s.next = .ok (a, s') → Q a s' ∧ ∀ e, E e s') (hrefused : ∀ e, E e s.next) :
    wp (statement f) Q E s := by
  unfold wp statement
  cases hanswer : s.answers 0 with
  | refused => exact hrefused _
  | done =>
      cases hf : f s.next with
      | error e => exact hrefused e
      | ok r => exact (hdone r.1 r.2 hf).1
  | lost =>
      cases hf : f s.next with
      | error e => exact hrefused _
      | ok r => exact (hdone r.1 r.2 hf).2 _

theorem wp_reading {α : Type} {f : Database → α} {Q : α → Database → Prop}
    {E : String → Database → Prop} (hQ : Q (f s.next) s.next) (hE : ∀ e, E e s.next) :
    wp (reading f) Q E s := by
  refine wp_statement (fun a s' hf ↦ ?_) hE
  obtain ⟨rfl, rfl⟩ := Prod.mk.inj (Except.ok.inj hf)
  exact ⟨hQ, hE⟩

theorem mem_insertRow {row r : MigrationRow} {t t' : SchemaMigrations}
    (h : insertRow row t = .ok t') : r ∈ t' ↔ r ∈ t ∨ r = row := by
  unfold insertRow at h
  split at h
  · cases h
  · split at h
    · cases h
    · split at h
      · cases h
      · rename_i hinsert
        obtain rfl := Except.ok.inj h
        exact Table.mem_insert hinsert

variable [Sha256]

theorem Fresh.faithful (h : Fresh s) : Faithful s where
  once := by
    rw [h.executed]
    exact List.nodup_nil
  apart := by
    rw [h.recorded]
    exact fun sql hsql ↦ (List.not_mem_nil hsql).elim
  known := by
    rw [h.executed, h.recorded]
    exact fun sql hsql ↦ (hsql.elim List.not_mem_nil List.not_mem_nil).elim
  origin := by
    intro r hr
    rw [Table.mem_def, h.rows] at hr
    exact (List.not_mem_nil hr).elim

theorem Faithful.next (h : Faithful s) : Faithful s.next := ⟨h.once, h.apart, h.known, h.origin⟩

/-- A content the table does not know has not run. -/
theorem Faithful.new (h : Faithful s) {sql : String}
    (hnew : ∀ r ∈ s.schemaMigrations, r.checksum ≠ Sha256.hex sql) :
    sql ∉ s.executed ∧ sql ∉ s.recorded := by
  constructor
  · intro hsql
    obtain ⟨r, hr, hchecksum⟩ := h.known sql (.inl hsql)
    exact hnew r hr hchecksum
  · intro hsql
    obtain ⟨r, hr, hchecksum⟩ := h.known sql (.inr hsql)
    exact hnew r hr hchecksum

/-- A content the table knows has run once. -/
theorem Faithful.ranOnce (h : Faithful s) {r : MigrationRow} (hr : r ∈ s.schemaMigrations)
    {sql : String} (hchecksum : r.checksum = Sha256.hex sql) : RanOnce s sql := by
  obtain ⟨sql', hchecksum', hran⟩ := h.origin r hr
  obtain rfl := Sha256.injective (hchecksum.symm.trans hchecksum')
  rcases hran with hexecuted | hrecorded
  · exact .inl (List.count_eq_one_of_mem h.once hexecuted)
  · exact .inr ⟨hrecorded, h.apart sql hrecorded⟩

end Statements

/-! ## Reading the directory -/

section Reading

variable [Sha256] [Locale] {dir : Directory} {migrations : List MigrationFile}

omit [Locale] in
theorem readMigration_ok {file : SqlFile} {m : MigrationFile} (h : readMigration file = .ok m) :
    (parseMigrationFilename file.filename).map Prod.fst = some m.version ∧
      m.filename = file.filename ∧ m.sql = file.sql ∧ m.checksum = Sha256.hex m.sql := by
  unfold readMigration at h
  cases hparse : parseMigrationFilename file.filename with
  | none =>
      rw [hparse] at h
      cases h
  | some parsed =>
      rw [hparse] at h
      obtain rfl := Except.ok.inj h
      exact ⟨rfl, rfl, rfl, rfl⟩

/-- The migrations are the files, in another order. -/
theorem readMigrations_ok (h : readMigrations dir = .ok migrations) :
    ∃ inListing, dir.sqlFiles.mapM readMigration = .ok inListing ∧ migrations.Perm inListing := by
  unfold readMigrations at h
  unfold Directory.sqlFiles
  cases hfiles : dir.files with
  | none =>
      rw [hfiles] at h
      cases h
  | some files =>
      rw [hfiles] at h
      obtain ⟨inListing, hread, hsorted⟩ := except_bind_eq_ok.mp h
      obtain rfl := Except.ok.inj hsorted
      exact ⟨inListing, hread, List.perm_insertionSort inOrder inListing⟩

theorem exists_migration (h : readMigrations dir = .ok migrations) {file : SqlFile}
    (hfile : file ∈ dir.sqlFiles) : ∃ m ∈ migrations, readMigration file = .ok m := by
  obtain ⟨inListing, hread, hperm⟩ := readMigrations_ok h
  obtain ⟨m, hm, hok⟩ := exists_image_of_mapM hread hfile
  exact ⟨m, hperm.mem_iff.mpr hm, hok⟩

theorem exists_file (h : readMigrations dir = .ok migrations) {m : MigrationFile}
    (hm : m ∈ migrations) : ∃ file ∈ dir.sqlFiles, readMigration file = .ok m := by
  obtain ⟨inListing, hread, hperm⟩ := readMigrations_ok h
  exact exists_of_mem_mapM hread (hperm.mem_iff.mp hm)

theorem checksum_eq (h : readMigrations dir = .ok migrations) {m : MigrationFile}
    (hm : m ∈ migrations) : m.checksum = Sha256.hex m.sql := by
  obtain ⟨file, -, hok⟩ := exists_file h hm
  exact (readMigration_ok hok).2.2.2

theorem apart_migrations (h : readMigrations dir = .ok migrations) (hdir : Apart dir) :
    (migrations.map MigrationFile.sql).Nodup := by
  obtain ⟨inListing, hread, hperm⟩ := readMigrations_ok h
  refine ((hperm.map MigrationFile.sql).nodup_iff).mpr ?_
  have hsame : ∀ files ms, List.Forall₂ (fun file m ↦ readMigration file = .ok m) files ms →
      ms.map MigrationFile.sql = files.map SqlFile.sql := by
    intro files ms hread
    induction hread with
    | nil => rfl
    | @cons file m files ms hok _ ih =>
        rw [List.map_cons, List.map_cons, ih, (readMigration_ok hok).2.2.1]
  rw [hsame _ _ (forall₂_of_mapM hread)]
  exact hdir

end Reading

/-! ## The phases of a run -/

section Phases

variable [Sha256] {s : Database} {migrations : List MigrationFile}

/-- A migration of the changelog takes its row before any has been executed. -/
theorem wp_recordMigration {m : MigrationFile} (hm : m.checksum = Sha256.hex m.sql)
    (h : Faithful s ∧ s.executed = []) :
    wp (recordMigration m) (fun _ s' ↦ Faithful s' ∧ s'.executed = [])
      (fun _ s' ↦ Faithful s' ∧ s'.executed = []) s := by
  obtain ⟨hs, hexecuted⟩ := h
  refine wp_statement (fun _ s' hs' ↦ ?_) fun _ ↦ ⟨hs.next, hexecuted⟩
  refine (fun hboth ↦ ⟨hboth, fun _ ↦ hboth⟩ :
    (Faithful s' ∧ s'.executed = []) → _ ∧ ∀ _ : String, _) ?_
  split at hs'
  · obtain ⟨-, rfl⟩ := Prod.mk.inj (Except.ok.inj hs')
    exact ⟨hs.next, hexecuted⟩
  · obtain ⟨t, ht, hs'⟩ := except_bind_eq_ok.mp hs'
    obtain ⟨-, rfl⟩ := Prod.mk.inj (Except.ok.inj hs')
    refine ⟨?_, hexecuted⟩
    constructor
    case once => exact hs.once
    case apart =>
      intro sql _
      change sql ∉ s.executed
      rw [hexecuted]
      exact List.not_mem_nil
    case known =>
      intro sql hsql
      have hcases : (sql ∈ s.executed ∨ sql ∈ s.recorded) ∨ sql = m.sql := by
        rcases hsql with hsql | hsql
        · exact .inl (.inl hsql)
        · rcases List.mem_cons.mp hsql with rfl | hsql
          · exact .inr rfl
          · exact .inl (.inr hsql)
      rcases hcases with hold | rfl
      · obtain ⟨r, hr, hchecksum⟩ := hs.known sql hold
        exact ⟨r, (mem_insertRow ht).mpr (.inl hr), hchecksum⟩
      · exact ⟨m.row, (mem_insertRow ht).mpr (.inr rfl), hm⟩
    case origin =>
      intro r hr
      rcases (mem_insertRow ht).mp hr with hr | rfl
      · obtain ⟨sql, hchecksum, hran⟩ := hs.origin r hr
        exact ⟨sql, hchecksum, hran.imp id (List.mem_cons_of_mem _)⟩
      · exact ⟨m.sql, hm, .inr List.mem_cons_self⟩

theorem wp_bootstrapFromLegacyChangelog (hmigrations : ∀ m ∈ migrations,
    m.checksum = Sha256.hex m.sql) (hs : Faithful s) :
    wp (bootstrapFromLegacyChangelog migrations) (fun _ s' ↦ Faithful s')
      (fun _ s' ↦ Faithful s') s := by
  unfold bootstrapFromLegacyChangelog
  refine wp_seq (P := fun count s₁ ↦ Faithful s₁ ∧ count = s₁.schemaMigrations.rows.length)
    (wp_reading ⟨hs.next, rfl⟩ fun _ ↦ hs.next) fun count s₁ h₁ ↦ ?_
  obtain ⟨hs₁, rfl⟩ := h₁
  split
  · exact (wp_pure ()).mpr hs₁
  · rename_i hempty
    have hexecuted : s₁.executed = [] := by
      refine List.eq_nil_iff_forall_not_mem.mpr fun sql hsql ↦ ?_
      obtain ⟨r, hr, -⟩ := hs₁.known sql (.inl hsql)
      exact hempty (List.length_pos_of_mem hr)
    refine wp_seq (P := fun _ s₂ ↦ Faithful s₂ ∧ s₂.executed = [])
      (wp_reading ⟨hs₁.next, hexecuted⟩ fun _ ↦ hs₁.next) fun legacyTable s₂ h₂ ↦ ?_
    split
    · exact (wp_pure ()).mpr h₂.1
    · refine wp_seq (P := fun _ s₃ ↦ Faithful s₃ ∧ s₃.executed = [])
        (wp_reading ⟨h₂.1.next, h₂.2⟩ fun _ ↦ h₂.1.next) fun changelog s₃ h₃ ↦ ?_
      refine wp_mono (wp_forEach (I := fun s ↦ Faithful s ∧ s.executed = []) ?_ h₃)
        (fun _ _ h ↦ h.1) fun _ _ h ↦ h.1
      exact fun m hm s h ↦ wp_recordMigration (hmigrations m (List.mem_filter.mp hm).1) h

omit [Sha256] in
theorem forM_ok {rows : List MigrationRow} {f : MigrationRow → Except String Unit}
    (h : rows.forM f = .ok ()) : ∀ r ∈ rows, f r = .ok () := by
  induction rows with
  | nil => exact fun r hr ↦ (List.not_mem_nil hr).elim
  | cons row rows ih =>
      obtain ⟨⟨⟩, hrow, hrows⟩ := except_bind_eq_ok.mp h
      intro r hr
      rcases List.mem_cons.mp hr with rfl | hr
      · exact hrow
      · exact ih hrows r hr

omit [Sha256] in
/-- A row the validation lets pass. -/
theorem validateRow_ok {row : MigrationRow} (h : validateRow migrations row = .ok ())
    {m : MigrationFile} (hm : byVersion migrations row.version = some m) :
    m.checksum = row.checksum ∨ (∃ m' ∈ migrations, m'.checksum = row.checksum) ∨
      ∃ m' ∈ migrations, m'.filename = row.filename := by
  unfold validateRow at h
  rw [hm] at h
  dsimp only at h
  split at h
  · rename_i hsame
    exact .inl hsame
  · split at h
    · rename_i hfork
      exact .inr hfork
    · cases h

/-- While the pending migrations `rest` are to come: the table knows none of them, the others have
been executed, and besides the rows at first it has those of the directory. -/
structure Applying (migrations pending : List MigrationFile) (before : SchemaMigrations)
    (rest : List MigrationFile) (s : Database) : Prop where
  faithful : Faithful s
  kept : ∀ r ∈ before, r ∈ s.schemaMigrations
  added : ∀ r ∈ s.schemaMigrations, r ∈ before ∨ ∃ m ∈ migrations, m.filename = r.filename
  executed : ∀ m ∈ pending, m ∈ rest ∨ m.sql ∈ s.executed
  ofDirectory : ∀ m ∈ rest, m ∈ migrations ∧ m.checksum = Sha256.hex m.sql
  apart : (rest.map MigrationFile.sql).Nodup
  new : ∀ m ∈ rest, ∀ r ∈ s.schemaMigrations, r.checksum ≠ m.checksum

theorem wp_applyMigration {pending rest : List MigrationFile} {before : SchemaMigrations}
    {m : MigrationFile} (h : Applying migrations pending before (m :: rest) s) :
    wp (applyMigration m) (fun _ s' ↦ Applying migrations pending before rest s')
      (fun _ s' ↦ Faithful s') s := by
  refine wp_statement (fun _ s' hs' ↦ ?_) fun _ ↦ h.faithful.next
  obtain ⟨t, ht, hs'⟩ := except_bind_eq_ok.mp hs'
  obtain ⟨-, rfl⟩ := Prod.mk.inj (Except.ok.inj hs')
  obtain ⟨hmem, hchecksum⟩ := h.ofDirectory m List.mem_cons_self
  have hnew : m.sql ∉ s.executed ∧ m.sql ∉ s.recorded :=
    h.faithful.new fun r hr ↦ hchecksum ▸ h.new m List.mem_cons_self r hr
  have hfaithful : Faithful { s.next with
      schemaMigrations := t, executed := m.sql :: s.next.executed } := by
    constructor
    case once => exact List.nodup_cons.mpr ⟨hnew.1, h.faithful.once⟩
    case apart =>
      intro sql hsql hcontra
      rcases List.mem_cons.mp hcontra with rfl | hold
      · exact hnew.2 hsql
      · exact h.faithful.apart sql hsql hold
    case known =>
      intro sql hsql
      have hcases : (sql ∈ s.executed ∨ sql ∈ s.recorded) ∨ sql = m.sql := by
        rcases hsql with hsql | hsql
        · rcases List.mem_cons.mp hsql with rfl | hsql
          · exact .inr rfl
          · exact .inl (.inl hsql)
        · exact .inl (.inr hsql)
      rcases hcases with hold | rfl
      · obtain ⟨r, hr, hr'⟩ := h.faithful.known sql hold
        exact ⟨r, (mem_insertRow ht).mpr (.inl hr), hr'⟩
      · exact ⟨m.row, (mem_insertRow ht).mpr (.inr rfl), hchecksum⟩
    case origin =>
      intro r hr
      rcases (mem_insertRow ht).mp hr with hr | rfl
      · obtain ⟨sql, hr', hran⟩ := h.faithful.origin r hr
        exact ⟨sql, hr', hran.imp (List.mem_cons_of_mem _) id⟩
      · exact ⟨m.sql, hchecksum, .inl List.mem_cons_self⟩
  refine ⟨?_, fun _ ↦ hfaithful⟩
  obtain ⟨hfirst, hrest⟩ := List.nodup_cons.mp h.apart
  constructor
  case faithful => exact hfaithful
  case kept => exact fun r hr ↦ (mem_insertRow ht).mpr (.inl (h.kept r hr))
  case added =>
    intro r hr
    rcases (mem_insertRow ht).mp hr with hr | rfl
    · exact h.added r hr
    · exact .inr ⟨m, hmem, rfl⟩
  case executed =>
    intro m' hm'
    rcases h.executed m' hm' with hcons | hexecuted
    · rcases List.mem_cons.mp hcons with rfl | hlater
      · exact .inr List.mem_cons_self
      · exact .inl hlater
    · exact .inr (List.mem_cons_of_mem _ hexecuted)
  case ofDirectory => exact fun m' hm' ↦ h.ofDirectory m' (List.mem_cons_of_mem m hm')
  case apart => exact hrest
  case new =>
    intro m' hm' r hr
    rcases (mem_insertRow ht).mp hr with hr | rfl
    · exact h.new m' (List.mem_cons_of_mem m hm') r hr
    · intro hsame
      have hchecksum' := (h.ofDirectory m' (List.mem_cons_of_mem m hm')).2
      have hsql := Sha256.injective ((hchecksum.symm.trans hsame).trans hchecksum')
      exact hfirst (hsql ▸ List.mem_map_of_mem hm')

omit [Sha256] in
/-- What is not pending is known by its version, its name or its content. -/
theorem not_pending {m : MigrationFile} {rows : List MigrationRow} (hm : m ∈ migrations)
    (h : m ∉ pendingMigrations migrations rows) :
    ∃ r ∈ rows, r.version = m.version ∨ r.filename = m.filename ∨ r.checksum = m.checksum := by
  by_contra hnone
  push Not at hnone
  refine h (List.mem_filter.mpr ⟨hm, decide_eq_true ⟨?_, ?_, ?_⟩⟩)
  · rintro hcontra
    obtain ⟨r, hr, heq⟩ := List.mem_map.mp hcontra
    exact (hnone r hr).1 heq
  · rintro hcontra
    obtain ⟨r, hr, heq⟩ := List.mem_map.mp hcontra
    exact (hnone r hr).2.1 heq
  · rintro hcontra
    obtain ⟨r, hr, heq⟩ := List.mem_map.mp hcontra
    exact (hnone r hr).2.2 heq

end Phases

/-! ## A whole run -/

section Run

variable [Sha256] [Locale] {s : Database} {dir : Directory}

/-- The end of a run that goes through. -/
theorem Applying.runsButForks {migrations : List MigrationFile} {before : SchemaMigrations}
    (hread : readMigrations dir = .ok migrations)
    (hvalid : ∀ r ∈ before, validateRow migrations r = .ok ())
    (h : Applying migrations (pendingMigrations migrations before.rows) before [] s) :
    (∀ file ∈ dir.sqlFiles, RanOnce s file.sql ∨ Forked s file) ∧ Recognised s dir := by
  constructor
  · intro file hfile
    obtain ⟨m, hm, hok⟩ := exists_migration hread hfile
    obtain ⟨hversion, hfilename, hsql, hchecksum⟩ := readMigration_ok hok
    by_cases hpending : m ∈ pendingMigrations migrations before.rows
    · have hexecuted := (h.executed m hpending).resolve_left List.not_mem_nil
      rw [hsql] at hexecuted
      exact .inl (.inl (List.count_eq_one_of_mem h.faithful.once hexecuted))
    · obtain ⟨r, hr, hknown⟩ := not_pending hm hpending
      have hr' := h.kept r hr
      by_cases hsame : r.checksum = Sha256.hex file.sql
      · exact .inl (h.faithful.ranOnce hr' hsame)
      · refine .inr ⟨r, hr', hsame, ?_⟩
        rcases hknown with hv | hf | hc
        · exact .inl (hversion.trans (congrArg some hv.symm))
        · exact .inr (hf.trans hfilename)
        · exact absurd (hc.trans (hsql ▸ hchecksum)) hsame
  · intro migrations' hread' r hr m hm
    obtain rfl := Except.ok.inj (hread.symm.trans hread')
    rcases h.added r hr with hbefore | hadded
    · exact validateRow_ok (hvalid r hbefore) hm
    · exact .inr (.inr hadded)

theorem wp_main (hdir : Apart dir) (hs : Faithful s) :
    wp (main dir)
      (fun _ s' ↦ Faithful s' ∧
        (∀ file ∈ dir.sqlFiles, RanOnce s' file.sql ∨ Forked s' file) ∧ Recognised s' dir)
      (fun _ s' ↦ Faithful s') s := by
  unfold main
  refine wp_ofExcept_seq (fun _ ↦ hs) fun migrations hread ↦ ?_
  refine wp_seq (P := fun _ s' ↦ Faithful s') (wp_reading hs.next fun _ ↦ hs.next) fun _ s₁ h₁ ↦ ?_
  refine wp_seq (wp_bootstrapFromLegacyChangelog (fun m hm ↦ checksum_eq hread hm) h₁)
    fun _ s₂ h₂ ↦ ?_
  refine wp_seq (P := fun _ s' ↦ Faithful s' ∧
    ∀ r ∈ s'.schemaMigrations, validateRow migrations r = .ok ()) ?_ fun _ s₃ h₃ ↦ ?_
  · refine wp_seq (P := fun applied s' ↦ Faithful s' ∧ applied = s'.schemaMigrations.rows)
      (wp_reading ⟨h₂.next, rfl⟩ fun _ ↦ h₂.next) fun applied s' h' ↦ ?_
    obtain ⟨hs', rfl⟩ := h'
    refine (wp_ofExcept _).mpr ⟨fun _ hforM ↦ ⟨hs', forM_ok hforM⟩, fun _ _ ↦ hs'⟩
  · refine wp_seq (P := fun applied s' ↦ Faithful s' ∧ applied = s'.schemaMigrations.rows ∧
      ∀ r ∈ s'.schemaMigrations, validateRow migrations r = .ok ())
      (wp_reading ⟨h₃.1.next, rfl, h₃.2⟩ fun _ ↦ h₃.1.next) fun applied s₄ h₄ ↦ ?_
    obtain ⟨hs₄, rfl, hvalid⟩ := h₄
    have hbegin : Applying migrations (pendingMigrations migrations s₄.schemaMigrations.rows)
        s₄.schemaMigrations (pendingMigrations migrations s₄.schemaMigrations.rows) s₄ := by
      constructor
      case faithful => exact hs₄
      case kept => exact fun r hr ↦ hr
      case added => exact fun r hr ↦ .inl hr
      case executed => exact fun m hm ↦ .inl hm
      case ofDirectory =>
        intro m hm
        have hm' := (List.mem_filter.mp hm).1
        exact ⟨hm', checksum_eq hread hm'⟩
      case apart => exact (apart_migrations hread hdir).sublist (List.filter_sublist.map _)
      case new =>
        intro m hm r hr hsame
        obtain ⟨-, -, hchecksum⟩ := of_decide_eq_true (List.mem_filter.mp hm).2
        exact hchecksum (hsame ▸ List.mem_map_of_mem hr)
    have hloop := wp_forEach_rest
      (I := Applying migrations (pendingMigrations migrations s₄.schemaMigrations.rows)
        s₄.schemaMigrations) (J := Faithful) (fun _ _ _ h ↦ wp_applyMigration h) hbegin
    exact wp_mono hloop (fun _ _ h ↦ ⟨h.faithful, h.runsButForks hread hvalid⟩) fun _ _ h ↦ h

/-- No content is executed twice, nor executed and taken over. -/
def NoneTwice (s : Database) : Prop := s.executed.Nodup ∧ ∀ sql ∈ s.recorded, sql ∉ s.executed

end Run

/-! ## A fork -/

section Example

abbrev ownText : Sha256 := ⟨id, Function.injective_id⟩

abbrev codePoints : Locale := ⟨fun left right ↦ compare left.toList right.toList⟩

def newDatabase : Database := ⟨.empty, none, fun _ ↦ .done, [], []⟩

theorem fresh_newDatabase : Fresh newDatabase := ⟨rfl, rfl, rfl⟩

/-- A branch has its 76 first; the image it meets has another 76, and the branch's file as 77. -/
def forkedHistory : List Directory :=
  [⟨"migrations", some [⟨"V76_password_reset.sql", "CREATE TABLE password_reset_tokens"⟩]⟩,
    ⟨"migrations", some [⟨"V76_admin_plan_override.sql", "ALTER TABLE organizations"⟩,
      ⟨"V77_password_reset.sql", "CREATE TABLE password_reset_tokens"⟩,
      ⟨"V78_bugs_priority.sql", "ALTER TABLE bugs"⟩]⟩]

end Example

end Tesbo.Migrate
