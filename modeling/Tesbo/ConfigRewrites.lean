import Tesbo.ConfigFile

/-!
# Rewriting the configuration file

A rewrite is to leave the keys of the project alone, to set the keys it is given, and to take out
those it is given as `undefined`, which is how a token is moved out of the file.
-/

namespace Tesbo.Reasoning.Assoc

variable {κ ν : Type} [DecidableEq κ] {m m' : Assoc κ ν} {k : κ}

theorem get_eq_none_iff : m.get k = none ↔ k ∉ m.map Prod.fst := by
  induction m with
  | nil => simp
  | cons e m ih =>
      obtain ⟨k', v⟩ := e
      rw [get_cons, List.map_cons, List.mem_cons]
      by_cases hk : k = k'
      · simp [hk]
      · rw [if_neg hk, ih]
        simp [hk]

theorem get_append (m m' : Assoc κ ν) (k : κ) :
    get (m ++ m') k = (m.get k).or (m'.get k) := by
  induction m with
  | nil => rfl
  | cons e m ih =>
      obtain ⟨k', v⟩ := e
      rw [List.cons_append, get_cons, get_cons, ih]
      split <;> rfl

theorem set_of_not_mem (h : k ∉ m.map Prod.fst) (v : ν) : m.set k v = m ++ [(k, v)] := by
  induction m with
  | nil => rfl
  | cons e m ih =>
      obtain ⟨k', v'⟩ := e
      rw [List.map_cons, List.mem_cons, not_or] at h
      rw [set, if_neg (Ne.symm h.1), ih h.2, List.cons_append]

theorem erase_of_not_mem (h : k ∉ m.map Prod.fst) : m.erase k = m := by
  unfold erase
  rw [List.filter_eq_self]
  intro e he
  rw [decide_eq_true_eq]
  intro hk
  exact h (List.mem_map.mpr ⟨e, he, hk⟩)

end Tesbo.Reasoning.Assoc

namespace Tesbo.ConfigFile

open Reasoning
open RunHistory (Json)

/-! ## The property and its condition -/

/-- An object as a JSON text gives it: no key is there twice. -/
structure ConfigObject where
  fields : Assoc String Json
  nodup : (fields.map Prod.fst).Nodup

def ConfigObject.file (o : ConfigObject) (mode : ℕ) : File := ⟨.parsed (.object o.fields), mode⟩

structure Exact (before : ConfigObject) (values : Values) (after : File) : Prop where
  written : ∃ body : Assoc String Json, after.content = .parsed (.object body) ∧
    (∀ key s, values key = some s → body.get key.name = some (.text s)) ∧
    (∀ key, values key = none → body.get key.name = none) ∧
    (∀ k, ownedKey? k = none → body.get k = before.fields.get k) ∧
    -- what is read is what has been written
    (∀ key, body.get key.name = ((readConfigFile after.content).values key).map .text) ∧
    (∀ k, ownedKey? k = none → (readConfigFile after.content).extra.get k = body.get k)
  error : (readConfigFile after.content).error = none
  again : writeConfigFile values after = after

/-- Whether a file is read: one that has for a key of the SDK anything but a text is given up. -/
def ConfigObject.Accepted (o : ConfigObject) : Prop :=
  ∀ e ∈ o.fields, ∀ key : OwnedKey, e.1 = key.name → e.2 = .null ∨ ∃ s, e.2 = .text s

/-- No key to take out has a text in a file that is read, and where there are other keys the file is
read and none of them is `__proto__`. -/
structure Rewritable (before : ConfigObject) (values : Values) : Prop where
  plain : ∀ key s, values key = some s → jsTrim s = s ∧ s ≠ ""
  unheld : before.Accepted → ∀ key s, values key = none →
    before.fields.get key.name = some (.text s) → jsTrim s = ""
  others : ∀ k, ownedKey? k = none → before.fields.get k ≠ none →
    k ≠ "__proto__" ∧ before.Accepted

/-! ## Keys -/

theorem ownedKey_name (owned : OwnedKey) : ownedKey? owned.name = some owned := by
  cases owned <;> decide

theorem name_of_ownedKey {key : String} {owned : OwnedKey} (h : ownedKey? key = some owned) :
    owned.name = key := by
  unfold ownedKey? at h
  simpa using List.find?_some h

theorem name_injective : Function.Injective OwnedKey.name := by
  intro a b h
  have ha := ownedKey_name a
  rw [h, ownedKey_name b] at ha
  exact (Option.some.inj ha).symm

theorem name_ne {key : String} (h : ownedKey? key = none) (owned : OwnedKey) :
    owned.name ≠ key := by
  rintro rfl
  rw [ownedKey_name] at h
  cases h

theorem usable_eq_some {next : Option String} {s : String} (h : usable next = some s) :
    jsTrim s = s ∧ s ≠ "" := by
  unfold usable at h
  obtain ⟨hs, hne⟩ := Option.filter_eq_some_iff.mp h
  obtain ⟨raw, -, rfl⟩ := Option.map_eq_some_iff.mp hs
  exact ⟨jsTrim_eq (trimmed_jsTrim raw), by simpa using hne⟩

theorem usable_some {s : String} (htrim : jsTrim s = s) (hne : s ≠ "") :
    usable (some s) = some s := by
  unfold usable
  rw [Option.map_some, htrim]
  simp [Option.filter, hne]

/-! ## Reading -/

/-- The keys of the project that are read. -/
def foreign (fields : Assoc String Json) : Assoc String Json :=
  fields.filter fun e ↦ ownedKey? e.1 = none ∧ e.1 ≠ "__proto__"

/-- What a key of the SDK is read as. -/
def readOwned (j : Option Json) : Option String :=
  match j with
  | some (.text s) => usable (some s)
  | _ => none

theorem get_foreign {fields : Assoc String Json} {k : String} (h : ownedKey? k = none)
    (hk : k ≠ "__proto__") : (foreign fields).get k = fields.get k := by
  unfold foreign
  induction fields with
  | nil => rfl
  | cons e fields ih =>
      obtain ⟨k', v⟩ := e
      rw [List.filter_cons]
      by_cases hkk : k = k'
      · subst hkk
        rw [if_pos (by simp [h, hk]), Assoc.get_cons, Assoc.get_cons, if_pos rfl, if_pos rfl]
      · rw [Assoc.get_cons, if_neg hkk]
        split
        · rw [Assoc.get_cons, if_neg hkk]
          exact ih
        · exact ih

theorem get_foreign_proto (fields : Assoc String Json) : (foreign fields).get "__proto__" = none := by
  rw [Assoc.get_eq_none_iff]
  intro hmem
  obtain ⟨e, he, hkey⟩ := List.mem_map.mp hmem
  have hfilter := (List.mem_filter.mp he).2
  simp [hkey] at hfilter

/-- Reading a file that is accepted: the keys of the project as they are, those of the SDK by
themselves. -/
theorem readEntries_ok {fields : Assoc String Json} {values values' : Values}
    {extra extra' : Assoc String Json} (hnodup : (fields.map Prod.fst).Nodup)
    (hnew : ∀ e ∈ fields, e.1 ∉ extra.map Prod.fst)
    (h : readEntries fields values extra = .ok (values', extra')) :
    extra' = extra ++ foreign fields ∧
      ∀ owned, values' owned = (readOwned (Assoc.get fields owned.name)).or (values owned) := by
  induction fields generalizing values extra with
  | nil =>
      obtain ⟨rfl, rfl⟩ := Prod.mk.inj (Except.ok.inj h)
      exact ⟨(List.append_nil extra).symm, fun _ ↦ rfl⟩
  | cons e fields ih =>
      obtain ⟨key, value⟩ := e
      rw [List.map_cons, List.nodup_cons] at hnodup
      obtain ⟨hnot, hnodup⟩ := hnodup
      have hrest : ∀ e ∈ fields, e.1 ∉ extra.map Prod.fst :=
        fun e he ↦ hnew e (List.mem_cons_of_mem _ he)
      have hkey := hnew (key, value) List.mem_cons_self
      unfold readEntries at h
      cases howned : ownedKey? key with
      | none =>
          rw [howned] at h
          have hget : ∀ owned, Assoc.get ((key, value) :: fields) (OwnedKey.name owned) =
              Assoc.get fields (OwnedKey.name owned) := by
            intro owned
            rw [Assoc.get_cons, if_neg (name_ne howned owned)]
          by_cases hproto : key = "__proto__"
          · have hassign : assign extra key value = extra := if_pos hproto
            dsimp only at h
            rw [hassign] at h
            obtain ⟨hextra, hvalues⟩ := ih hnodup hrest h
            refine ⟨?_, fun owned ↦ by rw [hvalues, hget]⟩
            rw [hextra]
            simp [foreign, hproto]
          · have hassign : assign extra key value = extra ++ [(key, value)] := by
              unfold assign
              rw [if_neg hproto, Assoc.set_of_not_mem hkey]
            dsimp only at h
            rw [hassign] at h
            have hrest' : ∀ e ∈ fields, e.1 ∉ (extra ++ [(key, value)]).map Prod.fst := by
              intro e he hmem
              rw [List.map_append, List.mem_append] at hmem
              rcases hmem with hmem | hmem
              · exact hrest e he hmem
              · have hek : e.1 = key := by simpa using hmem
                exact hnot (List.mem_map.mpr ⟨e, he, hek⟩)
            obtain ⟨hextra, hvalues⟩ := ih hnodup hrest' h
            refine ⟨?_, fun owned ↦ by rw [hvalues, hget]⟩
            rw [hextra]
            simp [foreign, hproto, howned]
      | some owned' =>
          rw [howned] at h
          have hname := name_of_ownedKey howned
          have hforeign : foreign ((key, value) :: fields) = foreign fields := by
            simp [foreign, howned]
          -- the key is not there again
          have hlast : readOwned (Assoc.get fields (OwnedKey.name owned')) = none := by
            rw [hname, Assoc.get_eq_none_iff.mpr hnot]
            rfl
          have hother : ∀ owned, owned ≠ owned' →
              Assoc.get ((key, value) :: fields) (OwnedKey.name owned) =
                Assoc.get fields (OwnedKey.name owned) := by
            intro owned hne
            rw [Assoc.get_cons, if_neg]
            rw [← hname]
            exact fun heq ↦ hne (name_injective heq)
          have hown : Assoc.get ((key, value) :: fields) (OwnedKey.name owned') = some value := by
            rw [Assoc.get_cons, if_pos hname]
          have hkeep : readOwned (some value) = none →
              readEntries fields values extra = .ok (values', extra') →
              extra' = extra ++ foreign ((key, value) :: fields) ∧ ∀ owned, values' owned =
                (readOwned (Assoc.get ((key, value) :: fields) owned.name)).or (values owned) := by
            intro hnone h
            obtain ⟨hextra, hvalues⟩ := ih hnodup hrest h
            refine ⟨hforeign ▸ hextra, fun owned ↦ ?_⟩
            by_cases hne : owned = owned'
            · subst hne
              rw [hvalues, hlast, hown, hnone]
            · rw [hvalues, hother owned hne]
          cases value with
          | null => exact hkeep rfl h
          | text s =>
              dsimp only at h
              by_cases hblank : jsTrim s = ""
              · rw [if_pos hblank] at h
                refine hkeep ?_ h
                simp [readOwned, usable, hblank]
              · rw [if_neg hblank] at h
                obtain ⟨hextra, hvalues⟩ := ih hnodup hrest h
                refine ⟨hforeign ▸ hextra, fun owned ↦ ?_⟩
                by_cases hne : owned = owned'
                · subst hne
                  rw [hvalues, hlast, hown, Function.update_self]
                  simp [readOwned, usable, Option.filter, hblank]
                · rw [hvalues, hother owned hne, Function.update_of_ne hne]
          | boolean b => cases h
          | number x => cases h
          | list items => cases h
          | object fields' => cases h

/-- A file is accepted when each key of the SDK in it is a text, or is `null`. -/
theorem readEntries_success {fields : Assoc String Json} (values : Values)
    (extra : Assoc String Json)
    (h : ∀ e ∈ fields, ∀ key : OwnedKey, e.1 = key.name → e.2 = .null ∨ ∃ s, e.2 = .text s) :
    ∃ r, readEntries fields values extra = .ok r := by
  induction fields generalizing values extra with
  | nil => exact ⟨_, rfl⟩
  | cons e fields ih =>
      obtain ⟨key, value⟩ := e
      have hrest := fun e he ↦ h e (List.mem_cons_of_mem _ he)
      unfold readEntries
      cases howned : ownedKey? key with
      | none => exact ih _ _ hrest
      | some owned =>
          obtain rfl | ⟨s, rfl⟩ := h _ List.mem_cons_self owned (name_of_ownedKey howned).symm
          · exact ih _ _ hrest
          · dsimp only
            split
            · exact ih _ _ hrest
            · exact ih _ _ hrest

/-- And no other file is. -/
theorem texts_of_readEntries {fields : Assoc String Json} {values : Values}
    {extra : Assoc String Json} {r : Values × Assoc String Json}
    (h : readEntries fields values extra = .ok r) :
    ∀ e ∈ fields, ∀ key : OwnedKey, e.1 = key.name → e.2 = .null ∨ ∃ s, e.2 = .text s := by
  induction fields generalizing values extra with
  | nil => exact fun _ he ↦ (by cases he)
  | cons e fields ih =>
      obtain ⟨k, value⟩ := e
      unfold readEntries at h
      intro e he key hname
      cases howned : ownedKey? k with
      | none =>
          rw [howned] at h
          rcases List.mem_cons.mp he with rfl | he
          · exact absurd hname.symm (name_ne howned key)
          · exact ih h e he key hname
      | some owned =>
          rw [howned] at h
          cases value with
          | null =>
              rcases List.mem_cons.mp he with rfl | he
              · exact .inl rfl
              · exact ih h e he key hname
          | text s =>
              rcases List.mem_cons.mp he with rfl | he
              · exact .inr ⟨s, rfl⟩
              · dsimp only at h
                split at h
                · exact ih h e he key hname
                · exact ih h e he key hname
          | boolean b => cases h
          | number x => cases h
          | list items => cases h
          | object fields' => cases h

/-- A file is given up, or read key by key. -/
theorem read_cases (o : ConfigObject) :
    (¬ o.Accepted ∧ ∃ e, readConfigFile (.parsed (.object o.fields)) = .failed e) ∨
      o.Accepted ∧ readConfigFile (.parsed (.object o.fields)) =
        ⟨fun owned ↦ readOwned (o.fields.get owned.name), true, none, foreign o.fields⟩ := by
  unfold readConfigFile
  dsimp only
  cases hread : readEntries o.fields (fun _ ↦ none) [] with
  | error e =>
      left
      refine ⟨fun haccepted ↦ ?_, e, rfl⟩
      obtain ⟨r, hr⟩ := readEntries_success (fun _ ↦ none) [] haccepted
      rw [hread] at hr
      cases hr
  | ok read =>
      obtain ⟨values, extra⟩ := read
      obtain ⟨hextra, hvalues⟩ := readEntries_ok o.nodup (fun _ _ h ↦ by cases h) hread
      right
      refine ⟨texts_of_readEntries hread, ?_⟩
      have hvalues' : values = fun owned ↦ readOwned (o.fields.get owned.name) := by
        funext owned
        rw [hvalues, Option.or_none]
      rw [hvalues', hextra, List.nil_append]

theorem error_eq_none_iff (o : ConfigObject) :
    (readConfigFile (.parsed (.object o.fields))).error = none ↔ o.Accepted := by
  rcases read_cases o with ⟨hnot, e, he⟩ | ⟨hyes, hok⟩
  · rw [he]
    exact ⟨fun h ↦ (by cases h), fun h ↦ absurd h hnot⟩
  · rw [hok]
    exact ⟨fun _ ↦ hyes, fun _ ↦ rfl⟩

/-- Nothing is read for a key when the file is given up or has no text for it but blanks. -/
theorem values_eq_none_iff (o : ConfigObject) (key : OwnedKey) :
    (readConfigFile (.parsed (.object o.fields))).values key = none ↔
      (o.Accepted → ∀ s, o.fields.get key.name = some (.text s) → jsTrim s = "") := by
  rcases read_cases o with ⟨hnot, e, he⟩ | ⟨hyes, hok⟩
  · rw [he]
    exact ⟨fun _ h ↦ absurd h hnot, fun _ ↦ rfl⟩
  · rw [hok]
    dsimp only
    constructor
    · intro h _ s hs
      rw [hs] at h
      by_contra hne
      simp [readOwned, usable, Option.filter, hne] at h
    · intro h
      unfold readOwned
      split
      · next s hs =>
          simp [usable, Option.filter, h hyes s hs]
      · rfl

/-! ## Writing -/

/-- What each key of the SDK is written with. -/
def kept (existing : FileConfig) (values : Values) : Values :=
  fun key ↦ usable ((values key).or (previous existing key))

def ownedFields (values : Values) (keys : List OwnedKey) : Assoc String Json :=
  keys.filterMap fun key ↦ (values key).map fun s ↦ (key.name, .text s)

theorem key_ownedFields {values : Values} {keys : List OwnedKey} {e : String × Json}
    (h : e ∈ ownedFields values keys) :
    ∃ key ∈ keys, e.1 = key.name ∧ ∃ s, values key = some s ∧ e.2 = .text s := by
  obtain ⟨key, hkey, he⟩ := List.mem_filterMap.mp h
  obtain ⟨s, hs, rfl⟩ := Option.map_eq_some_iff.mp he
  exact ⟨key, hkey, rfl, s, hs, rfl⟩

theorem get_ownedFields (values : Values) (owned : OwnedKey) :
    (ownedFields values ownedKeys).get owned.name = (values owned).map .text := by
  unfold ownedFields ownedKeys
  cases owned <;> cases hb : values .baseUrl <;> cases hp : values .projectId <;>
    cases ht : values .token <;> simp [List.filterMap, Assoc.get_cons, OwnedKey.name, hb, hp, ht]

theorem get_ownedFields_none (values : Values) {k : String} (h : ownedKey? k = none) :
    (ownedFields values ownedKeys).get k = none := by
  rw [Assoc.get_eq_none_iff]
  intro hmem
  obtain ⟨e, he, rfl⟩ := List.mem_map.mp hmem
  obtain ⟨key, -, hkey, -⟩ := key_ownedFields he
  exact name_ne h key hkey.symm

theorem nodup_ownedFields (values : Values) {keys : List OwnedKey} (h : keys.Nodup) :
    ((ownedFields values keys).map Prod.fst).Nodup := by
  induction keys with
  | nil => exact List.nodup_nil
  | cons key keys ih =>
      obtain ⟨hnot, hrest⟩ := List.nodup_cons.mp h
      unfold ownedFields
      rw [List.filterMap_cons]
      cases hv : values key with
      | none => exact ih hrest
      | some s =>
          simp only [Option.map_some, List.map_cons, List.nodup_cons]
          refine ⟨fun hmem ↦ ?_, ih hrest⟩
          obtain ⟨e, he, hname⟩ := List.mem_map.mp hmem
          obtain ⟨key', hkey', hname', -⟩ := key_ownedFields he
          exact hnot (name_injective (hname.symm.trans hname') ▸ hkey')

theorem setOwned_some {existing : FileConfig} {values : Values} {key : OwnedKey} {s : String}
    (h : kept existing values key = some s) (body : Assoc String Json) :
    setOwned existing values body key = body.set key.name (.text s) := by
  unfold kept at h
  unfold setOwned
  rw [h]

theorem setOwned_none {existing : FileConfig} {values : Values} {key : OwnedKey}
    (h : kept existing values key = none) (body : Assoc String Json) :
    setOwned existing values body key = body.erase key.name := by
  unfold kept at h
  unfold setOwned
  rw [h]

/-- The keys of the SDK go to the end, in their order. -/
theorem foldl_setOwned {existing : FileConfig} {values : Values} {keys : List OwnedKey}
    {start : Assoc String Json} (hnodup : keys.Nodup)
    (hnew : ∀ key ∈ keys, key.name ∉ start.map Prod.fst) :
    keys.foldl (setOwned existing values) start =
      start ++ ownedFields (kept existing values) keys := by
  induction keys generalizing start with
  | nil => exact (List.append_nil start).symm
  | cons key keys ih =>
      obtain ⟨hnot, hrest⟩ := List.nodup_cons.mp hnodup
      have hkey := hnew key List.mem_cons_self
      have hlater := fun k hk ↦ hnew k (List.mem_cons_of_mem key hk)
      rw [List.foldl_cons]
      unfold ownedFields
      rw [List.filterMap_cons]
      cases hkept : kept existing values key with
      | none =>
          rw [setOwned_none hkept, Assoc.erase_of_not_mem hkey]
          exact ih hrest hlater
      | some s =>
          rw [setOwned_some hkept, Assoc.set_of_not_mem hkey, ih hrest, List.append_assoc]
          · rfl
          · intro k hk hmem
            rw [List.map_append, List.mem_append] at hmem
            rcases hmem with hmem | hmem
            · exact hlater k hk hmem
            · have heq : k.name = key.name := by simpa using hmem
              exact hnot (name_injective heq ▸ hk)

/-! ## The object written -/

/-- The keys a file holds beside those of the SDK, as they are written again. -/
structure Plain (fs : Assoc String Json) : Prop where
  nodup : (fs.map Prod.fst).Nodup
  unowned : ∀ e ∈ fs, ownedKey? e.1 = none
  noProto : ∀ e ∈ fs, e.1 ≠ "__proto__"

theorem plain_foreign (o : ConfigObject) : Plain (foreign o.fields) where
  nodup := o.nodup.sublist (List.filter_sublist.map Prod.fst)
  unowned := fun _ he ↦ (of_decide_eq_true (List.mem_filter.mp he).2).1
  noProto := fun _ he ↦ (of_decide_eq_true (List.mem_filter.mp he).2).2

theorem plain_nil : Plain [] :=
  ⟨List.nodup_nil, fun _ h ↦ (by cases h), fun _ h ↦ (by cases h)⟩

theorem Plain.foreign_eq {fs : Assoc String Json} (h : Plain fs) : foreign fs = fs := by
  unfold foreign
  rw [List.filter_eq_self]
  intro e he
  exact decide_eq_true ⟨h.unowned e he, h.noProto e he⟩

theorem Plain.not_mem {fs : Assoc String Json} (h : Plain fs) (key : OwnedKey) :
    key.name ∉ fs.map Prod.fst := by
  intro hmem
  obtain ⟨e, he, hname⟩ := List.mem_map.mp hmem
  exact name_ne (h.unowned e he) key hname.symm

theorem foreign_ownedFields (values : Values) (keys : List OwnedKey) :
    foreign (ownedFields values keys) = [] := by
  unfold foreign
  rw [List.filter_eq_nil_iff]
  intro e he htrue
  obtain ⟨key, -, hname, -⟩ := key_ownedFields he
  have hnone := (of_decide_eq_true htrue).1
  rw [hname, ownedKey_name] at hnone
  cases hnone

/-- Values as they come out of trimming. -/
def Trimmed (values : Values) : Prop := ∀ key s, values key = some s → usable (some s) = some s

theorem trimmed_kept (existing : FileConfig) (values : Values) :
    Trimmed (kept existing values) := by
  intro key s hs
  obtain ⟨htrim, hne⟩ := usable_eq_some hs
  exact usable_some htrim hne

theorem nodup_written {fs : Assoc String Json} (hfs : Plain fs) (values : Values) :
    ((fs ++ ownedFields values ownedKeys).map Prod.fst).Nodup := by
  rw [List.map_append, List.nodup_append]
  refine ⟨hfs.nodup, nodup_ownedFields values (by decide), ?_⟩
  intro k hk k' hk' heq
  obtain ⟨e, he, rfl⟩ := List.mem_map.mp hk'
  obtain ⟨key, -, hname, -⟩ := key_ownedFields he
  rw [hname] at heq
  exact hfs.not_mem key (heq ▸ hk)

theorem get_written_owned {fs : Assoc String Json} (hfs : Plain fs) (values : Values)
    (key : OwnedKey) :
    Assoc.get (fs ++ ownedFields values ownedKeys) key.name = (values key).map .text := by
  rw [Assoc.get_append, Assoc.get_eq_none_iff.mpr (hfs.not_mem key), Option.none_or,
    get_ownedFields]

theorem get_written_other (fs : Assoc String Json) (values : Values) {k : String}
    (h : ownedKey? k = none) :
    Assoc.get (fs ++ ownedFields values ownedKeys) k = fs.get k := by
  rw [Assoc.get_append, get_ownedFields_none values h, Option.or_none]

/-- What is written is read back as it was meant. -/
theorem read_written {fs : Assoc String Json} (hfs : Plain fs) {values : Values}
    (hvalues : Trimmed values) :
    readConfigFile (.parsed (.object (fs ++ ownedFields values ownedKeys))) =
      ⟨values, true, none, fs⟩ := by
  have htexts : ConfigObject.Accepted ⟨_, nodup_written hfs values⟩ := by
    intro e he owned hname
    rcases List.mem_append.mp he with he | he
    · exact absurd hname.symm (name_ne (hfs.unowned e he) owned)
    · obtain ⟨-, -, -, s, -, hs⟩ := key_ownedFields he
      exact .inr ⟨s, hs⟩
  rcases read_cases ⟨_, nodup_written hfs values⟩ with ⟨hnot, -⟩ | ⟨-, hok⟩
  · exact absurd htexts hnot
  · rw [hok]
    have hforeign : foreign (fs ++ ownedFields values ownedKeys) = fs := by
      have hsplit : foreign (fs ++ ownedFields values ownedKeys) =
          foreign fs ++ foreign (ownedFields values ownedKeys) := List.filter_append ..
      rw [hsplit, hfs.foreign_eq, foreign_ownedFields, List.append_nil]
    have howned : ∀ key, readOwned (Assoc.get (fs ++ ownedFields values ownedKeys) key.name) =
        values key := by
      intro key
      rw [get_written_owned hfs]
      cases hv : values key with
      | none => rfl
      | some s => exact hvalues key s hv
    rw [hforeign, funext howned]

/-- A body is what is kept of the file, and then the keys of the SDK. -/
theorem writtenBody_eq {existing : FileConfig} {values : Values} {fs : Assoc String Json}
    (hstart : (if existing.error.isSome then [] else existing.extra) = fs) (hfs : Plain fs) :
    writtenBody existing values = fs ++ ownedFields (kept existing values) ownedKeys := by
  unfold writtenBody
  rw [hstart]
  exact foldl_setOwned (by decide) fun key _ ↦ hfs.not_mem key

theorem usable_usable (next : Option String) : usable (usable next) = usable next := by
  cases h : usable next with
  | none => rfl
  | some s =>
      obtain ⟨htrim, hne⟩ := usable_eq_some h
      exact usable_some htrim hne

/-- Writing the same values again finds each key as it was left. -/
theorem kept_again (existing : FileConfig) (values : Values) (fs : Assoc String Json) :
    kept ⟨kept existing values, true, none, fs⟩ values = kept existing values := by
  funext key
  have hprevious : previous ⟨kept existing values, true, none, fs⟩ key =
      kept existing values key := rfl
  cases hv : values key with
  | some s =>
      unfold kept
      rw [hv, Option.some_or, Option.some_or]
  | none =>
      have hleft : kept ⟨kept existing values, true, none, fs⟩ values key =
          usable (kept existing values key) := by
        unfold kept at hprevious ⊢
        rw [hv, Option.none_or, hprevious, hv]
      rw [hleft]
      unfold kept
      exact usable_usable _

/-- Every write leaves such a body, which starts with the keys of the project if the file was
accepted. -/
theorem written_eq (before : ConfigObject) (values : Values) :
    ∃ fs, Plain fs ∧
      writtenBody (readConfigFile (.parsed (.object before.fields))) values =
        fs ++ ownedFields (kept (readConfigFile (.parsed (.object before.fields))) values)
          ownedKeys ∧
      fs = if (readConfigFile (.parsed (.object before.fields))).error.isSome then []
        else foreign before.fields := by
  rcases read_cases before with ⟨-, e, he⟩ | ⟨-, hok⟩
  · refine ⟨[], plain_nil, ?_, ?_⟩
    · apply writtenBody_eq _ plain_nil
      rw [he]
      rfl
    · rw [he]
      rfl
  · refine ⟨foreign before.fields, plain_foreign before, ?_, ?_⟩
    · apply writtenBody_eq _ (plain_foreign before)
      rw [hok]
      rfl
    · rw [hok]
      rfl

/-- A second write finds the file as the first has left it, permissions too. -/
theorem write_again {before : ConfigObject} {values : Values} (mode : ℕ) :
    writeConfigFile values (writeConfigFile values (before.file mode)) =
      writeConfigFile values (before.file mode) := by
  obtain ⟨fs, hfs, hbody, -⟩ := written_eq before values
  let existing := readConfigFile (.parsed (.object before.fields))
  have hread := read_written hfs (trimmed_kept existing values)
  have hsecond : writtenBody ⟨kept existing values, true, none, fs⟩ values =
      fs ++ ownedFields (kept existing values) ownedKeys := by
    rw [@writtenBody_eq ⟨kept existing values, true, none, fs⟩ _ fs rfl hfs, kept_again]
  have hfirst : writeConfigFile values (before.file mode) =
      ⟨.parsed (.object (fs ++ ownedFields (kept existing values) ownedKeys)),
        if tokenIn (fs ++ ownedFields (kept existing values) ownedKeys) then 0o600 else mode⟩ := by
    unfold writeConfigFile ConfigObject.file
    dsimp only
    rw [hbody]
  rw [hfirst]
  unfold writeConfigFile
  dsimp only
  rw [hread, hsecond]
  split
  · rfl
  · rfl

/-- What `previous` gives out of an object, a file given up as well as one that is read. -/
theorem previous_eq (before : ConfigObject) (key : OwnedKey) :
    previous (readConfigFile (.parsed (.object before.fields))) key =
      (readConfigFile (.parsed (.object before.fields))).values key := by
  unfold previous
  rcases read_cases before with ⟨-, e, he⟩ | ⟨-, hok⟩
  · rw [he]
    rfl
  · rw [hok]
    rfl

theorem trimmed_read (before : ConfigObject) :
    Trimmed (readConfigFile (.parsed (.object before.fields))).values := by
  intro key s hs
  rcases read_cases before with ⟨-, e, he⟩ | ⟨-, hok⟩
  · rw [he] at hs
    cases hs
  · rw [hok] at hs
    dsimp only at hs
    unfold readOwned at hs
    split at hs
    · obtain ⟨htrim, hne⟩ := usable_eq_some hs
      exact usable_some htrim hne
    · cases hs

theorem kept_given {existing : FileConfig} {values : Values} {key : OwnedKey} {s : String}
    (h : values key = some s) : kept existing values key = usable (some s) := by
  unfold kept
  rw [h, Option.some_or]

/-- A key to take out is written as the file has it. -/
theorem kept_undefined {before : ConfigObject} {values : Values} {key : OwnedKey}
    (h : values key = none) :
    kept (readConfigFile (.parsed (.object before.fields))) values key =
      (readConfigFile (.parsed (.object before.fields))).values key := by
  unfold kept
  rw [h, Option.none_or, previous_eq]
  cases hs : (readConfigFile (.parsed (.object before.fields))).values key with
  | none => rfl
  | some s => exact trimmed_read before key s hs

/-- The keys of the project are all written again unless one is `__proto__` or the file is
given up. -/
theorem others_kept_iff (before : ConfigObject) {fs : Assoc String Json}
    (hfs : fs = if (readConfigFile (.parsed (.object before.fields))).error.isSome then []
      else foreign before.fields) :
    (∀ k, ownedKey? k = none → fs.get k = before.fields.get k) ↔
      ∀ k, ownedKey? k = none → before.fields.get k ≠ none →
        k ≠ "__proto__" ∧ before.Accepted := by
  cases herror : (readConfigFile (.parsed (.object before.fields))).error with
  | some e =>
      have hnot : ¬ before.Accepted := by
        rw [← error_eq_none_iff, herror]
        exact fun h ↦ (by cases h)
      rw [herror, Option.isSome_some, if_pos rfl] at hfs
      subst hfs
      constructor
      · intro h k hk hheld
        exact absurd (h k hk).symm hheld
      · intro h k hk
        by_contra hne
        exact hnot (h k hk fun hget ↦ hne hget.symm).2
  | none =>
      rw [herror, Option.isSome_none, if_neg Bool.false_ne_true] at hfs
      subst hfs
      constructor
      · intro h k hk hheld
        refine ⟨?_, (error_eq_none_iff before).mp herror⟩
        rintro rfl
        rw [← h _ hk, get_foreign_proto] at hheld
        exact hheld rfl
      · intro h k hk
        by_cases hproto : k = "__proto__"
        · rw [hproto, get_foreign_proto]
          by_contra hne
          exact (h k hk (hproto ▸ Ne.symm hne)).1 hproto
        · exact get_foreign hk hproto

/-- A file that was given a token. -/
def withToken : ConfigObject := ⟨[("token", .text "secret")], by decide⟩

end Tesbo.ConfigFile
