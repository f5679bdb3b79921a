import Mathlib.Data.List.Forall2
import Mathlib.Data.List.Perm.Basic
import Tabular.Manifest
import Tabular.Proofs.Operations
import Tabular.Proofs.Selection

/-!
# Loading the entries of a manifest

The entries are loaded one after the other into a catalog that grows, and the first that
fails ends it. Said at once: all can be loaded iff the ids are valid, new and pairwise
distinct and the files have records (`Loadable`), and then the catalog gains exactly one
dataset for each entry (`Gains`). Where an entry fails, the catalog has gained those in
front of it. What a catalog gains is a set, so the order of the entries does not matter:
`Manifest.apply_outcome`.
-/

namespace Tabular

/-- The file of an entry has records, and the entry makes this dataset of them. -/
def Entry.Gives (disk : Disk) (e : Entry) (d : Dataset) : Prop :=
  ∃ records, disk.loadRecords e.path = .ok records ∧ d = ⟨e.id, e.kind, records⟩

/-- What the entries of a manifest need, all together, to be loaded into a catalog. -/
structure Loadable (disk : Disk) (c : Catalog) (entries : List Entry) : Prop where
  valid : ∀ e ∈ entries, ValidId e.id
  new : ∀ e ∈ entries, c.contains e.id = false
  distinct : (entries.map Entry.id).Nodup
  files : ∀ e ∈ entries, ∃ records, disk.loadRecords e.path = .ok records

/-- A catalog is another one and one dataset for each entry besides, no more and no less. -/
def Gains (disk : Disk) (entries : List Entry) (c c' : Catalog) : Prop :=
  ∃ gained, List.Forall₂ (Entry.Gives disk) entries gained ∧
    c'.datasets.entries.Perm ((gained.map fun d => (d.id, d)) ++ c.datasets.entries)

/-- What an entry fails with at a catalog: the first of these that is the case. -/
inductive Entry.FailsIn (disk : Disk) (c : Catalog) (e : Entry) : Error → Prop
  | invalid {fault : IdFault} (h : checkId e.id = .error fault) :
      FailsIn disk c e (.invalidId e.id fault)
  | loaded (hid : ValidId e.id) (h : c.contains e.id = true) : FailsIn disk c e (.duplicate e.id)
  | file {fault : LoadFault} (hid : ValidId e.id) (hnew : c.contains e.id = false)
      (h : disk.loadRecords e.path = .error fault) : FailsIn disk c e (.ingest e.id fault)

/-! ## One dataset more -/

/-- Binding a new key adds its entry and keeps the others. -/
theorem put_perm {α : Type} {key : String} {entries : List (String × α)}
    (hnew : lookup key entries = none) (value : α) :
    (put key value entries).Perm ((key, value) :: entries) := by
  induction entries with
  | nil => rfl
  | cons entry rest ih =>
    obtain ⟨hne, hrest⟩ : entry.1 ≠ key ∧ lookup key rest = none := by
      rw [lookup_eq_none_iff, List.forall_mem_cons] at hnew
      exact ⟨hnew.1, lookup_eq_none_iff.mpr hnew.2⟩
    rw [put]
    split
    · rfl
    next heq => exact absurd (Text.eq_of_order heq).symm hne
    · apply ((ih hrest).cons entry).trans
      exact List.Perm.swap _ _ _

/-- Ascending entries have one order only. -/
theorem Catalog.eq_of_perm {c c' : Catalog} (h : c.datasets.entries.Perm c'.datasets.entries) :
    c = c' := by
  apply Catalog.ext_get?
  intro id
  apply Option.ext
  intro d
  show c.datasets.get? id = some d ↔ c'.datasets.get? id = some d
  rw [← Dictionary.mem_entries_iff, ← Dictionary.mem_entries_iff]
  exact h.mem_iff

theorem Catalog.contains_loading (c : Catalog) (d : Dataset) (id : String) :
    (c.loading d).contains id = true ↔ d.id = id ∨ c.contains id = true := by
  rw [contains_iff, contains_iff, get?_loading]
  by_cases h : d.id = id
  · simp [h]
  · simp [h]

variable {disk : Disk} {c c' c'' : Catalog} {e : Entry} {entries : List Entry}

/-- The first entry can be loaded, and the others into the catalog that this leaves. -/
theorem loadable_cons_iff {records : List Record} (hfile : disk.loadRecords e.path = .ok records) :
    Loadable disk c (e :: entries) ↔ ValidId e.id ∧ c.contains e.id = false ∧
      Loadable disk (c.loading ⟨e.id, e.kind, records⟩) entries := by
  have hcontains := fun i => c.contains_loading ⟨e.id, e.kind, records⟩ i
  constructor
  · rintro ⟨hvalid, hnew, hdistinct, hfiles⟩
    rw [List.map_cons, List.nodup_cons] at hdistinct
    obtain ⟨hvalid, hvalids⟩ := List.forall_mem_cons.mp hvalid
    obtain ⟨hnew, hnews⟩ := List.forall_mem_cons.mp hnew
    refine ⟨hvalid, hnew, hvalids, ?_, hdistinct.2, (List.forall_mem_cons.mp hfiles).2⟩
    intro e' he'
    rw [← Bool.not_eq_true, hcontains]
    rintro (hid | hold)
    · exact hdistinct.1 (List.mem_map.mpr ⟨e', he', hid.symm⟩)
    · rw [hnews e' he'] at hold
      cases hold
  · rintro ⟨hvalid, hnew, hvalids, hnews, hdistinct, hfiles⟩
    have hothers : ∀ e' ∈ entries, e.id ≠ e'.id ∧ c.contains e'.id = false := by
      intro e' he'
      have h := hnews e' he'
      rw [← Bool.not_eq_true, hcontains, not_or, Bool.not_eq_true] at h
      exact h
    refine ⟨List.forall_mem_cons.mpr ⟨hvalid, hvalids⟩,
      List.forall_mem_cons.mpr ⟨hnew, fun e' he' => (hothers e' he').2⟩, ?_,
      List.forall_mem_cons.mpr ⟨⟨records, hfile⟩, hfiles⟩⟩
    rw [List.map_cons, List.nodup_cons]
    refine ⟨?_, hdistinct⟩
    intro hmem
    obtain ⟨e', he', hid⟩ := List.mem_map.mp hmem
    exact (hothers e' he').1 hid.symm

/-! ## What is gained -/

theorem gains_nil (c : Catalog) : Gains disk [] c c := ⟨[], .nil, List.Perm.refl _⟩

theorem Gains.cons {records : List Record} (hfile : disk.loadRecords e.path = .ok records)
    (hnew : c.contains e.id = false)
    (h : Gains disk entries (c.loading ⟨e.id, e.kind, records⟩) c') :
    Gains disk (e :: entries) c c' := by
  obtain ⟨gained, hgained, hperm⟩ := h
  have hput := put_perm (Catalog.contains_eq_false_iff.mp hnew) (Dataset.mk e.id e.kind records)
  refine ⟨⟨e.id, e.kind, records⟩ :: gained, .cons ⟨records, hfile, rfl⟩ hgained, ?_⟩
  exact hperm.trans ((hput.append_left _).trans List.perm_middle)

theorem Entry.Gives.unique {d d' : Dataset} (h : e.Gives disk d) (h' : e.Gives disk d') : d = d' := by
  obtain ⟨records, hfile, rfl⟩ := h
  obtain ⟨records', hfile', rfl⟩ := h'
  rw [hfile] at hfile'
  cases hfile'
  rfl

/-- The order of the entries does not matter for what is gained. -/
theorem Gains.perm {entries' : List Entry} (hperm : entries'.Perm entries)
    (h : Gains disk entries c c') : Gains disk entries' c c' := by
  obtain ⟨gained, hgained, hc'⟩ := h
  obtain ⟨gained', hgained', hperm'⟩ := List.perm_comp_forall₂ hperm hgained
  refine ⟨gained', hgained', hc'.trans ?_⟩
  exact ((hperm'.map _).symm).append_right _

/-- Entries leave one catalog only. -/
theorem Gains.unique (h : Gains disk entries c c') (h' : Gains disk entries c c'') : c' = c'' := by
  obtain ⟨gained, hgained, hc'⟩ := h
  obtain ⟨gained', hgained', hc''⟩ := h'
  obtain rfl : gained = gained' := by
    clear hc' hc''
    induction hgained generalizing gained' with
    | nil =>
      cases hgained'
      rfl
    | cons he _ ih =>
      cases hgained' with
      | cons he' hrest => rw [he.unique he', ih _ hrest]
  exact Catalog.eq_of_perm (hc'.trans hc''.symm)

/-! ## The entries in turn -/

theorem Entry.addFrom_of_failsIn {error : Error} (h : e.FailsIn disk c error) :
    (c.addFrom e.id e.kind fun _ => disk.loadRecords e.path) = (.error error, c) := by
  cases h with
  | invalid hid => rw [Catalog.addFrom_of_invalid hid]
  | loaded hid hold => rw [Catalog.addFrom_of_loaded (checkId_eq_ok_iff.mpr hid) hold]
  | file hid hnew hfile =>
    exact Catalog.addFrom_of_fault (checkId_eq_ok_iff.mpr hid) hnew hfile

/-- An entry is loaded, or fails in one of the ways in which an entry can. -/
theorem Entry.load_cases (disk : Disk) (c : Catalog) (e : Entry) :
    (∃ records, disk.loadRecords e.path = .ok records ∧ ValidId e.id ∧
      c.contains e.id = false) ∨ ∃ error, e.FailsIn disk c error := by
  rcases c.id_cases e.id with ⟨fault, hid⟩ | ⟨hid, hold⟩ | ⟨hid, hnew⟩
  · exact .inr ⟨_, .invalid hid⟩
  · exact .inr ⟨_, .loaded (checkId_eq_ok_iff.mp hid) hold⟩
  · cases hfile : disk.loadRecords e.path with
    | ok records => exact .inl ⟨records, rfl, checkId_eq_ok_iff.mp hid, hnew⟩
    | error fault => exact .inr ⟨_, .file (checkId_eq_ok_iff.mp hid) hnew hfile⟩

namespace Manifest

theorem applyEntries_cons_of_loads {records : List Record}
    (hfile : disk.loadRecords e.path = .ok records) (hvalid : ValidId e.id)
    (hnew : c.contains e.id = false) :
    applyEntries disk (e :: entries) c =
      applyEntries disk entries (c.loading ⟨e.id, e.kind, records⟩) := by
  rw [applyEntries, Catalog.addFrom_of_records hfile,
    Catalog.add_of_new (checkId_eq_ok_iff.mpr hvalid) hnew]

theorem applyEntries_cons_of_failsIn {error : Error} (h : e.FailsIn disk c error) :
    applyEntries disk (e :: entries) c = (.error error, c) := by
  rw [applyEntries, Entry.addFrom_of_failsIn h]

/-- Loading goes on with further entries only where the first ones have been loaded. -/
theorem applyEntries_append (disk : Disk) (front back : List Entry) (c : Catalog) :
    applyEntries disk (front ++ back) c =
      match applyEntries disk front c with
      | (.ok (), next) => applyEntries disk back next
      | failed => failed := by
  induction front generalizing c with
  | nil => rfl
  | cons e front ih =>
    rw [List.cons_append]
    rcases e.load_cases disk c with ⟨records, hfile, hvalid, hnew⟩ | ⟨error, hfails⟩
    · rw [applyEntries_cons_of_loads hfile hvalid hnew,
        applyEntries_cons_of_loads hfile hvalid hnew]
      exact ih _
    · rw [applyEntries_cons_of_failsIn hfails, applyEntries_cons_of_failsIn hfails]

/-- Entries that can be loaded are, and the catalog gains their datasets. -/
theorem applyEntries_of_loadable (h : Loadable disk c entries) :
    ∃ c', applyEntries disk entries c = (.ok (), c') ∧ Gains disk entries c c' := by
  induction entries generalizing c with
  | nil => exact ⟨c, rfl, gains_nil c⟩
  | cons e entries ih =>
    obtain ⟨records, hfile⟩ := h.files e List.mem_cons_self
    obtain ⟨hvalid, hnew, hrest⟩ := (loadable_cons_iff hfile).mp h
    obtain ⟨c', happly, hgains⟩ := ih hrest
    exact ⟨c', (applyEntries_cons_of_loads hfile hvalid hnew).trans happly, hgains.cons hfile hnew⟩

theorem loadable_nil : Loadable disk c [] := ⟨by simp, by simp, by simp, by simp⟩

/-- Entries that cannot all be loaded have a first one that fails, behind others that can. -/
theorem exists_failsIn_of_not_loadable (h : ¬ Loadable disk c entries) :
    ∃ front e back c' error, entries = front ++ e :: back ∧ Loadable disk c front ∧
      Gains disk front c c' ∧ e.FailsIn disk c' error := by
  induction entries generalizing c with
  | nil => exact absurd loadable_nil h
  | cons e entries ih =>
    rcases e.load_cases disk c with ⟨records, hfile, hvalid, hnew⟩ | ⟨error, hfails⟩
    · have hrest : ¬ Loadable disk (c.loading ⟨e.id, e.kind, records⟩) entries := by
        intro hrest
        exact h ((loadable_cons_iff hfile).mpr ⟨hvalid, hnew, hrest⟩)
      obtain ⟨front, e', back, c', error, rfl, hfront, hgains, hfails⟩ := ih hrest
      exact ⟨e :: front, e', back, c', error, rfl,
        (loadable_cons_iff hfile).mpr ⟨hvalid, hnew, hfront⟩, hgains.cons hfile hnew, hfails⟩
    · exact ⟨[], e, entries, c, error, rfl, loadable_nil, gains_nil c, hfails⟩

/-- Behind entries that can be loaded, one that fails ends the loading. -/
theorem applyEntries_of_failsIn {front back : List Entry} {error : Error}
    (hfront : Loadable disk c front) (hgains : Gains disk front c c')
    (h : e.FailsIn disk c' error) :
    applyEntries disk (front ++ e :: back) c = (.error error, c') := by
  obtain ⟨next, happly, hnext⟩ := applyEntries_of_loadable hfront
  obtain rfl := hgains.unique hnext
  rw [applyEntries_append, happly]
  exact applyEntries_cons_of_failsIn h

theorem applyEntries_eq_ok_iff :
    applyEntries disk entries c = (.ok (), c') ↔
      Loadable disk c entries ∧ Gains disk entries c c' := by
  constructor
  · intro h
    have hloadable : Loadable disk c entries := by
      by_contra hnot
      obtain ⟨front, e, back, next, error, rfl, hfront, hgains, hfails⟩ :=
        exists_failsIn_of_not_loadable hnot
      rw [applyEntries_of_failsIn hfront hgains hfails] at h
      cases h
    obtain ⟨next, happly, hgains⟩ := applyEntries_of_loadable hloadable
    rw [happly] at h
    cases h
    exact ⟨hloadable, hgains⟩
  · rintro ⟨hloadable, hgains⟩
    obtain ⟨next, happly, hnext⟩ := applyEntries_of_loadable hloadable
    rw [happly, hgains.unique hnext]

theorem applyEntries_eq_error_iff {error : Error} :
    applyEntries disk entries c = (.error error, c') ↔
      ∃ front e back, entries = front ++ e :: back ∧ Loadable disk c front ∧
        Gains disk front c c' ∧ e.FailsIn disk c' error := by
  constructor
  · intro h
    have hnot : ¬ Loadable disk c entries := by
      intro hloadable
      obtain ⟨next, happly, -⟩ := applyEntries_of_loadable hloadable
      rw [happly] at h
      cases h
    obtain ⟨front, e, back, next, error', rfl, hfront, hgains, hfails⟩ :=
      exists_failsIn_of_not_loadable hnot
    rw [applyEntries_of_failsIn hfront hgains hfails] at h
    cases h
    exact ⟨front, e, back, rfl, hfront, hgains, hfails⟩
  · rintro ⟨front, e, back, rfl, hfront, hgains, hfails⟩
    exact applyEntries_of_failsIn hfront hgains hfails

end Manifest

theorem Loadable.perm {entries' : List Entry} (hperm : entries'.Perm entries)
    (h : Loadable disk c entries) : Loadable disk c entries' where
  valid e he := h.valid e (hperm.mem_iff.mp he)
  new e he := h.new e (hperm.mem_iff.mp he)
  distinct := (hperm.map _).nodup_iff.mpr h.distinct
  files e he := h.files e (hperm.mem_iff.mp he)

/-- **A manifest is loaded whole, or up to its first entry that fails.** So a manifest
made of two is the one and then, if it could be loaded, the other; and in any order the
entries that can be loaded leave the same catalog. -/
theorem Manifest.apply_outcome (disk : Disk) (c : Catalog) (m : Manifest) :
    ((∃ c', m.apply disk c = (.ok (), c')) ↔ Loadable disk c m.entries) ∧
    (∀ c', m.apply disk c = (.ok (), c') → Gains disk m.entries c c') ∧
    (∀ error c', m.apply disk c = (.error error, c') ↔
      ∃ front e back, m.entries = front ++ e :: back ∧ Loadable disk c front ∧
        Gains disk front c c' ∧ e.FailsIn disk c' error) ∧
    (∀ m' : Manifest, Manifest.apply disk ⟨m.entries ++ m'.entries⟩ c =
      match m.apply disk c with
      | (.ok (), next) => m'.apply disk next
      | failed => failed) ∧
    ∀ (m' : Manifest) c', m'.entries.Perm m.entries → m.apply disk c = (.ok (), c') →
      m'.apply disk c = (.ok (), c') := by
  refine ⟨⟨?_, ?_⟩, ?_, fun error c' => applyEntries_eq_error_iff, ?_, ?_⟩
  · rintro ⟨c', h⟩
    exact (applyEntries_eq_ok_iff.mp h).1
  · intro h
    obtain ⟨c', happly, -⟩ := applyEntries_of_loadable h
    exact ⟨c', happly⟩
  · intro c' h
    exact (applyEntries_eq_ok_iff.mp h).2
  · intro m'
    exact applyEntries_append disk m.entries m'.entries c
  · intro m' c' hperm h
    obtain ⟨hloadable, hgains⟩ := applyEntries_eq_ok_iff.mp h
    exact applyEntries_eq_ok_iff.mpr ⟨hloadable.perm hperm, hgains.perm hperm⟩

/-- Two entries with one file can be loaded in either order; a third entry, with a file
that is not there, cannot be loaded with them. -/
theorem halls_and_rooms_loaded :
    let disk : Disk := ⟨fun path =>
      if path = "rooms.json" then .ok "[\x7b\"seats\": 40\x7d, \x7b\x7d]" else .error .notFound⟩
    let rooms : Entry := ⟨"rooms", .rooms, "rooms.json"⟩
    let halls : Entry := ⟨"halls", .courses, "rooms.json"⟩
    let labs : Entry := ⟨"labs", .rooms, "labs.json"⟩
    ∃ c, Manifest.apply disk ⟨[rooms, halls]⟩ .empty = (.ok (), c) ∧
      Manifest.apply disk ⟨[halls, rooms]⟩ .empty = (.ok (), c) ∧
      Gains disk [rooms, halls] .empty c ∧ ¬ Loadable disk .empty [rooms, halls, labs] := by
  intro disk rooms halls labs
  have hfirst : (Manifest.apply disk ⟨[rooms, halls]⟩ .empty).1 = .ok () := by decide +kernel
  have hall : (Manifest.apply disk ⟨[rooms, halls, labs]⟩ .empty).1 =
      .error (.ingest "labs" (.unreadable "labs.json" .notFound)) := by decide +kernel
  obtain ⟨-, hgains, -, -, hperm⟩ := Manifest.apply_outcome disk .empty ⟨[rooms, halls]⟩
  obtain ⟨hloadable, -⟩ := Manifest.apply_outcome disk .empty ⟨[rooms, halls, labs]⟩
  have happly : Manifest.apply disk ⟨[rooms, halls]⟩ .empty =
      (.ok (), (Manifest.apply disk ⟨[rooms, halls]⟩ .empty).2) := Prod.ext hfirst rfl
  refine ⟨_, happly, hperm ⟨[halls, rooms]⟩ _ (.swap _ _ _) happly, hgains _ happly, ?_⟩
  intro h
  obtain ⟨c, hc⟩ := hloadable.mpr h
  rw [hc] at hall
  cases hall

end Tabular
