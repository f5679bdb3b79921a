import Tabular.CommandLine
import Tabular.Proofs.RelativePaths
import Tabular.Proofs.WrittenValues
import Tabular.Proofs.WrittenYaml

/-!
# Manifests that were written read back

A YAML value is a manifest if its keys say so, each of them there once, whatever other keys
there are (`Manifest.ofNode?_eq_some_iff`). Where nothing lies at a path, an empty manifest is
loaded from it; a text of this shape gives the manifest that it lists, with its paths seen from
its directory; anything else is refused (`Manifest.load_eq_iff`). So a manifest that was written
into a directory is loaded from there as it was (`Manifest.load_written`).
-/

namespace Tabular

/-! ## Fields -/

namespace Yaml.Node

/-- A mapping has these fields, if its keys are scalars with their names. What was left out has
none. -/
inductive HasFields : Node → List (String × Node) → Prop
  | mapping {entries : List (Node × Node)} {fields : List (String × Node)}
      (h : List.Forall₂ (fun e f => (∃ plain, e.1 = .scalar f.1 plain) ∧ e.2 = f.2)
        entries fields) : HasFields (.mapping entries) fields
  | nothing : HasFields .nothing []

/-- A sequence has its items. What was left out has none. -/
inductive HasItems : Node → List Node → Prop
  | sequence (items : List Node) : HasItems (.sequence items) items
  | nothing : HasItems .nothing []

variable {n : Node}

theorem text?_eq_some_iff {text : String} :
    n.text? = some text ↔ ∃ plain, n = .scalar text plain := by
  cases n <;> simp only [text?, Option.some.injEq, reduceCtorEq, exists_false, scalar.injEq,
    exists_and_left, exists_eq', and_true]

theorem fields?_eq_some_iff {fields : List (String × Node)} :
    n.fields? = some fields ↔ HasFields n fields := by
  constructor
  · intro h
    unfold fields? at h
    split at h
    · refine .mapping ((mapM_eq_some_iff.mp h).imp ?_)
      intro e f hf
      obtain ⟨key, hkey, rfl⟩ := Option.map_eq_some_iff.mp hf
      exact ⟨text?_eq_some_iff.mp hkey, rfl⟩
    · cases h
      exact .nothing
    · cases h
  · intro h
    cases h with
    | mapping h =>
      refine mapM_eq_some_iff.mpr (h.imp ?_)
      rintro e f ⟨hkey, hvalue⟩
      exact Option.map_eq_some_iff.mpr ⟨f.1, text?_eq_some_iff.mpr hkey, by rw [hvalue]⟩
    | nothing => rfl

theorem items?_eq_some_iff {items : List Node} : n.items? = some items ↔ HasItems n items := by
  constructor
  · intro h
    unfold items? at h
    split at h
    · cases h
      exact .sequence items
    · cases h
      exact .nothing
    · cases h
  · intro h
    cases h with
    | sequence => rfl
    | nothing => rfl

end Yaml.Node

/-- A key comes once, with this value. -/
def Once (key : String) (node : Yaml.Node) (fields : List (String × Yaml.Node)) : Prop :=
  ∃ front back, fields = front ++ (key, node) :: back ∧
    (∀ f ∈ front, f.1 ≠ key) ∧ ∀ f ∈ back, f.1 ≠ key

/-- A key comes once, with a scalar that has this text. -/
def OnceText (key text : String) (fields : List (String × Yaml.Node)) : Prop :=
  ∃ plain, Once key (.scalar text plain) fields

variable {key : String} {node : Yaml.Node} {fields : List (String × Yaml.Node)}

theorem onlyField_eq_none_iff : onlyField key fields = some none ↔ ∀ f ∈ fields, f.1 ≠ key := by
  have hnone : (fields.filter fun f => f.1 = key) = [] ↔ ∀ f ∈ fields, f.1 ≠ key := by
    simp only [List.filter_eq_nil_iff, decide_eq_true_eq, ne_eq]
  rw [← hnone]
  unfold onlyField
  constructor
  · intro h
    split at h
    next hfilter => exact hfilter
    · cases h
    · cases h
  · intro h
    rw [h]

theorem onlyField_eq_some_iff : onlyField key fields = some (some node) ↔ Once key node fields := by
  have honce : (fields.filter fun f => f.1 = key) = [(key, node)] ↔ Once key node fields := by
    simp [Once, List.filter_eq_cons_iff, List.filter_eq_nil_iff]
  rw [← honce]
  unfold onlyField
  constructor
  · intro h
    split at h
    · cases h
    next f hfilter =>
      have hkey := List.mem_filter.mp (hfilter ▸ List.mem_singleton_self f)
      cases h
      rw [hfilter, ← of_decide_eq_true hkey.2]
    · cases h
  · intro h
    rw [h]

theorem textField_eq_some_iff {text : String} :
    textField key fields = some text ↔ OnceText key text fields := by
  simp only [OnceText, ← onlyField_eq_some_iff]
  unfold textField
  cases honly : onlyField key fields with
  | none => simp
  | some found =>
    cases found with
    | none => simp
    | some value => simp [Yaml.Node.text?_eq_some_iff]

/-! ## Entries and manifests -/

/-- A YAML value is an entry: it names its id, its kind and its path, each once. -/
def Entry.Of (node : Yaml.Node) (e : Entry) : Prop :=
  ∃ fields, node.HasFields fields ∧ OnceText "id" e.id fields ∧
    OnceText "kind" e.kind.name fields ∧ OnceText "path" e.path fields

theorem Entry.ofNode?_eq_some_iff {e : Entry} : ofNode? node = some e ↔ Of node e := by
  simp only [Of, ← Yaml.Node.fields?_eq_some_iff, ← textField_eq_some_iff]
  unfold ofNode?
  simp only [Option.bind_eq_bind, Option.bind_eq_some_iff, Kind.ofName?_eq_some_iff]
  constructor
  · rintro ⟨fields, hfields, id, hid, name, hname, kind, rfl, path, hpath, h⟩
    cases h
    exact ⟨fields, hfields, hid, hname, hpath⟩
  · rintro ⟨fields, hfields, hid, hname, hpath⟩
    exact ⟨fields, hfields, e.id, hid, e.kind.name, hname, e.kind, rfl, e.path, hpath, rfl⟩

namespace Manifest

/-- A YAML value is a manifest: it lists the entries under their key, which comes once, or has no
such key and no entries. -/
def Of (node : Yaml.Node) (m : Manifest) : Prop :=
  ∃ fields, node.HasFields fields ∧
    ((∀ f ∈ fields, f.1 ≠ "datasets") ∧ m = empty ∨
      ∃ list items, Once "datasets" list fields ∧ list.HasItems items ∧
        List.Forall₂ Entry.Of items m.entries)

variable {m : Manifest}

theorem mapM_ofNode?_eq_some_iff {items : List Yaml.Node} {entries : List Entry} :
    items.mapM Entry.ofNode? = some entries ↔ List.Forall₂ Entry.Of items entries := by
  rw [mapM_eq_some_iff]
  simp only [Entry.ofNode?_eq_some_iff]

/-- **A YAML value is read as a manifest iff it has the shape of one**, and as the one that it
lists. -/
theorem ofNode?_eq_some_iff : ofNode? node = some m ↔ Of node m := by
  simp only [Of, ← Yaml.Node.fields?_eq_some_iff, ← Yaml.Node.items?_eq_some_iff,
    ← onlyField_eq_none_iff, ← onlyField_eq_some_iff, ← mapM_ofNode?_eq_some_iff]
  unfold ofNode?
  simp only [Option.bind_eq_bind]
  constructor
  · intro h
    obtain ⟨fields, hfields, h⟩ := Option.bind_eq_some_iff.mp h
    obtain ⟨found, hfound, h⟩ := Option.bind_eq_some_iff.mp h
    refine ⟨fields, hfields, ?_⟩
    cases found with
    | none =>
      cases h
      exact .inl ⟨hfound, rfl⟩
    | some list =>
      obtain ⟨items, hitems, h⟩ := Option.bind_eq_some_iff.mp h
      obtain ⟨entries, hentries, h⟩ := Option.bind_eq_some_iff.mp h
      cases h
      exact .inr ⟨list, items, hfound, hitems, hentries⟩
  · rintro ⟨fields, hfields, ⟨hnone, rfl⟩ | ⟨list, items, honce, hitems, hentries⟩⟩
    · simp only [hfields, hnone, Option.bind_some]
    · simp only [hfields, honce, hitems, hentries, Option.bind_some]

/-! ## Loading -/

/-- What comes of loading a manifest from a path. -/
inductive Loads (disk : Disk) (path : String) : Except ManifestFault Manifest → Prop
  | missing (h : disk.has path = false) : Loads disk path (.ok empty)
  | unreadable {fault : ReadFault} (hhas : disk.has path = true)
      (h : disk.read path = .error fault) : Loads disk path (.error (.unreadable fault))
  | malformed {text : String} (h : disk.read path = .ok text)
      (hnode : ∀ node m, Yaml.read text = some node → ¬ Of node m) :
      Loads disk path (.error .malformed)
  | listed {text : String} {node : Yaml.Node} {m : Manifest} (h : disk.read path = .ok text)
      (hnode : Yaml.read text = some node) (hm : Of node m) :
      Loads disk path (.ok (m.relativeTo (Path.parent path)))

variable {disk : Disk} {path directory name : String}

theorem load_of_missing (h : disk.has path = false) : load disk path = .ok empty := by
  rw [load, h]
  rfl

theorem load_of_fault {fault : ReadFault} (hhas : disk.has path = true)
    (h : disk.read path = .error fault) : load disk path = .error (.unreadable fault) := by
  simp only [load, if_pos hhas, h]

theorem load_of_none {text : String} (h : disk.read path = .ok text)
    (hm : (Yaml.read text).bind ofNode? = none) : load disk path = .error .malformed := by
  have hhas : disk.has path = true := by rw [Disk.has, h]
  simp only [load, if_pos hhas, h, hm]

theorem load_of_some {text : String} (h : disk.read path = .ok text)
    (hm : (Yaml.read text).bind ofNode? = some m) :
    load disk path = .ok (m.relativeTo (Path.parent path)) := by
  have hhas : disk.has path = true := by rw [Disk.has, h]
  simp only [load, if_pos hhas, h, hm]

theorem loads_load (disk : Disk) (path : String) : Loads disk path (load disk path) := by
  cases hread : disk.read path with
  | error fault =>
    cases hhas : disk.has path with
    | false =>
      rw [load_of_missing hhas]
      exact .missing hhas
    | true =>
      rw [load_of_fault hhas hread]
      exact .unreadable hhas hread
  | ok text =>
    cases hm : (Yaml.read text).bind ofNode? with
    | none =>
      rw [load_of_none hread hm]
      refine .malformed hread ?_
      intro node m hnode hof
      rw [hnode, Option.bind_some, ofNode?_eq_some_iff.mpr hof] at hm
      cases hm
    | some m =>
      rw [load_of_some hread hm]
      obtain ⟨node, hnode, hof⟩ := Option.bind_eq_some_iff.mp hm
      exact .listed hread hnode (ofNode?_eq_some_iff.mp hof)

/-- **A manifest that is not there is empty**, one that is listed is loaded with its paths seen
from its directory, and anything else is refused. -/
theorem load_eq_iff {answer : Except ManifestFault Manifest} :
    load disk path = answer ↔ Loads disk path answer := by
  constructor
  · rintro rfl
    exact loads_load disk path
  · intro h
    cases h with
    | missing h => exact load_of_missing h
    | unreadable hhas h => exact load_of_fault hhas h
    | @malformed text h hnode =>
      refine load_of_none h (Option.bind_eq_none_iff.mpr ?_)
      intro node hread
      rw [Option.eq_none_iff_forall_ne_some]
      intro m hm
      exact hnode node m hread (ofNode?_eq_some_iff.mp hm)
    | listed h hnode hm =>
      refine load_of_some h ?_
      rw [hnode, Option.bind_some, ofNode?_eq_some_iff.mpr hm]

/-! ## Seen from a directory -/

theorem relativeTo_eq_self (h : ∀ e ∈ m.entries, Path.join directory e.path = e.path) :
    m.relativeTo directory = m := by
  have hentries : m.entries.map (fun e => { e with path := Path.join directory e.path }) =
      m.entries := by
    refine (List.map_congr_left ?_).trans (List.map_id m.entries)
    intro e he
    rw [h e he]
    rfl
  rw [relativeTo, hentries]

/-- A manifest where the program runs has its paths as they stand. -/
theorem relativeTo_empty (m : Manifest) : m.relativeTo "" = m :=
  relativeTo_eq_self fun e _ => Path.join_empty e.path

/-- Absolute paths are the same from every directory. -/
theorem relativeTo_of_isAbsolute (h : ∀ e ∈ m.entries, Path.isAbsolute e.path = true)
    (directory : String) : m.relativeTo directory = m :=
  relativeTo_eq_self fun e he => Path.join_of_isAbsolute (h e he)

end Manifest

/-- **Without a manifest nothing is loaded**, and the program goes on. -/
theorem CommandLine.prepare_of_missing {disk : Disk} {path : String}
    (h : disk.has path = false) : prepare disk path = .ok .empty := by
  rw [prepare, Manifest.load_of_missing h]
  rfl

/-! ## Writing -/

open Yaml

/-- The id and the path of an entry can stand between quotes. -/
structure Entry.Quotable (e : Entry) : Prop where
  id : ∀ c ∈ e.id.toList, isQuotable c = true
  path : ∀ c ∈ e.path.toList, isQuotable c = true

/-- An entry as a YAML value. -/
def Entry.toNode (e : Entry) : Yaml.Node :=
  .mapping [(.scalar "id" true, .scalar e.id false),
    (.scalar "kind" true, .scalar e.kind.name true), (.scalar "path" true, .scalar e.path false)]

theorem Entry.of_toNode (e : Entry) : Of e.toNode e := by
  refine ⟨[("id", .scalar e.id false), ("kind", .scalar e.kind.name true),
    ("path", .scalar e.path false)], .mapping ?_, ?_, ?_, ?_⟩
  · exact .cons ⟨⟨true, rfl⟩, rfl⟩ (.cons ⟨⟨true, rfl⟩, rfl⟩ (.cons ⟨⟨true, rfl⟩, rfl⟩ .nil))
  · exact ⟨false, [], _, rfl, by simp, by simp⟩
  · exact ⟨true, [_], _, rfl, by simp, by simp⟩
  · exact ⟨false, [_, _], _, rfl, by simp, by simp⟩

theorem word_kindName (k : Kind) : Word k.name.toList := by
  cases k
  all_goals exact word_of_all rfl (by decide) (by decide)

theorem Entry.writable_toNode {e : Entry} (h : e.Quotable) : Writable e.toNode := by
  refine .mapping ?_ ?_
  · intro f hf
    simp only [List.mem_cons, List.not_mem_nil, or_false] at hf
    rcases hf with rfl | rfl | rfl
    all_goals exact .word (word_of_all rfl (by decide) (by decide))
  · intro f hf
    simp only [List.mem_cons, List.not_mem_nil, or_false] at hf
    rcases hf with rfl | rfl | rfl
    · exact .scalar (.quoted h.id)
    · exact .scalar (.word (word_kindName e.kind))
    · exact .scalar (.quoted h.path)

namespace Manifest

/-- A manifest as a YAML value. -/
def toNode (m : Manifest) : Yaml.Node :=
  .mapping [(.scalar "datasets" true, .sequence (m.entries.map Entry.toNode))]

/-- A manifest as a text. -/
def text (m : Manifest) : String := m.toNode.text

theorem of_toNode (m : Manifest) : Of m.toNode m := by
  refine ⟨[("datasets", .sequence (m.entries.map Entry.toNode))], .mapping ?_,
    .inr ⟨_, _, ⟨[], [], rfl, by simp, by simp⟩, .sequence _, ?_⟩⟩
  · exact .cons ⟨⟨true, rfl⟩, rfl⟩ .nil
  · rw [List.forall₂_map_left_iff, List.forall₂_same]
    intro e _
    exact e.of_toNode

variable {m : Manifest} {disk : Disk} {directory name : String}

theorem writable_toNode (h : ∀ e ∈ m.entries, e.Quotable) : Writable m.toNode := by
  refine .mapping ?_ ?_
  · intro f hf
    rw [List.mem_singleton.mp hf]
    exact .word (word_of_all rfl (by decide) (by decide))
  · intro f hf
    rw [List.mem_singleton.mp hf]
    refine .sequence ?_
    intro item hitem
    obtain ⟨e, he, rfl⟩ := List.mem_map.mp hitem
    exact Entry.writable_toNode (h e he)

/-- **A manifest that was written into a directory is loaded from there**, with its paths seen
from this directory. -/
theorem load_written (h : ∀ e ∈ m.entries, e.Quotable) (hd : Path.Tidy directory)
    (hname : Path.Name name.toList) (hread : disk.read (Path.join directory name) = .ok m.text) :
    load disk (Path.join directory name) = .ok (m.relativeTo directory) := by
  have hlisted := Loads.listed hread (read_written (writable_toNode h)) m.of_toNode
  rw [Path.parent_join hd hname] at hlisted
  exact load_eq_iff.mpr hlisted

example : (Manifest.mk [⟨"courses", .courses, "data/courses.json"⟩]).text =
    "datasets:\n  - id: \"courses\"\n    kind: courses\n    path: \"data/courses.json\"\n" := by
  decide +kernel

end Manifest

namespace FileTree

variable {t : FileTree} {m : Manifest} {directory name : String}

/-- **In a file tree a manifest is found where it was written.** Its relative paths name the
files below its directory, by `read_join_eq_ok_iff`. -/
theorem load_written (ht : t.Sound) (h : ∀ e ∈ m.entries, e.Quotable)
    (hd : Path.Names directory) (hname : Path.Name name.toList)
    (hlength : (Path.join directory name).utf8ByteSize < 4096)
    (hfile : (Path.split directory.toList ++ [name.toList], m.text) ∈ t.files) :
    Manifest.load t.disk (Path.join directory name) = .ok (m.relativeTo directory) := by
  rw [← Path.split_of_not_mem hname.whole.1] at hfile
  have hread := (read_join_eq_ok_iff ht hd hname.names hlength).mpr hfile
  exact Manifest.load_written h hd.tidy hname hread

/-- A manifest that lies where the program runs is loaded as it was written. -/
theorem load_here (ht : t.Sound) (h : ∀ e ∈ m.entries, e.Quotable)
    (hname : Path.Name name.toList) (hfile : ([name.toList], m.text) ∈ t.files) :
    Manifest.load t.disk name = .ok m := by
  have hlength : name.utf8ByteSize < 4096 := by
    have hshort := hname.short
    rw [String.ofList_toList] at hshort
    omega
  rw [← Path.split_of_not_mem hname.whole.1] at hfile
  have hread := (read_eq_ok_iff ht hname.names hlength).mpr hfile
  have hjoin := Path.join_empty name
  rw [← hjoin] at hread ⊢
  rw [Manifest.load_written h (.inr rfl) hname hread, m.relativeTo_empty]

end FileTree

end Tabular
