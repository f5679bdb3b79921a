import Mathlib.Data.List.Induction
import Tabular.Proofs.Operations
import Tabular.Proofs.Reachable

/-!
# A catalog is what its history says

The operations that were carried out, each with its answer, are a history. It says by
itself what a catalog must answer: an id is live (`Live`) when it was loaded and not
unloaded since, and what is loaded under it is what the latest event has loaded under it
(`Latest`). `performAll_follows` is that every answer, after any operations on the empty
catalog, is the one that the history before it calls for (`Follows`).

The proof keeps one invariant along the operations, `Agrees`: looking an id up finds what
the history says. One operation keeps it because an event changes what is live, and what
is the latest, just where the operation changes the catalog.
-/

namespace Tabular

/-- What can be asked of a catalog as a store of datasets. -/
inductive Operation where
  | add (id : String) (kind : Kind) (records : List Record)
  | remove (id : String)
  | get (id : String)
  | contains (id : String)
  | list

/-- An operation that was carried out, and its answer. -/
inductive Event where
  | add (id : String) (kind : Kind) (records : List Record) (answer : Except Error (List String))
  | remove (id : String) (answer : Except Error String)
  | get (id : String) (answer : Except Error Dataset)
  | contains (id : String) (answer : Bool)
  | list (answer : List Dataset.Info)

namespace Catalog

/-- Carries out an operation: what happens, and the catalog that is left. -/
def perform (c : Catalog) : Operation → Event × Catalog
  | .add id kind records => (.add id kind records (c.add id kind records).1,
      (c.add id kind records).2)
  | .remove id => (.remove id (c.remove id).1, (c.remove id).2)
  | .get id => (.get id (c.get id), c)
  | .contains id => (.contains id (c.contains id), c)
  | .list => (.list c.list, c)

/-- Carries out operations in turn: their history, and the catalog that is left. -/
def performAll (c : Catalog) : List Operation → List Event × Catalog
  | [] => ([], c)
  | o :: rest =>
    ((c.perform o).1 :: ((c.perform o).2.performAll rest).1, ((c.perform o).2.performAll rest).2)

end Catalog

/-! ## What a history says -/

namespace Event

/-- The event is a successful add of this dataset. -/
def Loads (d : Dataset) : Event → Prop
  | add id kind records (.ok _) => d = ⟨id, kind, records⟩
  | _ => False

/-- The event is a successful add under this id. -/
def LoadsUnder (id : String) (e : Event) : Prop := ∃ d, e.Loads d ∧ d.id = id

/-- The event is a successful removal of this id. -/
def Unloads (id : String) : Event → Prop
  | remove i (.ok _) => i = id
  | _ => False

/-- The operation was refused, or did not find what it asked for. -/
def Fails : Event → Prop
  | add _ _ _ (.error _) => True
  | remove _ (.error _) => True
  | get _ (.error _) => True
  | contains _ false => True
  | _ => False

end Event

/-- An event of one kind has happened, and since then none of another. -/
def Since (P Q : Event → Prop) (h : List Event) : Prop :=
  ∃ front e back, h = front ++ e :: back ∧ P e ∧ ∀ e' ∈ back, ¬ Q e'

/-- An id has been loaded successfully, and not been removed successfully since. -/
def Live (h : List Event) (id : String) : Prop := Since (Event.LoadsUnder id) (Event.Unloads id) h

/-- The latest successful add under the id of a dataset is that of this dataset. -/
def Latest (h : List Event) (d : Dataset) : Prop :=
  Since (Event.Loads d) (Event.LoadsUnder d.id) h

/-- The answers of a catalog are those that a history calls for. -/
structure Catalog.Follows (c : Catalog) (h : List Event) : Prop where
  /-- That an id is not valid comes before that it is live. -/
  add : ∀ id kind records,
    ((∃ ids, (c.add id kind records).1 = .ok ids) ↔ ValidId id ∧ ¬ Live h id) ∧
    (¬ ValidId id → ∃ fault, (c.add id kind records).1 = .error (.invalidId id fault)) ∧
    (ValidId id → Live h id → (c.add id kind records).1 = .error (.duplicate id))
  /-- What is answered are the ids that are live with the new one. -/
  add_answer : ∀ id kind records ids, (c.add id kind records).1 = .ok ids →
    ids.Pairwise Text.Before ∧ ∀ i, i ∈ ids ↔ Live (h ++ [.add id kind records (.ok ids)]) i
  /-- That an id is not valid comes before that it is not live. -/
  remove : ∀ id,
    ((∃ answer, (c.remove id).1 = .ok answer) ↔ ValidId id ∧ Live h id) ∧
    (¬ ValidId id → ∃ fault, (c.remove id).1 = .error (.invalidId id fault)) ∧
    (ValidId id → ¬ Live h id → (c.remove id).1 = .error (.notFound id))
  get_succeeds : ∀ id, (∃ d, c.get id = .ok d) ↔ Live h id
  get_answer : ∀ id d, c.get id = .ok d → d.id = id ∧ Latest h d
  get_absent : ∀ id, ¬ Live h id → c.get id = .error (.notFound id)
  contains_succeeds : ∀ id, c.contains id = true ↔ Live h id
  /-- Ascending strictly, the list has an id at most once. -/
  list_ascending : (c.list.map Dataset.Info.id).Pairwise Text.Before
  list_ids : ∀ id, id ∈ c.list.map Dataset.Info.id ↔ Live h id
  list_answer : ∀ i ∈ c.list, ∃ d, Latest h d ∧ i = ⟨d.id, d.kind, d.records.length⟩
  /-- After an operation that fails all is answered as without it. -/
  failing : ∀ o, (c.perform o).1.Fails → ∀ rest,
    ((c.perform o).2.performAll rest).1 = (c.performAll rest).1
  keys : ∀ key d, c.get? key = some d → ValidId key ∧ d.id = key

/-! ## One more event -/

theorem since_append_singleton {P Q : Event → Prop} {h : List Event} {e : Event} :
    Since P Q (h ++ [e]) ↔ P e ∨ (Since P Q h ∧ ¬ Q e) := by
  constructor
  · rintro ⟨front, e', back, heq, he', hback⟩
    -- The event that counts is the last one, or stands in the history before.
    rcases List.eq_nil_or_concat back with rfl | ⟨back, last, rfl⟩
    · obtain ⟨-, hlast⟩ := List.append_inj' heq rfl
      rw [List.singleton_inj.mp hlast]
      exact .inl he'
    · rw [List.concat_eq_append] at heq hback
      rw [← List.cons_append, ← List.append_assoc] at heq
      obtain ⟨rfl, hlast⟩ := List.append_inj' heq rfl
      obtain rfl : e = last := List.singleton_inj.mp hlast
      refine .inr ⟨⟨front, e', back, rfl, he', ?_⟩, hback e (by simp)⟩
      intro e'' hmem
      exact hback e'' (List.mem_append_left _ hmem)
  · rintro (he | ⟨⟨front, e', back, rfl, he', hback⟩, hlast⟩)
    · exact ⟨h, e, [], rfl, he, by simp⟩
    · refine ⟨front, e', back ++ [e], by simp, he', ?_⟩
      intro e'' hmem
      rcases List.mem_append.mp hmem with hmem | hmem
      · exact hback e'' hmem
      · rw [List.mem_singleton.mp hmem]
        exact hlast

variable {h : List Event} {e : Event}

/-- An event that neither loads nor unloads says nothing of what is live. -/
theorem live_append_iff_of_neither (hload : ∀ d, ¬ e.Loads d) (hunload : ∀ i, ¬ e.Unloads i)
    {id : String} : Live (h ++ [e]) id ↔ Live h id := by
  have hunder : ¬ e.LoadsUnder id := fun ⟨d, hd, _⟩ => hload d hd
  simp [Live, since_append_singleton, hunder, hunload]

theorem latest_append_iff_of_not_loads (hload : ∀ d, ¬ e.Loads d) {d : Dataset} :
    Latest (h ++ [e]) d ↔ Latest h d := by
  have hunder : ¬ e.LoadsUnder d.id := fun ⟨d', hd', _⟩ => hload d' hd'
  simp [Latest, since_append_singleton, hload, hunder]

section Adding

variable {id : String} {kind : Kind} {records : List Record} {ids : List String}

theorem loadsUnder_add_ok_iff {i : String} :
    (Event.add id kind records (.ok ids)).LoadsUnder i ↔ id = i := by
  simp [Event.LoadsUnder, Event.Loads]

theorem live_append_add_iff {i : String} :
    Live (h ++ [.add id kind records (.ok ids)]) i ↔ id = i ∨ Live h i := by
  simp [Live, since_append_singleton, loadsUnder_add_ok_iff, Event.Unloads]

theorem latest_append_add_iff {d : Dataset} :
    Latest (h ++ [.add id kind records (.ok ids)]) d ↔
      d = ⟨id, kind, records⟩ ∨ (Latest h d ∧ id ≠ d.id) := by
  simp [Latest, since_append_singleton, loadsUnder_add_ok_iff, Event.Loads]

end Adding

theorem live_append_remove_iff {id answer i : String} :
    Live (h ++ [.remove id (.ok answer)]) i ↔ Live h i ∧ id ≠ i := by
  simp [Live, since_append_singleton, Event.LoadsUnder, Event.Loads, Event.Unloads]

/-! ## The invariant -/

namespace Catalog

/-- Looking an id up finds what a history says is loaded under it. -/
structure Agrees (c : Catalog) (h : List Event) : Prop where
  live : ∀ id, c.contains id = true ↔ Live h id
  latest : ∀ id d, c.get? id = some d → d.id = id ∧ Latest h d

variable {c : Catalog}

theorem not_live_nil (id : String) : ¬ Live [] id := by
  rintro ⟨front, e, back, heq, -⟩
  simp at heq

theorem agrees_empty : Agrees empty [] := by
  constructor
  · intro id
    simp [not_live_nil, contains_iff, get?_empty]
  · intro id d hd
    cases hd

/-- An event that loads and unloads nothing, and leaves the catalog as it is. -/
theorem Agrees.same (ha : c.Agrees h) (hload : ∀ d, ¬ e.Loads d) (hunload : ∀ i, ¬ e.Unloads i) :
    c.Agrees (h ++ [e]) := by
  constructor
  · intro id
    rw [live_append_iff_of_neither hload hunload]
    exact ha.live id
  · intro id d hd
    rw [latest_append_iff_of_not_loads hload]
    exact ha.latest id d hd

theorem Agrees.loading (ha : c.Agrees h) {id : String} (kind : Kind) (records : List Record)
    (ids : List String) :
    (c.loading ⟨id, kind, records⟩).Agrees (h ++ [.add id kind records (.ok ids)]) := by
  constructor
  · intro i
    rw [live_append_add_iff, ← ha.live i, contains_iff, contains_iff, get?_loading]
    by_cases hi : id = i
    · simp [hi]
    · simp [hi]
  · intro i d hd
    rw [latest_append_add_iff]
    rw [get?_loading] at hd
    by_cases hi : id = i
    · rw [if_pos hi] at hd
      cases hd
      exact ⟨hi, .inl rfl⟩
    · rw [if_neg hi] at hd
      obtain ⟨hid, hlatest⟩ := ha.latest i d hd
      exact ⟨hid, .inr ⟨hlatest, by rwa [hid]⟩⟩

theorem Agrees.unloading (ha : c.Agrees h) (id answer : String) :
    (c.unloading id).Agrees (h ++ [.remove id (.ok answer)]) := by
  constructor
  · intro i
    rw [live_append_remove_iff, ← ha.live i, contains_iff, contains_iff, get?_unloading]
    by_cases hi : id = i
    · simp [hi]
    · simp [hi]
  · intro i d hd
    rw [latest_append_iff_of_not_loads (fun d => by simp [Event.Loads])]
    rw [get?_unloading] at hd
    by_cases hi : id = i
    · rw [if_pos hi] at hd
      cases hd
    · rw [if_neg hi] at hd
      exact ha.latest i d hd

/-- One operation keeps the invariant, its event being noted. -/
theorem Agrees.perform (ha : c.Agrees h) (o : Operation) :
    (c.perform o).2.Agrees (h ++ [(c.perform o).1]) := by
  cases o with
  | add id kind records =>
    show (c.add id kind records).2.Agrees (h ++ [.add id kind records (c.add id kind records).1])
    rcases c.id_cases id with ⟨fault, hid⟩ | ⟨hid, hold⟩ | ⟨hid, hnew⟩
    · rw [add_of_invalid hid]
      exact ha.same (by simp [Event.Loads]) (by simp [Event.Unloads])
    · rw [add_of_loaded hid hold]
      exact ha.same (by simp [Event.Loads]) (by simp [Event.Unloads])
    · rw [add_of_new hid hnew]
      exact ha.loading kind records _
  | remove id =>
    show (c.remove id).2.Agrees (h ++ [.remove id (c.remove id).1])
    rcases c.id_cases id with ⟨fault, hid⟩ | ⟨hid, hold⟩ | ⟨hid, hnew⟩
    · rw [remove_of_invalid hid]
      exact ha.same (by simp [Event.Loads]) (by simp [Event.Unloads])
    · rw [remove_of_loaded hid hold]
      exact ha.unloading id id
    · rw [remove_of_absent hid hnew]
      exact ha.same (by simp [Event.Loads]) (by simp [Event.Unloads])
  | get _ | contains _ | list =>
    exact ha.same (by simp [Catalog.perform, Event.Loads]) (by simp [Catalog.perform, Event.Unloads])

/-- So do any operations, their history being appended. -/
theorem Agrees.performAll (ha : c.Agrees h) (ops : List Operation) :
    (c.performAll ops).2.Agrees (h ++ (c.performAll ops).1) := by
  induction ops generalizing c h with
  | nil => simpa [Catalog.performAll] using ha
  | cons o ops ih =>
    have hrest := ih (ha.perform o)
    rw [List.append_assoc] at hrest
    exact hrest

theorem Reachable.perform (hc : c.Reachable) (o : Operation) : (c.perform o).2.Reachable := by
  cases o with
  | add id kind records => exact hc.after (.add id kind records)
  | remove id => exact hc.after (.remove id)
  | get _ | contains _ | list => exact hc

theorem Reachable.performAll (hc : c.Reachable) (ops : List Operation) :
    (c.performAll ops).2.Reachable := by
  induction ops generalizing c with
  | nil => exact hc
  | cons o ops ih => exact ih (hc.perform o)

/-! ## The answers -/

/-- An operation that fails leaves the catalog as it is. -/
theorem perform_of_fails {o : Operation} (hfails : (c.perform o).1.Fails) : (c.perform o).2 = c := by
  cases o with
  | add id kind records =>
    cases hanswer : (c.add id kind records).1 with
    | ok ids => simp [Catalog.perform, hanswer, Event.Fails] at hfails
    | error e => exact add_snd_of_error hanswer
  | remove id =>
    cases hanswer : (c.remove id).1 with
    | ok answer => simp [Catalog.perform, hanswer, Event.Fails] at hfails
    | error e => exact remove_snd_of_error hanswer
  | get _ | contains _ | list => rfl

variable {h : List Event}

/-- All that adding and removing ask of an id, in terms of the history. -/
theorem Agrees.id_cases (ha : c.Agrees h) (id : String) :
    (∃ fault, checkId id = .error fault ∧ ¬ ValidId id) ∨
      (checkId id = .ok () ∧ c.contains id = true ∧ ValidId id ∧ Live h id) ∨
      (checkId id = .ok () ∧ c.contains id = false ∧ ValidId id ∧ ¬ Live h id) := by
  have hlive := ha.live id
  rcases c.id_cases id with ⟨fault, hid⟩ | ⟨hid, hold⟩ | ⟨hid, hnew⟩
  · exact .inl ⟨fault, hid, exists_checkId_error_iff.mp ⟨fault, hid⟩⟩
  · exact .inr (.inl ⟨hid, hold, checkId_eq_ok_iff.mp hid, hlive.mp hold⟩)
  · refine .inr (.inr ⟨hid, hnew, checkId_eq_ok_iff.mp hid, ?_⟩)
    rw [← hlive, hnew]
    simp

/-- Where the invariant holds, every answer is the one that the history calls for. -/
theorem Agrees.follows (ha : c.Agrees h) (hk : c.Keyed) : c.Follows h where
  add id kind records := by
    rcases ha.id_cases id with ⟨fault, hid, hvalid⟩ | ⟨hid, hold, hvalid, hlive⟩ |
      ⟨hid, hnew, hvalid, hlive⟩
    · simp [add_of_invalid hid, hvalid]
    · simp [add_of_loaded hid hold, hvalid, hlive]
    · simp [add_of_new hid hnew, hvalid, hlive]
  add_answer id kind records ids hok := by
    obtain rfl := ids_of_add hok
    refine ⟨ids_ascending _, ?_⟩
    intro i
    rw [mem_ids_iff]
    exact (ha.loading kind records _).live i
  remove id := by
    rcases ha.id_cases id with ⟨fault, hid, hvalid⟩ | ⟨hid, hold, hvalid, hlive⟩ |
      ⟨hid, hnew, hvalid, hlive⟩
    · simp [remove_of_invalid hid, hvalid]
    · simp [remove_of_loaded hid hold, hvalid, hlive]
    · simp [remove_of_absent hid hnew, hvalid, hlive]
  get_succeeds id := by
    rw [← ha.live id, contains_iff]
    simp only [get_eq_ok_iff]
  get_answer id d hok := ha.latest id d (get_eq_ok_iff.mp hok)
  get_absent id hlive := by
    rw [get_eq_error_iff, ← contains_eq_false_iff, ← Bool.not_eq_true, ha.live id]
    exact ⟨hlive, rfl⟩
  contains_succeeds := ha.live
  list_ascending := by
    rw [map_id_list hk.own]
    exact c.ids_ascending
  list_ids id := by
    rw [map_id_list hk.own, mem_ids_iff]
    exact ha.live id
  list_answer i hi := by
    obtain ⟨id, d, hd, rfl⟩ := mem_list_iff.mp hi
    exact ⟨d, (ha.latest id d hd).2, rfl⟩
  failing o hfails rest := by rw [perform_of_fails hfails]
  keys key d hd := ⟨checkId_eq_ok_iff.mp (hk.valid key d hd), hk.own key d hd⟩

/-- **A catalog is what its history says.** After any operations on the empty catalog all
is answered as the history of these operations calls for. -/
theorem performAll_follows (ops : List Operation) :
    (empty.performAll ops).2.Follows (empty.performAll ops).1 := by
  have hagrees : (empty.performAll ops).2.Agrees (empty.performAll ops).1 :=
    agrees_empty.performAll ops
  have hreachable : (empty.performAll ops).2.Reachable := Reachable.empty.performAll ops
  exact hagrees.follows hreachable.keyed

end Catalog

end Tabular
