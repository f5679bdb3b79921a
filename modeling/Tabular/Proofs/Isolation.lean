import Tabular.Proofs.Operations
import Tabular.Proofs.Reachable
import Tabular.Proofs.Selection

/-!
# Datasets do not notice each other

What happens to one id is a sequence of changes (`Request.changeOn`), and what is loaded
under it is these changes applied in turn (`Catalog.get?_afterAll`), whatever else is
asked. A query looks up one id only, the one in front of its first column's underscore. So
after requests with the same changes of an id nothing that is asked about this id tells
them apart: `Catalog.alike_afterAll`.
-/

namespace Tabular

/-- A change that is asked for at one id. -/
inductive Change where
  /-- Loads what a source has, which may be nothing. -/
  | load (kind : Kind) (records : Except LoadFault (List Record))
  | unload
  deriving DecidableEq

/-- What a request asks to change at an id: to add, with the records that were given or
that the source has, or to remove. -/
def Request.changeOn (id : String) : Request → Option Change
  | .add i kind records => if i = id then some (.load kind (.ok records)) else none
  | .addFrom i kind source => if i = id then some (.load kind (source ())) else none
  | .remove i => if i = id then some .unload else none
  | .list | .query _ | .queryText _ => none

/-- What is loaded under an id after a change. -/
def Change.apply (id : String) (found : Option Dataset) : Change → Option Dataset
  | load kind (.ok records) =>
    if checkId id = .ok () ∧ found = none then some ⟨id, kind, records⟩ else found
  | load _ (.error _) => found
  | unload => if checkId id = .ok () then none else found

namespace Catalog

/-- The catalog that some requests leave. -/
def afterAll (c : Catalog) (requests : List Request) : Catalog := requests.foldl after c

/-- Whether a request to add or to remove succeeds. -/
def changedBy (c : Catalog) : Request → Bool
  | .add id kind records => (c.add id kind records).1.isOk
  | .addFrom id kind source => (c.addFrom id kind source).1.isOk
  | .remove id => (c.remove id).1.isOk
  | .list | .query _ | .queryText _ => false

/-- The changes at an id that succeed when requests are made in turn. -/
def changesOn (id : String) (c : Catalog) : List Request → List Change
  | [] => []
  | r :: rest =>
    if c.changedBy r then (r.changeOn id).toList ++ (c.after r).changesOn id rest
    else (c.after r).changesOn id rest

/-- All that can be asked about an id is answered alike by two catalogs. A JSON value or a
text that is no query has no dataset; it is answered alike too. -/
structure Alike [Searcher] (id : String) (c c' : Catalog) : Prop where
  query : ∀ json, (∀ q, Query.ofJson json = .ok q → q.datasetId = id) →
    c.query json = c'.query json
  queryText : ∀ text, (∀ q, Query.ofText text = .ok q → q.datasetId = id) →
    c.queryText text = c'.queryText text
  contains : c.contains id = c'.contains id
  get : c.get id = c'.get id
  remove : (c.remove id).1 = (c'.remove id).1

/-! ## One id -/

variable {c c' : Catalog} {id : String}

theorem get?_add (c : Catalog) (i : String) (kind : Kind) (records : List Record) (id : String) :
    (c.add i kind records).2.get? id =
      if i = id then Change.apply id (c.get? id) (.load kind (.ok records)) else c.get? id := by
  by_cases hi : i = id
  · subst hi
    rcases c.id_cases i with ⟨fault, hid⟩ | ⟨hid, hold⟩ | ⟨hid, hnew⟩
    · simp [add_of_invalid hid, Change.apply, hid]
    · obtain ⟨d, hd⟩ := contains_iff.mp hold
      simp [add_of_loaded hid hold, Change.apply, hd]
    · simp [add_of_new hid hnew, Change.apply, hid, contains_eq_false_iff.mp hnew]
  · rcases c.id_cases i with ⟨fault, hid⟩ | ⟨hid, hold⟩ | ⟨hid, hnew⟩
    · simp [add_of_invalid hid, hi]
    · simp [add_of_loaded hid hold, hi]
    · simp [add_of_new hid hnew, hi]

theorem get?_addFrom (c : Catalog) (i : String) (kind : Kind)
    (source : Unit → Except LoadFault (List Record)) (id : String) :
    (c.addFrom i kind source).2.get? id =
      if i = id then Change.apply id (c.get? id) (.load kind (source ())) else c.get? id := by
  cases hsource : source () with
  | ok records => rw [addFrom_of_records hsource, get?_add]
  | error fault =>
    rcases c.id_cases i with ⟨_, hid⟩ | ⟨hid, hold⟩ | ⟨hid, hnew⟩
    · simp [addFrom_of_invalid hid, Change.apply]
    · simp [addFrom_of_loaded hid hold, Change.apply]
    · simp [addFrom_of_fault hid hnew hsource, Change.apply]

theorem get?_remove (c : Catalog) (i id : String) :
    (c.remove i).2.get? id = if i = id then Change.apply id (c.get? id) .unload else c.get? id := by
  by_cases hi : i = id
  · subst hi
    rcases c.id_cases i with ⟨fault, hid⟩ | ⟨hid, hold⟩ | ⟨hid, hnew⟩
    · simp [remove_of_invalid hid, Change.apply, hid]
    · simp [remove_of_loaded hid hold, Change.apply, hid]
    · simp [remove_of_absent hid hnew, Change.apply, hid, contains_eq_false_iff.mp hnew]
  · rcases c.id_cases i with ⟨fault, hid⟩ | ⟨hid, hold⟩ | ⟨hid, hnew⟩
    · simp [remove_of_invalid hid, hi]
    · simp [remove_of_loaded hid hold, hi]
    · simp [remove_of_absent hid hnew, hi]

/-- A request does to an id what it asks to change there, and nothing else. -/
theorem get?_after (c : Catalog) (r : Request) (id : String) :
    (c.after r).get? id = (r.changeOn id).elim (c.get? id) (Change.apply id (c.get? id)) := by
  cases r with
  | add i kind records =>
    rw [after, get?_add, Request.changeOn]
    split <;> rfl
  | addFrom i kind source =>
    rw [after, get?_addFrom, Request.changeOn]
    split <;> rfl
  | remove i =>
    rw [after, get?_remove, Request.changeOn]
    split <;> rfl
  | list | query _ | queryText _ => rfl

/-- What is loaded under an id are the changes there, applied in turn. -/
theorem get?_afterAll (c : Catalog) (requests : List Request) (id : String) :
    (c.afterAll requests).get? id =
      (requests.filterMap (Request.changeOn id)).foldl (Change.apply id) (c.get? id) := by
  induction requests generalizing c with
  | nil => rfl
  | cons r rest ih =>
    have hstep := get?_after c r id
    show ((c.after r).afterAll rest).get? id = _
    rw [ih, hstep, List.filterMap_cons]
    cases r.changeOn id <;> rfl

/-- A request that fails leaves the catalog as it is. -/
theorem after_of_not_changedBy {r : Request} (h : c.changedBy r = false) : c.after r = c := by
  cases r with
  | add i kind records =>
    cases hanswer : (c.add i kind records).1 with
    | ok ids => simp [changedBy, hanswer, Except.isOk, Except.toBool] at h
    | error e => exact add_snd_of_error hanswer
  | addFrom i kind source =>
    cases hanswer : (c.addFrom i kind source).1 with
    | ok ids => simp [changedBy, hanswer, Except.isOk, Except.toBool] at h
    | error e => exact addFrom_snd_of_error hanswer
  | remove i =>
    cases hanswer : (c.remove i).1 with
    | ok answer => simp [changedBy, hanswer, Except.isOk, Except.toBool] at h
    | error e => exact remove_snd_of_error hanswer
  | list | query _ | queryText _ => rfl

/-- Of the changes at an id only those that succeed matter. -/
theorem get?_afterAll_changesOn (c : Catalog) (requests : List Request) (id : String) :
    (c.afterAll requests).get? id =
      (c.changesOn id requests).foldl (Change.apply id) (c.get? id) := by
  induction requests generalizing c with
  | nil => rfl
  | cons r rest ih =>
    show ((c.after r).afterAll rest).get? id = _
    rw [ih, changesOn]
    cases hr : c.changedBy r with
    | true =>
      have hstep := get?_after c r id
      rw [if_pos rfl, List.foldl_append, hstep]
      cases r.changeOn id <;> rfl
    | false => rw [if_neg Bool.false_ne_true, after_of_not_changedBy hr]

/-! ## What is asked about an id -/

theorem get_congr (h : c.get? id = c'.get? id) : c.get id = c'.get id := by
  simp only [get, h]

theorem remove_fst_congr (h : c.get? id = c'.get? id) : (c.remove id).1 = (c'.remove id).1 := by
  have hcontains : c.contains id = c'.contains id := congrArg Option.isSome h
  rcases c.id_cases id with ⟨fault, hid⟩ | ⟨hid, hold⟩ | ⟨hid, hnew⟩
  · rw [remove_of_invalid hid, remove_of_invalid hid]
  · rw [remove_of_loaded hid hold, remove_of_loaded hid (hcontains ▸ hold)]
  · rw [remove_of_absent hid hnew, remove_of_absent hid (hcontains ▸ hnew)]

section Searching

variable [Searcher]

/-- A query looks up one id only. -/
theorem execute_congr {q : Query} (h : c.get? q.datasetId = c'.get? q.datasetId) :
    c.execute q = c'.execute q := by
  simp only [execute, get_congr h]

/-- Catalogs in which the same is loaded under an id answer alike about it. -/
theorem alike_of_get?_eq (h : c.get? id = c'.get? id) : Alike id c c' where
  query json hjson := by
    unfold query
    cases hq : Query.ofJson json with
    | error fault => rfl
    | ok q => exact execute_congr (hjson q hq ▸ h)
  queryText text htext := by
    unfold queryText
    cases hq : Query.ofText text with
    | error fault => rfl
    | ok q => exact execute_congr (htext q hq ▸ h)
  contains := congrArg Option.isSome h
  get := get_congr h
  remove := remove_fst_congr h

/-- **Datasets do not notice each other.** Requests to the empty catalog that ask for the
same changes at an id, or of which the same changes there succeed, leave catalogs that
answer alike about it. -/
theorem alike_afterAll {id : String} {requests requests' : List Request}
    (h : requests.filterMap (Request.changeOn id) = requests'.filterMap (Request.changeOn id) ∨
      empty.changesOn id requests = empty.changesOn id requests') :
    Alike id (empty.afterAll requests) (empty.afterAll requests') := by
  apply alike_of_get?_eq
  rcases h with h | h
  · rw [get?_afterAll, get?_afterAll, h]
  · rw [get?_afterAll_changesOn, get?_afterAll_changesOn, h]

end Searching

end Catalog

/-- Other ids, requests that fail and a value that is no query cannot be noticed through
the rooms. -/
theorem rooms_alike :
    let noisy : List Request := [.add "courses" .courses [], .addFrom "rooms" .rooms fun _ =>
      .ok sampleRooms.records, .query .null, .add "rooms" .courses [], .remove "courses",
      .addFrom "halls" .rooms fun _ => .error (.unreadable "halls.json" .notFound)]
    let quiet : List Request := [.add "rooms" .rooms sampleRooms.records]
    Catalog.empty.changesOn "rooms" noisy = Catalog.empty.changesOn "rooms" quiet ∧
      Catalog.Alike "rooms" (Catalog.empty.afterAll noisy) (Catalog.empty.afterAll quiet) := by
  intro noisy quiet
  have hchanges : Catalog.empty.changesOn "rooms" noisy = Catalog.empty.changesOn "rooms" quiet := by
    decide +kernel
  exact ⟨hchanges, Catalog.alike_afterAll (.inr hchanges)⟩

end Tabular
