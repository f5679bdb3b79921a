import Tabular.Proofs.Isolation

/-!
# A request is carried out whole or not at all

Records can be added as they are, or from a source that is asked for them. The source is asked
between two checks of the id, yet a source that has records is as good as the records, and one
that has none is heard only where the id could have been added. So a request that is refused,
for whatever reason, leaves the catalog as it is, as those do that only look at it:
`Catalog.carried_out_whole`.
-/

namespace Tabular

/-- What a request is answered with. -/
inductive Answer where
  | ids (answer : Except Error (List String))
  | id (answer : Except Error String)
  | list (answer : List Dataset.Info)
  | rows (answer : Except Error (List Row))

/-- The error that an answer is. -/
def Answer.error? : Answer → Option Error
  | ids answer => faultOf answer
  | id answer => faultOf answer
  | list _ => none
  | rows answer => faultOf answer

/-- A request that only looks at what is loaded. -/
def Request.Looks : Request → Prop
  | .list | .query _ | .queryText _ => True
  | .add _ _ _ | .addFrom _ _ _ | .remove _ => False

namespace Catalog

/-- The answer to a request. -/
def answer [Searcher] (c : Catalog) : Request → Answer
  | .add id kind records => .ids (c.add id kind records).1
  | .addFrom id kind source => .ids (c.addFrom id kind source).1
  | .remove id => .id (c.remove id).1
  | .list => .list c.list
  | .query json => .rows (c.query json)
  | .queryText text => .rows (c.queryText text)

variable {c : Catalog}

/-! ## Requests that change nothing -/

/-- A request that looks leaves the catalog as it is. -/
theorem after_of_looks {r : Request} (h : r.Looks) : c.after r = c := by
  cases r with
  | add _ _ _ | addFrom _ _ _ | remove _ => cases h
  | list | query _ | queryText _ => rfl

/-- A request that is refused has changed nothing. -/
theorem changedBy_of_refused [Searcher] {r : Request} {e : Error}
    (h : (c.answer r).error? = some e) : c.changedBy r = false := by
  cases r with
  | add _ _ _ | addFrom _ _ _ | remove _ =>
    rw [changedBy, faultOf_eq_some_iff.mp h]
    rfl
  | list | query _ | queryText _ => rfl

/-- So it leaves the catalog as it is. -/
theorem after_of_refused [Searcher] {r : Request} {e : Error}
    (h : (c.answer r).error? = some e) : c.after r = c :=
  after_of_not_changedBy (changedBy_of_refused h)

/-! ## The outcome -/

/-- An id is found iff a dataset with this id is loaded. -/
theorem Keyed.contains_iff (h : Keyed c) {id : String} :
    c.contains id = true ↔ ∃ d, c.Loads d ∧ d.id = id := by
  rw [Catalog.contains_iff]
  simp only [h.get?_eq_some_iff]

/-- **A request is carried out whole or not at all.** A source that has records adds as the
records do. One that has none adds nothing, and is refused for the id where this is not valid
or is loaded, and with the source's own fault else. And any request that is refused, or that
only looks, leaves the catalog as it is. -/
theorem carried_out_whole [Searcher] (hc : c.Reachable) :
    (∀ id kind source,
      (∀ records, source () = .ok records → c.addFrom id kind source = c.add id kind records) ∧
      ∀ fault, source () = .error fault →
        (¬ ValidId id → ∃ idFault, checkId id = .error idFault ∧
          c.addFrom id kind source = (.error (.invalidId id idFault), c)) ∧
        (ValidId id → (∃ d, c.Loads d ∧ d.id = id) →
          c.addFrom id kind source = (.error (.duplicate id), c)) ∧
        (ValidId id → (¬ ∃ d, c.Loads d ∧ d.id = id) →
          c.addFrom id kind source = (.error (.ingest id fault), c))) ∧
    ∀ r : Request, r.Looks ∨ (∃ e, (c.answer r).error? = some e) → c.after r = c := by
  have hkeyed := hc.keyed
  refine ⟨?_, ?_⟩
  · intro id kind source
    refine ⟨fun records hsource => addFrom_of_records hsource, ?_⟩
    intro fault hsource
    refine ⟨?_, ?_, ?_⟩
    · intro hinvalid
      obtain ⟨idFault, hid⟩ := exists_checkId_error_iff.mpr hinvalid
      exact ⟨idFault, hid, addFrom_of_invalid hid⟩
    · intro hvalid hloaded
      exact addFrom_of_loaded (checkId_eq_ok_iff.mpr hvalid) (hkeyed.contains_iff.mpr hloaded)
    · intro hvalid hnew
      rw [← hkeyed.contains_iff, Bool.not_eq_true] at hnew
      exact addFrom_of_fault (checkId_eq_ok_iff.mpr hvalid) hnew hsource
  · rintro r (hlooks | ⟨e, he⟩)
    · exact after_of_looks hlooks
    · exact after_of_refused he

end Catalog

/-- With the rooms loaded, a source without records is refused in each of the three ways, and
removing what is not there changes nothing. -/
theorem silent_source_refused :
    let c := Catalog.empty.after (.add "rooms" .rooms sampleRooms.records)
    let silent : Unit → Except LoadFault (List Record) := fun _ => .error (.reported "silence" [])
    c.Reachable ∧
      (∃ idFault, c.addFrom "big_halls" .rooms silent =
        (.error (.invalidId "big_halls" idFault), c)) ∧
      c.addFrom "rooms" .rooms silent = (.error (.duplicate "rooms"), c) ∧
      c.addFrom "halls" .rooms silent = (.error (.ingest "halls" (.reported "silence" [])), c) ∧
      c.addFrom "halls" .rooms (fun _ => .ok []) = c.add "halls" .rooms [] ∧
      c.after (.remove "halls") = c := by
  intro c silent
  have hc : c.Reachable := .after .empty _
  obtain ⟨hsources, hrest⟩ := Catalog.carried_out_whole hc
  have hloads : ∀ id, (∃ d, c.Loads d ∧ d.id = id) ↔ c.contains id = true := fun id =>
    hc.keyed.contains_iff.symm
  obtain ⟨hinvalid, -, -⟩ := (hsources "big_halls" .rooms silent).2 _ rfl
  obtain ⟨-, hduplicate, -⟩ := (hsources "rooms" .rooms silent).2 _ rfl
  obtain ⟨-, -, hingest⟩ := (hsources "halls" .rooms silent).2 _ rfl
  obtain ⟨idFault, -, hbig⟩ :=
    hinvalid (exists_checkId_error_iff.mp ⟨.underscore, by decide +kernel⟩)
  refine ⟨hc, ⟨idFault, hbig⟩, ?_, ?_, ?_, ?_⟩
  · apply hduplicate (checkId_eq_ok_iff.mp (by decide +kernel))
    rw [hloads]
    decide +kernel
  · apply hingest (checkId_eq_ok_iff.mp (by decide +kernel))
    rw [hloads]
    decide +kernel
  · exact (hsources "halls" .rooms _).1 [] rfl
  · exact hrest _ (.inr ⟨.notFound "halls", by decide +kernel⟩)

end Tabular
