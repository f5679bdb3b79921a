import Tabular.Text.Order

/-!
# Dictionaries with ascending keys

A dictionary binds texts to values. Its entries stand in ascending order of
their keys and no key occurs twice, so a dictionary *is* its look-up function:
`Dictionary.ext` shows two with the same answers equal. What an operation does
is said by what `get?` answers afterwards (`get?_insert`, `get?_erase`).

`put` is the insertion on bare entry lists, for those who keep the order by
themselves.
-/

namespace Tabular

variable {α β : Type}

/-- The keys of an entry list are strictly ascending. -/
def Ascending (entries : List (String × α)) : Prop :=
  entries.Pairwise fun a b => Text.Before a.1 b.1

/-- Binds `key` to `value` at its place among ascending keys, instead of what
it was bound to before. -/
def put (key : String) (value : α) : List (String × α) → List (String × α)
  | [] => [(key, value)]
  | entry :: rest =>
    match Text.order key entry.1 with
    | .lt => (key, value) :: entry :: rest
    | .eq => (key, value) :: rest
    | .gt => entry :: put key value rest

/-- The value bound to `key`, if it is bound. -/
def lookup (key : String) : List (String × α) → Option α
  | [] => none
  | entry :: rest => if entry.1 = key then some entry.2 else lookup key rest

/-! ## Entry lists -/

theorem mem_of_mem_put {key : String} {value : α} {entries : List (String × α)}
    {e : String × α} (h : e ∈ put key value entries) : e = (key, value) ∨ e ∈ entries := by
  induction entries with
  | nil => simpa [put] using h
  | cons entry rest ih =>
    simp only [put] at h
    split at h
    · simpa using h
    · rcases List.mem_cons.1 h with h | h
      · exact .inl h
      · exact .inr (List.mem_cons_of_mem _ h)
    · rcases List.mem_cons.1 h with h | h
      · exact .inr (h ▸ List.mem_cons_self)
      · exact (ih h).imp_right (List.mem_cons_of_mem _)

theorem ascending_put (key : String) (value : α) {entries : List (String × α)}
    (h : Ascending entries) : Ascending (put key value entries) := by
  induction entries with
  | nil => simp [put, Ascending]
  | cons entry rest ih =>
    obtain ⟨hhead, hrest⟩ := List.pairwise_cons.1 h
    simp only [put]
    split
    next hlt =>
      refine List.pairwise_cons.2 ⟨fun e he => ?_, h⟩
      rcases List.mem_cons.1 he with rfl | he
      · exact hlt
      · exact Text.Before.trans hlt (hhead e he)
    next heq =>
      have hk : key = entry.1 := Std.LawfulEqCmp.eq_of_compare heq
      exact List.pairwise_cons.2 ⟨fun e he => by simpa [hk] using hhead e he, hrest⟩
    next hgt =>
      refine List.pairwise_cons.2 ⟨fun e he => ?_, ih hrest⟩
      rcases mem_of_mem_put he with rfl | he
      · exact Std.OrientedCmp.gt_iff_lt.1 hgt
      · exact hhead e he

theorem lookup_put (key : String) (value : α) (entries : List (String × α)) (k : String) :
    lookup k (put key value entries) = if key = k then some value else lookup k entries := by
  induction entries with
  | nil => simp [put, lookup]
  | cons entry rest ih =>
    simp only [put]
    split
    · simp [lookup]
    next heq =>
      have hk : key = entry.1 := Std.LawfulEqCmp.eq_of_compare heq
      by_cases h : key = k <;> simp [lookup, ← hk, h]
    next hgt =>
      have hne : entry.1 ≠ key :=
        Text.Before.ne (Std.OrientedCmp.gt_iff_lt.1 hgt)
      simp only [lookup, ih]
      by_cases h : entry.1 = k
      · simp [h, show key ≠ k from fun e => hne (h.trans e.symm)]
      · simp [h]

theorem lookup_eq_none_iff {key : String} {entries : List (String × α)} :
    lookup key entries = none ↔ ∀ e ∈ entries, e.1 ≠ key := by
  induction entries with
  | nil => simp [lookup]
  | cons entry rest ih => by_cases h : entry.1 = key <;> simp [lookup, h, ih]

theorem mem_of_lookup {key : String} {value : α} {entries : List (String × α)}
    (h : lookup key entries = some value) : (key, value) ∈ entries := by
  induction entries with
  | nil => simp [lookup] at h
  | cons entry rest ih =>
    simp only [lookup] at h
    split at h
    next hk =>
      cases h
      exact List.mem_cons.2 (.inl (by rw [← hk]))
    · exact List.mem_cons_of_mem _ (ih h)

theorem lookup_of_mem {key : String} {value : α} {entries : List (String × α)}
    (hasc : Ascending entries) (h : (key, value) ∈ entries) : lookup key entries = some value := by
  induction entries with
  | nil => simp at h
  | cons entry rest ih =>
    obtain ⟨hhead, hrest⟩ := List.pairwise_cons.1 hasc
    rcases List.mem_cons.1 h with rfl | h
    · simp [lookup]
    · have hne : entry.1 ≠ key := Text.Before.ne (hhead _ h)
      simp [lookup, hne, ih hrest h]

/-- Ascending entry lists with the same look-ups are the same list. -/
theorem eq_of_lookup_eq {as bs : List (String × α)} (ha : Ascending as) (hb : Ascending bs)
    (h : ∀ k, lookup k as = lookup k bs) : as = bs := by
  have hmem : ∀ e, e ∈ as ↔ e ∈ bs := fun e =>
    ⟨fun he => mem_of_lookup (h e.1 ▸ lookup_of_mem ha he),
      fun he => mem_of_lookup ((h e.1).symm ▸ lookup_of_mem hb he)⟩
  induction as generalizing bs with
  | nil =>
    cases bs with
    | nil => rfl
    | cons e _ => simpa using (hmem e).2 List.mem_cons_self
  | cons a as ih =>
    cases bs with
    | nil => simpa using (hmem a).1 List.mem_cons_self
    | cons b bs =>
      obtain ⟨hahead, harest⟩ := List.pairwise_cons.1 ha
      obtain ⟨hbhead, hbrest⟩ := List.pairwise_cons.1 hb
      have hab : a = b := by
        rcases List.mem_cons.1 ((hmem a).1 List.mem_cons_self) with e | hin
        · exact e
        · rcases List.mem_cons.1 ((hmem b).2 List.mem_cons_self) with e | hin'
          · exact e.symm
          · exact absurd (hahead b hin') (Text.Before.asymm (hbhead a hin))
      subst hab
      have hrest : ∀ e, e ∈ as ↔ e ∈ bs := fun e => by
        constructor
        · intro he
          rcases List.mem_cons.1 ((hmem e).1 (List.mem_cons_of_mem _ he)) with rfl | h'
          · exact absurd (hahead _ he) (Text.not_before_self _)
          · exact h'
        · intro he
          rcases List.mem_cons.1 ((hmem e).2 (List.mem_cons_of_mem _ he)) with rfl | h'
          · exact absurd (hbhead _ he) (Text.not_before_self _)
          · exact h'
      have hlook : ∀ k, lookup k as = lookup k bs := fun k => by
        cases hk : lookup k as with
        | none =>
          symm
          rw [lookup_eq_none_iff] at hk ⊢
          exact fun e he => hk e ((hrest e).2 he)
        | some v => exact (lookup_of_mem hbrest ((hrest _).1 (mem_of_lookup hk))).symm
      rw [ih harest hbrest hlook hrest]

/-! ## Dictionaries -/

/-- A finite map from texts to values, kept with ascending keys. -/
structure Dictionary (α : Type) where
  /-- The bindings, by ascending key. -/
  entries : List (String × α)
  /-- No key comes twice or out of turn. -/
  ascending : Ascending entries
  deriving DecidableEq

namespace Dictionary

def empty : Dictionary α := ⟨[], .nil⟩

instance : EmptyCollection (Dictionary α) := ⟨empty⟩

instance : Inhabited (Dictionary α) := ⟨empty⟩

def get? (d : Dictionary α) (key : String) : Option α := lookup key d.entries

def contains (d : Dictionary α) (key : String) : Bool := (d.get? key).isSome

/-- The keys, ascending. -/
def keys (d : Dictionary α) : List String := d.entries.map (·.1)

/-- The values, by ascending key. -/
def values (d : Dictionary α) : List α := d.entries.map (·.2)

/-- Binds a key, instead of what it was bound to before. -/
def insert (d : Dictionary α) (key : String) (value : α) : Dictionary α :=
  ⟨put key value d.entries, ascending_put key value d.ascending⟩

def erase (d : Dictionary α) (key : String) : Dictionary α :=
  ⟨d.entries.filter (·.1 ≠ key), d.ascending.filter _⟩

/-- Binds the entries in turn, so the last binding of a key stays. -/
def ofList (entries : List (String × α)) : Dictionary α :=
  entries.foldl (fun d e => d.insert e.1 e.2) empty

@[simp] theorem get?_empty (k : String) : (empty : Dictionary α).get? k = none := rfl

@[simp] theorem get?_insert (d : Dictionary α) (key : String) (value : α) (k : String) :
    (d.insert key value).get? k = if key = k then some value else d.get? k :=
  lookup_put key value d.entries k

@[simp] theorem get?_erase (d : Dictionary α) (key k : String) :
    (d.erase key).get? k = if key = k then none else d.get? k := by
  simp only [get?, erase]
  induction d.entries with
  | nil => simp [lookup]
  | cons e rest ih =>
    by_cases hk : e.1 = key
    · by_cases h : key = k <;> simp_all [lookup]
    · by_cases h : e.1 = k
      · have : key ≠ k := fun h' => hk (h.trans h'.symm)
        simp_all [lookup]
      · simp_all [lookup]

/-- A dictionary is what it answers. -/
theorem ext_get? {d e : Dictionary α} (h : ∀ k, d.get? k = e.get? k) : d = e := by
  cases d with
  | mk as ha =>
    cases e with
    | mk bs hb =>
      have := eq_of_lookup_eq ha hb h
      subst this
      rfl

theorem mem_entries_iff {d : Dictionary α} {k : String} {v : α} :
    (k, v) ∈ d.entries ↔ d.get? k = some v :=
  ⟨lookup_of_mem d.ascending, mem_of_lookup⟩

theorem contains_iff {d : Dictionary α} {k : String} :
    d.contains k = true ↔ ∃ v, d.get? k = some v := by
  simp [contains, Option.isSome_iff_exists]

theorem mem_keys_iff {d : Dictionary α} {k : String} : k ∈ d.keys ↔ d.contains k = true := by
  simp [keys, contains_iff, ← mem_entries_iff]

theorem keys_ascending (d : Dictionary α) : d.keys.Pairwise Text.Before :=
  List.pairwise_map.2 d.ascending

end Dictionary

end Tabular
