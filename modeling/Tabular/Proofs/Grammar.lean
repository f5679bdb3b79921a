import Mathlib.Data.List.Basic
import Tabular.Proofs.EntryLists
import Tabular.Proofs.Fallible
import Tabular.Query.Grammar

/-!
# The grammar and what it is the grammar of

`Query.render` writes a query as a JSON value, given what to write behind the
further keys of its options, of which the query keeps the names only. The queries
that are read are the ones that are `WellFormed`, and they are read from what they
render to and from nothing else (`Query.ofJson_exact`). A JSON value is here one
whose objects have ascending keys, which is how objects are kept.

Below a filter nothing is forgotten, so there reading and rendering are inverse for
all values (`Filter.ofMembers_eq_ok_iff`), by induction on the filter that is read.
-/

namespace Tabular

/-! ## Rendering -/

mutual

/-- A filter as a JSON object. -/
def Filter.render : Filter → Json
  | .everything => .object []
  | .logical connective operands => .object [(connective.keyword, .array (renderAll operands))]
  | .negation operand => .object [("NOT", operand.render)]
  | .comparison c => .object [(c.operator.keyword, .object [(c.field, c.literal)])]

/-- Filters as JSON objects. -/
def Filter.renderAll : List Filter → List Json
  | [] => []
  | f :: rest => f.render :: renderAll rest

end

/-- The members of the options object, each at the place of its key. -/
def Options.members (o : Options) (values : String → Json) : List (String × Json) :=
  let further := o.extraKeys.map fun key => (key, values key)
  let ordered :=
    match o.order with
    | none => further
    | some order => put "ORDER" (.string order) further
  put "COLUMNS" (.array (o.columns.map .string)) ordered

/-- Options as a JSON object, with values for the further keys. -/
def Options.render (o : Options) (values : String → Json) : Json := .object (o.members values)

/-- A query as a JSON object, with values for the further keys of its options. -/
def Query.render (q : Query) (values : String → Json) : Json :=
  .object [("OPTIONS", q.options.render values), ("WHERE", q.filter.render)]

/-- What an object binds a key to; nothing where the value is no object. -/
def Json.member? (key : String) : Json → Option Json
  | .object members => lookup key members
  | _ => none

/-- What the options of a query bind a key to, as it is written. -/
def Json.optionValue (v : Json) (key : String) : Json :=
  ((v.member? "OPTIONS").bind (member? key)).getD .null

/-! ## The queries of the grammar -/

/-- Every list of filters has one. -/
inductive Filter.WellFormed : Filter → Prop
  | everything : WellFormed .everything
  | logical {connective : Connective} {operands : List Filter} (nonempty : operands ≠ [])
      (each : ∀ f ∈ operands, WellFormed f) : WellFormed (.logical connective operands)
  | negation {operand : Filter} (h : WellFormed operand) : WellFormed (.negation operand)
  | comparison (c : Comparison) : WellFormed (.comparison c)

/-- There are columns, and the further keys are ascending and none of the two that
have a meaning. -/
structure Options.WellFormed (o : Options) : Prop where
  columns : o.columns ≠ []
  ascending : o.extraKeys.Pairwise Text.Before
  further : "COLUMNS" ∉ o.extraKeys ∧ "ORDER" ∉ o.extraKeys

/-- The filter and the options are such as the grammar has. -/
structure Query.WellFormed (q : Query) : Prop where
  filter : q.filter.WellFormed
  options : q.options.WellFormed

/-! ## Filters -/

/-- The word of a key. -/
def FilterKey.keyword : FilterKey → String
  | logical connective => connective.keyword
  | negation => "NOT"
  | comparison operator => operator.keyword

theorem Operator.ofKeyword?_eq_some_iff {word : String} {o : Operator} :
    ofKeyword? word = some o ↔ word = o.keyword := by
  constructor
  · intro h
    have hword := List.find?_some h
    exact (of_decide_eq_true hword).symm
  · rintro rfl
    exact ofKeyword?_keyword o

theorem FilterKey.ofText?_eq_some_iff {key : String} {kind : FilterKey} :
    ofText? key = some kind ↔ key = kind.keyword := by
  constructor
  · intro h
    unfold ofText? at h
    split at h
    next hkey =>
      cases h
      exact hkey
    split at h
    next hkey =>
      cases h
      exact hkey
    split at h
    next hkey =>
      cases h
      exact hkey
    obtain ⟨operator, ho, rfl⟩ := Option.map_eq_some_iff.mp h
    exact Operator.ofKeyword?_eq_some_iff.mp ho
  · rintro rfl
    cases kind with
    | logical connective => cases connective <;> rfl
    | negation => rfl
    | comparison operator => cases operator <;> rfl

theorem Comparison.ofJson_eq_ok_iff {operator : Operator} {body : Json} {c : Comparison} :
    Comparison.ofJson operator body = .ok c ↔
      c.operator = operator ∧ body = .object [(c.field, c.literal)] := by
  unfold Comparison.ofJson
  split
  next field literal =>
    constructor
    · intro h
      cases h
      exact ⟨rfl, rfl⟩
    · rintro ⟨rfl, h⟩
      cases h
      rfl
  next members hmembers =>
    constructor
    · intro h
      cases h
    · rintro ⟨-, h⟩
      cases h
      exact absurd rfl (hmembers c.field c.literal)
  next hobject _ =>
    constructor
    · intro h
      cases h
    · rintro ⟨-, h⟩
      exact absurd h (hobject _ _)

namespace Filter

theorem ofOperand_eq_ok_iff {connective : Connective} {item : Json} {f : Filter} :
    ofOperand connective item = .ok f ↔
      ∃ members, item = .object members ∧ ofMembers members = .ok f := by
  unfold ofOperand
  split
  next members => simp
  next hobject => simpa using fun members h => absurd h (hobject members)

theorem ofOperands_eq_mapM (connective : Connective) (items : List Json) :
    ofOperands connective items = items.mapM (ofOperand connective) := by
  induction items with
  | nil => rfl
  | cons item items ih =>
    rw [mapM_cons_except, ← ih]
    rfl

/-- Behind the word of a connective stands a list with an operand. -/
theorem ofBody_logical_eq_ok_iff {connective : Connective} {body : Json} {f : Filter} :
    ofBody (.logical connective) body = .ok f ↔ ∃ items fs, body = .array items ∧ fs ≠ [] ∧
      items.mapM (ofOperand connective) = .ok fs ∧ f = .logical connective fs := by
  cases body with
  | array items =>
    cases items with
    | nil =>
      constructor
      · intro h
        cases h
      · rintro ⟨items, fs, hitems, hne, hfs, -⟩
        cases hitems
        cases hfs
        exact absurd rfl hne
    | cons item items =>
      rw [ofBody, bind_eq_ok_iff]
      constructor
      · rintro ⟨first, hfirst, h⟩
        obtain ⟨rest, hrest, h⟩ := bind_eq_ok_iff.mp h
        cases h
        rw [ofOperands_eq_mapM] at hrest
        refine ⟨_, first :: rest, rfl, List.cons_ne_nil _ _, ?_, rfl⟩
        exact mapM_eq_ok_iff.mpr (.cons hfirst (mapM_eq_ok_iff.mp hrest))
      · rintro ⟨items', fs, hitems, -, hfs, rfl⟩
        cases hitems
        obtain ⟨first, rest, hfirst, hrest, rfl⟩ :=
          List.forall₂_cons_left_iff.mp (mapM_eq_ok_iff.mp hfs)
        refine ⟨first, hfirst, bind_eq_ok_iff.mpr ⟨rest, ?_, rfl⟩⟩
        rw [ofOperands_eq_mapM]
        exact mapM_eq_ok_iff.mpr hrest
  | _ =>
    constructor
    · intro h
      cases h
    · rintro ⟨items, fs, h, -⟩
      cases h

theorem ofBody_negation_eq_ok_iff {body : Json} {f : Filter} :
    ofBody .negation body = .ok f ↔ ∃ members operand, body = .object members ∧
      ofMembers members = .ok operand ∧ f = .negation operand := by
  cases body with
  | object members =>
    rw [ofBody, bind_eq_ok_iff]
    constructor
    · rintro ⟨operand, hoperand, h⟩
      cases h
      exact ⟨members, operand, rfl, hoperand, rfl⟩
    · rintro ⟨members', operand, hmembers, hoperand, rfl⟩
      cases hmembers
      exact ⟨operand, hoperand, rfl⟩
  | _ =>
    constructor
    · intro h
      cases h
    · rintro ⟨members, operand, h, -⟩
      cases h

theorem ofBody_comparison_eq_ok_iff {operator : Operator} {body : Json} {f : Filter} :
    ofBody (.comparison operator) body = .ok f ↔
      ∃ c, Comparison.ofJson operator body = .ok c ∧ f = .comparison c := by
  rw [ofBody, bind_eq_ok_iff]
  constructor
  · rintro ⟨c, hc, h⟩
    cases h
    exact ⟨c, hc, rfl⟩
  · rintro ⟨c, hc, rfl⟩
    exact ⟨c, hc, rfl⟩

/-- A filter object is empty, or has one key that says what stands behind it. -/
theorem ofMembers_eq_ok_cases {members : List (String × Json)} {f : Filter} :
    ofMembers members = .ok f ↔ (members = [] ∧ f = .everything) ∨
      ∃ kind body, members = [(FilterKey.keyword kind, body)] ∧ ofBody kind body = .ok f := by
  match members with
  | [] =>
    rw [ofMembers]
    simp [eq_comm]
  | [(key, body)] =>
    rw [ofMembers]
    cases hkind : FilterKey.ofText? key with
    | none =>
      -- The key is no keyword, so there is nothing that it could be the keyword of.
      simp only [reduceCtorEq, false_iff]
      rintro (⟨h, -⟩ | ⟨kind, body', h, -⟩)
      · cases h
      · obtain ⟨rfl, -⟩ : key = kind.keyword ∧ body = body' := by simpa using h
        rw [FilterKey.ofText?_eq_some_iff.mpr rfl] at hkind
        cases hkind
    | some kind =>
      have hkey := FilterKey.ofText?_eq_some_iff.mp hkind
      constructor
      · intro h
        exact .inr ⟨kind, body, by rw [hkey], h⟩
      · rintro (⟨h, -⟩ | ⟨kind', body', h, hbody⟩)
        · cases h
        · obtain ⟨hkey', rfl⟩ : key = kind'.keyword ∧ body = body' := by simpa using h
          -- No word is the keyword of two kinds.
          have hsame := FilterKey.ofText?_eq_some_iff.mpr hkey'
          rw [hkind] at hsame
          cases hsame
          exact hbody
  | _ :: _ :: _ =>
    rw [ofMembers]
    · simp
    · simp
    · simp

/-- What the members of an object must be for a filter to be read from them. -/
theorem ofMembers_eq_ok_iff_shape {members : List (String × Json)} {f : Filter} :
    ofMembers members = .ok f ↔
      match f with
      | .everything => members = []
      | .logical connective fs => ∃ items, members = [(connective.keyword, .array items)] ∧
          fs ≠ [] ∧ items.mapM (ofOperand connective) = .ok fs
      | .negation operand => ∃ inner, members = [("NOT", .object inner)] ∧
          ofMembers inner = .ok operand
      | .comparison c => members = [(c.operator.keyword, .object [(c.field, c.literal)])] := by
  rw [ofMembers_eq_ok_cases]
  constructor
  · rintro (⟨rfl, rfl⟩ | ⟨kind, body, rfl, hbody⟩)
    · rfl
    · cases kind with
      | logical connective =>
        obtain ⟨items, fs, rfl, hne, hfs, rfl⟩ := ofBody_logical_eq_ok_iff.mp hbody
        exact ⟨items, rfl, hne, hfs⟩
      | negation =>
        obtain ⟨inner, operand, rfl, hoperand, rfl⟩ := ofBody_negation_eq_ok_iff.mp hbody
        exact ⟨inner, rfl, hoperand⟩
      | comparison operator =>
        obtain ⟨c, hc, rfl⟩ := ofBody_comparison_eq_ok_iff.mp hbody
        obtain ⟨rfl, rfl⟩ := Comparison.ofJson_eq_ok_iff.mp hc
        rfl
  · intro h
    cases f with
    | everything => exact .inl ⟨h, rfl⟩
    | logical connective fs =>
      obtain ⟨items, rfl, hne, hfs⟩ := h
      exact .inr ⟨.logical connective, _, rfl,
        ofBody_logical_eq_ok_iff.mpr ⟨items, fs, rfl, hne, hfs, rfl⟩⟩
    | negation operand =>
      obtain ⟨inner, rfl, hoperand⟩ := h
      exact .inr ⟨.negation, _, rfl,
        ofBody_negation_eq_ok_iff.mpr ⟨inner, operand, rfl, hoperand, rfl⟩⟩
    | comparison c =>
      have hc : Comparison.ofJson c.operator (.object [(c.field, c.literal)]) = .ok c :=
        Comparison.ofJson_eq_ok_iff.mpr ⟨rfl, rfl⟩
      exact .inr ⟨.comparison c.operator, _, h,
        ofBody_comparison_eq_ok_iff.mpr ⟨c, hc, rfl⟩⟩

theorem exists_render_eq_object (f : Filter) : ∃ members, f.render = .object members := by
  cases f <;> exact ⟨_, rfl⟩

/-- An object is read as a filter iff it is what the filter renders to. -/
theorem eq_render_iff_of_members {f : Filter}
    (h : ∀ members, ofMembers members = .ok f ↔ f.WellFormed ∧ Json.object members = f.render)
    (v : Json) : (∃ members, v = .object members ∧ ofMembers members = .ok f) ↔
      f.WellFormed ∧ v = f.render := by
  constructor
  · rintro ⟨members, rfl, hmembers⟩
    exact (h members).mp hmembers
  · rintro ⟨hf, rfl⟩
    obtain ⟨members, hrender⟩ := f.exists_render_eq_object
    exact ⟨members, hrender, (h members).mpr ⟨hf, hrender.symm⟩⟩

theorem mapM_ofOperand_eq_ok_iff {connective : Connective} {fs : List Filter}
    (h : ∀ f ∈ fs, ∀ item, ofOperand connective item = .ok f ↔
      f.WellFormed ∧ item = f.render) {items : List Json} :
    items.mapM (ofOperand connective) = .ok fs ↔
      (∀ f ∈ fs, f.WellFormed) ∧ items = renderAll fs := by
  rw [mapM_eq_ok_iff]
  induction fs generalizing items with
  | nil => simp [renderAll]
  | cons f fs ih =>
    obtain ⟨hf, hfs⟩ := List.forall_mem_cons.mp h
    rw [List.forall₂_cons_right_iff, List.forall_mem_cons, renderAll]
    constructor
    · rintro ⟨item, items', hitem, hitems, rfl⟩
      obtain ⟨hwf, rfl⟩ := (hf item).mp hitem
      obtain ⟨hwfs, rfl⟩ := (ih hfs).mp hitems
      exact ⟨⟨hwf, hwfs⟩, rfl⟩
    · rintro ⟨⟨hwf, hwfs⟩, rfl⟩
      exact ⟨_, _, (hf _).mpr ⟨hwf, rfl⟩, (ih hfs).mpr ⟨hwfs, rfl⟩, rfl⟩

/-- **Filters are read from what they render to**, and from nothing else. -/
theorem ofMembers_eq_ok_iff {members : List (String × Json)} {f : Filter} :
    ofMembers members = .ok f ↔ f.WellFormed ∧ Json.object members = f.render := by
  -- On the filter and not on the members: it says which members can be there, and the
  -- filters inside it are the ones that were read from what they bind.
  induction f generalizing members with
  | everything =>
    rw [ofMembers_eq_ok_iff_shape]
    simp [render, WellFormed.everything]
  | logical connective fs ih =>
    have hoperand : ∀ f ∈ fs, ∀ item, ofOperand connective item = .ok f ↔
        f.WellFormed ∧ item = f.render := by
      intro f hf item
      rw [ofOperand_eq_ok_iff]
      exact eq_render_iff_of_members (fun members => ih f hf) item
    rw [ofMembers_eq_ok_iff_shape]
    simp only [mapM_ofOperand_eq_ok_iff hoperand, render]
    constructor
    · rintro ⟨items, rfl, hne, hwf, rfl⟩
      exact ⟨.logical hne hwf, rfl⟩
    · rintro ⟨hwf, h⟩
      cases hwf with
      | logical hne hwf => exact ⟨_, by simpa using h, hne, hwf, rfl⟩
  | negation operand ih =>
    have hoperand := eq_render_iff_of_members fun members => @ih members
    rw [ofMembers_eq_ok_iff_shape, render]
    constructor
    · rintro ⟨inner, rfl, hinner⟩
      obtain ⟨hwf, hrender⟩ := (hoperand _).mp ⟨inner, rfl, hinner⟩
      exact ⟨.negation hwf, by rw [hrender]⟩
    · rintro ⟨hwf, h⟩
      cases hwf with
      | negation hwf =>
        obtain ⟨inner, hrender, hinner⟩ := (hoperand _).mpr ⟨hwf, rfl⟩
        refine ⟨inner, ?_, hinner⟩
        rw [hrender] at h
        simpa using h
  | comparison c =>
    rw [ofMembers_eq_ok_iff_shape, render, Json.object.injEq]
    constructor
    · intro h
      exact ⟨.comparison c, h⟩
    · intro h
      exact h.2

theorem ofJson_eq_ok_iff {v : Json} {f : Filter} :
    Filter.ofJson v = .ok f ↔ f.WellFormed ∧ v = f.render := by
  have hobject : Filter.ofJson v = .ok f ↔
      ∃ members, v = .object members ∧ ofMembers members = .ok f := by
    cases v <;> simp [Filter.ofJson]
  rw [hobject]
  exact eq_render_iff_of_members (fun members => ofMembers_eq_ok_iff) v

end Filter

/-! ## Options -/

theorem columnNames_eq_ok_iff {items : List Json} {names : List String} :
    columnNames items = .ok names ↔ items = names.map .string := by
  induction items generalizing names with
  | nil => cases names <;> simp [columnNames]
  | cons item items ih =>
    cases item with
    | string name =>
      rw [columnNames, bind_eq_ok_iff]
      constructor
      · rintro ⟨rest, hrest, h⟩
        cases h
        rw [ih.mp hrest, List.map_cons]
      · intro h
        cases names with
        | nil => cases h
        | cons name' names =>
          obtain ⟨rfl, hrest⟩ : name = name' ∧ items = names.map .string := by simpa using h
          exact ⟨names, ih.mpr hrest, rfl⟩
    | _ =>
      constructor
      · intro h
        cases h
      · intro h
        cases names <;> cases h

theorem columnsOfJson_eq_ok_iff {value? : Option Json} {columns : List String} :
    columnsOfJson value? = .ok columns ↔
      columns ≠ [] ∧ value? = some (.array (columns.map .string)) := by
  unfold columnsOfJson
  split
  next items =>
    rw [bind_eq_ok_iff]
    constructor
    · rintro ⟨names, hnames, h⟩
      split at h
      · cases h
      next hne =>
        cases h
        rw [columnNames_eq_ok_iff.mp hnames]
        exact ⟨by simpa using hne, rfl⟩
    · rintro ⟨hne, h⟩
      cases h
      exact ⟨columns, columnNames_eq_ok_iff.mpr rfl, by simp [hne]⟩
  next value harray =>
    constructor
    · intro h
      cases h
    · rintro ⟨-, h⟩
      cases h
      exact absurd rfl (harray _)
  next => simp

theorem orderOfJson_eq_ok_iff {value? : Option Json} {order : Option String} :
    orderOfJson value? = .ok order ↔ value? = order.map .string := by
  unfold orderOfJson
  split
  next => cases order <;> simp
  next name => cases order <;> simp
  next value hstring =>
    constructor
    · intro h
      cases h
    · intro h
      cases order with
      | none => cases h
      | some name => exact absurd (Option.some.inj h) (hstring name)

namespace Options

/-- The options are in the object under their keys; the other keys are kept. -/
theorem ofJson_eq_ok_iff {members : List (String × Json)} {o : Options} :
    Options.ofJson (.object members) = .ok o ↔ o.columns ≠ [] ∧
      lookup "COLUMNS" members = some (.array (o.columns.map .string)) ∧
      lookup "ORDER" members = o.order.map .string ∧
      o.extraKeys = (Json.keyList members).filter
        fun key => key ≠ "COLUMNS" && key ≠ "ORDER" := by
  obtain ⟨columns, order, extraKeys⟩ := o
  rw [Options.ofJson, bind_eq_ok_iff]
  constructor
  · rintro ⟨columns', hcolumns, h⟩
    obtain ⟨order', horder, h⟩ := bind_eq_ok_iff.mp h
    cases h
    obtain ⟨hne, hlookup⟩ := columnsOfJson_eq_ok_iff.mp hcolumns
    exact ⟨hne, hlookup, orderOfJson_eq_ok_iff.mp horder, rfl⟩
  · rintro ⟨hne, hlookup, horder, rfl⟩
    refine ⟨columns, columnsOfJson_eq_ok_iff.mpr ⟨hne, hlookup⟩, ?_⟩
    exact bind_eq_ok_iff.mpr ⟨order, orderOfJson_eq_ok_iff.mpr horder, rfl⟩

variable {o : Options}

theorem ascending_members (h : o.WellFormed) (values : String → Json) :
    Ascending (o.members values) := by
  have hfurther : Ascending (o.extraKeys.map fun key => (key, values key)) :=
    List.pairwise_map.mpr h.ascending
  unfold members
  cases o.order with
  | none => exact ascending_put _ _ hfurther
  | some order => exact ascending_put _ _ (ascending_put _ _ hfurther)

/-- What the members of the options answer: the two keys that have a meaning first. -/
theorem lookup_members (h : o.WellFormed) (values : String → Json) (k : String) :
    lookup k (o.members values) =
      if k = "COLUMNS" then some (.array (o.columns.map .string))
      else if k = "ORDER" then o.order.map .string
      else if k ∈ o.extraKeys then some (values k) else none := by
  obtain ⟨-, hnoOrder⟩ := h.further
  unfold members
  rw [lookup_put]
  by_cases hcolumns : k = "COLUMNS"
  · simp [hcolumns]
  rw [if_neg (Ne.symm hcolumns), if_neg hcolumns]
  cases o.order with
  | none =>
    show lookup k (o.extraKeys.map _) = _
    rw [lookup_map]
    by_cases horder : k = "ORDER"
    · simp [horder, hnoOrder]
    · simp [horder]
  | some order =>
    show lookup k (put _ _ (o.extraKeys.map _)) = _
    rw [lookup_put, lookup_map]
    by_cases horder : k = "ORDER"
    · simp [horder]
    · simp [horder, Ne.symm horder]

theorem keys_members (h : o.WellFormed) (values : String → Json) :
    (Json.keyList (o.members values)).filter (fun key => key ≠ "COLUMNS" && key ≠ "ORDER") =
      o.extraKeys := by
  obtain ⟨hnoColumns, hnoOrder⟩ := h.further
  have hfurther : ((o.extraKeys.map fun key => (key, values key)).map (·.1)).filter
      (fun key => key ≠ "COLUMNS" && key ≠ "ORDER") = o.extraKeys := by
    rw [List.map_map]
    refine (List.filter_eq_self.mpr ?_).trans (List.map_id _)
    intro key hkey
    have hmem : key ∈ o.extraKeys := by simpa using hkey
    have hcolumns : key ≠ "COLUMNS" := fun heq => hnoColumns (heq ▸ hmem)
    have horder : key ≠ "ORDER" := fun heq => hnoOrder (heq ▸ hmem)
    simp [hcolumns, horder]
  unfold members Json.keyList
  rw [filter_keys_put (by simp)]
  cases o.order with
  | none => exact hfurther
  | some order =>
    show ((put _ _ (o.extraKeys.map _)).map _).filter _ = _
    rw [filter_keys_put (by simp)]
    exact hfurther

/-- Options are read from what they render to. -/
theorem ofJson_render (h : o.WellFormed) (values : String → Json) :
    Options.ofJson (o.render values) = .ok o := by
  refine ofJson_eq_ok_iff.mpr ⟨h.columns, ?_, ?_, (keys_members h values).symm⟩
  · rw [lookup_members h, if_pos rfl]
  · rw [lookup_members h, if_neg (by decide), if_pos rfl]

/-- Options are read from nothing else. -/
theorem eq_members_of_ofJson {members : List (String × Json)} (hasc : Ascending members)
    (h : Options.ofJson (.object members) = .ok o) :
    o.WellFormed ∧ members = o.members fun key => (lookup key members).getD .null := by
  obtain ⟨hne, hcolumns, horder, hextra⟩ := ofJson_eq_ok_iff.mp h
  have hmem : ∀ k, k ∈ o.extraKeys ↔
      (lookup k members).isSome = true ∧ k ≠ "COLUMNS" ∧ k ≠ "ORDER" := by
    intro k
    rw [hextra, lookup_isSome_iff]
    simp [Json.keyList]
  have hwf : o.WellFormed := by
    refine ⟨hne, ?_, ?_, ?_⟩
    · rw [hextra]
      exact (List.pairwise_map.mpr hasc).filter _
    · exact fun hin => ((hmem _).mp hin).2.1 rfl
    · exact fun hin => ((hmem _).mp hin).2.2 rfl
  -- Both member lists are ascending, so it is enough that every key is bound alike.
  refine ⟨hwf, eq_of_lookup_eq hasc (ascending_members hwf _) ?_⟩
  intro k
  rw [lookup_members hwf]
  split
  next hk => rw [hk, hcolumns]
  next hk =>
    split
    next hk' => rw [hk', horder]
    next hk' =>
      cases hv : lookup k members with
      | none => simp [hmem, hv]
      | some value => simp [hmem, hv, hk, hk']

end Options

/-! ## Queries -/

namespace Query

theorem ofJson_eq_ok_iff {members : List (String × Json)} (hasc : Ascending members)
    {q : Query} : Query.ofJson (.object members) = .ok q ↔
      ∃ options filter, members = [("OPTIONS", options), ("WHERE", filter)] ∧
        Filter.ofJson filter = .ok q.filter ∧ Options.ofJson options = .ok q.options := by
  rw [Query.ofJson]
  constructor
  · intro h
    split at h
    next filter options hlength hfilter hoptions =>
      obtain ⟨f, hf, h⟩ := bind_eq_ok_iff.mp h
      obtain ⟨o, ho, h⟩ := bind_eq_ok_iff.mp h
      cases h
      refine ⟨options, filter, ?_, hf, ho⟩
      -- Both keys are there, so the two members are theirs, in the order of the keys.
      obtain ⟨a, b, rfl⟩ := List.length_eq_two.mp hlength
      have hab : Text.Before a.1 b.1 := by simpa [Ascending] using hasc
      have hnot : ¬ Text.Before "WHERE" "OPTIONS" := by decide
      have hfilter' := mem_of_lookup hfilter
      have hoptions' := mem_of_lookup hoptions
      simp only [List.mem_cons, List.not_mem_nil, or_false] at hfilter' hoptions'
      have hkeys : ("WHERE", filter) ≠ ("OPTIONS", options) := by simp
      rcases hoptions' with rfl | rfl
      · rcases hfilter' with heq | rfl
        · exact absurd heq hkeys
        · rfl
      · rcases hfilter' with rfl | heq
        · exact absurd hab hnot
        · exact absurd heq hkeys
    next => cases h
  · rintro ⟨options, filter, rfl, hf, ho⟩
    show (Filter.ofJson filter >>= fun f => Options.ofJson options >>= fun o =>
      Except.ok (⟨f, o⟩ : Query)) = .ok q
    rw [hf]
    show (Options.ofJson options >>= fun o => Except.ok (⟨q.filter, o⟩ : Query)) = .ok q
    rw [ho]
    rfl

theorem ascending_render (q : Query) (values : String → Json) :
    Ascending [("OPTIONS", q.options.render values), ("WHERE", q.filter.render)] := by
  have hbefore : Text.Before "OPTIONS" "WHERE" := by decide
  simpa [Ascending] using hbefore

/-- A query of the grammar is read from what it renders to. -/
theorem ofJson_render {q : Query} (h : q.WellFormed) (values : String → Json) :
    Query.ofJson (q.render values) = .ok q :=
  (ofJson_eq_ok_iff (q.ascending_render values)).mpr ⟨_, _, rfl,
    Filter.ofJson_eq_ok_iff.mpr ⟨h.filter, rfl⟩, Options.ofJson_render h.options values⟩

/-- What is read as a query is a rendering of it. -/
theorem eq_render_of_ofJson {v : Json} {q : Query} (hv : v.Ordered)
    (h : Query.ofJson v = .ok q) : q.WellFormed ∧ v = q.render v.optionValue := by
  cases v with
  | object members =>
    obtain ⟨hasc, hmembers⟩ := hv
    obtain ⟨options, filter, rfl, hf, ho⟩ := (ofJson_eq_ok_iff hasc).mp h
    cases options with
    | object optionMembers =>
      have hasc' : Ascending optionMembers := hmembers.1.1
      obtain ⟨hwf, rfl⟩ := Filter.ofJson_eq_ok_iff.mp hf
      obtain ⟨hwf', hrender⟩ := Options.eq_members_of_ofJson hasc' ho
      refine ⟨⟨hwf, hwf'⟩, ?_⟩
      have hvalues : (Json.object [("OPTIONS", .object optionMembers),
          ("WHERE", q.filter.render)]).optionValue =
            fun key => (lookup key optionMembers).getD .null := rfl
      rw [hvalues, render, Options.render, ← hrender]
    | _ => cases ho
  | _ => cases h

/-- A JSON value is a rendering of a query of the grammar. -/
def WrittenAs (q : Query) (v : Json) : Prop := q.WellFormed ∧ ∃ values, v = q.render values

/-- Values are read as what they write. -/
theorem writtenAs_iff {q : Query} {v : Json} (hv : v.Ordered) :
    q.WrittenAs v ↔ Query.ofJson v = .ok q := by
  constructor
  · rintro ⟨hq, values, rfl⟩
    exact ofJson_render hq values
  · intro h
    obtain ⟨hq, hrender⟩ := eq_render_of_ofJson hv h
    exact ⟨hq, _, hrender⟩

/-- Of the values only those at the further keys are written. -/
theorem render_congr {q : Query} {values values' : String → Json}
    (h : ∀ key ∈ q.options.extraKeys, values key = values' key) :
    q.render values = q.render values' := by
  have hfurther : (q.options.extraKeys.map fun key => (key, values key)) =
      q.options.extraKeys.map fun key => (key, values' key) := by
    refine List.map_congr_left ?_
    intro key hkey
    rw [h key hkey]
  rw [render, render, Options.render, Options.render, Options.members, Options.members, hfurther]

/-- **The grammar is exact.** A query of the grammar is read from what it renders to
with any values at the further keys of its options. What is read is a rendering of a
query of the grammar with its own values there, so whatever is no rendering is
rejected, and two values that are read as one query differ at those keys only. -/
theorem ofJson_exact :
    (∀ q : Query, q.WellFormed → ∀ values, Query.ofJson (q.render values) = .ok q) ∧
    (∀ v q, v.Ordered → Query.ofJson v = .ok q →
      q.WellFormed ∧ v = q.render v.optionValue) ∧
    (∀ v : Json, v.Ordered → (∀ q values, q.WellFormed → v ≠ Query.render q values) →
      ∃ fault, Query.ofJson v = .error fault) ∧
    (∀ v w q, v.Ordered → w.Ordered → Query.ofJson v = .ok q → Query.ofJson w = .ok q →
      (∀ key ∈ q.options.extraKeys, v.optionValue key = w.optionValue key) → v = w) := by
  refine ⟨fun q hq values => ofJson_render hq values,
    fun v q hv h => eq_render_of_ofJson hv h, ?_, ?_⟩
  · intro v hv hnone
    cases hread : Query.ofJson v with
    | error fault => exact ⟨fault, rfl⟩
    | ok q =>
      obtain ⟨hq, hrender⟩ := eq_render_of_ofJson hv hread
      exact absurd hrender (hnone q _ hq)
  · intro v w q hv hw hreadv hreadw hvalues
    rw [(eq_render_of_ofJson hv hreadv).2, (eq_render_of_ofJson hw hreadw).2]
    exact render_congr hvalues

end Query

/-- A query whose options have a further key. -/
def limitedQuery : Query :=
  ⟨.negation (.logical .any [.everything, .comparison ⟨"rooms_seats", .gt, .string "many"⟩]),
    ⟨["rooms_name"], some "rooms_seats", ["LIMIT"]⟩⟩

/-- The same as it may be written. -/
def limitedJson : Json :=
  .object [("OPTIONS", .object [("COLUMNS", .array [.string "rooms_name"]), ("LIMIT", .bool true),
      ("ORDER", .string "rooms_seats")]),
    ("WHERE", .object [("NOT", .object [("OR", .array [.object [],
      .object [("GT", .object [("rooms_seats", .string "many")])]])])])]

theorem ordered_limitedJson : limitedJson.Ordered := by
  simp [limitedJson, Json.Ordered, Json.OrderedMembers, Json.OrderedItems, Ascending]
  decide

/-- The written query is read, it is the rendering with its own value at the further
key, with another value it is read as the same query, and what is no object is not
read. -/
theorem limitedJson_exact :
    Query.ofJson limitedJson = .ok limitedQuery ∧
      limitedJson = limitedQuery.render limitedJson.optionValue ∧
      Query.ofJson (limitedQuery.render fun _ => .null) = .ok limitedQuery ∧
      (∃ fault, Query.ofJson .null = .error fault) ∧
      limitedQuery.render limitedJson.optionValue = limitedJson := by
  have hwf : limitedQuery.WellFormed := by
    refine ⟨.negation (.logical (by simp) ?_), by simp [limitedQuery], by simp [limitedQuery],
      by simp [limitedQuery]⟩
    intro f hf
    simp only [List.mem_cons, List.not_mem_nil, or_false] at hf
    rcases hf with rfl | rfl
    · exact .everything
    · exact .comparison _
  obtain ⟨hread, hrender, hreject, hunique⟩ := Query.ofJson_exact
  have hsame : limitedJson = limitedQuery.render fun _ => .bool true := by rfl
  have hlimited : Query.ofJson limitedJson = .ok limitedQuery := by
    rw [hsame]
    exact hread limitedQuery hwf _
  have hown := (hrender limitedJson limitedQuery ordered_limitedJson hlimited).2
  refine ⟨hlimited, hown, hread limitedQuery hwf _, ?_, ?_⟩
  · refine hreject .null trivial ?_
    intro q values _ h
    cases h
  · have hordered := ordered_limitedJson
    refine hunique _ _ limitedQuery (hown ▸ hordered) hordered (hown ▸ hlimited) hlimited ?_
    intro key _
    rw [← hown]

end Tabular
