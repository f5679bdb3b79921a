import Tabular.Catalog
import Tabular.Proofs.Grammar

/-!
# Where a query departs from the grammar

A filter is a tree of nodes: values that are to be filter objects, each with the place that
it has below its parent. What is wrong with a node by itself (`Node.fault?`) is its own kind,
the number of its keys, its key, and the kind of what stands behind the key; its operands are
nodes of their own. A filter is read depth first and from left to right, so its fault is that
of the first node that has one (`Node.faultOf_read`), and nothing that stands behind this
node has a part in it (`Node.AlikeUpTo.read_eq`). The options are looked at only when all
nodes are in order, and what they are refused with is `Options.FailsWith`.
-/

namespace Tabular

/-! ## Nodes -/

/-- Where a value stands that is to be a filter object. -/
inductive Slot where
  /-- Behind `WHERE`. -/
  | top
  | operand (connective : Connective)
  /-- Behind `NOT`. -/
  | negated
  deriving DecidableEq

/-- What is reported of a value that is no object. -/
def Slot.notObject : Slot → ShapeFault
  | top => .whereNotObject
  | operand connective => .operandNotObject connective
  | negated => .negationNotObject

/-- A node of a filter as it is written. -/
structure Node where
  slot : Slot
  value : Json

/-- What is wrong with what stands behind a key, by its kind and apart from operands. -/
def FilterKey.bodyFault? : FilterKey → Json → Option ShapeFault
  | .logical connective, .array [] => some (.noOperands connective)
  | .logical _, .array _ => none
  | .logical connective, _ => some (.operandsNotList connective)
  | .negation, _ => none
  | .comparison _, .object [_] => none
  | .comparison operator, .object members =>
    some (.comparisonFields operator (Json.keyList members))
  | .comparison operator, _ => some (.comparisonNotObject operator)

/-- The operands that stand behind a key. -/
def FilterKey.operandsIn : FilterKey → Json → List Node
  | .logical connective, .array items => items.map fun item => ⟨.operand connective, item⟩
  | .negation, body => [⟨.negated, body⟩]
  | _, _ => []

namespace Node

/-- What is wrong with a node itself, apart from its operands. -/
def fault? : Node → Option ShapeFault
  | ⟨_, .object []⟩ => none
  | ⟨_, .object [(key, body)]⟩ =>
    match FilterKey.ofText? key with
    | some kind => kind.bodyFault? body
    | none => some (.unknownKey key)
  | ⟨_, .object members⟩ => some (.filterKeys (Json.keyList members))
  | ⟨slot, _⟩ => some slot.notObject

/-- The nodes right below a node, from left to right. -/
def operands : Node → List Node
  | ⟨_, .object [(key, body)]⟩ =>
    match FilterKey.ofText? key with
    | some kind => kind.operandsIn body
    | none => []
  | _ => []

end Node

mutual

/-- The nodes of a filter, depth first and from left to right. -/
def Json.nodes (slot : Slot) : Json → List Node
  | .object [(key, body)] => ⟨slot, .object [(key, body)]⟩ ::
    match FilterKey.ofText? key, body with
    | some (.logical connective), .array items => nodesOfItems connective items
    | some .negation, body => nodes .negated body
    | _, _ => []
  | v => [⟨slot, v⟩]
termination_by structural v => v

/-- The nodes of the operands in a list. -/
def Json.nodesOfItems (connective : Connective) : List Json → List Node
  | [] => []
  | item :: rest => nodes (.operand connective) item ++ nodesOfItems connective rest
termination_by structural items => items

end

namespace Node

/-- A node and all below it. -/
def all (n : Node) : List Node := n.value.nodes n.slot

theorem nodesOfItems_eq_flatMap (connective : Connective) (items : List Json) :
    Json.nodesOfItems connective items =
      (items.map fun item => (⟨.operand connective, item⟩ : Node)).flatMap all := by
  induction items with
  | nil => rfl
  | cons item items ih => rw [Json.nodesOfItems, ih, List.map_cons, List.flatMap_cons, all]

/-- A node comes first, and then each operand with all below it. -/
theorem all_eq (n : Node) : n.all = n :: n.operands.flatMap all := by
  obtain ⟨slot, v⟩ := n
  show v.nodes slot = _
  unfold operands Json.nodes
  split
  next key body =>
    rw [List.cons.injEq]
    refine ⟨rfl, ?_⟩
    dsimp only
    cases FilterKey.ofText? key with
    | none => rfl
    | some kind =>
      cases kind with
      | logical connective =>
        cases body with
        | array items => exact nodesOfItems_eq_flatMap connective items
        | _ => rfl
      | negation => exact (List.append_nil _).symm
      | comparison operator => rfl
  next hone =>
    split
    next heq =>
      cases heq
      exact (hone _ _ rfl).elim
    next => rfl

/-- An operand stands behind `NOT` or in the list of a connective. -/
theorem mem_operands_cases {n o : Node} (h : o ∈ n.operands) :
    (∃ slot v, n = ⟨slot, .object [("NOT", v)]⟩ ∧ o = ⟨.negated, v⟩) ∨
    ∃ slot connective front v back,
      n = ⟨slot, .object [(Connective.keyword connective, .array (front ++ v :: back))]⟩ ∧
        o = ⟨.operand connective, v⟩ := by
  unfold operands at h
  split at h
  next slot key body =>
    split at h
    next kind hkind =>
      obtain rfl := FilterKey.ofText?_eq_some_iff.mp hkind
      cases kind with
      | logical connective =>
        cases body with
        | array items =>
          obtain ⟨v, hv, rfl⟩ := List.mem_map.mp h
          obtain ⟨front, back, rfl⟩ := List.append_of_mem hv
          exact .inr ⟨slot, connective, front, v, back, rfl, rfl⟩
        | _ => cases h
      | negation => exact .inl ⟨slot, body, rfl, List.mem_singleton.mp h⟩
      | comparison operator => cases h
    next => cases h
  next => cases h

theorem sizeOf_lt_of_mem_operands {n o : Node} (h : o ∈ n.operands) :
    sizeOf o.value < sizeOf n.value := by
  rcases mem_operands_cases h with ⟨slot, v, rfl, rfl⟩ | ⟨slot, c, front, v, back, rfl, rfl⟩
  · simp
    omega
  · have hlt : sizeOf v < sizeOf (front ++ v :: back) := List.sizeOf_lt_of_mem (by simp)
    simp only [Json.object.sizeOf_spec, Json.array.sizeOf_spec, List.cons.sizeOf_spec,
      Prod.mk.sizeOf_spec]
    omega

/-- Induction over a node: of the nodes right below it the property may be assumed. -/
@[elab_as_elim]
theorem induct {motive : Node → Prop}
    (step : ∀ n : Node, (∀ m ∈ n.operands, motive m) → motive n) (n : Node) : motive n :=
  step n fun m hm =>
    have := sizeOf_lt_of_mem_operands hm
    induct step m
termination_by sizeOf n.value

/-! ## Reading a node -/

/-- Reads a node as a filter. -/
def read (n : Node) : Except ShapeFault Filter :=
  match n.value with
  | .object members => Filter.ofMembers members
  | _ => .error n.slot.notObject

theorem read_top (v : Json) : read ⟨.top, v⟩ = Filter.ofJson v := by
  cases v <;> rfl

theorem read_operand (connective : Connective) (v : Json) :
    read ⟨.operand connective, v⟩ = Filter.ofOperand connective v := by
  cases v <;> simp [read, Filter.ofOperand, Slot.notObject]

theorem ofBody_negation (body : Json) :
    Filter.ofBody .negation body = read ⟨.negated, body⟩ >>= fun operand =>
      .ok (.negation operand) := by
  cases body <;> simp [read, Filter.ofBody, Slot.notObject] <;> rfl

theorem ofBody_logical_cons (connective : Connective) (item : Json) (items : List Json) :
    Filter.ofBody (.logical connective) (.array (item :: items)) =
      (item :: items).mapM (Filter.ofOperand connective) >>= fun operands =>
        .ok (.logical connective operands) := by
  rw [Filter.ofBody, Filter.ofOperands_eq_mapM, mapM_cons_except]
  cases Filter.ofOperand connective item with
  | error fault => rfl
  | ok first =>
    cases items.mapM (Filter.ofOperand connective) with
    | error fault => rfl
    | ok rest => rfl

theorem faultOf_comparison (operator : Operator) (body : Json) :
    faultOf (Comparison.ofJson operator body) = (FilterKey.comparison operator).bodyFault? body := by
  unfold Comparison.ofJson FilterKey.bodyFault?
  cases body with
  | object members =>
    match members with
    | [] => rfl
    | [_] => rfl
    | _ :: _ :: _ => rfl
  | _ => rfl

/-- What stands behind a key fails by itself, or else as the first of its operands that
fails. -/
theorem faultOf_ofBody (kind : FilterKey) (body : Json) :
    faultOf (Filter.ofBody kind body) =
      (kind.bodyFault? body).or ((kind.operandsIn body).findSome? fun m => faultOf m.read) := by
  cases kind with
  | logical connective =>
    cases body with
    | array items =>
      cases items with
      | nil => simp [Filter.ofBody, FilterKey.bodyFault?, faultOf]
      | cons item items =>
        rw [ofBody_logical_cons, faultOf_bind (y := none) fun _ => rfl, Option.or_none,
          faultOf_mapM]
        simp only [FilterKey.bodyFault?, FilterKey.operandsIn, Option.none_or, List.findSome?_map,
          Function.comp_def, read_operand]
    | _ => simp [Filter.ofBody, FilterKey.bodyFault?, faultOf]
  | negation =>
    rw [ofBody_negation, faultOf_bind (y := none) fun _ => rfl, Option.or_none]
    exact (List.findSome?_singleton ..).symm
  | comparison operator =>
    rw [Filter.ofBody, faultOf_bind (y := none) fun _ => rfl, Option.or_none, faultOf_comparison]
    exact (Option.or_none).symm

/-- A node fails by itself, or else as the first of its operands that fails. -/
theorem faultOf_read_step (n : Node) :
    faultOf n.read = n.fault?.or (n.operands.findSome? fun m => faultOf m.read) := by
  obtain ⟨slot, v⟩ := n
  cases v with
  | object members =>
    show faultOf (Filter.ofMembers members) = _
    match members with
    | [] => simp [Filter.ofMembers, fault?, operands, faultOf]
    | [(key, body)] =>
      rw [Filter.ofMembers]
      unfold fault? operands
      dsimp only
      cases FilterKey.ofText? key with
      | none => rfl
      | some kind => exact faultOf_ofBody kind body
    | _ :: _ :: _ => simp [Filter.ofMembers, fault?, operands, faultOf]
  | _ => rfl

/-- **The first node that is malformed decides**, depth first and from left to right. -/
theorem faultOf_read (n : Node) : faultOf n.read = n.all.findSome? fault? := by
  induction n using induct with
  | step n ih =>
    rw [faultOf_read_step, all_eq, List.findSome?_cons, findSome?_flatMap ih]
    cases n.fault? <;> rfl

theorem read_eq_error_iff {n : Node} {fault : ShapeFault} :
    n.read = .error fault ↔ ∃ front m back, n.all = front ++ m :: back ∧
      (∀ k ∈ front, k.fault? = none) ∧ m.fault? = some fault := by
  rw [← faultOf_eq_some_iff, faultOf_read, List.findSome?_eq_some_iff]
  constructor
  · rintro ⟨front, m, back, heq, hm, hfront⟩
    exact ⟨front, m, back, heq, hfront, hm⟩
  · rintro ⟨front, m, back, heq, hfront, hm⟩
    exact ⟨front, m, back, heq, hm, hfront⟩

theorem exists_read_iff {n : Node} : (∃ f, n.read = .ok f) ↔ ∀ m ∈ n.all, m.fault? = none := by
  rw [← faultOf_eq_none_iff, faultOf_read, List.findSome?_eq_none_iff]

/-! ## What stands behind a node -/

/-- Two nodes are alike up to a node `m` that both have at the same place: on the way to it
the keys are the same, and in the lists the operands in front. What comes behind may differ,
at every level. -/
inductive AlikeUpTo (m : Node) : Node → Node → Prop
  | here : AlikeUpTo m m m
  | negated {slot : Slot} {v w : Json} (h : AlikeUpTo m ⟨.negated, v⟩ ⟨.negated, w⟩) :
      AlikeUpTo m ⟨slot, .object [("NOT", v)]⟩ ⟨slot, .object [("NOT", w)]⟩
  | operand {slot : Slot} {connective : Connective} {v w : Json} (front back back' : List Json)
      (h : AlikeUpTo m ⟨.operand connective, v⟩ ⟨.operand connective, w⟩) :
      AlikeUpTo m ⟨slot, .object [(connective.keyword, .array (front ++ v :: back))]⟩
        ⟨slot, .object [(connective.keyword, .array (front ++ w :: back'))]⟩

theorem faultOf_read_negated (slot : Slot) (v : Json) :
    faultOf (read ⟨slot, .object [("NOT", v)]⟩) = faultOf (read ⟨.negated, v⟩) := by
  rw [faultOf_read_step]
  exact List.findSome?_singleton ..

theorem faultOf_read_list (slot : Slot) (connective : Connective) {items : List Json}
    (h : items ≠ []) :
    faultOf (read ⟨slot, .object [(connective.keyword, .array items)]⟩) =
      items.findSome? fun item => faultOf (read ⟨.operand connective, item⟩) := by
  have hkind : FilterKey.ofText? connective.keyword = some (.logical connective) :=
    FilterKey.ofText?_eq_some_iff.mpr rfl
  cases items with
  | nil => exact absurd rfl h
  | cons item items =>
    rw [faultOf_read_step]
    simp only [fault?, operands, hkind, FilterKey.bodyFault?, FilterKey.operandsIn,
      Option.none_or, List.findSome?_map, Function.comp_def]

/-- **What stands behind a malformed node has no part in the fault.** -/
theorem AlikeUpTo.read_eq {m n n' : Node} (h : m.AlikeUpTo n n') {fault : ShapeFault}
    (hm : m.fault? = some fault) : ∃ first, n.read = .error first ∧ n'.read = .error first := by
  simp only [← faultOf_eq_some_iff]
  induction h with
  | here =>
    rw [faultOf_read_step, hm]
    exact ⟨fault, rfl, rfl⟩
  | negated _ ih =>
    simp only [faultOf_read_negated]
    exact ih
  | operand front back back' _ ih =>
    obtain ⟨first, hv, hw⟩ := ih
    rw [faultOf_read_list _ _ (by simp), faultOf_read_list _ _ (by simp), List.findSome?_append,
      List.findSome?_append, List.findSome?_cons, List.findSome?_cons, hv, hw]
    -- An operand in front may be malformed already; it is in front in both.
    cases front.findSome? _ with
    | some earlier => exact ⟨earlier, rfl, rfl⟩
    | none => exact ⟨first, rfl, rfl⟩

theorem alikeUpTo_of_mem {m n : Node} (h : m ∈ n.all) : m.AlikeUpTo n n := by
  induction n using induct with
  | step n ih =>
    rw [all_eq] at h
    rcases List.mem_cons.mp h with rfl | h
    · exact .here
    obtain ⟨o, ho, hm⟩ := List.mem_flatMap.mp h
    have hbelow := ih o ho hm
    rcases mem_operands_cases ho with ⟨slot, v, rfl, rfl⟩ | ⟨slot, c, front, v, back, rfl, rfl⟩
    · exact .negated hbelow
    · exact .operand front back back hbelow

end Node

/-! ## Options -/

theorem columnNames_eq_error_iff {items : List Json} {fault : ShapeFault} :
    columnNames items = .error fault ↔
      (∃ item ∈ items, ∀ name, item ≠ .string name) ∧ fault = .columnNotText := by
  induction items with
  | nil => simp [columnNames]
  | cons item items ih =>
    cases item with
    | string name =>
      rw [columnNames, bind_eq_error_iff, ih, List.exists_mem_cons_iff]
      simp
    | _ => simp [columnNames, eq_comm]

theorem columnsOfJson_eq_error_iff {value? : Option Json} {fault : ShapeFault} :
    columnsOfJson value? = .error fault ↔
      (value? = none ∧ fault = .columnsMissing) ∨
      (∃ v, value? = some v ∧ (∀ items, v ≠ .array items) ∧ fault = .columnsNotList) ∨
      (∃ items, value? = some (.array items) ∧
        (∃ item ∈ items, ∀ name, item ≠ .string name) ∧ fault = .columnNotText) ∨
      (value? = some (.array []) ∧ fault = .columnsEmpty) := by
  unfold columnsOfJson
  split
  next items =>
    rw [bind_eq_error_iff, columnNames_eq_error_iff]
    constructor
    · rintro (h | ⟨names, hnames, h⟩)
      · exact .inr (.inr (.inl ⟨items, rfl, h⟩))
      · split at h
        next hempty =>
          cases h
          rw [columnNames_eq_ok_iff.mp hnames, List.isEmpty_iff.mp hempty]
          exact .inr (.inr (.inr ⟨rfl, rfl⟩))
        next => cases h
    · rintro (⟨h, -⟩ | ⟨v, hv, hlist, -⟩ | ⟨items', hitems, h⟩ | ⟨h, rfl⟩)
      · cases h
      · cases hv
        exact absurd rfl (hlist items)
      · cases hitems
        exact .inl h
      · cases h
        exact .inr ⟨[], rfl, rfl⟩
  next v hlist =>
    constructor
    · intro h
      cases h
      refine .inr (.inl ⟨v, rfl, ?_, rfl⟩)
      rintro items rfl
      exact hlist items rfl
    · rintro (⟨h, -⟩ | ⟨-, -, -, rfl⟩ | ⟨items, hitems, -⟩ | ⟨h, -⟩)
      · cases h
      · rfl
      · exact absurd (Option.some.inj hitems) (hlist items)
      · exact absurd (Option.some.inj h) (hlist [])
  next => simp [eq_comm]

theorem orderOfJson_eq_error_iff {value? : Option Json} {fault : ShapeFault} :
    orderOfJson value? = .error fault ↔
      ∃ v, value? = some v ∧ (∀ order, v ≠ .string order) ∧ fault = .orderNotText := by
  unfold orderOfJson
  split
  next => simp
  next order => simp
  next v htext =>
    constructor
    · intro h
      cases h
      refine ⟨v, rfl, ?_, rfl⟩
      rintro order rfl
      exact htext order rfl
    · rintro ⟨-, -, -, rfl⟩
      rfl

namespace Options

/-- What the value behind `OPTIONS` is refused with: the first of these that is the case. -/
inductive FailsWith : Json → ShapeFault → Prop
  | notObject {v : Json} (h : ∀ members, v ≠ .object members) : FailsWith v .optionsNotObject
  | columnsMissing {members : List (String × Json)} (h : lookup "COLUMNS" members = none) :
      FailsWith (.object members) .columnsMissing
  | columnsNotList {members : List (String × Json)} {v : Json}
      (hv : lookup "COLUMNS" members = some v) (h : ∀ items, v ≠ .array items) :
      FailsWith (.object members) .columnsNotList
  | columnNotText {members : List (String × Json)} {items : List Json} {item : Json}
      (hitems : lookup "COLUMNS" members = some (.array items)) (hitem : item ∈ items)
      (h : ∀ name, item ≠ .string name) : FailsWith (.object members) .columnNotText
  | columnsEmpty {members : List (String × Json)} (h : lookup "COLUMNS" members = some (.array [])) :
      FailsWith (.object members) .columnsEmpty
  | orderNotText {members : List (String × Json)} {names : List String} {v : Json}
      (hcolumns : lookup "COLUMNS" members = some (.array (names.map .string)))
      (hnonempty : names ≠ []) (hv : lookup "ORDER" members = some v)
      (h : ∀ order, v ≠ .string order) : FailsWith (.object members) .orderNotText

theorem ofJson_eq_error_iff {v : Json} {fault : ShapeFault} :
    Options.ofJson v = .error fault ↔ FailsWith v fault := by
  cases v with
  | object members =>
    rw [Options.ofJson, bind_eq_error_iff, columnsOfJson_eq_error_iff]
    constructor
    · rintro ((⟨h, rfl⟩ | ⟨v, hv, h, rfl⟩ | ⟨items, hitems, ⟨item, hitem, h⟩, rfl⟩ | ⟨h, rfl⟩) |
        ⟨names, hnames, h⟩)
      · exact .columnsMissing h
      · exact .columnsNotList hv h
      · exact .columnNotText hitems hitem h
      · exact .columnsEmpty h
      · obtain ⟨hnonempty, hcolumns⟩ := columnsOfJson_eq_ok_iff.mp hnames
        rcases bind_eq_error_iff.mp h with horder | ⟨_, _, h⟩
        · obtain ⟨v, hv, htext, rfl⟩ := orderOfJson_eq_error_iff.mp horder
          exact .orderNotText hcolumns hnonempty hv htext
        · cases h
    · intro h
      cases h with
      | notObject h => exact absurd rfl (h members)
      | columnsMissing h => exact .inl (.inl ⟨h, rfl⟩)
      | columnsNotList hv h => exact .inl (.inr (.inl ⟨_, hv, h, rfl⟩))
      | columnNotText hitems hitem h =>
        exact .inl (.inr (.inr (.inl ⟨_, hitems, ⟨_, hitem, h⟩, rfl⟩)))
      | columnsEmpty h => exact .inl (.inr (.inr (.inr ⟨h, rfl⟩)))
      | orderNotText hcolumns hnonempty hv h =>
        refine .inr ⟨_, columnsOfJson_eq_ok_iff.mpr ⟨hnonempty, hcolumns⟩, ?_⟩
        exact bind_eq_error_iff.mpr (.inl (orderOfJson_eq_error_iff.mpr ⟨_, hv, h, rfl⟩))
  | _ =>
    constructor
    · intro h
      cases h
      exact .notObject fun members h => by cases h
    · intro h
      cases h
      rfl

/-- Only what the two keys with a meaning are bound to counts. -/
theorem FailsWith.congr {members members' : List (String × Json)}
    (hcolumns : lookup "COLUMNS" members = lookup "COLUMNS" members')
    (horder : lookup "ORDER" members = lookup "ORDER" members') {fault : ShapeFault}
    (h : FailsWith (.object members) fault) : FailsWith (.object members') fault := by
  cases h with
  | notObject h => exact absurd rfl (h members)
  | columnsMissing h => exact .columnsMissing (hcolumns ▸ h)
  | columnsNotList hv h => exact .columnsNotList (hcolumns ▸ hv) h
  | columnNotText hitems hitem h => exact .columnNotText (hcolumns ▸ hitems) hitem h
  | columnsEmpty h => exact .columnsEmpty (hcolumns ▸ h)
  | orderNotText hnames hnonempty hv h =>
    exact .orderNotText (hcolumns ▸ hnames) hnonempty (horder ▸ hv) h

end Options

/-! ## Queries -/

namespace Query

/-- The members of an object with the keys of a query and no others, in either order, and
what stands behind them. -/
structure Parts (members : List (String × Json)) (filter options : Json) : Prop where
  keys : (Json.keyList members).Perm ["OPTIONS", "WHERE"]
  filter : lookup "WHERE" members = some filter
  options : lookup "OPTIONS" members = some options

variable {members : List (String × Json)} {filter options : Json}

theorem Parts.ofJson_eq (h : Parts members filter options) :
    Query.ofJson (.object members) = Node.read ⟨.top, filter⟩ >>= fun f =>
      Options.ofJson options >>= fun o => .ok ⟨f, o⟩ := by
  have hlength : members.length = 2 := by
    simpa [Json.keyList] using h.keys.length_eq
  rw [Query.ofJson, hlength, h.filter, h.options, Node.read_top]
  rfl

/-- A query fails as its filter does, and if that is read, as its options do. -/
theorem Parts.ofJson_eq_error_iff (h : Parts members filter options) {fault : ShapeFault} :
    Query.ofJson (.object members) = .error fault ↔
      Node.read ⟨.top, filter⟩ = .error fault ∨
        (∃ f, Node.read ⟨.top, filter⟩ = .ok f) ∧ Options.FailsWith options fault := by
  rw [h.ofJson_eq, bind_eq_error_iff, ← Options.ofJson_eq_error_iff]
  refine or_congr_right ?_
  constructor
  · rintro ⟨f, hf, ho⟩
    rcases bind_eq_error_iff.mp ho with ho | ⟨_, _, ho⟩
    · exact ⟨⟨f, hf⟩, ho⟩
    · cases ho
  · rintro ⟨⟨f, hf⟩, ho⟩
    exact ⟨f, hf, bind_eq_error_iff.mpr (.inl ho)⟩

/-- **Where a query departs from the grammar.** An object with the keys of a query fails with
the fault of the first malformed node of its filter, depth first and from left to right, and
if there is none, with what its options fail with. Whoever asks is told of a fault of shape.
What is placed behind a malformed node, in the lists around it or in the options, does not
change the fault. A comparison with one field is in order whatever the literal, and of the
options only what the two keys with a meaning are bound to counts. -/
theorem ofJson_located [Searcher] (h : Parts members filter options) :
    (∀ fault, Query.ofJson (.object members) = .error fault ↔
      (∃ front node back, (Node.mk .top filter).all = front ++ node :: back ∧
        (∀ n ∈ front, n.fault? = none) ∧ node.fault? = some fault) ∨
      (∀ n ∈ (Node.mk .top filter).all, n.fault? = none) ∧ Options.FailsWith options fault) ∧
    (∀ fault, Query.ofJson (.object members) = .error fault →
      ∀ c : Catalog, c.query (.object members) = .error (.shape fault)) ∧
    (∀ node ∈ (Node.mk .top filter).all, node.AlikeUpTo ⟨.top, filter⟩ ⟨.top, filter⟩) ∧
    (∀ (node : Node) members' filter' options', node.fault? ≠ none →
      node.AlikeUpTo ⟨.top, filter⟩ ⟨.top, filter'⟩ → Parts members' filter' options' →
      ∃ fault, Query.ofJson (.object members) = .error fault ∧
        Query.ofJson (.object members') = .error fault) ∧
    (∀ slot operator field literal, (Node.mk slot
      (.object [(Operator.keyword operator, .object [(field, literal)])])).fault? = none) ∧
    ∀ ms ms' fault, lookup "COLUMNS" ms = lookup "COLUMNS" ms' →
      lookup "ORDER" ms = lookup "ORDER" ms' →
      (Options.FailsWith (.object ms) fault ↔ Options.FailsWith (.object ms') fault) := by
  refine ⟨?_, ?_, fun node hnode => Node.alikeUpTo_of_mem hnode, ?_, ?_, ?_⟩
  · intro fault
    rw [h.ofJson_eq_error_iff, Node.read_eq_error_iff, Node.exists_read_iff]
  · intro fault hfault c
    rw [Catalog.query, hfault]
    rfl
  · intro node members' filter' options' hnode halike h'
    obtain ⟨fault, hfault⟩ := Option.ne_none_iff_exists'.mp hnode
    obtain ⟨first, hread, hread'⟩ := halike.read_eq hfault
    exact ⟨first, h.ofJson_eq_error_iff.mpr (.inl hread),
      h'.ofJson_eq_error_iff.mpr (.inl hread')⟩
  · intro slot operator field literal
    have hkind : FilterKey.ofText? operator.keyword = some (.comparison operator) :=
      FilterKey.ofText?_eq_some_iff.mpr rfl
    simp only [Node.fault?, hkind, FilterKey.bodyFault?]
  · intro ms ms' fault hcolumns horder
    exact ⟨.congr hcolumns horder, .congr hcolumns.symm horder.symm⟩

end Query

/-- A list without operands below a negation is reported, whatever stands beside the negation
or in the options. With a filter that is in order, columns that are missing are reported. -/
theorem emptyList_located :
    let inner : Json := .object [("NOT", .object [("OR", .array [])])]
    let filter : Json := .object [("AND", .array [inner, .number (.integer 5), .object [("XX", .null)]])]
    let filter' : Json := .object [("AND", .array [inner, .null])]
    let options : Json := .object [("ORDER", .null), ("LIMIT", .null)]
    Query.ofJson (.object [("OPTIONS", .null), ("WHERE", filter)]) = .error (.noOperands .any) ∧
      Query.ofJson (.object [("OPTIONS", options), ("WHERE", filter')]) =
        .error (.noOperands .any) ∧
      Catalog.empty.query (.object [("OPTIONS", .null), ("WHERE", filter)]) =
        .error (.shape (.noOperands .any)) ∧
      Query.ofJson (.object [("OPTIONS", options), ("WHERE", .object [])]) =
        .error .columnsMissing := by
  intro inner filter filter' options
  have hparts (options filter : Json) :
      Query.Parts [("OPTIONS", options), ("WHERE", filter)] filter options :=
    ⟨.refl _, rfl, rfl⟩
  obtain ⟨hfirst, hshape, -, hstable, -, -⟩ := Query.ofJson_located (hparts .null filter)
  have hfault : Query.ofJson (.object [("OPTIONS", .null), ("WHERE", filter)]) =
      .error (.noOperands .any) := by
    refine (hfirst _).mpr (.inl ⟨[⟨.top, filter⟩, ⟨.operand .all, inner⟩],
      ⟨.negated, .object [("OR", .array [])]⟩, _, rfl, ?_, rfl⟩)
    simp [Node.fault?, filter, inner, FilterKey.ofText?, FilterKey.bodyFault?]
  have hplace : Node.AlikeUpTo ⟨.negated, .object [("OR", .array [])]⟩ ⟨.top, filter⟩
      ⟨.top, filter'⟩ :=
    @Node.AlikeUpTo.operand _ .top .all _ _ [] _ _ (.negated .here)
  obtain ⟨fault, hread, hread'⟩ := hstable _ _ _ options (by decide) hplace (hparts options filter')
  obtain rfl : fault = .noOperands .any := by
    rw [hfault] at hread
    exact (Except.error.inj hread).symm
  refine ⟨hfault, hread', hshape _ hfault _, ?_⟩
  refine ((Query.ofJson_located (hparts options (.object []))).1 _).mpr (.inr ⟨?_, ?_⟩)
  · intro n hn
    obtain rfl := List.mem_singleton.mp hn
    rfl
  · exact .columnsMissing (by decide)

end Tabular
