import Tabular.Proofs.Faults

/-!
# Laws of filters

Filters obey the laws of propositional logic, errors included: a law changes neither what
is selected nor which error is reported, at whatever place of a filter it is applied
(`Filter.select_rewritten`). The reason is that the outcome depends on two things only:
which leaf is the first to fail, and whether the filter holds as a formula. Both are
determined by what stands at a place, and are kept by each law (`Rewrites.firstFault_eq`,
`Rewrites.holds_iff`).

Operands can be put in another order too, but then another leaf may be the first to fail.
-/

namespace Tabular

/-! ## Places in a filter -/

/-- A place in a filter, given by what stands around it. -/
inductive Filter.Place where
  /-- The filter itself. -/
  | here
  /-- In an operand of a list, with the operands in front of it and behind it. -/
  | operand (connective : Connective) (front : List Filter) (inner : Place)
      (back : List Filter)
  /-- In what is negated. -/
  | negation (inner : Place)

/-- The filter with `f` at a place. -/
def Filter.Place.put (f : Filter) : Place → Filter
  | here => f
  | operand connective front inner back =>
    .logical connective (front ++ inner.put f :: back)
  | negation inner => .negation (inner.put f)

/-! ## The laws -/

/-- The connective that negation turns a connective into. -/
def Connective.dual : Connective → Connective
  | all => any
  | any => all

/-- The operand that changes nothing: for `AND` every record, for `OR` none. -/
def Connective.neutral : Connective → Filter
  | all => .everything
  | any => .negation .everything

namespace Filter

/-- The laws, each turning one filter into another. -/
inductive Rewrites : Filter → Filter → Prop
  | doubleNegation (f : Filter) : Rewrites (.negation (.negation f)) f
  | single (connective : Connective) (f : Filter) : Rewrites (.logical connective [f]) f
  /-- A list of the same connective is put into the list in which it stands. -/
  | splice (connective : Connective) (front inner back : List Filter) (hne : inner ≠ []) :
      Rewrites (.logical connective (front ++ .logical connective inner :: back))
        (.logical connective (front ++ inner ++ back))
  /-- A negation goes through to the operands. -/
  | deMorgan (connective : Connective) (fs : List Filter) (hne : fs ≠ []) :
      Rewrites (.negation (.logical connective fs))
        (.logical connective.dual (fs.map .negation))
  /-- An operand comes again, anywhere behind its place. -/
  | repetition (connective : Connective) (front : List Filter) (f : Filter)
      (between back : List Filter) :
      Rewrites (.logical connective (front ++ f :: (between ++ back)))
        (.logical connective (front ++ f :: (between ++ f :: back)))
  | neutral (connective : Connective) (front back : List Filter) (hne : front ++ back ≠ []) :
      Rewrites (.logical connective (front ++ back))
        (.logical connective (front ++ connective.neutral :: back))

/-! ## The leaves -/

theorem leaves_logical {connective : Connective} {fs : List Filter} (hne : fs ≠ []) :
    (logical connective fs).leaves = fs.flatMap leaves := by
  cases fs with
  | nil => exact absurd rfl hne
  | cons f fs => rw [leaves, leavesAll_eq_flatMap, List.flatMap_cons]

theorem leaves_operand (connective : Connective) (front : List Filter) (f : Filter)
    (back : List Filter) : (logical connective (front ++ f :: back)).leaves =
      front.flatMap leaves ++ (f.leaves ++ back.flatMap leaves) := by
  rw [leaves_logical (List.append_ne_nil_of_right_ne_nil _ (List.cons_ne_nil _ _)),
    List.flatMap_append, List.flatMap_cons]

theorem leaves_neutral (connective : Connective) : connective.neutral.leaves = [] := by
  cases connective <;> rfl

theorem leaves_perm {connective : Connective} {fs gs : List Filter} (h : fs.Perm gs) :
    (logical connective fs).leaves.Perm (logical connective gs).leaves := by
  cases fs with
  | nil => rw [h.symm.eq_nil]
  | cons f fs =>
    have hne : gs ≠ [] := fun hnil => List.cons_ne_nil f fs (hnil ▸ h).eq_nil
    rw [leaves_logical (List.cons_ne_nil f fs), leaves_logical hne]
    exact h.flatMap_right leaves

/-- A law keeps the leaf that fails first, whatever leaves fail. -/
theorem Rewrites.firstFault_eq {f g : Filter} (h : Rewrites f g) (fault : Leaf → Option Error) :
    f.leaves.findSome? fault = g.leaves.findSome? fault := by
  cases h with
  | doubleNegation => rfl
  | single connective f =>
    rw [leaves_logical (List.cons_ne_nil _ _), List.flatMap_singleton]
  | splice connective front inner back hne =>
    have hne' : front ++ inner ++ back ≠ [] := by simp [hne]
    rw [leaves_operand, leaves_logical hne, leaves_logical hne', List.flatMap_append,
      List.flatMap_append, List.append_assoc]
  | deMorgan connective fs hne =>
    have hne' : fs.map negation ≠ [] := by simpa using hne
    rw [leaves, leaves_logical hne, leaves_logical hne', List.flatMap_map]
    rfl
  | repetition connective front f between back =>
    -- The leaves that come again fail no earlier than where they stood before.
    rw [leaves_operand, leaves_operand, List.flatMap_append, List.flatMap_append,
      List.flatMap_cons]
    simp only [List.findSome?_append]
    cases f.leaves.findSome? fault with
    | none => simp only [Option.none_or]
    | some e => simp only [Option.some_or]
  | neutral connective front back hne =>
    rw [leaves_operand, leaves_logical hne, leaves_neutral, List.flatMap_append,
      List.nil_append]

/-! ## The formulas -/

variable {holds : Comparison → Prop}

theorem holds_negation_iff {f : Filter} : f.negation.Holds holds ↔ ¬ f.Holds holds :=
  Iff.rfl

theorem holds_everything : everything.Holds holds :=
  trivial

/-- Lists with the same operands hold alike. -/
theorem holds_logical_congr {connective : Connective} {fs gs : List Filter}
    (h : ∀ f, f ∈ fs ↔ f ∈ gs) :
    (logical connective fs).Holds holds ↔ (logical connective gs).Holds holds := by
  cases connective with
  | all => simp only [holds_all_iff, h]
  | any => simp only [holds_any_iff, h]

theorem holds_all_append {fs gs : List Filter} : (logical .all (fs ++ gs)).Holds holds ↔
    (logical .all fs).Holds holds ∧ (logical .all gs).Holds holds := by
  simp only [holds_all_iff, List.forall_mem_append]

theorem holds_any_append {fs gs : List Filter} : (logical .any (fs ++ gs)).Holds holds ↔
    (logical .any fs).Holds holds ∨ (logical .any gs).Holds holds := by
  simp only [holds_any_iff, List.mem_append, or_and_right, exists_or]

theorem holds_all_cons {f : Filter} {fs : List Filter} : (logical .all (f :: fs)).Holds holds ↔
    f.Holds holds ∧ (logical .all fs).Holds holds :=
  Iff.rfl

theorem holds_any_cons {f : Filter} {fs : List Filter} : (logical .any (f :: fs)).Holds holds ↔
    f.Holds holds ∨ (logical .any fs).Holds holds :=
  Iff.rfl

/-- A law keeps a filter as a formula. -/
theorem Rewrites.holds_iff {f g : Filter} (h : Rewrites f g) :
    f.Holds holds ↔ g.Holds holds := by
  cases h with
  | doubleNegation => rw [holds_negation_iff, holds_negation_iff, Classical.not_not]
  | single connective f =>
    cases connective with
    | all => simp only [holds_all_iff, List.mem_singleton, forall_eq]
    | any => simp only [holds_any_iff, List.mem_singleton, exists_eq_left]
  | splice connective front inner back hne =>
    cases connective with
    | all => simp only [holds_all_append, holds_all_cons, and_assoc]
    | any => simp only [holds_any_append, holds_any_cons, or_assoc]
  | deMorgan connective fs hne =>
    rw [holds_negation_iff]
    cases connective with
    | all =>
      rw [Connective.dual, holds_all_iff, holds_any_iff]
      simp only [List.mem_map, exists_exists_and_eq_and, holds_negation_iff, not_forall,
        exists_prop]
    | any =>
      rw [Connective.dual, holds_all_iff, holds_any_iff]
      simp only [List.forall_mem_map, holds_negation_iff, not_exists, not_and]
  | repetition connective front f between back =>
    refine holds_logical_congr ?_
    intro g
    simp only [List.mem_append, List.mem_cons]
    tauto
  | neutral connective front back hne =>
    cases connective with
    | all =>
      simp only [holds_all_append, holds_all_cons, Connective.neutral, holds_everything,
        true_and]
    | any =>
      simp only [holds_any_append, holds_any_cons, Connective.neutral, holds_negation_iff,
        holds_everything, not_true_eq_false, false_or]

/-! ## At a place -/

namespace Place

theorem firstFault_put {f g : Filter} {fault : Leaf → Option Error}
    (h : f.leaves.findSome? fault = g.leaves.findSome? fault) (place : Place) :
    (place.put f).leaves.findSome? fault = (place.put g).leaves.findSome? fault := by
  induction place with
  | here => exact h
  | operand connective front inner back ih =>
    rw [put, put, leaves_operand, leaves_operand]
    simp only [List.findSome?_append, ih]
  | negation inner ih => exact ih

theorem leaves_put_perm {f g : Filter} (h : f.leaves.Perm g.leaves) (place : Place) :
    (place.put f).leaves.Perm (place.put g).leaves := by
  induction place with
  | here => exact h
  | operand connective front inner back ih =>
    rw [put, put, leaves_operand, leaves_operand]
    exact (ih.append_right _).append_left _
  | negation inner ih => exact ih

theorem holds_put {f g : Filter} (h : f.Holds holds ↔ g.Holds holds) (place : Place) :
    (place.put f).Holds holds ↔ (place.put g).Holds holds := by
  induction place with
  | here => exact h
  | operand connective front inner back ih =>
    rw [put, put]
    cases connective with
    | all => simp only [holds_all_append, holds_all_cons, ih]
    | any => simp only [holds_any_append, holds_any_cons, ih]
  | negation inner ih => exact not_congr ih

end Place

/-! ## What is selected -/

section Searching

variable [Searcher] {d : Dataset} {f g : Filter}

/-- Filters that are the same formula select the same. -/
theorem found_eq_of_holds {s t : Positions} (hs : f.select d = .ok s) (ht : g.select d = .ok t)
    (hholds : ∀ holds, f.Holds holds ↔ g.Holds holds) : s = t := by
  refine Positions.ext_mem ?_
  intro i
  by_cases hi : i < d.size
  · have hleaf : ∀ c u, Comparison.select c d = .ok u →
        (i ∈ u ↔ ∃ found, c.select d = .ok found ∧ i ∈ found) := by
      intro c u hu
      simp [hu]
    rw [mem_select_iff_holds hi hleaf hs, mem_select_iff_holds hi hleaf ht]
    exact hholds _
  · have hout : ∀ (h : Filter) u, h.select d = .ok u → i ∉ u :=
      fun _ _ hu hmem => hi (lt_size_of_mem_select hu hmem)
    exact iff_of_false (hout f s hs) (hout g t ht)

/-- Filters in which the same leaf is the first to fail, and which are the same formula,
have the same outcome. -/
theorem select_eq_of_firstFault_of_holds
    (hfault : f.leaves.findSome? (Leaf.fault? d) = g.leaves.findSome? (Leaf.fault? d))
    (hholds : ∀ holds, f.Holds holds ↔ g.Holds holds) : f.select d = g.select d := by
  refine eq_of_faultOf_eq ?_ ?_
  · rw [faultOf_select, faultOf_select, hfault]
  · intro s t hs ht
    exact found_eq_of_holds hs ht hholds

theorem select_ok_of_perm_of_holds {found : Positions} (h : f.select d = .ok found)
    (hleaves : f.leaves.Perm g.leaves) (hholds : ∀ holds, f.Holds holds ↔ g.Holds holds) :
    g.select d = .ok found := by
  have hnone : f.leaves.findSome? (Leaf.fault? d) = none := by
    rw [← faultOf_select, h]
    rfl
  have hok : ∃ s, g.select d = .ok s := by
    rw [← faultOf_eq_none_iff, faultOf_select, List.findSome?_eq_none_iff]
    intro leaf hleaf
    exact List.findSome?_eq_none_iff.mp hnone leaf (hleaves.mem_iff.mpr hleaf)
  obtain ⟨s, hs⟩ := hok
  rw [found_eq_of_holds h hs hholds]
  exact hs

/-- **The laws of filters.** Applied at any place of a filter, a law changes neither what is
selected nor the error. Operands in another order select the same and fail in the same
cases, if not always with the same error. -/
theorem select_rewritten (d : Dataset) (place : Place) :
    (∀ f g, Rewrites f g → (place.put f).select d = (place.put g).select d) ∧
    ∀ connective (fs gs : List Filter), fs.Perm gs →
      (∀ found, (place.put (.logical connective fs)).select d = .ok found ↔
        (place.put (.logical connective gs)).select d = .ok found) ∧
      ((∃ e, (place.put (.logical connective fs)).select d = .error e) ↔
        ∃ e, (place.put (.logical connective gs)).select d = .error e) := by
  refine ⟨?_, ?_⟩
  · intro f g h
    exact select_eq_of_firstFault_of_holds (place.firstFault_put (h.firstFault_eq _))
      fun _ => place.holds_put h.holds_iff
  · intro connective fs gs hperm
    have hok : ∀ found, (place.put (.logical connective fs)).select d = .ok found ↔
        (place.put (.logical connective gs)).select d = .ok found := by
      intro found
      have hleaves : (place.put (.logical connective fs)).leaves.Perm
          (place.put (.logical connective gs)).leaves := place.leaves_put_perm (leaves_perm hperm)
      have hholds : ∀ holds, (place.put (.logical connective fs)).Holds holds ↔
          (place.put (.logical connective gs)).Holds holds :=
        fun _ => place.holds_put (holds_logical_congr fun _ => hperm.mem_iff)
      constructor
      · intro h
        exact select_ok_of_perm_of_holds h hleaves hholds
      · intro h
        exact select_ok_of_perm_of_holds h hleaves.symm fun holds => (hholds holds).symm
    exact ⟨hok, exists_error_iff_of_ok_iff hok⟩

end Searching

end Filter

/-- Below a negation in a list, the negation of the sample filter goes through to its
operands. Two operands that both fail fail in either order, each time as the first. -/
theorem sampleFilter_rewritten :
    let place : Filter.Place := .operand .any [.negation .everything] (.negation .here) []
    let inward : Filter := .logical .any
      [.negation (.negation (.comparison ⟨"rooms_name", .is, .string "*31*"⟩)),
        .negation (.comparison ⟨"rooms_seats", .lt, .number (.integer 100)⟩)]
    let unknown : Filter := .comparison ⟨"rooms_area", .eq, .number (.integer 1)⟩
    let listless : Filter := .logical .any []
    Filter.Rewrites sampleFilter inward ∧
      (place.put inward).select sampleRooms = .ok (.ofList [0]) ∧
      [unknown, listless].Perm [listless, unknown] ∧
      (place.put (.logical .all [unknown, listless])).select sampleRooms =
        .error (.unknownField "rooms_area" "rooms") ∧
      (∃ e, (place.put (.logical .all [listless, unknown])).select sampleRooms = .error e) ∧
      (place.put (.logical .all [listless, unknown])).select sampleRooms =
        .error (.shape (.noOperands .any)) := by
  intro place inward unknown listless
  obtain ⟨hlaws, horder⟩ := Filter.select_rewritten sampleRooms place
  have hlaw : Filter.Rewrites sampleFilter inward := .deMorgan .all _ (List.cons_ne_nil _ _)
  have hfound : (place.put sampleFilter).select sampleRooms = .ok (.ofList [0]) := by
    decide +kernel
  have hswap : [unknown, listless].Perm [listless, unknown] := .swap listless unknown []
  have herror : (place.put (.logical .all [unknown, listless])).select sampleRooms =
      .error (.unknownField "rooms_area" "rooms") := by decide +kernel
  obtain ⟨-, hfails⟩ := horder .all _ _ hswap
  refine ⟨hlaw, (hlaws _ _ hlaw).symm.trans hfound, hswap, herror, hfails.mp ⟨_, herror⟩, ?_⟩
  decide +kernel

end Tabular
