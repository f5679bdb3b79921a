/-!
# Sets of record positions

A set of positions is an ascending list without repetition, so two sets with
the same members are equal (`Positions.ext_mem`). The operations walk both lists
once; each is described by what its members are.
-/

namespace Tabular

/-- A finite set of natural numbers, kept in ascending order. -/
structure Positions where
  toList : List Nat
  /-- No position comes twice or out of turn. -/
  ascending : toList.Pairwise (· < ·)
  deriving DecidableEq

namespace Positions

instance : Membership Nat Positions := ⟨fun s i => i ∈ s.toList⟩

def size (s : Positions) : Nat := s.toList.length

/-! ## Walking two ascending lists -/

/-- What two ascending lists share. -/
def interList : List Nat → List Nat → List Nat
  | [], _ => []
  | a :: as, bs =>
    let later := bs.dropWhile (· < a)
    if later.head? = some a then a :: interList as later else interList as later

/-- What is in the first of two ascending lists alone. -/
def diffList : List Nat → List Nat → List Nat
  | [], _ => []
  | a :: as, bs =>
    let later := bs.dropWhile (· < a)
    if later.head? = some a then diffList as later else a :: diffList as later

/-- What is in either of two ascending lists. -/
def unionList : List Nat → List Nat → List Nat
  | [], bs => bs
  | a :: as, bs => bs.takeWhile (· < a) ++ a :: unionList as (bs.dropWhile (· ≤ a))

theorem mem_dropWhile_lt {a x : Nat} {bs : List Nat} (h : bs.Pairwise (· < ·)) :
    x ∈ bs.dropWhile (· < a) ↔ x ∈ bs ∧ a ≤ x := by
  induction bs with
  | nil => simp
  | cons b bs ih =>
    obtain ⟨hb, hbs⟩ := List.pairwise_cons.1 h
    by_cases hlt : b < a
    · simp only [List.dropWhile_cons, hlt, decide_true, if_true, ih hbs, List.mem_cons]
      constructor
      · rintro ⟨hx, ha⟩
        exact ⟨.inr hx, ha⟩
      · rintro ⟨rfl | hx, ha⟩
        · omega
        · exact ⟨hx, ha⟩
    · simp only [List.dropWhile_cons, hlt, decide_false, Bool.false_eq_true, if_false,
        List.mem_cons]
      constructor
      · rintro (rfl | hx)
        · exact ⟨.inl rfl, by omega⟩
        · exact ⟨.inr hx, by have := hb x hx; omega⟩
      · exact fun hx => hx.1

theorem mem_dropWhile_le {a x : Nat} {bs : List Nat} (h : bs.Pairwise (· < ·)) :
    x ∈ bs.dropWhile (· ≤ a) ↔ x ∈ bs ∧ a < x := by
  have : (fun b => decide (b ≤ a)) = fun b => decide (b < a + 1) := by
    funext b
    simp only [Nat.lt_add_one_iff]
  rw [this, mem_dropWhile_lt h]
  exact Iff.rfl

theorem mem_takeWhile_lt {a x : Nat} {bs : List Nat} (h : bs.Pairwise (· < ·)) :
    x ∈ bs.takeWhile (· < a) ↔ x ∈ bs ∧ x < a := by
  induction bs with
  | nil => simp
  | cons b bs ih =>
    obtain ⟨hb, hbs⟩ := List.pairwise_cons.1 h
    by_cases hlt : b < a
    · simp only [List.takeWhile_cons, hlt, decide_true, if_true, List.mem_cons, ih hbs]
      constructor
      · rintro (rfl | ⟨hx, ha⟩)
        · exact ⟨.inl rfl, hlt⟩
        · exact ⟨.inr hx, ha⟩
      · rintro ⟨rfl | hx, ha⟩
        · exact .inl rfl
        · exact .inr ⟨hx, ha⟩
    · simp only [List.takeWhile_cons, hlt, decide_false, Bool.false_eq_true, if_false,
        List.not_mem_nil, List.mem_cons, false_iff]
      rintro ⟨rfl | hx, ha⟩
      · exact hlt ha
      · have := hb x hx
        omega

theorem head?_dropWhile_lt {a : Nat} {bs : List Nat} (h : bs.Pairwise (· < ·)) :
    (bs.dropWhile (· < a)).head? = some a ↔ a ∈ bs := by
  constructor
  · intro hh
    exact ((mem_dropWhile_lt h).1 (List.mem_of_head? hh)).1
  · intro ha
    have hmem := (mem_dropWhile_lt h).2 ⟨ha, Nat.le_refl a⟩
    cases hd : bs.dropWhile (· < a) with
    | nil => simp [hd] at hmem
    | cons b r =>
      have hb : a ≤ b := ((mem_dropWhile_lt h).1 (hd ▸ List.mem_cons_self)).2
      have hpair : (b :: r).Pairwise (· < ·) := hd ▸ h.sublist (List.dropWhile_sublist _)
      rcases List.mem_cons.1 (hd ▸ hmem) with e | hr
      · simp [e]
      · have := (List.pairwise_cons.1 hpair).1 a hr
        omega

theorem interList_sublist (as bs : List Nat) : (interList as bs).Sublist as := by
  induction as generalizing bs with
  | nil => exact .slnil
  | cons a as ih =>
    simp only [interList]
    split
    · exact (ih _).cons_cons a
    · exact (ih _).cons a

theorem diffList_sublist (as bs : List Nat) : (diffList as bs).Sublist as := by
  induction as generalizing bs with
  | nil => exact .slnil
  | cons a as ih =>
    simp only [diffList]
    split
    · exact (ih _).cons a
    · exact (ih _).cons_cons a

theorem mem_interList {x : Nat} {as bs : List Nat} (ha : as.Pairwise (· < ·))
    (hb : bs.Pairwise (· < ·)) : x ∈ interList as bs ↔ x ∈ as ∧ x ∈ bs := by
  induction as generalizing bs with
  | nil => simp [interList]
  | cons a as ih =>
    obtain ⟨hhead, has⟩ := List.pairwise_cons.1 ha
    have hlater : (bs.dropWhile (· < a)).Pairwise (· < ·) :=
      hb.sublist (List.dropWhile_sublist _)
    have hrest : x ∈ interList as (bs.dropWhile (· < a)) ↔ x ∈ as ∧ x ∈ bs := by
      rw [ih has hlater, mem_dropWhile_lt hb]
      constructor
      · exact fun ⟨h, h', _⟩ => ⟨h, h'⟩
      · exact fun ⟨h, h'⟩ => ⟨h, h', Nat.le_of_lt (hhead x h)⟩
    simp only [interList, head?_dropWhile_lt hb]
    split
    next hin =>
      rw [List.mem_cons, hrest, List.mem_cons]
      constructor
      · rintro (rfl | ⟨h, h'⟩)
        · exact ⟨.inl rfl, hin⟩
        · exact ⟨.inr h, h'⟩
      · rintro ⟨rfl | h, h'⟩
        · exact .inl rfl
        · exact .inr ⟨h, h'⟩
    next hout =>
      rw [hrest, List.mem_cons]
      constructor
      · exact fun ⟨h, h'⟩ => ⟨.inr h, h'⟩
      · rintro ⟨rfl | h, h'⟩
        · exact absurd h' hout
        · exact ⟨h, h'⟩

theorem mem_diffList {x : Nat} {as bs : List Nat} (ha : as.Pairwise (· < ·))
    (hb : bs.Pairwise (· < ·)) : x ∈ diffList as bs ↔ x ∈ as ∧ x ∉ bs := by
  induction as generalizing bs with
  | nil => simp [diffList]
  | cons a as ih =>
    obtain ⟨hhead, has⟩ := List.pairwise_cons.1 ha
    have hlater : (bs.dropWhile (· < a)).Pairwise (· < ·) :=
      hb.sublist (List.dropWhile_sublist _)
    have hrest : x ∈ diffList as (bs.dropWhile (· < a)) ↔ x ∈ as ∧ x ∉ bs := by
      rw [ih has hlater, mem_dropWhile_lt hb]
      constructor
      · exact fun ⟨h, h'⟩ => ⟨h, fun hx => h' ⟨hx, Nat.le_of_lt (hhead x h)⟩⟩
      · exact fun ⟨h, h'⟩ => ⟨h, fun hx => h' hx.1⟩
    simp only [diffList, head?_dropWhile_lt hb]
    split
    next hin =>
      rw [hrest, List.mem_cons]
      constructor
      · exact fun ⟨h, h'⟩ => ⟨.inr h, h'⟩
      · rintro ⟨rfl | h, h'⟩
        · exact absurd hin h'
        · exact ⟨h, h'⟩
    next hout =>
      rw [List.mem_cons, hrest, List.mem_cons]
      constructor
      · rintro (rfl | ⟨h, h'⟩)
        · exact ⟨.inl rfl, hout⟩
        · exact ⟨.inr h, h'⟩
      · rintro ⟨rfl | h, h'⟩
        · exact .inl rfl
        · exact .inr ⟨h, h'⟩

theorem mem_unionList {x : Nat} {as bs : List Nat} (ha : as.Pairwise (· < ·))
    (hb : bs.Pairwise (· < ·)) : x ∈ unionList as bs ↔ x ∈ as ∨ x ∈ bs := by
  induction as generalizing bs with
  | nil => simp [unionList]
  | cons a as ih =>
    obtain ⟨hhead, has⟩ := List.pairwise_cons.1 ha
    have hlater : (bs.dropWhile (· ≤ a)).Pairwise (· < ·) :=
      hb.sublist (List.dropWhile_sublist _)
    rw [unionList, List.mem_append, List.mem_cons, ih has hlater, mem_takeWhile_lt hb,
      mem_dropWhile_le hb, List.mem_cons]
    constructor
    · rintro (⟨h, _⟩ | rfl | h | ⟨h, _⟩)
      · exact .inr h
      · exact .inl (.inl rfl)
      · exact .inl (.inr h)
      · exact .inr h
    · rintro ((rfl | h) | h)
      · exact .inr (.inl rfl)
      · exact .inr (.inr (.inl h))
      · rcases Nat.lt_trichotomy x a with hlt | rfl | hgt
        · exact .inl ⟨h, hlt⟩
        · exact .inr (.inl rfl)
        · exact .inr (.inr (.inr ⟨h, hgt⟩))

theorem ascending_unionList {as bs : List Nat} (ha : as.Pairwise (· < ·))
    (hb : bs.Pairwise (· < ·)) : (unionList as bs).Pairwise (· < ·) := by
  induction as generalizing bs with
  | nil => exact hb
  | cons a as ih =>
    obtain ⟨hhead, has⟩ := List.pairwise_cons.1 ha
    have hlater : (bs.dropWhile (· ≤ a)).Pairwise (· < ·) :=
      hb.sublist (List.dropWhile_sublist _)
    have hrest : ∀ x ∈ unionList as (bs.dropWhile (· ≤ a)), a < x := fun x hx => by
      rcases (mem_unionList has hlater).1 hx with h | h
      · exact hhead x h
      · exact ((mem_dropWhile_le hb).1 h).2
    rw [unionList, List.pairwise_append]
    refine ⟨hb.sublist (List.takeWhile_sublist _), List.pairwise_cons.2 ⟨hrest, ih has hlater⟩, ?_⟩
    intro x hx y hy
    have hxa := ((mem_takeWhile_lt hb).1 hx).2
    rcases List.mem_cons.1 hy with rfl | hy
    · exact hxa
    · exact Nat.lt_trans hxa (hrest y hy)

/-! ## The operations on sets -/

/-- The positions of `n` records. -/
def below (n : Nat) : Positions := ⟨List.range n, List.pairwise_lt_range⟩

def inter (s t : Positions) : Positions :=
  ⟨interList s.toList t.toList, s.ascending.sublist (interList_sublist _ _)⟩

def union (s t : Positions) : Positions :=
  ⟨unionList s.toList t.toList, ascending_unionList s.ascending t.ascending⟩

def diff (s t : Positions) : Positions :=
  ⟨diffList s.toList t.toList, s.ascending.sublist (diffList_sublist _ _)⟩

/-- The places of `true`, counted from `start`. -/
def placesFrom (start : Nat) : List Bool → List Nat
  | [] => []
  | flag :: rest =>
    if flag then start :: placesFrom (start + 1) rest else placesFrom (start + 1) rest

theorem mem_placesFrom {x start : Nat} {flags : List Bool} :
    x ∈ placesFrom start flags ↔ start ≤ x ∧ flags[x - start]? = some true := by
  induction flags generalizing start with
  | nil => simp [placesFrom]
  | cons flag rest ih =>
    rcases Nat.lt_trichotomy x start with hlt | rfl | hgt
    · have hle : ¬ start ≤ x := Nat.not_le.2 hlt
      have hge : ¬ start + 1 ≤ x := fun h => hle (Nat.le_of_succ_le h)
      have hne : x ≠ start := Nat.ne_of_lt hlt
      cases flag <;> simp [placesFrom, ih, hle, hge, hne]
    · have hge : ¬ x + 1 ≤ x := Nat.not_succ_le_self x
      cases flag <;> simp only [placesFrom, Nat.sub_self, List.getElem?_cons_zero, ih, hge,
        List.mem_cons, Bool.false_eq_true, if_false, if_true, Nat.le_refl, true_and, false_and,
        or_false, Option.some.injEq]
    · have hstep : x - start = (x - (start + 1)) + 1 := by omega
      have hge : start + 1 ≤ x := hgt
      have hle : start ≤ x := Nat.le_of_lt hgt
      have hne : x ≠ start := Nat.ne_of_gt hgt
      rw [hstep, List.getElem?_cons_succ]
      cases flag <;> simp [placesFrom, ih, hge, hle, hne]

theorem ascending_placesFrom (start : Nat) (flags : List Bool) :
    (placesFrom start flags).Pairwise (· < ·) := by
  induction flags generalizing start with
  | nil => exact .nil
  | cons flag rest ih =>
    cases flag with
    | false => exact ih (start + 1)
    | true => exact List.pairwise_cons.2 ⟨fun x hx => (mem_placesFrom.1 hx).1, ih (start + 1)⟩

/-- The set of the places of `true`. -/
def ofFlags (flags : List Bool) : Positions := ⟨placesFrom 0 flags, ascending_placesFrom 0 flags⟩

/-- The set of the numbers in a list. -/
def ofList (is : List Nat) : Positions := is.foldl (fun s i => s.union ⟨[i], by simp⟩) ⟨[], .nil⟩

theorem mem_below {n i : Nat} : i ∈ below n ↔ i < n := List.mem_range

theorem mem_inter {s t : Positions} {i : Nat} : i ∈ s.inter t ↔ i ∈ s ∧ i ∈ t :=
  mem_interList s.ascending t.ascending

theorem mem_union {s t : Positions} {i : Nat} : i ∈ s.union t ↔ i ∈ s ∨ i ∈ t :=
  mem_unionList s.ascending t.ascending

theorem mem_diff {s t : Positions} {i : Nat} : i ∈ s.diff t ↔ i ∈ s ∧ i ∉ t :=
  mem_diffList s.ascending t.ascending

theorem mem_ofFlags {flags : List Bool} {i : Nat} : i ∈ ofFlags flags ↔ flags[i]? = some true := by
  refine mem_placesFrom.trans ?_
  simp

/-- Sets with the same members are equal. -/
theorem ext_mem {s t : Positions} (h : ∀ i, i ∈ s ↔ i ∈ t) : s = t := by
  have hl : s.toList = t.toList := by
    have hperm : s.toList.Perm t.toList :=
      (List.perm_ext_iff_of_nodup (s.ascending.imp Nat.ne_of_lt)
        (t.ascending.imp Nat.ne_of_lt)).2 h
    exact hperm.eq_of_pairwise (fun a b _ _ hab hba => absurd hab (Nat.lt_asymm hba))
      s.ascending t.ascending
  cases s
  cases t
  simpa using hl

end Positions

end Tabular
