import Mathlib.Data.List.Forall2

/-!
# Steps that can fail

What a sequence of steps answers, read off the answers of its steps: it succeeds
iff every step does, and otherwise the first step that fails decides the error.
`mapM` over a list is the case that the evaluation of queries is made of, so the
error of a list is the error of its first item that has one.
-/

namespace Tabular

variable {ε ε' α β : Type}

theorem bind_eq_ok_iff {x : Except ε α} {f : α → Except ε β} {b : β} :
    x >>= f = .ok b ↔ ∃ a, x = .ok a ∧ f a = .ok b := by
  cases x with
  | error e =>
    constructor
    · intro h
      cases h
    · rintro ⟨a, h, -⟩
      cases h
  | ok a =>
    constructor
    · intro h
      exact ⟨a, rfl, h⟩
    · rintro ⟨a', h, hf⟩
      cases h
      exact hf

theorem bind_eq_error_iff {x : Except ε α} {f : α → Except ε β} {e : ε} :
    x >>= f = .error e ↔ x = .error e ∨ ∃ a, x = .ok a ∧ f a = .error e := by
  cases x with
  | error e' =>
    constructor
    · intro h
      cases h
      exact .inl rfl
    · rintro (h | ⟨a, h, -⟩)
      · cases h
        rfl
      · cases h
  | ok a =>
    constructor
    · intro h
      exact .inr ⟨a, rfl, h⟩
    · rintro (h | ⟨a', h, hf⟩)
      · cases h
      · cases h
        exact hf

theorem map_eq_ok_iff {x : Except ε α} {f : α → β} {b : β} :
    x.map f = .ok b ↔ ∃ a, x = .ok a ∧ f a = b := by
  cases x with
  | error e => simp [Except.map]
  | ok a => simp [Except.map]

theorem mapError_eq_ok_iff {x : Except ε α} {f : ε → ε'} {a : α} :
    x.mapError f = .ok a ↔ x = .ok a := by
  cases x with
  | error e => simp [Except.mapError]
  | ok a' => simp [Except.mapError]

theorem mapError_eq_error_iff {x : Except ε α} {f : ε → ε'} {e' : ε'} :
    x.mapError f = .error e' ↔ ∃ e, x = .error e ∧ f e = e' := by
  cases x with
  | error e => simp [Except.mapError]
  | ok a => simp [Except.mapError]

theorem mapM_cons_except {f : α → Except ε β} {x : α} {xs : List α} :
    (x :: xs).mapM f = f x >>= fun y => xs.mapM f >>= fun ys => .ok (y :: ys) :=
  List.mapM_cons

theorem mapM_congr_except {f g : α → Except ε β} {xs : List α} (h : ∀ x ∈ xs, f x = g x) :
    xs.mapM f = xs.mapM g := by
  induction xs with
  | nil => rfl
  | cons x xs ih =>
    obtain ⟨hx, hxs⟩ := List.forall_mem_cons.mp h
    rw [mapM_cons_except, mapM_cons_except, hx, ih hxs]

/-- A list of steps succeeds with the answers of its steps. -/
theorem mapM_eq_ok_iff {f : α → Except ε β} {xs : List α} {ys : List β} :
    xs.mapM f = .ok ys ↔ List.Forall₂ (fun x y => f x = .ok y) xs ys := by
  induction xs generalizing ys with
  | nil =>
    rw [List.forall₂_nil_left_iff]
    show Except.ok [] = Except.ok ys ↔ ys = []
    rw [Except.ok.injEq, eq_comm]
  | cons x xs ih =>
    rw [mapM_cons_except, bind_eq_ok_iff, List.forall₂_cons_left_iff]
    constructor
    · rintro ⟨y, hy, h⟩
      obtain ⟨ys', hys, heq⟩ := bind_eq_ok_iff.mp h
      cases heq
      exact ⟨y, ys', hy, ih.mp hys, rfl⟩
    · rintro ⟨y, ys', hy, hys, rfl⟩
      exact ⟨y, hy, bind_eq_ok_iff.mpr ⟨ys', ih.mpr hys, rfl⟩⟩

theorem mapM_eq_some_iff {f : α → Option β} {xs : List α} {ys : List β} :
    xs.mapM f = some ys ↔ List.Forall₂ (fun x y => f x = some y) xs ys := by
  induction xs generalizing ys with
  | nil => simp [eq_comm]
  | cons x xs ih =>
    simp only [List.mapM_cons, List.forall₂_cons_left_iff, ← ih, Option.bind_eq_bind,
      Option.bind_eq_some_iff, Option.pure_def, Option.some.injEq]
    constructor
    · rintro ⟨y, hy, ys', hys, rfl⟩
      exact ⟨y, ys', hy, hys, rfl⟩
    · rintro ⟨y, ys', hy, hys, rfl⟩
      exact ⟨y, hy, ys', hys, rfl⟩

/-- A list of steps fails with the error of its first step that has one. -/
theorem mapM_eq_error_iff {f : α → Except ε β} {xs : List α} {e : ε} :
    xs.mapM f = .error e ↔
      ∃ front x back, xs = front ++ x :: back ∧ (∀ y ∈ front, ∃ z, f y = .ok z) ∧
        f x = .error e := by
  induction xs with
  | nil =>
    constructor
    · intro h
      cases h
    · rintro ⟨front, x, back, h, -⟩
      simp at h
  | cons x xs ih =>
    rw [mapM_cons_except, bind_eq_error_iff]
    constructor
    · rintro (hx | ⟨y, hy, h⟩)
      · exact ⟨[], x, xs, rfl, by simp, hx⟩
      -- The first step succeeds, so it comes in front of the one that fails in the rest.
      · rcases bind_eq_error_iff.mp h with h | ⟨ys, -, h⟩
        · obtain ⟨front, z, back, rfl, hfront, hz⟩ := ih.mp h
          refine ⟨x :: front, z, back, rfl, ?_, hz⟩
          intro w hw
          rcases List.mem_cons.mp hw with rfl | hw
          · exact ⟨y, hy⟩
          · exact hfront w hw
        · cases h
    · rintro ⟨front, z, back, heq, hfront, hz⟩
      cases front with
      | nil =>
        cases heq
        exact .inl hz
      | cons w front =>
        cases heq
        obtain ⟨y, hy⟩ := hfront x List.mem_cons_self
        refine .inr ⟨y, hy, bind_eq_error_iff.mpr (.inl (ih.mpr ⟨front, z, back, rfl, ?_, hz⟩))⟩
        intro v hv
        exact hfront v (List.mem_cons_of_mem _ hv)

/-! ## What a computation fails with -/

/-- The error of a computation that fails. -/
def faultOf : Except ε α → Option ε
  | .error e => some e
  | .ok _ => none

theorem faultOf_eq_some_iff {x : Except ε α} {e : ε} : faultOf x = some e ↔ x = .error e := by
  cases x with
  | error e' => simp [faultOf]
  | ok a => simp [faultOf]

theorem faultOf_eq_none_iff {x : Except ε α} : faultOf x = none ↔ ∃ a, x = .ok a := by
  cases x with
  | error e => simp [faultOf]
  | ok a => simp [faultOf]

/-- Computations that fail alike, and answer the same where both answer, are equal. -/
theorem eq_of_faultOf_eq {x y : Except ε α} (hfault : faultOf x = faultOf y)
    (hanswer : ∀ a b, x = .ok a → y = .ok b → a = b) : x = y := by
  cases x with
  | error e => exact (faultOf_eq_some_iff.mp hfault.symm).symm
  | ok a =>
    obtain ⟨b, hb⟩ := faultOf_eq_none_iff.mp hfault.symm
    rw [hb, hanswer a b rfl hb]

/-- What answers the same or not at all fails alike, if not with the same error. -/
theorem exists_error_iff_of_ok_iff {x y : Except ε α} (h : ∀ a, x = .ok a ↔ y = .ok a) :
    (∃ e, x = .error e) ↔ ∃ e, y = .error e := by
  cases x with
  | error e =>
    cases y with
    | error e' => exact iff_of_true ⟨e, rfl⟩ ⟨e', rfl⟩
    | ok a => cases (h a).mpr rfl
  | ok a => rw [(h a).mp rfl]

/-- Where the second step fails alike whatever the first answers, the first fault
of the two is the fault. -/
theorem faultOf_bind {x : Except ε α} {f : α → Except ε β} {y : Option ε}
    (h : ∀ a, faultOf (f a) = y) : faultOf (x >>= f) = (faultOf x).or y := by
  cases x with
  | error e => rfl
  | ok a => exact h a

theorem faultOf_mapM (f : α → Except ε β) (xs : List α) :
    faultOf (xs.mapM f) = xs.findSome? fun x => faultOf (f x) := by
  induction xs with
  | nil => rfl
  | cons x xs ih =>
    rw [mapM_cons_except, faultOf_bind (y := faultOf (xs.mapM f)), ih, List.findSome?_cons]
    · cases faultOf (f x) <;> rfl
    · intro y
      rw [faultOf_bind (y := none) fun _ => rfl, Option.or_none]

theorem exists_mapM_eq_ok_iff {f : α → Except ε β} {xs : List α} :
    (∃ ys, xs.mapM f = .ok ys) ↔ ∀ x ∈ xs, ∃ y, f x = .ok y := by
  rw [← faultOf_eq_none_iff, faultOf_mapM, List.findSome?_eq_none_iff]
  simp only [faultOf_eq_none_iff]

/-- What is found first in some lists in turn is found in the first list that has it. -/
theorem findSome?_flatMap {γ : Type} {f : α → List β} {g : β → Option γ} {h : α → Option γ}
    {xs : List α} (hf : ∀ x ∈ xs, h x = (f x).findSome? g) :
    xs.findSome? h = (xs.flatMap f).findSome? g := by
  induction xs with
  | nil => rfl
  | cons x xs ih =>
    obtain ⟨hx, hxs⟩ := List.forall_mem_cons.mp hf
    rw [List.flatMap_cons, List.findSome?_append, List.findSome?_cons, hx, ih hxs]
    cases (f x).findSome? g <;> rfl

/-! ## Lists that agree item by item -/

theorem exists_of_mem_forall₂ {R : α → β → Prop} {xs : List α} {ys : List β}
    (h : List.Forall₂ R xs ys) {y : β} (hy : y ∈ ys) : ∃ x ∈ xs, R x y := by
  induction h with
  | nil => cases hy
  | cons hxy _ ih =>
    rcases List.mem_cons.mp hy with rfl | hy
    · exact ⟨_, List.mem_cons_self, hxy⟩
    · obtain ⟨x, hx, hR⟩ := ih hy
      exact ⟨x, List.mem_cons_of_mem _ hx, hR⟩

theorem getElem?_of_forall₂ {R : α → β → Prop} {xs : List α} {ys : List β}
    (h : List.Forall₂ R xs ys) {i : Nat} {x : α} (hx : xs[i]? = some x) :
    ∃ y, ys[i]? = some y ∧ R x y := by
  induction h generalizing i with
  | nil => cases hx
  | @cons x' y' xs ys hxy _ ih =>
    cases i with
    | zero =>
      cases hx
      exact ⟨y', rfl, hxy⟩
    | succ i => exact ih hx

theorem forall_mem_iff_of_forall₂ {R : α → β → Prop} {xs : List α} {ys : List β}
    {P : α → Prop} {Q : β → Prop} (h : List.Forall₂ R xs ys)
    (hPQ : ∀ x ∈ xs, ∀ y, R x y → (Q y ↔ P x)) : (∀ y ∈ ys, Q y) ↔ ∀ x ∈ xs, P x := by
  induction h with
  | nil => simp
  | cons hxy _ ih =>
    rw [List.forall_mem_cons, List.forall_mem_cons, hPQ _ List.mem_cons_self _ hxy,
      ih fun x hx => hPQ x (List.mem_cons_of_mem _ hx)]

theorem exists_mem_iff_of_forall₂ {R : α → β → Prop} {xs : List α} {ys : List β}
    {P : α → Prop} {Q : β → Prop} (h : List.Forall₂ R xs ys)
    (hPQ : ∀ x ∈ xs, ∀ y, R x y → (Q y ↔ P x)) : (∃ y ∈ ys, Q y) ↔ ∃ x ∈ xs, P x := by
  induction h with
  | nil => simp
  | cons hxy _ ih =>
    rw [List.exists_mem_cons_iff, List.exists_mem_cons_iff, hPQ _ List.mem_cons_self _ hxy,
      ih fun x hx => hPQ x (List.mem_cons_of_mem _ hx)]

end Tabular
