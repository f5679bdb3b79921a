import Tabular.Proofs.StringText

/-!
# Lists and objects read back

What the writer puts between the tokens are blanks, which the reader skips. So a list
is read item by item and an object member by member as they were written, if each item
and each value reads back by itself with blanks in front of it and whatever may follow
(`Reads`). The arrangement of the text does not matter.
-/

namespace Tabular.Json

namespace Reader

/-! ## Blanks -/

/-- Characters that may stand between tokens. -/
def Blanks (b : List Char) : Prop := ∀ c ∈ b, isBlank c = true

theorem Blanks.nil : Blanks [] := by
  intro c hc
  cases hc

theorem skip_append {b : List Char} (hb : Blanks b) (s : List Char) : skip (b ++ s) = skip s :=
  List.dropWhile_append_of_pos hb

theorem skip_cons {c : Char} (hc : isBlank c = false) (s : List Char) :
    skip (c :: s) = c :: s := by
  simp [skip, hc]

theorem skip_blanks {b : List Char} (hb : Blanks b) : skip b = [] := by
  rw [← List.append_nil b, skip_append hb]
  rfl

/-- Behind blanks the text goes on with the token that stands there. -/
theorem skip_token {b : List Char} (hb : Blanks b) {c : Char} (hc : isBlank c = false)
    (s : List Char) : skip (b ++ c :: s) = c :: s := by
  rw [skip_append hb, skip_cons hc]

theorem not_blank_of_number {c : Char} (hc : c = '-' ∨ c.isDigit = true) :
    isBlank c = false ∧ c ≠ ']' := by
  rcases hc with rfl | hc
  · decide
  · refine ⟨?_, ?_⟩
    · rw [Bool.eq_false_iff]
      intro hblank
      simp only [isBlank, Bool.or_eq_true, decide_eq_true_eq] at hblank
      rcases hblank with ((rfl | rfl) | rfl) | rfl <;> cases hc
    · rintro rfl
      cases hc

/-- Neither blanks nor what separates values goes on with a number. -/
theorem closed_append {b : List Char} (hb : Blanks b) {s : List Char} (hs : Closed s) :
    Closed (b ++ s) := by
  cases b with
  | nil => exact hs
  | cons c b =>
    intro d hd
    cases hd
    have hc : isBlank c = true := hb c List.mem_cons_self
    simp only [isBlank, Bool.or_eq_true, decide_eq_true_eq] at hc
    rcases hc with ((rfl | rfl) | rfl) | rfl <;> decide

theorem closed_cons {c : Char} (hc : c ∈ [',', ']', '}', '\n']) (s : List Char) :
    Closed (c :: s) := by
  intro d hd
  cases hd
  simp only [List.mem_cons, List.not_mem_nil, or_false] at hc
  rcases hc with rfl | rfl | rfl | rfl <;> decide

theorem closed_nil : Closed [] := by
  intro c hc
  cases hc

end Reader

/-! ## Layouts -/

/-- A layout that puts nothing but blanks between the tokens. -/
structure Layout.Blank (l : Layout) : Prop where
  line : ∀ depth, Reader.Blanks (l.line depth)
  colon : ∃ b, Reader.Blanks b ∧ l.colon = ':' :: b

theorem Layout.compact_blank : Layout.compact.Blank where
  line _ := .nil
  colon := ⟨[], .nil, rfl⟩

theorem Layout.pretty_blank : Layout.pretty.Blank where
  line depth := by
    intro c hc
    rcases List.mem_cons.mp hc with rfl | hc
    · rfl
    · rw [(List.mem_replicate.mp hc).2]
      rfl
  colon := by
    refine ⟨[' '], ?_, rfl⟩
    intro c hc
    rw [List.mem_singleton.mp hc]
    rfl

theorem quoted_append (t : String) (s : List Char) :
    quoted t ++ s = '"' :: (t.toList.flatMap escape ++ '"' :: s) := by
  rw [quoted, List.cons_append, List.append_assoc, List.singleton_append]

namespace Reader

/-! ## Values that read back -/

/-- A reader reads a text as a value, whatever blanks stand in front of the text and
whatever follows it. The text does not start like the end of a list. -/
structure Reads {α : Type} (r : Reader α) (text : List Char) (value : α) : Prop where
  takes : ∀ b rest, Blanks b → Closed rest → Takes r (b ++ (text ++ rest)) value rest
  start : ∃ c t, text = c :: t ∧ isBlank c = false ∧ c ≠ ']'

variable {inner : Option (Reader Json)}

theorem valueWith_string {s r rest : List Char} {t : String} (hs : skip s = '"' :: r)
    (h : Takes characters r t rest) : Takes (valueWith inner) s (.string t) rest := by
  obtain ⟨hlt, h⟩ := h
  refine ⟨Nat.lt_trans hlt (length_lt_of_skip_eq hs), ?_⟩
  unfold valueWith
  split
  next heq =>
    rw [hs] at heq
    cases heq
  next c u heq =>
    rw [hs] at heq
    cases heq
    simp [h, Except.map, Taken.map, Taken.widen]

theorem valueWith_number {c : Char} {s r rest : List Char} {n : Number} (hs : skip s = c :: r)
    (hc : c = '-' ∨ c.isDigit = true) (h : Takes number (c :: r) n rest) :
    Takes (valueWith inner) s (.number n) rest := by
  obtain ⟨hlt, h⟩ := h
  have hle := length_skip_le s
  rw [hs] at hle
  refine ⟨Nat.lt_of_lt_of_le hlt hle, ?_⟩
  -- No word, text, list or object starts with a sign or a digit.
  have hne : c ≠ 'n' ∧ c ≠ 't' ∧ c ≠ 'f' ∧ c ≠ '"' := by
    refine ⟨?_, ?_, ?_, ?_⟩
    all_goals
      rintro rfl
      revert hc
      decide
  unfold valueWith
  split
  next heq =>
    rw [hs] at heq
    cases heq
  next c u heq =>
    rw [hs] at heq
    cases heq
    simp [h, hne, hc, Except.map, Taken.map, Taken.widen]

theorem valueWith_null {s rest : List Char} (hs : skip s = 'n' :: 'u' :: 'l' :: 'l' :: rest) :
    Takes (valueWith inner) s .null rest := by
  have hle := length_skip_le s
  rw [hs] at hle
  refine ⟨by simp only [List.length_cons] at hle; omega, ?_⟩
  unfold valueWith
  split
  next heq =>
    rw [hs] at heq
    cases heq
  next c u heq =>
    rw [hs] at heq
    cases heq
    simp [word, Except.map]

/-! ## Members -/

section Lists

variable {α : Type} {reader : Reader α} {whole : List Char}

theorem takes_member {key : String} {v : α} {s r t u rest : List Char} (hs : skip s = '"' :: r)
    (hkey : Takes characters r key t) (ht : skip t = ':' :: u) (h : Takes reader u v rest) :
    Takes (member reader) s (key, v) rest := by
  obtain ⟨hkey, hread⟩ := hkey
  obtain ⟨hlt, h⟩ := h
  have hshort := length_lt_of_skip_eq hs
  have hcolon := length_lt_of_skip_eq ht
  refine ⟨by omega, ?_⟩
  unfold member
  split
  next r heq =>
    rw [hs] at heq
    cases heq
    simp only [hread]
    split
    next w heq =>
      rw [ht] at heq
      cases heq
      simp [h, Except.map]
    next heq =>
      rw [ht] at heq
      cases heq
    next hne heq =>
      rw [ht] at heq
      cases heq
      exact (hne rfl).elim
  next heq =>
    rw [hs] at heq
    cases heq
  next hne heq =>
    rw [hs] at heq
    cases heq
    exact (hne rfl).elim

/-- What follows a value in an object: the next member or the end. -/
theorem closed_writeMembers (l : Layout) (depth : Nat) (ms : List (String × Json))
    {e : List Char} (he : Blanks e) (rest : List Char) :
    Closed (writeMembers l depth ms ++ (e ++ '}' :: rest)) := by
  cases ms with
  | nil => exact closed_append he (closed_cons (by decide) rest)
  | cons n ns =>
    rw [writeMembers, List.cons_append]
    exact closed_cons (by decide) _

/-- A member that was written reads back. -/
theorem takes_member_text {l : Layout} (hl : l.Blank) {depth : Nat} {reader : Reader Json}
    {m : String × Json} (hreads : Reads reader (write l depth m.2) m.2) {b t : List Char}
    (hb : Blanks b) (ht : Closed t) :
    Takes (member reader) (b ++ (quoted m.1 ++ (l.colon ++ (write l depth m.2 ++ t)))) m t := by
  obtain ⟨c, hc, hcolon⟩ := hl.colon
  rw [quoted_append, hcolon, List.cons_append]
  apply takes_member (skip_token hb rfl _) (takes_characters m.1 _) (skip_cons rfl _)
  exact hreads.takes c t hc ht

/-- The last round of an object: the brace behind the member. -/
theorem membersFrom_end (read : List (String × α)) {m : String × α} {s t rest : List Char}
    {h : s.length ≤ whole.length} (hm : Takes (member reader) s m t)
    (ht : skip t = '}' :: rest) :
    ∃ hlt, membersFrom reader whole read s h = .ok ⟨put m.1 m.2 read, rest, hlt⟩ := by
  obtain ⟨hlt, hm⟩ := hm
  have hrest := length_lt_of_skip_eq ht
  refine ⟨by omega, ?_⟩
  rw [membersFrom]
  simp only [hm]
  split
  next heq =>
    rw [ht] at heq
    cases heq
    rfl
  next heq =>
    rw [ht] at heq
    cases heq
  next heq =>
    rw [ht] at heq
    cases heq
  next hne _ heq =>
    rw [ht] at heq
    cases heq
    exact (hne rfl).elim

/-- Any other round: a comma behind the member, and no brace behind the comma. -/
theorem membersFrom_more (read : List (String × α)) {m : String × α} {s t r : List Char}
    {h : s.length ≤ whole.length} (hm : Takes (member reader) s m t)
    (ht : skip t = ',' :: r) (hr : ∀ u, skip r ≠ '}' :: u) :
    ∃ h', membersFrom reader whole read s h = membersFrom reader whole (put m.1 m.2 read) r h' := by
  obtain ⟨hlt, hm⟩ := hm
  have hrest := length_lt_of_skip_eq ht
  refine ⟨by omega, ?_⟩
  rw [membersFrom]
  simp only [hm]
  split
  next heq =>
    rw [ht] at heq
    cases heq
  next heq =>
    rw [ht] at heq
    cases heq
    split
    next u heq => exact absurd heq (hr u)
    next => rfl
  next heq =>
    rw [ht] at heq
    cases heq
  next _ hne heq =>
    rw [ht] at heq
    cases heq
    exact (hne rfl).elim

/-- Members that were written are bound in turn, behind those already read. -/
theorem membersFrom_text {l : Layout} (hl : l.Blank) {depth : Nat} {reader : Reader Json}
    {m : String × Json} {ms : List (String × Json)}
    (hreads : ∀ n ∈ m :: ms, Reads reader (write l depth n.2) n.2)
    {d : Dictionary Json} {b e s rest : List Char} (hb : Blanks b) (he : Blanks e)
    (hs : s = b ++ (quoted m.1 ++ (l.colon ++ (write l depth m.2 ++
      (writeMembers l depth ms ++ (e ++ '}' :: rest))))))
    (h : s.length ≤ whole.length) :
    ∃ hlt, membersFrom reader whole d.entries s h =
      .ok ⟨((m :: ms).foldl (fun d n => d.insert n.1 n.2) d).entries, rest, hlt⟩ := by
  -- By the members behind the first: the object ends, or goes on with the next one.
  induction ms generalizing m d b s with
  | nil =>
    have hm := takes_member_text hl (hreads m List.mem_cons_self) hb
      (closed_writeMembers l depth [] he rest)
    rw [← hs] at hm
    exact membersFrom_end d.entries hm (skip_token he rfl rest)
  | cons n ns ih =>
    have hm := takes_member_text hl (hreads m List.mem_cons_self) hb
      (closed_writeMembers l depth (n :: ns) he rest)
    rw [← hs, writeMembers, List.cons_append] at hm
    simp only [List.append_assoc] at hm
    obtain ⟨h', hmore⟩ := membersFrom_more d.entries (h := h) hm (skip_cons rfl _) (by
      intro u
      rw [quoted_append, skip_token (hl.line depth) rfl]
      rintro ⟨⟩)
    rw [hmore]
    exact ih (fun k hk => hreads k (List.mem_cons_of_mem _ hk)) (d := d.insert m.1 m.2)
      (hl.line depth) rfl h'

/-- The empty object. -/
theorem takes_members_nil {s rest : List Char} (hs : skip s = '}' :: rest) :
    Takes (members reader) s [] rest := by
  refine ⟨length_lt_of_skip_eq hs, ?_⟩
  unfold members
  split
  next heq =>
    rw [hs] at heq
    cases heq
    rfl
  next heq =>
    rw [hs] at heq
    cases heq
  next hne _ => exact (hne _ hs).elim

theorem members_eq {s r : List Char} {c : Char} (hs : skip s = c :: r) (hc : c ≠ '}') :
    members reader s = membersFrom reader s [] s (Nat.le_refl _) := by
  unfold members
  split
  next heq =>
    rw [hs] at heq
    cases heq
    exact absurd rfl hc
  next heq =>
    rw [hs] at heq
    cases heq
  next => rfl

/-- **An object reads back**: what stands behind its brace binds its members in turn. -/
theorem takes_members_text {l : Layout} (hl : l.Blank) (depth : Nat) (reader : Reader Json)
    (ms : List (String × Json))
    (hreads : ∀ m ∈ ms, Reads reader (write l (depth + 1) m.2) m.2) :
    ∃ t, write l depth (.object ms) = '{' :: t ∧
      ∀ rest, Takes (members reader) (t ++ rest) (Dictionary.ofList ms).entries rest := by
  cases ms with
  | nil =>
    refine ⟨['}'], by rw [write], ?_⟩
    intro rest
    exact ⟨Nat.lt_succ_self _, rfl⟩
  | cons m ms =>
    refine ⟨_, by rw [write], ?_⟩
    intro rest
    simp only [List.append_assoc, List.singleton_append]
    have hstart := skip_token (hl.line (depth + 1)) (c := '"') rfl
    rw [Takes, members_eq (by rw [quoted_append]; exact hstart _) (by decide)]
    exact membersFrom_text hl hreads (d := .empty) (hl.line (depth + 1)) (hl.line depth) rfl _

/-! ## Items -/

/-- What follows an item in a list: the next item or the end. -/
theorem closed_writeItems (l : Layout) (depth : Nat) (js : List Json)
    {e : List Char} (he : Blanks e) (rest : List Char) :
    Closed (writeItems l depth js ++ (e ++ ']' :: rest)) := by
  cases js with
  | nil => exact closed_append he (closed_cons (by decide) rest)
  | cons j js =>
    rw [writeItems, List.cons_append]
    exact closed_cons (by decide) _

/-- The last round of a list: the bracket behind the item. -/
theorem itemsFrom_end (read : List α) {v : α} {s t rest : List Char}
    {h : s.length ≤ whole.length} (hv : Takes reader s v t) (ht : skip t = ']' :: rest) :
    ∃ hlt, itemsFrom reader whole read s h = .ok ⟨(v :: read).reverse, rest, hlt⟩ := by
  obtain ⟨hlt, hv⟩ := hv
  have hrest := length_lt_of_skip_eq ht
  refine ⟨by omega, ?_⟩
  rw [itemsFrom]
  simp only [hv]
  split
  next heq =>
    rw [ht] at heq
    cases heq
    rfl
  next heq =>
    rw [ht] at heq
    cases heq
  next heq =>
    rw [ht] at heq
    cases heq
  next hne _ heq =>
    rw [ht] at heq
    cases heq
    exact (hne rfl).elim

/-- Any other round: a comma behind the item, and no bracket behind the comma. -/
theorem itemsFrom_more (read : List α) {v : α} {s t r : List Char}
    {h : s.length ≤ whole.length} (hv : Takes reader s v t) (ht : skip t = ',' :: r)
    (hr : ∀ u, skip r ≠ ']' :: u) :
    ∃ h', itemsFrom reader whole read s h = itemsFrom reader whole (v :: read) r h' := by
  obtain ⟨hlt, hv⟩ := hv
  have hrest := length_lt_of_skip_eq ht
  refine ⟨by omega, ?_⟩
  rw [itemsFrom]
  simp only [hv]
  split
  next heq =>
    rw [ht] at heq
    cases heq
  next heq =>
    rw [ht] at heq
    cases heq
    split
    next u heq => exact absurd heq (hr u)
    next => rfl
  next heq =>
    rw [ht] at heq
    cases heq
  next _ hne heq =>
    rw [ht] at heq
    cases heq
    exact (hne rfl).elim

variable {β : Type} {f : β → Json} {g : β → α}

/-- Items that were written are read in turn, behind those already read. -/
theorem itemsFrom_text {l : Layout} (hl : l.Blank) {depth : Nat} {x : β} {xs : List β}
    (hreads : ∀ y ∈ x :: xs, Reads reader (write l depth (f y)) (g y))
    (read : List α) {b e s rest : List Char} (hb : Blanks b) (he : Blanks e)
    (hs : s = b ++ (write l depth (f x) ++ (writeItems l depth (xs.map f) ++ (e ++ ']' :: rest))))
    (h : s.length ≤ whole.length) :
    ∃ hlt, itemsFrom reader whole read s h =
      .ok ⟨read.reverse ++ (x :: xs).map g, rest, hlt⟩ := by
  -- By the items behind the first: the list ends, or goes on with the next one.
  induction xs generalizing x read b s with
  | nil =>
    have hv := (hreads x List.mem_cons_self).takes b _ hb (closed_writeItems l depth [] he rest)
    rw [← List.map_nil (f := f), ← hs] at hv
    have hend := itemsFrom_end read (h := h) hv (skip_token he rfl rest)
    rwa [List.reverse_cons] at hend
  | cons y ys ih =>
    have hv := (hreads x List.mem_cons_self).takes b _ hb
      (closed_writeItems l depth ((y :: ys).map f) he rest)
    rw [← hs, List.map_cons, writeItems, List.cons_append] at hv
    simp only [List.append_assoc] at hv
    have hy := hreads y (List.mem_cons_of_mem _ List.mem_cons_self)
    obtain ⟨h', hmore⟩ := itemsFrom_more read (h := h) hv (skip_cons rfl _) (by
      intro u
      obtain ⟨c, t, ht, hc, hend⟩ := hy.start
      rw [ht, List.cons_append, skip_token (hl.line depth) hc]
      rintro ⟨⟩
      exact hend rfl)
    obtain ⟨hlt, hrest⟩ := ih (fun z hz => hreads z (List.mem_cons_of_mem _ hz))
      (g x :: read) (hl.line depth) rfl h'
    refine ⟨hlt, ?_⟩
    rw [hmore, hrest]
    simp only [List.reverse_cons, List.append_assoc, List.singleton_append, List.map_cons]

/-- The empty list. -/
theorem takes_items_nil {s rest : List Char} (hs : skip s = ']' :: rest) :
    Takes (items reader) s [] rest := by
  refine ⟨length_lt_of_skip_eq hs, ?_⟩
  unfold items
  split
  next heq =>
    rw [hs] at heq
    cases heq
    rfl
  next heq =>
    rw [hs] at heq
    cases heq
  next hne _ => exact (hne _ hs).elim

theorem items_eq {s r : List Char} {c : Char} (hs : skip s = c :: r) (hc : c ≠ ']') :
    items reader s = itemsFrom reader s [] s (Nat.le_refl _) := by
  unfold items
  split
  next heq =>
    rw [hs] at heq
    cases heq
    exact absurd rfl hc
  next heq =>
    rw [hs] at heq
    cases heq
  next => rfl

/-- **A list reads back**: what stands behind its bracket are its items in turn. -/
theorem takes_items_text {l : Layout} (hl : l.Blank) (depth : Nat) (xs : List β)
    (hreads : ∀ x ∈ xs, Reads reader (write l (depth + 1) (f x)) (g x)) :
    ∃ t, write l depth (.array (xs.map f)) = '[' :: t ∧
      ∀ rest, Takes (items reader) (t ++ rest) (xs.map g) rest := by
  cases xs with
  | nil =>
    refine ⟨[']'], by rw [List.map_nil, write], ?_⟩
    intro rest
    exact ⟨Nat.lt_succ_self _, rfl⟩
  | cons x xs =>
    refine ⟨_, by rw [List.map_cons, write], ?_⟩
    intro rest
    simp only [List.append_assoc, List.singleton_append]
    obtain ⟨c, t, ht, hc, hend⟩ := (hreads x List.mem_cons_self).start
    have hstart := skip_token (hl.line (depth + 1)) hc
    rw [Takes, items_eq (by rw [ht]; exact hstart _) hend]
    exact itemsFrom_text hl hreads [] (hl.line (depth + 1)) (hl.line depth) rfl _

end Lists

end Reader

end Tabular.Json
