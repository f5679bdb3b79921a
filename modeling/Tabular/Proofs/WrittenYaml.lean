import Tabular.Proofs.YamlScalars

/-!
# YAML values that were written read back

A value is written as a block: an item a line behind a dash, and an entry a line behind its
key. Scalars and what is empty stand on the line of their key, and any other value of a key on
further lines, indented by two. Whatever the value, reading finds it again, if its scalars can
be written and its keys are scalars (`read_written`).
-/

namespace Tabular.Yaml

/-! ## Writing -/

/-- What stands on the line of its key: a scalar, or what is empty. -/
def Node.isInline : Node → Bool
  | .scalar _ _ | .sequence [] | .mapping [] => true
  | .sequence (_ :: _) | .mapping (_ :: _) => false

/-- What stands between the colon of a key in a column and its value. -/
def separator (column : Nat) (value : Node) : List Char :=
  if value.isInline then [' '] else newline (column + 2)

mutual

/-- A value whose lines begin in a column, without the blanks in front of the first. -/
def write (column : Nat) : Node → List Char
  | .scalar text true => text.toList
  | .scalar text false => Json.quoted text
  | .sequence [] => ['[', ']']
  | .sequence (item :: items) =>
    '-' :: ' ' :: (write (column + 2) item ++ writeItems column items)
  | .mapping [] => ['{', '}']
  | .mapping (entry :: entries) =>
    write column entry.1 ++ ':' :: (separator column entry.2 ++
      (write (column + 2) entry.2 ++ writeEntries column entries))

/-- The items after the first. -/
def writeItems (column : Nat) : List Node → List Char
  | [] => []
  | item :: items =>
    newline column ++ '-' :: ' ' :: (write (column + 2) item ++ writeItems column items)

/-- The entries after the first. -/
def writeEntries (column : Nat) : List (Node × Node) → List Char
  | [] => []
  | entry :: entries =>
    newline column ++ (write column entry.1 ++ ':' :: (separator column entry.2 ++
      (write (column + 2) entry.2 ++ writeEntries column entries)))

end

/-- A value as a text. -/
def Node.text (n : Node) : String := String.ofList (write 0 n ++ newline 0)

/-- A scalar that can be written: a word, or a text that can stand between quotes. -/
inductive WritableScalar : Node → Prop
  | word {text : String} (h : Word text.toList) : WritableScalar (.scalar text true)
  | quoted {text : String} (h : ∀ c ∈ text.toList, isQuotable c = true) :
      WritableScalar (.scalar text false)

/-- A value that can be written. -/
inductive Writable : Node → Prop
  | scalar {n : Node} (h : WritableScalar n) : Writable n
  | sequence {items : List Node} (h : ∀ item ∈ items, Writable item) : Writable (.sequence items)
  | mapping {entries : List (Node × Node)} (hkeys : ∀ e ∈ entries, WritableScalar e.1)
      (hvalues : ∀ e ∈ entries, Writable e.2) : Writable (.mapping entries)

variable {n : Node} {compact : Bool} {indent bound column line start k : Nat}
  {rest next : List Char}

/-! ## How values begin -/

/-- A character that begins a token, whatever follows it. -/
def startsToken (c : Char) : Bool :=
  !isBreak c && !isSpace c && c != '#' && c != '\ufeff' && c != '-' && c != '.'

theorem token_of_start {c : Char} (h : startsToken c = true) (s : List Char) : Token (c :: s) := by
  simp only [startsToken, Bool.and_eq_true, Bool.not_eq_true', bne_iff_ne] at h
  obtain ⟨⟨⟨⟨⟨hbreak, hspace⟩, hcomment⟩, horder⟩, hdash⟩, hdot⟩ := h
  constructor
  · exact ⟨c, s, rfl, hbreak, hspace, hcomment, horder⟩
  · intro line column
    simp [Cursor.atEnd, Cursor.atMark, hdash, hdot]

theorem token_dash (s : List Char) : Token ('-' :: ' ' :: s) where
  start := ⟨'-', _, rfl, by decide, by decide, by decide, by decide⟩
  continues line column := by
    simp [Cursor.atEnd, Cursor.atMark]

theorem atSign_dash (s : List Char) : Cursor.atSign '-' ⟨'-' :: ' ' :: s, line, start⟩ = true := by
  simp [Cursor.atSign, Cursor.nextEndsWord, endsWord, isSpace]

/-- The first character of a scalar tells it from anything else. -/
theorem WritableScalar.exists_cons (h : WritableScalar n) (column : Nat) :
    ∃ c t, write column n = c :: t ∧ c ∉ ['-', ':', '[', '{'] ∧ ∀ s, Token (c :: s) := by
  cases h with
  | word h =>
    obtain ⟨c, t, ht, hstart⟩ := h.start
    simp only [startsWord, isBracketSign, reservedSigns, List.contains_cons, List.contains_nil,
      Bool.or_false, Bool.and_eq_true, Bool.not_eq_true', Bool.or_eq_false_iff, bne_iff_ne,
      beq_eq_false_iff_ne, decide_eq_false_iff_not] at hstart
    obtain ⟨⟨⟨⟨⟨⟨hc, hbracket⟩, hreserved⟩, hdash⟩, -⟩, hdot⟩, horder⟩ := hstart
    obtain ⟨-, hbreak, hspace, hcolon⟩ := isWordChar_iff.mp hc
    have htoken : startsToken c = true := by
      simp [startsToken, hbreak, hspace, hreserved, horder, hdash, hdot]
    refine ⟨c, t, by rw [write, ht], ?_, token_of_start htoken⟩
    simp [hdash, hcolon, hbracket]
  | quoted h =>
    refine ⟨'"', _, by rw [write, Json.quoted], by decide, ?_⟩
    exact token_of_start (by decide)

theorem WritableScalar.token (h : WritableScalar n) (column : Nat) (rest : List Char) :
    Token (write column n ++ rest) := by
  obtain ⟨c, t, ht, -, htoken⟩ := h.exists_cons column
  rw [ht]
  exact htoken (t ++ rest)

theorem Writable.token (h : Writable n) (column : Nat) (rest : List Char) :
    Token (write column n ++ rest) := by
  cases h with
  | scalar h => exact h.token column rest
  | @sequence items h =>
    cases items with
    | nil =>
      rw [write]
      exact token_of_start (by decide) _
    | cons item items =>
      rw [write]
      exact token_dash _
  | @mapping entries hkeys hvalues =>
    cases entries with
    | nil =>
      rw [write]
      exact token_of_start (by decide) _
    | cons entry entries =>
      rw [write, List.append_assoc]
      exact (hkeys entry List.mem_cons_self).token column _

theorem WritableScalar.isInline (h : WritableScalar n) : n.isInline = true := by
  cases h with
  | word => rfl
  | quoted => rfl

/-- On one line stand scalars and what is empty. -/
theorem Writable.inline_cases (h : Writable n) (hinline : n.isInline = true) :
    WritableScalar n ∨ n = .sequence [] ∨ n = .mapping [] := by
  cases h with
  | scalar h => exact .inl h
  | @sequence items _ =>
    cases items with
    | nil => exact .inr (.inl rfl)
    | cons _ _ => cases hinline
  | @mapping entries _ _ =>
    cases entries with
    | nil => exact .inr (.inr rfl)
    | cons _ _ => cases hinline

/-- What stands on one line does not begin as an item, nor as the value of an empty key. -/
theorem Writable.not_atSign (h : Writable n) (hinline : n.isInline = true) (sign : Char)
    (hsign : sign ∈ ['-', ':']) :
    Cursor.atSign sign ⟨write column n ++ rest, line, start⟩ = false := by
  obtain ⟨c, t, ht, hc⟩ : ∃ c t, write column n = c :: t ∧ c ∉ ['-', ':'] := by
    rcases h.inline_cases hinline with h | rfl | rfl
    · obtain ⟨c, t, ht, hc, -⟩ := h.exists_cons column
      exact ⟨c, t, ht, fun hmem => hc (List.mem_append_left ['[', '{'] hmem)⟩
    · exact ⟨'[', _, by rw [write], by decide⟩
    · exact ⟨'{', _, by rw [write], by decide⟩
  have hne : c ≠ sign := by
    rintro rfl
    exact hc hsign
  rw [ht]
  simp [Cursor.atSign, hne]

/-! ## Scalars and keys -/

theorem inlineNode_scalar (h : WritableScalar n) (rest : List Char) :
    inlineNode indent ⟨write column n ++ rest, line, start⟩ =
      Cursor.scalar false indent ⟨write column n ++ rest, line, start⟩ := by
  obtain ⟨c, t, ht, hc, -⟩ := h.exists_cons column
  simp only [List.mem_cons, List.not_mem_nil, or_false, not_or] at hc
  rw [ht, inlineNode]
  simp [hc]

/-- A scalar in front of a colon is read up to the colon. -/
theorem inlineNode_key (h : WritableScalar n) (hrest : endsWord rest = true)
    (indent column line start : Nat) :
    ∃ start', inlineNode indent ⟨write column n ++ ':' :: rest, line, start⟩ =
      some (n, ⟨':' :: rest, line, start'⟩) := by
  rw [inlineNode_scalar h]
  cases h with
  | word h =>
    rw [write, scalar_word_key h hrest, String.ofList_toList]
    exact ⟨_, rfl⟩
  | quoted h =>
    rw [write]
    exact scalar_quoted h indent line start (':' :: rest)

theorem behindColon_key {s : List Char} {start' : Nat} (hrest : endsWord rest = true) :
    behindColon ⟨s, line, start⟩ ⟨':' :: rest, line, start'⟩ =
      some ⟨rest, line, start' + 1⟩ := by
  have hcolon : Token (':' :: rest) := token_of_start (by decide) rest
  rw [behindColon, Cursor.skip, skipFrom_token hcolon]
  simp [Cursor.atSign, Cursor.nextEndsWord, Cursor.advance, hrest]

/-- A key is read with its colon. -/
theorem blockKey_written (h : WritableScalar n) (hrest : endsWord rest = true)
    (indent column line start : Nat) :
    ∃ start', blockKey indent ⟨write column n ++ ':' :: rest, line, start⟩ =
      some (n, ⟨rest, line, start'⟩) := by
  obtain ⟨start', hkey⟩ := inlineNode_key h hrest indent column line start
  refine ⟨start' + 1, ?_⟩
  rw [blockKey, (Writable.scalar h).not_atSign h.isInline ':' (by decide),
    if_neg Bool.false_ne_true, hkey]
  show (do let next ← behindColon _ _; some (n, next)) = _
  rw [behindColon_key hrest]
  rfl

/-- A key opens a mapping. -/
theorem block_key (h : WritableScalar n) (hrest : endsWord rest = true)
    (indent bound column line start : Nat) :
    ∃ start', block true indent (bound + 1) ⟨write column n ++ ':' :: rest, line, start⟩ =
      (mappingFrom start bound [] n ⟨rest, line, start'⟩).map fun p => (.mapping p.1, p.2) := by
  obtain ⟨start', hkey⟩ := inlineNode_key h hrest indent column line start
  refine ⟨start' + 1, ?_⟩
  have hwritable := Writable.scalar h
  rw [block, hwritable.not_atSign h.isInline '-' (by decide),
    hwritable.not_atSign h.isInline ':' (by decide), if_neg Bool.false_ne_true,
    if_neg Bool.false_ne_true, hkey]
  simp only [Option.bind_eq_bind, Option.bind_some, behindColon_key hrest, if_true]

/-- What stands on one line is read as it is. -/
theorem block_of_inlineNode {c behind : Cursor} (hdash : c.atSign '-' = false)
    (hcolon : c.atSign ':' = false) (hnode : inlineNode indent c = some (n, behind))
    (hbehind : c.line < (behind.skip true).line) :
    block compact indent (bound + 1) c = some (n, behind) := by
  have hkey : behindColon c behind = none := by
    have hline : ((behind.skip true).line == c.line) = false :=
      beq_eq_false_iff_ne.mpr (Nat.ne_of_gt hbehind)
    rw [behindColon, hline]
    rfl
  rw [block, hdash, hcolon, if_neg Bool.false_ne_true, if_neg Bool.false_ne_true, hnode]
  simp only [Option.bind_eq_bind, Option.bind_some, hkey]

/-! ## What stands on one line -/

theorem token_inBrackets {s : List Char} (h : Token s) :
    Cursor.token ⟨s, line, start⟩ = some ⟨s, line, start⟩ := by
  rw [Cursor.token, Cursor.skipInBrackets, skipFrom_token h, h.continues]
  rfl

theorem inlineNode_empty_sequence (rest : List Char) :
    inlineNode indent ⟨'[' :: ']' :: rest, line, start⟩ =
      some (.sequence [], ⟨rest, line, start + 2⟩) := by
  have htoken : Token (']' :: rest) := token_of_start (by decide) rest
  rw [inlineNode, if_pos (by simp), bracketed]
  show (itemsFrom (2 * ('[' :: ']' :: rest).length + 1) []
    ⟨']' :: rest, line, start + 1⟩).map _ = _
  rw [itemsFrom, token_inBrackets htoken]
  rfl

theorem inlineNode_empty_mapping (rest : List Char) :
    inlineNode indent ⟨'{' :: '}' :: rest, line, start⟩ =
      some (.mapping [], ⟨rest, line, start + 2⟩) := by
  have htoken : Token ('}' :: rest) := token_of_start (by decide) rest
  rw [inlineNode, if_pos (by simp), bracketed]
  show (entriesFrom (2 * ('{' :: '}' :: rest).length + 1) []
    ⟨'}' :: rest, line, start + 1⟩).map _ = _
  rw [entriesFrom, token_inBrackets htoken]
  rfl

theorem skip_next (h : Closes indent k next) :
    Cursor.skip true ⟨next, line, k⟩ = ⟨next, line, k⟩ := by
  rcases h with rfl | ⟨-, htoken⟩
  · rfl
  · exact skipFrom_token htoken

/-- A value on one line is read, and what follows it on a later line is reached. -/
theorem inlineNode_written (h : Writable n) (hinline : n.isInline = true)
    (hnext : Closes indent k next) (column line start : Nat) :
    ∃ behind, inlineNode indent ⟨write column n ++ (newline k ++ next), line, start⟩ =
        some (n, behind) ∧ behind.skip true = ⟨next, line + 1, k⟩ := by
  rcases h.inline_cases hinline with hscalar | rfl | rfl
  · rw [inlineNode_scalar hscalar]
    cases hscalar with
    | word hword =>
      rw [write, scalar_word hword hnext, String.ofList_toList]
      exact ⟨_, rfl, skip_next hnext⟩
    | quoted hquotable =>
      obtain ⟨start', hread⟩ := scalar_quoted hquotable indent line start (newline k ++ next)
      rw [write, hread]
      exact ⟨_, rfl, skip_newline hnext⟩
  · rw [write]
    exact ⟨_, inlineNode_empty_sequence _, skip_newline hnext⟩
  · rw [write]
    exact ⟨_, inlineNode_empty_mapping _, skip_newline hnext⟩

theorem block_isInline (h : Writable n) (hinline : n.isInline = true)
    (hnext : Closes indent k next) (compact : Bool) (bound column line start : Nat) :
    ∃ behind, block compact indent (bound + 1)
        ⟨write column n ++ (newline k ++ next), line, start⟩ = some (n, behind) ∧
      behind.skip true = ⟨next, line + 1, k⟩ := by
  obtain ⟨behind, hnode, hbehind⟩ := inlineNode_written h hinline hnext column line start
  refine ⟨behind, ?_, hbehind⟩
  apply block_of_inlineNode (h.not_atSign hinline '-' (by decide))
    (h.not_atSign hinline ':' (by decide)) hnode
  rw [hbehind]
  exact Nat.lt_succ_self line

/-! ## Blocks -/

/-- A value is read where it is written, in a block of a column that its lines do not leave. -/
def ReadsBack (n : Node) : Prop :=
  ∀ (line : Nat) ⦃indent bound column k : Nat⦄ ⦃next : List Char⦄, indent ≤ column →
    Closes indent k next → (write column n).length ≤ bound →
    ∃ behind line', block true indent bound
        ⟨write column n ++ (newline k ++ next), line, column⟩ = some (n, behind) ∧
      behind.skip true = ⟨next, line', k⟩

theorem Writable.length_pos (h : Writable n) (column : Nat) : 0 < (write column n).length := by
  obtain ⟨c, t, ht, -⟩ := (h.token column []).start
  rw [List.append_nil] at ht
  rw [ht]
  exact Nat.succ_pos t.length

theorem Writable.readsBack_of_isInline (h : Writable n) (hinline : n.isInline = true) :
    ReadsBack n := by
  intro line indent bound column k next _ hnext hbound
  obtain ⟨bound, rfl⟩ := Nat.exists_eq_succ_of_ne_zero
    (Nat.ne_of_gt (Nat.lt_of_lt_of_le (h.length_pos column) hbound))
  obtain ⟨behind, hblock, hbehind⟩ := block_isInline h hinline hnext true bound column line column
  exact ⟨behind, line + 1, hblock, hbehind⟩

/-- What follows a block closes it. -/
theorem Closes.ends (hnext : Closes column k next) (line : Nat) :
    (Cursor.atEnd ⟨next, line, k⟩ || decide (k < column)) = true := by
  rcases hnext with rfl | ⟨hk, -⟩
  · rfl
  · rw [decide_eq_true hk, Bool.or_true]

/-- What begins in the column of a block goes on with it. -/
theorem Token.goes_on (h : Token next) (line : Nat) :
    ¬ (Cursor.atEnd ⟨next, line, column⟩ || decide (column < column)) = true := by
  rw [h.continues, decide_eq_false (Nat.lt_irrefl column)]
  exact Bool.false_ne_true

/-! ## Sequences -/

section Sequences

variable {item : Node}

/-- An item is read, and what follows it decides how the sequence goes on. -/
theorem sequenceFrom_item (hwritable : Writable item) (hreads : ReadsBack item)
    (hnext : Closes (column + 1) k next) (hbound : (write (column + 2) item).length ≤ bound)
    (shared : Bool) (line : Nat) (read : List Node) :
    ∃ line', sequenceFrom column shared (bound + 1) read
        ⟨'-' :: ' ' :: (write (column + 2) item ++ (newline k ++ next)), line, column⟩ =
      let here : Cursor := ⟨next, line', k⟩
      let done := some ((item :: read).reverse, here)
      if here.atEnd || k < column then done
      else if k = column then
        if here.atSign '-' then sequenceFrom column shared bound (item :: read) here
        else if shared then done
        else none
      else none := by
  have htoken := hwritable.token (column + 2) (newline k ++ next)
  obtain ⟨behind, line', hblock, hbehind⟩ := hreads line (Nat.le_succ (column + 1))
    hnext hbound
  refine ⟨line', ?_⟩
  have hhere : Cursor.skip false
      ⟨' ' :: (write (column + 2) item ++ (newline k ++ next)), line, column + 1⟩ =
      ⟨write (column + 2) item ++ (newline k ++ next), line, column + 2⟩ := by
    rw [Cursor.skip, skipFrom_space, skipFrom_token htoken]
  have hbehindDash : ¬ column + 2 ≤ column := by omega
  simp only [sequenceFrom, Cursor.advance, List.tail_cons, hhere, htoken.continues, hbehindDash,
    decide_false, Bool.or_self, Bool.false_eq_true, if_false, hblock, Option.bind_eq_bind,
    Option.bind_some, hbehind]

/-- **A sequence is read item by item**, up to what closes it. -/
theorem sequenceFrom_written {items : List Node}
    (hitems : ∀ i ∈ item :: items, Writable i ∧ ReadsBack i) (hnext : Closes column k next)
    (hbound : (write (column + 2) item ++ writeItems column items).length < bound)
    (shared : Bool) (line : Nat) (read : List Node) :
    ∃ line', sequenceFrom column shared bound read ⟨'-' :: ' ' :: (write (column + 2) item ++
        (writeItems column items ++ (newline k ++ next))), line, column⟩ =
      some (read.reverse ++ item :: items, ⟨next, line', k⟩) := by
  -- By the items behind the first: what follows an item closes the sequence or is the next one.
  obtain ⟨bound, rfl⟩ := Nat.exists_eq_succ_of_ne_zero (Nat.ne_zero_of_lt hbound)
  induction items generalizing item read line bound with
  | nil =>
    obtain ⟨⟨hwritable, hreads⟩, -⟩ := List.forall_mem_cons.mp hitems
    rw [writeItems, List.append_nil] at hbound
    obtain ⟨line', hitem⟩ := sequenceFrom_item hwritable hreads
      (hnext.mono (Nat.le_succ column)) (Nat.le_of_lt_succ hbound) shared line read
    refine ⟨line', ?_⟩
    rw [writeItems, List.nil_append, hitem]
    simp only [hnext.ends, if_true, List.reverse_cons]
  | cons i items ih =>
    obtain ⟨⟨hwritable, hreads⟩, hitems⟩ := List.forall_mem_cons.mp hitems
    rw [writeItems] at hbound
    simp only [List.length_append, List.length_cons] at hbound
    have htoken := token_dash (write (column + 2) i ++
      (writeItems column items ++ (newline k ++ next)))
    obtain ⟨line', hitem⟩ := sequenceFrom_item hwritable hreads
      (.inr ⟨Nat.lt_succ_self column, htoken⟩) (by omega : _ ≤ bound) shared line read
    obtain ⟨bound, rfl⟩ := Nat.exists_eq_succ_of_ne_zero (by omega : bound ≠ 0)
    obtain ⟨last, hrest⟩ := ih hitems line' (item :: read) bound
      (by simp only [List.length_append]; omega)
    refine ⟨last, ?_⟩
    rw [writeItems]
    simp only [List.append_assoc, List.cons_append]
    rw [hitem]
    dsimp only
    rw [if_neg (htoken.goes_on line'), if_pos rfl, if_pos (atSign_dash _), hrest,
      List.reverse_cons, List.append_assoc, List.singleton_append]

end Sequences

/-! ## Mappings -/

section Mappings

variable {key value : Node}

/-- A value is read behind its key, and what follows it decides how the mapping goes on. -/
theorem mappingFrom_value (hwritable : Writable value) (hreads : ReadsBack value)
    (hnext : Closes (column + 1) k next) (hbound : (write (column + 2) value).length ≤ bound)
    (line start : Nat) (read : List (Node × Node)) (key : Node) :
    ∃ line', mappingFrom column (bound + 1) read key ⟨separator column value ++
        (write (column + 2) value ++ (newline k ++ next)), line, start⟩ =
      let here : Cursor := ⟨next, line', k⟩
      if here.atEnd || k < column then some (((key, value) :: read).reverse, here)
      else if k = column then do
        let (nextKey, behind) ← blockKey (column + 1) here
        mappingFrom column bound ((key, value) :: read) nextKey behind
      else none := by
  have htoken := hwritable.token (column + 2) (newline k ++ next)
  by_cases hinline : value.isInline = true
  · obtain ⟨bound, rfl⟩ := Nat.exists_eq_succ_of_ne_zero
      (Nat.ne_of_gt (Nat.lt_of_lt_of_le (hwritable.length_pos (column + 2)) hbound))
    obtain ⟨behind, hblock, hbehind⟩ := block_isInline hwritable hinline hnext false bound
      (column + 2) line (start + 1)
    refine ⟨line + 1, ?_⟩
    have hhere : Cursor.skip true
        ⟨' ' :: (write (column + 2) value ++ (newline k ++ next)), line, start⟩ =
        ⟨write (column + 2) value ++ (newline k ++ next), line, start + 1⟩ := by
      rw [Cursor.skip, skipFrom_space, skipFrom_token htoken]
    rw [separator, if_pos hinline, List.singleton_append]
    simp only [mappingFrom, hhere, htoken.continues, Bool.false_eq_true, if_false, BEq.rfl, if_true,
      hblock, Option.bind_eq_bind, Option.bind_some, hbehind]
  · obtain ⟨behind, line', hblock, hbehind⟩ := hreads (line + 1) (Nat.le_succ (column + 1))
      hnext hbound
    refine ⟨line', ?_⟩
    have hhere : Cursor.skip true ⟨newline (column + 2) ++
        (write (column + 2) value ++ (newline k ++ next)), line, start⟩ =
        ⟨write (column + 2) value ++ (newline k ++ next), line + 1, column + 2⟩ :=
      skip_newline (.inr ⟨Nat.lt_succ_self (column + 2), htoken⟩)
    have hline : (line + 1 == line) = false := beq_eq_false_iff_ne.mpr (Nat.succ_ne_self line)
    have hbehindKey : ¬ column + 2 = column ∧ ¬ column + 2 ≤ column := by omega
    rw [separator, if_neg hinline]
    simp only [mappingFrom, hhere, htoken.continues, Bool.false_eq_true, if_false, hline,
      hbehindKey, decide_false, Bool.false_and, hblock, Option.bind_eq_bind, Option.bind_some,
      hbehind]

theorem endsWord_separator (column : Nat) (value : Node) (s : List Char) :
    endsWord (separator column value ++ s) = true := by
  unfold separator
  split <;> rfl

/-- **A mapping is read entry by entry**, up to what closes it. -/
theorem mappingFrom_written {entries : List (Node × Node)}
    (hkeys : ∀ e ∈ entries, WritableScalar e.1)
    (hvalues : ∀ e ∈ (key, value) :: entries, Writable e.2 ∧ ReadsBack e.2)
    (hnext : Closes column k next)
    (hbound : (write (column + 2) value ++ writeEntries column entries).length < bound)
    (line start : Nat) (read : List (Node × Node)) :
    ∃ line', mappingFrom column bound read key ⟨separator column value ++
        (write (column + 2) value ++ (writeEntries column entries ++ (newline k ++ next))),
        line, start⟩ =
      some (read.reverse ++ (key, value) :: entries, ⟨next, line', k⟩) := by
  -- By the entries behind the first, as for a sequence.
  obtain ⟨bound, rfl⟩ := Nat.exists_eq_succ_of_ne_zero (Nat.ne_zero_of_lt hbound)
  induction entries generalizing key value read line start bound with
  | nil =>
    obtain ⟨⟨hwritable, hreads⟩, -⟩ := List.forall_mem_cons.mp hvalues
    rw [writeEntries, List.append_nil] at hbound
    obtain ⟨line', hvalue⟩ := mappingFrom_value hwritable hreads
      (hnext.mono (Nat.le_succ column)) (Nat.le_of_lt_succ hbound) line start read key
    refine ⟨line', ?_⟩
    rw [writeEntries, List.nil_append, hvalue]
    simp only [hnext.ends, if_true, List.reverse_cons]
  | cons e entries ih =>
    obtain ⟨⟨hwritable, hreads⟩, hvalues⟩ :
        (Writable value ∧ ReadsBack value) ∧ ∀ e' ∈ e :: entries, Writable e'.2 ∧ ReadsBack e'.2 :=
      List.forall_mem_cons.mp hvalues
    obtain ⟨hkey, hkeys⟩ := List.forall_mem_cons.mp hkeys
    rw [writeEntries] at hbound
    simp only [List.length_append, List.length_cons] at hbound
    have htoken := hkey.token column (':' :: (separator column e.2 ++
      (write (column + 2) e.2 ++ (writeEntries column entries ++ (newline k ++ next)))))
    obtain ⟨line', hvalue⟩ := mappingFrom_value hwritable hreads
      (.inr ⟨Nat.lt_succ_self column, htoken⟩) (by omega : _ ≤ bound) line start read key
    obtain ⟨start', hblockKey⟩ := blockKey_written hkey (endsWord_separator column e.2
      (write (column + 2) e.2 ++ (writeEntries column entries ++ (newline k ++ next))))
      (column + 1) column line' column
    obtain ⟨bound, rfl⟩ := Nat.exists_eq_succ_of_ne_zero (by omega : bound ≠ 0)
    obtain ⟨last, hentries⟩ := ih hkeys hvalues line' start' ((key, value) :: read) bound
      (by simp only [List.length_append]; omega)
    refine ⟨last, ?_⟩
    rw [writeEntries]
    simp only [List.append_assoc, List.cons_append]
    rw [hvalue]
    dsimp only
    rw [if_neg (htoken.goes_on line'), if_pos rfl, hblockKey]
    show mappingFrom column _ ((key, value) :: read) e.1 _ = _
    rw [hentries, List.reverse_cons, List.append_assoc, List.singleton_append]

end Mappings

/-! ## Values -/

theorem readsBack_sequence {item : Node} {items : List Node}
    (hitems : ∀ i ∈ item :: items, Writable i ∧ ReadsBack i) :
    ReadsBack (.sequence (item :: items)) := by
  intro line indent bound column k next hindent hnext hbound
  obtain ⟨bound, rfl⟩ := Nat.exists_eq_succ_of_ne_zero
    (by rintro rfl; simp [write] at hbound : bound ≠ 0)
  rw [write] at hbound
  simp only [List.length_cons] at hbound
  obtain ⟨line', hread⟩ := sequenceFrom_written hitems (hnext.mono hindent)
    (by omega : _ < bound) false line []
  refine ⟨⟨next, line', k⟩, line', ?_, skip_next hnext⟩
  rw [write]
  simp only [List.cons_append, List.append_assoc]
  rw [block, if_pos (atSign_dash _), if_pos rfl, hread]
  rfl

theorem readsBack_mapping {entry : Node × Node} {entries : List (Node × Node)}
    (hkeys : ∀ e ∈ entry :: entries, WritableScalar e.1)
    (hvalues : ∀ e ∈ entry :: entries, Writable e.2 ∧ ReadsBack e.2) :
    ReadsBack (.mapping (entry :: entries)) := by
  intro line indent bound column k next hindent hnext hbound
  obtain ⟨bound, rfl⟩ := Nat.exists_eq_succ_of_ne_zero
    (by rintro rfl; simp [write] at hbound : bound ≠ 0)
  obtain ⟨hkey, hkeys⟩ := List.forall_mem_cons.mp hkeys
  have hpos := (Writable.scalar hkey).length_pos column
  rw [write] at hbound
  simp only [List.length_append, List.length_cons] at hbound
  obtain ⟨start, hblock⟩ := block_key hkey (endsWord_separator column entry.2
    (write (column + 2) entry.2 ++ (writeEntries column entries ++ (newline k ++ next))))
    indent bound column line column
  have hlength : (write (column + 2) entry.2 ++ writeEntries column entries).length < bound := by
    rw [List.length_append]
    omega
  obtain ⟨line', hread⟩ := mappingFrom_written hkeys hvalues (hnext.mono hindent) hlength
    line start []
  refine ⟨⟨next, line', k⟩, line', ?_, skip_next hnext⟩
  rw [write]
  simp only [List.cons_append, List.append_assoc]
  rw [hblock, hread]
  rfl

/-- **A value that can be written is read where it is written**, whatever its shape. -/
theorem Writable.readsBack (h : Writable n) : ReadsBack n := by
  induction h with
  | scalar h => exact (Writable.scalar h).readsBack_of_isInline h.isInline
  | @sequence items hitems ih =>
    cases items with
    | nil => exact (Writable.sequence hitems).readsBack_of_isInline rfl
    | cons item items => exact readsBack_sequence fun i hi => ⟨hitems i hi, ih i hi⟩
  | @mapping entries hkeys hvalues ih =>
    cases entries with
    | nil => exact (Writable.mapping hkeys hvalues).readsBack_of_isInline rfl
    | cons entry entries => exact readsBack_mapping hkeys fun e he => ⟨hvalues e he, ih e he⟩

/-! ## Texts -/

theorem isAllowed_of_mem_newline {c : Char} (hc : c ∈ newline k) : isAllowed c = true := by
  rcases List.mem_cons.mp hc with rfl | hc
  · decide
  · rw [(List.mem_replicate.mp hc).2]
    decide

theorem isAllowed_of_mem_separator {c : Char} (hc : c ∈ separator column n) :
    isAllowed c = true := by
  unfold separator at hc
  split at hc
  · rw [List.mem_singleton.mp hc]
    decide
  · exact isAllowed_of_mem_newline hc

theorem isAllowed_of_mem_escape {c d : Char} (hd : isQuotable d = true)
    (hc : c ∈ Json.escape d) : isAllowed c = true := by
  rcases Json.Reader.escape_forms d with ⟨x, hx, hescape⟩ | ⟨hcontrol, hescape⟩ |
    ⟨hescape, -, -, hcontrol⟩
  · have hletters : Json.Reader.shortEscapes.all fun p => ['\\', p.1].all isAllowed := by decide
    rw [hescape] at hc
    exact List.all_eq_true.mp (List.all_eq_true.mp hletters _ hx) c hc
  · have hdigits : ∀ n < 16, isAllowed (Json.hexDigit n) = true := by decide
    rw [hescape] at hc
    simp only [List.mem_cons, List.not_mem_nil, or_false] at hc
    rcases hc with rfl | rfl | rfl | rfl | rfl | rfl
    · decide
    · decide
    · decide
    · decide
    · exact hdigits _ (by omega)
    · exact hdigits _ (by omega)
  · rw [hescape] at hc
    simp only [isQuotable, hcontrol, decide_false, Bool.false_or, Bool.and_eq_true] at hd
    rw [List.mem_singleton.mp hc]
    exact hd.1

theorem WritableScalar.isAllowed_of_mem (h : WritableScalar n) {c : Char}
    (hc : c ∈ write column n) : isAllowed c = true := by
  cases h with
  | word h =>
    rw [write] at hc
    exact (isWordChar_iff.mp (h.chars c hc)).1
  | quoted h =>
    rw [write, Json.quoted, List.mem_cons, List.mem_append, List.mem_singleton,
      List.mem_flatMap] at hc
    rcases hc with rfl | ⟨d, hd, hc⟩ | rfl
    · decide
    · exact isAllowed_of_mem_escape (h d hd) hc
    · decide

theorem isAllowed_of_mem_items {items : List Node}
    (hitems : ∀ i ∈ items, ∀ column, ∀ c ∈ write column i, isAllowed c = true) {c : Char}
    (hc : c ∈ writeItems column items) : isAllowed c = true := by
  induction items with
  | nil =>
    rw [writeItems] at hc
    cases hc
  | cons i items ih =>
    obtain ⟨hi, hitems⟩ := List.forall_mem_cons.mp hitems
    simp only [writeItems, List.mem_append, List.mem_cons] at hc
    rcases hc with hc | rfl | rfl | hc | hc
    · exact isAllowed_of_mem_newline hc
    · decide
    · decide
    · exact hi _ c hc
    · exact ih hitems hc

theorem isAllowed_of_mem_entries {entries : List (Node × Node)}
    (hkeys : ∀ e ∈ entries, WritableScalar e.1)
    (hvalues : ∀ e ∈ entries, ∀ column, ∀ c ∈ write column e.2, isAllowed c = true) {c : Char}
    (hc : c ∈ writeEntries column entries) : isAllowed c = true := by
  induction entries with
  | nil =>
    rw [writeEntries] at hc
    cases hc
  | cons e entries ih =>
    obtain ⟨hkey, hkeys⟩ := List.forall_mem_cons.mp hkeys
    obtain ⟨hvalue, hvalues⟩ := List.forall_mem_cons.mp hvalues
    simp only [writeEntries, List.mem_append, List.mem_cons] at hc
    rcases hc with hc | hc | rfl | hc | hc | hc
    · exact isAllowed_of_mem_newline hc
    · exact hkey.isAllowed_of_mem hc
    · decide
    · exact isAllowed_of_mem_separator hc
    · exact hvalue _ c hc
    · exact ih hkeys hvalues hc

/-- A value is written in characters that YAML allows. -/
theorem Writable.isAllowed_of_mem (h : Writable n) (column : Nat) :
    ∀ c ∈ write column n, isAllowed c = true := by
  induction h generalizing column with
  | scalar h =>
    intro c hc
    exact h.isAllowed_of_mem hc
  | @sequence items hitems ih =>
    intro c hc
    cases items with
    | nil =>
      rw [write] at hc
      exact List.all_eq_true.mp rfl c hc
    | cons item items =>
      obtain ⟨hitem, hitems⟩ := List.forall_mem_cons.mp ih
      simp only [write, List.mem_append, List.mem_cons] at hc
      rcases hc with rfl | rfl | hc | hc
      · decide
      · decide
      · exact hitem _ c hc
      · exact isAllowed_of_mem_items hitems hc
  | @mapping entries hkeys hvalues ih =>
    intro c hc
    cases entries with
    | nil =>
      rw [write] at hc
      exact List.all_eq_true.mp rfl c hc
    | cons entry entries =>
      obtain ⟨hvalue, hvalues⟩ := List.forall_mem_cons.mp ih
      obtain ⟨hkey, hkeys⟩ := List.forall_mem_cons.mp hkeys
      simp only [write, List.mem_append, List.mem_cons] at hc
      rcases hc with hc | rfl | hc | hc | hc
      · exact hkey.isAllowed_of_mem hc
      · decide
      · exact isAllowed_of_mem_separator hc
      · exact hvalue _ c hc
      · exact isAllowed_of_mem_entries hkeys hvalues hc

/-- A text that begins with a value is read as this value, if nothing stands behind it. -/
theorem read_of_block {text : String} {behind : Cursor} (h : Token text.toList)
    (hall : ∀ c ∈ text.toList, isAllowed c = true)
    (hblock : block true 0 (2 * text.toList.length + 2) ⟨text.toList, 0, 0⟩ = some (n, behind))
    (hbehind : (behind.skip true).rest = []) : read text = some n := by
  obtain ⟨c, t, ht, -, -, -, horder⟩ := h.start
  unfold read
  extract_lets chars bound first marked start compact root
  have hchars : chars = text.toList := by
    unfold chars
    rw [ht]
    split
    next heq =>
      cases heq
      exact absurd rfl horder
    next => rfl
  have hfirst : first = ⟨text.toList, 0, 0⟩ := by
    unfold first
    rw [hchars]
    exact skipFrom_token h
  have hmarked : marked = false := by
    have hcontinues := h.continues 0 0
    rw [Cursor.atEnd, Bool.or_eq_false_iff, Bool.or_eq_false_iff] at hcontinues
    unfold marked
    rw [hfirst]
    exact hcontinues.1.2
  have hstart : start = ⟨text.toList, 0, 0⟩ := by
    unfold start
    rw [hmarked, hfirst]
    rfl
  have hroot : root = some (n, behind) := by
    unfold root compact bound
    rw [hstart, h.continues, hmarked, hchars]
    exact hblock
  have hends : onlyEndMarks bound (behind.skip true) = true := by
    unfold bound
    rw [onlyEndMarks, hbehind]
    rfl
  have hall : chars.all isAllowed = true := by
    rw [hchars]
    exact List.all_eq_true.mpr hall
  have hempty : first.rest.isEmpty = false := by
    rw [hfirst, ht]
    rfl
  rw [hall, hempty, hroot]
  exact if_pos hends

/-- **A value that was written as a text reads back.** -/
theorem read_written (h : Writable n) : read n.text = some n := by
  have hallowed : ∀ c ∈ write 0 n ++ newline 0, isAllowed c = true := by
    intro c hc
    rcases List.mem_append.mp hc with hc | hc
    · exact h.isAllowed_of_mem 0 c hc
    · exact isAllowed_of_mem_newline hc
  have hnext : Closes 0 0 [] := .inl rfl
  have hbound : (write 0 n).length ≤ 2 * (write 0 n ++ newline 0).length + 2 := by
    rw [List.length_append]
    omega
  obtain ⟨behind, line', hblock, hbehind⟩ := h.readsBack 0 (Nat.le_refl 0) hnext hbound
  rw [List.append_nil] at hblock
  have htext : n.text.toList = write 0 n ++ newline 0 := String.toList_ofList
  rw [← htext] at hallowed hblock
  refine read_of_block ?_ hallowed hblock (by rw [hbehind])
  rw [htext]
  exact h.token 0 (newline 0)

end Tabular.Yaml
