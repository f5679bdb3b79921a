import Tabular.Yaml.Reader
import Tabular.Proofs.StringText

/-!
# YAML scalars that were written read back

A scalar is written as a word or in double quotes. A word is read up to the colon behind it, or
up to the end of its line, if what stands on the next line is not indented deeply enough to
belong to it (`scalar_word_key`, `scalar_word`). In quotes stands what a JSON text has there:
each of its escapes is one of YAML with the same meaning, so any text reads back whose other
characters YAML allows and that do not end a line (`scalar_quoted`).
-/

namespace Tabular.Yaml

/-! ## Characters -/

/-- A character of a word: any that YAML allows, but blanks and the colon. -/
def isWordChar (c : Char) : Bool := isAllowed c && !isBreak c && !isSpace c && c != ':'

/-- A character that a word can begin with: besides the signs of YAML, neither the signs that
marks between documents are made of, nor the mark that tells the order of bytes. -/
def startsWord (c : Char) : Bool :=
  isWordChar c && !isBracketSign c && !reservedSigns.contains c &&
    c != '-' && c != '?' && c != '.' && c != '\ufeff'

/-- A text that is written as a word, without quotes. -/
structure Word (s : List Char) : Prop where
  start : ∃ c t, s = c :: t ∧ startsWord c = true
  chars : ∀ c ∈ s, isWordChar c = true

theorem word_of_all {c : Char} {s t : List Char} (hs : s = c :: t) (hstart : startsWord c = true)
    (hchars : s.all isWordChar = true) : Word s :=
  ⟨⟨c, t, hs, hstart⟩, List.all_eq_true.mp hchars⟩

/-- A character that can be written between quotes, by an escape or as it stands. -/
def isQuotable (c : Char) : Bool := c.toNat < 0x20 || isAllowed c && !isBreak c

/-- The end of a line, and the blanks in front of the next token. -/
def newline (column : Nat) : List Char := '\n' :: List.replicate column ' '

/-- A token begins here, which is neither a comment nor the end of the document. -/
structure Token (s : List Char) : Prop where
  start : ∃ c t, s = c :: t ∧ isBreak c = false ∧ isSpace c = false ∧ c ≠ '#' ∧ c ≠ '\ufeff'
  continues : ∀ line column, Cursor.atEnd ⟨s, line, column⟩ = false

/-- What follows on a later line does not belong to a value whose lines begin at `indent`. -/
def Closes (indent column : Nat) (next : List Char) : Prop :=
  next = [] ∨ column < indent ∧ Token next

theorem Closes.mono {indent indent' column : Nat} {next : List Char} (h : Closes indent column next)
    (hle : indent ≤ indent') : Closes indent' column next := by
  rcases h with h | ⟨hcolumn, htoken⟩
  · exact .inl h
  · exact .inr ⟨Nat.lt_of_lt_of_le hcolumn hle, htoken⟩

/-! ## Blanks and ends of lines -/

variable {inBrackets tabs : Bool} {line column : Nat} {next : List Char}

theorem ne_return_of_not_break {c : Char} (hc : isBreak c = false) : c ≠ '\r' := by
  rintro rfl
  cases hc

theorem skipFrom_token (h : Token next) :
    skipFrom inBrackets tabs false next line column = ⟨next, line, column⟩ := by
  obtain ⟨c, t, rfl, hbreak, hspace, hcomment, -⟩ := h.start
  simp only [isSpace, Bool.or_eq_false_iff, decide_eq_false_iff_not] at hspace
  rw [skipFrom]
  · simp [hbreak, hspace, hcomment]
  · intro r hc
    exact absurd hc (ne_return_of_not_break hbreak)

theorem skipFrom_space (s : List Char) :
    skipFrom inBrackets tabs false (' ' :: s) line column =
      skipFrom inBrackets tabs false s line (column + 1) := by
  rw [skipFrom]
  · simp [isBreak]
  · nofun

theorem skipFrom_spaces (n : Nat) (s : List Char) :
    skipFrom inBrackets tabs false (List.replicate n ' ' ++ s) line column =
      skipFrom inBrackets tabs false s line (column + n) := by
  induction n generalizing column with
  | zero => rfl
  | succ n ih =>
    rw [List.replicate_succ, List.cons_append, skipFrom_space, ih, Nat.add_right_comm]
    rfl

theorem skipFrom_newline (s : List Char) (n : Nat) :
    skipFrom inBrackets tabs false (newline n ++ s) line column =
      skipFrom inBrackets inBrackets false s (line + 1) n := by
  rw [newline, List.cons_append, skipFrom]
  · simp [isBreak, skipFrom_spaces]
  · nofun

/-- Behind the end of a line the next token is reached. -/
theorem skip_newline {indent start : Nat} (h : Closes indent column next) :
    Cursor.skip tabs ⟨newline column ++ next, line, start⟩ = ⟨next, line + 1, column⟩ := by
  rw [Cursor.skip, skipFrom_newline]
  rcases h with rfl | ⟨-, htoken⟩
  · rfl
  · exact skipFrom_token htoken

/-! ## Words -/

theorem isWordChar_iff {c : Char} : isWordChar c = true ↔
    isAllowed c = true ∧ isBreak c = false ∧ isSpace c = false ∧ c ≠ ':' := by
  simp [isWordChar, and_assoc]

variable {indent start : Nat} {w read rest : List Char}

/-- A word goes on by its own characters. -/
theorem plainFrom_word (hw : ∀ c ∈ w, isWordChar c = true) :
    plainFrom false indent read .none (w ++ rest) line start =
      plainFrom false indent (w.reverse ++ read) .none rest line (start + w.length) := by
  induction w generalizing read start with
  | nil => rfl
  | cons c w ih =>
    obtain ⟨hc, hw⟩ := List.forall_mem_cons.mp hw
    obtain ⟨-, hbreak, hspace, hcolon⟩ := isWordChar_iff.mp hc
    have hends : endsPlain false indent .none ⟨c :: (w ++ rest), line, start⟩ = false := by
      simp [endsPlain, hcolon]
    rw [List.cons_append, plainFrom]
    · simp only [hbreak, hspace, hends, Bool.false_and, Bool.false_eq_true, if_false]
      rw [ih hw, List.reverse_cons, List.append_assoc, List.length_cons, Nat.add_right_comm]
      rfl
    · intro r hr
      exact absurd hr (ne_return_of_not_break hbreak)
    · nofun

/-- A word ends at a colon that a blank follows. -/
theorem plainFrom_colon (h : endsWord rest = true) :
    plainFrom false indent read .none (':' :: rest) line start =
      some (read, ⟨':' :: rest, line, start⟩) := by
  have hends : endsPlain false indent .none ⟨':' :: rest, line, start⟩ = true := by
    simp [endsPlain, Cursor.nextEndsWord, h]
  rw [plainFrom]
  · rw [hends]
    rfl
  · nofun
  · nofun

/-- Blanks in front of a further line change nothing. -/
theorem plainFrom_blanks (more n : Nat) :
    plainFrom false indent read (.lines false more) (List.replicate n ' ' ++ rest) line start =
      plainFrom false indent read (.lines false more) rest line (start + n) := by
  induction n generalizing start with
  | zero => rfl
  | succ n ih =>
    rw [List.replicate_succ, List.cons_append, plainFrom]
    · have htab : (decide (' ' = '\t') && decide (start < indent)) = false := rfl
      rw [if_neg (by decide), if_pos (by decide), htab, if_neg Bool.false_ne_true, ih,
        Nat.add_right_comm]
      rfl
    · nofun

/-- A word ends at the end of its line, where the next line does not belong to it. -/
theorem plainFrom_newline (h : Closes indent column next) :
    plainFrom false indent read .none (newline column ++ next) line start =
      some (read, ⟨next, line + 1, column⟩) := by
  rw [newline, List.cons_append, plainFrom]
  · rw [if_pos (by decide)]
    show plainFrom false indent read (.lines false 0) _ _ 0 = _
    rw [plainFrom_blanks, Nat.zero_add]
    rcases h with rfl | ⟨hcolumn, htoken⟩
    · rfl
    · obtain ⟨c, t, rfl, hbreak, hspace, -⟩ := htoken.start
      have hends : endsPlain false indent (.lines false 0) ⟨c :: t, line + 1, column⟩ = true := by
        simp [endsPlain, hcolumn]
      rw [plainFrom]
      · rw [hbreak, hspace, hends]
        rfl
      · intro r hr
        exact absurd hr (ne_return_of_not_break hbreak)
  · nofun
  · nofun

/-- A word begins as neither a quoted scalar nor anything else. -/
theorem scalar_eq_plain (h : Word w) :
    Cursor.scalar false indent ⟨w ++ rest, line, start⟩ =
      Cursor.plain false indent ⟨w ++ rest, line, start⟩ := by
  obtain ⟨c, t, rfl, hstart⟩ := h.start
  simp only [startsWord, reservedSigns, List.contains_cons, List.contains_nil, Bool.or_false,
    Bool.and_eq_true, Bool.not_eq_true', Bool.or_eq_false_iff, bne_iff_ne, beq_eq_false_iff_ne]
    at hstart
  obtain ⟨⟨⟨⟨⟨⟨hc, hbracket⟩, hreserved⟩, hdash⟩, hquestion⟩, -⟩, -⟩ := hstart
  obtain ⟨-, hbreak, hspace, hcolon⟩ := isWordChar_iff.mp hc
  have hstarts : Cursor.startsPlain false ⟨c :: (t ++ rest), line, start⟩ = true := by
    simp [Cursor.startsPlain, endsWord, reservedSigns, *]
  have hquotes : c ≠ '"' ∧ c ≠ '\'' := by
    simp [hreserved]
  simp only [Cursor.scalar, List.cons_append, hstarts]
  simp [hquotes]

/-- **A word at the end of its line reads back.** -/
theorem scalar_word (h : Word w) (hnext : Closes indent column next) :
    Cursor.scalar false indent ⟨w ++ (newline column ++ next), line, start⟩ =
      some (.scalar (String.ofList w) true, ⟨next, line + 1, column⟩) := by
  rw [scalar_eq_plain h, Cursor.plain, plainFrom_word h.chars, plainFrom_newline hnext]
  simp

/-- **A word in front of a colon reads back.** -/
theorem scalar_word_key (h : Word w) (hrest : endsWord rest = true) :
    Cursor.scalar false indent ⟨w ++ ':' :: rest, line, start⟩ =
      some (.scalar (String.ofList w) true, ⟨':' :: rest, line, start + w.length⟩) := by
  rw [scalar_eq_plain h, Cursor.plain, plainFrom_word h.chars, plainFrom_colon hrest]
  simp

/-! ## Quotes -/

variable {bound : Nat} {gap : Gap}

theorem atEnd_of_pos (c : Char) (s : List Char) (h : 0 < start) :
    Cursor.atEnd ⟨c :: s, line, start⟩ = false := by
  simp [Cursor.atEnd, Cursor.atMark, Nat.ne_of_gt h]

theorem doubleFrom_close (h : 0 < start) :
    doubleFrom (bound + 1) read gap ⟨'"' :: rest, line, start⟩ =
      some (gap.fold.reverse ++ read, ⟨rest, line, start + 1⟩) := by
  rw [doubleFrom, atEnd_of_pos _ _ h]
  rfl

/-- What an escape stands for is told by its letter, and by the digits behind it. -/
theorem doubleFrom_backslash {c : Char} (h : 0 < start) (hbreak : isBreak c = false) :
    doubleFrom (bound + 1) read gap ⟨'\\' :: c :: rest, line, start⟩ =
      match escapeLetter c, escapeDigits c with
      | some x, _ => doubleFrom bound (extend read gap x) .none ⟨rest, line, start + 2⟩
      | none, some n =>
        if rest.length < n then none else do
          let x ← charOfHex (rest.take n)
          doubleFrom bound (extend read gap x) .none ⟨rest.drop n, line, start + 2 + n⟩
      | none, none => none := by
  rw [doubleFrom, atEnd_of_pos _ _ h, if_neg Bool.false_ne_true]
  split
  next heq => cases heq
  next heq => simp at heq
  next heq => simp at heq
  next heq =>
    simp only [List.cons.injEq] at heq
    exact absurd heq.2.1 (ne_return_of_not_break hbreak)
  next heq =>
    cases heq
    rw [hbreak]
    rfl
  next hslash heq =>
    cases heq
    exact absurd rfl (hslash c rest rfl)

theorem doubleFrom_letter {c x : Char} (h : 0 < start) (hx : escapeLetter c = some x)
    (hbreak : isBreak c = false) :
    doubleFrom (bound + 1) read gap ⟨'\\' :: c :: rest, line, start⟩ =
      doubleFrom bound (extend read gap x) .none ⟨rest, line, start + 2⟩ := by
  rw [doubleFrom_backslash h hbreak, hx]

theorem doubleFrom_hex {digits : List Char} {x : Char} (h : 0 < start) (hlength : digits.length = 4)
    (hx : charOfHex digits = some x) :
    doubleFrom (bound + 1) read gap ⟨'\\' :: 'u' :: (digits ++ rest), line, start⟩ =
      doubleFrom bound (extend read gap x) .none ⟨rest, line, start + 6⟩ := by
  have hshort : ¬ (digits ++ rest).length < 4 := by
    rw [List.length_append]
    omega
  rw [doubleFrom_backslash h (by decide)]
  show (if (digits ++ rest).length < 4 then none else _) = _
  rw [if_neg hshort, ← hlength, List.take_left, List.drop_left, hx, hlength]
  rfl

theorem doubleFrom_cons {c : Char} (h : 0 < start) (hquote : c ≠ '"') (hslash : c ≠ '\\')
    (hbreak : isBreak c = false) :
    doubleFrom (bound + 1) read gap ⟨c :: rest, line, start⟩ =
      if isSpace c then doubleFrom bound read (gap.addSpace c) ⟨rest, line, start + 1⟩
      else doubleFrom bound (extend read gap c) .none ⟨rest, line, start + 1⟩ := by
  rw [doubleFrom, atEnd_of_pos _ _ h, if_neg Bool.false_ne_true]
  split
  next heq => cases heq
  next heq =>
    cases heq
    exact absurd rfl (ne_return_of_not_break hbreak)
  next heq =>
    cases heq
    exact absurd rfl hquote
  next heq =>
    cases heq
    exact absurd rfl hslash
  next heq =>
    cases heq
    exact absurd rfl hslash
  next heq =>
    cases heq
    rw [hbreak]
    rfl

/-- A gap of spaces only. -/
def Gap.OnLine : Gap → Prop
  | .none | .spaces _ => True
  | .lines _ _ => False

theorem Gap.OnLine.addSpace (h : gap.OnLine) (c : Char) :
    (gap.addSpace c).OnLine ∧ (gap.addSpace c).fold.reverse = c :: gap.fold.reverse := by
  cases gap with
  | none => exact ⟨trivial, rfl⟩
  | spaces text => exact ⟨trivial, by simp [addSpace, fold]⟩
  | lines escaped more => cases h

theorem charOfHex_control {c : Char} (hc : c.toNat < 0x20) :
    charOfHex ['0', '0', Json.hexDigit (c.toNat / 16), Json.hexDigit (c.toNat % 16)] = some c := by
  have hzero : Json.Reader.hexValue '0' = some 0 := by decide
  have hhigh := Json.Reader.hexValue_hexDigit (n := c.toNat / 16) (by omega)
  have hlow := Json.Reader.hexValue_hexDigit (n := c.toNat % 16) (by omega)
  have hvalid : c.toNat.isValidChar := .inl (by omega)
  simp [charOfHex, hzero, hhigh, hlow, Nat.div_add_mod', hvalid]

/-- What is written for a character between quotes reads as the character, behind what is read
so far. -/
theorem doubleFrom_escape {c : Char} (hc : isQuotable c = true) (hgap : gap.OnLine)
    (h : 0 < start) (line : Nat) (read : List Char) :
    ∃ read' gap' start', gap'.OnLine ∧ 0 < start' ∧
      gap'.fold.reverse ++ read' = c :: (gap.fold.reverse ++ read) ∧ ∀ bound rest,
        doubleFrom (bound + 1) read gap ⟨Json.escape c ++ rest, line, start⟩ =
          doubleFrom bound read' gap' ⟨rest, line, start'⟩ := by
  rcases Json.Reader.escape_forms c with ⟨x, hx, hescape⟩ | ⟨hcontrol, hescape⟩ |
    ⟨hescape, hquote, hslash, hcontrol⟩
  · obtain ⟨hletter, hbreak⟩ : escapeLetter x = some c ∧ isBreak x = false := by
      have hall : ∀ p ∈ Json.Reader.shortEscapes,
          escapeLetter p.1 = some p.2 ∧ isBreak p.1 = false := by decide
      exact hall _ hx
    refine ⟨extend read gap c, .none, start + 2, trivial, by omega, rfl, ?_⟩
    intro bound rest
    rw [hescape]
    exact doubleFrom_letter h hletter hbreak
  · refine ⟨extend read gap c, .none, start + 6, trivial, by omega, rfl, ?_⟩
    intro bound rest
    rw [hescape]
    exact doubleFrom_hex h rfl (charOfHex_control hcontrol)
  · have hbreak : isBreak c = false := by
      simp only [isQuotable, hcontrol, decide_false, Bool.false_or, Bool.and_eq_true,
        Bool.not_eq_true'] at hc
      exact hc.2
    rw [hescape]
    by_cases hspace : isSpace c = true
    · obtain ⟨hgap', hfold⟩ := hgap.addSpace c
      refine ⟨read, gap.addSpace c, start + 1, hgap', by omega, by rw [hfold]; rfl, ?_⟩
      intro bound rest
      rw [List.singleton_append, doubleFrom_cons h hquote hslash hbreak, if_pos hspace]
    · refine ⟨extend read gap c, .none, start + 1, trivial, by omega, rfl, ?_⟩
      intro bound rest
      rw [List.singleton_append, doubleFrom_cons h hquote hslash hbreak, if_neg hspace]

theorem length_le_flatMap_escape (cs : List Char) :
    cs.length ≤ (cs.flatMap Json.escape).length := by
  induction cs with
  | nil => exact Nat.le_refl 0
  | cons c cs ih =>
    have hone : 1 ≤ (Json.escape c).length := by
      rcases Json.Reader.escape_forms c with ⟨x, -, h⟩ | ⟨-, h⟩ | ⟨h, -⟩
      all_goals simp [h]
    rw [List.length_cons, List.flatMap_cons, List.length_append]
    omega

/-- What is written between quotes reads back, up to the closing quote. -/
theorem doubleFrom_text {cs : List Char} (hcs : ∀ c ∈ cs, isQuotable c = true) (hgap : gap.OnLine)
    (h : 0 < start) (hbound : cs.length < bound) (line : Nat) (read rest : List Char) :
    ∃ start', doubleFrom bound read gap ⟨cs.flatMap Json.escape ++ '"' :: rest, line, start⟩ =
      some (cs.reverse ++ (gap.fold.reverse ++ read), ⟨rest, line, start'⟩) := by
  induction cs generalizing bound read gap start with
  | nil =>
    obtain ⟨bound, rfl⟩ := Nat.exists_eq_succ_of_ne_zero (Nat.ne_of_gt hbound)
    exact ⟨start + 1, doubleFrom_close h⟩
  | cons c cs ih =>
    obtain ⟨hc, hcs⟩ := List.forall_mem_cons.mp hcs
    rw [List.length_cons] at hbound
    obtain ⟨bound, rfl⟩ := Nat.exists_eq_succ_of_ne_zero (Nat.ne_zero_of_lt hbound)
    obtain ⟨read', gap', start', hgap', hstart', hread, hescape⟩ :=
      doubleFrom_escape hc hgap h line read
    obtain ⟨last, hlast⟩ := ih hcs hgap' hstart' (Nat.lt_of_succ_lt_succ hbound) read'
    refine ⟨last, ?_⟩
    rw [List.flatMap_cons, List.append_assoc, hescape, hlast, hread, List.reverse_cons,
      List.append_assoc]
    rfl

/-- **A text in double quotes reads back**, whatever follows it. -/
theorem scalar_quoted {text : String} (htext : ∀ c ∈ text.toList, isQuotable c = true)
    (indent line start : Nat) (rest : List Char) :
    ∃ start', Cursor.scalar false indent ⟨Json.quoted text ++ rest, line, start⟩ =
      some (.scalar text false, ⟨rest, line, start'⟩) := by
  have hquoted : Json.quoted text ++ rest =
      '"' :: (text.toList.flatMap Json.escape ++ '"' :: rest) := by
    simp [Json.quoted]
  have hlength : text.toList.length <
      (text.toList.flatMap Json.escape ++ '"' :: rest).length + 1 := by
    have hle := length_le_flatMap_escape text.toList
    rw [List.length_append]
    omega
  have hgap : Gap.none.OnLine := trivial
  obtain ⟨start', hread⟩ := doubleFrom_text htext hgap (Nat.succ_pos start) hlength line [] rest
  refine ⟨start', ?_⟩
  have hscalar : Cursor.scalar false indent ⟨Json.quoted text ++ rest, line, start⟩ =
      Cursor.quoted ⟨Json.quoted text ++ rest, line, start⟩ := by
    rw [hquoted]
    rfl
  rw [hscalar, hquoted]
  refine (congrArg (Option.map fun p => (Node.scalar (String.ofList p.1.reverse) false, p.2))
    hread).trans ?_
  simp [Gap.fold]

end Tabular.Yaml
