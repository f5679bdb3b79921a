import Tabular.Json.Fault

/-!
# Reading JSON

A reader takes a value off the front of a text and answers with it and what is
left, which is shorter; so a loop over items ends by itself, and only the depth
of nesting is bounded by a number. A failure says what could not be read.

A text as a whole is one value with blanks around it (`readAll`). Lists and
objects are read by `items` and `members`, which take the reader of what stands
inside, so a reader of another shape of value is put together from the same
parts.
-/

namespace Tabular.Json

/-- A value that was read off the front of `text`, and the rest. -/
structure Taken (α : Type) (text : List Char) where
  value : α
  rest : List Char
  /-- Reading makes progress. -/
  shorter : rest.length < text.length

/-- What reads a value off the front of a text. -/
abbrev Reader (α : Type) := (text : List Char) → Except Failure (Taken α text)

/-- Another value in place of the one read. -/
def Taken.map {α β : Type} {text : List Char} (f : α → β) (t : Taken α text) : Taken β text :=
  ⟨f t.value, t.rest, t.shorter⟩

/-- What was read off an end of a text, as read off the text. -/
def Taken.widen {α : Type} {text whole : List Char} (h : text.length ≤ whole.length)
    (t : Taken α text) : Taken α whole :=
  ⟨t.value, t.rest, Nat.lt_of_lt_of_le t.shorter h⟩

namespace Reader

/-- A refusal of the next byte, which belongs to the report. -/
def refuse {α : Type} (fault : Fault) (rest : List Char) : Except Failure α :=
  .error ⟨fault, rest, 1⟩

/-- A failure behind the last character read. -/
def stop {α : Type} (fault : Fault) (rest : List Char) : Except Failure α :=
  .error ⟨fault, rest, 0⟩

/-! ## Blanks -/

/-- The characters that may stand between tokens. -/
def isBlank (c : Char) : Bool := c = ' ' || c = '\n' || c = '\t' || c = '\r'

def skip (s : List Char) : List Char := s.dropWhile isBlank

theorem length_dropWhile_le (p : Char → Bool) (s : List Char) :
    (s.dropWhile p).length ≤ s.length :=
  (List.dropWhile_sublist p).length_le

theorem length_skip_le (s : List Char) : (skip s).length ≤ s.length :=
  length_dropWhile_le isBlank s

theorem length_lt_of_skip_eq {s r : List Char} {c : Char} (h : skip s = c :: r) :
    r.length < s.length := by
  have := length_skip_le s
  rw [h, List.length_cons] at this
  exact this

/-! ## Words -/

/-- Passes over the remaining letters of a word. -/
def word (letters : List Char) (s : List Char) :
    Except Failure { r : List Char // r.length ≤ s.length } :=
  match letters, s with
  | [], s => .ok ⟨s, Nat.le_refl _⟩
  | _ :: _, [] => stop .valueEnds []
  | l :: letters, c :: s =>
    if c = l then (word letters s).map fun r => ⟨r.1, Nat.le_succ_of_le r.2⟩
    else refuse .wordExpected (c :: s)

/-! ## Numbers -/

def digitValue (c : Char) : Nat := c.toNat - '0'.toNat

/-- The number that a row of digits stands for, behind one already read. -/
def digitsValue (start : Nat) (digits : List Char) : Nat :=
  digits.foldl (fun n c => 10 * n + digitValue c) start

def digits (s : List Char) : List Char := s.takeWhile Char.isDigit

def afterDigits (s : List Char) : List Char := s.dropWhile Char.isDigit

/-- The greatest exponent that is read; the digit that exceeds it ends a number
that is too large. -/
def greatestExponent : Nat := 2147483647

/-- What follows the digit with which an exponent exceeds the greatest one. -/
def exponentOverflow (n : Nat) : List Char → Option (List Char)
  | [] => none
  | c :: s =>
    if c.isDigit then
      if greatestExponent < 10 * n + digitValue c then some s
      else exponentOverflow (10 * n + digitValue c) s
    else none

/-- The parts of a number that has a point or an exponent, or is too long for a
whole number. -/
structure Numeral where
  negative : Bool
  /-- The digits in front of the point and behind it. -/
  digits : List Char
  /-- How many of them stand behind the point. -/
  places : Nat
  /-- What the exponent says. -/
  exponent : Int

def Numeral.decimal (n : Numeral) : Decimal :=
  ⟨digitsValue 0 n.digits, n.exponent - n.places⟩

/-- The finite number nearest to a numeral, if there is one. -/
def Numeral.number (n : Numeral) : Option Number :=
  let x := Binary64.ofMagnitude n.negative n.decimal.magnitude
  if h : x.isFinite = true then some (.real x h) else none

/-- The whole numbers that are kept as such: those of 64 bits, with a sign or
without. Minus zero is none of them. -/
def wholeNumber (negative : Bool) (n : Nat) : Option Number :=
  if negative then
    if n = 0 ∨ 0x8000000000000000 < n then none else some (.integer (-n))
  else if n < 0x10000000000000000 then some (.integer n)
  else none

def exponent (mantissa : Numeral) (s : List Char) :
    Except Failure { p : Number × List Char // p.2.length ≤ s.length } :=
  let negative := s.head? = some '-'
  let unsigned := if s.head? = some '-' ∨ s.head? = some '+' then s.drop 1 else s
  match unsigned with
  | [] => stop .valueEnds []
  | c :: _ =>
    if c.isDigit then
      let size := digitsValue 0 (digits unsigned)
      let value : Int := if negative then -size else size
      match ({ mantissa with exponent := value } : Numeral).number with
      | some x => .ok ⟨(x, afterDigits unsigned), by
          have h := length_dropWhile_le Char.isDigit unsigned
          simp only [afterDigits]
          refine Nat.le_trans h ?_
          simp only [unsigned]
          split
          · simp
          · exact Nat.le_refl _⟩
      | none => stop .numberOutOfRange ((exponentOverflow 0 unsigned).getD (afterDigits unsigned))
    else refuse .invalidNumber unsigned

/-- What may follow the whole part of a number: a point with digits, and an
exponent. -/
def fraction (negative : Bool) (whole : List Char) (s : List Char) :
    Except Failure { p : Number × List Char // p.2.length ≤ s.length } :=
  match s with
  | '.' :: s =>
    let places := digits s
    let mantissa : Numeral := ⟨negative, whole ++ places, places.length, 0⟩
    have hle := length_dropWhile_le Char.isDigit s
    if places.isEmpty then
      match s with
      | [] => stop .valueEnds []
      | c :: s => refuse .invalidNumber (c :: s)
    else
      match h : afterDigits s with
      | 'e' :: r => (exponent mantissa r).map fun p => ⟨p.1, by
          simp only [afterDigits] at h
          have := p.2
          simp only [h, List.length_cons] at hle ⊢
          omega⟩
      | 'E' :: r => (exponent mantissa r).map fun p => ⟨p.1, by
          simp only [afterDigits] at h
          have := p.2
          simp only [h, List.length_cons] at hle ⊢
          omega⟩
      | r =>
        match mantissa.number with
        | some x => .ok ⟨(x, r), by
            simp only [afterDigits] at h
            simp only [h] at hle
            exact Nat.le_succ_of_le hle⟩
        | none => stop .numberOutOfRange r
  | 'e' :: r =>
    (exponent ⟨negative, whole, 0, 0⟩ r).map fun p => ⟨p.1, Nat.le_succ_of_le p.2⟩
  | 'E' :: r =>
    (exponent ⟨negative, whole, 0, 0⟩ r).map fun p => ⟨p.1, Nat.le_succ_of_le p.2⟩
  | r =>
    match wholeNumber negative (digitsValue 0 whole) with
    | some x => .ok ⟨(x, r), Nat.le_refl _⟩
    | none =>
      match Numeral.number ⟨negative, whole, 0, 0⟩ with
      | some x => .ok ⟨(x, r), Nat.le_refl _⟩
      | none => stop .numberOutOfRange r

/-- A number without its sign. A leading zero stands alone. -/
def unsignedNumber (negative : Bool) : Reader Number := fun s =>
  match s with
  | [] => stop .valueEnds []
  | c :: s =>
    if c = '0' then
      match s with
      | d :: r =>
        if d.isDigit then refuse .invalidNumber (d :: r)
        else (fraction negative ['0'] (d :: r)).map fun p => ⟨p.1.1, p.1.2, Nat.lt_succ_of_le p.2⟩
      | [] => (fraction negative ['0'] []).map fun p => ⟨p.1.1, p.1.2, Nat.lt_succ_of_le p.2⟩
    else if c.isDigit then
      (fraction negative (c :: digits s) (afterDigits s)).map fun p =>
        ⟨p.1.1, p.1.2, Nat.lt_succ_of_le (Nat.le_trans p.2 (length_dropWhile_le _ s))⟩
    else refuse .invalidNumber (c :: s)

def number : Reader Number := fun s =>
  match s with
  | '-' :: s => (unsignedNumber true s).map (Taken.widen (Nat.le_succ _))
  | s => unsignedNumber false s

/-! ## Strings -/

def hexValue (c : Char) : Option Nat :=
  if c.isDigit then some (c.toNat - '0'.toNat)
  else if 'a' ≤ c ∧ c ≤ 'f' then some (c.toNat - 'a'.toNat + 10)
  else if 'A' ≤ c ∧ c ≤ 'F' then some (c.toNat - 'A'.toNat + 10)
  else none

/-- The number that four hexadecimal digits stand for. -/
def hexQuad (s : List Char) :
    Except Failure { p : Nat × List Char // p.2.length < s.length } :=
  match s with
  | a :: b :: c :: d :: r =>
    match hexValue a, hexValue b, hexValue c, hexValue d with
    | some w, some x, some y, some z =>
      .ok ⟨(((w * 16 + x) * 16 + y) * 16 + z, r), by simp only [List.length_cons]; omega⟩
    | _, _, _, _ => .error ⟨.invalidEscape, a :: b :: c :: d :: r, 4⟩
  | s => if (utf8 s).length < 4 then stop .stringEnds [] else .error ⟨.invalidEscape, s, 4⟩

/-- The character that a pair of surrogates encodes. -/
def surrogatePair (high low : Nat) : Char :=
  Char.ofNat (0x10000 + (high - 0xD800) * 0x400 + (low - 0xDC00))

/-- The character of a `\u` escape, behind its letter. A high surrogate needs a
low one in an escape of its own right behind it. -/
def unicodeEscape (s : List Char) :
    Except Failure { p : Char × List Char // p.2.length < s.length } := do
  let ⟨(high, rest), hhigh⟩ ← hexQuad s
  if 0xDC00 ≤ high ∧ high < 0xE000 then stop .loneSurrogate rest
  else if 0xD800 ≤ high ∧ high < 0xDC00 then
    match rest, hhigh with
    | '\\' :: 'u' :: t, hhigh =>
      let ⟨(low, rest), hlow⟩ ← hexQuad t
      if 0xDC00 ≤ low ∧ low < 0xE000 then
        .ok ⟨(surrogatePair high low, rest), by simp only [List.length_cons] at *; omega⟩
      else stop .loneSurrogate rest
    | '\\' :: c :: t, _ => refuse .surrogateEnds (c :: t)
    | ['\\'], _ => stop .stringEnds []
    | c :: t, _ => refuse .surrogateEnds (c :: t)
    | [], _ => stop .stringEnds []
  else .ok ⟨(Char.ofNat high, rest), hhigh⟩

def escaped (s : List Char) :
    Except Failure { p : Char × List Char // p.2.length < s.length } :=
  match s with
  | [] => stop .stringEnds []
  | 'u' :: r => (unicodeEscape r).map fun p => ⟨p.1, Nat.lt_succ_of_lt p.2⟩
  | c :: r =>
    let plain (x : Char) : Except Failure { p : Char × List Char // p.2.length < (c :: r).length } :=
      .ok ⟨(x, r), Nat.lt_succ_self _⟩
    if c = '"' ∨ c = '\\' ∨ c = '/' then plain c
    else if c = 'b' then plain '\x08'
    else if c = 'f' then plain '\x0c'
    else if c = 'n' then plain '\n'
    else if c = 'r' then plain '\r'
    else if c = 't' then plain '\t'
    else refuse .invalidEscape (c :: r)

/-- The characters up to the closing quotation mark, behind those already read,
which are kept last first. The bound is the text in which all of them stand. -/
def charactersFrom (whole : List Char) (read : List Char) (s : List Char)
    (h : s.length ≤ whole.length) : Except Failure (Taken String whole) :=
  match s with
  | [] => stop .stringEnds []
  | c :: r =>
    if c = '"' then .ok ⟨String.ofList read.reverse, r, h⟩
    else if c = '\\' then
      match escaped r with
      | .error e => .error e
      | .ok ⟨(x, rest), hr⟩ =>
        have hr : rest.length < r.length := hr
        charactersFrom whole (x :: read) rest (by simp only [List.length_cons] at h; omega)
    else if c.toNat < 0x20 then refuse .controlCharacter (c :: r)
    else charactersFrom whole (c :: read) r (Nat.le_of_succ_le h)
termination_by s.length
decreasing_by all_goals simp only [List.length_cons]; omega

/-- A string, behind its opening quotation mark. -/
def characters : Reader String := fun s => charactersFrom s [] s (Nat.le_refl _)

/-! ## Lists and objects -/

/-- The items behind a bracket or a comma, up to the closing bracket. Those
already read are kept last first. -/
def itemsFrom {α : Type} (item : Reader α) (whole : List Char) (read : List α) (s : List Char)
    (h : s.length ≤ whole.length) : Except Failure (Taken (List α) whole) :=
  match item s with
  | .error e => .error e
  | .ok ⟨value, rest, hrest⟩ =>
    match hs : skip rest with
    | ']' :: r =>
      .ok ⟨(value :: read).reverse, r, by have := length_lt_of_skip_eq hs; omega⟩
    | ',' :: r =>
      have hr := length_lt_of_skip_eq hs
      match skip r with
      | ']' :: t => refuse .trailingComma (']' :: t)
      | _ => itemsFrom item whole (value :: read) r (by omega)
    | [] => stop .listEnds []
    | c :: r => refuse .listSeparatorExpected (c :: r)
termination_by s.length

def items {α : Type} (item : Reader α) : Reader (List α) := fun s =>
  match hs : skip s with
  | ']' :: r => .ok ⟨[], r, length_lt_of_skip_eq hs⟩
  | [] => stop .listEnds []
  | _ => itemsFrom item s [] s (Nat.le_refl _)

/-- A key and what stands behind its colon. -/
def member {α : Type} (value : Reader α) : Reader (String × α) := fun s =>
  match hs : skip s with
  | '"' :: r =>
    match characters r with
    | .error e => .error e
    | .ok ⟨key, rest, hkey⟩ =>
      match hc : skip rest with
      | ':' :: t =>
        have hr := length_lt_of_skip_eq hs
        have ht := length_lt_of_skip_eq hc
        (value t).map fun v => ⟨(key, v.value), v.rest, by have := v.shorter; omega⟩
      | [] => stop .objectEnds []
      | c :: t => refuse .colonExpected (c :: t)
  | [] => stop .valueEnds []
  | c :: r => refuse .keyExpected (c :: r)

/-- The members behind a brace or a comma, up to the closing brace. A key that
comes again is bound anew. -/
def membersFrom {α : Type} (value : Reader α) (whole : List Char) (read : List (String × α))
    (s : List Char) (h : s.length ≤ whole.length) :
    Except Failure (Taken (List (String × α)) whole) :=
  match member value s with
  | .error e => .error e
  | .ok ⟨(key, v), rest, hrest⟩ =>
    match hs : skip rest with
    | '}' :: r => .ok ⟨put key v read, r, by have := length_lt_of_skip_eq hs; omega⟩
    | ',' :: r =>
      have hr := length_lt_of_skip_eq hs
      match skip r with
      | '}' :: t => refuse .trailingComma ('}' :: t)
      | _ => membersFrom value whole (put key v read) r (by omega)
    | [] => stop .objectEnds []
    | c :: r => refuse .objectSeparatorExpected (c :: r)
termination_by s.length

/-- An object, behind its brace. -/
def members {α : Type} (value : Reader α) : Reader (List (String × α)) := fun s =>
  match hs : skip s with
  | '}' :: r => .ok ⟨[], r, length_lt_of_skip_eq hs⟩
  | [] => stop .objectEnds []
  | _ => membersFrom value s [] s (Nat.le_refl _)

/-! ## Values -/

/-- A value in which lists and objects hold what `inner` reads; without `inner`
the value lies too deep to be one of them. -/
def valueWith (inner : Option (Reader Json)) : Reader Json := fun s =>
  match hs : skip s with
  | [] => stop .valueEnds []
  | c :: r =>
    have hr := length_lt_of_skip_eq hs
    have hcr : (c :: r).length ≤ s.length := hr
    if c = 'n' then
      (word ['u', 'l', 'l'] r).map fun t => ⟨null, t.1, Nat.lt_of_le_of_lt t.2 hr⟩
    else if c = 't' then
      (word ['r', 'u', 'e'] r).map fun t => ⟨bool true, t.1, Nat.lt_of_le_of_lt t.2 hr⟩
    else if c = 'f' then
      (word ['a', 'l', 's', 'e'] r).map fun t => ⟨bool false, t.1, Nat.lt_of_le_of_lt t.2 hr⟩
    else if c = '"' then
      (characters r).map fun t => (t.map string).widen (Nat.le_of_lt hr)
    else if c = '-' ∨ c.isDigit then
      (number (c :: r)).map fun t => (t.map Json.number).widen hcr
    else if c = '[' then
      match inner with
      | none => refuse .tooDeep (c :: r)
      | some inner => (items inner r).map fun t => (t.map array).widen (Nat.le_of_lt hr)
    else if c = '{' then
      match inner with
      | none => refuse .tooDeep (c :: r)
      | some inner => (members inner r).map fun t => (t.map object).widen (Nat.le_of_lt hr)
    else refuse .valueExpected (c :: r)

/-- A value with at most `depth` lists and objects around its innermost parts. -/
def value : (depth : Nat) → Reader Json
  | 0 => valueWith none
  | depth + 1 => valueWith (some (value depth))

end Reader

/-- The nesting that texts may have. -/
def deepest : Nat := 127

/-- The value that was read off the front of a text, if nothing but blanks
follows it. -/
def finish {α : Type} (text : String) (value : α) (rest : List Char) : Except Complaint α :=
  match Reader.skip rest with
  | [] => .ok value
  | c :: r => .error (Failure.complaint text.toList ⟨.trailingCharacters, c :: r, 1⟩)

/-- Reads a whole text. -/
def readAll {α : Type} (reader : Reader α) (text : String) : Except Complaint α :=
  match reader text.toList with
  | .error e => .error (e.complaint text.toList)
  | .ok taken => finish text taken.value taken.rest

/-- The value of a JSON text. -/
def read (text : String) : Except Complaint Json := readAll (Reader.value deepest) text

end Tabular.Json
