/-!
# JSON tokens

A JSON text is blanks and tokens. A number token keeps its digits and a string token its escaped
code units, because what they stand for, and whether they stand for anything, is decided by who
reads them. Main statement: a token that was read leaves a shorter rest.
-/

namespace CheckpointStore.Json

/-- The spelling of a number. -/
structure NumberText where
  negative : Bool
  whole : List Nat
  /-- Digits after the point, none without a point -/
  fraction : List Nat := []
  /-- Whether the exponent is negative, and its digits -/
  exponent : Option (Bool × List Nat) := none
  deriving DecidableEq, Repr

/-- A piece of a string: a character, or an escaped UTF-16 code unit. -/
inductive Piece where
  | char (c : Char)
  | unit (code : Nat)
  deriving DecidableEq, Repr

/-- A value without parts. -/
inductive Atom where
  | null
  | bool (value : Bool)
  | number (text : NumberText)
  | string (pieces : List Piece)
  deriving DecidableEq, Repr

/-- A token of JSON text. -/
inductive Token where
  | openArray
  | closeArray
  | openObject
  | closeObject
  | comma
  | colon
  | atom (value : Atom)
  deriving DecidableEq, Repr

namespace Token

def isBlank (c : Char) : Bool := c == ' ' || c == '\t' || c == '\n' || c == '\r'

def digit? (c : Char) : Option Nat := if '0' ≤ c ∧ c ≤ '9' then some (c.toNat - 48) else none

def hexDigit? (c : Char) : Option Nat :=
  if '0' ≤ c ∧ c ≤ '9' then some (c.toNat - 48)
  else if 'a' ≤ c ∧ c ≤ 'f' then some (c.toNat - 87)
  else if 'A' ≤ c ∧ c ≤ 'F' then some (c.toNat - 55)
  else none

def escape? : Char → Option Char
  | '"' => some '"'
  | '\\' => some '\\'
  | '/' => some '/'
  | 'b' => some '\x08'
  | 'f' => some '\x0c'
  | 'n' => some '\n'
  | 'r' => some '\r'
  | 't' => some '\t'
  | _ => none

/-- Reads the digits at the front, after those in `read`, which is reversed. -/
def takeDigits (read : List Nat) : List Char → List Nat × List Char
  | [] => (read.reverse, [])
  | c :: rest =>
    match digit? c with
    | some d => takeDigits (d :: read) rest
    | none => (read.reverse, c :: rest)

/-- Reads the digits at the front, of which there must be one. -/
def takeDigits? (text : List Char) : Option (List Nat × List Char) :=
  match takeDigits [] text with
  | ([], _) => none
  | found => some found

def takeWhole? : List Char → Option (List Nat × List Char)
  | '0' :: rest => some ([0], rest)
  | text => takeDigits? text

/-- Reads a point and the digits after it, if there is a point. -/
def takeFraction? : List Char → Option (List Nat × List Char)
  | '.' :: rest => takeDigits? rest
  | text => some ([], text)

def takeSign : List Char → Bool × List Char
  | '+' :: rest => (false, rest)
  | '-' :: rest => (true, rest)
  | text => (false, text)

def takeExponent? : List Char → Option (Option (Bool × List Nat) × List Char)
  | [] => some (none, [])
  | c :: rest =>
    if c = 'e' ∨ c = 'E' then
      (takeDigits? (takeSign rest).2).map fun (digits, rest') => (some ((takeSign rest).1, digits), rest')
    else some (none, c :: rest)

def takeMagnitude? (negative : Bool) (text : List Char) : Option (Atom × List Char) :=
  match takeWhole? text with
  | none => none
  | some (whole, text) =>
    match takeFraction? text with
    | none => none
    | some (fraction, text) =>
      match takeExponent? text with
      | none => none
      | some (exponent, text) => some (.number ⟨negative, whole, fraction, exponent⟩, text)

/-- Reads a string after its opening quote, behind the pieces in `read`, which are reversed. -/
def takeString? (read : List Piece) : List Char → Option (List Piece × List Char)
  | [] => none
  | '"' :: rest => some (read.reverse, rest)
  | '\\' :: 'u' :: a :: b :: c :: d :: rest =>
    match hexDigit? a, hexDigit? b, hexDigit? c, hexDigit? d with
    | some a, some b, some c, some d => takeString? (.unit (((a * 16 + b) * 16 + c) * 16 + d) :: read) rest
    | _, _, _, _ => none
  | '\\' :: c :: rest =>
    match escape? c with
    | some c => takeString? (.char c :: read) rest
    | none => none
  | c :: rest => if c < ' ' then none else takeString? (.char c :: read) rest

/-- Reads one token at the front of a text that does not start with a blank. -/
def take? : List Char → Option (Token × List Char)
  | '[' :: rest => some (.openArray, rest)
  | ']' :: rest => some (.closeArray, rest)
  | '{' :: rest => some (.openObject, rest)
  | '}' :: rest => some (.closeObject, rest)
  | ',' :: rest => some (.comma, rest)
  | ':' :: rest => some (.colon, rest)
  | 'n' :: 'u' :: 'l' :: 'l' :: rest => some (.atom .null, rest)
  | 't' :: 'r' :: 'u' :: 'e' :: rest => some (.atom (.bool true), rest)
  | 'f' :: 'a' :: 'l' :: 's' :: 'e' :: rest => some (.atom (.bool false), rest)
  | '"' :: rest => (takeString? [] rest).map fun (pieces, rest) => (.atom (.string pieces), rest)
  | '-' :: rest => (takeMagnitude? true rest).map fun (number, rest) => (.atom number, rest)
  | text => (takeMagnitude? false text).map fun (number, rest) => (.atom number, rest)

theorem length_takeDigits (read : List Nat) (text : List Char) :
    (takeDigits read text).2.length + (takeDigits read text).1.length = text.length + read.length := by
  induction text generalizing read with
  | nil => simp [takeDigits]
  | cons c rest ih =>
    rw [takeDigits]
    split
    · rw [ih]; simp; omega
    · simp

theorem takeDigits?_length {text rest : List Char} {digits : List Nat}
    (h : takeDigits? text = some (digits, rest)) : rest.length < text.length := by
  have total := length_takeDigits [] text
  unfold takeDigits? at h
  generalize takeDigits [] text = found at total h
  obtain ⟨read, left⟩ := found
  cases read with
  | nil => cases h
  | cons d ds =>
    cases h
    simp at total
    omega

theorem takeWhole?_length {text rest : List Char} {digits : List Nat}
    (h : takeWhole? text = some (digits, rest)) : rest.length < text.length := by
  unfold takeWhole? at h
  split at h
  · cases h; simp
  · exact takeDigits?_length h

theorem takeFraction?_length {text rest : List Char} {digits : List Nat}
    (h : takeFraction? text = some (digits, rest)) : rest.length ≤ text.length := by
  unfold takeFraction? at h
  split at h
  · have := takeDigits?_length h
    simp; omega
  · cases h; exact Nat.le_refl _

theorem takeSign_length (text : List Char) : (takeSign text).2.length ≤ text.length := by
  unfold takeSign
  split <;> simp

theorem takeExponent?_length {text rest : List Char} {exponent : Option (Bool × List Nat)}
    (h : takeExponent? text = some (exponent, rest)) : rest.length ≤ text.length := by
  unfold takeExponent? at h
  split at h
  · cases h; exact Nat.le_refl _
  · rename_i c tail
    split at h
    · obtain ⟨⟨digits, rest'⟩, found, same⟩ := Option.map_eq_some_iff.mp h
      cases same
      have := takeDigits?_length found
      have := takeSign_length tail
      simp; omega
    · cases h; exact Nat.le_refl _

theorem takeMagnitude?_length {negative : Bool} {text rest : List Char} {number : Atom}
    (h : takeMagnitude? negative text = some (number, rest)) : rest.length < text.length := by
  unfold takeMagnitude? at h
  split at h
  · cases h
  · rename_i whole text₁ first
    split at h
    · cases h
    · rename_i fraction text₂ second
      split at h
      · cases h
      · rename_i exponent text₃ third
        cases h
        have := takeWhole?_length first
        have := takeFraction?_length second
        have := takeExponent?_length third
        omega

theorem takeString?_length {read pieces : List Piece} {text rest : List Char}
    (h : takeString? read text = some (pieces, rest)) : rest.length < text.length := by
  fun_induction takeString? read text <;> simp_all <;> omega

theorem take?_length {text rest : List Char} {token : Token} (h : take? text = some (token, rest)) :
    rest.length < text.length := by
  unfold take? at h
  split at h
  case h_10 =>
    obtain ⟨⟨pieces, rest'⟩, found, same⟩ := Option.map_eq_some_iff.mp h
    cases same
    have := takeString?_length found
    simp; omega
  case h_11 =>
    obtain ⟨⟨number, rest'⟩, found, same⟩ := Option.map_eq_some_iff.mp h
    cases same
    have := takeMagnitude?_length found
    simp; omega
  case h_12 =>
    obtain ⟨⟨number, rest'⟩, found, same⟩ := Option.map_eq_some_iff.mp h
    cases same
    exact takeMagnitude?_length found
  all_goals cases h; simp <;> omega

/-- The tokens of a text behind those in `read`, which are reversed. -/
def ofText? (read : List Token) (text : List Char) : Option (List Token) :=
  match text with
  | [] => some read.reverse
  | c :: rest =>
    if isBlank c then ofText? read rest
    else
      match _h : take? (c :: rest) with
      | none => none
      | some (token, rest') => ofText? (token :: read) rest'
termination_by text.length
decreasing_by
  · simp
  · exact take?_length ‹_›

end Token
end CheckpointStore.Json
