import CheckpointStore.Json.Decode
import CheckpointStore.Json.Encode

/-!
# Tokens of written documents

The text of a document is read as the tokens that it was written from, whatever follows it, as long as
a number is followed by a comma, a closing bracket or nothing.
-/

namespace CheckpointStore.Json

open Token

/-! ### Strings -/

def pieceOf (c : Char) : Piece :=
  if c = '\x08' ∨ c = '\x0c' ∨ c = '\n' ∨ c = '\r' ∨ c = '\t' then .char c
  else if c < ' ' then .unit c.toNat
  else .char c

def pieces (text : String) : List Piece := text.toList.map pieceOf

theorem hexDigits_control : ∀ n < 32, Hex.digits 4 n = ['0', '0', Hex.digit (n / 16), Hex.digit (n % 16)] ∧
    hexDigit? (Hex.digit (n / 16)) = some (n / 16) ∧ hexDigit? (Hex.digit (n % 16)) = some (n % 16) := by
  decide

theorem takeString?_control (read : List Piece) {c : Char} (control : c < ' ') (rest : List Char) :
    takeString? read (['\\', 'u'] ++ Hex.digits 4 c.toNat ++ rest) = takeString? (.unit c.toNat :: read) rest := by
  have low : c.toNat < 32 := control
  obtain ⟨digits, first, second⟩ := hexDigits_control c.toNat low
  have zero : hexDigit? '0' = some 0 := rfl
  have whole : ((0 * 16 + 0) * 16 + c.toNat / 16) * 16 + c.toNat % 16 = c.toNat := by omega
  rw [digits]
  simp only [List.cons_append, List.nil_append, takeString?, zero, first, second, whole]

theorem takeString?_escape (read : List Piece) (c : Char) (rest : List Char) :
    takeString? read (escape c ++ rest) = takeString? (pieceOf c :: read) rest := by
  by_cases quote : c = '"'
  · subst quote
    rfl
  by_cases slash : c = '\\'
  · subst slash
    rfl
  by_cases backspace : c = '\x08'
  · subst backspace
    rfl
  by_cases feed : c = '\x0c'
  · subst feed
    rfl
  by_cases newline : c = '\n'
  · subst newline
    rfl
  by_cases carriage : c = '\r'
  · subst carriage
    rfl
  by_cases tab : c = '\t'
  · subst tab
    rfl
  -- what is left is written by its number or as it is
  by_cases control : c < ' '
  · simp only [escape, pieceOf, quote, slash, backspace, feed, newline, carriage, tab, control, or_self, if_false, if_true]
    exact takeString?_control read control rest
  · simp only [escape, pieceOf, quote, slash, backspace, feed, newline, carriage, tab, control, or_self, if_false]
    show takeString? read (c :: rest) = _
    rw [takeString?]
    · rw [if_neg control]
    · exact quote
    · exact fun _ _ _ _ _ here _ => slash here
    · exact fun _ _ here _ => slash here

theorem takeString?_flatMap_escape (text : List Char) (read : List Piece) (rest : List Char) :
    takeString? read (text.flatMap escape ++ '"' :: rest) = some (read.reverse ++ text.map pieceOf, rest) := by
  induction text generalizing read with
  | nil => simp [takeString?]
  | cons c text ih =>
    rw [List.flatMap_cons, List.append_assoc, takeString?_escape, ih]
    simp

theorem take?_quote (text : String) (rest : List Char) :
    take? (quote text ++ rest) = some (.atom (.string (pieces text)), rest) := by
  have read := takeString?_flatMap_escape text.toList [] rest
  have shape : quote text ++ rest = '"' :: (text.toList.flatMap escape ++ '"' :: rest) := by
    simp [quote]
  rw [shape, take?, read]
  rfl

/-! ### Numbers -/

/-- A number before these characters does not go on in them. -/
def Stops (rest : List Char) : Prop := ∀ c more, rest = c :: more → digit? c = none ∧ c ≠ '.' ∧ c ≠ 'e' ∧ c ≠ 'E'

theorem stops_nil : Stops [] := nofun

theorem stops_cons {c : Char} (among : c ∈ [',', ']', '\x7d']) (rest : List Char) : Stops (c :: rest) := by
  have among : c = ',' ∨ c = ']' ∨ c = '\x7d' := by simpa using among
  rintro _ _ ⟨⟩
  rcases among with rfl | rfl | rfl
  · decide
  · decide
  · decide

section Behind

variable {text left rest : List Char} {digits : List Nat}

theorem takeDigits_append (stops : Stops rest) (read : List Nat) (text : List Char) :
    takeDigits read (text ++ rest) = ((takeDigits read text).1, (takeDigits read text).2 ++ rest) := by
  induction text generalizing read with
  | nil =>
    cases rest with
    | nil => rfl
    | cons c more => simp [takeDigits, (stops c more rfl).1]
  | cons c text ih =>
    rw [List.cons_append, takeDigits, takeDigits]
    cases digit? c with
    | none => rfl
    | some digit => exact ih _

theorem takeDigits?_append (stops : Stops rest) (taken : takeDigits? text = some (digits, left)) :
    takeDigits? (text ++ rest) = some (digits, left ++ rest) := by
  have behind := takeDigits_append stops [] text
  unfold takeDigits? at taken ⊢
  rw [behind]
  generalize takeDigits [] text = found at taken ⊢
  obtain ⟨read, more⟩ := found
  cases read with
  | nil => contradiction
  | cons digit read =>
    obtain ⟨rfl, rfl⟩ := Prod.mk.inj (Option.some.inj taken)
    rfl

theorem takeWhole?_append (stops : Stops rest) (taken : takeWhole? text = some (digits, left)) :
    takeWhole? (text ++ rest) = some (digits, left ++ rest) := by
  unfold takeWhole? at taken
  -- a zero in front is the whole part, whatever follows it
  split at taken
  · obtain ⟨rfl, rfl⟩ := Prod.mk.inj (Option.some.inj taken)
    rfl
  · rename_i plain
    rw [takeWhole?]
    · exact takeDigits?_append stops taken
    · intro more zero
      cases text with
      | nil => contradiction
      | cons c text =>
        obtain ⟨rfl, -⟩ := List.cons.inj zero
        exact plain text rfl

theorem takeFraction?_append (stops : Stops rest) (taken : takeFraction? text = some (digits, left)) :
    takeFraction? (text ++ rest) = some (digits, left ++ rest) := by
  unfold takeFraction? at taken
  split at taken
  · exact takeDigits?_append stops taken
  · rename_i plain
    obtain ⟨rfl, rfl⟩ := Prod.mk.inj (Option.some.inj taken)
    rw [takeFraction?]
    intro more point
    cases text with
    | nil => exact (stops '.' more point).2.1 rfl
    | cons c text =>
      obtain ⟨rfl, -⟩ := List.cons.inj point
      exact plain text rfl

theorem takeSign_append (some : text ≠ []) (rest : List Char) :
    takeSign (text ++ rest) = ((takeSign text).1, (takeSign text).2 ++ rest) := by
  cases text with
  | nil => contradiction
  | cons c text =>
    unfold takeSign
    split <;> simp_all

theorem takeExponent?_append {exponent : Option (Bool × List Nat)} (stops : Stops rest)
    (taken : takeExponent? text = some (exponent, left)) :
    takeExponent? (text ++ rest) = some (exponent, left ++ rest) := by
  cases text with
  | nil =>
    obtain ⟨rfl, rfl⟩ := Prod.mk.inj (Option.some.inj taken)
    cases rest with
    | nil => rfl
    | cons c more =>
      obtain ⟨-, -, lower, upper⟩ := stops c more rfl
      simp [takeExponent?, lower, upper]
  | cons c text =>
    rw [takeExponent?] at taken
    rw [List.cons_append, takeExponent?]
    split at taken
    · rename_i marked
      rw [if_pos marked]
      obtain ⟨⟨digits, more⟩, found, same⟩ := Option.map_eq_some_iff.mp taken
      obtain ⟨rfl, rfl⟩ := Prod.mk.inj same
      have some : text ≠ [] := by
        rintro rfl
        contradiction
      rw [takeSign_append some, takeDigits?_append stops found]
      rfl
    · rename_i plain
      rw [if_neg plain]
      obtain ⟨rfl, rfl⟩ := Prod.mk.inj (Option.some.inj taken)
      rfl

theorem takeMagnitude?_append {negative : Bool} {number : Atom} (stops : Stops rest)
    (taken : takeMagnitude? negative text = some (number, left)) :
    takeMagnitude? negative (text ++ rest) = some (number, left ++ rest) := by
  unfold takeMagnitude? at taken ⊢
  split at taken
  · contradiction
  rename_i whole first wholes
  split at taken
  · contradiction
  rename_i fraction second fractions
  split at taken
  · contradiction
  rename_i exponent third exponents
  obtain ⟨rfl, rfl⟩ := Prod.mk.inj (Option.some.inj taken)
  simp only [takeWhole?_append stops wholes, takeFraction?_append stops fractions, takeExponent?_append stops exponents]

theorem head_of_takeMagnitude? {negative : Bool} {number : Atom} (taken : takeMagnitude? negative text = some (number, left)) :
    ∃ c more, text = c :: more ∧ digit? c ≠ none := by
  cases text with
  | nil => contradiction
  | cons c more =>
    refine ⟨c, more, rfl, fun bare => ?_⟩
    have zero : c ≠ '0' := by
      rintro rfl
      contradiction
    have none : takeWhole? (c :: more) = none := by
      rw [takeWhole?]
      · simp [takeDigits?, takeDigits, bare]
      · exact fun _ same => zero (List.cons.inj same).1
    simp [takeMagnitude?, none] at taken

theorem take?_of_digit {c : Char} (digit : digit? c ≠ none) (rest : List Char) :
    take? (c :: rest) = (takeMagnitude? false (c :: rest)).map fun (number, rest) => (.atom number, rest) := by
  unfold take?
  split <;> rename_i same <;> first
    | rfl
    | (obtain ⟨rfl, -⟩ := List.cons.inj same
       contradiction)

/-- A number that was read is read as well when more follows that is not part of it. -/
theorem take?_number_append {number : NumberText} (stops : Stops rest)
    (taken : take? text = some (.atom (.number number), left)) :
    take? (text ++ rest) = some (.atom (.number number), left ++ rest) := by
  unfold take? at taken
  split at taken
  case h_11 more =>
    obtain ⟨⟨value, behind⟩, found, same⟩ := Option.map_eq_some_iff.mp taken
    obtain ⟨given, rfl⟩ := Prod.mk.inj same
    rw [List.cons_append, take?, takeMagnitude?_append stops found, Token.atom.inj given]
    rfl
  case h_12 =>
    obtain ⟨⟨value, behind⟩, found, same⟩ := Option.map_eq_some_iff.mp taken
    obtain ⟨given, rfl⟩ := Prod.mk.inj same
    obtain ⟨c, more, rfl, digit⟩ := head_of_takeMagnitude? found
    have longer := takeMagnitude?_append stops found
    rw [List.cons_append] at longer ⊢
    rw [take?_of_digit digit, longer, Token.atom.inj given]
    rfl
  case h_10 =>
    obtain ⟨⟨pieces, behind⟩, -, same⟩ := Option.map_eq_some_iff.mp taken
    cases same
  all_goals cases taken

end Behind

/-! ### Integers -/

def digitsOf (n : Nat) : List Nat := (writeNat n).map fun c => c.toNat - 48

theorem digit?_of_isDigit {c : Char} (digit : c.isDigit = true) : digit? c = some (c.toNat - 48) := by
  rw [digit?, if_pos]
  simpa [Char.isDigit, Char.le_def] using digit

theorem takeDigits_of_isDigit {text : List Char} (digits : ∀ c ∈ text, c.isDigit = true) (read : List Nat) :
    takeDigits read text = (read.reverse ++ text.map fun c => c.toNat - 48, []) := by
  induction text generalizing read with
  | nil => simp [takeDigits]
  | cons c text ih =>
    rw [takeDigits, digit?_of_isDigit (digits c List.mem_cons_self)]
    dsimp only
    rw [ih fun other mem => digits other (List.mem_cons_of_mem _ mem)]
    simp

theorem isDigit_of_mem_writeNat {n : Nat} {c : Char} (mem : c ∈ writeNat n) : c.isDigit = true :=
  Nat.isDigit_of_mem_toDigits (by decide) (by decide) mem

theorem head_writeNat {n : Nat} (positive : 0 < n) (more : List Char) : writeNat n ≠ '0' :: more := by
  induction n using Nat.strongRecOn generalizing more with
  | ind n ih =>
    unfold writeNat
    rw [Nat.toDigits_eq_if (by decide)]
    split
    · rename_i small
      have each : ∀ n < 10, 0 < n → n.digitChar ≠ '0' := by decide
      exact fun same => each n small positive (List.cons.inj same).1
    · rename_i large
      intro same
      have some := Nat.toDigits_ne_nil (n := n / 10) (b := 10)
      cases front : Nat.toDigits 10 (n / 10) with
      | nil => exact some front
      | cons c rest =>
        rw [front] at same
        obtain ⟨rfl, -⟩ := List.cons.inj same
        exact ih (n / 10) (by omega) (by omega) rest front

theorem takeWhole?_writeNat (n : Nat) : takeWhole? (writeNat n) = some (digitsOf n, []) := by
  have read := takeDigits_of_isDigit (fun c (mem : c ∈ writeNat n) => isDigit_of_mem_writeNat mem) []
  by_cases zero : n = 0
  · subst zero
    rfl
  · rw [takeWhole?]
    · rw [takeDigits?, read]
      have some : (writeNat n).map (fun c => c.toNat - 48) ≠ [] := by simp [writeNat]
      unfold digitsOf
      cases front : (writeNat n).map (fun c => c.toNat - 48) with
      | nil => contradiction
      | cons digit more => rfl
    · exact fun more => head_writeNat (by omega) more

theorem take?_writeInt (n : Int) :
    take? (writeInt n) = some (.atom (.number { negative := n < 0, whole := digitsOf n.natAbs }), []) := by
  have magnitude (negative : Bool) : takeMagnitude? negative (writeNat n.natAbs)
      = some (.number { negative, whole := digitsOf n.natAbs }, []) := by
    rw [takeMagnitude?, takeWhole?_writeNat]
    rfl
  unfold writeInt
  by_cases negative : n < 0
  · rw [if_pos negative, take?, magnitude]
    simp [negative]
  · obtain ⟨c, more, front, digit⟩ := head_of_takeMagnitude? (magnitude false)
    have found := magnitude false
    rw [front] at found
    rw [if_neg negative, front, take?_of_digit digit, found]
    simp [negative]

/-! ### Doubles -/

/-- The number that the text of a double is read as. -/
def floatText (x : Binary64) : NumberText :=
  match take? (writeFloat x) with
  | some (.atom (.number text), []) => text
  | _ => ⟨false, [], [], none⟩

/-- The double is what its own text stands for. -/
def ReadsBack (x : Binary64) : Prop :=
  take? (writeFloat x) = some (.atom (.number (floatText x)), []) ∧ (floatText x).value? = some (.float x)

/-! ### Texts -/

theorem take?_of_isBlank {c : Char} (blank : isBlank c = true) (rest : List Char) : take? (c :: rest) = none := by
  have among : c = ' ' ∨ c = '\t' ∨ c = '\n' ∨ c = '\r' := by simpa [isBlank, or_assoc] using blank
  rcases among with rfl | rfl | rfl | rfl <;> rfl

theorem ofText?_of_take? {text rest : List Char} {token : Token} (taken : take? text = some (token, rest)) (read : List Token) :
    ofText? read text = ofText? (token :: read) rest := by
  cases text with
  | nil => contradiction
  | cons c more =>
    have plain : isBlank c = false := by
      refine Bool.eq_false_iff.mpr fun blank => ?_
      rw [take?_of_isBlank blank] at taken
      contradiction
    rw [ofText?, plain]
    simp only [Bool.false_eq_true, if_false]
    split
    · rename_i none
      rw [taken] at none
      contradiction
    · rename_i other behind found
      rw [taken] at found
      obtain ⟨rfl, rfl⟩ := Prod.mk.inj (Option.some.inj found)
      rfl

/-- A text is read as these tokens wherever a number may end behind it. -/
def Lexes (text : List Char) (tokens : List Token) : Prop :=
  ∀ read rest, Stops rest → ofText? read (text ++ rest) = ofText? (tokens.reverse ++ read) rest

section Lexes

variable {text : List Char} {token : Token}

theorem lexes_of_take? (taken : ∀ rest, Stops rest → take? (text ++ rest) = some (token, rest)) : Lexes text [token] :=
  fun read rest stops => ofText?_of_take? (taken rest stops) read

theorem lexes_quote (text : String) : Lexes (quote text) [.atom (.string (pieces text))] :=
  lexes_of_take? fun rest _ => take?_quote text rest

theorem lexes_number {text : List Char} {number : NumberText} (taken : take? text = some (.atom (.number number), [])) :
    Lexes text [.atom (.number number)] := lexes_of_take? fun _ stops => take?_number_append stops taken

theorem intercalate_cons {α : Type} (separator : α) (first : List α) (others : List (List α)) :
    List.intercalate [separator] (first :: others) = first ++ others.flatMap (separator :: ·) := by
  induction others generalizing first with
  | nil => simp
  | cons second others ih =>
    rw [List.intercalate_cons_cons, ih]
    simp

section Parts

variable {α : Type} {right : Char} {last : Token} {chars : α → List Char} {tokens : α → List Token} {parts : List α}

theorem stops_behind_part (ends : right ∈ [',', ']', '\x7d']) (parts : List α) (rest : List Char) :
    Stops (parts.flatMap (fun part => ',' :: chars part) ++ right :: rest) := by
  cases parts with
  | nil => exact stops_cons ends rest
  | cons part parts => exact stops_cons (by decide) _

theorem ofText?_parts (closes : ∀ rest, take? (right :: rest) = some (last, rest)) (ends : right ∈ [',', ']', '\x7d'])
    (lexed : ∀ part ∈ parts, Lexes (chars part) (tokens part)) (read : List Token) (rest : List Char) :
    ofText? read (parts.flatMap (fun part => ',' :: chars part) ++ right :: rest)
      = ofText? (last :: (parts.flatMap fun part => .comma :: tokens part).reverse ++ read) rest := by
  induction parts generalizing read with
  | nil => exact ofText?_of_take? (closes rest) read
  | cons part parts ih =>
    have comma : take? (',' :: (chars part ++ (parts.flatMap (fun part => ',' :: chars part) ++ right :: rest)))
        = some (.comma, chars part ++ (parts.flatMap (fun part => ',' :: chars part) ++ right :: rest)) := rfl
    rw [List.flatMap_cons, List.cons_append, List.cons_append, List.append_assoc, ofText?_of_take? comma,
      lexed part List.mem_cons_self _ _ (stops_behind_part ends parts rest),
      ih fun other mem => lexed other (List.mem_cons_of_mem _ mem)]
    simp

theorem lexes_enclose {left : Char} {first : Token} (opens : ∀ rest, take? (left :: rest) = some (first, rest))
    (closes : ∀ rest, take? (right :: rest) = some (last, rest)) (ends : right ∈ [',', ']', '\x7d'])
    (lexed : ∀ part ∈ parts, Lexes (chars part) (tokens part)) :
    Lexes (enclose left right (parts.map chars)) (first :: List.intercalate [.comma] (parts.map tokens) ++ [last]) := by
  intro read rest stops
  cases parts with
  | nil =>
    show ofText? read (left :: right :: rest) = _
    rw [ofText?_of_take? (opens _), ofText?_of_take? (closes _)]
    rfl
  | cons part parts =>
    have text : enclose left right ((part :: parts).map chars) ++ rest
        = left :: (chars part ++ (parts.flatMap (fun part => ',' :: chars part) ++ right :: rest)) := by
      simp [enclose, intercalate_cons, List.flatMap_map]
    rw [text, ofText?_of_take? (opens _), lexed part List.mem_cons_self _ _ (stops_behind_part ends parts rest),
      ofText?_parts closes ends fun other mem => lexed other (List.mem_cons_of_mem _ mem)]
    simp [intercalate_cons, List.flatMap_map]

end Parts
end Lexes

end CheckpointStore.Json
