import CheckpointStore.Proofs.Tokens

/-!
# Documents written and read again

A document value is regular when its integers fit in 64 bits and its fields ascend, which every value
that was read is. A regular value whose doubles are each read back from their own text is read back from
its encoding exactly when no more arrays and objects are open in it at once than a reader allows.
-/

namespace CheckpointStore
namespace Value

theorem sizeOf_item {items : List Value} {item : Value} (mem : item ∈ items) : sizeOf item < sizeOf (array items) := by
  have inside := List.sizeOf_lt_of_mem mem
  simp
  omega

theorem sizeOf_field {fields : Fields} {field : String × Value} (mem : field ∈ fields) :
    sizeOf field.2 < sizeOf (object fields) := by
  have inside := List.sizeOf_lt_of_mem mem
  obtain ⟨key, value⟩ := field
  simp at inside ⊢
  omega

section Fold

variable {α : Type}

def isLeaf : Value → Bool
  | .array _ => false
  | .object _ => false
  | _ => true

/-- What a value comes to when its parts have come to something. -/
def fold (atom : Value → α) (array : List α → α) (object : List (String × α) → α) : Value → α
  | .array items => array (items.attach.map fun ⟨item, _⟩ => item.fold atom array object)
  | .object fields => object (fields.attach.map fun ⟨(key, value), _⟩ => (key, value.fold atom array object))
  | value => atom value
termination_by value => sizeOf value
decreasing_by
  · exact sizeOf_item ‹_›
  · exact sizeOf_field ‹_›

variable {atom : Value → α} {array : List α → α} {object : List (String × α) → α}

@[simp] theorem fold_array (items : List Value) :
    (Value.array items).fold atom array object = array (items.map (fold atom array object)) := by
  rw [fold, List.attach_map_val]

@[simp] theorem fold_object (fields : Fields) :
    (Value.object fields).fold atom array object
      = object (fields.map fun field => (field.1, field.2.fold atom array object)) := by
  rw [fold]
  exact congrArg object (List.attach_map_val (f := fun field : String × Value => (field.1, field.2.fold atom array object)))

theorem fold_leaf {value : Value} (leaf : value.isLeaf = true) : value.fold atom array object = atom value := by
  cases value with
  | array items => contradiction
  | object fields => contradiction
  | _ => simp [fold]

end Fold

@[elab_as_elim]
theorem induct {motive : Value → Prop} (null : motive .null) (bool : ∀ value, motive (.bool value))
    (integer : ∀ n, motive (.integer n)) (float : ∀ x, motive (.float x)) (string : ∀ text, motive (.string text))
    (array : ∀ items, (∀ item ∈ items, motive item) → motive (.array items))
    (object : ∀ fields, (∀ field ∈ fields, motive field.2) → motive (.object fields)) (value : Value) : motive value :=
  match value with
  | .null => null
  | .bool value => bool value
  | .integer n => integer n
  | .float x => float x
  | .string text => string text
  | .array items => array items fun item _ => induct null bool integer float string array object item
  | .object fields => object fields fun field _ => induct null bool integer float string array object field.2
termination_by sizeOf value
decreasing_by
  · exact sizeOf_item ‹_›
  · exact sizeOf_field ‹_›

/-- How many arrays and objects are open in it at once. -/
def depth : Value → Nat :=
  fold (fun _ => 0) (fun depths => depths.foldr max 0 + 1) (fun fields => (fields.map Prod.snd).foldr max 0 + 1)

/-- The doubles in it. -/
def doubles : Value → List Binary64 :=
  fold (fun | .float x => [x] | _ => []) List.flatten fun fields => fields.flatMap Prod.snd

/-- Integers fit in 64 bits, and the fields of objects ascend. -/
inductive Regular : Value → Prop where
  | null : Regular .null
  | bool (value : Bool) : Regular (.bool value)
  | integer {n : Int} (low : -9223372036854775808 ≤ n) (high : n < 18446744073709551616) : Regular (.integer n)
  | float (x : Binary64) : Regular (.float x)
  | string (text : String) : Regular (.string text)
  | array {items : List Value} (each : ∀ item ∈ items, Regular item) : Regular (.array items)
  | object {fields : Fields} (ascending : Entries.Ascending fields) (each : ∀ field ∈ fields, Regular field.2) :
      Regular (.object fields)

/-! ### Text and tokens -/

open Json

def atomOf : Value → Atom
  | .bool value => .bool value
  | .integer n => .number { negative := n < 0, whole := digitsOf n.natAbs }
  | .float x => .number (floatText x)
  | .string text => .string (pieces text)
  | _ => .null

/-- What the text of a value is read as. -/
def tokens : Value → List Token :=
  fold (fun value => [.atom value.atomOf])
    (fun items => .openArray :: List.intercalate [.comma] items ++ [.closeArray])
    (fun fields => .openObject ::
      List.intercalate [.comma] (fields.map fun field => .atom (.string (pieces field.1)) :: .colon :: field.2) ++ [.closeObject])

theorem tokens_leaf {value : Value} (leaf : value.isLeaf = true) :
    value.tokens = [.atom value.atomOf] := fold_leaf leaf

theorem tokens_array (items : List Value) :
    (array items).tokens = .openArray :: List.intercalate [.comma] (items.map tokens) ++ [.closeArray] := by
  unfold tokens
  rw [fold_array]

def fieldTokens (field : String × Value) : List Token := .atom (.string (pieces field.1)) :: .colon :: field.2.tokens

theorem tokens_object (fields : Fields) :
    (object fields).tokens = .openObject :: List.intercalate [.comma] (fields.map fieldTokens) ++ [.closeObject] := by
  unfold tokens
  rw [fold_object, List.map_map]
  rfl

theorem chars_array (items : List Value) : (array items).chars = enclose '[' ']' (items.map chars) := by
  rw [chars, List.attach_map_val]

def fieldChars (field : String × Value) : List Char := quote field.1 ++ ':' :: field.2.chars

theorem chars_object (fields : Fields) : (object fields).chars = enclose '\x7b' '\x7d' (fields.map fieldChars) := by
  rw [chars]
  exact congrArg _ (List.attach_map_val (f := fieldChars))

theorem lexes_field {field : String × Value} (lexed : Lexes field.2.chars field.2.tokens) :
    Lexes (fieldChars field) (fieldTokens field) := by
  intro read rest stops
  have colon : Token.take? (':' :: (field.2.chars ++ rest)) = some (.colon, field.2.chars ++ rest) := rfl
  rw [fieldChars, List.append_assoc, List.cons_append, ofText?_of_take? (take?_quote _ _),
    ofText?_of_take? colon, lexed _ _ stops]
  simp [fieldTokens]

theorem doubles_array (items : List Value) : (array items).doubles = items.flatMap doubles := by
  unfold doubles
  rw [fold_array]
  rfl

theorem doubles_object (fields : Fields) : (object fields).doubles = fields.flatMap fun field => field.2.doubles := by
  unfold doubles
  rw [fold_object, List.flatMap_map]

theorem lexes_chars {value : Value} (back : ∀ x ∈ value.doubles, ReadsBack x) : Lexes value.chars value.tokens := by
  induction value using induct with
  | null =>
    rw [show null.tokens = [.atom .null] from tokens_leaf rfl, chars]
    exact lexes_of_take? fun rest _ => rfl
  | bool value =>
    rw [show (bool value).tokens = [.atom (.bool value)] from tokens_leaf rfl]
    cases value <;> rw [chars] <;> exact lexes_of_take? fun rest _ => rfl
  | integer n =>
    rw [show (integer n).tokens = [.atom (integer n).atomOf] from tokens_leaf rfl, chars]
    exact lexes_number (take?_writeInt n)
  | float x =>
    have single : (float x).doubles = [x] := fold_leaf rfl
    rw [single] at back
    rw [show (float x).tokens = [.atom (.number (floatText x))] from tokens_leaf rfl, chars]
    exact lexes_number (back x (List.mem_singleton_self x)).1
  | string text =>
    rw [show (string text).tokens = [.atom (.string (pieces text))] from tokens_leaf rfl, chars]
    exact lexes_quote text
  | array items ih =>
    rw [doubles_array] at back
    rw [chars_array, tokens_array]
    exact lexes_enclose (fun _ => rfl) (fun _ => rfl) (by decide) fun item mem =>
      ih item mem fun x inside => back x (List.mem_flatMap.mpr ⟨item, mem, inside⟩)
  | object fields ih =>
    rw [doubles_object] at back
    rw [chars_object, tokens_object]
    exact lexes_enclose (fun _ => rfl) (fun _ => rfl) (by decide) fun field mem =>
      lexes_field (ih field mem fun x inside => back x (List.mem_flatMap.mpr ⟨field, mem, inside⟩))

/-! ### Trees -/

def tree : Value → Tree :=
  fold (fun value => .atom value.atomOf) .array fun fields => .object (fields.map fun field => (pieces field.1, field.2))

theorem tree_leaf {value : Value} (leaf : value.isLeaf = true) :
    value.tree = .atom value.atomOf := fold_leaf leaf

theorem tree_array (items : List Value) : (array items).tree = .array (items.map tree) := by
  unfold tree
  rw [fold_array]

theorem tree_object (fields : Fields) :
    (object fields).tree = .object (fields.map fun field => (pieces field.1, field.2.tree)) := by
  unfold tree
  rw [fold_object, List.map_map]
  rfl

def Builds (value : Value) : Prop :=
  ∀ around, value.tokens.foldlM Tree.step (.value around) = some (.whole value.tree around)

theorem builds_leaf {value : Value} (leaf : value.isLeaf = true) : value.Builds := by
  intro around
  rw [tokens_leaf leaf, tree_leaf leaf]
  rfl

theorem head_tokens (value : Value) : ∃ first more, value.tokens = first :: more ∧ first ≠ .closeArray := by
  cases value with
  | array items => exact ⟨_, _, tokens_array items, nofun⟩
  | object fields => exact ⟨_, _, tokens_object fields, nofun⟩
  | _ => exact ⟨_, _, tokens_leaf rfl, nofun⟩

theorem Builds.firstItem {value : Value} (builds : value.Builds) (around : List Tree.Open) :
    value.tokens.foldlM Tree.step (.firstItem around) = some (.whole value.tree (.array [] :: around)) := by
  have built := builds (.array [] :: around)
  obtain ⟨first, more, tokens, other⟩ := value.head_tokens
  rw [tokens, List.foldlM_cons] at built ⊢
  rw [← built]
  congr 1
  cases first <;> first | rfl | contradiction

theorem Builds.items {items : List Value} (builds : ∀ item ∈ items, item.Builds) (tree : Tree) (read : List Tree)
    (around : List Tree.Open) :
    List.foldlM Tree.step (.whole tree (.array read :: around)) (items.flatMap (fun item => .comma :: item.tokens) ++ [.closeArray])
      = some (.whole (.array ((tree :: read).reverse ++ items.map Value.tree)) around) := by
  -- `tree` was built last, and `read` are the ones before it in reverse
  induction items generalizing tree read with
  | nil =>
    rw [List.map_nil, List.append_nil]
    rfl
  | cons item items ih =>
    have first := builds item List.mem_cons_self (.array (tree :: read) :: around)
    rw [List.flatMap_cons, List.cons_append, List.cons_append, List.append_assoc, List.foldlM_cons]
    show List.foldlM Tree.step (.value (.array (tree :: read) :: around)) _ = _
    rw [List.foldlM_append, first]
    show List.foldlM Tree.step (.whole item.tree (.array (tree :: read) :: around)) _ = _
    rw [ih fun other mem => builds other (List.mem_cons_of_mem _ mem)]
    simp

/-- A field is read wherever a key may stand. -/
theorem Builds.field {field : String × Value} (builds : field.2.Builds) {state : Tree.State}
    {read : List (List Piece × Tree)} {around : List Tree.Open}
    (named : Tree.step state (.atom (.string (pieces field.1))) = some (.colon read (pieces field.1) around)) :
    (fieldTokens field).foldlM Tree.step state = some (.whole field.2.tree (.object read (pieces field.1) :: around)) := by
  have value := builds (.object read (pieces field.1) :: around)
  rw [fieldTokens, List.foldlM_cons, named]
  show List.foldlM Tree.step (.colon read (pieces field.1) around) _ = _
  rw [List.foldlM_cons]
  exact value

theorem Builds.fields {fields : Fields} (builds : ∀ field ∈ fields, field.2.Builds) (key : List Piece) (tree : Tree)
    (read : List (List Piece × Tree)) (around : List Tree.Open) :
    List.foldlM Tree.step (.whole tree (.object read key :: around))
        (fields.flatMap (fun field => .comma :: fieldTokens field) ++ [.closeObject])
      = some (.whole (.object (((key, tree) :: read).reverse ++ fields.map fun field => (pieces field.1, field.2.tree))) around) := by
  induction fields generalizing key tree read with
  | nil =>
    rw [List.map_nil, List.append_nil]
    rfl
  | cons field fields ih =>
    have first := (builds field List.mem_cons_self).field
      (show Tree.step (.key ((key, tree) :: read) around) _ = some (.colon _ (pieces field.1) _) from rfl)
    rw [List.flatMap_cons, List.cons_append, List.cons_append, List.append_assoc, List.foldlM_cons]
    show List.foldlM Tree.step (.key ((key, tree) :: read) around) _ = _
    rw [List.foldlM_append, first]
    show List.foldlM Tree.step (.whole field.2.tree (.object ((key, tree) :: read) (pieces field.1) :: around)) _ = _
    rw [ih fun other mem => builds other (List.mem_cons_of_mem _ mem)]
    simp

theorem builds (value : Value) : value.Builds := by
  induction value using induct with
  | array items ih =>
    intro around
    rw [tokens_array, tree_array]
    cases items with
    | nil => rfl
    | cons item items =>
      rw [List.map_cons, intercalate_cons, List.cons_append, List.append_assoc, List.foldlM_cons]
      show List.foldlM Tree.step (.firstItem around) _ = _
      rw [List.foldlM_append, (ih item List.mem_cons_self).firstItem]
      show List.foldlM Tree.step (.whole item.tree (.array [] :: around)) _ = _
      rw [List.flatMap_map, Builds.items fun other mem => ih other (List.mem_cons_of_mem _ mem)]
      rfl
  | object fields ih =>
    intro around
    rw [tokens_object, tree_object]
    cases fields with
    | nil => rfl
    | cons field fields =>
      have first := Builds.field (ih field List.mem_cons_self)
        (show Tree.step (.firstKey around) _ = some (.colon _ (pieces field.1) _) from rfl)
      rw [List.map_cons, intercalate_cons, List.cons_append, List.append_assoc, List.foldlM_cons]
      show List.foldlM Tree.step (.firstKey around) _ = _
      rw [List.foldlM_append, first]
      show List.foldlM Tree.step (.whole field.2.tree (.object [] (pieces field.1) :: around)) _ = _
      rw [List.flatMap_map, Builds.fields fun other mem => ih other (List.mem_cons_of_mem _ mem)]
      rfl
  | _ => exact builds_leaf rfl

/-! ### Nesting -/

def opened : Nat × Nat → Token → Nat × Nat
  | (depth, most), .openArray | (depth, most), .openObject => (depth + 1, max most (depth + 1))
  | (depth, most), .closeArray | (depth, most), .closeObject => (depth - 1, most)
  | (depth, most), _ => (depth, most)

theorem nesting_eq (tokens : List Token) : nesting tokens = (tokens.foldl opened (0, 0)).2 := by
  unfold nesting
  congr 2
  funext ⟨depth, most⟩ token
  cases token <;> rfl

/-- Tokens that close what they open, and open so much at once. -/
def Nested (tokens : List Token) (deep : Nat) : Prop :=
  ∀ depth most, depth ≤ most → tokens.foldl opened (depth, most) = (depth, max most (depth + deep))

theorem nested_nil : Nested [] 0 := fun depth most le => by
  rw [Nat.add_zero, Nat.max_eq_left le]
  rfl

theorem Nested.append {first second : List Token} {a b : Nat} (left : Nested first a) (right : Nested second b) :
    Nested (first ++ second) (max a b) := by
  intro depth most le
  rw [List.foldl_append, left depth most le, right _ _ (by omega)]
  congr 1
  omega

theorem Nested.comma {tokens : List Token} {deep : Nat} (nested : Nested tokens deep) : Nested (.comma :: tokens) deep := nested

theorem Nested.flatMap {α : Type} {tokens : α → List Token} {deep : α → Nat} {parts : List α}
    (nested : ∀ part ∈ parts, Nested (tokens part) (deep part)) :
    Nested (parts.flatMap fun part => .comma :: tokens part) ((parts.map deep).foldr max 0) := by
  induction parts with
  | nil => exact nested_nil
  | cons part parts ih =>
    rw [List.flatMap_cons, List.map_cons, List.foldr_cons]
    exact (nested part List.mem_cons_self).comma.append (ih fun other mem => nested other (List.mem_cons_of_mem _ mem))

theorem Nested.intercalate {α : Type} {tokens : α → List Token} {deep : α → Nat} {parts : List α}
    (nested : ∀ part ∈ parts, Nested (tokens part) (deep part)) :
    Nested (List.intercalate [.comma] (parts.map tokens)) ((parts.map deep).foldr max 0) := by
  cases parts with
  | nil => exact nested_nil
  | cons part parts =>
    rw [List.map_cons, intercalate_cons, List.flatMap_map, List.map_cons, List.foldr_cons]
    exact (nested part List.mem_cons_self).append (.flatMap fun other mem => nested other (List.mem_cons_of_mem _ mem))

theorem Nested.array {tokens : List Token} {deep : Nat} (nested : Nested tokens deep) :
    Nested (.openArray :: tokens ++ [.closeArray]) (deep + 1) := by
  intro depth most le
  rw [List.cons_append, List.foldl_cons, List.foldl_append]
  show List.foldl opened (tokens.foldl opened (depth + 1, max most (depth + 1))) [.closeArray] = _
  rw [nested _ _ (by omega)]
  show (depth + 1 - 1, max (max most (depth + 1)) (depth + 1 + deep)) = _
  congr 1
  omega

theorem Nested.object {tokens : List Token} {deep : Nat} (nested : Nested tokens deep) :
    Nested (.openObject :: tokens ++ [.closeObject]) (deep + 1) := by
  intro depth most le
  have same := nested.array depth most le
  rw [List.cons_append, List.foldl_cons, List.foldl_append] at same ⊢
  exact same

theorem depth_array (items : List Value) : (array items).depth = (items.map depth).foldr max 0 + 1 := by
  unfold depth
  rw [fold_array]

theorem depth_object (fields : Fields) :
    (object fields).depth = (fields.map fun field => field.2.depth).foldr max 0 + 1 := by
  unfold depth
  rw [fold_object, List.map_map]
  rfl

theorem nested_leaf {value : Value} (leaf : value.isLeaf = true) : Nested value.tokens value.depth := by
  have flat : value.depth = 0 := fold_leaf leaf
  rw [tokens_leaf leaf, flat]
  exact nested_nil

theorem nested_tokens (value : Value) : Nested value.tokens value.depth := by
  induction value using induct with
  | array items ih =>
    rw [tokens_array, depth_array]
    exact (Nested.intercalate ih).array
  | object fields ih =>
    have members : ∀ field ∈ fields, Nested (fieldTokens field) field.2.depth := ih
    rw [tokens_object, depth_object]
    exact (Nested.intercalate members).object
  | _ => exact nested_leaf rfl

theorem nesting_tokens (value : Value) : nesting value.tokens = value.depth := by
  rw [nesting_eq, value.nested_tokens 0 0 (Nat.le_refl 0)]
  simp

/-! ### Meaning -/

theorem spell?_unit {code : Nat} (plain : code < 0xD800) (read : List Char) (rest : List Piece) :
    spell? read (.unit code :: rest) = spell? (Char.ofNat code :: read) rest := by
  have high : isHighSurrogate code = false := by simp [isHighSurrogate]; omega
  have low : isLowSurrogate code = false := by simp [isLowSurrogate]; omega
  cases rest with
  | nil => simp [spell?, high, low]
  | cons piece rest => cases piece <;> simp [spell?, high, low]

theorem spell?_pieceOf (read : List Char) (c : Char) (rest : List Piece) :
    spell? read (pieceOf c :: rest) = spell? (c :: read) rest := by
  unfold pieceOf
  split
  · rfl
  · split
    · rename_i control
      have low : c.toNat < 32 := control
      rw [spell?_unit (by omega), Char.ofNat_toNat]
    · rfl

theorem spell?_map_pieceOf (text : List Char) (read : List Char) :
    spell? read (text.map pieceOf) = some (read.reverse ++ text) := by
  induction text generalizing read with
  | nil => simp [spell?]
  | cons c text ih =>
    rw [List.map_cons, spell?_pieceOf, ih]
    simp

theorem stringOf?_pieces (text : String) : stringOf? (pieces text) = some text := by
  rw [stringOf?, pieces, spell?_map_pieceOf]
  simp

theorem le_foldl_digits (digits : List Nat) (start : Nat) : start ≤ digits.foldl (fun n digit => n * 10 + digit) start := by
  induction digits generalizing start with
  | nil => exact Nat.le_refl _
  | cons digit digits ih => exact Nat.le_trans (by omega) (ih (start * 10 + digit))

theorem natOfDigits_of_lt {digits : List Nat} (start : Nat)
    (fits : digits.foldl (fun n digit => n * 10 + digit) start < NumberText.limit) :
    digits.foldl (fun n digit => min NumberText.limit (n * 10 + digit)) start
      = digits.foldl (fun n digit => n * 10 + digit) start := by
  induction digits generalizing start with
  | nil => rfl
  | cons digit digits ih =>
    have below := Nat.lt_of_le_of_lt (le_foldl_digits digits (start * 10 + digit)) fits
    rw [List.foldl_cons, Nat.min_eq_right (Nat.le_of_lt below)]
    exact ih _ fits

theorem natOfDigits_digitsOf {n : Nat} (fits : n < NumberText.limit) : NumberText.natOfDigits (digitsOf n) = n := by
  have value : (digitsOf n).foldl (fun n digit => n * 10 + digit) 0 = n := by
    have spelled := Nat.ofDigitChars_ten_toDigits (n := n)
    rw [Nat.ofDigitChars_eq_foldl] at spelled
    rw [digitsOf, List.foldl_map, writeNat]
    simpa [Nat.mul_comm] using spelled
  rw [NumberText.natOfDigits, natOfDigits_of_lt 0 (by rw [value]; exact fits), value]

theorem value?_integer {n : Int} (low : -9223372036854775808 ≤ n) (high : n < 18446744073709551616) :
    NumberText.value? { negative := n < 0, whole := digitsOf n.natAbs } = some (.integer n) := by
  have fits : n.natAbs < NumberText.limit := by
    unfold NumberText.limit
    omega
  unfold NumberText.value?
  simp only [natOfDigits_digitsOf fits]
  by_cases negative : n < 0
  · have half : n.natAbs ≤ NumberText.limit / 2 := by
      unfold NumberText.limit
      omega
    have some : 0 < n.natAbs := by omega
    simp only [negative, half, some, decide_true, Bool.true_eq_false, false_and, and_false, if_false, and_self, if_true]
    congr 2
    omega
  · simp only [negative, fits, decide_false, and_self, if_true]
    congr 2
    omega

theorem Tree.value?_array (items : List Tree) : (Tree.array items).value? = (items.mapM Tree.value?).map .array := by
  rw [Tree.value?, List.mapM_subtype fun _ _ => rfl]
  simp

def memberValue? (member : List Piece × Tree) : Option (String × Value) := do
  let key ← stringOf? member.1
  let value ← member.2.value?
  some (key, value)

theorem Tree.value?_object (members : List (List Piece × Tree)) :
    (Tree.object members).value? = (members.mapM memberValue?).map .ofFields := by
  rw [Tree.value?, List.mapM_subtype fun _ _ => rfl, List.unattach_attach]
  rfl

theorem mapM_eq_some {α β γ : Type} {part : α → β} {meaning : β → Option γ} {whole : α → γ} {items : List α}
    (each : ∀ item ∈ items, meaning (part item) = some (whole item)) : (items.map part).mapM meaning = some (items.map whole) := by
  induction items with
  | nil => rfl
  | cons item items ih =>
    rw [List.map_cons, List.mapM_cons, each item List.mem_cons_self, ih fun other mem => each other (List.mem_cons_of_mem _ mem)]
    rfl

theorem insert_of_above {key : String} {value : Value} {entries : Fields} (above : ∀ entry ∈ entries, entry.1 < key) :
    Entries.insert key value entries = entries ++ [(key, value)] := by
  induction entries with
  | nil => rfl
  | cons entry entries ih =>
    obtain ⟨k, old⟩ := entry
    have below : k < key := above (k, old) List.mem_cons_self
    have different : key ≠ k := by
      rintro rfl
      exact Std.lt_irrefl below
    rw [Entries.insert, if_neg (Std.not_gt_of_lt below), if_neg different,
      ih fun other mem => above other (List.mem_cons_of_mem _ mem)]
    rfl

theorem foldl_insert_of_ascending {read fields : Fields} (ascending : Entries.Ascending (read ++ fields)) :
    fields.foldl (fun fields pair => Entries.insert pair.1 pair.2 fields) read = read ++ fields := by
  induction fields generalizing read with
  | nil => exact (List.append_nil read).symm
  | cons field fields ih =>
    have above : ∀ entry ∈ read, entry.1 < field.1 := fun entry mem =>
      (List.pairwise_append.mp ascending).2.2 entry mem field List.mem_cons_self
    rw [List.foldl_cons, insert_of_above above, ih]
    · simp
    · rw [List.append_assoc]
      exact ascending

theorem ofFields_of_ascending {fields : Fields} (ascending : Entries.Ascending fields) : ofFields fields = .object fields :=
  congrArg object (foldl_insert_of_ascending ascending)

theorem value?_tree {value : Value} (regular : value.Regular) (back : ∀ x ∈ value.doubles, ReadsBack x) :
    value.tree.value? = some value := by
  induction value using induct with
  | null =>
    rw [show null.tree = .atom .null from tree_leaf rfl, Tree.value?]
    rfl
  | bool value =>
    rw [show (bool value).tree = .atom (.bool value) from tree_leaf rfl, Tree.value?]
    rfl
  | integer n =>
    cases regular with
    | integer low high =>
      rw [show (integer n).tree = .atom (integer n).atomOf from tree_leaf rfl, Tree.value?]
      exact value?_integer low high
  | float x =>
    have single : (float x).doubles = [x] := fold_leaf rfl
    rw [single] at back
    rw [show (float x).tree = .atom (.number (floatText x)) from tree_leaf rfl, Tree.value?]
    exact (back x (List.mem_singleton_self x)).2
  | string text =>
    rw [show (string text).tree = .atom (.string (pieces text)) from tree_leaf rfl, Tree.value?, Atom.value?,
      stringOf?_pieces]
    rfl
  | array items ih =>
    cases regular with
    | array each =>
      rw [doubles_array] at back
      have meant : ∀ item ∈ items, item.tree.value? = some item := fun item mem =>
        ih item mem (each item mem) fun x inside => back x (List.mem_flatMap.mpr ⟨item, mem, inside⟩)
      rw [tree_array, Tree.value?_array, mapM_eq_some meant]
      simp
  | object fields ih =>
    cases regular with
    | object ascending each =>
      rw [doubles_object] at back
      have meant : ∀ field ∈ fields, memberValue? (pieces field.1, field.2.tree) = some field := by
        intro field mem
        have value := ih field mem (each field mem) fun x inside => back x (List.mem_flatMap.mpr ⟨field, mem, inside⟩)
        rw [memberValue?, stringOf?_pieces, value]
        rfl
      rw [tree_object, Tree.value?_object, mapM_eq_some meant]
      simp [ofFields_of_ascending ascending]

/-! ### Encodings -/

/-- What the encoding of a regular value decodes to. -/
theorem decode_encode {value : Value} (regular : value.Regular) (back : ∀ x ∈ value.doubles, ReadsBack x) :
    decode value.encode = if value.depth ≤ maxNesting then .ok value else .error .malformed := by
  have lexed := lexes_chars back [] [] stops_nil
  rw [List.append_nil, List.append_nil] at lexed
  have tokens : Token.ofText? [] value.chars = some value.tokens := by
    rw [lexed, Token.ofText?, List.reverse_reverse]
  have tree : Tree.ofTokens? value.tokens = some value.tree := by
    rw [Tree.ofTokens?, value.builds []]
  -- nesting is counted on the tokens, before there is a tree
  have parsed : parse? value.text = if value.depth ≤ maxNesting then some value else none := by
    unfold parse? text
    rw [String.toList_ofList, tokens]
    show (if nesting value.tokens ≤ maxNesting then _ else none) = _
    rw [nesting_tokens, tree]
    show (if value.depth ≤ maxNesting then value.tree.value? else none) = _
    rw [value?_tree regular back]
  rw [decode, encode, Bytes.toString?_ofString]
  rw [Option.bind_some, parsed]
  by_cases fits : value.depth ≤ maxNesting
  · rw [if_pos fits, if_pos fits]
  · rw [if_neg fits, if_neg fits]

/-! ### What was read is regular -/

theorem regular_of_number {text : NumberText} {value : Value} (meant : text.value? = some value) : value.Regular := by
  unfold NumberText.value? at meant
  dsimp only at meant
  split at meant
  · rename_i whole
    obtain rfl := Option.some.inj meant
    have high : NumberText.natOfDigits text.whole < 18446744073709551616 := whole.2.2.2
    exact .integer (by omega) (by omega)
  · split at meant
    · rename_i whole
      obtain rfl := Option.some.inj meant
      have low : NumberText.natOfDigits text.whole ≤ 18446744073709551616 / 2 := whole.2.2.2.2
      exact .integer (by omega) (by omega)
    · obtain ⟨x, -, rfl⟩ := Option.map_eq_some_iff.mp meant
      exact .float x

theorem regular_of_atom {atom : Atom} {value : Value} (meant : atom.value? = some value) : value.Regular := by
  cases atom with
  | null =>
    obtain rfl := Option.some.inj meant
    exact .null
  | bool value =>
    obtain rfl := Option.some.inj meant
    exact .bool value
  | number text => exact regular_of_number meant
  | string pieces =>
    obtain ⟨text, -, rfl⟩ := Option.map_eq_some_iff.mp meant
    exact .string text

theorem regular_insert {fields : Fields} (each : ∀ field ∈ fields, field.2.Regular) {key : String} {value : Value}
    (regular : value.Regular) : ∀ field ∈ Entries.insert key value fields, field.2.Regular := by
  intro field mem
  rcases Entries.mem_insert mem with rfl | mem
  · exact regular
  · exact each field mem

theorem regular_ofFields {pairs : List (String × Value)} (each : ∀ pair ∈ pairs, pair.2.Regular) : (ofFields pairs).Regular := by
  have kept (read : Fields) (ascending : Entries.Ascending read) (regular : ∀ field ∈ read, field.2.Regular) :
      (object (pairs.foldl (fun fields pair => Entries.insert pair.1 pair.2 fields) read)).Regular := by
    induction pairs generalizing read with
    | nil => exact .object ascending regular
    | cons pair pairs ih =>
      exact ih (fun other mem => each other (List.mem_cons_of_mem _ mem)) _ (Entries.ascending_insert ascending)
        (regular_insert regular (each pair List.mem_cons_self))
  exact kept [] Entries.ascending_nil nofun

theorem mem_of_mapM {α β : Type} {meaning : α → Option β} {items : List α} {values : List β}
    (meant : items.mapM meaning = some values) : ∀ value ∈ values, ∃ item ∈ items, meaning item = some value := by
  induction items generalizing values with
  | nil =>
    obtain rfl := Option.some.inj meant
    exact nofun
  | cons item items ih =>
    rw [List.mapM_cons] at meant
    obtain ⟨first, found, rest⟩ := Option.bind_eq_some_iff.mp meant
    obtain ⟨others, later, same⟩ := Option.bind_eq_some_iff.mp rest
    obtain rfl := Option.some.inj same
    intro value mem
    rcases List.mem_cons.mp mem with rfl | mem
    · exact ⟨item, List.mem_cons_self, found⟩
    · obtain ⟨other, inside, means⟩ := ih later value mem
      exact ⟨other, List.mem_cons_of_mem _ inside, means⟩

theorem regular_of_tree (tree : Tree) {value : Value} (meant : tree.value? = some value) : value.Regular := by
  match tree with
  | .atom atom =>
    rw [Tree.value?] at meant
    exact regular_of_atom meant
  | .array items =>
    rw [Tree.value?_array] at meant
    obtain ⟨values, found, rfl⟩ := Option.map_eq_some_iff.mp meant
    refine .array fun value mem => ?_
    obtain ⟨item, inside, means⟩ := mem_of_mapM found value mem
    exact regular_of_tree item means
  | .object members =>
    rw [Tree.value?_object] at meant
    obtain ⟨pairs, found, rfl⟩ := Option.map_eq_some_iff.mp meant
    refine regular_ofFields fun pair mem => ?_
    obtain ⟨⟨key, item⟩, inside, means⟩ := mem_of_mapM found pair mem
    obtain ⟨text, -, rest⟩ := Option.bind_eq_some_iff.mp means
    obtain ⟨value, valued, same⟩ := Option.bind_eq_some_iff.mp rest
    obtain rfl := Option.some.inj same
    exact regular_of_tree item valued
termination_by sizeOf tree
decreasing_by
  · have := List.sizeOf_lt_of_mem inside
    simp
    omega
  · have := List.sizeOf_lt_of_mem inside
    simp at this ⊢
    omega

theorem regular_of_decode {bytes : Bytes} {value : Value} (decoded : decode bytes = .ok value) : value.Regular := by
  unfold decode at decoded
  split at decoded
  · rename_i parsed
    obtain rfl := Except.ok.inj decoded
    obtain ⟨text, -, found⟩ := Option.bind_eq_some_iff.mp parsed
    unfold parse? at found
    obtain ⟨tokens, -, rest⟩ := Option.bind_eq_some_iff.mp found
    split at rest
    · obtain ⟨tree, -, meant⟩ := Option.bind_eq_some_iff.mp rest
      exact regular_of_tree tree meant
    · contradiction
  · contradiction

end Value
end CheckpointStore
