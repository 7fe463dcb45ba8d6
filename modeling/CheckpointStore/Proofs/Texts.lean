import CheckpointStore.Text.Lossy
import CheckpointStore.Proofs.RoundTrips

/-!
# Texts that are taken in

Keys and documents come as texts. The bytes of a key spell its text again, replacements or not. A
document that was read from a text is nested no deeper than what can be decoded, so one without
doubles decodes from its encoding.
-/

namespace CheckpointStore

/-! ### Keys -/

namespace Bytes

theorem ofString_eq (text : String) : ofString text = text.toList.flatMap String.utf8EncodeChar := by
  have spelled := (String.toByteArray_ofList (l := text.toList)).symm
  rw [String.ofList_toList] at spelled
  rw [ofString, String.toUTF8_eq_toByteArray, ← spelled, List.utf8Encode]
  exact List.data_toByteArray ▸ rfl

theorem ofString_injective {a b : String} (same : ofString a = ofString b) : a = b := by
  have read := toString?_ofString a
  rw [same, toString?_ofString] at read
  exact (Option.some.inj read).symm

end Bytes

namespace Lossy

theorem plain_byte : ∀ n < 128, UInt8.ofNat n < 0x80 ∧ (UInt8.ofNat n).toNat = n := by decide

theorem lead_of_two : ∀ n < 32, 2 ≤ n →
    ¬ UInt8.ofNat (n + 192) < 0x80 ∧ follow? (UInt8.ofNat (n + 192)) = some (0x80, 0xBF, 1) ∧
      lead (UInt8.ofNat (n + 192)) 1 = n := by decide

/-- The second byte keeps out what is spelled shorter, and the surrogates. -/
theorem lead_of_three : ∀ n < 16,
    ¬ UInt8.ofNat (n + 224) < 0x80 ∧
      follow? (UInt8.ofNat (n + 224)) = some (if n = 0 then 0xA0 else 0x80, if n = 13 then 0x9F else 0xBF, 2) ∧
      lead (UInt8.ofNat (n + 224)) 2 = n := by decide

/-- The second byte keeps out what is spelled shorter, and what is past the last character. -/
theorem lead_of_four : ∀ n < 5,
    ¬ UInt8.ofNat (n + 240) < 0x80 ∧
      follow? (UInt8.ofNat (n + 240)) = some (if n = 0 then 0x90 else 0x80, if n = 4 then 0x8F else 0xBF, 3) ∧
      lead (UInt8.ofNat (n + 240)) 3 = n := by decide

variable {read : List Char} {low high : UInt8}

theorem step_begin {byte : UInt8} {more bits : Nat} (long : ¬ byte < 0x80) (followed : follow? byte = some (low, high, more))
    (left : lead byte more = bits) : step (read, none) byte = (read, some ⟨low, high, more, bits⟩) := by
  rw [step, first, if_neg long, followed, ← left]

theorem step_continue {n : Nat} (small : n < 64) (above : low.toNat ≤ n + 128) (below : n + 128 ≤ high.toNat) (more bits : Nat) :
    step (read, some ⟨low, high, more, bits⟩) (UInt8.ofNat (n + 128)) =
      if more = 1 then (Char.ofNat (bits * 64 + n) :: read, none) else (read, some ⟨0x80, 0xBF, more - 1, bits * 64 + n⟩) := by
  have byte : (UInt8.ofNat (n + 128)).toNat = n + 128 := UInt8.toNat_ofNat_of_lt' (show n + 128 < 256 by omega)
  have within : low ≤ UInt8.ofNat (n + 128) ∧ UInt8.ofNat (n + 128) ≤ high := by
    rw [UInt8.le_iff_toNat_le, UInt8.le_iff_toNat_le, byte]
    exact ⟨above, below⟩
  have rest : (UInt8.ofNat (n + 128)).toNat % 64 = n := by omega
  rw [step]
  dsimp only
  rw [if_pos within, rest]

/-- Between two characters, the bytes of one are read as that character. -/
theorem foldl_utf8EncodeChar (read : List Char) (c : Char) :
    (String.utf8EncodeChar c).foldl step (read, none) = (c :: read, none) := by
  have whole : Char.ofNat c.val.toNat = c := Char.ofNat_toNat c
  have valid : c.val.toNat < 0xD800 ∨ 0xDFFF < c.val.toNat ∧ c.val.toNat < 0x110000 := c.valid
  unfold String.utf8EncodeChar
  generalize c.val.toNat = v at *
  dsimp only
  split
  · obtain ⟨short, byte⟩ := plain_byte v (by omega)
    rw [List.foldl_cons, List.foldl_nil, step, first, if_pos short, byte, whole]
  split
  · obtain ⟨long, followed, left⟩ := lead_of_two (v / 64 % 32) (by omega) (by omega)
    rw [List.foldl_cons, List.foldl_cons, List.foldl_nil, step_begin long followed left,
      step_continue (by omega) (Nat.le_add_left _ _) (show v % 64 + 128 ≤ 191 by omega), if_pos rfl,
      show v / 64 % 32 * 64 + v % 64 = v by omega, whole]
  split
  · obtain ⟨long, followed, left⟩ := lead_of_three (v / 4096 % 16) (by omega)
    rw [List.foldl_cons, List.foldl_cons, List.foldl_cons, List.foldl_nil, step_begin long followed left]
    rw [step_continue (by omega) ?_ ?_, if_neg (by decide),
      step_continue (by omega) (Nat.le_add_left _ _) (show v % 64 + 128 ≤ 191 by omega), if_pos rfl,
      show (v / 4096 % 16 * 64 + v / 64 % 64) * 64 + v % 64 = v by omega, whole]
    · split
      · show 160 ≤ _
        omega
      · exact Nat.le_add_left _ _
    · split
      · show _ ≤ 159
        omega
      · show _ ≤ 191
        omega
  · obtain ⟨long, followed, left⟩ := lead_of_four (v / 262144 % 8) (by omega)
    rw [List.foldl_cons, List.foldl_cons, List.foldl_cons, List.foldl_cons, List.foldl_nil, step_begin long followed left]
    rw [step_continue (by omega) ?_ ?_, if_neg (by decide),
      step_continue (by omega) (Nat.le_add_left _ _) (show v / 64 % 64 + 128 ≤ 191 by omega), if_neg (by decide),
      step_continue (by omega) (Nat.le_add_left _ _) (show v % 64 + 128 ≤ 191 by omega), if_pos rfl,
      show ((v / 262144 % 8 * 64 + v / 4096 % 64) * 64 + v / 64 % 64) * 64 + v % 64 = v by omega, whole]
    · split
      · show 144 ≤ _
        omega
      · exact Nat.le_add_left _ _
    · split
      · show _ ≤ 143
        omega
      · show _ ≤ 191
        omega

theorem foldl_flatMap_utf8EncodeChar (read text : List Char) :
    (text.flatMap String.utf8EncodeChar).foldl step (read, none) = (text.reverse ++ read, none) := by
  induction text generalizing read with
  | nil => rfl
  | cons c text ih =>
    rw [List.flatMap_cons, List.foldl_append, foldl_utf8EncodeChar, ih, List.reverse_cons, List.append_assoc]
    rfl

/-- Nothing is replaced in the bytes of a text. -/
theorem decode_ofString (text : String) : decode (Bytes.ofString text) = text := by
  rw [decode, Bytes.ofString_eq, foldl_flatMap_utf8EncodeChar]
  dsimp only
  rw [List.append_nil, List.reverse_reverse, String.ofList_toList]

end Lossy

/-! ### Documents -/

namespace Json

namespace Tree

/-- No more arrays and objects than this are open at once in the tree. -/
inductive Within : Nat → Tree → Prop where
  | atom (deep : Nat) (value : Atom) : Within deep (.atom value)
  | array {deep : Nat} {items : List Tree} (each : ∀ item ∈ items, Within deep item) : Within (deep + 1) (.array items)
  | object {deep : Nat} {members : List (List Piece × Tree)} (each : ∀ member ∈ members, Within deep member.2) :
      Within (deep + 1) (.object members)

/-- How many containers are open. -/
def State.open : State → Nat
  | .value around | .whole _ around => around.length
  | .firstItem around | .firstKey around | .key _ around | .colon _ _ around => around.length + 1

def Open.trees : Open → List Tree
  | .array items => items
  | .object members _ => members.map Prod.snd

/-- What has been read inside of the open containers leaves room for them within the limit. -/
inductive Room (limit : Nat) : List Open → Prop where
  | outside : Room limit []
  | inside {around : List Open} {container : Open} (outer : Room limit around)
      (each : ∀ tree ∈ container.trees, Within (limit - (around.length + 1)) tree) : Room limit (container :: around)

def State.Fits (limit : Nat) : State → Prop
  | .value around | .firstItem around | .firstKey around => Room limit around
  | .key members around | .colon members _ around =>
    Room limit around ∧ ∀ member ∈ members, Within (limit - (around.length + 1)) member.2
  | .whole tree around => Room limit around ∧ Within (limit - around.length) tree

variable {limit : Nat} {around : List Open} {state next : State} {token : Token}

theorem stepValue_open (stepped : stepValue around token = some next) {most : Nat} (le : around.length ≤ most) :
    Value.opened (around.length, most) token = (next.open, max most next.open) := by
  cases token with
  | atom value =>
    obtain rfl := Option.some.inj stepped
    rw [State.open, Nat.max_eq_left le, Value.opened]
    all_goals nofun
  | openArray =>
    obtain rfl := Option.some.inj stepped
    rfl
  | openObject =>
    obtain rfl := Option.some.inj stepped
    rfl
  | _ => contradiction

/-- Nesting is counted as containers are opened and closed. -/
theorem step_open (stepped : step state token = some next) {most : Nat} (le : state.open ≤ most) :
    Value.opened (state.open, most) token = (next.open, max most next.open) := by
  unfold step at stepped
  split at stepped
  · exact stepValue_open stepped le
  · obtain rfl := Option.some.inj stepped
    rw [State.open] at le
    rw [State.open, State.open, Nat.max_eq_left (by omega)]
    rfl
  · exact stepValue_open stepped le
  all_goals first
    | contradiction
    | obtain rfl := Option.some.inj stepped
      simp only [State.open, List.length_cons] at le ⊢
      rw [Nat.max_eq_left (by omega)]
      rfl

theorem stepValue_fits (stepped : stepValue around token = some next) (fits : Room limit around) : next.Fits limit := by
  cases token with
  | atom value =>
    obtain rfl := Option.some.inj stepped
    exact ⟨fits, .atom _ _⟩
  | openArray =>
    obtain rfl := Option.some.inj stepped
    exact fits
  | openObject =>
    obtain rfl := Option.some.inj stepped
    exact fits
  | _ => contradiction

theorem Within.closeArray {items : List Tree} {outer : Nat} (enough : outer + 1 ≤ limit)
    (each : ∀ item ∈ items, Within (limit - (outer + 1)) item) : Within (limit - outer) (.array items) := by
  rw [show limit - outer = limit - (outer + 1) + 1 by omega]
  exact .array each

theorem Within.closeObject {members : List (List Piece × Tree)} {outer : Nat} (enough : outer + 1 ≤ limit)
    (each : ∀ member ∈ members, Within (limit - (outer + 1)) member.2) : Within (limit - outer) (.object members) := by
  rw [show limit - outer = limit - (outer + 1) + 1 by omega]
  exact .object each

theorem Room.innermost {container : Open} (room : Room limit (container :: around)) :
    Room limit around ∧ ∀ tree ∈ container.trees, Within (limit - (around.length + 1)) tree := by
  cases room with
  | inside outer each => exact ⟨outer, each⟩

theorem step_fits (stepped : step state token = some next) (fits : state.Fits limit) (enough : state.open ≤ limit) :
    next.Fits limit := by
  unfold step at stepped
  split at stepped
  · exact stepValue_fits stepped fits
  · obtain rfl := Option.some.inj stepped
    exact ⟨fits, .closeArray enough nofun⟩
  · exact stepValue_fits stepped (.inside fits nofun)
  · obtain rfl := Option.some.inj stepped
    exact ⟨fits, .closeObject enough nofun⟩
  · obtain rfl := Option.some.inj stepped
    exact ⟨fits, nofun⟩
  · obtain rfl := Option.some.inj stepped
    exact fits
  · obtain rfl := Option.some.inj stepped
    refine .inside fits.1 fun tree mem => ?_
    obtain ⟨member, inside, rfl⟩ := List.mem_map.mp mem
    exact fits.2 member inside
  · obtain rfl := Option.some.inj stepped
    obtain ⟨outer, each⟩ := fits.1.innermost
    exact .inside outer (List.forall_mem_cons.mpr ⟨fits.2, each⟩)
  · obtain rfl := Option.some.inj stepped
    obtain ⟨outer, each⟩ := fits.1.innermost
    refine ⟨outer, .closeArray enough fun item mem => ?_⟩
    exact List.forall_mem_cons.mpr ⟨fits.2, each⟩ item (List.mem_reverse.mp mem)
  · obtain rfl := Option.some.inj stepped
    obtain ⟨outer, each⟩ := fits.1.innermost
    exact ⟨outer, List.forall_mem_cons.mpr ⟨fits.2, fun member mem => each _ (List.mem_map_of_mem mem)⟩⟩
  · obtain rfl := Option.some.inj stepped
    obtain ⟨outer, each⟩ := fits.1.innermost
    refine ⟨outer, .closeObject enough fun member mem => ?_⟩
    rcases List.mem_cons.mp (List.mem_reverse.mp mem) with rfl | before
    · exact fits.2
    · exact each _ (List.mem_map_of_mem before)
  · contradiction

theorem le_foldl_opened (tokens : List Token) (depth most : Nat) : most ≤ (tokens.foldl Value.opened (depth, most)).2 := by
  induction tokens generalizing depth most with
  | nil => exact Nat.le_refl _
  | cons token tokens ih =>
    refine Nat.le_trans ?_ (ih _ _)
    cases token with
    | openArray => exact Nat.le_max_left _ _
    | openObject => exact Nat.le_max_left _ _
    | _ => exact Nat.le_refl _

/-- Tokens nested no deeper than the limit leave a state that fits in it. -/
theorem run_fits {tokens : List Token} (ran : tokens.foldlM step state = some next) {most : Nat} (le : state.open ≤ most)
    (nested : (tokens.foldl Value.opened (state.open, most)).2 ≤ limit) (fits : state.Fits limit) : next.Fits limit := by
  induction tokens generalizing state most with
  | nil =>
    obtain rfl := Option.some.inj ran
    exact fits
  | cons token tokens ih =>
    rw [List.foldlM_cons] at ran
    obtain ⟨between, stepped, later⟩ := Option.bind_eq_some_iff.mp ran
    have enough := Nat.le_trans (le_foldl_opened (token :: tokens) _ _) nested
    rw [List.foldl_cons, step_open stepped le] at nested
    exact ih later (Nat.le_max_right _ _) nested (step_fits stepped fits (Nat.le_trans le enough))

theorem within_of_tokens {tokens : List Token} {tree : Tree} (spelled : ofTokens? tokens = some tree)
    (nested : nesting tokens ≤ limit) : Within limit tree := by
  unfold ofTokens? at spelled
  split at spelled
  · rename_i whole ran
    obtain rfl := Option.some.inj spelled
    rw [Value.nesting_eq] at nested
    exact (run_fits ran (Nat.le_refl 0) nested .outside).2
  · contradiction

end Tree

end Json

namespace Value

open Json

theorem foldr_max_le {depths : List Nat} {deep : Nat} (each : ∀ depth ∈ depths, depth ≤ deep) : depths.foldr max 0 ≤ deep := by
  induction depths with
  | nil => exact Nat.zero_le _
  | cons depth depths ih =>
    exact Nat.max_le.mpr ⟨each depth List.mem_cons_self, ih fun other mem => each other (List.mem_cons_of_mem _ mem)⟩

theorem mem_ofList {pairs : List (String × Value)} {field : String × Value} (mem : field ∈ Fields.ofList pairs) : field ∈ pairs := by
  have kept (pairs : List (String × Value)) (read : Fields)
      (mem : field ∈ pairs.foldl (fun fields pair => Entries.insert pair.1 pair.2 fields) read) :
      field ∈ read ∨ field ∈ pairs := by
    induction pairs generalizing read with
    | nil => exact .inl mem
    | cons pair pairs ih =>
      rcases ih _ mem with inserted | later
      · rcases Entries.mem_insert inserted with rfl | before
        · exact .inr List.mem_cons_self
        · exact .inl before
      · exact .inr (List.mem_cons_of_mem _ later)
  exact (kept pairs [] mem).resolve_left List.not_mem_nil

theorem depth_of_atom {atom : Atom} {value : Value} (meant : atom.value? = some value) : value.depth = 0 := by
  cases atom with
  | null =>
    obtain rfl := Option.some.inj meant
    exact fold_leaf rfl
  | bool value =>
    obtain rfl := Option.some.inj meant
    exact fold_leaf rfl
  | number text =>
    change text.value? = some value at meant
    unfold NumberText.value? at meant
    dsimp only at meant
    split at meant
    · obtain rfl := Option.some.inj meant
      exact fold_leaf rfl
    · split at meant
      · obtain rfl := Option.some.inj meant
        exact fold_leaf rfl
      · obtain ⟨x, -, rfl⟩ := Option.map_eq_some_iff.mp meant
        exact fold_leaf rfl
  | string pieces =>
    obtain ⟨text, -, rfl⟩ := Option.map_eq_some_iff.mp meant
    exact fold_leaf rfl

/-- A value is nested no deeper than the tree that it is read from. -/
theorem depth_of_tree {tree : Tree} {deep : Nat} (within : Tree.Within deep tree) {value : Value} (meant : tree.value? = some value) :
    value.depth ≤ deep := by
  induction within generalizing value with
  | atom deep atom =>
    rw [Tree.value?] at meant
    exact Nat.le_trans (Nat.le_of_eq (depth_of_atom meant)) (Nat.zero_le _)
  | array each ih =>
    rw [Tree.value?_array] at meant
    obtain ⟨values, found, rfl⟩ := Option.map_eq_some_iff.mp meant
    rw [depth_array]
    refine Nat.succ_le_succ (foldr_max_le (List.forall_mem_map.mpr fun value mem => ?_))
    obtain ⟨item, inside, means⟩ := mem_of_mapM found value mem
    exact ih item inside means
  | object each ih =>
    rw [Tree.value?_object] at meant
    obtain ⟨pairs, found, rfl⟩ := Option.map_eq_some_iff.mp meant
    rw [ofFields, depth_object]
    refine Nat.succ_le_succ (foldr_max_le (List.forall_mem_map.mpr fun field mem => ?_))
    obtain ⟨member, inside, means⟩ := mem_of_mapM found field (mem_ofList mem)
    obtain ⟨key, -, rest⟩ := Option.bind_eq_some_iff.mp means
    obtain ⟨value, valued, same⟩ := Option.bind_eq_some_iff.mp rest
    obtain rfl := Option.some.inj same
    exact ih member inside valued

/-- A document that was read from a text is nested no deeper than the limit. -/
theorem depth_of_parse {text : String} {document : Value} (parsed : parse? text = some document) :
    document.depth ≤ maxNesting := by
  unfold parse? at parsed
  obtain ⟨tokens, -, rest⟩ := Option.bind_eq_some_iff.mp parsed
  split at rest
  · rename_i shallow
    obtain ⟨tree, spelled, meant⟩ := Option.bind_eq_some_iff.mp rest
    exact depth_of_tree (Tree.within_of_tokens spelled shallow) meant
  · contradiction

theorem decode_of_parse {text : String} {document : Value} (parsed : parse? text = some document) :
    decode (Bytes.ofString text) = .ok document := by
  rw [decode, Bytes.toString?_ofString, Option.bind_some, parsed]

/-- A document that a text was read as decodes from its own encoding, where no number in it is a double. -/
theorem decode_encode_of_parse {text : String} {document : Value} (parsed : parse? text = some document)
    (integral : document.doubles = []) : decode document.encode = .ok document := by
  have back : ∀ x ∈ document.doubles, ReadsBack x := by
    rw [integral]
    exact nofun
  rw [decode_encode (regular_of_decode (decode_of_parse parsed)) back, if_pos (depth_of_parse parsed)]

end Value
end CheckpointStore
