import CheckpointStore.Handle.Export
import CheckpointStore.Proofs.GuardedOpenings
import CheckpointStore.Proofs.Identifiers

/-!
# Reading with every access watched

An index entry is taken from a file when it is opened, and used for as long as the handle lives. It
names bytes among the blocks of its checkpoint, in whatever handle or view it is found, so what is read
through it later is in range, and counting and copying the documents never subtract too much.
-/

namespace CheckpointStore

namespace Guarded

variable {ε : Type}

def value (image : Bytes) (entry : IndexEntry) : Guarded ε Bytes := do
  cut image entry.valueOffset (← plus entry.valueOffset entry.valueLength)

def committed? (handle : Handle) (key : Bytes) : Guarded ε (Option Bytes) :=
  match handle.index.get? key with
  | none => return none
  | some entry => return some (← value handle.image.bytes entry)

def get? (handle : Handle) (key : Bytes) : Guarded ε (Option Bytes) :=
  match handle.staged.get? key with
  | some .removed => return none
  | some (.value bytes) => return some bytes
  | some (.editable document) => if document.changed then return some document.encode else committed? handle key
  | none => committed? handle key

def getDocument? (handle : Handle) (key : Bytes) : Guarded DatabaseError (Option Value) :=
  match handle.staged.get? key with
  | some (.editable document) => return some document.value
  | _ => do
    match ← get? handle key with
    | none => return none
    | some bytes =>
      match Value.decode bytes with
      | .ok value => return some value
      | .error error => throw (.document error)

/-- The document of a key taken under edit; one that is staged is not read from the image. -/
def edit? (handle : Handle) (key : Bytes) : Guarded DatabaseError (Option EditableDocument × Handle) :=
  match handle.ensureWritable, handle.staged.get? key with
  | .error error, _ => throw error
  | .ok (), some _ => settled (handle.edit? key)
  | .ok (), none => do
    match ← committed? handle key with
    | none => return (none, handle)
    | some bytes =>
      match Handle.editableOf bytes with
      | .error error => throw error
      | .ok document => return (some document, { handle with staged := handle.staged.insert key (.editable document) })

/-- What a staged change and a committed entry come to, of which the entry is still to be read. -/
def overlay (image : Bytes) : Pending → Option IndexEntry → Option (Guarded ε Bytes)
  | .removed, _ => none
  | .value bytes, _ => some (return bytes)
  | .editable document, some entry => some (if document.changed then return document.encode else value image entry)
  | .editable document, none => some (return document.encode)

def documentsFrom (handle : Handle) (start : Bytes) : Guarded ε (List (Bytes × Bytes)) :=
  let entries := mergeEntries (overlay handle.image.bytes) (value handle.image.bytes) (handle.staged.startingAt start)
    (handle.index.entries.startingAt start)
  entries.mapM fun (key, read) => return (key, ← read)

/-- The count of the documents after one more staged change. -/
def recount (index : LiveIndex) (count : Nat) : Bytes × Pending → Guarded ε Nat
  | (key, .removed) => if index.contains key then minus count 1 else return count
  | (key, _) => if index.contains key then return count else return count + 1

def gains (index : LiveIndex) : Bytes × Pending → Bool
  | (_, .removed) => false
  | (key, _) => !index.contains key

def loses (index : LiveIndex) : Bytes × Pending → Bool
  | (key, .removed) => index.contains key
  | _ => false

def size (handle : Handle) : Guarded ε Nat := handle.staged.entries.foldlM (recount handle.index) handle.index.size

def ceiling (value multiple : Nat) : Guarded ε Nat := if multiple = 0 then fault else return roundUp value multiple

/-- The checkpoint with these changes at the end of a file of `fileSize` bytes. -/
def layOut (fileSize pageSize : Nat) (previous : Option Trailer) (changes : List Change) :
    Guarded StorageError PendingCheckpoint := do
  if PendingCheckpoint.countLimit ≤ changes.length then throw (.tooLarge (.blockCount changes.length))
  else
    let blocks ← settled (Change.encodeAll? changes)
    let checkpointSize ← ceiling (fileSize + blocks.length + Trailer.size) pageSize
    let padding ← minus (← minus checkpointSize Trailer.size) (fileSize + blocks.length)
    let link ← previous.mapM fun trailer => minus trailer.checkpointSize Trailer.size
    let trailer : Trailer := ⟨link.getD 0, checkpointSize, fileSize, changes.length⟩
    return ⟨blocks, Bytes.zeros padding ++ trailer.encode, trailer⟩

def compacted (handle : Handle) : Guarded StorageError Bytes := do
  let documents ← documentsFrom handle []
  let changes : List Change := documents.map fun (key, value) => ⟨key, some value⟩
  let header := (Header.ofPageSize handle.pageSize).encode
  if changes.isEmpty then return header
  else return header ++ (← layOut header.length handle.pageSize none changes).bytes

end Guarded

namespace Handle

variable {handle : Handle}

/-- The document of the entry lies among the blocks of its checkpoint, below the trailer. -/
structure Lodges (handle : Handle) (entry : IndexEntry) (trailer : Trailer) : Prop where
  listed : entry.checkpoint ∈ handle.history
  inside : entry.checkpoint ≤ handle.image.size
  read : Trailer.readEndingAt handle.image entry.checkpoint handle.pageSize = .ok trailer
  above : trailer.blocksStart ≤ entry.valueOffset
  below : entry.valueOffset + entry.valueLength ≤ trailer.offset

theorem Charted.lodges (charted : handle.Charted) :
    ∀ key entry, handle.index.get? key = some entry → ∃ trailer, handle.Lodges entry trailer := by
  obtain ⟨trailers, walk, history⟩ := charted.walk
  refine LiveIndex.every_build walk charted.index ?_
  intro trailer mem blocks parsed block held value written
  have read := walk.read trailer mem
  obtain ⟨-, inside, -, -, -, placed⟩ := Trailer.readEndingAt_ok_iff.mp read
  have before := placed.beforeTrailer
  obtain ⟨low, -⟩ := Trailer.window_of_blocks parsed block held
  have ends := (Trailer.value_of_blocks parsed held).1
  rw [Change.valueBytes, written, Nat.max_eq_left before] at ends
  have start : block.valueOffset = block.offset + 13 + block.change.key.length := rfl
  refine ⟨trailer, ?_, inside, read, by dsimp only; omega, ends⟩
  rw [history]
  exact List.mem_map_of_mem mem

/-- Every reading of the handle stays in range, and gives what it gives. -/
structure ReadsInRange (handle : Handle) : Prop where
  get : ∀ key, (Guarded.get? handle key : Guarded Empty (Option Bytes)) = pure (handle.get? key)
  document : ∀ key, Guarded.getDocument? handle key = Guarded.settled (handle.getDocument? key)
  edit : ∀ key, Guarded.edit? handle key = Guarded.settled (handle.edit? key)
  documentsFrom : ∀ start,
    (Guarded.documentsFrom handle start : Guarded Empty (List (Bytes × Bytes))) = pure (handle.documentsFrom start)
  size : (Guarded.size handle : Guarded Empty Nat) = pure handle.size
  compacted : Guarded.compacted handle = Guarded.settled handle.compacted

/-- No more documents are removed than are committed. -/
theorem removed_le (handle : Handle) : handle.removed ≤ handle.index.size := by
  have removed : handle.removed = handle.removedKeys.card := KeyMap.countP_entries _ _
  have committed : handle.index.size = handle.index.entries.keys.card := (KeyMap.card_keys _).symm
  rw [removed, committed]
  refine Finset.card_le_card fun key gone => ?_
  exact (KeyMap.mem_keys_iff _).mpr (mem_removedKeys_iff.mp gone).2

end Handle

namespace Guarded

variable {ε : Type} {handle : Handle} (within : LiveIndex.Within handle.index.entries handle.image.size)
  (addressable : handle.image.size < 256 ^ 8)

include within addressable

theorem value_eq {key : Bytes} {entry : IndexEntry} (found : handle.index.entries.get? key = some entry) :
    (value handle.image.bytes entry : Guarded ε Bytes) = pure (entry.value handle.image) := by
  have inside := within key entry found
  unfold value
  rw [plus_eq (by omega), pure_bind, cut_eq (by omega) (by rw [Image.length_bytes]; exact inside), Nat.add_sub_cancel_left,
    ← Image.slice_eq]
  rfl

theorem committed?_eq (key : Bytes) : (committed? handle key : Guarded ε (Option Bytes)) = pure (handle.committed? key) := by
  unfold committed? Handle.committed?
  cases found : handle.index.get? key with
  | none => rfl
  | some entry =>
    dsimp only
    rw [value_eq within addressable found, pure_bind]
    rfl

theorem get?_eq (key : Bytes) : (get? handle key : Guarded ε (Option Bytes)) = pure (handle.get? key) := by
  unfold get? Handle.get?
  cases handle.staged.get? key with
  | none => exact committed?_eq within addressable key
  | some pending =>
    cases pending with
    | removed => rfl
    | value bytes => rfl
    | editable document =>
      dsimp only
      split
      · rfl
      · exact committed?_eq within addressable key

theorem getDocument?_eq (key : Bytes) : getDocument? handle key = settled (handle.getDocument? key) := by
  have read : (do
        match ← get? handle key with
        | none => return none
        | some bytes =>
          match Value.decode bytes with
          | .ok value => return some value
          | .error error => throw (.document error) : Guarded DatabaseError (Option Value))
      = settled (match handle.get? key with
        | none => .ok none
        | some bytes =>
          match Value.decode bytes with
          | .ok value => .ok (some value)
          | .error error => .error (.document error)) := by
    rw [get?_eq within addressable, pure_bind]
    cases handle.get? key with
    | none => rfl
    | some bytes =>
      dsimp only
      cases Value.decode bytes <;> rfl
  unfold getDocument? Handle.getDocument?
  cases handle.staged.get? key with
  | none => exact read
  | some pending =>
    cases pending with
    | editable document => rfl
    | removed => exact read
    | value bytes => exact read

theorem edit?_eq (key : Bytes) : edit? handle key = settled (handle.edit? key) := by
  unfold edit?
  cases writable : handle.ensureWritable with
  | error error =>
    unfold Handle.edit?
    rw [writable]
    rfl
  | ok done =>
    cases staged : handle.staged.get? key with
    | some pending => rfl
    | none =>
      unfold Handle.edit?
      simp only [writable, staged]
      rw [committed?_eq within addressable, pure_bind]
      cases handle.committed? key with
      | none => rfl
      | some bytes =>
        dsimp only
        cases Handle.editableOf bytes <;> rfl

omit within addressable in
/-- Reads that are put off until after a merge are merged as what they give. -/
theorem mergeEntries_suspended {α β γ : Type} (left : α → Option β → Option γ) (right : β → γ)
    {watched : α → Option β → Option (Guarded ε γ)} {read : β → Guarded ε γ} {as : List (Bytes × α)}
    {bs : List (Bytes × β)} (alone : ∀ a, watched a none = (left a none).map pure)
    (stored : ∀ entry ∈ bs, read entry.2 = pure (right entry.2) ∧
      ∀ a, watched a (some entry.2) = (left a (some entry.2)).map pure) :
    mergeEntries watched read as bs = (mergeEntries left right as bs).map fun (key, c) => (key, pure c) := by
  fun_induction mergeEntries left right as bs with
  | case1 rest =>
    rw [mergeEntries, List.map_map]
    refine List.map_congr_left fun entry mem => ?_
    simp [(stored entry mem).1]
  | case2 rest filled =>
    rw [mergeEntries, List.map_filterMap]
    · refine List.filterMap_congr fun entry mem => ?_
      dsimp only
      rw [alone, Option.map_map, Option.map_map]
      rfl
    · exact filled
  | case3 k a as l b bs less c kept ih =>
    rw [mergeEntries, if_pos less, alone, kept, ih stored]
    rfl
  | case4 k a as l b bs less dropped ih =>
    rw [mergeEntries, if_pos less, alone, dropped, ih stored]
    rfl
  | case5 a as k b bs c kept irreflexive ih =>
    obtain ⟨⟨-, both⟩, later⟩ := List.forall_mem_cons.mp stored
    rw [mergeEntries, if_neg irreflexive, if_pos rfl, both, kept, ih later]
    rfl
  | case6 a as k b bs dropped irreflexive ih =>
    obtain ⟨⟨-, both⟩, later⟩ := List.forall_mem_cons.mp stored
    rw [mergeEntries, if_neg irreflexive, if_pos rfl, both, dropped, ih later]
    rfl
  | case7 k a as l b bs more different ih =>
    obtain ⟨⟨here, -⟩, later⟩ := List.forall_mem_cons.mp stored
    rw [mergeEntries, if_neg more, if_neg different, here, ih later]
    rfl

theorem overlay_eq (pending : Pending) {key : Bytes} {entry : IndexEntry}
    (found : handle.index.entries.get? key = some entry) :
    (overlay handle.image.bytes pending (some entry) : Option (Guarded ε Bytes))
      = (Handle.overlay handle.image pending (some entry)).map pure := by
  cases pending with
  | removed => rfl
  | value bytes => rfl
  | editable document =>
    have read : (value handle.image.bytes entry : Guarded ε Bytes) = pure (entry.value handle.image) :=
      value_eq within addressable found
    cases changed : document.changed <;> simp [overlay, Handle.overlay, changed, read]

theorem documentsFrom_eq (start : Bytes) :
    (documentsFrom handle start : Guarded ε (List (Bytes × Bytes))) = pure (handle.documentsFrom start) := by
  have committed : ∀ entry ∈ handle.index.entries.startingAt start, handle.index.entries.get? entry.1 = some entry.2 :=
    fun entry mem => KeyMap.mem_entries_iff.mp (List.mem_of_mem_filter mem)
  unfold documentsFrom Handle.documentsFrom
  dsimp only
  rw [mergeEntries_suspended (Handle.overlay handle.image) fun entry => entry.value handle.image, List.mapM_map]
  · exact List.mapM_pure.trans (congrArg pure (List.map_id _))
  · intro pending
    cases pending <;> rfl
  · intro entry mem
    exact ⟨value_eq within addressable (committed entry mem),
      fun pending => overlay_eq within addressable pending (committed entry mem)⟩

omit within addressable in
theorem recount_eq {index : LiveIndex} {count : Nat} {entry : Bytes × Pending}
    (enough : (if loses index entry = true then 1 else 0) ≤ count) :
    (recount index count entry : Guarded ε Nat)
      = pure (count + (if gains index entry = true then 1 else 0) - if loses index entry = true then 1 else 0) := by
  obtain ⟨key, pending⟩ := entry
  cases pending with
  | removed =>
    unfold recount gains loses at *
    dsimp only at *
    split
    · rename_i here
      rw [if_pos here] at enough
      exact minus_eq enough
    · rfl
  | value bytes =>
    unfold recount gains loses
    cases here : index.contains key <;> simp [here]
  | editable document =>
    unfold recount gains loses
    cases here : index.contains key <;> simp [here]

omit within addressable in
/-- Each staged change counts up or down by what it adds or removes, and never below nothing. -/
theorem foldlM_recount {index : LiveIndex} {staged : List (Bytes × Pending)} {count : Nat}
    (enough : staged.countP (loses index) ≤ count) :
    (staged.foldlM (recount index) count : Guarded ε Nat)
      = pure (count + staged.countP (gains index) - staged.countP (loses index)) := by
  induction staged generalizing count with
  | nil => rfl
  | cons entry rest ih =>
    rw [List.countP_cons] at enough
    rw [List.foldlM_cons, List.countP_cons, List.countP_cons, recount_eq (by omega), pure_bind, ih (by omega)]
    congr 1
    omega

omit within addressable in
theorem size_eq (handle : Handle) : (size handle : Guarded ε Nat) = pure handle.size := by
  have added : handle.added = handle.staged.entries.countP (gains handle.index) := by
    refine List.countP_congr fun entry mem => ?_
    obtain ⟨key, pending⟩ := entry
    cases pending <;> rfl
  have removed : handle.removed = handle.staged.entries.countP (loses handle.index) := by
    refine List.countP_congr fun entry mem => ?_
    obtain ⟨key, pending⟩ := entry
    cases pending <;> rfl
  have enough := handle.removed_le
  unfold Handle.size
  rw [added, removed] at *
  exact foldlM_recount enough

omit within addressable in
/-- A checkpoint is laid out as it is built, where the one before it has a trailer. -/
theorem layOut_eq {fileSize pageSize : Nat} {previous : Option Trailer} {changes : List Change} (positive : 0 < pageSize)
    (closed : ∀ trailer, previous = some trailer → Trailer.size ≤ trailer.checkpointSize) :
    layOut fileSize pageSize previous changes = settled (PendingCheckpoint.build fileSize pageSize previous changes) := by
  unfold layOut PendingCheckpoint.build
  refine check .rfl fun few => ?_
  cases Change.encodeAll? changes with
  | error error => rfl
  | ok blocks =>
    have room := le_roundUp (fileSize + blocks.length + Trailer.size) positive
    have link : (previous.mapM fun trailer => minus trailer.checkpointSize Trailer.size)
        = (pure (previous.map Trailer.offset) : Guarded StorageError (Option Nat)) := by
      cases before : previous with
      | none => rfl
      | some trailer =>
        show minus _ _ >>= _ = _
        rw [minus_eq (closed trailer before), pure_bind]
        rfl
    rw [settled_ok, pure_bind, ceiling, if_neg (by omega), pure_bind, minus_eq (by omega), pure_bind, minus_eq (by omega),
      pure_bind, link, pure_bind]
    rfl

theorem compacted_eq (positive : 0 < handle.pageSize) : compacted handle = settled handle.compacted := by
  unfold compacted Handle.compacted Handle.liveChanges buildCompacted
  rw [documentsFrom_eq within addressable, pure_bind]
  dsimp only
  rw [Handle.documents]
  split
  · rfl
  · have alone : ∀ trailer, (none : Option Trailer) = some trailer → Trailer.size ≤ trailer.checkpointSize :=
      fun trailer none => absurd none.symm (Option.some_ne_none trailer)
    rw [layOut_eq positive alone]
    cases PendingCheckpoint.build _ _ _ _ <;> rfl

/-- What is asked of the entries is all that the readings rest on. -/
theorem readsInRange (positive : 0 < handle.pageSize) : handle.ReadsInRange where
  get := get?_eq within addressable
  document := getDocument?_eq within addressable
  edit := edit?_eq within addressable
  documentsFrom := documentsFrom_eq within addressable
  size := size_eq handle
  compacted := compacted_eq within addressable positive

end Guarded

namespace Session

open Handle MemoryStore

variable {session : Session}

/-- Zeros behind a header hold no trailer, so at the second page boundary they are refused. -/
theorem load_of_zeros_behind {settings : Settings} {count : Nat} (valid : settings.validate = .ok ())
    (long : settings.pageSize ≤ count) :
    Layout.load (newImage settings ++ .ofBytes (Bytes.zeros count))
      = .error (.noValidCheckpoint (newImage settings ++ .ofBytes (Bytes.zeros count)).size) := by
  have size := size_newImage settings
  have whole : (newImage settings ++ .ofBytes (Bytes.zeros count)).size = settings.pageSize + count := by
    rw [Image.size_append, size, Image.size_ofBytes, Bytes.length_zeros]
  have decoded := Guarded.decode_newImage_append valid (.ofBytes (Bytes.zeros count))
  have pages : 2 * settings.pageSize ≤ (newImage settings ++ .ofBytes (Bytes.zeros count)).size := by omega
  refine Layout.load_of_refused decoded pages fun stop trailer closes => ?_
  exact Guarded.not_read_of_zeros size.le stop trailer (validateCheckpoint_ok_iff.mp closes).1

end Session
end CheckpointStore
