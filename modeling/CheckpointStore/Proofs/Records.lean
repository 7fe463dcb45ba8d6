import CheckpointStore.Proofs.Histories
import CheckpointStore.Proofs.Identifiers
import CheckpointStore.Proofs.Rereads
import CheckpointStore.Proofs.Versions

/-!
# Versions in a handle

A handle presents documents when what it reads are their encodings under the bytes of their keys. It
records versions when it presents the newest of them and has a view of each, and a committed change makes
it record one more.
-/

namespace CheckpointStore

theorem Entries.get?_eq_some_iff {α : Type} {entries : List (String × α)} (distinct : (entries.map Prod.fst).Nodup)
    {key : String} {value : α} : Entries.get? key entries = some value ↔ (key, value) ∈ entries := by
  induction entries with
  | nil => simp [Entries.get?]
  | cons entry rest ih =>
    obtain ⟨k, first⟩ := entry
    rw [List.map_cons, List.nodup_cons] at distinct
    rw [Entries.get?, List.mem_cons, Prod.mk.injEq]
    by_cases same : key = k
    · subst same
      have other : (key, value) ∉ rest := fun mem => distinct.1 (List.mem_map.mpr ⟨(key, value), mem, rfl⟩)
      simp [other, eq_comm]
    · simp [same, ih distinct.2]

namespace Documents

variable {documents : Documents}

theorem distinct_erase (distinct : (documents.map Prod.fst).Nodup) (key : String) :
    ((Entries.erase key documents).map Prod.fst).Nodup :=
  distinct.sublist (List.filter_sublist.map _)

theorem distinct_put (distinct : (documents.map Prod.fst).Nodup) (key : String) (document : Value) :
    ((documents.put key document).map Prod.fst).Nodup := by
  rw [put, List.map_cons, List.nodup_cons]
  refine ⟨fun mem => ?_, distinct_erase distinct key⟩
  obtain ⟨entry, held, same⟩ := List.mem_map.mp mem
  simp [Entries.erase, same] at held

theorem mem_erase {key : String} {entry : String × Value} :
    entry ∈ Entries.erase key documents ↔ entry ∈ documents ∧ entry.1 ≠ key := by
  simp [Entries.erase]

theorem perm_inKeyOrder (documents : Documents) : documents.inKeyOrder.Perm documents := List.mergeSort_perm _ _

theorem ascending_inKeyOrder (distinct : (documents.map Prod.fst).Nodup) (encode : Value → Bytes) :
    Ascending (documents.inKeyOrder.map fun entry => (Bytes.ofString entry.1, encode entry.2)) := by
  have sorted : documents.inKeyOrder.Pairwise fun a b => (Bytes.order (Bytes.ofString a.1) (Bytes.ofString b.1)).isLE = true :=
    List.pairwise_mergeSort (fun a b c => Std.TransCmp.isLE_trans)
      (fun a b => by
        rw [Bool.or_eq_true, ← Bytes.swap_order]
        cases Bytes.order (Bytes.ofString b.1) (Bytes.ofString a.1) <;> simp) documents
  have different : documents.inKeyOrder.Pairwise fun a b => a.1 ≠ b.1 :=
    List.pairwise_map.mp (((perm_inKeyOrder documents).map Prod.fst).nodup_iff.mpr distinct)
  refine List.pairwise_map.mpr ((sorted.and different).imp fun both => ?_)
  exact (Bytes.isLE_order_iff.mp both.1).resolve_right fun same => both.2 (Bytes.ofString_injective same)

end Documents

namespace Handle

variable {handle after : Handle} {documents : Documents}

/-- What is read through the handle are these documents, each of which decodes from its encoding. -/
structure Presents (handle : Handle) (documents : Documents) : Prop where
  bare : handle.staged = KeyMap.empty
  distinct : (documents.map Prod.fst).Nodup
  readable : ∀ entry ∈ documents, Value.decode entry.2.encode = .ok entry.2
  found : ∀ key value, handle.get? key = some value ↔
    ∃ entry ∈ documents, key = Bytes.ofString entry.1 ∧ value = entry.2.encode

theorem Presents.of_get? (presents : handle.Presents documents) (same : ∀ key, after.get? key = handle.get? key)
    (bare : after.staged = KeyMap.empty) : after.Presents documents :=
  ⟨bare, presents.distinct, presents.readable, fun key value => by rw [same, presents.found]⟩

theorem Presents.get?_eq (presents : handle.Presents documents) (key : String) :
    handle.get? (Bytes.ofString key) = (Entries.get? key documents).map Value.encode := by
  apply Option.ext
  intro value
  rw [presents.found, Option.map_eq_some_iff]
  constructor
  · rintro ⟨⟨text, document⟩, mem, same, rfl⟩
    obtain rfl := Bytes.ofString_injective same
    exact ⟨document, (Entries.get?_eq_some_iff presents.distinct).mpr mem, rfl⟩
  · rintro ⟨document, held, rfl⟩
    exact ⟨(key, document), (Entries.get?_eq_some_iff presents.distinct).mp held, rfl, rfl⟩

theorem Presents.getDocument? (presents : handle.Presents documents) (key : String) :
    handle.getDocument? (Bytes.ofString key) = .ok (Entries.get? key documents) := by
  rw [getDocument?_of_staged_empty presents.bare, presents.get?_eq]
  cases held : Entries.get? key documents with
  | none => rfl
  | some document =>
    have mem := (Entries.get?_eq_some_iff presents.distinct).mp held
    rw [Option.map_some, documentOf, presents.readable _ mem]

theorem Presents.sound (presents : handle.Presents documents) : handle.Sound := Sound.of_staged_empty presents.bare

theorem Presents.contains (presents : handle.Presents documents) (key : String) :
    handle.contains (Bytes.ofString key) = (Entries.get? key documents).isSome := by
  rw [contains_eq presents.sound, presents.get?_eq, Option.isSome_map]

/-- The documents are read in the order of the bytes of their keys. -/
theorem Presents.documents_eq (presents : handle.Presents documents) :
    handle.documents = documents.inKeyOrder.map fun entry => (Bytes.ofString entry.1, entry.2.encode) := by
  refine ascending_documents.eq_of_mem_iff (Documents.ascending_inKeyOrder presents.distinct Value.encode) fun key value => ?_
  rw [mem_documents_iff presents.sound, presents.found, List.mem_map]
  constructor
  · rintro ⟨entry, mem, rfl, rfl⟩
    exact ⟨entry, (Documents.perm_inKeyOrder documents).mem_iff.mpr mem, rfl⟩
  · rintro ⟨entry, mem, same⟩
    obtain ⟨rfl, rfl⟩ := Prod.mk.inj same
    exact ⟨entry, (Documents.perm_inKeyOrder documents).mem_iff.mp mem, rfl, rfl⟩

theorem Presents.size (presents : handle.Presents documents) : handle.size = documents.length := by
  rw [size_eq_length_documents presents.sound, presents.documents_eq, List.length_map,
    (Documents.perm_inKeyOrder documents).length_eq]

/-- Every document that is read is shown with the text of its key. -/
theorem Presents.listed (presents : handle.Presents documents) :
    handle.documents.mapM Work.listed = .ok (documents.inKeyOrder.map fun entry =>
      .ofFields [("key", .string entry.1), ("document", entry.2)]) := by
  have readable : ∀ entry ∈ documents.inKeyOrder, Value.decode entry.2.encode = .ok entry.2 :=
    fun entry mem => presents.readable entry ((Documents.perm_inKeyOrder documents).mem_iff.mp mem)
  rw [presents.documents_eq]
  generalize documents.inKeyOrder = entries at readable
  induction entries with
  | nil => rfl
  | cons entry rest ih =>
    rw [List.map_cons, List.mapM_cons, ih fun other mem => readable other (List.mem_cons_of_mem _ mem)]
    have shown : Work.listed (Bytes.ofString entry.1, entry.2.encode)
        = .ok (.ofFields [("key", .string entry.1), ("document", entry.2)]) := by
      unfold Work.listed
      dsimp only
      rw [readable entry List.mem_cons_self, Lossy.decode_ofString]
    rw [shown]
    rfl

theorem Presents.erase (presents : handle.Presents documents) {key : String} (bare : after.staged = KeyMap.empty)
    (found : ∀ other, after.get? other = if other = Bytes.ofString key then none else handle.get? other) :
    after.Presents (Entries.erase key documents) := by
  refine ⟨bare, Documents.distinct_erase presents.distinct key,
    fun entry mem => presents.readable entry (Documents.mem_erase.mp mem).1, fun other value => ?_⟩
  rw [found]
  constructor
  · intro held
    split at held
    · contradiction
    · rename_i different
      obtain ⟨entry, mem, rfl, same⟩ := (presents.found other value).mp held
      exact ⟨entry, Documents.mem_erase.mpr ⟨mem, fun named => different (named ▸ rfl)⟩, rfl, same⟩
  · rintro ⟨entry, mem, rfl, rfl⟩
    obtain ⟨held, different⟩ := Documents.mem_erase.mp mem
    rw [if_neg fun same => different (Bytes.ofString_injective same), presents.found]
    exact ⟨entry, held, rfl, rfl⟩

theorem Presents.put (presents : handle.Presents documents) {key : String} {document : Value}
    (bare : after.staged = KeyMap.empty) (readable : Value.decode document.encode = .ok document)
    (found : ∀ other, after.get? other = if other = Bytes.ofString key then some document.encode else handle.get? other) :
    after.Presents (documents.put key document) := by
  refine ⟨bare, Documents.distinct_put presents.distinct key document, ?_, fun other value => ?_⟩
  · intro entry mem
    rcases List.mem_cons.mp mem with rfl | before
    · exact readable
    · exact presents.readable entry (Documents.mem_erase.mp before).1
  · rw [found]
    constructor
    · intro held
      split at held
      · rename_i same
        exact ⟨(key, document), List.mem_cons_self, same, (Option.some.inj held).symm⟩
      · rename_i different
        obtain ⟨entry, mem, rfl, same⟩ := (presents.found other value).mp held
        have kept := Documents.mem_erase.mpr ⟨mem, fun named => different (named ▸ rfl)⟩
        exact ⟨entry, List.mem_cons_of_mem _ kept, rfl, same⟩
    · rintro ⟨entry, mem, rfl, rfl⟩
      rcases List.mem_cons.mp mem with rfl | before
      · rw [if_pos rfl]
      · obtain ⟨held, different⟩ := Documents.mem_erase.mp before
        rw [if_neg fun same => different (Bytes.ofString_injective same), presents.found]
        exact ⟨entry, held, rfl, rfl⟩

/-- The handle is that of a file with these versions. -/
structure Records (handle : Handle) (versions : Versions) : Prop where
  grounded : handle.Grounded
  page : handle.pageSize = versions.pageSize
  size : handle.image.size = versions.fileSize
  history : handle.history = versions.committed.map Version.checkpoint
  newest : handle.Presents versions.newest.documents
  older : ∀ version ∈ versions.committed, ∃ view, (handle.viewAt version.checkpoint).result = .ok view ∧
    view.Presents version.documents

variable {versions : Versions}

theorem presents_nothing {handle : Handle} (bare : handle.staged = KeyMap.empty) (nothing : ∀ key, handle.get? key = none) :
    handle.Presents [] := by
  refine ⟨bare, List.nodup_nil, nofun, fun key value => ?_⟩
  rw [nothing]
  simp

theorem records_new {settings : Settings} (valid : settings.validate = .ok ()) :
    (new settings).Records ⟨settings.pageSize, []⟩ :=
  ⟨grounded_new valid, rfl, size_newImage settings, rfl, presents_nothing rfl fun _ => rfl, nofun⟩

/-- The name of the newest version is the checkpoint of the handle. -/
theorem Records.checkpoint (records : handle.Records versions) : handle.checkpoint = versions.newest.checkpoint := by
  rw [← records.grounded.charted.chronicled.newest, records.history, Versions.newest]
  cases versions.committed <;> rfl

theorem Records.previousCheckpoint (records : handle.Records versions) :
    handle.previousCheckpoint = (versions.committed.tail.head?.map Version.checkpoint).getD 0 := by
  rw [← records.grounded.charted.chronicled.before, records.history]
  rcases versions.committed with _ | ⟨newest, _ | ⟨before, rest⟩⟩ <;> rfl

/-- Nothing lies behind the newest version. -/
theorem Records.undamaged (records : handle.Records versions) : Recovery.past handle.image.size handle.validEnd = .clean := by
  rw [Recovery.past_eq_clean_iff, records.size, Versions.fileSize]
  have checkpoint := records.checkpoint
  rw [Versions.newest] at checkpoint
  cases committed : versions.committed with
  | nil =>
    rw [committed] at checkpoint
    rw [validEnd, records.grounded.checkpoint_eq_zero_iff.mp checkpoint]
    exact records.page
  | cons newest rest =>
    rw [committed] at checkpoint
    have named : newest.checkpoint ∈ handle.history := by simp [records.history, committed]
    have placed := (records.grounded.charted.bounds named).1
    rw [records.grounded.validEnd_of_committed (by rw [checkpoint]; show newest.checkpoint ≠ 0; omega), checkpoint]
    rfl

/-- A view is of the version that is asked for, and a version that there is not has none. -/
theorem Records.viewAt (records : handle.Records versions) (checkpoint : Nat) :
    match versions.version? (some checkpoint) with
    | some version => ∃ view, (handle.viewAt checkpoint).result = .ok view ∧ view.checkpoint = version.checkpoint ∧
        view.Presents version.documents
    | none => (handle.viewAt checkpoint).result = .error (.unknownCheckpoint checkpoint) := by
  cases checkpoint with
  | zero =>
    obtain ⟨view, result, charted, -, -, zero, bare⟩ := handle.viewAt_zero
    refine ⟨view, result, zero, presents_nothing bare fun key => ?_⟩
    rw [(charted.sameReadings_new zero bare {}).get]
    rfl
  | succ checkpoint =>
    rw [Versions.version?.eq_3 _ _ (Nat.succ_ne_zero _)]
    cases sought : versions.committed.find? fun version => version.checkpoint = checkpoint + 1 with
    | none =>
      refine viewAt_of_not_mem (Nat.succ_ne_zero _) fun mem => ?_
      rw [records.history] at mem
      obtain ⟨version, held, same⟩ := List.mem_map.mp mem
      exact absurd (decide_eq_true same) (List.find?_eq_none.mp sought version held)
    | some version =>
      have named : version.checkpoint = checkpoint + 1 := by simpa using List.find?_some sought
      obtain ⟨view, result, presents⟩ := records.older version (List.mem_of_find?_eq_some sought)
      have mem : version.checkpoint ∈ handle.history := by
        rw [records.history]
        exact List.mem_map_of_mem (List.mem_of_find?_eq_some sought)
      obtain ⟨same, again, -, -, -, at_, -⟩ := records.grounded.charted.viewAt_of_mem mem
      obtain rfl := Except.ok.inj (result.symm.trans again)
      rw [← named]
      exact ⟨view, result, at_, presents⟩

/-- Two handles with the same bytes so far have views that read the same. -/
theorem viewed_again {a b : Handle} (first : a.Charted) (second : b.Charted) (begun : b.image.bytes <+: a.image.bytes)
    (header : a.header = b.header) {checkpoint : Nat} (mem : checkpoint ∈ a.history) (before : checkpoint ∈ b.history)
    {view : Handle} (viewed : (b.viewAt checkpoint).result = .ok view) (presents : view.Presents documents) :
    ∃ again, (a.viewAt checkpoint).result = .ok again ∧ again.Presents documents := by
  obtain ⟨again, result, charted, image, titled, stands, bare⟩ := first.viewAt_of_mem mem
  obtain ⟨same, found, older, stored, alike, stood, clear⟩ := second.viewAt_of_mem before
  obtain rfl := Except.ok.inj (viewed.symm.trans found)
  have readings := charted.sameReadings older (by rw [image, stored]; exact begun) (by rw [titled, alike, header])
    (stands.trans stood.symm) bare clear
  exact ⟨again, result, presents.of_get? readings.get bare⟩

theorem Records.reopened (records : handle.Records versions) (mode : OpenMode) (settings : Settings) (location : String) :
    (handle.reopened mode settings location).Records versions := by
  obtain ⟨grounded, page, size, history, newest, older⟩ := records
  have again : (handle.reopened mode settings location).Grounded := grounded.of_same rfl rfl rfl rfl rfl
  refine ⟨again, page, size, history, newest.of_get? (fun key => ?_) rfl, fun version mem => ?_⟩
  · rw [get?_of_staged_empty rfl, get?_of_staged_empty newest.bare]
    rfl
  · obtain ⟨view, viewed, presents⟩ := older version mem
    have listed : version.checkpoint ∈ handle.history := history ▸ List.mem_map_of_mem mem
    exact viewed_again again.charted grounded.charted List.prefix_rfl rfl listed listed viewed presents

section Committed

variable {key : String} {document : Option Value}

/-- What is staged for a key that is given a document, or none. -/
def pendingOf : Option Value → Pending
  | some document => .value document.encode
  | none => .removed

theorem written_pendingOf (document : Option Value) : (pendingOf document).written? = some (document.map Value.encode) := by
  cases document <;> rfl

/-- The handle with one change staged. -/
def changing (handle : Handle) (key : String) (document : Option Value) : Handle :=
  handle.restaged (KeyMap.empty.insert (Bytes.ofString key) (pendingOf document))

theorem changes_changing (handle : Handle) (key : String) (document : Option Value) :
    (handle.changing key document).staged.changes = [.ofDocument key document] :=
  Staging.changes_insert_empty _ (written_pendingOf document)

theorem get?_changing (bare : handle.staged = KeyMap.empty) (key : String) (document : Option Value) (other : Bytes) :
    (handle.changing key document).get? other
      = if other = Bytes.ofString key then document.map Value.encode else handle.get? other := by
  have staged : (handle.changing key document).staged.get? other
      = if other = Bytes.ofString key then some (pendingOf document) else none :=
    (KeyMap.get?_insert _ _ _ _).trans (by rw [KeyMap.get?_empty])
  by_cases same : other = Bytes.ofString key
  · rw [if_pos same] at staged ⊢
    exact get?_of_written staged (written_pendingOf document)
  · rw [if_neg same] at staged
    rw [if_neg same, get?_of_staged_empty bare]
    refine (get?_of_unwritten fun pending found => ?_).trans rfl
    rw [staged] at found
    contradiction

/-- The handle when that change is committed. -/
def amended (handle : Handle) (key : String) (document : Option Value) : Handle :=
  (handle.changing key document).advanced (handle.changing key document).staged.changes

theorem prefix_amended (handle : Handle) (key : String) (document : Option Value) :
    handle.image.bytes <+: (handle.amended key document).image.bytes := by
  show _ <+: (handle.image ++ _).bytes
  rw [Image.bytes_append]
  exact List.prefix_append _ _

theorem Records.grounded_changing (records : handle.Records versions) : (handle.changing key document).Grounded :=
  records.grounded.of_same rfl rfl rfl rfl rfl

/-- The block of one change, and a trailer behind it, end where the next version says. -/
theorem Records.checkpointSize_changing (records : handle.Records versions) :
    ((handle.changing key document).laidOut (handle.changing key document).staged.changes).trailer.checkpointSize
      = (versions.next key document).checkpoint := by
  rw [changes_changing]
  show roundUp (handle.image.size + (List.flatMap Change.encode [Change.ofDocument key document]).length + Trailer.size)
    handle.pageSize = roundUp _ _
  rw [records.size, records.page, List.flatMap_singleton, Change.length_encode]

theorem Records.size_amended (records : handle.Records versions) :
    (handle.amended key document).image.size = (versions.next key document).checkpoint :=
  (records.grounded_changing.size_advanced _).trans records.checkpointSize_changing

theorem Records.history_amended (records : handle.Records versions) :
    (handle.amended key document).history = (versions.next key document).checkpoint :: handle.history := by
  rw [← records.checkpointSize_changing]
  exact List.reverse_append

section Fits

variable (records : handle.Records versions) (fits : (Change.ofDocument key document).Fits)
  (addressable : (versions.next key document).checkpoint < 256 ^ 8)

include records fits addressable

/-- Such a change can be committed, and what is read before the commit is read after it. -/
theorem Records.grounded_amended :
    (handle.amended key document).Grounded ∧
      ∀ other, (handle.amended key document).get? other = (handle.changing key document).get? other := by
  have changes := changes_changing handle key document
  have few : (handle.changing key document).staged.changes.length < PendingCheckpoint.countLimit := by
    rw [changes, List.length_singleton]
    decide
  have fit : ∀ change ∈ (handle.changing key document).staged.changes, change.Fits := by
    rw [changes]
    exact fun change mem => List.mem_singleton.mp mem ▸ fits
  have total : (handle.amended key document).image.size < 256 ^ 8 := records.size_amended ▸ addressable
  have ground : (handle.changing key document).Grounded := records.grounded_changing
  exact ⟨grounded_advanced ground few fit total, fun other => ground.get?_advanced few fit total⟩

theorem Records.presents_amended (readable : ∀ value, document = some value → Value.decode value.encode = .ok value) :
    (handle.amended key document).Presents (versions.next key document).documents := by
  have reads := get?_changing records.newest.bare key document
  obtain ⟨-, kept⟩ := records.grounded_amended fits addressable
  cases document with
  | none => exact records.newest.erase rfl fun other => (kept other).trans (reads other)
  | some document => exact records.newest.put rfl (readable document rfl) fun other => (kept other).trans (reads other)

/-- A committed change makes one more version. -/
theorem Records.committed (readable : ∀ value, document = some value → Value.decode value.encode = .ok value) :
    (handle.amended key document).Records { versions with committed := versions.next key document :: versions.committed } := by
  obtain ⟨again, -⟩ := records.grounded_amended fits addressable
  have presents := records.presents_amended fits addressable readable
  have history : (handle.amended key document).history = (versions.next key document).checkpoint :: handle.history :=
    records.history_amended
  refine ⟨again, records.page, records.size_amended, ?_, presents, fun version mem => ?_⟩
  · rw [history, records.history]
    rfl
  · rcases List.mem_cons.mp mem with rfl | before
    · have viewed := again.viewAt_checkpoint
      rw [show (handle.amended key document).checkpoint = (versions.next key document).checkpoint
        from records.checkpointSize_changing] at viewed
      refine ⟨_, viewed, presents.of_get? (fun other => ?_) rfl⟩
      rw [get?_of_staged_empty rfl, get?_of_staged_empty presents.bare]
      rfl
    · obtain ⟨view, viewed, shown⟩ := records.older version before
      have held : version.checkpoint ∈ handle.history := records.history ▸ List.mem_map_of_mem before
      have listed : version.checkpoint ∈ (handle.amended key document).history :=
        history ▸ List.mem_cons_of_mem _ held
      exact viewed_again again.charted records.grounded.charted (prefix_amended handle key document) rfl listed held viewed
        shown

end Fits

end Committed

end Handle
end CheckpointStore
