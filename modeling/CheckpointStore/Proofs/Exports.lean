import CheckpointStore.Handle.Export
import CheckpointStore.Proofs.Histories

/-!
# Compacted copies

A compacted copy of a handle is a new database past one checkpoint that puts every document. It opens
clean with the documents that the handle reads, and a copy of it is the same bytes again.
-/

namespace CheckpointStore

theorem Change.length_flatMap_encode {changes : List Change} (fit : ∀ change ∈ changes, change.Fits) :
    (changes.flatMap Change.encode).length ≤ changes.length * 4294967295 := by
  induction changes with
  | nil => exact Nat.zero_le _
  | cons change rest ih =>
    have first : change.encodedLength < 4294967296 := fit change List.mem_cons_self
    have later := ih fun other mem => fit other (List.mem_cons_of_mem _ mem)
    rw [List.flatMap_cons, List.length_append, Change.length_encode, List.length_cons]
    omega

theorem Image.ofBytes_eq_iff {bytes : Bytes} {image : Image} : ofBytes bytes = image ↔ bytes = image.bytes := by
  constructor
  · rintro rfl
    exact (bytes_ofBytes bytes).symm
  · rintro rfl
    exact ofBytes_bytes image

theorem buildCompacted_ok_iff {pageSize : Nat} {changes : List Change} {bytes : Bytes} :
    buildCompacted pageSize changes = .ok bytes ↔
      (changes = [] ∧ bytes = (Header.ofPageSize pageSize).encode) ∨
        changes ≠ [] ∧ changes.length < PendingCheckpoint.countLimit ∧ (∀ change ∈ changes, change.Fits) ∧
          bytes = (Header.ofPageSize pageSize).encode
            ++ (PendingCheckpoint.laidOut pageSize pageSize none changes).bytes := by
  unfold buildCompacted
  cases changes with
  | nil => simp [eq_comm]
  | cons change rest =>
    simp only [List.isEmpty_cons, Bool.false_eq_true, if_false, reduceCtorEq, false_and, false_or, ne_eq,
      not_false_eq_true, true_and]
    rw [Header.length_encode]
    cases built : PendingCheckpoint.build (Header.ofPageSize pageSize).pageSize pageSize none (change :: rest) with
    | error error =>
      simp only [reduceCtorEq, false_iff]
      rintro ⟨count, fit, -⟩
      rw [PendingCheckpoint.build_ok_iff.mpr ⟨count, fit, rfl⟩] at built
      contradiction
    | ok pending =>
      obtain ⟨count, fit, rfl⟩ := PendingCheckpoint.build_ok_iff.mp built
      simp only [Except.ok.injEq, eq_comm (b := bytes)]
      exact ⟨fun same => ⟨count, fit, same⟩, fun held => held.2.2⟩

namespace Handle

open MemoryStore

variable {handle seen copy : Handle}

def Titled (handle : Handle) : Prop := isPageSize handle.pageSize = true

theorem Shows.header (shown : handle.Shows seen) : seen.header = handle.header := by
  induction shown with
  | itself => rfl
  | @view before view checkpoint shown viewed ih =>
    rw [← ih]
    unfold viewAt at viewed
    split at viewed
    · contradiction
    · rw [← Except.ok.inj viewed]

theorem nodup_liveChanges (seen : Handle) : (seen.liveChanges.map Change.key).Nodup := by
  have keys : seen.liveChanges.map Change.key = seen.documents.map Prod.fst := by
    rw [liveChanges, List.map_map]
    rfl
  rw [keys]
  exact ascending_documents.nodup_keys

theorem mem_liveChanges_iff {key value : Bytes} :
    (⟨key, some value⟩ : Change) ∈ seen.liveChanges ↔ (key, value) ∈ seen.documents := by
  simp [liveChanges]

theorem liveChanges_eq_nil_iff : seen.liveChanges = [] ↔ seen.documents = [] := List.map_eq_nil_iff

theorem Grounded.titled (grounded : handle.Grounded) : handle.Titled := grounded.pageSize_bounds.1

def blank (seen : Handle) : Handle := new { pageSize := seen.pageSize }

theorem Titled.grounded_blank (titled : seen.Titled) : seen.blank.Grounded := grounded_new (if_pos titled)

theorem compacted_ok_iff {bytes : Bytes} :
    seen.compacted = .ok bytes ↔
      (seen.documents = [] ∧ Image.ofBytes bytes = seen.blank.image) ∨
        seen.documents ≠ [] ∧ seen.liveChanges.length < PendingCheckpoint.countLimit ∧
          (∀ change ∈ seen.liveChanges, change.Fits) ∧
          Image.ofBytes bytes = (seen.blank.advanced seen.liveChanges).image := by
  have blank : seen.blank.image.bytes = (Header.ofPageSize seen.pageSize).encode := Image.bytes_ofBytes _
  have laid : seen.blank.laidOut seen.liveChanges
      = PendingCheckpoint.laidOut seen.pageSize seen.pageSize none seen.liveChanges := by
    show PendingCheckpoint.laidOut seen.blank.image.size _ _ _ = _
    rw [show seen.blank.image.size = seen.pageSize from size_newImage _]
    rfl
  have whole : (seen.blank.advanced seen.liveChanges).image.bytes
      = seen.blank.image.bytes ++ (seen.blank.laidOut seen.liveChanges).bytes := by
    show (seen.blank.image ++ Image.ofBytes (seen.blank.laidOut seen.liveChanges).bytes).bytes = _
    rw [Image.bytes_append, Image.bytes_ofBytes]
  rw [compacted, buildCompacted_ok_iff, Image.ofBytes_eq_iff, Image.ofBytes_eq_iff, whole, blank, laid, ne_eq,
    liveChanges_eq_nil_iff]

theorem Titled.addressable (titled : seen.Titled) (count : seen.liveChanges.length < PendingCheckpoint.countLimit)
    (fit : ∀ change ∈ seen.liveChanges, change.Fits) : (seen.blank.advanced seen.liveChanges).image.size < 256 ^ 8 := by
  have page := pageSize_pos titled
  have blocks := Change.length_flatMap_encode fit
  have most : seen.liveChanges.length * 4294967295 ≤ 4294967295 * 4294967295 :=
    Nat.mul_le_mul_right _ (Nat.le_of_lt_succ count)
  have image : seen.blank.image.size = seen.pageSize := size_newImage _
  rw [titled.grounded_blank.size_advanced]
  have above := roundUp_lt (seen.blank.image.size + (seen.liveChanges.flatMap Change.encode).length + 40)
    (show 0 < seen.pageSize by omega)
  show roundUp (seen.blank.image.size + (seen.liveChanges.flatMap Change.encode).length + 40) seen.pageSize < 256 ^ 8
  omega

theorem documents_advanced_blank (titled : seen.Titled) (count : seen.liveChanges.length < PendingCheckpoint.countLimit)
    (fit : ∀ change ∈ seen.liveChanges, change.Fits) :
    (seen.blank.advanced seen.liveChanges).documents = seen.documents := by
  have grounded := titled.grounded_blank
  have addressable := titled.addressable count fit
  have sound : (seen.blank.advanced seen.liveChanges).Sound := Sound.of_staged_empty rfl
  refine ascending_documents.eq_of_mem_iff ascending_documents fun key value => ?_
  rw [mem_documents_iff sound, get?_of_staged_empty rfl]
  constructor
  · intro found
    by_cases live : ∃ held, (key, held) ∈ seen.documents
    · obtain ⟨held, mem⟩ := live
      have written := grounded.committed?_advanced_of_mem count fit addressable seen.nodup_liveChanges
        (mem_liveChanges_iff.mpr mem)
      obtain rfl := Option.some.inj (written.symm.trans found)
      exact mem
    · have absent : ∀ change, (⟨key, change⟩ : Change) ∉ seen.liveChanges := by
        intro change mem
        obtain ⟨⟨other, held⟩, here, same⟩ := List.mem_map.mp mem
        obtain rfl := congrArg Change.key same
        exact live ⟨held, here⟩
      rw [grounded.committed?_advanced_of_absent absent] at found
      contradiction
  · intro mem
    exact grounded.committed?_advanced_of_mem count fit addressable seen.nodup_liveChanges (mem_liveChanges_iff.mpr mem)

/-- The copy has the documents of the handle that it was made of, in one checkpoint of its own. -/
structure CopyOf (copy seen : Handle) : Prop where
  clean : copy.recovery = .clean
  pageSize : copy.pageSize = seen.pageSize
  documents : copy.documents = seen.documents
  empty : seen.documents = [] → copy.checkpoint = 0 ∧ copy.history = []
  single : seen.documents ≠ [] → copy.checkpoint ≠ 0 ∧ copy.history = [copy.checkpoint]
  first : copy.previousCheckpoint = 0
  again : copy.compacted = seen.compacted

theorem compacted_congr (pageSize : copy.pageSize = seen.pageSize) (documents : copy.documents = seen.documents) :
    copy.compacted = seen.compacted := by
  unfold compacted liveChanges
  rw [pageSize, documents]

/-- The compacted bytes are the image of a handle of their own, and every opening of it is a copy. -/
theorem Titled.copied (titled : seen.Titled) {bytes : Bytes} (made : seen.compacted = .ok bytes) :
    ∃ copy : Handle, copy.Grounded ∧ copy.image = .ofBytes bytes ∧
      ∀ mode settings location, (copy.reopened mode settings location).CopyOf seen := by
  rcases compacted_ok_iff.mp made with ⟨empty, image⟩ | ⟨some, count, fit, image⟩
  · have bare : seen.blank.documents = seen.documents := (documents_new _).trans empty.symm
    refine ⟨seen.blank, titled.grounded_blank, image.symm, fun mode settings location => ?_⟩
    refine ⟨?_, rfl, bare, fun _ => ⟨rfl, rfl⟩, fun some => absurd empty some, rfl, compacted_congr rfl bare⟩
    show Recovery.past (newImage { pageSize := seen.pageSize }).size seen.pageSize = .clean
    rw [Recovery.past_eq_clean_iff, size_newImage]
  · have addressable := titled.addressable count fit
    have size := titled.grounded_blank.size_advanced seen.liveChanges
    have advanced := grounded_advanced titled.grounded_blank count fit addressable
    have documents := documents_advanced_blank titled count fit
    have linked := (titled.grounded_blank.linked seen.liveChanges).1
    have filled := advanced.pageSize_bounds
    refine ⟨_, advanced, image.symm, fun mode settings location => ?_⟩
    refine ⟨?_, rfl, documents, fun empty => absurd empty some, fun _ => ⟨?_, rfl⟩, linked, compacted_congr rfl documents⟩
    · exact if_pos size.symm
    · show (seen.blank.laidOut seen.liveChanges).trailer.checkpointSize ≠ 0
      omega

theorem Titled.opens_compacted (titled : seen.Titled) {bytes : Bytes} (made : seen.compacted = .ok bytes) :
    Opens (.ofBytes bytes) fun copy _ => copy.CopyOf seen := by
  obtain ⟨copy, grounded, image, copies⟩ := titled.copied made
  rw [← image]
  exact opens_of_grounded grounded fun mode settings location after same faultless => copies mode settings location

end Handle

namespace Session

open Handle MemoryStore

variable {session after start : Session} {answer : Answer} {seen : Handle}

theorem header_of_moved (moved : Moved session answer after) : after.handle.header = session.handle.header := by
  cases moved with
  | restaged staged sound old => rfl
  | committed outcome =>
    cases outcome with
    | appended attempted image =>
      unfold advance
      dsimp only
      split <;> rfl
    | _ => rfl

theorem header_run (sound : session.handle.Sound) (operations : List Operation) :
    (session.run operations).handle.header = session.handle.header := by
  induction operations generalizing session with
  | nil => rfl
  | cons operation rest ih =>
    have moved := step_moved sound operation
    exact (ih (sound_of_moved sound moved)).trans (header_of_moved moved)

theorem Reached.titled (reached : session.Reached) (shown : session.handle.Shows seen) : seen.Titled := by
  obtain ⟨start, operations, opened, rfl⟩ := reached
  have header := shown.header.trans (header_run opened.valid.sound operations)
  have titled := opened.valid.grounded.titled
  unfold Titled pageSize at titled ⊢
  rw [header]
  exact titled

/-- A handle or a view, whatever is staged in it, has a compacted copy unless its documents are too
many or one is too large. The copy opens clean in every mode, with the same documents in one checkpoint
or none, and is compacted to the same bytes. -/
theorem compacted_copy (reached : session.Reached) (shown : session.handle.Shows seen) :
    ((∃ bytes, seen.compacted = .ok bytes) ↔
        seen.documents.length < PendingCheckpoint.countLimit ∧
          ∀ key value, (key, value) ∈ seen.documents → Change.Fits ⟨key, some value⟩) ∧
      ∀ bytes, seen.compacted = .ok bytes → Opens (.ofBytes bytes) fun copy _ => copy.CopyOf seen := by
  have titled := reached.titled shown
  refine ⟨?_, fun bytes made => titled.opens_compacted made⟩
  have count : seen.liveChanges.length = seen.documents.length := List.length_map _
  constructor
  · rintro ⟨bytes, made⟩
    rcases compacted_ok_iff.mp made with ⟨empty, -⟩ | ⟨-, few, fit, -⟩
    · rw [empty]
      exact ⟨by decide, fun _ _ mem => absurd mem List.not_mem_nil⟩
    · exact ⟨count ▸ few, fun key value mem => fit _ (mem_liveChanges_iff.mpr mem)⟩
  · rintro ⟨few, fit⟩
    by_cases empty : seen.documents = []
    · exact ⟨_, compacted_ok_iff.mpr (.inl ⟨empty, Image.ofBytes_bytes _⟩)⟩
    · refine ⟨_, compacted_ok_iff.mpr (.inr ⟨empty, count ▸ few, fun change mem => ?_, Image.ofBytes_bytes _⟩)⟩
      obtain ⟨⟨key, value⟩, here, rfl⟩ := List.mem_map.mp mem
      exact fit key value here

theorem documents_put (settings : Settings) (key value : Bytes) :
    ((new settings).restaged (KeyMap.empty.insert key (.value value))).documents = [(key, value)] := by
  have plain : (new settings).Sound := Sound.of_staged_empty rfl
  have put : (new settings).put key value .upsert
      = .ok (true, (new settings).restaged (KeyMap.empty.insert key (.value value))) := rfl
  obtain ⟨-, sound, -, found⟩ := put_spec plain put
  refine ascending_documents.eq_of_mem_iff (List.pairwise_singleton _ _) fun other held => ?_
  rw [mem_documents_iff sound, found, List.mem_singleton, Prod.mk.injEq]
  by_cases same : other = key
  · simp [same, eq_comm]
  · have absent : (new settings).get? other = none := rfl
    simp [same, absent]

/-- A value is staged in a new database: its copy holds the value, and that of the view of checkpoint
zero is a header alone. -/
theorem compacted_copy_of_staged_value :
    ∃ session view bytes header,
      session = (create { pageSize := 512 } {}).run [.put [0x61] [0x31] .upsert] ∧
      (session.handle.viewAt 0).result = .ok view ∧
      session.handle.compacted = .ok bytes ∧ view.compacted = .ok header ∧
      Opens (.ofBytes bytes) (fun copy _ => copy.documents = [([0x61], [0x31])] ∧ copy.history = [copy.checkpoint]) ∧
      Opens (.ofBytes header) (fun copy _ => copy.documents = [] ∧ copy.history = []) := by
  have valid : Settings.validate { pageSize := 512 } = .ok () := rfl
  have reached := reached_create valid [.put [0x61] [0x31] .upsert]
  have held := run_put { pageSize := 512 } [0x61] [0x31]
  have live := documents_put { pageSize := 512 } [0x61] [0x31]
  rw [← held] at live
  generalize (create { pageSize := 512 } {}).run [.put [0x61] [0x31] .upsert] = session at *
  obtain ⟨view, viewed, charted, -, -, zero, bare⟩ := session.handle.viewAt_zero
  have none : view.documents = [] := (charted.sameReadings_new zero bare {}).documents.trans (documents_new {})
  obtain ⟨made, copied⟩ := compacted_copy reached .itself
  obtain ⟨madeView, copiedView⟩ := compacted_copy reached (.view .itself viewed)
  obtain ⟨bytes, built⟩ := made.mpr (by
    rw [live]
    refine ⟨by decide, fun key value mem => ?_⟩
    obtain ⟨rfl, rfl⟩ := Prod.mk.inj (List.mem_singleton.mp mem)
    decide)
  obtain ⟨header, empty⟩ := madeView.mpr (by
    rw [none]
    exact ⟨by decide, fun _ _ mem => absurd mem List.not_mem_nil⟩)
  refine ⟨session, view, bytes, header, rfl, viewed, built, empty, ?_, ?_⟩
  · exact (copied bytes built).mono fun copy _ same =>
      ⟨same.documents.trans live, (same.single (by rw [live]; exact List.cons_ne_nil _ _)).2⟩
  · exact (copiedView header empty).mono fun copy _ same => ⟨same.documents.trans none, (same.empty none).2⟩

end Session
end CheckpointStore
