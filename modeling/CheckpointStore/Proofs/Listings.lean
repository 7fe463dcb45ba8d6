import CheckpointStore.Proofs.Identifiers

/-!
# Listings

A handle finds keys one by one, says which it has, counts them, and lists what it finds from any key on.
Each of these treats a staged change in a way of its own, and in every session that can be come by, live
or a view, they all say the same.
-/

namespace CheckpointStore
namespace Handle

variable {handle : Handle}

/-- The listing goes upward and is of the keys that are found, with what is found under them. The other
ways of reading agree with it. -/
structure Listed (handle : Handle) : Prop where
  ascending : Ascending handle.documents
  found : ∀ key value, (key, value) ∈ handle.documents ↔ handle.get? key = some value
  present : ∀ key, key ∈ handle.documents.map Prod.fst ↔ handle.contains key = true
  counted : handle.size = handle.documents.length
  empty : handle.isEmpty = true ↔ handle.documents = []
  resumed : ∀ start, handle.documentsFrom start = handle.documents.filter (start ≤ ·.1)

/-- What is listed from a key on is the part of the whole listing that is not before the key. -/
theorem Sound.documentsFrom_eq_filter (sound : handle.Sound) (start : Bytes) :
    handle.documentsFrom start = handle.documents.filter (start ≤ ·.1) := by
  refine (ascending_documentsFrom start).eq_of_mem_iff (ascending_documents.filter _) fun key value => ?_
  rw [mem_documentsFrom_iff sound, List.mem_filter, mem_documents_iff sound, decide_eq_true_iff, List.not_lt, and_comm]

theorem Sound.listed (sound : handle.Sound) : handle.Listed := by
  refine ⟨ascending_documents, fun key value => mem_documents_iff sound, fun key => ?_, size_eq_length_documents sound, ?_,
    sound.documentsFrom_eq_filter⟩
  · rw [contains_eq sound, Option.isSome_iff_exists, List.mem_map]
    constructor
    · rintro ⟨⟨other, value⟩, mem, rfl⟩
      exact ⟨value, (mem_documents_iff sound).mp mem⟩
    · rintro ⟨value, found⟩
      exact ⟨(key, value), (mem_documents_iff sound).mpr found, rfl⟩
  · rw [isEmpty, beq_iff_eq, size_eq_length_documents sound, List.length_eq_zero_iff]

end Handle

namespace Session

open Handle MemoryStore

/-- All ways of reading the handle of a session agree, whatever is staged in it. -/
theorem readings_agree {session : Session} (reachable : session.Reachable) : session.handle.Listed :=
  reachable.sound.listed

/-- Of two documents one was committed and is hidden, and one is staged. -/
theorem readings_agree_beside_tombstone :
    ∃ session, session = (create { pageSize := 512 } {}).run
        [.put [0x61] [0x31] .upsert, .commit, .put [0x62] [0x32] .upsert, .remove [0x61]] ∧
      session.handle.staged.get? [0x61] = some .removed ∧ session.handle.documents = [([0x62], [0x32])] ∧
      session.handle.contains [0x61] = false ∧ session.handle.size = 1 ∧ session.handle.documentsFrom [0x63] = [] := by
  have valid : Settings.validate { pageSize := 512 } = .ok () := rfl
  have fits : Change.Fits ⟨[0x61], some [0x31]⟩ := by decide
  have room : roundUp (512 + (17 + [(0x61 : UInt8)].length + [(0x31 : UInt8)].length) + 40) 512 = 1024 := by decide
  have before := run_put_commit_put valid fits (room ▸ by decide) [0x62] [0x32]
  have reachable : ((create { pageSize := 512 } {}).run
      [.put [0x61] [0x31] .upsert, .commit, .put [0x62] [0x32] .upsert]).Reachable :=
    (Reachable.opened (opened_create valid rfl rfl rfl)).run _
  refine ⟨_, rfl, ?_⟩
  rw [show [Operation.put [0x61] [0x31] .upsert, .commit, .put [0x62] [0x32] .upsert, .remove [0x61]]
    = [.put [0x61] [0x31] .upsert, .commit, .put [0x62] [0x32] .upsert] ++ [.remove [0x61]] from rfl, run_append]
  generalize (create { pageSize := 512 } {}).run _ = session at *
  obtain ⟨handle, store⟩ := session
  replace before : handle = ((new { pageSize := 512 }).advanced [⟨[0x61], some [0x31]⟩]).restaged
    (KeyMap.empty.insert [0x62] (.value [0x32])) := before
  have committed (key : Bytes) : handle.committed? key = if key = [0x61] then some [0x31] else none := by
    rw [before]
    exact committed?_advanced_new valid fits (room ▸ by decide) key
  have staged (key : Bytes) : handle.staged.get? key = if key = [0x62] then some (.value [0x32]) else none := by
    rw [before]
    exact KeyMap.get?_insert _ _ _ _
  have stepped := step_remove (before ▸ rfl) (index_contains_iff.mpr ⟨_, committed [0x61]⟩) (staged [0x61]) store
  have listed : ((⟨handle, store⟩ : Session).run [.remove [0x61]]).handle.Listed :=
    readings_agree (reachable.run [.remove [0x61]])
  rw [run, stepped, run] at listed ⊢
  have hidden : (handle.restaged (handle.staged.insert [0x61] .removed)).staged.get? [0x61] = some .removed :=
    (get?_restaged_insert _ _ _).trans (if_pos rfl)
  have found (key : Bytes) : (handle.restaged (handle.staged.insert [0x61] .removed)).get? key
      = if key = [0x62] then some [0x32] else none := by
    by_cases first : key = [0x61]
    · rw [first]
      exact get?_of_written hidden rfl
    refine (get?_restaged_of_same ((KeyMap.get?_insert _ _ _ _).trans (if_neg first))).trans ?_
    by_cases second : key = [0x62]
    · rw [if_pos second]
      exact get?_of_written ((staged key).trans (if_pos second)) rfl
    · rw [if_neg second, get?_of_unwritten (by simp [staged key, second]), committed, if_neg first]
  generalize handle.restaged _ = handle at listed found hidden
  have documents : handle.documents = [([0x62], [0x32])] := by
    refine listed.ascending.eq_of_mem_iff (List.pairwise_singleton _ _) fun key value => ?_
    rw [listed.found, found]
    by_cases second : key = [0x62] <;> simp [second, eq_comm]
  refine ⟨hidden, documents, ?_, ?_, ?_⟩
  · rw [Bool.eq_false_iff, ne_eq, ← listed.present, documents]
    decide
  · rw [listed.counted, documents]
    rfl
  · rw [listed.resumed, documents]
    decide

end Session
end CheckpointStore
