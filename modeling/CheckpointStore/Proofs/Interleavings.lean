import CheckpointStore.Proofs.Writes

/-!
# Interleavings

What is done under one key is answered, and staged, as the slot of that key says, whatever is done under
other keys in between. So two orders of the same operations under each key come to the same answers and the
same handle, and a commit then writes the same bytes.
-/

namespace CheckpointStore

/-- What is tagged with a key, in the order in which it stands. -/
def under {α : Type} (key : Bytes) (tagged : List (Bytes × α)) : List α :=
  tagged.filterMap fun (other, item) => if other = key then some item else none

theorem under_cons {α : Type} (key other : Bytes) (item : α) (tagged : List (Bytes × α)) :
    under key ((other, item) :: tagged) = if other = key then item :: under key tagged else under key tagged := by
  unfold under
  rw [List.filterMap_cons]
  dsimp only
  split <;> simp_all

/-- Operations on keys, as operations of a session. -/
def operationsOn (steps : List (Bytes × KeyOperation)) : List Operation :=
  steps.map fun (key, operation) => operation.on key

namespace Slot

def replies (slot : Slot) : List KeyOperation → List Reply
  | [] => []
  | operation :: rest => (slot.act operation).1 :: (slot.act operation).2.replies rest

def after (slot : Slot) : List KeyOperation → Slot
  | [] => slot
  | operation :: rest => (slot.act operation).2.after rest

end Slot

namespace Session

open Handle MemoryStore

variable {session : Session}

/-- The replies to operations on keys, one after the other, each with its key. -/
def keyedReplies (session : Session) (steps : List (Bytes × KeyOperation)) : List (Bytes × Reply) :=
  (steps.map Prod.fst).zip (session.replies (operationsOn steps))

theorem access_step_on (writable : session.handle.access = .write) (key : Bytes) (operation : KeyOperation) :
    (session.step (operation.on key)).2.handle.access = .write := by
  rw [(step_on writable key operation).2]
  exact writable

theorem under_keyedReplies (writable : session.handle.access = .write) (steps : List (Bytes × KeyOperation)) (key : Bytes) :
    under key (session.keyedReplies steps) = (session.handle.slot key).replies (under key steps) := by
  induction steps generalizing session with
  | nil => rfl
  | cons first rest ih =>
    obtain ⟨other, operation⟩ := first
    have later := ih (access_step_on writable other operation)
    rw [slot_step_on writable] at later
    have cons : session.keyedReplies ((other, operation) :: rest)
        = (other, session.reply (operation.on other)) :: (session.step (operation.on other)).2.keyedReplies rest := rfl
    rw [cons, under_cons, under_cons, later, (step_on writable other operation).1]
    by_cases here : other = key
    · simp only [here, if_true]
      rfl
    · rw [if_neg here, if_neg here, if_neg (Ne.symm here)]

theorem slot_run (session : Session) (writable : session.handle.access = .write) (steps : List (Bytes × KeyOperation))
    (key : Bytes) :
    (session.run (operationsOn steps)).handle.slot key = (session.handle.slot key).after (under key steps) := by
  induction steps generalizing session with
  | nil => rfl
  | cons first rest ih =>
    obtain ⟨other, operation⟩ := first
    have later := ih _ (access_step_on writable other operation)
    rw [slot_step_on writable] at later
    rw [under_cons]
    refine Eq.trans later ?_
    by_cases here : other = key
    · simp only [here, if_true]
      rfl
    · rw [if_neg here, if_neg (Ne.symm here)]

/-- Operations on keys change what is staged, and nothing else. -/
theorem run_operationsOn (session : Session) (writable : session.handle.access = .write)
    (steps : List (Bytes × KeyOperation)) :
    ∃ staged, session.run (operationsOn steps) = ⟨session.handle.restaged staged, session.store⟩ := by
  induction steps generalizing session with
  | nil => exact ⟨session.handle.staged, rfl⟩
  | cons first rest ih =>
    obtain ⟨key, operation⟩ := first
    obtain ⟨staged, later⟩ := ih _ (access_step_on writable key operation)
    refine ⟨staged, later.trans ?_⟩
    rw [(step_on writable key operation).2]
    rfl

/-- If no call fails, a commit comes to the same on stores with the same bytes. -/
theorem commit_agrees {handle : Handle} {a b : MemoryStore} (images : a.image = b.image)
    (spared : (⟨handle, a⟩ : Session).Spared) (alike : (⟨handle, b⟩ : Session).Spared) :
    ∃ answer after left right, (⟨handle, a⟩ : Session).step .commit = (answer, ⟨after, left⟩) ∧
      (⟨handle, b⟩ : Session).step .commit = (answer, ⟨after, right⟩) ∧ left.image = right.image := by
  obtain ⟨error, refused⟩ | ⟨writable, healthy, nothing⟩ | ⟨pending, attempted⟩ := handle.refused_or_unchanged_or_attempted
  · exact ⟨_, _, _, _, step_commit_of_refused refused a, step_commit_of_refused refused b, images⟩
  · exact ⟨_, _, _, _, step_commit_of_unchanged writable healthy nothing a,
      step_commit_of_unchanged writable healthy nothing b, images⟩
  · obtain ⟨first, written, -⟩ := commit_of_appended attempted (spared pending attempted)
    obtain ⟨second, wrote, -⟩ := commit_of_appended attempted (alike pending attempted)
    refine ⟨.ofCommit (handle.advance pending).result, (handle.advance pending).handle, _, _, ?_, ?_,
      written.trans ((congrArg (· ++ _) images).trans wrote.symm)⟩
    · unfold step
      dsimp only
      rw [first]
    · unfold step
      dsimp only
      rw [second]

/-- Two orders of the same operations under each key are answered alike under each key and stage the same,
and if no call fails, a commit then gives the same identifier and the same bytes. -/
theorem staging_apart_commutes {handle : Handle} {a b : MemoryStore} {first second : List (Bytes × KeyOperation)}
    (writable : handle.access = .write) (images : a.image = b.image)
    (alike : ∀ key, under key first = under key second)
    (spared : ((⟨handle, a⟩ : Session).run (operationsOn first)).Spared)
    (spares : ((⟨handle, b⟩ : Session).run (operationsOn second)).Spared) :
    (∀ key, under key ((⟨handle, a⟩ : Session).keyedReplies first)
        = under key ((⟨handle, b⟩ : Session).keyedReplies second)) ∧
      ((⟨handle, a⟩ : Session).run (operationsOn first)).handle
        = ((⟨handle, b⟩ : Session).run (operationsOn second)).handle ∧
      ∃ answer after left right,
        ((⟨handle, a⟩ : Session).run (operationsOn first)).step .commit = (answer, ⟨after, left⟩) ∧
          ((⟨handle, b⟩ : Session).run (operationsOn second)).step .commit = (answer, ⟨after, right⟩) ∧
          left.image = right.image := by
  have staged (key : Bytes) := (slot_run ⟨handle, a⟩ writable first key).trans
    ((congrArg (handle.slot key).after (alike key)).trans (slot_run ⟨handle, b⟩ writable second key).symm)
  obtain ⟨one, ran⟩ := run_operationsOn ⟨handle, a⟩ writable first
  obtain ⟨other, runs⟩ := run_operationsOn ⟨handle, b⟩ writable second
  rw [ran] at staged spared ⊢
  rw [runs] at staged spares ⊢
  -- the stagings agree under each key, so they are one
  obtain rfl : one = other := KeyMap.ext fun key => congrArg Slot.staged (staged key)
  refine ⟨fun key => ?_, rfl, commit_agrees images spared spares⟩
  rw [under_keyedReplies writable, under_keyedReplies writable, alike]

/-- A document is put and edited, before or after another key is put and removed again. -/
theorem two_keys_in_two_orders :
    ∃ start : Session, ∃ first second : List (Bytes × KeyOperation), start = create { pageSize := 512 } {} ∧
      first = [([0x61], .putDocument (.object []) .upsert), ([0x62], .put [0x32] .insert),
        ([0x61], .edit [.set "x" (.integer 1)]), ([0x62], .remove)] ∧
      second = [([0x62], .put [0x32] .insert), ([0x62], .remove), ([0x61], .putDocument (.object []) .upsert),
        ([0x61], .edit [.set "x" (.integer 1)])] ∧
      (∀ key, under key first = under key second) ∧
      (∀ key, under key (start.keyedReplies first) = under key (start.keyedReplies second)) ∧
      (start.run (operationsOn first)).handle = (start.run (operationsOn second)).handle ∧
      ∃ answer after left right, (start.run (operationsOn first)).step .commit = (answer, ⟨after, left⟩) ∧
        (start.run (operationsOn second)).step .commit = (answer, ⟨after, right⟩) ∧ left.image = right.image := by
  have valid : Settings.validate { pageSize := 512 } = .ok () := rfl
  have faultless : (create { pageSize := 512 } {}).store.Faultless := plan_create valid rfl rfl rfl
  obtain ⟨store, started⟩ : ∃ store, create { pageSize := 512 } {} = ⟨new { pageSize := 512 }, store⟩ := ⟨_, rfl⟩
  rw [started] at faultless
  have spared (steps : List (Bytes × KeyOperation)) :
      ((⟨new { pageSize := 512 }, store⟩ : Session).run (operationsOn steps)).Spared := by
    obtain ⟨staged, ran⟩ := run_operationsOn ⟨new { pageSize := 512 }, store⟩ rfl steps
    rw [ran]
    exact spared_of_faultless faultless
  refine ⟨_, _, _, started.symm, rfl, rfl, ?alike,
    staging_apart_commutes rfl rfl ?alike (spared _) (spared _)⟩
  intro key
  simp only [under_cons]
  by_cases one : [0x61] = key
  · subst one
    rfl
  · simp only [one, if_false]

end Session
end CheckpointStore
