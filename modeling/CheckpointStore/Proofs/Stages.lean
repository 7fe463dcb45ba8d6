import CheckpointStore.Handle.Stage
import CheckpointStore.Proofs.Reads

/-!
# Staged operations

Putting, removing and editing leave everything of a handle as it was but what is staged, keep the
handle sound, and change what is looked up under their own key alone.
-/

namespace CheckpointStore

inductive Edit where
  | set (field : String) (value : Value)
  | remove (field : String)
  | modify (field : String) (edit : Value → Value)

def Edit.apply (document : EditableDocument) : Edit → EditableDocument
  | .set field value => document.set field value
  | .remove field => document.remove field
  | .modify field edit => document.modify field edit

theorem Edit.changed_apply {document : EditableDocument} (edit : Edit) (changed : document.changed = true) :
    (edit.apply document).changed = true := by
  cases edit with
  | set field value => rfl
  | remove field =>
    show (document.remove field).changed = true
    unfold EditableDocument.remove
    split
    · rfl
    · exact changed
  | modify field edit =>
    show (document.modify field edit).changed = true
    unfold EditableDocument.modify
    split
    · rfl
    · exact changed

theorem Edit.changed_foldl {document : EditableDocument} (edits : List Edit) (changed : document.changed = true) :
    (edits.foldl Edit.apply document).changed = true := by
  induction edits generalizing document with
  | nil => exact changed
  | cons edit rest ih => exact ih (edit.changed_apply changed)

namespace EditableDocument

variable {document : EditableDocument}

theorem apply_of_unchanged (edit : Edit) (unchanged : (edit.apply document).changed = false) :
    edit.apply document = document := by
  cases edit with
  | set field value => contradiction
  | remove field =>
    show document.remove field = document
    replace unchanged : (document.remove field).changed = false := unchanged
    unfold remove at unchanged ⊢
    split
    · simp_all
    · rfl
  | modify field edit =>
    show document.modify field edit = document
    replace unchanged : (document.modify field edit).changed = false := unchanged
    unfold modify at unchanged ⊢
    split
    · simp_all
    · rfl

theorem foldl_of_unchanged {edits : List Edit} (unchanged : (edits.foldl Edit.apply document).changed = false) :
    edits.foldl Edit.apply document = document := by
  induction edits generalizing document with
  | nil => rfl
  | cons edit edits ih =>
    have later := ih unchanged
    rw [List.foldl_cons] at unchanged ⊢
    rw [later] at unchanged ⊢
    exact apply_of_unchanged edit unchanged

theorem ofBytes_ok_iff {bytes : Bytes} :
    ofBytes bytes = .ok document ↔ Value.decode bytes = .ok document.value ∧ document.changed = false := by
  obtain ⟨fields, changed⟩ := document
  unfold ofBytes
  cases decoded : Value.decode bytes with
  | error error => simp
  | ok value => cases value <;> simp [ofValue, value, eq_comm]

end EditableDocument

namespace Handle

def restaged (handle : Handle) (staged : Staging) : Handle := { handle with staged }

variable {handle : Handle}

theorem get?_restaged_insert (key other : Bytes) (pending : Pending) :
    (handle.restaged (handle.staged.insert key pending)).staged.get? other
      = if other = key then some pending else handle.staged.get? other :=
  KeyMap.get?_insert _ _ _ _

theorem get?_restaged_of_same {staged : Staging} {key : Bytes} (same : staged.get? key = handle.staged.get? key) :
    (handle.restaged staged).get? key = handle.get? key := by
  have found : (handle.restaged staged).staged.get? key = handle.staged.get? key := same
  unfold get?
  rw [found]
  rfl

/-- Staging a change keeps the handle sound when the change gives a document, or its key is
committed. -/
theorem Sound.insert (sound : handle.Sound) {key : Bytes} {pending : Pending}
    (backed : pending.written?.join = none → handle.index.contains key = true) :
    (handle.restaged (handle.staged.insert key pending)).Sound := by
  intro other staged found bare
  rw [get?_restaged_insert] at found
  split at found
  · rename_i same
    obtain rfl := Option.some.inj found
    rw [same]
    exact backed bare
  · exact sound other staged found bare

theorem Sound.erase (sound : handle.Sound) (key : Bytes) : (handle.restaged (handle.staged.erase key)).Sound := by
  intro other staged found bare
  have here : (handle.staged.erase key).get? other = some staged := found
  rw [KeyMap.get?_erase] at here
  split at here
  · contradiction
  · exact sound other staged here bare

/-- A put stages its value where its mode allows it. -/
theorem put_spec (sound : handle.Sound) {key value : Bytes} {mode : PutMode} {applied : Bool} {after : Handle}
    (put : handle.put key value mode = .ok (applied, after)) :
    (∃ staged, after = handle.restaged staged) ∧ after.Sound ∧ applied = mode.allows (handle.contains key) ∧
      ∀ other, after.get? other = if applied = true ∧ other = key then some value else handle.get? other := by
  unfold Handle.put at put
  split at put
  · contradiction
  split at put
  · rename_i allowed
    obtain ⟨rfl, rfl⟩ := Prod.mk.inj (Except.ok.inj put)
    refine ⟨⟨_, rfl⟩, sound.insert nofun, allowed.symm, ?_⟩
    intro other
    by_cases same : other = key
    · rw [if_pos ⟨rfl, same⟩]
      exact get?_of_written ((get?_restaged_insert key other _).trans (if_pos same)) rfl
    · rw [if_neg fun both => same both.2]
      exact get?_restaged_of_same ((KeyMap.get?_insert _ _ _ _).trans (if_neg same))
  · rename_i refused
    obtain ⟨rfl, rfl⟩ := Prod.mk.inj (Except.ok.inj put)
    rw [Bool.not_eq_true] at refused
    refine ⟨⟨_, rfl⟩, sound, refused.symm, ?_⟩
    intro other
    rw [if_neg fun both => nomatch both.1]

/-- A removal hides its key, or forgets what was staged for it. -/
theorem remove_spec (sound : handle.Sound) {key : Bytes} {found : Bool} {after : Handle}
    (removed : handle.remove key = .ok (found, after)) :
    (∃ staged, after = handle.restaged staged) ∧ after.Sound ∧ found = handle.contains key ∧
      ∀ other, after.get? other = if other = key then none else handle.get? other := by
  unfold Handle.remove at removed
  split at removed
  · contradiction
  split at removed
  · rename_i absent
    obtain ⟨rfl, rfl⟩ := Prod.mk.inj (Except.ok.inj removed)
    refine ⟨⟨_, rfl⟩, sound, absent.symm, ?_⟩
    intro other
    split
    · rename_i same
      rw [contains_eq sound] at absent
      rw [same]
      exact Option.isNone_iff_eq_none.mp (Option.isSome_eq_false_iff.mp absent)
    · rfl
  · rename_i present
    rw [Bool.not_eq_false] at present
    split at removed
    · rename_i committed
      obtain ⟨rfl, rfl⟩ := Prod.mk.inj (Except.ok.inj removed)
      refine ⟨⟨_, rfl⟩, sound.insert fun _ => committed, present.symm, ?_⟩
      intro other
      by_cases same : other = key
      · rw [if_pos same]
        exact get?_of_written ((get?_restaged_insert key other _).trans (if_pos same)) rfl
      · rw [if_neg same]
        exact get?_restaged_of_same ((KeyMap.get?_insert _ _ _ _).trans (if_neg same))
    · rename_i fresh
      obtain ⟨rfl, rfl⟩ := Prod.mk.inj (Except.ok.inj removed)
      refine ⟨⟨_, rfl⟩, sound.erase key, present.symm, ?_⟩
      intro other
      have staged := KeyMap.get?_erase handle.staged key other
      by_cases same : other = key
      · subst same
        rw [if_pos rfl] at staged ⊢
        -- nothing is staged for the key any more, and it was never committed
        have bare : (handle.restaged (handle.staged.erase other)).get? other = handle.committed? other :=
          get?_of_unwritten fun pending found => absurd (staged.symm.trans found) nofun
        refine bare.trans (Option.eq_none_iff_forall_ne_some.mpr ?_)
        intro value here
        exact fresh (index_contains_iff.mpr ⟨value, here⟩)
      · rw [if_neg same] at staged ⊢
        exact get?_restaged_of_same staged

theorem unchanged_of_written? {document : EditableDocument} (bare : (Pending.editable document).written?.join = none) :
    document.changed = false := by
  cases changed : document.changed with
  | false => rfl
  | true => simp [Pending.written?, changed] at bare

theorem Sound.putBack (sound : handle.Sound) {key : Bytes} {document : EditableDocument} (edits : List Edit)
    (backed : document.changed = false → handle.index.contains key = true) :
    (handle.putBack key (edits.foldl Edit.apply document)).Sound := by
  refine sound.insert fun bare => backed ?_
  have unchanged := unchanged_of_written? bare
  rw [Bool.eq_false_iff] at unchanged ⊢
  exact mt (Edit.changed_foldl edits) unchanged

theorem editableOf_ok_iff {bytes : Bytes} {document : EditableDocument} :
    editableOf bytes = .ok document ↔ Value.decode bytes = .ok document.value ∧ document.changed = false := by
  rw [← EditableDocument.ofBytes_ok_iff]
  unfold editableOf
  cases EditableDocument.ofBytes bytes <;> simp

/-- Taking a document under edit changes what is staged alone. -/
theorem edit?_spec (sound : handle.Sound) {key : Bytes} {document : Option EditableDocument} {held : Handle}
    (taken : handle.edit? key = .ok (document, held)) :
    (∃ staged, held = handle.restaged staged) ∧ held.Sound ∧
      ∀ given, document = some given → given.changed = false → held.index.contains key = true := by
  unfold edit? at taken
  split at taken
  · contradiction
  split at taken
  · rename_i document staged
    obtain ⟨rfl, rfl⟩ := Prod.mk.inj (Except.ok.inj taken)
    refine ⟨⟨_, rfl⟩, sound, ?_⟩
    intro given same unchanged
    obtain rfl := Option.some.inj same
    exact sound key _ staged (by simp [Pending.written?, unchanged])
  · obtain ⟨rfl, rfl⟩ := Prod.mk.inj (Except.ok.inj taken)
    refine ⟨⟨_, rfl⟩, sound, ?_⟩
    intro given absent
    contradiction
  · split at taken
    · contradiction
    obtain ⟨rfl, rfl⟩ := Prod.mk.inj (Except.ok.inj taken)
    refine ⟨⟨_, rfl⟩, sound.insert ?_, ?_⟩
    · intro bare
      contradiction
    · intro given same unchanged
      obtain rfl := Option.some.inj same
      contradiction
  · split at taken
    · obtain ⟨rfl, rfl⟩ := Prod.mk.inj (Except.ok.inj taken)
      refine ⟨⟨_, rfl⟩, sound, ?_⟩
      intro given absent
      contradiction
    · rename_i bytes found
      have committed : handle.index.contains key = true := index_contains_iff.mpr ⟨bytes, found⟩
      split at taken
      · contradiction
      obtain ⟨rfl, rfl⟩ := Prod.mk.inj (Except.ok.inj taken)
      exact ⟨⟨_, rfl⟩, sound.insert fun _ => committed, fun _ _ _ => committed⟩

end Handle
end CheckpointStore
