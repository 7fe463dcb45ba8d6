import CheckpointStore.Files.Path
import Mathlib

/-!
# Names in paths

A path is cut at its slashes. The sibling that is written before a file takes its place has another
last name than the file, so a path and that of its sibling never lead to one place.
-/

namespace CheckpointStore.Path

/-! ### Cutting a text at its slashes -/

/-- The cut at hand starts behind `l`, it has come to `m` so far, and `r` is left. -/
theorem splitOnAux_eq (l m r : List Char) (parts : List String) :
    String.splitOnAux (.ofList (l ++ m ++ r)) "/" ⟨String.utf8Len l⟩ ⟨String.utf8Len (l ++ m)⟩ 0 parts
      = parts.reverse ++ (List.splitOnPPrepend (· == '/') r m.reverse).map String.ofList := by
  have slash : String.Pos.Raw.get "/" 0 = '/' := by decide
  have single : String.Pos.Raw.next "/" 0 = ⟨1⟩ := by decide
  have ended : String.Pos.Raw.atEnd "/" ⟨1⟩ = true := by decide
  have cut (l m r : List Char) : String.Pos.Raw.extract (.ofList (l ++ m ++ r)) ⟨String.utf8Len l⟩ ⟨String.utf8Len (l ++ m)⟩
      = .ofList m := by
    rw [String.utf8Len_append]
    exact String.extract_of_valid l m r
  induction r generalizing l m parts with
  | nil =>
    rw [String.splitOnAux, if_pos ((String.atEnd_of_valid (l ++ m) []).mpr rfl), cut]
    simp
  | cons c r ih =>
    have here : String.Pos.Raw.get (.ofList (l ++ m ++ c :: r)) ⟨String.utf8Len (l ++ m)⟩ = c :=
      String.get_of_valid (l ++ m) (c :: r)
    have onward : String.Pos.Raw.next (.ofList (l ++ m ++ c :: r)) ⟨String.utf8Len (l ++ m)⟩
        = ⟨String.utf8Len (l ++ m) + c.utf8Size⟩ := String.next_of_valid (l ++ m) c r
    rw [String.splitOnAux, if_neg (mt (String.atEnd_of_valid (l ++ m) (c :: r)).mp nofun), here, slash, single]
    by_cases same : c = '/'
    · subst same
      have back : String.Pos.Raw.unoffsetBy ⟨String.utf8Len (l ++ m) + '/'.utf8Size⟩ ⟨1⟩ = ⟨String.utf8Len (l ++ m)⟩ := rfl
      have later := ih (l ++ m ++ ['/']) [] (.ofList m :: parts)
      rw [List.append_nil, String.utf8Len_append (l ++ m)] at later
      simp only [beq_self_eq_true, if_true, onward, ended, back, cut]
      rw [List.splitOnPPrepend_cons_pos rfl]
      simpa using later
    · have other : (c == '/') = false := beq_false_of_ne same
      have still : String.Pos.Raw.unoffsetBy ⟨String.utf8Len (l ++ m)⟩ 0 = ⟨String.utf8Len (l ++ m)⟩ := rfl
      have later := ih l (m ++ [c]) parts
      rw [← List.append_assoc, String.utf8Len_append (l ++ m)] at later
      rw [other, if_neg nofun, still, onward, List.splitOnPPrepend_cons_neg (p := (· == '/')) other]
      simpa using later

/-- A text is cut at its slashes as its characters are. -/
theorem splitOn_eq (text : String) : text.splitOn "/" = (text.toList.splitOn '/').map String.ofList := by
  have cut := splitOnAux_eq [] [] text.toList []
  simp only [List.nil_append, String.ofList_toList] at cut
  exact cut

theorem splitOn_of_absent {name : String} (absent : '/' ∉ name.toList) : name.splitOn "/" = [name] := by
  rw [splitOn_eq, List.splitOn_eq_singleton absent]
  simp

theorem not_mem_of_mem_splitOn {chars part : List Char} (mem : part ∈ chars.splitOn '/') : '/' ∉ part := by
  induction chars generalizing part with
  | nil =>
    rw [List.splitOn_nil, List.mem_singleton] at mem
    subst mem
    exact List.not_mem_nil
  | cons c chars ih =>
    rw [List.splitOn_cons_eq_if_modifyHead] at mem
    split at mem
    · rcases List.mem_cons.mp mem with rfl | later
      · exact List.not_mem_nil
      · exact ih later
    · rename_i other
      cases parts : chars.splitOn '/' with
      | nil => exact absurd parts (List.splitOn_ne_nil _ _)
      | cons first rest =>
        rw [parts] at mem ih
        rcases List.mem_cons.mp mem with rfl | later
        · rintro (_ | ⟨_, here⟩)
          · exact other rfl
          · exact ih List.mem_cons_self here
        · exact ih (List.mem_cons_of_mem _ later)

theorem absent_of_mem_splitOn {text part : String} (mem : part ∈ text.splitOn "/") : '/' ∉ part.toList := by
  rw [splitOn_eq] at mem
  obtain ⟨chars, listed, rfl⟩ := List.mem_map.mp mem
  rw [String.toList_ofList]
  exact not_mem_of_mem_splitOn listed

theorem getLast?_splitOn {text name : String} {front : List Char} (cut : text.toList = front ++ '/' :: name.toList)
    (absent : '/' ∉ name.toList) : (text.splitOn "/").getLast? = some name := by
  rw [splitOn_eq, cut, List.splitOn_append_cons_self, List.splitOn_eq_singleton absent, List.map_append, List.getLast?_append]
  simp

/-- Whatever directory a name is joined to, it is the last part of the path. -/
theorem getLast?_splitOn_join (directory : String) {name : String} (absent : '/' ∉ name.toList) :
    ((join directory name).splitOn "/").getLast? = some name := by
  unfold join
  split
  · rename_i closed
    rcases Bool.or_eq_true_iff.mp closed with empty | slash
    · rw [String.isEmpty_iff.mp empty, String.empty_append, splitOn_of_absent absent]
      rfl
    · obtain ⟨front, chars⟩ := List.getLast?_eq_some_iff.mp (eq_of_beq slash)
      exact getLast?_splitOn (by rw [String.toList_append, chars, List.append_assoc]; rfl) absent
  · exact getLast?_splitOn (by rw [String.toList_append, String.toList_append, List.append_assoc]; rfl) absent

/-! ### The last name of a path -/

/-- The last part that is not empty is this name. -/
structure Ends (parts : List String) (name : String) : Prop where
  split : ∃ front blanks, parts = front ++ name :: blanks ∧ ∀ blank ∈ blanks, blank = ""
  plain : name ≠ "" ∧ name ≠ "." ∧ name ≠ ".."

variable {text name : String}

theorem trim_of_blank {head : String} {tail : List String} (blank : ∀ part ∈ tail, part = "") (filled : head ≠ "") :
    trim ⟨head, tail⟩ = ⟨head, []⟩ := by
  have gone : (tail.reverse.dropWhile fun name => name == "" || name == ".") = [] := by
    rw [List.dropWhile_eq_nil_iff]
    intro part mem
    simp [blank part (List.mem_reverse.mp mem)]
  unfold trim
  simp [gone, filled]

theorem trim_of_name {head : String} {front blanks : List String} (blank : ∀ part ∈ blanks, part = "")
    (plain : name ≠ "" ∧ name ≠ ".") : trim ⟨head, front ++ name :: blanks⟩ = ⟨head, front ++ [name]⟩ := by
  have gone : ((front ++ name :: blanks).reverse.dropWhile fun name => name == "" || name == ".") = name :: front.reverse := by
    rw [List.reverse_append, List.reverse_cons, List.append_assoc, List.dropWhile_append_of_pos]
    · simp [plain]
    · intro part mem
      simp [blank part (List.mem_reverse.mp mem)]
  unfold trim
  dsimp only
  rw [gone, List.reverse_cons, List.reverse_reverse]
  cases front <;> rfl

theorem fileName?_of_ends (ends : Ends (text.splitOn "/") name) : (ofString text).fileName? = some name := by
  obtain ⟨⟨front, blanks, split, blank⟩, filled, dot, dots⟩ := ends
  unfold ofString
  rw [split]
  cases front with
  | nil =>
    unfold fileName?
    simp [trim_of_blank blank filled, filled, dot, dots]
  | cons head front =>
    unfold fileName?
    simp [trim_of_name blank ⟨filled, dot⟩, filled, dot, dots]

theorem temporary_of_ends (ends : Ends (text.splitOn "/") name) :
    ((temporary text).splitOn "/").getLast? = some (name ++ ".tmp") := by
  have part : name ∈ text.splitOn "/" := by
    obtain ⟨front, blanks, split, -⟩ := ends.split
    rw [split]
    simp
  have absent : '/' ∉ (name ++ ".tmp").toList := by
    have own := absent_of_mem_splitOn part
    simp [own]
  unfold temporary
  simp only [fileName?_of_ends ends]
  exact getLast?_splitOn_join _ absent

theorem Ends.eq_last {parts : List String} {last : String} (ends : Ends parts name) (given : parts.getLast? = some last)
    (filled : last ≠ "") : name = last := by
  obtain ⟨front, blanks, rfl, blank⟩ := ends.split
  cases reversed : blanks.reverse with
  | nil =>
    rw [List.reverse_eq_nil_iff.mp reversed] at given
    simpa using given
  | cons final others =>
    -- the last part would be empty
    have whole : blanks = others.reverse ++ [final] := by
      rw [← blanks.reverse_reverse, reversed, List.reverse_cons]
    have same : final = last := by
      rw [whole, ← List.cons_append, ← List.append_assoc, List.getLast?_concat] at given
      exact Option.some.inj given
    exact absurd (same ▸ blank final (whole ▸ List.mem_append_right _ (List.mem_singleton_self _))) filled

end CheckpointStore.Path
