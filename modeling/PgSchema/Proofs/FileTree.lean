/-
# Writing to file trees

A file is written into a directory that is there, so writing it makes no directories and changes no
other file: a path leads to the same place before and after.

* `FileTree.find?_put` : what is found after a file has been written;
* `FileTree.locate_eq_ok_iff` : where a path leads;
* `FileTree.hasDirectory_put` : writing a file makes no directories.
-/
import PgSchema.FileTree
import PgSchema.Proofs.Result

namespace PgSchema.FileTree

variable {tree tree' : FileTree} {place directory : FilePlace} {path : String}

theorem find?_put (tree : FileTree) (place : FilePlace) (content : Content) (other : FilePlace) :
    (tree.put place content).find? other =
      if other = place then some content else tree.find? other := by
  unfold put find?
  rw [List.find?_append]
  by_cases h : other = place
  · have hnone : (tree.files.filter fun file => file.1 != place).find?
        (fun file => file.1 == other) = none := by
      refine List.find?_eq_none.2 fun file hfile => ?_
      simpa [h] using (List.mem_filter.1 hfile).2
    rw [if_pos h, hnone]
    simp [h]
  · have hkept : (tree.files.filter fun file => file.1 != place).find?
        (fun file => file.1 == other) = tree.files.find? fun file => file.1 == other := by
      rw [List.find?_filter]
      congr 1
      funext file
      by_cases hfile : file.1 = other <;> simp [hfile, h]
    rw [if_neg h, hkept]
    simp [Ne.symm h]

/-! ## Locating -/

/-- The directory that a path starts from: the root if it begins with a slash, or else the current
one. -/
def startPlace (path : String) : FilePlace :=
  let pieces := FilePath.pieces path
  if pieces.length > 1 ∧ pieces.head? = some "" then [""] else []

/-- The last name of a path. -/
def lastName (path : String) : String := (FilePath.pieces path).getLast?.getD ""

/-- Holds for the names of files: not empty, and no dots that lead to a directory. -/
def IsFileName (name : String) : Prop := name ≠ "" ∧ name ≠ "." ∧ name ≠ ".."

theorem locate_of_ne_empty (h : path ≠ "") :
    tree.locate path =
      ((FilePath.pieces path).dropLast.foldlM tree.enter (startPlace path)).bind fun directory =>
        if lastName path = "" ∨ lastName path = "." ∨ lastName path = ".." then
          .error .isDirectory
        else if tree.hasDirectory (directory ++ [lastName path]) then .error .isDirectory
        else .ok (directory ++ [lastName path]) := by
  unfold locate
  rw [if_neg h]
  rfl

theorem enter_eq_ok_iff {piece : String} :
    tree.enter place piece = .ok directory ↔
      if piece = "" ∨ piece = "." then directory = place
      else if piece = ".." then directory = place.parent
      else tree.hasDirectory (place ++ [piece]) = true ∧ directory = place ++ [piece] := by
  unfold enter
  split
  · simp [eq_comm]
  · split
    · simp [eq_comm]
    · split
      · next h => simp [h, eq_comm]
      · next h => split <;> simp [h]

/-- A path leads to a file in the directory that the front of the path leads to. -/
theorem locate_eq_ok_iff :
    tree.locate path = .ok place ↔
      path ≠ "" ∧ IsFileName (lastName path) ∧ ∃ directory,
        (FilePath.pieces path).dropLast.foldlM tree.enter (startPlace path) = .ok directory ∧
        tree.hasDirectory (directory ++ [lastName path]) = false ∧
        place = directory ++ [lastName path] := by
  by_cases hpath : path = ""
  · subst hpath
    have hlocate : tree.locate "" = .error .notFound := rfl
    simp [hlocate]
  · have hdots : IsFileName (lastName path) ↔
        ¬(lastName path = "" ∨ lastName path = "." ∨ lastName path = "..") := by
      simp [IsFileName]
    rw [locate_of_ne_empty hpath, hdots]
    -- the directory is entered before the last piece is looked at
    cases (FilePath.pieces path).dropLast.foldlM tree.enter (startPlace path) with
    | error e => simp [Except.bind]
    | ok directory =>
      rw [Except.bind]
      split
      · next hname => simp [hname]
      · next hname =>
        cases hdirectory : tree.hasDirectory (directory ++ [lastName path])
        · rw [if_neg (by simp)]
          constructor
          · intro heq
            exact ⟨hpath, hname, directory, rfl, hdirectory, (Except.ok.inj heq).symm⟩
          · rintro ⟨-, -, _, hsame, -, rfl⟩
            rw [Except.ok.inj hsame]
        · rw [if_pos rfl]
          constructor
          · intro heq
            cases heq
          · rintro ⟨-, -, _, hsame, hfile, -⟩
            rw [← Except.ok.inj hsame, hdirectory] at hfile
            cases hfile

/-- What is read is what is found at the place that the path leads to. -/
theorem read_eq_ok_iff {content : Content} :
    tree.read path = .ok content ↔
      ∃ place, tree.locate path = .ok place ∧ tree.find? place = some content := by
  unfold read
  rw [bind_eq_ok_iff]
  refine exists_congr fun place => and_congr_right fun _ => ?_
  split
  · next found hfound => simp [hfound, pure, Except.pure]
  · next hnone => simp [hnone, throw, throwThe, MonadExceptOf.throw]

/-! ## Directories -/

/-- Holds for the place of a directory in which all directories on the way to it are. -/
def IsReached (tree : FileTree) (place : FilePlace) : Prop :=
  ∀ front, front <+: place → tree.hasDirectory front = true

theorem isReached_startPlace : tree.IsReached (startPlace path) := by
  have hstart : startPlace path <+: [""] := by
    unfold startPlace
    dsimp only
    split
    · exact List.prefix_refl _
    · exact List.nil_prefix
  intro front hfront
  obtain rfl | ⟨rest, rfl, hrest⟩ := List.prefix_cons_iff.1 (hfront.trans hstart)
  · rfl
  · rw [List.prefix_nil.1 hrest]
    rfl

theorem IsReached.parent (h : tree.IsReached place) : tree.IsReached place.parent := by
  unfold FilePlace.parent
  split
  · exact h
  · split
    · next hdots =>
      intro front hfront
      have hall : front.all (· == "..") = true := by
        rw [List.all_eq_true] at *
        intro piece hpiece
        rcases List.mem_cons.1 (hfront.subset hpiece) with rfl | hmem
        · rfl
        · exact hdots piece hmem
      simp [hasDirectory, hall]
    · exact fun front hfront => h front (hfront.trans (List.dropLast_prefix place))

theorem IsReached.enter {piece : String} (h : tree.IsReached place)
    (henter : tree.enter place piece = .ok directory) : tree.IsReached directory := by
  unfold FileTree.enter at henter
  split at henter
  · obtain rfl := Except.ok.inj henter
    exact h
  · split at henter
    · obtain rfl := Except.ok.inj henter
      exact h.parent
    · split at henter
      · next hdirectory =>
        obtain rfl := Except.ok.inj henter
        intro front hfront
        rcases List.prefix_concat_iff.1 hfront with rfl | hfront
        · exact hdirectory
        · exact h front hfront
      · split at henter <;> cases henter

theorem IsReached.foldlM {pieces : List String} (h : tree.IsReached place)
    (hfold : pieces.foldlM tree.enter place = .ok directory) : tree.IsReached directory := by
  induction pieces generalizing place with
  | nil =>
    obtain rfl := Except.ok.inj hfold
    exact h
  | cons piece pieces ih =>
    obtain ⟨next, henter, hrest⟩ := bind_eq_ok_iff.1 hfold
    exact ih (h.enter henter) hrest

theorem hasDirectory_iff :
    tree.hasDirectory place = true ↔
      (place = [""] ∨ place.all (· == "..") = true ∨ place ∈ tree.directories) ∨
        ∃ file ∈ tree.files, place <+: file.1 ∧ place ≠ file.1 := by
  simp [hasDirectory, or_assoc]

/-- Writing a file into a directory that is there makes no directories. -/
theorem hasDirectory_put (h : tree.IsReached directory) (name : String) (content : Content)
    (place : FilePlace) :
    (tree.put (directory ++ [name]) content).hasDirectory place = tree.hasDirectory place := by
  rw [Bool.eq_iff_iff]
  constructor
  · intro hnew
    obtain hkept | ⟨file, hfile, hfront, hne⟩ := hasDirectory_iff.1 hnew
    · exact hasDirectory_iff.2 (.inl hkept)
    · rcases List.mem_append.1 hfile with hold | hput
      · exact hasDirectory_iff.2 (.inr ⟨file, (List.mem_filter.1 hold).1, hfront, hne⟩)
      · -- the way to the new file was there before
        rw [List.mem_singleton.1 hput] at hfront hne
        exact h place ((List.prefix_concat_iff.1 hfront).resolve_left hne)
  · intro hold
    obtain hkept | ⟨file, hfile, hfront, hne⟩ := hasDirectory_iff.1 hold
    · exact hasDirectory_iff.2 (.inl hkept)
    · refine hasDirectory_iff.2 (.inr ?_)
      by_cases hplace : file.1 = directory ++ [name]
      · refine ⟨(directory ++ [name], content), ?_, hplace ▸ hfront, hplace ▸ hne⟩
        exact List.mem_append_right _ (List.mem_singleton.2 rfl)
      · exact ⟨file, List.mem_append_left _ (List.mem_filter.2 ⟨hfile, by simpa using hplace⟩),
          hfront, hne⟩

/-! ## Trees with the same directories -/

section SameDirectories

variable (hsame : ∀ place, tree'.hasDirectory place = tree.hasDirectory place)
include hsame

theorem enter_of_same {piece : String} (h : tree.enter place piece = .ok directory) :
    tree'.enter place piece = .ok directory := by
  rw [enter_eq_ok_iff] at *
  simpa only [hsame] using h

theorem foldlM_enter_of_same {pieces : List String}
    (h : pieces.foldlM tree.enter place = .ok directory) :
    pieces.foldlM tree'.enter place = .ok directory := by
  induction pieces generalizing place with
  | nil => exact h
  | cons piece pieces ih =>
    obtain ⟨next, henter, hrest⟩ := bind_eq_ok_iff.1 h
    exact bind_eq_ok_iff.2 ⟨next, enter_of_same hsame henter, ih hrest⟩

/-- Where a path leads depends on the directories only. -/
theorem locate_of_same (h : tree.locate path = .ok place) : tree'.locate path = .ok place := by
  obtain ⟨hne, hname, directory, hfold, hfile, hplace⟩ := locate_eq_ok_iff.1 h
  exact locate_eq_ok_iff.2
    ⟨hne, hname, directory, foldlM_enter_of_same hsame hfold, (hsame _).trans hfile, hplace⟩

end SameDirectories

/-- Writing a file changes no directories. -/
theorem hasDirectory_put_of_locate (h : tree.locate path = .ok place) (content : Content)
    (other : FilePlace) :
    (tree.put place content).hasDirectory other = tree.hasDirectory other := by
  obtain ⟨-, -, directory, hfold, -, rfl⟩ := locate_eq_ok_iff.1 h
  exact hasDirectory_put (isReached_startPlace.foldlM hfold) _ content other

end PgSchema.FileTree
