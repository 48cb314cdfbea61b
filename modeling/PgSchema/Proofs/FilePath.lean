/-
# Scripts beside their sources

The script of a source is in the directory of the source, whatever way the path goes there, and it
is named after the source up to its last dot.

* `FilePath.pieces_text` : a path that was written is read back;
* `FileTree.locate_scriptPath_iff` : where the path of a script leads, given where the path of its
  source leads.
-/
import PgSchema.Build
import PgSchema.Proofs.FileTree
import PgSchema.Proofs.Text.Span

namespace PgSchema

namespace FilePath

/-- Holds for a name without slashes. -/
def IsPiece (s : String) : Prop := '/' ∉ s.toList

/-- Holds for the pieces of a path that lead somewhere else. -/
def moves (piece : String) : Bool := piece != "" && piece != "."

theorem isPiece_of_mem_pieces {s piece : String} (h : piece ∈ pieces s) : IsPiece piece := by
  obtain ⟨cs, hcs, rfl⟩ := List.mem_map.1 h
  rw [IsPiece, String.toList_ofList]
  exact Text.notMem_of_mem_splitAt hcs

theorem pieces_slash_append (s : String) : pieces ("/" ++ s) = "" :: pieces s := by
  rw [pieces, String.toList_append]
  rfl

theorem pieces_intercalate {name : String} {names : List String}
    (h : ∀ piece ∈ name :: names, IsPiece piece) :
    pieces ("/".intercalate (name :: names)) = name :: names := by
  rw [pieces, String.toList_intercalate]
  change (Text.splitAt '/' (['/'].intercalate (name.toList :: names.map String.toList))).map _ = _
  rw [Text.splitAt_intercalate, List.map_cons, List.map_map]
  · simp
  · rw [← List.map_cons]
    intro cs hcs
    obtain ⟨piece, hpiece, rfl⟩ := List.mem_map.1 hcs
    exact h piece hpiece

theorem pieces_ne_nil (s : String) : pieces s ≠ [] :=
  mt List.map_eq_nil_iff.1 (Text.splitAt_ne_nil '/' s.toList)

/-- A text starts in the current directory unless its first piece is empty and not its only one. -/
theorem startOf_eq_here_iff (s : String) :
    startOf s = .here ↔ ¬((pieces s).length > 1 ∧ (pieces s).head? = some "") := by
  unfold startOf pieces
  cases hs : s.toList with
  | nil => simp [Text.splitAt]
  | cons c cs =>
    -- a text that starts with a slash has an empty first piece and another one behind it
    by_cases hc : c = '/'
    · have hlength : (Text.splitAt '/' cs).length ≠ 0 :=
        mt List.length_eq_zero_iff.1 (Text.splitAt_ne_nil '/' cs)
      have htake : ((c :: cs).takeWhile (· == '/')).length =
          (cs.takeWhile (· == '/')).length + 1 := by simp [hc]
      have hsplit : Text.splitAt '/' (c :: cs) = [] :: Text.splitAt '/' cs := by
        rw [hc, Text.splitAt_cons_separator]
      have hpieces : (([] :: Text.splitAt '/' cs).map String.ofList).length > 1 ∧
          (([] :: Text.splitAt '/' cs).map String.ofList).head? = some "" := by
        refine ⟨?_, rfl⟩
        rw [List.length_map, List.length_cons]
        omega
      rw [htake, hsplit]
      refine ⟨fun hhere => ?_, fun hnot => absurd hpieces hnot⟩
      split at hhere
      · next hnone => omega
      · cases hhere
      · cases hhere
    · have htake : ((c :: cs).takeWhile (· == '/')).length = 0 := by simp [hc]
      obtain ⟨first, rest, -, hsplit⟩ := Text.exists_splitAt_cons hc cs
      rw [htake, hsplit]
      simp

/-- A path that was written is read back, its start as empty pieces. -/
theorem pieces_text {p : FilePath} (hne : p.components ≠ [])
    (h : ∀ piece ∈ p.components, IsPiece piece) :
    ∃ lead, pieces p.text = lead ++ p.components ∧ (∀ piece ∈ lead, piece = "") ∧
      (lead = [] ↔ p.start = .here) := by
  obtain ⟨name, names, hnames⟩ := List.exists_cons_of_ne_nil hne
  have hread : pieces ("/".intercalate p.components) = p.components := by
    rw [hnames]
    exact pieces_intercalate (hnames ▸ h)
  have htext : p.text = p.start.text ++ "/".intercalate p.components := by
    rw [text, if_neg (by simp [hnames])]
  rw [htext]
  cases hstart : p.start with
  | here => exact ⟨[], by simpa [PathStart.text] using hread, by simp, by simp⟩
  | root =>
    refine ⟨[""], ?_, by simp, by simp⟩
    rw [PathStart.text, pieces_slash_append, hread]
    rfl
  | doubleRoot =>
    have hslashes : ("//" : String) = "/" ++ "/" := rfl
    refine ⟨["", ""], ?_, by simp, by simp⟩
    rw [PathStart.text, hslashes, String.append_assoc, pieces_slash_append, pieces_slash_append,
      hread]
    rfl

/-- What stands before the last dot of a piece is a piece. -/
theorem isPiece_stem {name : String} (h : IsPiece name) : IsPiece (stem name) := by
  unfold stem
  dsimp only
  split
  · next hfront =>
    unfold IsPiece at *
    rw [String.toList_ofList, List.mem_reverse]
    have hsuffix := List.dropWhile_suffix (l := name.toList.reverse) (· != '.')
    rw [hfront] at hsuffix
    exact fun hslash => h (List.mem_reverse.1 (hsuffix.subset (List.mem_cons_of_mem _ hslash)))
  · exact h

end FilePath

/-! ## Where scripts are -/

namespace FileTree

variable {tree : FileTree} {place directory : FilePlace} {source : String}

theorem foldlM_enter_filter (pieces : List String) :
    (pieces.filter FilePath.moves).foldlM tree.enter place = pieces.foldlM tree.enter place := by
  induction pieces generalizing place with
  | nil => rfl
  | cons piece pieces ih =>
    by_cases hmoves : FilePath.moves piece = true
    · rw [List.filter_cons_of_pos hmoves, List.foldlM_cons, List.foldlM_cons]
      congr 1
      funext next
      exact ih
    · have hstays : tree.enter place piece = .ok place := by
        have hdot : piece = "" ∨ piece = "." :=
          Decidable.or_iff_not_imp_left.2 (by simpa [FilePath.moves] using hmoves)
        rw [enter, if_pos hdot]
      rw [List.filter_cons_of_neg hmoves, List.foldlM_cons, hstays, ih]
      rfl

theorem isFileName_scriptName (name : String) : IsFileName (name ++ scriptExtension) := by
  have hne {short : String} (hshort : short.length < 11) : name ++ scriptExtension ≠ short := by
    rintro rfl
    have hlength : (name ++ scriptExtension).length = name.length + 11 := String.length_append ..
    omega
  exact ⟨hne (by decide), hne (by decide), hne (by decide)⟩

theorem startPlace_eq (source : String) :
    startPlace source = if FilePath.startOf source = .here then [] else [""] := by
  have hstart := FilePath.startOf_eq_here_iff source
  unfold startPlace
  dsimp only
  split
  · next hroot => rw [if_neg fun hhere => hstart.1 hhere hroot]
  · next hhere => rw [if_pos (hstart.2 hhere)]

theorem pieces_eq_dropLast_append (source : String) :
    FilePath.pieces source = (FilePath.pieces source).dropLast ++ [lastName source] := by
  have hne := FilePath.pieces_ne_nil source
  rw [lastName, List.getLast?_eq_some_getLast hne, Option.getD_some,
    List.dropLast_concat_getLast hne]

/-- Where a path starts, read off its pieces: a path that does not start here has empty pieces in
front. -/
theorem startPlace_of_pieces {path : String} {start : PathStart} {lead front : List String}
    {name : String} (htext : FilePath.pieces path = lead ++ front ++ [name])
    (hlead : ∀ piece ∈ lead, piece = "") (hhere : lead = [] ↔ start = .here) (hname : name ≠ "")
    (hfront : ∀ piece ∈ front, FilePath.moves piece = true) :
    startPlace path = if start = .here then [] else [""] := by
  unfold startPlace
  dsimp only
  rw [htext]
  cases lead with
  | nil =>
    have hhead : (front ++ [name]).head? ≠ some "" := by
      cases front with
      | nil => simpa using hname
      | cons first front =>
        have hfirst := hfront first List.mem_cons_self
        simp only [FilePath.moves, Bool.and_eq_true, bne_iff_ne] at hfirst
        simpa using hfirst.1
    rw [if_pos (hhere.1 rfl), List.nil_append, if_neg fun h => hhead h.2]
  | cons first lead =>
    obtain rfl := hlead first List.mem_cons_self
    have hroot : start ≠ .here := fun h => List.cons_ne_nil _ _ (hhere.2 h)
    have hlength : ("" :: lead ++ front ++ [name]).length > 1 := by
      rw [List.length_append, List.cons_append, List.length_cons, List.length_singleton]
      omega
    rw [if_neg hroot, if_pos ⟨hlength, rfl⟩]

/-- Where the text of a path leads. -/
theorem locate_text_iff {start : PathStart} {front : List String} {name : String}
    (hname : IsFileName name) (hpieces : ∀ piece ∈ front ++ [name], FilePath.IsPiece piece)
    (hfront : ∀ piece ∈ front, FilePath.moves piece = true) :
    tree.locate (FilePath.text ⟨start, front ++ [name]⟩) = .ok place ↔
      ∃ directory, front.foldlM tree.enter (if start = .here then [] else [""]) = .ok directory ∧
        tree.hasDirectory (directory ++ [name]) = false ∧ place = directory ++ [name] := by
  obtain ⟨lead, htext, hlead, hhere⟩ :=
    FilePath.pieces_text (p := ⟨start, front ++ [name]⟩) (by simp) hpieces
  obtain ⟨path, hpath⟩ : ∃ path, path = FilePath.text ⟨start, front ++ [name]⟩ := ⟨_, rfl⟩
  rw [← hpath] at htext ⊢
  dsimp only at htext hhere
  rw [← List.append_assoc] at htext
  have hlast : lastName path = name := by
    rw [lastName, htext, List.getLast?_concat, Option.getD_some]
  have hne : path ≠ "" := by
    rintro rfl
    have hempty : FilePath.pieces "" = [] ++ [""] := rfl
    rw [hempty] at htext
    exact hname.1 (List.singleton_inj.1 (List.append_inj_right' htext rfl)).symm
  have hstart : startPlace path = if start = .here then [] else [""] :=
    startPlace_of_pieces htext hlead hhere hname.1 hfront
  have hfold : (lead ++ front).filter FilePath.moves = front.filter FilePath.moves := by
    have hnone : lead.filter FilePath.moves = [] := by
      refine List.filter_eq_nil_iff.2 fun piece hpiece => ?_
      rw [hlead piece hpiece]
      decide
    rw [List.filter_append, hnone, List.nil_append]
  rw [locate_eq_ok_iff, hlast, htext, List.dropLast_concat, hstart, ← foldlM_enter_filter, hfold,
    foldlM_enter_filter]
  simp only [hne, hname, ne_eq, not_false_eq_true, true_and]

/-- The script of a source is in the same directory, under its own name. -/
theorem locate_scriptPath_iff (h : tree.locate source = .ok place) :
    ∃ directory name, place = directory ++ [name] ∧
      ∃ target, scriptPath (FilePath.ofText source) = .ok target ∧
        ∀ script, tree.locate target.text = .ok script ↔
          tree.hasDirectory (directory ++ [FilePath.stem name ++ scriptExtension]) = false ∧
            script = directory ++ [FilePath.stem name ++ scriptExtension] := by
  obtain ⟨-, hname, directory, hfold, -, hplace⟩ := locate_eq_ok_iff.1 h
  have hsource := pieces_eq_dropLast_append source
  generalize (FilePath.pieces source).dropLast = before at hsource hfold
  generalize lastName source = name at hsource hname hplace
  -- all that matters of the path are its pieces, the last one apart
  have hpiece {piece : String} (hmem : piece ∈ before ++ [name]) : FilePath.IsPiece piece :=
    FilePath.isPiece_of_mem_pieces (hsource ▸ hmem)
  have hmoves : FilePath.moves name = true := by
    simp [FilePath.moves, hname.1, hname.2.1]
  have hcomponents :
      (FilePath.ofText source).components = before.filter FilePath.moves ++ [name] := by
    change (FilePath.pieces source).filter FilePath.moves = _
    rw [hsource, List.filter_append, List.filter_cons_of_pos hmoves, List.filter_nil]
  have hpath : scriptPath (FilePath.ofText source) = .ok ⟨FilePath.startOf source,
      before.filter FilePath.moves ++ [FilePath.stem name ++ scriptExtension]⟩ := by
    unfold scriptPath FilePath.name? FilePath.withName
    rw [hcomponents, List.getLast?_concat]
    simp only [List.dropLast_concat]
    rfl
  have hpieces : ∀ piece ∈ before.filter FilePath.moves ++ [FilePath.stem name ++ scriptExtension],
      FilePath.IsPiece piece := by
    intro piece hmem
    rcases List.mem_append.1 hmem with hbefore | hlast
    · exact hpiece (List.mem_append_left _ (List.mem_filter.1 hbefore).1)
    · have hstem := FilePath.isPiece_stem (hpiece (List.mem_append_right _ List.mem_cons_self))
      rw [List.mem_singleton.1 hlast, FilePath.IsPiece, String.toList_append, List.mem_append,
        not_or]
      exact ⟨hstem, by decide⟩
  refine ⟨directory, name, hplace, _, hpath, fun script => ?_⟩
  rw [locate_text_iff (isFileName_scriptName _) hpieces fun _ h => (List.mem_filter.1 h).2,
    foldlM_enter_filter, ← startPlace_eq, hfold]
  simp

end FileTree

end PgSchema
