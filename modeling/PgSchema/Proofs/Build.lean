/-
# Scripts of several sources

Without an output path, the command writes the script of each source beside the source, under the
name of the source up to its last dot.  Nothing keeps two sources apart that differ behind the dot,
and of scripts with one place only the last one stays.

* `Config.build_eq_ok` : what building one source does to the files;
* `Config.buildAll_eq_ok` : what building several sources in turn does to the files;
* `runCommandLine_keeps_scripts_iff` : when every script of a command line is there in the end.
-/
import PgSchema.CommandLine
import PgSchema.Proofs.FilePath

namespace PgSchema

variable {config : Config} {tree tree' : FileTree} {source sql sql' : String}
  {place place' : FilePlace}

/-! ## Sources -/

/-- Holds when a source compiles to the SQL. -/
def Config.Yields (config : Config) (tree : FileTree) (source sql : String) : Prop :=
  ∃ tables, tree.readTables source = .ok tables ∧ (config.compileAll tables).result = .ok sql

/-- Holds when a source has a script, which belongs at the place. -/
structure Config.Scripts (config : Config) (tree : FileTree) (source : String) (place : FilePlace)
    (sql : String) : Prop where
  yields : config.Yields tree source sql
  nonempty : sql ≠ ""
  located : ∃ target, scriptPath (FilePath.ofText source) = .ok target ∧
    tree.locate target.text = .ok place

/-- Holds for sources in one directory whose names are the same up to their last dots. -/
def FileTree.SharesStem (tree : FileTree) (source source' : String) : Prop :=
  ∃ directory name name', tree.locate source = .ok (directory ++ [name]) ∧
    tree.locate source' = .ok (directory ++ [name']) ∧ FilePath.stem name = FilePath.stem name'

theorem Config.Yields.unique (h : config.Yields tree source sql)
    (h' : config.Yields tree source sql') : sql = sql' := by
  obtain ⟨tables, htables, hsql⟩ := h
  obtain ⟨tables', htables', hsql'⟩ := h'
  obtain rfl := Except.ok.inj (htables.symm.trans htables')
  exact Except.ok.inj (hsql.symm.trans hsql')

theorem Config.Scripts.unique (h : config.Scripts tree source place sql)
    (h' : config.Scripts tree source place' sql') : place = place' := by
  obtain ⟨target, htarget, hplace⟩ := h.located
  obtain ⟨target', htarget', hplace'⟩ := h'.located
  obtain rfl := Except.ok.inj (htarget.symm.trans htarget')
  exact Except.ok.inj (hplace.symm.trans hplace')

/-! ## Trees with scripts -/

/-- Holds for a tree that differs from another one by scripts, which may have been written over
other files. -/
structure FileTree.WithScripts (tree tree' : FileTree) : Prop where
  directories : ∀ place, tree'.hasDirectory place = tree.hasDirectory place
  files : ∀ place, tree'.find? place = tree.find? place ∨
    ∃ sql, tree'.find? place = some (.script sql)

namespace FileTree.WithScripts

theorem refl (tree : FileTree) : tree.WithScripts tree := ⟨fun _ => rfl, fun _ => .inl rfl⟩

theorem put (h : tree.WithScripts tree') {path : String} (hplace : tree'.locate path = .ok place)
    (sql : String) : tree.WithScripts (tree'.put place (.script sql)) where
  directories other := (hasDirectory_put_of_locate hplace _ other).trans (h.directories other)
  files other := by
    rw [find?_put]
    split
    · exact .inr ⟨sql, rfl⟩
    · exact h.files other

theorem locate_iff (h : tree.WithScripts tree') {path : String} :
    tree'.locate path = .ok place ↔ tree.locate path = .ok place :=
  ⟨locate_of_same fun other => (h.directories other).symm, locate_of_same h.directories⟩

/-- A source that was read is no script, so it was read as it was before. -/
theorem readTables (h : tree.WithScripts tree') {tables : List Document}
    (htables : tree'.readTables source = .ok tables) : tree.readTables source = .ok tables := by
  obtain ⟨content, hread, htables⟩ := bind_eq_ok_iff.1 htables
  refine bind_eq_ok_iff.2 ⟨content, ?_, htables⟩
  rw [mapError_eq_ok_iff, read_eq_ok_iff] at *
  obtain ⟨place, hplace, hfound⟩ := hread
  refine ⟨place, h.locate_iff.1 hplace, ?_⟩
  obtain hsame | ⟨sql, hscript⟩ := h.files place
  · exact hsame.symm.trans hfound
  · -- a script is a text, and no list of tables
    obtain rfl := Option.some.inj (hscript.symm.trans hfound)
    cases htables

end FileTree.WithScripts

/-! ## Runs -/

/-- What building one source does to the files. -/
theorem Config.build_eq_ok {built : Built}
    (h : (config.build tree source none).result = .ok built) :
    ∃ sql, config.Yields tree source sql ∧
      (sql = "" ∧ built.tree = tree ∨
        ∃ place, config.Scripts tree source place sql ∧
          built.tree = tree.put place (.script (sql ++ "\n"))) := by
  rw [build, Run.result_bind, Run.result_ofResult] at h
  obtain ⟨tables, htables, h⟩ := bind_eq_ok_iff.1 h
  rw [Run.result_bind] at h
  obtain ⟨sql, hsql, h⟩ := bind_eq_ok_iff.1 h
  have hyields : config.Yields tree source sql := ⟨tables, htables, mapError_eq_ok_iff.1 hsql⟩
  refine ⟨sql, hyields, ?_⟩
  split at h
  · next hempty =>
    rw [Run.result_bind, Run.result_report] at h
    obtain rfl := Except.ok.inj h
    exact .inl ⟨hempty, rfl⟩
  · next hne =>
    rw [Run.result_bind, Run.result_ofResult] at h
    obtain ⟨target, htarget, h⟩ := bind_eq_ok_iff.1 h
    rw [Run.result_bind, Run.result_ofResult] at h
    obtain ⟨tree', hwrite, h⟩ := bind_eq_ok_iff.1 h
    rw [Run.result_bind, Run.result_report] at h
    obtain rfl := Except.ok.inj h
    obtain ⟨place, hplace, hput⟩ := bind_eq_ok_iff.1 (mapError_eq_ok_iff.1 hwrite)
    obtain rfl := Except.ok.inj hput
    exact .inr ⟨place, ⟨hyields, hne, target, htarget, hplace⟩, rfl⟩

/-- What a source yields does not depend on scripts that have been written. -/
theorem Config.Yields.before (h : config.Yields tree' source sql)
    (hscripts : tree.WithScripts tree') : config.Yields tree source sql := by
  obtain ⟨tables, htables, hsql⟩ := h
  exact ⟨tables, hscripts.readTables htables, hsql⟩

theorem Config.Scripts.before (h : config.Scripts tree' source place sql)
    (hscripts : tree.WithScripts tree') : config.Scripts tree source place sql := by
  obtain ⟨target, htarget, hplace⟩ := h.located
  exact ⟨h.yields.before hscripts, h.nonempty, target, htarget, hscripts.locate_iff.1 hplace⟩

/-- What building sources in turn makes of a tree in which scripts have been written before: every
source yields something, and the file at a place is the script of some source that belongs there,
or what it was if there is no such source. -/
structure Config.Builds (config : Config) (tree : FileTree) (sources : List String)
    (tree' final : FileTree) : Prop where
  scripts : tree.WithScripts final
  yields : ∀ source ∈ sources, ∃ sql, config.Yields tree source sql ∧
    (sql ≠ "" → ∃ place, config.Scripts tree source place sql)
  places : ∀ place,
    (∃ source ∈ sources, ∃ sql, config.Scripts tree source place sql ∧
      final.find? place = some (.script (sql ++ "\n"))) ∨
    (∀ source ∈ sources, ∀ sql, ¬config.Scripts tree source place sql) ∧
      final.find? place = tree'.find? place

namespace Config.Builds

variable {sources : List String} {final : FileTree}

/-- One more source in front, without a script. -/
theorem cons_of_empty (h : config.Builds tree sources tree' final)
    (hsource : config.Yields tree source "") :
    config.Builds tree (source :: sources) tree' final where
  scripts := h.scripts
  yields := List.forall_mem_cons.2 ⟨⟨"", hsource, fun hne => absurd rfl hne⟩, h.yields⟩
  places place := by
    have hnone (sql : String) : ¬config.Scripts tree source place sql :=
      fun hscript => hscript.nonempty (hscript.yields.unique hsource)
    obtain ⟨writer, hwriter, hwritten⟩ | ⟨hothers, hkept⟩ := h.places place
    · exact .inl ⟨writer, List.mem_cons_of_mem _ hwriter, hwritten⟩
    · exact .inr ⟨List.forall_mem_cons.2 ⟨hnone, hothers⟩, hkept⟩

/-- One more source in front, with a script. -/
theorem cons_of_script
    (h : config.Builds tree sources (tree'.put place (.script (sql ++ "\n"))) final)
    (hscript : config.Scripts tree source place sql) :
    config.Builds tree (source :: sources) tree' final where
  scripts := h.scripts
  yields := List.forall_mem_cons.2 ⟨⟨sql, hscript.yields, fun _ => ⟨place, hscript⟩⟩, h.yields⟩
  places other := by
    obtain ⟨writer, hwriter, hwritten⟩ | ⟨hothers, hkept⟩ := h.places other
    · exact .inl ⟨writer, List.mem_cons_of_mem _ hwriter, hwritten⟩
    · rw [FileTree.find?_put] at hkept
      split at hkept
      · next hother =>
        exact .inl ⟨source, List.mem_cons_self, sql, hother ▸ hscript, hkept⟩
      · next hother =>
        refine .inr ⟨List.forall_mem_cons.2 ⟨fun sql' hscript' => ?_, hothers⟩, hkept⟩
        exact hother (hscript'.unique hscript)

end Config.Builds

/-- What building several sources in turn does to the files. -/
theorem Config.buildAll_eq_ok {sources : List String} {n : Nat} (hscripts : tree.WithScripts tree')
    (h : (config.buildAll none tree' sources).2.result = .ok n) :
    config.Builds tree sources tree' (config.buildAll none tree' sources).1 := by
  induction sources generalizing tree' n with
  | nil => exact ⟨hscripts, by simp, fun place => .inr ⟨by simp, rfl⟩⟩
  | cons source sources ih =>
    rw [buildAll] at h ⊢
    cases hbuild : (config.build tree' source none).result with
    | error e =>
      rw [hbuild] at h
      cases h
    | ok built =>
      simp only [hbuild] at h ⊢
      rw [Run.result_bind] at h
      obtain ⟨_, _, h⟩ := bind_eq_ok_iff.1 h
      rw [Run.result_bind] at h
      obtain ⟨m, hrest, -⟩ := bind_eq_ok_iff.1 h
      obtain ⟨sql, hyields, ⟨rfl, htree⟩ | ⟨place, hscript, htree⟩⟩ := build_eq_ok hbuild
      · rw [htree] at hrest ⊢
        exact (ih hscripts hrest).cons_of_empty (hyields.before hscripts)
      · obtain ⟨target, -, hplace⟩ := hscript.located
        rw [htree] at hrest ⊢
        exact (ih (hscripts.put hplace _) hrest).cons_of_script (hscript.before hscripts)

/-! ## Command lines -/

/-- The place of a script, given the place of its source. -/
theorem Config.Scripts.exists_name (h : config.Scripts tree source place sql) :
    ∃ directory name, tree.locate source = .ok (directory ++ [name]) ∧
      place = directory ++ [FilePath.stem name ++ scriptExtension] := by
  obtain ⟨tables, htables, -⟩ := h.yields
  obtain ⟨content, hread, -⟩ := bind_eq_ok_iff.1 htables
  obtain ⟨origin, horigin, -⟩ := FileTree.read_eq_ok_iff.1 (mapError_eq_ok_iff.1 hread)
  obtain ⟨directory, name, rfl, target, htarget, hscript⟩ := FileTree.locate_scriptPath_iff horigin
  obtain ⟨target', htarget', hplace⟩ := h.located
  obtain rfl := Except.ok.inj (htarget.symm.trans htarget')
  exact ⟨directory, name, horigin, ((hscript place).1 hplace).2⟩

/-- The scripts of two sources belong at one place exactly if the sources share their stem. -/
theorem Config.Scripts.sharesStem_iff {source' : String} (h : config.Scripts tree source place sql)
    (h' : config.Scripts tree source' place' sql') :
    tree.SharesStem source source' ↔ place = place' := by
  obtain ⟨directory, name, hsource, rfl⟩ := h.exists_name
  obtain ⟨directory', name', hsource', rfl⟩ := h'.exists_name
  constructor
  · rintro ⟨shared, first, second, hfirst, hsecond, hstem⟩
    obtain ⟨rfl, hname⟩ := List.append_inj' (Except.ok.inj (hsource.symm.trans hfirst)) rfl
    obtain ⟨rfl, hname'⟩ := List.append_inj' (Except.ok.inj (hsource'.symm.trans hsecond)) rfl
    rw [List.singleton_inj.1 hname, List.singleton_inj.1 hname', hstem]
  · intro hplace
    obtain ⟨rfl, hscript⟩ := List.append_inj' hplace rfl
    have hstem : FilePath.stem name = FilePath.stem name' :=
      (String.append_left_inj _).1 (List.singleton_inj.1 hscript)
    exact ⟨directory, name, name', hsource, hsource', hstem⟩

/-- What is read as the script of a source is what is found at the place of the script. -/
theorem Config.Scripts.read_iff (h : config.Scripts tree source place sql) {final : FileTree}
    (hscripts : tree.WithScripts final) {content : Content} :
    (∃ target, scriptPath (FilePath.ofText source) = .ok target ∧
      final.read target.text = .ok content) ↔ final.find? place = some content := by
  obtain ⟨target, htarget, hplace⟩ := h.located
  have hfinal := hscripts.locate_iff.2 hplace
  constructor
  · rintro ⟨target', htarget', hread⟩
    obtain rfl := Except.ok.inj (htarget.symm.trans htarget')
    obtain ⟨place', hplace', hfound⟩ := FileTree.read_eq_ok_iff.1 hread
    obtain rfl := Except.ok.inj (hfinal.symm.trans hplace')
    exact hfound
  · intro hfound
    exact ⟨target, htarget, FileTree.read_eq_ok_iff.2 ⟨place, hfinal, hfound⟩⟩

/-- When a command line has built its sources, they were built one after another in its
configuration. -/
theorem exists_buildAll_of_built {arguments : List String} {a : Arguments} {n : Nat}
    (hcommand : Command.ofArguments arguments = .ok (.build a))
    (hbuilt : (runCommandLine tree arguments).ending = .built n) :
    ∃ config, a.configIn tree = .ok config ∧
      (config.buildAll a.output tree a.sources).2.result = .ok n ∧
      (runCommandLine tree arguments).tree = (config.buildAll a.output tree a.sources).1 := by
  rw [runCommandLine, hcommand] at hbuilt ⊢
  dsimp only at hbuilt ⊢
  unfold Arguments.run at hbuilt ⊢
  cases hconfig : a.configIn tree with
  | error e =>
    rw [hconfig] at hbuilt
    cases hbuilt
  | ok config =>
    simp only [hconfig] at hbuilt ⊢
    refine ⟨config, rfl, ?_⟩
    cases hresult : (config.buildAll a.output tree a.sources).2.result with
    | error e =>
      simp only [hresult] at hbuilt
      cases hbuilt
    | ok written =>
      simp only [hresult, Ending.built.injEq] at hbuilt
      exact ⟨by rw [hbuilt], rfl⟩

/-- When a command line without an output path has built its sources, each of them has been
compiled, and the scripts of all of them are there exactly if sources with scripts that share their
stem have the same SQL. -/
theorem runCommandLine_keeps_scripts_iff {arguments : List String} {a : Arguments} {n : Nat}
    (hcommand : Command.ofArguments arguments = .ok (.build a)) (houtput : a.output = none)
    (hbuilt : (runCommandLine tree arguments).ending = .built n) :
    ∃ config, a.configIn tree = .ok config ∧
      (∀ source ∈ a.sources, ∃ sql, config.Yields tree source sql) ∧
      ((∀ source ∈ a.sources, ∀ sql, sql ≠ "" → config.Yields tree source sql →
          ∃ target, scriptPath (FilePath.ofText source) = .ok target ∧
            (runCommandLine tree arguments).tree.read target.text = .ok (.script (sql ++ "\n"))) ↔
        ∀ source ∈ a.sources, ∀ source' ∈ a.sources, tree.SharesStem source source' →
          ∀ sql sql', sql ≠ "" → sql' ≠ "" → config.Yields tree source sql →
            config.Yields tree source' sql' → sql = sql') := by
  obtain ⟨config, hconfig, hresult, htree⟩ := exists_buildAll_of_built hcommand hbuilt
  rw [houtput] at hresult htree
  rw [htree]
  have hbuilds := Config.buildAll_eq_ok (.refl tree) hresult
  generalize (config.buildAll none tree a.sources).1 = final at hbuilds
  have hscript {source sql : String} (hsource : source ∈ a.sources) (hne : sql ≠ "")
      (hyields : config.Yields tree source sql) :
      ∃ place, config.Scripts tree source place sql := by
    obtain ⟨sql', hyields', hplace⟩ := hbuilds.yields source hsource
    obtain rfl := hyields.unique hyields'
    exact hplace hne
  refine ⟨config, hconfig, fun source hsource => ?_, fun hkept => ?_, fun hagree => ?_⟩
  · obtain ⟨sql, hyields, -⟩ := hbuilds.yields source hsource
    exact ⟨sql, hyields⟩
  · intro source hsource source' hsource' hshares sql sql' hne hne' hyields hyields'
    obtain ⟨place, hs⟩ := hscript hsource hne hyields
    obtain ⟨place', hs'⟩ := hscript hsource' hne' hyields'
    obtain rfl := (hs.sharesStem_iff hs').1 hshares
    -- both sources have their SQL in the one script that they share
    have hfound := (hs.read_iff hbuilds.scripts).1 (hkept source hsource sql hne hyields)
    have hfound' := (hs'.read_iff hbuilds.scripts).1 (hkept source' hsource' sql' hne' hyields')
    have hsame := Content.script.inj (Option.some.inj (hfound.symm.trans hfound'))
    exact (String.append_left_inj _).1 hsame
  · intro source hsource sql hne hyields
    obtain ⟨place, hs⟩ := hscript hsource hne hyields
    refine (hs.read_iff hbuilds.scripts).2 ?_
    -- the script is that of its last writer, which shares the stem of the source
    obtain ⟨writer, hwriter, sql', hs', hfound⟩ | ⟨hnone, -⟩ := hbuilds.places place
    · have hshares := (hs'.sharesStem_iff hs).2 rfl
      rw [hfound, hagree writer hwriter source hsource hshares sql' sql hs'.nonempty hne hs'.yields
        hyields]
    · exact absurd hs (hnone source hsource sql)

/-! ## Two sources -/

/-- Two definition files of one table each. -/
def twoSources (first second : String) : FileTree :=
  let table (name : String) : Document := .list [.record [("name", .text name),
    ("columns", .list [.record [("name", .text "id"), ("type", .text "int")]])]]
  { files := [([first], .definition (table "t")), ([second], .definition (table "u"))] }

/-- The number of scripts, if all sources were built. -/
def Ending.written? : Ending → Option Nat
  | built written => some written
  | helped | misused _ | failed _ => none

/-- The script that is found after a command. -/
def Outcome.script? (outcome : Outcome) (path : String) : Option String :=
  match outcome.tree.read path with
  | .ok (.script sql) => some sql
  | _ => none

/-- Sources with two stems keep their scripts. -/
theorem scripts_of_two_stems :
    (runCommandLine (twoSources "a.yaml" "b.yaml") ["a.yaml", "b.yaml", "--no-format"]).ending =
        .built 2 ∧
      ∃ config : Config, ∀ source ∈ ["a.yaml", "b.yaml"],
        (∃ sql, config.Yields (twoSources "a.yaml" "b.yaml") source sql) ∧
        ∀ sql, sql ≠ "" → config.Yields (twoSources "a.yaml" "b.yaml") source sql →
          ∃ target, scriptPath (FilePath.ofText source) = .ok target ∧
            (runCommandLine (twoSources "a.yaml" "b.yaml")
              ["a.yaml", "b.yaml", "--no-format"]).tree.read target.text =
                .ok (.script (sql ++ "\n")) := by
  have hcommand : Command.ofArguments ["a.yaml", "b.yaml", "--no-format"] =
      .ok (.build { sources := ["a.yaml", "b.yaml"], noFormat := true }) := rfl
  have hwritten : (runCommandLine (twoSources "a.yaml" "b.yaml")
      ["a.yaml", "b.yaml", "--no-format"]).ending.written? = some 2 := by decide +kernel
  have hbuilt : (runCommandLine (twoSources "a.yaml" "b.yaml")
      ["a.yaml", "b.yaml", "--no-format"]).ending = .built 2 := by
    generalize (runCommandLine _ _).ending = ending at hwritten
    cases ending with
    | built written => rw [Option.some.inj hwritten]
    | _ => cases hwritten
  obtain ⟨config, -, hyields, hkeeps⟩ := runCommandLine_keeps_scripts_iff hcommand rfl hbuilt
  have hlocate {source : String} (hsource : source ∈ ["a.yaml", "b.yaml"]) :
      (twoSources "a.yaml" "b.yaml").locate source = .ok ([] ++ [source]) := by
    simp only [List.mem_cons, List.not_mem_nil, or_false] at hsource
    rcases hsource with rfl | rfl <;> rfl
  have hstems : ∀ source ∈ ["a.yaml", "b.yaml"], ∀ source' ∈ ["a.yaml", "b.yaml"],
      FilePath.stem source = FilePath.stem source' → source = source' := by decide
  have hkept := hkeeps.2 fun source hsource source' hsource' hshares sql sql' _ _ hsql hsql' => by
    obtain ⟨directory, name, name', hname, hname', hstem⟩ := hshares
    have hplace := Except.ok.inj (hname.symm.trans (hlocate hsource))
    have hplace' := Except.ok.inj (hname'.symm.trans (hlocate hsource'))
    obtain rfl := List.singleton_inj.1 (List.append_inj_right' hplace rfl)
    obtain rfl := List.singleton_inj.1 (List.append_inj_right' hplace' rfl)
    rw [← hstems name hsource name' hsource' hstem] at hsql'
    exact hsql.unique hsql'
  exact ⟨hbuilt, config, fun source hsource => ⟨hyields source hsource, hkept source hsource⟩⟩

/-- Of two sources that differ behind the last dot only, the script of the first one is lost. -/
theorem script_overwritten :
    (runCommandLine (twoSources "a.yaml" "a.yml") ["a.yaml", "--no-format"]).script?
        "a.schema.sql" = some "CREATE TABLE t (\n  id INTEGER\n);\n" ∧
      (runCommandLine (twoSources "a.yaml" "a.yml") ["a.yaml", "a.yml", "--no-format"]).script?
        "a.schema.sql" = some "CREATE TABLE u (\n  id INTEGER\n);\n" ∧
      (runCommandLine (twoSources "a.yaml" "a.yml")
        ["a.yaml", "a.yml", "--no-format"]).ending.written? = some 2 := by
  decide +kernel

end PgSchema
