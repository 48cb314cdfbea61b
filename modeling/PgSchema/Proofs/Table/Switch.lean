/-
# Switches that only leave out

A step either refuses or contributes statements that can be written down without looking at what
it checks.  What is written down depends on the switches for comments and indexes in a simple way:
a switch that is off leaves statements out, and all others stay as they are and where they are.
What is left out can be told from the first words of the statements.

* `Table.result_script_eq_ok_iff` : the script of a table, written down;
* `Statement.keywords_prefix_sql` : the first words of a statement;
* `Table.script_switches` : the scripts with a switch off.
-/
import Mathlib.Data.List.Basic
import PgSchema.Proofs.Table.Key
import PgSchema.Proofs.Table.Mode
import PgSchema.Proofs.Text.Span

namespace PgSchema

variable {t : Table} {config : Config} {script : Script}

/-! ## Contributions -/

/-- A statement and, where comments are written, a comment behind it. -/
def Statement.commented (comments : Bool) (target : CommentTarget) (text : Option String)
    (s : Statement) : Script :=
  s :: if comments then commentOn target text else []

namespace Table

/-- The statements of the indexes, with their comments. -/
def indexScript (comments : Bool) (t : Table) : Script :=
  t.indexes.flatMap fun index =>
    (Statement.createIndex t.name index).commented comments
      (.index (index.effectiveName t.name)) index.comment

/-- The statements of the foreign keys, with their comments. -/
def foreignKeyScript (comments : Bool) (t : Table) : Script :=
  t.columnForeignKeys.flatMap fun key =>
    (Statement.addForeignKey t.name key).commented comments
      (.constraint t.name (key.effectiveName t.name)) key.comment

/-- The statements of row security, with their comments. -/
def securityScript (comments : Bool) (t : Table) : Script :=
  (if t.rowSecurity then [.enableRowSecurity t.name] else []) ++
    t.policies.flatMap fun policy =>
      (Statement.createPolicy t.name policy).commented comments (.policy t.name policy.name)
        policy.comment

theorem eq_of_createIndexes_eq_ok {comments : Bool} (h : t.createIndexes comments = .ok script) :
    script = t.indexScript comments := by
  obtain ⟨parts, hparts, hpure⟩ := bind_eq_ok_iff.1 h
  obtain rfl := Except.ok.inj hpure
  refine congrArg List.flatten (eq_map_of_mapM_eq_ok (fun index part hpart => ?_) hparts)
  obtain ⟨-, -, hrest⟩ := bind_eq_ok_iff.1 hpart
  obtain ⟨-, -, hpure⟩ := bind_eq_ok_iff.1 hrest
  exact (Except.ok.inj hpure).symm

theorem eq_of_addForeignKeys_eq_ok {comments : Bool} (h : t.addForeignKeys comments = .ok script) :
    script = t.foreignKeyScript comments := by
  obtain ⟨-, -, hrest⟩ := bind_eq_ok_iff.1 h
  obtain ⟨parts, hparts, hpure⟩ := bind_eq_ok_iff.1 hrest
  obtain rfl := Except.ok.inj hpure
  refine congrArg List.flatten (eq_map_of_mapM_eq_ok (fun key part hpart => ?_) hparts)
  obtain ⟨s, hs, hpure⟩ := bind_eq_ok_iff.1 hpart
  obtain rfl := Except.ok.inj hpure
  unfold foreignKeyStatement at hs
  split at hs
  · simp at hs
  · obtain rfl := Except.ok.inj hs
    rfl

theorem eq_of_secureRows_eq_ok {comments : Bool} (h : t.secureRows comments = .ok script) :
    script = t.securityScript comments := by
  obtain ⟨parts, hparts, hpure⟩ := bind_eq_ok_iff.1 h
  obtain rfl := Except.ok.inj hpure
  refine congrArg (_ ++ List.flatten ·)
    (eq_map_of_mapM_eq_ok (fun policy part hpart => ?_) hparts)
  obtain ⟨s, hs, hpure⟩ := bind_eq_ok_iff.1 hpart
  obtain rfl := Except.ok.inj hpure
  unfold policyStatement at hs
  split at hs
  · simp at hs
  · obtain rfl := Except.ok.inj hs
    rfl

end Table

/-- What a step contributes to a script if it does not refuse. -/
def Step.contribution (config : Config) (t : Table) : Step → Script
  | createTable unlessExists =>
    [.createTable t.name unlessExists (t.elements config.explicitNullability) t.partition]
  | dropTable => [t.dropStatement]
  | addColumns => columnStatements config t
  | addConstraints =>
    if config.migration.addsConstraints && config.migration.guards then
      t.addMissing (t.constraints.map .constraint)
    else []
  | createIndexes => if config.migration.createsIndexes then t.indexScript config.comments else []
  | addForeignKeys => t.foreignKeyScript config.comments
  | secureRows => t.securityScript config.comments
  | writeComments => if config.comments then t.allComments else []

theorem Step.eq_contribution {step : Step} (h : step.statements config t = .ok script) :
    script = step.contribution config t := by
  cases step with
  | createTable unlessExists =>
    obtain ⟨s, hs, hpure⟩ := bind_eq_ok_iff.1 h
    obtain rfl := Except.ok.inj hpure
    rw [Table.eq_of_createStatement_eq_ok hs, contribution]
  | dropTable => exact (Except.ok.inj h).symm
  | addColumns => exact (Except.ok.inj h).symm
  | addConstraints =>
    rw [statements] at h
    rw [contribution]
    split at h
    · next hadds =>
      obtain ⟨-, -, hpure⟩ := bind_eq_ok_iff.1 h
      rw [if_pos hadds]
      exact (Except.ok.inj hpure).symm
    · next hadds =>
      rw [if_neg hadds]
      exact (Except.ok.inj h).symm
  | createIndexes =>
    rw [statements] at h
    rw [contribution]
    split at h
    · next hcreates => rw [if_pos hcreates, Table.eq_of_createIndexes_eq_ok h]
    · next hcreates =>
      rw [if_neg hcreates]
      exact (Except.ok.inj h).symm
  | addForeignKeys => exact Table.eq_of_addForeignKeys_eq_ok h
  | secureRows => exact Table.eq_of_secureRows_eq_ok h
  | writeComments => exact (Except.ok.inj h).symm

theorem Step.result_runAll_eq_ok_iff {steps : List Step} :
    (runAll config t steps).result = .ok script ↔
      (∀ step ∈ steps, step.Asks config t) ∧ script = steps.flatMap (contribution config t) := by
  have heq (script' : Script) (h : (runAll config t steps).result = .ok script') :
      script' = steps.flatMap (contribution config t) := by
    rw [result_runAll] at h
    obtain ⟨parts, hparts, rfl⟩ := map_eq_ok_iff.1 h
    exact congrArg List.flatten (eq_map_of_mapM_eq_ok (fun _ _ => eq_contribution) hparts)
  rw [← exists_runAll_iff]
  constructor
  · exact fun h => ⟨⟨script, h⟩, heq script h⟩
  · rintro ⟨⟨script', h⟩, rfl⟩
    rw [h, heq script' h]

/-- The script of a table is what its steps contribute, unless one of them refuses. -/
theorem Table.result_script_eq_ok_iff :
    (t.script config).result = .ok script ↔
      (∀ step ∈ config.migration.mode.steps, step.Asks config t) ∧
        script = config.migration.mode.steps.flatMap (Step.contribution config t) := by
  rw [Table.script, Run.result_bind, Run.result_report]
  exact Step.result_runAll_eq_ok_iff

/-! ## First words -/

/-- What a comment says first of what it is about. -/
def CommentTarget.keyword : CommentTarget → String
  | table _ => "TABLE "
  | column _ _ => "COLUMN "
  | constraint _ _ => "CONSTRAINT "
  | index _ => "INDEX "
  | policy _ _ => "POLICY "

namespace Statement

/-- The words that a statement starts with. -/
def keywords : Statement → String
  | createTable _ _ _ _ => "CREATE TABLE "
  | dropTable _ => "DROP TABLE "
  | addColumn _ _ | addForeignKey _ _ | enableRowSecurity _ => "ALTER TABLE "
  | addMissing _ _ => "DO $$"
  | createIndex _ index => if index.unique then "CREATE UNIQUE INDEX " else "CREATE INDEX "
  | createPolicy _ _ => "CREATE POLICY "
  | comment target _ => "COMMENT ON " ++ target.keyword

theorem exists_indexClauses_eq (table : String) (index : Index) :
    ∃ first rest, indexClauses table index =
      "CREATE" :: ((if index.unique then ["UNIQUE"] else []) ++ "INDEX" :: first :: rest) := by
  unfold indexClauses
  simp only [List.append_assoc, List.cons_append, List.nil_append]
  cases index.concurrent with
  | false => exact ⟨_, _, rfl⟩
  | true => exact ⟨_, _, rfl⟩

theorem keywords_prefix_indexClauses (table : String) (index : Index) :
    (if index.unique then "CREATE UNIQUE INDEX " else "CREATE INDEX ").toList <+:
      (" ".intercalate (indexClauses table index)).toList := by
  obtain ⟨first, rest, hclauses⟩ := exists_indexClauses_eq table index
  refine ⟨(" ".intercalate (first :: rest)).toList, ?_⟩
  rw [hclauses]
  cases index.unique with
  | false => simp [String.intercalate_cons_cons]
  | true => simp [String.intercalate_cons_cons]

/-- A statement starts with its words. -/
theorem keywords_prefix_sql (s : Statement) : s.keywords.toList <+: s.sql.toList := by
  cases s with
  | createTable table unlessExists elements partition =>
    rw [sql_createTable]
    refine Text.prefix_append (Text.prefix_append (Text.prefix_append (Text.prefix_append ?_)))
    cases unlessExists <;> simp [keywords]
  | dropTable table => exact Text.prefix_append (Text.prefix_append (by simp [keywords]))
  | addColumn table d =>
    exact Text.prefix_append (Text.prefix_append (Text.prefix_append (Text.prefix_append
      (List.prefix_refl _))))
  | addMissing table additions => exact Text.prefix_intercalate (List.prefix_refl _)
  | createIndex table index => exact Text.prefix_append (keywords_prefix_indexClauses table index)
  | addForeignKey table key =>
    exact Text.prefix_append (Text.prefix_intercalate
      (Text.prefix_append (Text.prefix_append (Text.prefix_append (List.prefix_refl _)))))
  | enableRowSecurity table => exact Text.prefix_append (Text.prefix_append (List.prefix_refl _))
  | createPolicy table policy =>
    exact Text.prefix_append (Text.prefix_intercalate
      (Text.prefix_append (Text.prefix_append (Text.prefix_append (List.prefix_refl _)))))
  | comment target text =>
    refine Text.prefix_append (Text.prefix_append (Text.prefix_append ?_))
    rw [keywords, String.toList_append, String.toList_append]
    refine (List.prefix_append_right_inj _).2 ?_
    cases target with
    | table t => exact Text.prefix_append (List.prefix_refl _)
    | column t c =>
      exact Text.prefix_append (Text.prefix_append (Text.prefix_append (List.prefix_refl _)))
    | constraint t c =>
      exact Text.prefix_append (Text.prefix_append (Text.prefix_append (List.prefix_refl _)))
    | index i => exact Text.prefix_append (List.prefix_refl _)
    | policy t p =>
      exact Text.prefix_append (Text.prefix_append (Text.prefix_append (List.prefix_refl _)))

/-- What a statement starts with is told from its words, if these do not end too early. -/
theorem startsWith_sql (s : Statement) {start : String}
    (h : ¬ s.keywords.toList <+: start.toList) :
    Text.startsWith s.sql start = Text.startsWith s.keywords start := by
  rw [Bool.eq_iff_iff, Text.startsWith, Text.startsWith, List.isPrefixOf_iff_prefix,
    List.isPrefixOf_iff_prefix]
  constructor
  · intro hsql
    exact (List.prefix_or_prefix_of_prefix hsql s.keywords_prefix_sql).resolve_right h
  · exact fun hkeywords => hkeywords.trans s.keywords_prefix_sql

/-- Holds for a comment. -/
def isComment : Statement → Bool
  | comment _ _ => true
  | _ => false

/-- Holds for a new index and for a comment on an index. -/
def concernsIndex : Statement → Bool
  | createIndex _ _ | comment (.index _) _ => true
  | _ => false

theorem startsWith_comment (s : Statement) : Text.startsWith s.sql "COMMENT ON" = s.isComment := by
  cases s with
  | createIndex table index =>
    rw [startsWith_sql] <;> simp only [keywords, isComment] <;> split <;> decide
  | comment target text =>
    rw [startsWith_sql] <;>
    simp only [keywords, isComment] <;> cases target <;> simp only [CommentTarget.keyword] <;>
    decide
  | _ => rw [startsWith_sql] <;> simp only [keywords, isComment] <;> decide

/-- What starts a statement that has to do with an index. -/
def indexStarts : List String := ["CREATE INDEX", "CREATE UNIQUE INDEX", "COMMENT ON INDEX"]

theorem startsWith_index (s : Statement) :
    indexStarts.any (Text.startsWith s.sql) = s.concernsIndex := by
  have hwords (start : String) (hstart : start ∈ indexStarts) :
      Text.startsWith s.sql start = Text.startsWith s.keywords start := by
    refine s.startsWith_sql ?_
    simp only [indexStarts, List.mem_cons, List.not_mem_nil, or_false] at hstart
    rcases hstart with rfl | rfl | rfl <;> cases s with
    | createIndex table index => simp only [keywords]; split <;> decide
    | comment target text =>
      simp only [keywords]
      cases target <;> simp only [CommentTarget.keyword] <;> decide
    | _ => simp only [keywords]; decide
  have hany : indexStarts.any (Text.startsWith s.sql) =
      indexStarts.any (Text.startsWith s.keywords) := by
    simp only [indexStarts, List.any_cons, List.any_nil, hwords "CREATE INDEX" (by decide),
      hwords "CREATE UNIQUE INDEX" (by decide), hwords "COMMENT ON INDEX" (by decide)]
  rw [hany]
  cases s with
  | createIndex table index => simp only [keywords, concernsIndex]; split <;> decide
  | comment target text =>
    simp only [keywords]
    cases target <;> simp only [CommentTarget.keyword, concernsIndex] <;> decide
  | _ => simp only [keywords, concernsIndex]; decide

end Statement

/-! ## Comments -/

section Comments

variable {target : CommentTarget} {text : Option String} {s s' : Statement} {comments : Bool}

theorem Statement.exists_of_mem_commentOn (h : s ∈ commentOn target text) :
    ∃ text', s = .comment target text' := by
  unfold commentOn at h
  split at h
  · exact ⟨_, List.mem_singleton.1 h⟩
  · simp at h

theorem Statement.eq_or_exists_of_mem_commented (h : s' ∈ s.commented comments target text) :
    s' = s ∨ ∃ text', s' = .comment target text' := by
  unfold commented at h
  rcases List.mem_cons.1 h with rfl | hcomment
  · exact .inl rfl
  · split at hcomment
    · exact .inr (exists_of_mem_commentOn hcomment)
    · simp at hcomment

theorem Statement.filter_commentOn :
    (commentOn target text).filter (fun s => !s.isComment) = [] := by
  refine List.filter_eq_nil_iff.2 fun s hs => ?_
  obtain ⟨text', rfl⟩ := exists_of_mem_commentOn hs
  simp [isComment]

theorem Statement.filter_commented (hs : s.isComment = false) :
    (s.commented comments target text).filter (fun s => !s.isComment) =
      s.commented false target text := by
  unfold commented
  rw [List.filter_cons_of_pos (by simp [hs])]
  cases comments with
  | false => rfl
  | true => rw [if_pos rfl, filter_commentOn, if_neg Bool.false_ne_true]

namespace Table

theorem filter_indexScript (comments : Bool) (t : Table) :
    (t.indexScript comments).filter (fun s => !s.isComment) = t.indexScript false := by
  rw [indexScript, List.filter_flatMap]
  exact List.flatMap_congr fun _ _ => Statement.filter_commented rfl

theorem filter_foreignKeyScript (comments : Bool) (t : Table) :
    (t.foreignKeyScript comments).filter (fun s => !s.isComment) = t.foreignKeyScript false := by
  rw [foreignKeyScript, List.filter_flatMap]
  exact List.flatMap_congr fun _ _ => Statement.filter_commented rfl

theorem filter_securityScript (comments : Bool) (t : Table) :
    (t.securityScript comments).filter (fun s => !s.isComment) = t.securityScript false := by
  rw [securityScript, List.filter_append, List.filter_flatMap]
  congr 1
  · split <;> rfl
  · exact List.flatMap_congr fun _ _ => Statement.filter_commented rfl

theorem concernsIndex_of_mem_indexScript {comments : Bool} (hs : s ∈ t.indexScript comments) :
    s.concernsIndex = true := by
  obtain ⟨index, -, hindex⟩ := List.mem_flatMap.1 hs
  rcases Statement.eq_or_exists_of_mem_commented hindex with rfl | ⟨text, rfl⟩
  · rfl
  · rfl

theorem concernsIndex_of_mem_foreignKeyScript {comments : Bool}
    (hs : s ∈ t.foreignKeyScript comments) : s.concernsIndex = false := by
  obtain ⟨key, -, hkey⟩ := List.mem_flatMap.1 hs
  rcases Statement.eq_or_exists_of_mem_commented hkey with rfl | ⟨text, rfl⟩
  · rfl
  · rfl

theorem concernsIndex_of_mem_securityScript {comments : Bool}
    (hs : s ∈ t.securityScript comments) : s.concernsIndex = false := by
  rcases List.mem_append.1 hs with hsecurity | hpolicy
  · split at hsecurity
    · rw [List.mem_singleton.1 hsecurity]
      rfl
    · simp at hsecurity
  · obtain ⟨policy, -, hpolicy⟩ := List.mem_flatMap.1 hpolicy
    rcases Statement.eq_or_exists_of_mem_commented hpolicy with rfl | ⟨text, rfl⟩
    · rfl
    · rfl

/-- Every comment on a table and its parts is on the table, a column or a constraint. -/
theorem exists_of_mem_allComments (hs : s ∈ t.allComments) :
    ∃ target text, s = .comment target text ∧ ∀ i, target ≠ .index i := by
  rcases List.mem_append.1 hs with hfirst | hconstraint
  · rcases List.mem_append.1 hfirst with htable | hcolumn
    · obtain ⟨text, rfl⟩ := Statement.exists_of_mem_commentOn htable
      exact ⟨_, text, rfl, nofun⟩
    · obtain ⟨c, -, hc⟩ := List.mem_flatMap.1 hcolumn
      obtain ⟨text, rfl⟩ := Statement.exists_of_mem_commentOn hc
      exact ⟨_, text, rfl, nofun⟩
  · obtain ⟨c, -, hc⟩ := List.mem_flatMap.1 hconstraint
    obtain ⟨text, rfl⟩ := Statement.exists_of_mem_commentOn hc
    exact ⟨_, text, rfl, nofun⟩

/-- A block of additions neither comments nor has to do with an index. -/
theorem plain_of_mem_addMissing {additions : List Addition} (hs : s ∈ t.addMissing additions) :
    s.isComment = false ∧ s.concernsIndex = false := by
  unfold addMissing at hs
  split at hs
  · simp at hs
  · rw [List.mem_singleton.1 hs]
    exact ⟨rfl, rfl⟩

theorem plain_of_mem_columnStatements (hs : s ∈ Step.columnStatements config t) :
    s.isComment = false ∧ s.concernsIndex = false := by
  unfold Step.columnStatements at hs
  split at hs
  · simp at hs
  · split at hs
    · exact plain_of_mem_addMissing hs
    · obtain ⟨d, -, rfl⟩ := List.mem_map.1 hs
      exact ⟨rfl, rfl⟩

end Table

end Comments

/-! ## Switches -/

/-- The configuration with the switch for comments off. -/
def Config.withoutComments (config : Config) : Config := { config with comments := false }

/-- The configuration with the switch for indexes off. -/
def Config.withoutIndexes (config : Config) : Config :=
  { config with migration := { config.migration with createsIndexes := false } }

namespace Step

/-- Without comments a step contributes everything but its comments. -/
theorem contribution_withoutComments (step : Step) :
    step.contribution config.withoutComments t =
      (step.contribution config t).filter fun s => !s.isComment := by
  cases step with
  | createTable unlessExists => rfl
  | dropTable => rfl
  | addColumns =>
    refine (List.filter_eq_self.2 fun s hs => ?_).symm
    rw [(Table.plain_of_mem_columnStatements hs).1, Bool.not_false]
  | addConstraints =>
    refine (List.filter_eq_self.2 fun s hs => ?_).symm
    rw [contribution] at hs
    split at hs
    · rw [(Table.plain_of_mem_addMissing hs).1, Bool.not_false]
    · simp at hs
  | createIndexes =>
    change (if config.migration.createsIndexes then t.indexScript false else []) = _
    rw [contribution]
    split
    · rw [Table.filter_indexScript]
    · rfl
  | addForeignKeys => exact (Table.filter_foreignKeyScript config.comments t).symm
  | secureRows => exact (Table.filter_securityScript config.comments t).symm
  | writeComments =>
    refine (List.filter_eq_nil_iff.2 fun s hs => ?_).symm
    rw [contribution] at hs
    split at hs
    · obtain ⟨target, text, rfl, -⟩ := Table.exists_of_mem_allComments hs
      simp [Statement.isComment]
    · simp at hs

/-- Without indexes a step contributes everything but what has to do with them. -/
theorem contribution_withoutIndexes (step : Step) :
    step.contribution config.withoutIndexes t =
      (step.contribution config t).filter fun s => !s.concernsIndex := by
  cases step with
  | createTable unlessExists => rfl
  | dropTable => rfl
  | addColumns =>
    refine (List.filter_eq_self.2 fun s hs => ?_).symm
    rw [(Table.plain_of_mem_columnStatements hs).2, Bool.not_false]
  | addConstraints =>
    refine (List.filter_eq_self.2 fun s hs => ?_).symm
    rw [contribution] at hs
    split at hs
    · rw [(Table.plain_of_mem_addMissing hs).2, Bool.not_false]
    · simp at hs
  | createIndexes =>
    refine (List.filter_eq_nil_iff.2 fun s hs => ?_).symm
    rw [contribution] at hs
    split at hs
    · rw [Table.concernsIndex_of_mem_indexScript hs]
      decide
    · simp at hs
  | addForeignKeys =>
    refine (List.filter_eq_self.2 fun s hs => ?_).symm
    rw [Table.concernsIndex_of_mem_foreignKeyScript hs, Bool.not_false]
  | secureRows =>
    refine (List.filter_eq_self.2 fun s hs => ?_).symm
    rw [Table.concernsIndex_of_mem_securityScript hs, Bool.not_false]
  | writeComments =>
    refine (List.filter_eq_self.2 fun s hs => ?_).symm
    rw [contribution] at hs
    split at hs
    · obtain ⟨target, text, rfl, hindex⟩ := Table.exists_of_mem_allComments hs
      cases target with
      | index i => exact absurd rfl (hindex i)
      | _ => rfl
    · simp at hs

/-- A switch that is off asks nothing more of a table. -/
theorem asks_withoutComments_iff (step : Step) :
    step.Asks config.withoutComments t ↔ step.Asks config t := by
  cases step <;> exact Iff.rfl

theorem Asks.withoutIndexes {step : Step} (h : step.Asks config t) :
    step.Asks config.withoutIndexes t := by
  cases step with
  | createIndexes => exact fun hcreates => absurd hcreates Bool.false_ne_true
  | _ => exact h

end Step

/-- If a table has a script, turning comments off leaves out exactly the statements that start as
comments do, and turning indexes off exactly those that start as new indexes and comments on
indexes do.  All others stay, in the same order. -/
theorem Table.script_switches (h : (t.script config).result = .ok script) :
    (t.script config.withoutComments).result =
        .ok (script.filter fun s => !Text.startsWith s.sql "COMMENT ON") ∧
      (t.script config.withoutIndexes).result =
        .ok (script.filter fun s => !Statement.indexStarts.any (Text.startsWith s.sql)) := by
  obtain ⟨hasks, rfl⟩ := result_script_eq_ok_iff.1 h
  simp only [Statement.startsWith_comment, Statement.startsWith_index, List.filter_flatMap]
  constructor
  · refine result_script_eq_ok_iff.2
      ⟨fun step hstep => (Step.asks_withoutComments_iff step).2 (hasks step hstep), ?_⟩
    exact List.flatMap_congr fun step _ => (Step.contribution_withoutComments step).symm
  · refine result_script_eq_ok_iff.2 ⟨fun step hstep => (hasks step hstep).withoutIndexes, ?_⟩
    exact List.flatMap_congr fun step _ => (Step.contribution_withoutIndexes step).symm

/-- The script of the table of orders has six statements; one is a comment, another one creates an
index. -/
theorem script_switches_orders :
    ∃ script, (ordersTable.script {}).result = .ok script ∧ script.length = 6 ∧
      (∃ plain, (ordersTable.script (Config.withoutComments {})).result = .ok plain ∧
        plain = script.filter (fun s => !Text.startsWith s.sql "COMMENT ON") ∧
        plain.length = 5) ∧
      ∃ bare, (ordersTable.script (Config.withoutIndexes {})).result = .ok bare ∧
        bare = script.filter (fun s => !Statement.indexStarts.any (Text.startsWith s.sql)) ∧
        bare.length = 5 := by
  have hscript : (ordersTable.script {}).result = .ok _ := rfl
  obtain ⟨hcomments, hindexes⟩ := Table.script_switches hscript
  refine ⟨_, hscript, rfl, ⟨_, hcomments, rfl, ?_⟩, _, hindexes, rfl, ?_⟩
  · simp only [Statement.startsWith_comment]
    rfl
  · simp only [Statement.startsWith_index]
    rfl

end PgSchema
