/-
# Names of indexes

An index without a name of its own goes by one that is made of its uniqueness, its table and what it
covers.  The names of a table's indexes are not compared with one another, so several of them can go
by one name: those that cover the same, those whose columns are joined to the same text, and an
index that is given the name made for another one.

* `NameSource.name_eq_iff` : when two indexes of a table go by one name;
* `Table.createIndexes_distinct_iff` : when the statements that create the indexes of a table have
  distinct names.
-/
import PgSchema.Proofs.Table.Scope

namespace PgSchema

/-! ## Where a name comes from -/

/-- Where an index has its name from. -/
inductive NameSource
  /-- A name of its own. -/
  | own (name : String)
  /-- Its uniqueness and what it covers. -/
  | made (unique : Bool) (cover : String)
deriving DecidableEq

namespace Index

/-- What an index covers, as a name that is made for it has it. -/
def cover (index : Index) : String :=
  match index.expression with
  | some expression => "expr_" ++ String.ofList ((Text.Md5.hexDigest expression).toList.take 8)
  | none => "_".intercalate index.columns

/-- Where the index has its name from: an empty name of its own counts as none. -/
def nameSource (index : Index) : NameSource :=
  match index.name.filter (· != "") with
  | some name => .own name
  | none => .made index.unique index.cover

end Index

namespace NameSource

variable {table : String}

/-- The name of an index on a table. -/
def name (table : String) : NameSource → String
  | own name => name
  | made unique cover => (if unique then "idx_unique_" else "idx_") ++ table ++ "_" ++ cover

/-- Holds for a table that is called `unique`, or `unique` several times with underscores
between. -/
def repeatsUnique (table : String) : Bool :=
  (Text.splitAt '_' table.toList).all fun word => word == "unique".toList

/-- Holds for sources that give one name on a table, the sources in this order. -/
inductive Meets (table : String) : NameSource → NameSource → Prop
  | same (source : NameSource) : Meets table source source
  /-- The first index is given the name that is made for the second one. -/
  | given (unique : Bool) (cover : String) :
    Meets table (own ((made unique cover).name table)) (made unique cover)
  /-- The word for uniqueness is read as the name of the table, and the rest moves on by one
  word. -/
  | shifted (cover : String) (h : repeatsUnique table = true) :
    Meets table (made false ("unique_" ++ cover)) (made true cover)

/-- Holds for sources that give one name on a table. -/
def Clash (table : String) (x y : NameSource) : Prop := x.Meets table y ∨ y.Meets table x

/-! ## Words of a name -/

/-- What can be moved over a list by one place. -/
theorem append_eq_cons_append_iff {α : Type} {u : α} {ws as bs : List α} :
    ws ++ as = u :: (ws ++ bs) ↔ (∀ w ∈ ws, w = u) ∧ as = u :: bs := by
  induction ws with
  | nil => simp
  | cons w ws ih =>
    rw [List.cons_append, List.cons_append, List.cons.injEq]
    constructor
    · rintro ⟨rfl, htail⟩
      obtain ⟨hws, has⟩ := ih.1 htail
      exact ⟨List.forall_mem_cons.2 ⟨rfl, hws⟩, has⟩
    · rintro ⟨hall, has⟩
      obtain ⟨rfl, hws⟩ := List.forall_mem_cons.1 hall
      exact ⟨rfl, ih.2 ⟨hws, has⟩⟩

/-- The words of a text, between its underscores. -/
def words (s : String) : List (List Char) := Text.splitAt '_' s.toList

theorem words_inj {s u : String} : words s = words u ↔ s = u := by
  rw [words, words, (Text.splitAt_injective '_').eq_iff, String.toList_inj]

theorem words_append_underscore (s u : String) : words (s ++ "_" ++ u) = words s ++ words u := by
  have hlist : (s ++ "_" ++ u).toList = s.toList ++ '_' :: u.toList := by
    simp [String.toList_append]
  rw [words, hlist, Text.splitAt_append_separator]
  rfl

theorem words_unique_append (cover : String) :
    words ("unique_" ++ cover) = "unique".toList :: words cover :=
  words_append_underscore "unique" cover

theorem words_name_made (table cover : String) (unique : Bool) :
    words ((made unique cover).name table) =
      "idx".toList ::
        ((if unique then ["unique".toList] else []) ++ (words table ++ words cover)) := by
  cases unique with
  | false =>
    have hname : (made false cover).name table = "idx" ++ "_" ++ (table ++ "_" ++ cover) := by
      have hidx : ("idx_" : String) = "idx" ++ "_" := rfl
      simp only [name, hidx, Bool.false_eq_true, if_false, String.append_assoc]
    rw [hname, words_append_underscore, words_append_underscore]
    rfl
  | true =>
    have hname : (made true cover).name table =
        "idx" ++ "_" ++ ("unique" ++ "_" ++ (table ++ "_" ++ cover)) := by
      have hidx : ("idx_unique_" : String) = "idx" ++ "_" ++ "unique" ++ "_" := rfl
      simp only [name, hidx, if_true, String.append_assoc]
    rw [hname, words_append_underscore, words_append_underscore, words_append_underscore]
    rfl

theorem repeatsUnique_iff :
    repeatsUnique table = true ↔ ∀ word ∈ words table, word = "unique".toList := by
  simp [repeatsUnique, words, List.all_eq_true]

/-! ## Equal names -/

/-- A name without and one with the word for uniqueness are equal if the word can be moved over the
name of the table. -/
theorem name_made_eq_iff {cover cover' : String} :
    (made false cover).name table = (made true cover').name table ↔
      repeatsUnique table = true ∧ cover = "unique_" ++ cover' := by
  rw [← words_inj, words_name_made, words_name_made, List.cons.injEq]
  simp only [Bool.false_eq_true, if_false, if_true, List.nil_append, List.singleton_append,
    true_and]
  rw [append_eq_cons_append_iff, ← repeatsUnique_iff, ← words_unique_append, words_inj]

/-- Two indexes of a table go by one name exactly if their names come from the same, if one is given
the name that is made for the other, or if the word for uniqueness is lost in the table's name. -/
theorem name_eq_iff {x y : NameSource} : x.name table = y.name table ↔ Clash table x y := by
  constructor
  · intro h
    cases x with
    | own m =>
      cases y with
      | own n =>
        obtain rfl : m = n := h
        exact .inl (.same _)
      | made unique cover =>
        obtain rfl : m = (made unique cover).name table := h
        exact .inl (.given unique cover)
    | made unique cover =>
      cases y with
      | own n =>
        obtain rfl : (made unique cover).name table = n := h
        exact .inr (.given unique cover)
      | made unique' cover' =>
        by_cases hunique : unique = unique'
        · subst hunique
          rw [← words_inj, words_name_made, words_name_made] at h
          have hcover := List.append_cancel_left (List.append_cancel_left (List.cons.inj h).2)
          rw [words_inj.1 hcover]
          exact .inl (.same _)
        -- the name with the word for uniqueness has one word more
        · cases unique with
          | false =>
            obtain rfl : unique' = true := by simpa using Ne.symm hunique
            obtain ⟨htable, rfl⟩ := name_made_eq_iff.1 h
            exact .inl (.shifted cover' htable)
          | true =>
            obtain rfl : unique' = false := by simpa using Ne.symm hunique
            obtain ⟨htable, rfl⟩ := name_made_eq_iff.1 h.symm
            exact .inr (.shifted cover htable)
  · have hmeets {x y : NameSource} (h : x.Meets table y) : x.name table = y.name table := by
      cases h with
      | same => rfl
      | given => rfl
      | shifted cover htable => exact name_made_eq_iff.2 ⟨htable, rfl⟩
    rintro (h | h)
    · exact hmeets h
    · exact (hmeets h).symm

end NameSource

/-! ## The indexes of a table -/

theorem Index.name_nameSource (index : Index) (table : String) :
    index.nameSource.name table = index.effectiveName table := by
  unfold nameSource effectiveName
  cases index.name.filter (· != "") with
  | some name => rfl
  | none =>
    have hidx : ("idx_" : String) = "idx" ++ "_" := rfl
    have hunique : ("idx_unique_" : String) = "idx_unique" ++ "_" := rfl
    have hexpr : ("_expr_" : String) = "_" ++ "expr_" := rfl
    rw [NameSource.name, cover]
    cases index.expression with
    | none =>
      cases index.unique <;>
        simp only [hidx, hunique, Bool.false_eq_true, if_true, if_false, String.append_assoc]
    | some expression =>
      cases index.unique <;>
        simp only [hidx, hunique, hexpr, Bool.false_eq_true, if_true, if_false, String.append_assoc]

namespace Table

variable {t : Table} {comments : Bool} {statements : Script}

theorem creates_of_indexStatements {index : Index}
    (h : t.indexStatements comments index = .ok statements) :
    statements.flatMap (·.creates) = [.index (index.effectiveName t.name)] := by
  obtain ⟨-, -, hrest⟩ := bind_eq_ok_iff.1 h
  obtain ⟨-, -, hpure⟩ := bind_eq_ok_iff.1 hrest
  obtain rfl := Except.ok.inj hpure
  have hcomment : (if comments then
      Statement.commentOn (.index (index.effectiveName t.name)) index.comment else []).flatMap
        (·.creates) = [] := by
    unfold Statement.commentOn
    repeat' split
    all_goals rfl
  rw [List.flatMap_cons, hcomment]
  rfl

/-- The statements for the indexes of a table create one index each, under its name. -/
theorem creates_createIndexes (h : t.createIndexes comments = .ok statements) :
    statements.flatMap (·.creates) =
      t.indexes.map fun index => .index (index.effectiveName t.name) := by
  obtain ⟨parts, hparts, hpure⟩ := bind_eq_ok_iff.1 h
  obtain rfl := Except.ok.inj hpure
  have hcreates := map_eq_of_mapM_eq_ok
    (p := fun index => [CommentTarget.index (index.effectiveName t.name)])
    (q := fun part => part.flatMap (·.creates))
    (fun _ _ => creates_of_indexStatements) hparts
  rw [← List.flatMap_id, List.flatMap_assoc, List.flatMap_def]
  change (parts.map fun part => part.flatMap (·.creates)).flatten = _
  rw [hcreates, ← List.flatMap_def, List.map_eq_flatMap]

/-- The statements for the indexes of a table create these indexes in order, and have their names in
the text.  Their names are distinct exactly if no two indexes have names that clash. -/
theorem createIndexes_distinct_iff (h : t.createIndexes comments = .ok statements) :
    statements.flatMap (·.creates) =
        t.indexes.map (fun index => .index (index.effectiveName t.name)) ∧
      (∀ s ∈ statements, ∀ name, .index name ∈ s.creates →
        Text.contains s.sql ("IF NOT EXISTS " ++ name ++ " ON ") = true) ∧
      ((statements.flatMap (·.creates)).Nodup ↔
        t.indexes.Pairwise fun a b => ¬ NameSource.Clash t.name a.nameSource b.nameSource) := by
  have hcreates := creates_createIndexes h
  refine ⟨hcreates, fun s _ name hname => Statement.contains_opening hname, ?_⟩
  have hclash (a b : Index) :
      CommentTarget.index (a.effectiveName t.name) ≠ .index (b.effectiveName t.name) ↔
        ¬ NameSource.Clash t.name a.nameSource b.nameSource := by
    rw [Ne, CommentTarget.index.injEq, ← NameSource.name_eq_iff, Index.name_nameSource,
      Index.name_nameSource]
  rw [hcreates, List.Nodup, List.pairwise_map]
  simp only [hclash]

end Table

/-- A table whose last column has the names of the others in its name. -/
def indexedTable (indexes : List Index) : Table :=
  { columnsTable [integerColumn "a" a_ne_empty, integerColumn "b" b_ne_empty,
      integerColumn "a_b" (by decide)] (by decide) with indexes := indexes }

/-- Indexes of every kind whose names do not clash. -/
def namedApart : List Index :=
  [{ columns := ["a", "b"] }, { columns := ["a", "b"], unique := true },
    { expression := some "a + b" }, { name := some "by_b", columns := ["b"] }]

theorem createIndexes_namedApart :
    ∃ statements, (indexedTable namedApart).createIndexes true = .ok statements ∧
      (statements.flatMap (·.creates)).Nodup ∧
      namedApart.Pairwise fun a b => ¬ NameSource.Clash "t" a.nameSource b.nameSource := by
  have hrender : (indexedTable namedApart).createIndexes true =
      .ok (namedApart.map (.createIndex "t")) := rfl
  have hnodup : ((namedApart.map (Statement.createIndex "t")).flatMap (·.creates)).Nodup := by
    decide
  exact ⟨_, hrender, hnodup, (Table.createIndexes_distinct_iff hrender).2.2.1 hnodup⟩

/-- Indexes over the columns `a` and `b`, over the column `a_b`, and over that column by another
method. -/
def namedAlike : List Index :=
  [{ columns := ["a", "b"] }, { columns := ["a_b"] }, { columns := ["a_b"], method := .hash }]

/-- The audit finds nothing wrong with indexes of one name, and all are rendered. -/
theorem createIndexes_namedAlike :
    (indexedTable namedAlike).violations = [] ∧ ∃ statements,
      (indexedTable namedAlike).createIndexes true = .ok statements ∧
      statements.map (·.sql) =
        ["CREATE INDEX IF NOT EXISTS idx_t_a_b ON t (a, b);",
         "CREATE INDEX IF NOT EXISTS idx_t_a_b ON t (a_b);",
         "CREATE INDEX IF NOT EXISTS idx_t_a_b ON t USING hash (a_b);"] ∧
      ¬ (statements.flatMap (·.creates)).Nodup := by
  have hviolations : (indexedTable namedAlike).violations = [] := by decide
  have hrender : (indexedTable namedAlike).createIndexes true =
      .ok (namedAlike.map (.createIndex "t")) := rfl
  exact ⟨hviolations, _, hrender, by decide, by decide⟩

end PgSchema
