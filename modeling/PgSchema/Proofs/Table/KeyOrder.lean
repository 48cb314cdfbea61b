/-
# Foreign keys follow the columns

The foreign keys of a table are written column by column, and of the keys that are listed for a
column the first one is written.  So it does not matter in which order the keys of different columns
are listed.

* `Table.forall₂_columnForeignKeys` : each column that has foreign keys, with the key written;
* `ForeignKey.Reordered` : keys listed in another order, but not those of one column;
* `Table.addForeignKeys_columns` : the statements of the foreign keys, column by column.
-/
import PgSchema.Proofs.Table.ForeignKey
import PgSchema.Proofs.Table.Switch

namespace PgSchema

namespace ForeignKey

/-- Holds for the first of the keys that are listed for a column. -/
def IsFirstFor (key : ForeignKey) (column : String) (keys : List ForeignKey) : Prop :=
  key.column = column ∧
    ∃ before after, keys = before ++ key :: after ∧ ∀ other ∈ before, other.column ≠ column

theorem isFirstFor_iff {key : ForeignKey} {column : String} {keys : List ForeignKey} :
    key.IsFirstFor column keys ↔ keys.find? (fun other => other.column == column) = some key := by
  simp [IsFirstFor, List.find?_eq_some_iff_append]

/-- Holds for the same keys listed in another order, in which the keys of each column stand one
behind the other as they did. -/
structure Reordered (keys keys' : List ForeignKey) : Prop where
  perm : keys'.Perm keys
  sameColumn : ∀ column, keys'.filter (·.column == column) = keys.filter (·.column == column)

/-- The first key of a column is the same in the other order. -/
theorem Reordered.find?_eq {keys keys' : List ForeignKey} (h : Reordered keys keys')
    (column : String) :
    keys'.find? (fun key => key.column == column) = keys.find? fun key => key.column == column := by
  rw [← List.head?_filter, ← List.head?_filter, h.sameColumn column]

/-- Neighbouring keys of different columns may change places. -/
theorem Reordered.swap {key key' : ForeignKey} (h : key.column ≠ key'.column)
    (before after : List ForeignKey) :
    Reordered (before ++ key :: key' :: after) (before ++ key' :: key :: after) := by
  refine ⟨(List.Perm.swap key key' after).append_left before, fun column => ?_⟩
  rw [List.filter_append, List.filter_append]
  by_cases hkey : key.column = column
  · have hkey' : key'.column ≠ column := fun hkey' => h (hkey.trans hkey'.symm)
    simp [List.filter_cons, hkey']
  · simp [List.filter_cons, hkey]

end ForeignKey

namespace Table

variable {t : Table} {statements : List Statement}

/-- The columns that have a foreign key, in declaration order. -/
def keyedColumns (t : Table) : List Column :=
  t.columns.filter fun c => t.foreignKeys.any fun key => key.column == c.name

theorem mem_keyedColumns_iff {c : Column} :
    c ∈ t.keyedColumns ↔ c ∈ t.columns ∧ ∃ key ∈ t.foreignKeys, key.column = c.name := by
  simp [keyedColumns]

theorem nodup_keyedColumns (t : Table) : (t.keyedColumns.map (·.name)).Nodup :=
  t.columns_nodup.sublist (List.filter_sublist.map _)

/-- A column has foreign keys if there is a first one. -/
theorem isSome_foreignKeyOf? (t : Table) (c : Column) :
    (t.foreignKeyOf? c).isSome = t.foreignKeys.any fun key => key.column == c.name := by
  rw [foreignKeyOf?, List.isSome_find?]

/-- The keys that are written stand beside the columns that have some. -/
theorem forall₂_columnForeignKeys (t : Table) :
    List.Forall₂ (fun c key => t.foreignKeyOf? c = some key) t.keyedColumns
      t.columnForeignKeys := by
  unfold keyedColumns columnForeignKeys
  generalize t.columns = columns
  induction columns with
  | nil => exact .nil
  | cons c columns ih =>
    rw [List.filter_cons, ← isSome_foreignKeyOf?, List.filterMap_cons]
    cases hkey : t.foreignKeyOf? c with
    | none => exact ih
    | some key => exact .cons hkey ih

/-- Beside each column stands a key of the column. -/
theorem map_column_columnForeignKeys (t : Table) :
    t.columnForeignKeys.map (·.column) = t.keyedColumns.map (·.name) := by
  have hkeys := t.forall₂_columnForeignKeys
  generalize t.columnForeignKeys = keys at hkeys
  generalize t.keyedColumns = columns at hkeys
  induction hkeys with
  | nil => rfl
  | cons hkey _ ih =>
    have hname := (ForeignKey.isFirstFor_iff.2 hkey).1
    rw [List.map_cons, List.map_cons, hname, ih]

/-- Without comments each key that is written is one statement. -/
theorem foreignKeyScript_withoutComments (t : Table) :
    t.foreignKeyScript false = t.columnForeignKeys.map (.addForeignKey t.name) :=
  List.map_eq_flatMap.symm

theorem addForeignKey_injective (t : Table) :
    Function.Injective (Statement.addForeignKey t.name) := fun key key' h => by
  injection h

/-- A table whose keys are listed in another order writes the same keys. -/
theorem columnForeignKeys_of_reordered {keys : List ForeignKey}
    (h : ForeignKey.Reordered t.foreignKeys keys) :
    columnForeignKeys { t with foreignKeys := keys } = t.columnForeignKeys :=
  List.filterMap_congr fun c _ => h.find?_eq c.name

/-- Keys on columns that the table has are written alike in any order that keeps the keys of each
column as they stand. -/
theorem addForeignKeys_of_reordered {keys : List ForeignKey}
    (hknown : t.checkForeignKeyColumns = .ok ())
    (h : ForeignKey.Reordered t.foreignKeys keys) (comments : Bool) :
    addForeignKeys comments { t with foreignKeys := keys } = t.addForeignKeys comments := by
  have hknown' : checkForeignKeyColumns { t with foreignKeys := keys } = .ok () := by
    rw [checkForeignKeyColumns_eq_ok_iff] at hknown ⊢
    exact fun key hkey => hknown key (h.perm.subset hkey)
  rw [addForeignKeys, addForeignKeys, hknown, hknown', columnForeignKeys_of_reordered h]
  rfl

/-- If the foreign keys of a table are written without comments, there is one statement for each
column that has some, in declaration order, and it is that of the first key listed for the column.
Listed in another order that keeps the keys of each column as they stand, the keys give the same
result. -/
theorem addForeignKeys_columns (h : t.addForeignKeys false = .ok statements) :
    (∀ name, name ∈ t.keyedColumns.map (·.name) ↔ name ∈ t.foreignKeys.map (·.column)) ∧
      (t.keyedColumns.map (·.name)).Nodup ∧ t.keyedColumns.Sublist t.columns ∧
      List.Forall₂ (fun c s => ∃ key : ForeignKey, key.IsFirstFor c.name t.foreignKeys ∧
        s = .addForeignKey t.name key) t.keyedColumns statements ∧
      statements.Nodup ∧
      ∀ keys, ForeignKey.Reordered t.foreignKeys keys → ∀ comments,
        addForeignKeys comments { t with foreignKeys := keys } = t.addForeignKeys comments := by
  obtain rfl : statements = t.columnForeignKeys.map (.addForeignKey t.name) := by
    rw [eq_of_addForeignKeys_eq_ok h, foreignKeyScript_withoutComments]
  -- every key was found to be that of a column
  obtain ⟨⟨⟩, hknown, -⟩ := bind_eq_ok_iff.1 h
  have hcolumns := checkForeignKeyColumns_eq_ok_iff.1 hknown
  refine ⟨fun name => ?_, t.nodup_keyedColumns, List.filter_sublist, ?_, ?_,
    fun keys hkeys comments => addForeignKeys_of_reordered hknown hkeys comments⟩
  · simp only [List.mem_map, mem_keyedColumns_iff]
    constructor
    · rintro ⟨c, ⟨-, key, hkey, hname⟩, rfl⟩
      exact ⟨key, hkey, hname⟩
    · rintro ⟨key, hkey, rfl⟩
      obtain ⟨c, hc, hname⟩ := hasColumn_eq_true_iff.1 (hcolumns key hkey)
      exact ⟨c, ⟨hc, key, hkey, hname.symm⟩, hname⟩
  · rw [List.forall₂_map_right_iff]
    refine t.forall₂_columnForeignKeys.imp fun c key hkey => ⟨key, ?_, rfl⟩
    exact ForeignKey.isFirstFor_iff.2 hkey
  · have hkeys : t.columnForeignKeys.Nodup := by
      refine List.Nodup.of_map (·.column) ?_
      rw [map_column_columnForeignKeys]
      exact t.nodup_keyedColumns
    exact hkeys.map t.addForeignKey_injective

/-- A foreign key without a name. -/
def link (column targetTable : String) (h : column ≠ "") : ForeignKey :=
  { column, targetTable, targetColumn := "id", onDelete := .noAction, onUpdate := .noAction,
    name := none, deferrable := false, initiallyDeferred := false, notValid := false,
    comment := none, column_nonempty := h }

/-- A table with the columns `a`, `b` and `c` and the given foreign keys. -/
def linkedTable (foreignKeys : List ForeignKey) : Table where
  name := "t"
  columns :=
    [integerColumn "a" a_ne_empty, integerColumn "b" b_ne_empty,
     integerColumn "c" (by decide)]
  indexes := []
  policies := []
  foreignKeys := foreignKeys
  constraints := []
  comment := none
  rowSecurity := false
  partition := none
  name_nonempty := t_ne_empty
  columns_nodup := by decide

def aToV : ForeignKey := link "a" "v" a_ne_empty
def bToU : ForeignKey := link "b" "u" b_ne_empty
def bToW : ForeignKey := link "b" "w" b_ne_empty

/-- The key of `a` is written first wherever it is listed, the first key of `b` follows, and `c` has
none. -/
theorem addForeignKeys_linkedTable :
    (linkedTable [bToU, bToW, aToV]).addForeignKeys false =
        .ok [.addForeignKey "t" aToV, .addForeignKey "t" bToU] ∧
      (linkedTable [bToU, bToW, aToV]).keyedColumns.map (·.name) = ["a", "b"] ∧
      [Statement.addForeignKey "t" aToV, .addForeignKey "t" bToU].Nodup ∧
      ForeignKey.Reordered [bToU, bToW, aToV] [bToU, aToV, bToW] ∧
      (linkedTable [bToU, aToV, bToW]).addForeignKeys true =
        (linkedTable [bToU, bToW, aToV]).addForeignKeys true := by
  have hkeys : (linkedTable [bToU, bToW, aToV]).addForeignKeys false =
      .ok [.addForeignKey "t" aToV, .addForeignKey "t" bToU] := rfl
  have hswap : ForeignKey.Reordered [bToU, bToW, aToV] [bToU, aToV, bToW] :=
    ForeignKey.Reordered.swap (by decide) [bToU] []
  obtain ⟨-, -, -, -, hnodup, hreordered⟩ := addForeignKeys_columns hkeys
  exact ⟨hkeys, rfl, hnodup, hswap, hreordered _ hswap true⟩

end Table
end PgSchema
