/-
# Storage parameters of indexes

An index has a fill factor of its own and a record of storage parameters, which may give another
one.  Its own is checked, those of the record are only checked by name.  So the settings that are
written name a parameter twice if both give a fill factor, and a fill factor of the record can be
any value.

* `Index.parameters_of_validate` : the settings of an index that passes its check;
* `Index.validate_doublyFilledIndex` : an index that passes with two fill factors.
-/
import PgSchema.Proofs.Result
import PgSchema.Proofs.Text.Span
import PgSchema.Statement

namespace PgSchema

/-- No storage parameter has a space in its name. -/
theorem IndexMethod.space_notMem_of_allows {method : IndexMethod} {parameter : String}
    (h : method.allowsStorageParameter parameter = true) : ' ' ∉ parameter.toList := by
  rw [allowsStorageParameter, Bool.or_eq_true, beq_iff_eq, List.contains_iff_mem] at h
  have hnames : (method.storageParameters.all fun name => !name.toList.contains ' ') = true := by
    cases method <;> decide
  rcases h with rfl | h
  · decide
  · simpa using List.all_eq_true.1 hnames parameter h

namespace Index

/-! ## Settings -/

/-- Holds for the percentages that a fill factor can be. -/
def IsFillFactor (value : String) : Prop := ∃ n : Int, 10 ≤ n ∧ n ≤ 100 ∧ value = toString n

/-- A setting as it is written. -/
def settingSql (parameter : String × String) : String := parameter.1 ++ " = " ++ parameter.2

/-- Reads the parameter and the value of a setting. -/
def readSetting (setting : String) : String × String :=
  let name := setting.toList.takeWhile (· != ' ')
  (String.ofList name, String.ofList (setting.toList.drop (name.length + 3)))

theorem readSetting_settingSql {parameter : String × String} (h : ' ' ∉ parameter.1.toList) :
    readSetting (settingSql parameter) = parameter := by
  obtain ⟨name, value⟩ := parameter
  have hsql : (settingSql (name, value)).toList =
      name.toList ++ ' ' :: '=' :: ' ' :: value.toList := by
    simp [settingSql]
  have hname := Text.takeWhile_append_cons (Text.bne_of_notMem h)
    (bne_self_eq_false ' ') ('=' :: ' ' :: value.toList)
  rw [readSetting, hsql, hname]
  simp

/-- The storage parameters in the settings of an index, with their values. -/
def parameters (index : Index) : List (String × String) := index.storageSettings.map readSetting

/-- The storage parameters that are given, the fill factor of the index first. -/
def givenParameters (index : Index) : List (String × String) :=
  (index.fillFactor.map fun n => ("fillfactor", toString n)).toList ++
    index.storageParameters.map fun entry => (entry.1, storageValue entry.2)

theorem mem_givenParameters_iff {index : Index} {parameter : String × String} :
    parameter ∈ index.givenParameters ↔
      (∃ n ∈ index.fillFactor, parameter = ("fillfactor", toString n)) ∨
        ∃ entry ∈ index.storageParameters, parameter = (entry.1, storageValue entry.2) := by
  rw [givenParameters, List.mem_append, Option.mem_toList, List.mem_map,
    Option.map_eq_some_iff]
  simp only [Option.mem_def, eq_comm]

theorem storageSettings_eq (index : Index) :
    index.storageSettings = index.givenParameters.map settingSql := by
  rw [storageSettings, givenParameters, List.map_append, List.map_map]
  cases index.fillFactor <;> rfl

/-! ## Checks -/

theorem validateFillFactor_eq_ok_iff {index : Index} :
    index.validateFillFactor = .ok () ↔
      ∀ n ∈ index.fillFactor, 10 ≤ n ∧ n ≤ 100 ∧ index.method.allowsFillFactor = true := by
  rw [validateFillFactor]
  cases index.fillFactor with
  | none => simp
  | some n =>
    simp only [Option.mem_def, Option.some.injEq, forall_eq']
    split
    · next hrange =>
      simp only [Bool.or_eq_true, decide_eq_true_eq] at hrange
      simp only [reduceCtorEq, false_iff]
      omega
    · split <;> simp_all

theorem validateStorage_eq_ok_iff {index : Index} :
    index.validateStorage = .ok () ↔
      ∀ entry ∈ index.storageParameters, index.method.allowsStorageParameter entry.1 = true := by
  rw [validateStorage]
  cases hfind : (index.storageParameters.map (·.1)).find?
      fun parameter => !index.method.allowsStorageParameter parameter with
  | none =>
    rw [List.find?_eq_none, List.forall_mem_map] at hfind
    simpa using hfind
  | some parameter =>
    have hrefused := List.find?_some hfind
    obtain ⟨entry, hmem, rfl⟩ := List.mem_map.1 (List.mem_of_find?_eq_some hfind)
    simp only [reduceCtorEq, false_iff]
    intro hall
    simp [hall entry hmem] at hrefused

/-- The checks of what an index stores come last. -/
theorem of_validate {index : Index} (h : index.validate = .ok ()) :
    index.validateFillFactor = .ok () ∧ index.validateStorage = .ok () := by
  obtain ⟨-, hrest⟩ := check_bind_eq_ok_iff.1 h
  obtain ⟨-, hrest⟩ := check_bind_eq_ok_iff.1 hrest
  exact check_bind_eq_ok_iff.1 hrest

/-! ## Settings of checked indexes -/

/-- The clause of the settings stands in the statement of the index. -/
theorem contains_storageSettings {index : Index} (h : index.storageSettings ≠ [])
    (table : String) : Text.contains (Statement.createIndex table index).sql
      ("WITH (" ++ ", ".intercalate index.storageSettings ++ ")") = true := by
  have hclause : "WITH " ++ "(" ++ ", ".intercalate index.storageSettings ++ ")" ∈
      Statement.indexClauses table index := by
    simp [Statement.indexClauses, Statement.listClause?, h]
  exact Text.contains_append_left ";" (Text.contains_intercalate hclause)

theorem forall_allowed_givenParameters {index : Index}
    (h : ∀ entry ∈ index.storageParameters,
      index.method.allowsStorageParameter entry.1 = true) :
    ∀ parameter ∈ index.givenParameters,
      index.method.allowsStorageParameter parameter.1 = true := by
  intro parameter hparameter
  obtain ⟨n, -, rfl⟩ | ⟨entry, hentry, rfl⟩ := mem_givenParameters_iff.1 hparameter
  · rfl
  · exact h entry hentry

/-- Settings whose parameters the method takes read back. -/
theorem parameters_eq {index : Index}
    (h : ∀ parameter ∈ index.givenParameters,
      index.method.allowsStorageParameter parameter.1 = true) :
    index.parameters = index.givenParameters := by
  rw [parameters, storageSettings_eq, List.map_map]
  refine (List.map_congr_left fun parameter hparameter => ?_).trans (List.map_id _)
  exact readSetting_settingSql (IndexMethod.space_notMem_of_allows (h parameter hparameter))

theorem nodup_givenParameters_iff {index : Index} :
    (index.givenParameters.map (·.1)).Nodup ↔ (index.storageParameters.map (·.1)).Nodup ∧
      (index.fillFactor.isSome → "fillfactor" ∉ index.storageParameters.map (·.1)) := by
  have hnames : index.givenParameters.map (·.1) =
      (index.fillFactor.map fun _ => "fillfactor").toList ++ index.storageParameters.map (·.1) := by
    rw [givenParameters, List.map_append, List.map_map]
    cases index.fillFactor <;> rfl
  rw [hnames]
  cases index.fillFactor with
  | none => simp
  | some n => simp [and_comm]

theorem forall_fillFactor_givenParameters_iff {index : Index}
    (h : index.validateFillFactor = .ok ()) :
    (∀ value, ("fillfactor", value) ∈ index.givenParameters → IsFillFactor value) ↔
      ∀ d, ("fillfactor", d) ∈ index.storageParameters → IsFillFactor (storageValue d) := by
  rw [validateFillFactor_eq_ok_iff] at h
  constructor
  · intro hall d hd
    exact hall _ (mem_givenParameters_iff.2 (.inr ⟨_, hd, rfl⟩))
  · intro hall value hvalue
    obtain ⟨n, hn, heq⟩ | ⟨⟨name, d⟩, hd, heq⟩ := mem_givenParameters_iff.1 hvalue
    · obtain ⟨hlow, hhigh, -⟩ := h n hn
      exact ⟨n, hlow, hhigh, (Prod.mk.inj heq).2⟩
    · obtain ⟨rfl, rfl⟩ := Prod.mk.inj heq
      exact hall d hd

/-- The settings of an index that passes its check are its fill factor and its storage parameters,
all of which the access method takes.  No parameter is set twice unless it is given twice, be it in
the record or in both places, and every fill factor is one unless the record gives another value. -/
theorem parameters_of_validate {index : Index} (h : index.validate = .ok ()) :
    index.parameters = index.givenParameters ∧
    (∀ parameter ∈ index.parameters,
      index.method.allowsStorageParameter parameter.1 = true) ∧
    (∀ n ∈ index.fillFactor, 10 ≤ n ∧ n ≤ 100 ∧ index.method.allowsFillFactor = true) ∧
    ((index.parameters.map (·.1)).Nodup ↔ (index.storageParameters.map (·.1)).Nodup ∧
      (index.fillFactor.isSome → "fillfactor" ∉ index.storageParameters.map (·.1))) ∧
    ((∀ value, ("fillfactor", value) ∈ index.parameters → IsFillFactor value) ↔
      ∀ d, ("fillfactor", d) ∈ index.storageParameters → IsFillFactor (storageValue d)) ∧
    ∀ table, index.storageSettings ≠ [] →
      Text.contains (Statement.createIndex table index).sql
        ("WITH (" ++ ", ".intercalate index.storageSettings ++ ")") = true := by
  obtain ⟨hfill, hstorage⟩ := of_validate h
  have hallowed := forall_allowed_givenParameters (validateStorage_eq_ok_iff.1 hstorage)
  rw [parameters_eq hallowed]
  exact ⟨rfl, hallowed, validateFillFactor_eq_ok_iff.1 hfill, nodup_givenParameters_iff,
    forall_fillFactor_givenParameters_iff hfill,
    fun table hne => contains_storageSettings hne table⟩

/-- An index with a fill factor and another storage parameter. -/
def compactIndex : Index where
  columns := ["a"]
  fillFactor := some 70
  storageParameters := [("deduplicate_items", .flag false)]

theorem parameters_compactIndex :
    compactIndex.validate = .ok () ∧
      compactIndex.storageSettings = ["fillfactor = 70", "deduplicate_items = off"] ∧
      compactIndex.parameters = [("fillfactor", "70"), ("deduplicate_items", "off")] ∧
      (compactIndex.parameters.map (·.1)).Nodup := by
  have hvalidate : compactIndex.validate = .ok () := rfl
  obtain ⟨hparameters, -, -, hnodup, -⟩ := parameters_of_validate hvalidate
  exact ⟨hvalidate, rfl, hparameters, hnodup.2 (by decide)⟩

/-- An index with two fill factors, the second of which is too low. -/
def doublyFilledIndex : Index where
  columns := ["a"]
  fillFactor := some 70
  storageParameters := [("fillfactor", .integer 5)]

/-- The check passes over the fill factor among the storage parameters. -/
theorem validate_doublyFilledIndex :
    doublyFilledIndex.validate = .ok () ∧
      doublyFilledIndex.parameters = [("fillfactor", "70"), ("fillfactor", "5")] ∧
      ¬ (doublyFilledIndex.parameters.map (·.1)).Nodup ∧ ¬ IsFillFactor "5" := by
  have hother : ∀ m ∈ List.range' 10 91, toString m ≠ "5" := by decide
  refine ⟨rfl, rfl, by decide, ?_⟩
  rintro ⟨n, hlow, hhigh, heq⟩
  obtain ⟨m, rfl⟩ := Int.eq_ofNat_of_zero_le (by omega : 0 ≤ n)
  exact hother m (List.mem_range'_1.2 (by omega)) heq.symm

end Index
end PgSchema
