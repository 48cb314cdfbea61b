/-
# Column types are read back from their spelling

The SQL spelling of a column type is type text that says the parameters of the type, so the type is
read from it again.  Numbers that have more digits than a numeral may have are the one exception.

* `SqlType.parts_of_ofParts` : a type has the parameters that it is built from;
* `SqlType.parse_sql_eq_ok_iff` : the spelling taken apart;
* `SqlType.ofText_sql` : which types are read back from their spelling.
-/
import PgSchema.Proofs.SqlType.Saved
import PgSchema.Proofs.SqlType.Text

namespace PgSchema

namespace SqlType

/-- The type of the elements of an array of any depth. -/
def innermost : SqlType → SqlType
  | array element => element.innermost
  | t => t

/-- The numbers among the parameters of a type. -/
def Parts.numbers (p : Parts) : List Nat :=
  (p.length.map (·.val)).toList ++ p.precision.toList ++ p.scale.toList

/-- The parameters of a type as a type text gives them. -/
def Parts.baseText (p : Parts) : BaseText :=
  .known p.kind (p.length.map fun n => (n.val : Int)) (p.precision.map Int.ofNat)
    (p.scale.map Int.ofNat)

theorem kind_parts (t : SqlType) : t.parts.kind = t.kind := by
  cases t <;> rfl

theorem ofText_eq_ok_iff {s : String} {t : SqlType} :
    ofText s = .ok t ↔
      ∃ text, TypeText.parse s = .ok text ∧ nested (ofBase text.base) text.depth = .ok t := by
  unfold ofText
  cases TypeText.parse s with
  | error e => cases e <;> simp [Checked.broken, Checked.fault]
  | ok text => simp

/-- One pair of brackets more is one array around the type. -/
theorem nested_succ_eq_ok_iff {base : Checked SqlType} {depth : Nat} {t : SqlType} :
    nested base (depth + 1) = .ok t ↔ ∃ element, nested base depth = .ok element ∧
      t = array element := by
  rw [nested]
  cases nested base depth with
  | ok element => simp [eq_comm]
  | failed e => simp [Checked.under, Functor.map, Checked.map]

theorem ofText_append_brackets {s : String} {element : SqlType} :
    ofText (s ++ "[]") = .ok (array element) ↔ ofText s = .ok element := by
  simp only [ofText_eq_ok_iff, TypeText.parse_append_brackets, map_eq_ok_iff]
  constructor
  · rintro ⟨_, ⟨text, htext, rfl⟩, hnested⟩
    obtain ⟨_, helement, heq⟩ := nested_succ_eq_ok_iff.1 hnested
    obtain rfl := SqlType.array.inj heq
    exact ⟨text, htext, helement⟩
  · rintro ⟨text, htext, hnested⟩
    exact ⟨_, ⟨text, htext, rfl⟩, nested_succ_eq_ok_iff.2 ⟨element, hnested, rfl⟩⟩

theorem ofBase_baseText {t : SqlType} (helement : t.parts.element = none)
    (hname : t.parts.name = none) : ofBase t.parts.baseText = .ok t := by
  have hlength : checkedParam lengthField Loading.positive
      (t.parts.length.map fun n => (n.val : Int)) = .ok t.parts.length := by
    cases t.parts.length <;> simp [checkedParam, positive_integer]
  have hprecision : checkedParam precisionField Loading.natural
      (t.parts.precision.map Int.ofNat) = .ok t.parts.precision := by
    cases t.parts.precision <;> simp [checkedParam, natural_integer]
  have hscale : checkedParam scaleField Loading.natural
      (t.parts.scale.map Int.ofNat) = .ok t.parts.scale := by
    cases t.parts.scale <;> simp [checkedParam, natural_integer]
  have hparts : (⟨t.parts.kind, t.parts.length, t.parts.precision, t.parts.scale, none, none⟩ :
      Parts) = t.parts := by
    rw [← helement, ← hname]
  rw [Parts.baseText, ofBase, hlength, hprecision, hscale]
  simp only [Checked.map_ok, Checked.ok_seq_ok, Checked.ok_andThen, hparts, ofParts_parts,
    Checked.ofRule]

/-- The keywords that take numbers are words. -/
theorem isAlpha_of_mem_keyword {kind : Kind} (h : kind.family ≠ .plain)
    (hzoned : kind ≠ .timestamptz) :
    ∀ c ∈ kind.keyword.toList, c.isAlpha = true := by
  have hall : ∀ kind ∈ Kind.all, kind.family ≠ .plain → kind ≠ .timestamptz →
      kind.keyword.toList.all Char.isAlpha = true := by
    simp only [TypeText.toList_keyword]
    decide
  exact List.all_eq_true.1 (hall kind (Kind.mem_all kind) h hzoned)

theorem baseText_of_numbers_eq_nil {p : Parts} (h : p.numbers = []) :
    p.baseText = .known p.kind none none none := by
  obtain ⟨kind, length, precision, scale, element, name⟩ := p
  cases length <;> cases precision <;> cases scale <;>
    first | rfl | simp [Parts.numbers] at h

/-- The numbers of a type, read by its kind, are its parameters again. -/
theorem baseOfNumbers_numbers {t : SqlType} {n : Nat} {rest : List Nat}
    (h : t.parts.numbers = n :: rest) :
    TypeText.baseOfNumbers t.kind n (rest.map Int.ofNat) = t.parts.baseText := by
  cases t with
  | plain | array | named => simp [parts, Parts.numbers] at h
  | varchar length =>
    cases length with
    | none => simp [parts, Parts.numbers] at h
    | some length =>
      obtain ⟨rfl, rfl⟩ := List.cons.inj h
      rfl
  | char length =>
    obtain ⟨rfl, rfl⟩ := List.cons.inj h
    rfl
  | exact kind isExact size =>
    cases size with
    | none => simp [parts, Parts.numbers] at h
    | some size =>
      obtain ⟨rfl, rfl⟩ := List.cons.inj h
      simp only [TypeText.baseOfNumbers, SqlType.kind, isExact]
      cases hscale : size.scale <;> simp [parts, Parts.baseText, hscale]
  | timed kind isTimed digits =>
    cases digits with
    | none => simp [parts, Parts.numbers] at h
    | some digits =>
      obtain ⟨rfl, rfl⟩ := List.cons.inj h
      simp only [TypeText.baseOfNumbers, SqlType.kind, isTimed]
      rfl

theorem sql_array (element : SqlType) : (array element).sql = element.sql ++ "[]" := rfl

/-- A type is spelled with its keyword, and its numbers stand behind the keyword or, for a zoned
timestamp, inside it. -/
theorem sql_cases {t : SqlType} (harray : t.kind.family ≠ .array)
    (hnamed : t.kind.family ≠ .named) :
    (t.sql = t.kind.keyword ∧ t.parts.numbers = []) ∨
      (t.kind.family ≠ .plain ∧ t.kind ≠ .timestamptz ∧ ∃ n rest, t.parts.numbers = n :: rest ∧
        t.sql = t.kind.keyword ++ parenthesised (n :: rest)) ∨
      ∃ digits, t = timed .timestamptz rfl (some digits) := by
  cases t with
  | plain kind isPlain => exact .inl ⟨rfl, rfl⟩
  | varchar length =>
    have hkeyword : Kind.varchar.keyword = "VARCHAR" := by
      rw [← String.toList_inj, TypeText.toList_keyword]
      decide
    simp only [SqlType.kind, hkeyword]
    cases length with
    | none => exact .inl ⟨rfl, rfl⟩
    | some length => exact .inr (.inl ⟨by decide, by decide, length.val, [], rfl, rfl⟩)
  | char length =>
    have hkeyword : Kind.char.keyword = "CHAR" := by
      rw [← String.toList_inj, TypeText.toList_keyword]
      decide
    simp only [SqlType.kind, hkeyword]
    exact .inr (.inl ⟨by decide, by decide, length.val, [], rfl, rfl⟩)
  | exact kind isExact size =>
    cases size with
    | none => exact .inl ⟨rfl, rfl⟩
    | some size =>
      refine .inr (.inl ⟨by simp [SqlType.kind, isExact], ?_, size.precision, size.scale.toList,
        rfl, rfl⟩)
      rintro rfl
      exact absurd isExact (by decide)
  | timed kind isTimed digits =>
    cases digits with
    | none => exact .inl ⟨rfl, rfl⟩
    | some digits =>
      -- a zoned timestamp has its digits in the middle of its keyword
      by_cases hzoned : kind = .timestamptz
      · subst hzoned
        exact .inr (.inr ⟨digits, rfl⟩)
      · refine .inr (.inl ⟨by simp [SqlType.kind, isTimed], hzoned, digits.val, [], rfl, ?_⟩)
        rw [sql]
        · rfl
        · exact hzoned
  | array element => exact absurd rfl harray
  | named kind isNamed => exact absurd isNamed hnamed

/-- The spelling of a type is taken apart into its parameters, if none of its numbers is too
long. -/
theorem parse_sql_eq_ok_iff {t : SqlType} (harray : t.kind.family ≠ .array)
    (hnamed : t.kind.family ≠ .named) {text : TypeText} :
    TypeText.parse t.sql = .ok text ↔
      (∀ n ∈ t.parts.numbers, n < 10 ^ Number.maxDigits) ∧ text = ⟨0, t.parts.baseText⟩ := by
  rcases sql_cases harray hnamed with ⟨hsql, hnumbers⟩ | ⟨hplain, hzoned, n, rest, hnumbers, hsql⟩ |
    ⟨digits, rfl⟩
  · rw [hsql, TypeText.parse_keyword harray hnamed, baseText_of_numbers_eq_nil hnumbers, hnumbers,
      kind_parts]
    simp [eq_comm]
  · rw [hsql, hnumbers, ← baseOfNumbers_numbers hnumbers]
    exact TypeText.parse_call_eq_ok_iff harray hnamed (isAlpha_of_mem_keyword hplain hzoned)
  · have hshort : ∀ n ∈ [digits.val], n < 10 ^ Number.maxDigits := by
      have hdigits : digits.val < 10 ^ 1 := digits.isLt.trans_le (by decide)
      have hle : 10 ^ 1 ≤ 10 ^ Number.maxDigits := Nat.pow_le_pow_right (by decide) (by decide)
      simpa using hdigits.trans_le hle
    have hparse : TypeText.parse (timed .timestamptz rfl (some digits)).sql = _ :=
      TypeText.parse_zoned digits
    rw [hparse]
    constructor
    · intro h
      exact ⟨hshort, (Except.ok.inj h).symm⟩
    · rintro ⟨-, rfl⟩
      rfl

/-- A type without arrays around it is read back from its spelling. -/
theorem ofText_sql_base {t : SqlType} (harray : t.kind.family ≠ .array)
    (hnamed : t.kind.family ≠ .named) :
    ofText t.sql = .ok t ↔ ∀ n ∈ t.parts.numbers, n < 10 ^ Number.maxDigits := by
  have helement : t.parts.element = none := by
    cases t <;> first | rfl | exact absurd rfl harray
  have hname : t.parts.name = none := by
    cases t <;> first | rfl | exact absurd ‹_› hnamed
  constructor
  · intro h
    obtain ⟨text, htext, -⟩ := ofText_eq_ok_iff.1 h
    exact ((parse_sql_eq_ok_iff harray hnamed).1 htext).1
  · intro hshort
    have htext := (parse_sql_eq_ok_iff harray hnamed).2 ⟨hshort, rfl⟩
    exact ofText_eq_ok_iff.2 ⟨_, htext, ofBase_baseText helement hname⟩

theorem noLength_eq_ok_iff {p : Parts} {u : Unit} : p.noLength = .ok u ↔ p.length = none := by
  unfold Parts.noLength
  cases p.length <;> simp

theorem noPrecision_eq_ok_iff {p : Parts} {u : Unit} :
    p.noPrecision = .ok u ↔ p.precision = none ∧ p.scale = none := by
  unfold Parts.noPrecision
  cases p.precision <;> cases p.scale <;> simp

theorem noElement_eq_ok_iff {p : Parts} {u : Unit} : p.noElement = .ok u ↔ p.element = none := by
  unfold Parts.noElement
  cases p.element <;> simp

theorem noName_eq_ok_iff {p : Parts} {u : Unit} : p.noName = .ok u ↔ p.name = none := by
  unfold Parts.noName
  cases p.name <;> simp

theorem of_exactSize_eq_ok {p : Parts} {size : Option ExactSize} (h : p.exactSize = .ok size) :
    p.precision = size.map (·.precision) ∧ p.scale = size.bind (·.scale) := by
  obtain ⟨kind, length, precision, scale, element, name⟩ := p
  unfold Parts.exactSize at h
  grind

theorem of_fractionalDigits_eq_ok {p : Parts} {digits : Option (Fin (maxFractionalDigits + 1))}
    (h : p.fractionalDigits = .ok digits) :
    p.precision = digits.map (·.val) ∧ p.scale = none := by
  obtain ⟨kind, length, precision, scale, element, name⟩ := p
  unfold Parts.fractionalDigits at h
  grind

/-- The families with one kind only. -/
theorem kind_of_family (kind : Kind) :
    (kind.family = .varchar → kind = .varchar) ∧ (kind.family = .char → kind = .char) ∧
      (kind.family = .array → kind = .array) := by
  cases kind <;> decide

/-- The parameters that a type is built from are its parameters. -/
theorem parts_of_ofParts {p : Parts} {t : SqlType} (h : ofParts p = .ok t) : t.parts = p := by
  obtain ⟨kind, length, precision, scale, element, name⟩ := p
  -- each family refuses the parameters that its types do not have
  unfold ofParts at h
  split at h
  · next hfamily =>
    simp only [bind_eq_ok_iff, noLength_eq_ok_iff, noPrecision_eq_ok_iff, noElement_eq_ok_iff,
      noName_eq_ok_iff, exists_const] at h
    obtain ⟨rfl, ⟨rfl, rfl⟩, rfl, rfl, h⟩ := h
    obtain rfl := Except.ok.inj h
    rfl
  · next hfamily =>
    obtain rfl : kind = .varchar := (kind_of_family kind).1 hfamily
    simp only [bind_eq_ok_iff, noPrecision_eq_ok_iff, noElement_eq_ok_iff, noName_eq_ok_iff,
      exists_const] at h
    obtain ⟨⟨rfl, rfl⟩, rfl, rfl, h⟩ := h
    obtain rfl := Except.ok.inj h
    rfl
  · next hfamily =>
    obtain rfl : kind = .char := (kind_of_family kind).2.1 hfamily
    cases length with
    | none => simp at h
    | some length =>
      simp only [bind_eq_ok_iff, noPrecision_eq_ok_iff, noElement_eq_ok_iff, noName_eq_ok_iff,
        exists_const] at h
      obtain ⟨⟨rfl, rfl⟩, rfl, rfl, h⟩ := h
      obtain rfl := Except.ok.inj h
      rfl
  · next hfamily =>
    simp only [bind_eq_ok_iff, noLength_eq_ok_iff, noElement_eq_ok_iff, noName_eq_ok_iff,
      exists_const] at h
    obtain ⟨rfl, size, hsize, rfl, rfl, h⟩ := h
    obtain rfl := Except.ok.inj h
    obtain ⟨rfl, rfl⟩ := of_exactSize_eq_ok hsize
    rfl
  · next hfamily =>
    simp only [bind_eq_ok_iff, noLength_eq_ok_iff, noElement_eq_ok_iff, noName_eq_ok_iff,
      exists_const] at h
    obtain ⟨rfl, digits, hdigits, rfl, rfl, h⟩ := h
    obtain rfl := Except.ok.inj h
    obtain ⟨rfl, rfl⟩ := of_fractionalDigits_eq_ok hdigits
    rfl
  · next hfamily =>
    obtain rfl : kind = .array := (kind_of_family kind).2.2 hfamily
    simp only [bind_eq_ok_iff, noLength_eq_ok_iff, noPrecision_eq_ok_iff, exists_const] at h
    obtain ⟨rfl, ⟨rfl, rfl⟩, h⟩ := h
    cases element with
    | none => simp at h
    | some element =>
      simp only [bind_eq_ok_iff, noName_eq_ok_iff, exists_const] at h
      obtain ⟨rfl, h⟩ := h
      obtain rfl := Except.ok.inj h
      rfl
  · next hfamily =>
    simp only [bind_eq_ok_iff, noLength_eq_ok_iff, noPrecision_eq_ok_iff, noElement_eq_ok_iff,
      exists_const] at h
    obtain ⟨rfl, ⟨rfl, rfl⟩, rfl, h⟩ := h
    cases name with
    | none => simp at h
    | some name =>
      simp only at h
      split at h
      · obtain rfl := Except.ok.inj h
        rfl
      · simp at h

/-! ### Numbers of type text -/

theorem cast_of_positive {n : Int} {value : Length}
    (h : Loading.positive (.integer n) = .ok value) : (value.val : Int) = n := by
  simp only [Loading.positive, Loading.integer, Checked.ok_andThen] at h
  split at h
  · obtain rfl := Checked.ok.inj h
    simp only
    omega
  · simp [Checked.fault] at h

theorem cast_of_natural {n : Int} {value : Nat}
    (h : Loading.natural (.integer n) = .ok value) : Int.ofNat value = n := by
  simp only [Loading.natural, Loading.integer, Checked.ok_andThen] at h
  split at h
  · obtain rfl := Checked.ok.inj h
    simp only [Int.ofNat_eq_natCast]
    omega
  · simp [Checked.fault] at h

/-- A number that is accepted as a parameter is the parameter. -/
theorem map_of_checkedParam {α : Type} {field : FieldName} {read : Document → Checked α}
    {number : α → Int} (hread : ∀ n value, read (.integer n) = .ok value → number value = n)
    {number? : Option Int} {value? : Option α} (h : checkedParam field read number? = .ok value?) :
    value?.map number = number? := by
  unfold checkedParam at h
  cases number? with
  | none =>
    obtain rfl := Checked.ok.inj h
    rfl
  | some n =>
    obtain ⟨value, hvalue, rfl⟩ := Checked.map_eq_ok_iff.1 (Checked.under_eq_ok_iff.1 h)
    rw [Option.map_some, hread n value hvalue]

/-- A type that is built from a known kind and numbers has that kind and these numbers. -/
theorem baseText_of_ofBase_known {kind : Kind} {length precision scale : Option Int} {t : SqlType}
    (h : ofBase (.known kind length precision scale) = .ok t) :
    t.parts.baseText = .known kind length precision scale := by
  rw [ofBase] at h
  obtain ⟨p, hp, hrule⟩ := Checked.andThen_eq_ok_iff.1 h
  obtain ⟨_, scale', htwo, hscale, rfl⟩ := Checked.seq_eq_ok_iff.1 hp
  obtain ⟨_, precision', hone, hprecision, rfl⟩ := Checked.seq_eq_ok_iff.1 htwo
  obtain ⟨length', hlength, rfl⟩ := Checked.map_eq_ok_iff.1 hone
  rw [parts_of_ofParts (Checked.ofRule_eq_ok_iff.1 hrule), Parts.baseText,
    map_of_checkedParam (fun _ _ => cast_of_positive) hlength,
    map_of_checkedParam (fun _ _ => cast_of_natural) hprecision,
    map_of_checkedParam (fun _ _ => cast_of_natural) hscale]

/-- A type that is built from a known kind and numbers has that kind and no larger numbers. -/
theorem of_ofBase_known {kind : Kind} {length precision scale : Option Int} {t : SqlType}
    {bound : Nat} (h : ofBase (.known kind length precision scale) = .ok t)
    (hbound : ∀ number? ∈ [length, precision, scale], ∀ n ∈ number?, n.natAbs < bound) :
    t.kind = kind ∧ ∀ n ∈ t.parts.numbers, n < bound := by
  obtain ⟨hkind, rfl, rfl, rfl⟩ := BaseText.known.inj (baseText_of_ofBase_known h)
  refine ⟨by rw [← kind_parts, hkind], fun n hn => ?_⟩
  simp only [List.forall_mem_cons, Option.mem_def, Option.map_eq_some_iff] at hbound
  obtain ⟨hlength, hprecision, hscale, -⟩ := hbound
  simp only [Parts.numbers, List.mem_append, Option.mem_toList, Option.map_eq_some_iff] at hn
  rcases hn with (⟨value, hvalue, rfl⟩ | hvalue) | hvalue
  · exact hlength _ ⟨value, hvalue, rfl⟩
  · exact hprecision _ ⟨n, hvalue, rfl⟩
  · exact hscale _ ⟨n, hvalue, rfl⟩

/-! ### Types read back -/

/-- A type whose elements are no named type is read back from its spelling exactly when its
numbers are not too long. -/
theorem ofText_sql_eq_ok_iff {t : SqlType} (h : t.innermost.kind.family ≠ .named) :
    ofText t.sql = .ok t ↔ ∀ n ∈ t.innermost.parts.numbers, n < 10 ^ Number.maxDigits := by
  induction t with
  | array element ih => rw [sql_array, ofText_append_brackets, ih h, innermost]
  | plain kind isPlain => exact ofText_sql_base (by simp [SqlType.kind, isPlain]) h
  | varchar => exact ofText_sql_base (by simp [SqlType.kind, Kind.family]) h
  | char => exact ofText_sql_base (by simp [SqlType.kind, Kind.family]) h
  | exact kind isExact => exact ofText_sql_base (by simp [SqlType.kind, isExact]) h
  | timed kind isTimed => exact ofText_sql_base (by simp [SqlType.kind, isTimed]) h
  | named kind isNamed => exact absurd isNamed h

/-- What stands before the brackets of a type text is read back from its spelling. -/
theorem ofText_sql_of_ofBase {cs : List Char} {base : BaseText} {t : SqlType}
    (hbare : TypeText.IsBare cs) (hparse : TypeText.parseBase cs = .ok base)
    (h : ofBase base = .ok t) : ofText t.sql = .ok t := by
  cases base with
  | known kind length precision scale =>
    obtain ⟨harray, hnamed, hshort⟩ := TypeText.known_of_parseBase hparse
    obtain ⟨rfl, hnumbers⟩ := of_ofBase_known h hshort
    exact (ofText_sql_base harray hnamed).2 hnumbers
  | custom name =>
    obtain rfl := TypeText.name_of_parseBase hparse
    have hparts := parts_of_ofParts (Checked.ofRule_eq_ok_iff.1 h)
    have hsql : t.sql = String.ofList cs := by
      cases t with
      | named kind _ name =>
        obtain ⟨-, hname⟩ : kind = .custom ∧ name = String.ofList cs := by
          simpa [parts] using hparts
        exact hname
      | _ => simp [parts] at hparts
    refine ofText_eq_ok_iff.2 ⟨⟨0, .custom (String.ofList cs)⟩, ?_, h⟩
    rw [hsql, TypeText.parse_of_isBare hbare, hparse]
    rfl

/-- Arrays over what is read back are read back. -/
theorem ofText_sql_of_nested {base : Checked SqlType}
    (hbase : ∀ t, base = .ok t → ofText t.sql = .ok t) {depth : Nat} {t : SqlType}
    (h : nested base depth = .ok t) : ofText t.sql = .ok t := by
  induction depth generalizing t with
  | zero => exact hbase t h
  | succ depth ih =>
    obtain ⟨element, helement, rfl⟩ := nested_succ_eq_ok_iff.1 h
    exact ofText_append_brackets.2 (ih helement)

/-- A type that was read from a text is read back from its spelling. -/
theorem ofText_sql_of_ofText {s : String} {t : SqlType} (h : ofText s = .ok t) :
    ofText t.sql = .ok t := by
  obtain ⟨_, htext, hnested⟩ := ofText_eq_ok_iff.1 h
  obtain ⟨base, hbase, rfl⟩ := map_eq_ok_iff.1 htext
  have hread : ∀ t, ofBase base = .ok t → ofText t.sql = .ok t := fun _ ht =>
    ofText_sql_of_ofBase (TypeText.isBare_rest s) hbase ht
  exact ofText_sql_of_nested hread hnested

/-- A type whose elements are no named type is read back from its spelling exactly when its numbers
are not too long, and a type that was read from a text is read back from its spelling. -/
theorem ofText_sql (t : SqlType) :
    (t.innermost.kind.family ≠ .named → (ofText t.sql = .ok t ↔
      ∀ n ∈ t.innermost.parts.numbers, n < 10 ^ Number.maxDigits)) ∧
    ((∃ s, ofText s = .ok t) → ofText t.sql = .ok t) :=
  ⟨ofText_sql_eq_ok_iff, fun ⟨_, h⟩ => ofText_sql_of_ofText h⟩

/-- An array of prices. -/
def prices : SqlType := array (exact .decimal rfl (some ⟨10, some 2, by decide, by decide⟩))

/-- The array of prices is read back from its spelling, and what is read from a short name is read
back from the full one. -/
theorem ofText_sql_prices :
    prices.innermost.kind.family ≠ .named ∧ ofText prices.sql = .ok prices ∧
      ofText "int" = .ok (plain .integer rfl) ∧
      ofText (plain .integer rfl).sql = .ok (plain .integer rfl) := by
  have hnamed : prices.innermost.kind.family ≠ .named := by decide
  have hshort : ∀ n ∈ prices.innermost.parts.numbers, n < 10 ^ Number.maxDigits := by
    have hsmall : ∀ n ∈ prices.innermost.parts.numbers, n < 10 ^ 2 := by decide
    exact fun n hn => (hsmall n hn).trans_le (Nat.pow_le_pow_right (by decide) (by decide))
  have hint : ofText "int" = .ok (plain .integer rfl) := by
    have hbare : TypeText.IsBare ['i', 'n', 't'] := TypeText.isBare_of_hasBareEnds (by decide)
    exact ofText_eq_ok_iff.2 ⟨_, TypeText.parse_of_isBare hbare, rfl⟩
  exact ⟨hnamed, ((ofText_sql prices).1 hnamed).2 hshort, hint, (ofText_sql _).2 ⟨_, hint⟩⟩

/-- A character type whose length has one digit too many. -/
def tooLong : SqlType := varchar (some ⟨10 ^ Number.maxDigits, Nat.pow_pos (by decide)⟩)

/-- A number with too many digits keeps a type from being read back. -/
theorem ofText_sql_tooLong : tooLong.innermost.kind.family ≠ .named ∧
    ¬ ∃ t, ofText tooLong.sql = .ok t := by
  have harray : tooLong.kind.family ≠ .array := by simp [tooLong, SqlType.kind, Kind.family]
  have hnamed : tooLong.kind.family ≠ .named := by simp [tooLong, SqlType.kind, Kind.family]
  refine ⟨hnamed, ?_⟩
  rintro ⟨t, h⟩
  obtain ⟨text, htext, -⟩ := ofText_eq_ok_iff.1 h
  obtain ⟨hshort, -⟩ := (parse_sql_eq_ok_iff harray hnamed).1 htext
  exact lt_irrefl _ (hshort (10 ^ Number.maxDigits) (by simp [tooLong, parts, Parts.numbers]))

end SqlType
end PgSchema
