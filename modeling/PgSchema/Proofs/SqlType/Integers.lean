/-
# The integers of type text

A type text may hold a list of integers in its parentheses.  The spelling of the type that is read
from it holds the first of them, as many as the kind takes; a kind that takes none refuses any.
What is left over is dropped without a word.

* `integersIn` : the integers that a text holds in its first parentheses;
* `SqlType.integersIn_sql_of_ofText` : which of them the spelling of the type holds;
* `SqlType.integersIn_sql_surplus` : an integer that is dropped.
-/
import PgSchema.Proofs.SqlType.Spelling

namespace PgSchema

open Text

/-! ## Texts in parentheses -/

namespace TypeText

/-- What stands between the first parenthesis that opens and the next one that closes. -/
def inside (cs : List Char) : List Char :=
  match cs.dropWhile (· != '(') with
  | [] => []
  | _ :: rest => rest.takeWhile (· != ')')

theorem inside_of_notMem {cs : List Char} (h : '(' ∉ cs) : inside cs = [] := by
  have hdrop : cs.dropWhile (· != '(') = [] := List.dropWhile_eq_nil_iff.2 (bne_of_notMem h)
  rw [inside, hdrop]

theorem inside_call {name params rest : List Char} (hname : '(' ∉ name) (hparams : ')' ∉ params) :
    inside (name ++ '(' :: (params ++ ')' :: rest)) = params := by
  rw [inside, dropWhile_append_cons (bne_of_notMem hname) (by decide)]
  exact takeWhile_append_cons (bne_of_notMem hparams) (by decide) rest

/-- A zoned time has its digits in its first parentheses. -/
theorem of_splitZoned? {cs : List Char} {split : NameAndParams} (h : splitZoned? cs = some split) :
    ∃ name params rest, cs = name ++ '(' :: (params ++ ')' :: rest) ∧ '(' ∉ name ∧ ')' ∉ params ∧
      split.params = some params := by
  unfold splitZoned? at h
  split at h
  · next rest hopen =>
    simp only at h
    split at h
    · next blank zone hclose =>
      split at h
      · obtain rfl := Option.some.inj h
        obtain ⟨hrest, hparams⟩ := of_dropWhile_bne_eq_cons hclose
        -- in front of the parenthesis there are letters and blanks only
        refine ⟨cs.takeWhile Char.isAlpha ++ (cs.dropWhile Char.isAlpha).takeWhile isBlank, _,
          blank :: zone, ?_, ?_, hparams, rfl⟩
        · rw [← hrest, ← hopen, List.append_assoc, List.takeWhile_append_dropWhile,
            List.takeWhile_append_dropWhile]
        · rw [List.mem_append]
          rintro (hmem | hmem)
          · exact absurd (List.all_eq_true.1 List.all_takeWhile _ hmem) (by decide)
          · exact absurd (List.all_eq_true.1 List.all_takeWhile _ hmem) (by decide)
      · cases h
    · cases h
  · cases h

/-- A name has its parameters in the parentheses behind it, if there are any. -/
theorem of_splitParams? {cs : List Char} {split : NameAndParams}
    (h : splitParams? cs = some split) :
    ('(' ∉ cs ∧ split.params = none) ∨
      ∃ name params rest, cs = name ++ '(' :: (params ++ ')' :: rest) ∧ '(' ∉ name ∧ ')' ∉ params ∧
        split.params = some params := by
  unfold splitParams? at h
  simp only at h
  split at h
  · split at h
    · next hnone =>
      obtain rfl := Option.some.inj h
      refine .inl ⟨fun hmem => ?_, rfl⟩
      simpa using List.dropWhile_eq_nil_iff.1 hnone '(' hmem
    · next c rest hopen =>
      split at h
      · next hclose =>
        obtain rfl := Option.some.inj h
        obtain ⟨hcs, hname⟩ := of_dropWhile_bne_eq_cons hopen
        obtain ⟨hrest, hparams⟩ := of_dropWhile_bne_eq_cons (beq_iff_eq.1 hclose)
        exact .inr ⟨_, _, [], by rw [← hrest, ← hcs], hname, hparams, rfl⟩
      · cases h
  · cases h

/-- The parameters of a text without brackets are what stands inside of it, whatever stands around
it. -/
theorem inside_of_split {cs : List Char} {split : NameAndParams}
    (h : ((splitZoned? cs).orElse fun _ => splitParams? cs) = some split) {lead tail : List Char}
    (hlead : '(' ∉ lead) (htail : '(' ∉ tail) :
    inside (lead ++ cs ++ tail) = split.params.getD [] := by
  have hcases : ('(' ∉ cs ∧ split.params = none) ∨
      ∃ name params rest, cs = name ++ '(' :: (params ++ ')' :: rest) ∧ '(' ∉ name ∧ ')' ∉ params ∧
        split.params = some params := by
    cases hzoned : splitZoned? cs with
    | none =>
      rw [hzoned] at h
      exact of_splitParams? h
    | some zoned =>
      rw [hzoned] at h
      exact .inr (Option.some.inj h ▸ of_splitZoned? hzoned)
  rcases hcases with ⟨hcs, hparams⟩ | ⟨name, params, rest, rfl, hname, hin, hparams⟩
  · rw [hparams, inside_of_notMem (by simp [hlead, hcs, htail])]
    rfl
  · have hnotMem : '(' ∉ lead ++ name := by simp [hlead, hname]
    have hcall : lead ++ (name ++ '(' :: (params ++ ')' :: rest)) ++ tail =
        (lead ++ name) ++ '(' :: (params ++ ')' :: (rest ++ tail)) := by
      simp
    rw [hparams, hcall, inside_call hnotMem hin]
    rfl

/-- Brackets and blanks are all that is cut off the end of a text, which is given from its end. -/
theorem exists_splitBrackets_eq (cs : List Char) :
    ∃ removed, cs = removed ++ (splitBrackets cs).2 ∧ '(' ∉ removed := by
  have hblank (cs : List Char) : '(' ∉ cs.takeWhile isBlank := fun hmem =>
    absurd (List.all_eq_true.1 List.all_takeWhile _ hmem) (by decide)
  induction cs using splitBrackets.induct with
  | case1 cs rest hcs depth base hrest ih =>
    obtain ⟨removed, hremoved, hnotMem⟩ := ih
    refine ⟨cs.takeWhile isBlank ++ ']' :: '[' :: removed, ?_, ?_⟩
    · rw [splitBrackets_of_closed hcs, List.append_assoc, List.cons_append, List.cons_append,
        ← hremoved, ← hcs, List.takeWhile_append_dropWhile]
    · simp [hblank, hnotMem]
  | case2 cs hnone =>
    refine ⟨cs.takeWhile isBlank, ?_, hblank cs⟩
    rw [splitBrackets_of_open hnone, List.takeWhile_append_dropWhile]

/-- A type text is a text without brackets and, around it, blanks and brackets. -/
theorem exists_parseBase_of_parse {s : String} {text : TypeText} (h : parse s = .ok text) :
    ∃ cs lead tail, parseBase cs = .ok text.base ∧ s.toList = lead ++ cs ++ tail ∧ '(' ∉ lead ∧
      '(' ∉ tail := by
  obtain ⟨base, hbase, rfl⟩ := map_eq_ok_iff.1 h
  obtain ⟨removed, hremoved, hnotMem⟩ :=
    exists_splitBrackets_eq (s.toList.dropWhile isBlank).reverse
  refine ⟨_, s.toList.takeWhile isBlank, removed.reverse, hbase, ?_, fun hmem => ?_, ?_⟩
  · rw [List.append_assoc, ← List.reverse_append, ← hremoved, List.reverse_reverse,
      List.takeWhile_append_dropWhile]
  · exact absurd (List.all_eq_true.1 List.all_takeWhile _ hmem) (by decide)
  · rwa [List.mem_reverse]

/-! ## Lists of integers -/

theorem digitValue?_of_isBlank {c : Char} (h : isBlank c = true) : digitValue? c = none := by
  obtain ⟨range, hrange, hle⟩ := CharSet.contains_iff.1 h
  have hapart : ∀ range ∈ blanks, ∀ z ∈ zeros, range.2 < z ∨ z + 10 ≤ range.1 := by decide
  rw [digitValue?, Option.map_eq_none_iff, List.find?_eq_none]
  intro z hz
  have := hapart range hrange z hz
  simp only [Bool.and_eq_true, decide_eq_true_eq, not_and]
  omega

/-- Blanks are no integer. -/
theorem readInteger_of_blank {cs : List Char} (h : ∀ c ∈ cs, isBlank c = true) (n : Int) :
    Number.readInteger (String.ofList cs) ≠ .ok n := by
  have htrim : ∀ c ∈ trimWhere isWhiteSpace cs, isBlank c = true := by
    intro c hc
    rw [trimWhere, List.mem_reverse] at hc
    exact h c ((List.dropWhile_suffix _).subset
      (List.mem_reverse.1 ((List.dropWhile_suffix _).subset hc)))
  rw [Number.readInteger, String.toList_ofList]
  generalize trimWhere isWhiteSpace cs = rest at htrim
  cases rest with
  | nil =>
    intro h
    cases h
  | cons c rest =>
    have hc : isBlank c = true := htrim c List.mem_cons_self
    -- a blank is no sign, no underscore and no digit
    have hsign : Number.splitSign (c :: rest) = (false, c :: rest) := by
      rw [Number.splitSign]
      · intro cs heq
        rw [(List.cons.inj heq).1] at hc
        exact absurd hc (by decide)
      · intro cs heq
        rw [(List.cons.inj heq).1] at hc
        exact absurd hc (by decide)
    have hunderscore : (c == '_') = false := by
      rw [beq_eq_false_iff_ne]
      rintro rfl
      exact absurd hc (by decide)
    have hvalues : Number.digitValues? digitValue? (c :: rest) = none := by
      rw [Number.digitValues?, Number.digitValuesFrom, hunderscore, digitValue?_of_isBlank hc]
      rfl
    simp only [hsign, hvalues]
    intro h
    cases h

/-- Integers with commas between them are read as the numbers of a type text. -/
theorem numbers_of_mapM {params : List Char} {ns : List Int}
    (h : (splitAt ',' params).mapM (fun piece => Number.readInteger (String.ofList piece)) =
      .ok ns) : numbers params = .ok ns := by
  have hkeep : (splitAt ',' params).filter (fun piece => !piece.all isBlank) =
      splitAt ',' params := by
    rw [List.filter_eq_self]
    intro piece hpiece
    obtain ⟨n, hn⟩ := exists_mapM_eq_ok_iff.1 ⟨ns, h⟩ piece hpiece
    rw [Bool.not_eq_true', Bool.eq_false_iff]
    exact fun hall => readInteger_of_blank (List.all_eq_true.1 hall) n hn
  rw [numbers, hkeep, h]

/-- The base text that a known kind and a list of integers make. -/
def baseOfIntegers (kind : Kind) : List Int → BaseText
  | [] => .known kind none none none
  | first :: rest => baseOfNumbers kind first rest

end TypeText

/-- The integers between the first parentheses of a text, if that is what stands there. -/
def integersIn (s : String) : Except Number.IntegerFault (List Int) :=
  match TypeText.inside s.toList with
  | [] => .ok []
  | params =>
    (splitAt ',' params).mapM fun piece => Number.readInteger (String.ofList piece)

/-- A type text with integers in it says its kind and these integers. -/
theorem base_of_integersIn {s : String} {text : TypeText} {ns : List Int} {kind : Kind}
    {length precision scale : Option Int} (h : TypeText.parse s = .ok text)
    (hbase : text.base = .known kind length precision scale) (hns : integersIn s = .ok ns) :
    text.base = TypeText.baseOfIntegers kind ns := by
  obtain ⟨cs, lead, tail, hparse, hs, hlead, htail⟩ := TypeText.exists_parseBase_of_parse h
  rw [hbase] at hparse ⊢
  unfold TypeText.parseBase at hparse
  split at hparse
  · simp at hparse
  · next split hsplit =>
    rw [integersIn, hs, TypeText.inside_of_split hsplit hlead htail] at hns
    split at hparse
    · simp at hparse
    · generalize split.params.getD [] = params at hns hparse
      rcases TypeText.baseOfParams_eq_ok_iff.1 hparse with ⟨rfl, hknown⟩ |
        ⟨hne, first, rest, hnumbers, hknown⟩
      · obtain rfl := Except.ok.inj hns
        obtain ⟨rfl, rfl, rfl, rfl⟩ := BaseText.known.inj hknown
        rfl
      · cases params with
        | nil => exact absurd rfl hne
        | cons c params =>
          have hlist := TypeText.numbers_of_mapM hns
          rw [hnumbers, Except.ok.injEq] at hlist
          obtain ⟨rfl, -⟩ := TypeText.of_baseOfNumbers hknown.symm
          rw [← hlist, hknown]
          rfl

/-- How many numbers a kind takes. -/
def Kind.capacity (kind : Kind) : Nat :=
  match kind.family with
  | .varchar | .char | .timed => 1
  | .exact => 2
  | .plain | .array | .named => 0

namespace SqlType

variable {t : SqlType}

theorem map_numbers_of_baseText {p : Parts} {kind : Kind} {length precision scale : Option Int}
    (h : p.baseText = .known kind length precision scale) :
    p.numbers.map Int.ofNat = length.toList ++ precision.toList ++ scale.toList := by
  obtain ⟨-, rfl, rfl, rfl⟩ := BaseText.known.inj h
  simp only [Parts.numbers, List.map_append, Option.toList_map, List.map_map]
  rfl

theorem numbers_of_plain (h : t.kind.family = .plain) : t.parts.numbers = [] := by
  cases t with
  | plain => rfl
  | varchar | char | array => cases h
  | exact _ hkind | timed _ hkind | named _ hkind => cases hkind.symm.trans h

/-- A type that is built from a list of integers has the first of them, as many as its kind takes.
A kind that takes none has none to be built from. -/
theorem numbers_of_integers {ns : List Int} (harray : t.kind.family ≠ .array)
    (hnamed : t.kind.family ≠ .named)
    (h : t.parts.baseText = TypeText.baseOfIntegers t.kind ns) :
    t.parts.numbers.map Int.ofNat = ns.take t.kind.capacity ∧
      (t.kind.capacity = 0 → ns = []) := by
  cases ns with
  | nil => exact ⟨by simpa using map_numbers_of_baseText h, fun _ => rfl⟩
  | cons n ns =>
    rw [TypeText.baseOfIntegers, TypeText.baseOfNumbers] at h
    -- the family tells how many of the integers a type has
    unfold Kind.capacity
    cases hfamily : t.kind.family with
    | plain =>
      have hnumbers := map_numbers_of_baseText (by simpa only [hfamily] using h)
      rw [numbers_of_plain hfamily] at hnumbers
      simp at hnumbers
    | varchar | char | timed =>
      refine ⟨?_, fun hnone => absurd hnone (by decide)⟩
      rw [map_numbers_of_baseText (by simpa only [hfamily] using h)]
      simp
    | exact =>
      refine ⟨?_, fun hnone => absurd hnone (by decide)⟩
      rw [map_numbers_of_baseText (by simpa only [hfamily] using h)]
      cases ns <;> simp
    | array => exact absurd hfamily harray
    | named => exact absurd hfamily hnamed

/-! ## Spellings -/

theorem integersIn_of_notMem {s : String} (h : '(' ∉ s.toList) : integersIn s = .ok [] := by
  rw [integersIn, TypeText.inside_of_notMem h]

/-- The numbers behind a name are found whatever follows them. -/
theorem integersIn_call {name tail : String} (hname : '(' ∉ name.toList) {n : Nat}
    {params : List Nat} (hshort : ∀ m ∈ n :: params, m < 10 ^ Number.maxDigits) :
    integersIn (name ++ parenthesised (n :: params) ++ tail) =
      .ok ((n :: params).map Int.ofNat) := by
  have hparams : ')' ∉ TypeText.decimals (n :: params) :=
    TypeText.notMem_decimals (by decide) (by decide) _
  have hlist : (name ++ parenthesised (n :: params) ++ tail).toList =
      name.toList ++ '(' :: (TypeText.decimals (n :: params) ++ ')' :: tail.toList) := by
    rw [String.toList_append, String.toList_append, TypeText.toList_parenthesised]
    simp
  rw [integersIn, hlist, TypeText.inside_call hname hparams]
  split
  · next hnil => exact absurd hnil (TypeText.decimals_ne_nil n params)
  · rw [← TypeText.numbers_decimals_eq_mapM, TypeText.numbers_decimals_eq_ok_iff]
    exact ⟨hshort, rfl⟩

/-- The spelling of a type that is no array holds its numbers, whatever follows it. -/
theorem integersIn_sql_append (harray : t.kind.family ≠ .array) (hnamed : t.kind.family ≠ .named)
    (hshort : ∀ n ∈ t.parts.numbers, n < 10 ^ Number.maxDigits) {tail : String}
    (htail : '(' ∉ tail.toList) :
    integersIn (t.sql ++ tail) = .ok (t.parts.numbers.map Int.ofNat) := by
  have hkeyword : '(' ∉ t.kind.keyword.toList := (TypeText.keyword_reads t.kind harray hnamed).1
  rcases sql_cases harray hnamed with ⟨hsql, hnumbers⟩ | ⟨-, -, n, rest, hnumbers, hsql⟩ |
    ⟨digits, rfl⟩
  · rw [hsql, hnumbers]
    exact integersIn_of_notMem (by simp [hkeyword, htail])
  · rw [hnumbers] at hshort ⊢
    rw [hsql]
    exact integersIn_call hkeyword hshort
  · have hsql : (timed .timestamptz rfl (some digits)).sql ++ tail =
        "TIMESTAMP" ++ parenthesised [digits.val] ++ (" WITH TIME ZONE" ++ tail) :=
      String.append_assoc
    rw [hsql]
    exact integersIn_call (by decide) hshort

/-- A type read from a text is spelled like what stands before the brackets, and brackets. -/
theorem exists_of_nested {base : Checked SqlType} {depth : Nat} (h : nested base depth = .ok t) :
    ∃ e tail, base = .ok e ∧ t.innermost = e.innermost ∧ t.sql = e.sql ++ tail ∧
      '(' ∉ tail.toList := by
  induction depth generalizing t with
  | zero => exact ⟨t, "", h, rfl, (String.append_empty).symm, by decide⟩
  | succ depth ih =>
    obtain ⟨element, helement, rfl⟩ := nested_succ_eq_ok_iff.1 h
    obtain ⟨e, tail, hbase, hinner, hsql, htail⟩ := ih helement
    refine ⟨e, tail ++ "[]", hbase, hinner, ?_, ?_⟩
    · rw [sql_array, hsql, String.append_assoc]
    · rw [String.toList_append, List.mem_append]
      exact fun hmem => hmem.elim htail (by decide)

theorem innermost_eq_self (h : t.kind.family ≠ .array) : t.innermost = t := by
  cases t with
  | array => exact absurd rfl h
  | _ => rfl

/-- A type text whose parentheses hold integers gives a type whose spelling holds the first of them,
as many as its kind takes: all of them exactly when they are no more than that.  A kind that takes
none refuses every integer. -/
theorem integersIn_sql_of_ofText {s : String} {ns : List Int} (h : ofText s = .ok t)
    (hkind : t.innermost.kind ≠ .custom) (hns : integersIn s = .ok ns) :
    integersIn t.sql = .ok (ns.take t.innermost.kind.capacity) ∧
      (integersIn t.sql = .ok ns ↔ ns.length ≤ t.innermost.kind.capacity) ∧
      (t.innermost.kind.capacity = 0 → ns = []) := by
  obtain ⟨text, hparse, hnested⟩ := ofText_eq_ok_iff.1 h
  obtain ⟨e, tail, hbase, hinner, hsql, htail⟩ := exists_of_nested hnested
  rw [hinner] at hkind ⊢
  cases htext : text.base with
  | custom name =>
    rw [htext, ofBase, Checked.ofRule_eq_ok_iff] at hbase
    have hcustom : e.kind = .custom := by rw [← kind_parts, parts_of_ofParts hbase]
    rw [innermost_eq_self (by rw [hcustom]; decide)] at hkind
    exact absurd hcustom hkind
  | known kind length precision scale =>
    obtain ⟨cs, -, -, hcs, -⟩ := TypeText.exists_parseBase_of_parse hparse
    rw [htext] at hcs hbase
    obtain ⟨harray, hnamed, hbound⟩ := TypeText.known_of_parseBase hcs
    obtain ⟨rfl, hshort⟩ := of_ofBase_known hbase hbound
    -- the element was built from the integers that the text says
    have hintegers : e.parts.baseText = TypeText.baseOfIntegers e.kind ns := by
      rw [baseText_of_ofBase_known hbase, ← htext]
      exact base_of_integersIn hparse htext hns
    obtain ⟨hnumbers, hnone⟩ := numbers_of_integers harray hnamed hintegers
    have hspelled : integersIn t.sql = .ok (ns.take e.kind.capacity) := by
      rw [hsql, integersIn_sql_append harray hnamed hshort htail, hnumbers]
    rw [innermost_eq_self harray]
    refine ⟨hspelled, ?_, hnone⟩
    rw [hspelled, Except.ok.injEq, List.take_eq_self_iff]

/-- The array of prices keeps its two integers. -/
theorem integersIn_sql_prices :
    ofText "decimal(10, 2)[]" = .ok prices ∧ prices.innermost.kind ≠ .custom ∧
      integersIn "decimal(10, 2)[]" = .ok [10, 2] ∧ integersIn prices.sql = .ok [10, 2] := by
  have hbare : TypeText.IsBare "decimal(10, 2)".toList :=
    TypeText.isBare_of_hasBareEnds (by decide)
  have hprice : ofText "decimal(10, 2)" = .ok prices.innermost :=
    ofText_eq_ok_iff.2 ⟨_, TypeText.parse_of_isBare hbare, rfl⟩
  have happend : "decimal(10, 2)[]" = "decimal(10, 2)" ++ "[]" := by decide
  have htext : ofText "decimal(10, 2)[]" = .ok prices := by
    rw [happend]
    exact ofText_append_brackets.2 hprice
  have hkind : prices.innermost.kind ≠ .custom := by decide
  have hns : integersIn "decimal(10, 2)[]" = .ok [10, 2] := by decide
  have hfit : [10, 2].length ≤ prices.innermost.kind.capacity := by decide
  exact ⟨htext, hkind, hns, (integersIn_sql_of_ofText htext hkind hns).2.1.2 hfit⟩

/-- The second of two integers is dropped from a character type. -/
theorem integersIn_sql_surplus :
    ∃ t, ofText "varchar(5,6)" = .ok t ∧ t.innermost.kind ≠ .custom ∧
      integersIn "varchar(5,6)" = .ok [5, 6] ∧ integersIn t.sql = .ok [5] ∧
      integersIn t.sql ≠ .ok [5, 6] := by
  have hbare : TypeText.IsBare "varchar(5,6)".toList := TypeText.isBare_of_hasBareEnds (by decide)
  have htext : ofText "varchar(5,6)" = .ok (varchar (some ⟨5, by decide⟩)) :=
    ofText_eq_ok_iff.2 ⟨_, TypeText.parse_of_isBare hbare, rfl⟩
  exact ⟨_, htext, by decide, by decide, by decide, by decide⟩

end SqlType
end PgSchema
