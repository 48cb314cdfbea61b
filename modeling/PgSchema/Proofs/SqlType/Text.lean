/-
# Type text taken apart

The brackets of an array come off a type text one pair at a time, and what is left is a name, a name
with numbers in parentheses, or the text of a custom type.  Numbers with more digits than a numeral
may have are refused.

* `TypeText.parse_append_brackets`, `TypeText.parse_of_isBare` : brackets and what they stand
  behind;
* `TypeText.parse_keyword`, `TypeText.parse_call_eq_ok_iff`, `TypeText.parse_zoned` : names, and
  names with numbers;
* `TypeText.known_of_parseBase`, `TypeText.name_of_parseBase` : what a text without brackets says.
-/
import Mathlib.Data.Fintype.Basic
import Mathlib.Data.List.DropRight
import Mathlib.Tactic.FinCases
import PgSchema.Proofs.Number.Numeral
import PgSchema.Proofs.Result
import PgSchema.Proofs.Text.Span
import PgSchema.SqlType.Text

namespace PgSchema

open Text

namespace TypeText

/-! ## Brackets -/

/-- A pair of brackets at the end comes off. -/
theorem splitBrackets_of_closed {cs rest : List Char}
    (h : cs.dropWhile isBlank = ']' :: '[' :: rest) :
    splitBrackets cs = ((splitBrackets rest).1 + 1, (splitBrackets rest).2) := by
  conv => lhs; rw [splitBrackets]
  split
  · next hcs =>
    rw [h] at hcs
    obtain rfl := (List.cons.inj (List.cons.inj hcs).2).2
    rfl
  · next hnone => exact absurd h (hnone rest)

/-- A text without a pair of brackets at its end loses the blanks there. -/
theorem splitBrackets_of_open {cs : List Char}
    (h : ∀ rest, cs.dropWhile isBlank ≠ ']' :: '[' :: rest) :
    splitBrackets cs = (0, cs.dropWhile isBlank) := by
  rw [splitBrackets]
  split
  · next hcs => exact absurd hcs (h _)
  · rfl

/-- Holds for a text without blanks around it and without brackets at its end. -/
def IsBare (cs : List Char) : Prop :=
  cs.dropWhile isBlank = cs ∧ splitBrackets cs.reverse = (0, cs.reverse)

theorem parse_of_isBare {cs : List Char} (h : IsBare cs) :
    parse (String.ofList cs) = (parseBase cs).map fun base => ⟨0, base⟩ := by
  obtain ⟨hblank, hbrackets⟩ := h
  unfold parse
  rw [String.toList_ofList, hblank, hbrackets]
  simp only [List.reverse_reverse]

/-- Holds for a text whose first and last characters are no blanks and whose last is no bracket. -/
def hasBareEnds (cs : List Char) : Bool :=
  cs.head?.all (!isBlank ·) && cs.getLast?.all fun c => !isBlank c && c != ']'

theorem hasBareEnds_iff {cs : List Char} : hasBareEnds cs = true ↔
    (∀ c ∈ cs.head?, isBlank c = false) ∧ ∀ c ∈ cs.getLast?, isBlank c = false ∧ c ≠ ']' := by
  simp [hasBareEnds, Option.all_eq_true]

theorem isBare_of_hasBareEnds {cs : List Char} (h : hasBareEnds cs = true) : IsBare cs := by
  obtain ⟨hhead, hlast⟩ := hasBareEnds_iff.1 h
  have hkeep : cs.reverse.dropWhile isBlank = cs.reverse := by
    refine dropWhile_of_head? fun c hc => ?_
    rw [List.head?_reverse] at hc
    exact (hlast c hc).1
  have hopen : ∀ rest, cs.reverse.dropWhile isBlank ≠ ']' :: '[' :: rest := by
    intro rest hrest
    rw [hkeep] at hrest
    have hbracket : cs.getLast? = some ']' := by rw [← List.head?_reverse, hrest]; rfl
    exact (hlast ']' hbracket).2 rfl
  exact ⟨dropWhile_of_head? hhead, by rw [splitBrackets_of_open hopen, hkeep]⟩

/-- The brackets of an array come off its text. -/
theorem parse_append_brackets (s : String) :
    parse (s ++ "[]") = (parse s).map fun text => ⟨text.depth + 1, text.base⟩ := by
  have hlist : (s ++ "[]").toList = s.toList ++ ['[', ']'] := by
    rw [String.toList_append]
    rfl
  have hdrop : (s.toList ++ ['[', ']']).dropWhile isBlank =
      s.toList.dropWhile isBlank ++ ['[', ']'] := by
    rw [List.dropWhile_append]
    split
    · next hempty =>
      rw [List.isEmpty_iff.1 hempty]
      rfl
    · rfl
  have hreverse : (s.toList.dropWhile isBlank ++ ['[', ']']).reverse =
      ']' :: '[' :: (s.toList.dropWhile isBlank).reverse := by
    simp
  -- a text with brackets at its end has no white space there
  have hclosed : (']' :: '[' :: (s.toList.dropWhile isBlank).reverse).dropWhile isBlank =
      ']' :: '[' :: (s.toList.dropWhile isBlank).reverse :=
    dropWhile_of_head? fun c hc => by rw [← Option.some.inj hc]; decide
  unfold parse
  rw [hlist, hdrop, hreverse, splitBrackets_of_closed hclosed]
  generalize splitBrackets (s.toList.dropWhile isBlank).reverse = split
  obtain ⟨depth, base⟩ := split
  cases hbase : parseBase base.reverse <;> simp [hbase, Except.map]

/-- What is left when the brackets are off has none, and is an end of the text. -/
theorem splitBrackets_rest (cs : List Char) :
    splitBrackets (splitBrackets cs).2 = (0, (splitBrackets cs).2) ∧
      (splitBrackets cs).2 <:+ cs := by
  induction cs using splitBrackets.induct with
  | case1 cs rest hcs depth base hrest ih =>
    have hsuffix : rest <:+ cs := by
      have hdropped := List.dropWhile_suffix (l := cs) isBlank
      rw [hcs] at hdropped
      exact ((List.suffix_cons '[' rest).trans (List.suffix_cons ']' _)).trans hdropped
    rw [splitBrackets_of_closed hcs]
    exact ⟨ih.1, ih.2.trans hsuffix⟩
  | case2 cs hnone =>
    have hagain : (cs.dropWhile isBlank).dropWhile isBlank = cs.dropWhile isBlank :=
      List.dropWhile_idempotent _ _
    rw [splitBrackets_of_open hnone, splitBrackets_of_open (by rw [hagain]; exact hnone), hagain]
    exact ⟨rfl, List.dropWhile_suffix _⟩

/-- The text before the brackets is bare. -/
theorem isBare_rest (s : String) :
    IsBare (splitBrackets (s.toList.dropWhile isBlank).reverse).2.reverse := by
  obtain ⟨hbrackets, hsuffix⟩ := splitBrackets_rest (s.toList.dropWhile isBlank).reverse
  refine ⟨dropWhile_of_head? fun c hc => ?_, by rwa [List.reverse_reverse]⟩
  -- the first character of the text is no blank, and it is the first one of what is left
  have hprefix : (splitBrackets (s.toList.dropWhile isBlank).reverse).2.reverse <+:
      s.toList.dropWhile isBlank := by
    rw [← List.reverse_suffix, List.reverse_reverse]
    exact hsuffix
  obtain ⟨rest, hrest⟩ := hprefix
  have hhead : (s.toList.dropWhile isBlank).head? = some c := by
    rw [← hrest, List.head?_append, hc]
    rfl
  have hnot := List.head?_dropWhile_not isBlank s.toList
  rwa [hhead] at hnot

/-! ## Names -/

theorem splitZoned?_of_notMem {cs : List Char} (h : '(' ∉ cs) : splitZoned? cs = none := by
  have hrest : '(' ∉ (cs.dropWhile Char.isAlpha).dropWhile isBlank := fun hmem =>
    h ((List.dropWhile_suffix _).subset ((List.dropWhile_suffix _).subset hmem))
  unfold splitZoned?
  split
  · next rest heq =>
    rw [heq] at hrest
    exact absurd List.mem_cons_self hrest
  · rfl

theorem splitParams?_of_notMem {cs : List Char} (h : '(' ∉ cs) (hname : isName cs = true)
    (htrim : trimEndWhere isBlank cs = cs) : splitParams? cs = some ⟨cs, none⟩ := by
  have hne : ∀ c ∈ cs, (c != '(') = true := bne_of_notMem h
  have htake : cs.takeWhile (· != '(') = cs := by
    rw [List.takeWhile_eq_self_iff]
    exact hne
  have hdrop : cs.dropWhile (· != '(') = [] := by
    rw [List.dropWhile_eq_nil_iff]
    exact hne
  unfold splitParams?
  simp only [htake, htrim, hname, hdrop, if_true]

/-- The characters of a keyword, as lists of characters are decided without their texts. -/
theorem toList_keyword (kind : Kind) :
    kind.keyword.toList = if kind = .timestamptz then "TIMESTAMP WITH TIME ZONE".toList
      else kind.word.toList.map Char.toUpper := by
  cases kind <;> first | rfl | exact String.toList_map

/-- The keyword of a kind is read as the kind.  Arrays and named types have no keyword. -/
theorem keyword_reads (kind : Kind) (harray : kind.family ≠ .array)
    (hnamed : kind.family ≠ .named) :
    '(' ∉ kind.keyword.toList ∧ isName kind.keyword.toList = true ∧
      trimEndWhere isBlank kind.keyword.toList = kind.keyword.toList ∧
      kindOfName? (normalName kind.keyword.toList) = some kind := by
  have hall : ∀ kind ∈ Kind.all, kind.family ≠ .array → kind.family ≠ .named →
      '(' ∉ kind.keyword.toList ∧ isName kind.keyword.toList = true ∧
        trimEndWhere isBlank kind.keyword.toList = kind.keyword.toList ∧
        kindOfName? (normalName kind.keyword.toList) = some kind := by
    simp only [toList_keyword]
    decide
  exact hall kind (Kind.mem_all kind) harray hnamed

theorem keyword_ends (kind : Kind) :
    kind.keyword.toList ≠ [] ∧ hasBareEnds kind.keyword.toList = true := by
  have hall : ∀ kind ∈ Kind.all,
      kind.keyword.toList ≠ [] ∧ hasBareEnds kind.keyword.toList = true := by
    simp only [toList_keyword]
    decide
  exact hall kind (Kind.mem_all kind)

theorem parse_keyword {kind : Kind} (harray : kind.family ≠ .array)
    (hnamed : kind.family ≠ .named) :
    parse kind.keyword = .ok ⟨0, .known kind none none none⟩ := by
  obtain ⟨hopen, hname, htrim, hkind⟩ := keyword_reads kind harray hnamed
  have hsplit : ((splitZoned? kind.keyword.toList).orElse fun _ =>
      splitParams? kind.keyword.toList) = some ⟨kind.keyword.toList, none⟩ := by
    rw [splitZoned?_of_notMem hopen, splitParams?_of_notMem hopen hname htrim]
    rfl
  have hbare := isBare_of_hasBareEnds (keyword_ends kind).2
  rw [← String.ofList_toList (s := kind.keyword), parse_of_isBare hbare]
  simp only [parseBase, hsplit, hkind]
  rfl

/-! ## Names with numbers -/

/-- A name with a parameter list behind it. -/
def call (name params : List Char) : List Char := name ++ '(' :: (params ++ [')'])

theorem isBare_call {name : List Char} (h : hasBareEnds name = true) (hne : name ≠ [])
    (params : List Char) : IsBare (call name params) := by
  refine isBare_of_hasBareEnds (hasBareEnds_iff.2 ⟨fun c hc => (hasBareEnds_iff.1 h).1 c ?_,
    fun c hc => ?_⟩)
  · cases name with
    | nil => exact absurd rfl hne
    | cons d name => exact hc
  · have hlast : (call name params).getLast? = some ')' := by
      rw [call, ← List.cons_append, ← List.append_assoc, List.getLast?_concat]
    obtain rfl := Option.some.inj (hlast.symm.trans hc)
    decide

theorem splitZoned?_call {name params : List Char} (hname : ∀ c ∈ name, c.isAlpha = true)
    (hparams : ')' ∉ params) : splitZoned? (call name params) = none := by
  have hinside : ∀ c ∈ params, (c != ')') = true := bne_of_notMem hparams
  have hhead : (call name params).dropWhile Char.isAlpha = '(' :: (params ++ [')']) :=
    dropWhile_append_cons hname (by decide) _
  have hopen : ('(' :: (params ++ [')'])).dropWhile isBlank = '(' :: (params ++ [')']) :=
    dropWhile_of_head? fun c hc => by rw [← Option.some.inj hc]; decide
  have hclose : (params ++ [')']).dropWhile (· != ')') = [')'] :=
    dropWhile_append_cons hinside (by decide) []
  simp only [splitZoned?, hhead, hopen, hclose]

theorem splitParams?_call {name params : List Char} (hopen : '(' ∉ name)
    (hname : isName name = true) (htrim : trimEndWhere isBlank name = name)
    (hparams : ')' ∉ params) : splitParams? (call name params) = some ⟨name, some params⟩ := by
  have hinside : ∀ c ∈ params, (c != ')') = true := bne_of_notMem hparams
  have houtside : ∀ c ∈ name, (c != '(') = true := bne_of_notMem hopen
  have htake : (call name params).takeWhile (· != '(') = name :=
    takeWhile_append_cons houtside (by decide) _
  have hdrop : (call name params).dropWhile (· != '(') = '(' :: (params ++ [')']) :=
    dropWhile_append_cons houtside (by decide) _
  have hclose : (params ++ [')']).dropWhile (· != ')') = [')'] :=
    dropWhile_append_cons hinside (by decide) []
  have hnumbers : (params ++ [')']).takeWhile (· != ')') = params :=
    takeWhile_append_cons hinside (by decide) []
  simp only [splitParams?, htake, htrim, hname, hdrop, hclose, hnumbers, if_true, beq_self_eq_true]

/-! ## Numbers -/

/-- The decimal digits of numbers, with commas between them. -/
def decimals (params : List Nat) : List Char :=
  [','].intercalate (params.map (Nat.toDigits 10))

theorem isDigit_of_mem_toDigits {n : Nat} {c : Char} (h : c ∈ Nat.toDigits 10 n) :
    c.isDigit = true :=
  Nat.isDigit_of_mem_toDigits (by decide) (by decide) h

theorem toList_parenthesised (params : List Nat) :
    (SqlType.parenthesised params).toList = '(' :: (decimals params ++ [')']) := by
  have hdigits : (params.map toString).map String.toList = params.map (Nat.toDigits 10) := by
    rw [List.map_map]
    refine List.map_congr_left fun n _ => ?_
    rw [Function.comp_apply, Nat.toString_eq_repr, Nat.toList_repr]
  rw [SqlType.parenthesised, String.toList_append, String.toList_append, String.toList_intercalate,
    hdigits]
  rfl

theorem notMem_decimals {c : Char} (hcomma : c ≠ ',') (hdigit : c.isDigit = false)
    (params : List Nat) : c ∉ decimals params := by
  have hpieces : ∀ piece ∈ params.map (Nat.toDigits 10), c ∉ piece := by
    intro piece hpiece hmem
    obtain ⟨n, -, rfl⟩ := List.mem_map.1 hpiece
    rw [isDigit_of_mem_toDigits hmem] at hdigit
    exact absurd hdigit (by decide)
  unfold decimals
  generalize params.map (Nat.toDigits 10) = pieces at hpieces
  induction pieces with
  | nil => simp
  | cons piece pieces ih =>
    obtain ⟨hpiece, hrest⟩ := List.forall_mem_cons.1 hpieces
    cases pieces with
    | nil => simpa using hpiece
    | cons second pieces =>
      rw [List.intercalate_cons_cons]
      simp only [List.mem_append, List.mem_singleton, not_or]
      exact ⟨⟨hpiece, hcomma⟩, ih hrest⟩

theorem splitAt_decimals (n : Nat) (params : List Nat) :
    splitAt ',' (decimals (n :: params)) = (n :: params).map (Nat.toDigits 10) := by
  have hcomma : ∀ piece ∈ (n :: params).map (Nat.toDigits 10), ',' ∉ piece := by
    intro piece hpiece hmem
    obtain ⟨m, -, rfl⟩ := List.mem_map.1 hpiece
    exact absurd (isDigit_of_mem_toDigits hmem) (by decide)
  exact splitAt_intercalate hcomma

/-- No piece between the commas of numbers is blank. -/
theorem numbers_decimals_eq_mapM (n : Nat) (params : List Nat) :
    numbers (decimals (n :: params)) =
      (splitAt ',' (decimals (n :: params))).mapM fun piece =>
        Number.readInteger (String.ofList piece) := by
  have hkeep : (splitAt ',' (decimals (n :: params))).filter (fun piece => !piece.all isBlank) =
      splitAt ',' (decimals (n :: params)) := by
    rw [List.filter_eq_self, splitAt_decimals]
    intro piece hpiece
    obtain ⟨m, -, rfl⟩ := List.mem_map.1 hpiece
    obtain ⟨c, hc⟩ := List.exists_mem_of_ne_nil _ (Nat.toDigits_ne_nil (b := 10) (n := m))
    have hblank : isBlank c = false := Number.isBlank_of_isDigit (isDigit_of_mem_toDigits hc)
    rw [Bool.not_eq_true', List.all_eq_false]
    exact ⟨c, hc, by simp [hblank]⟩
  rw [numbers, hkeep]

/-- The digits of numbers are read number by number. -/
theorem numbers_decimals (n : Nat) (params : List Nat) :
    numbers (decimals (n :: params)) =
      (n :: params).mapM fun m => Number.readInteger (String.ofList (Nat.toDigits 10 m)) := by
  rw [numbers_decimals_eq_mapM, splitAt_decimals, List.mapM_map, Function.comp_def]

/-- Numbers are read from their digits if none of them is too long. -/
theorem numbers_decimals_eq_ok_iff {n : Nat} {params : List Nat} {values : List Int} :
    numbers (decimals (n :: params)) = .ok values ↔
      (∀ m ∈ n :: params, m < 10 ^ Number.maxDigits) ∧ values = (n :: params).map Int.ofNat := by
  rw [numbers_decimals]
  generalize n :: params = params
  induction params generalizing values with
  | nil => simp [pure, Except.pure, eq_comm]
  | cons m params ih =>
    rw [mapM_cons_eq_ok_iff, List.forall_mem_cons, Number.readInteger_toDigits]
    constructor
    · rintro ⟨value, others, hvalue, hothers, rfl⟩
      obtain ⟨hrest, rfl⟩ := ih.1 hothers
      split at hvalue
      · next hm =>
        obtain rfl := Except.ok.inj hvalue
        exact ⟨⟨hm, hrest⟩, rfl⟩
      · simp at hvalue
    · rintro ⟨⟨hm, hrest⟩, rfl⟩
      exact ⟨m, _, if_pos hm, ih.2 ⟨hrest, rfl⟩, rfl⟩

/-- The base text that a known kind and its numbers make. -/
def baseOfNumbers (kind : Kind) (first : Int) (rest : List Int) : BaseText :=
  match kind.family with
  | .exact => .known kind none (some first) rest.head?
  | .timed => .known kind none (some first) none
  | _ => .known kind (some first) none none

theorem baseOfParams_eq_ok_iff {kind : Kind} {params : List Char} {base : BaseText} :
    baseOfParams kind params = .ok base ↔
      (params = [] ∧ base = .known kind none none none) ∨
      (params ≠ [] ∧ ∃ first rest, numbers params = .ok (first :: rest) ∧
        base = baseOfNumbers kind first rest) := by
  unfold baseOfParams
  split
  · next hempty =>
    have hnil := List.isEmpty_iff.1 hempty
    simp [hnil, eq_comm]
  · next hempty =>
    have hne : params ≠ [] := fun h => hempty (List.isEmpty_iff.2 h)
    cases numbers params with
    | error fault => simp [hne]
    | ok values =>
      cases values with
      | nil => simp [hne]
      | cons first rest =>
        unfold baseOfNumbers
        cases kind.family <;> simp [hne, eq_comm]

theorem decimals_ne_nil (n : Nat) (params : List Nat) : decimals (n :: params) ≠ [] := by
  unfold decimals
  cases params with
  | nil => simp
  | cons m params =>
    rw [List.map_cons, List.map_cons, List.intercalate_cons_cons]
    simp

/-- A keyword with numbers is read as its kind with the numbers, if none of them is too long. -/
theorem parse_call_eq_ok_iff {kind : Kind} (harray : kind.family ≠ .array)
    (hnamed : kind.family ≠ .named) (halpha : ∀ c ∈ kind.keyword.toList, c.isAlpha = true)
    {n : Nat} {params : List Nat} {text : TypeText} :
    parse (kind.keyword ++ SqlType.parenthesised (n :: params)) = .ok text ↔
      (∀ m ∈ n :: params, m < 10 ^ Number.maxDigits) ∧
        text = ⟨0, baseOfNumbers kind n (params.map Int.ofNat)⟩ := by
  obtain ⟨hopen, hname, htrim, hkind⟩ := keyword_reads kind harray hnamed
  have hparams : ')' ∉ decimals (n :: params) := notMem_decimals (by decide) (by decide) _
  have hlist : (kind.keyword ++ SqlType.parenthesised (n :: params)).toList =
      call kind.keyword.toList (decimals (n :: params)) := by
    rw [String.toList_append, toList_parenthesised]
    rfl
  have hbare : IsBare (call kind.keyword.toList (decimals (n :: params))) :=
    isBare_call (keyword_ends kind).2 (keyword_ends kind).1 _
  -- the name and what stands in its parentheses are told apart
  have hsplit : ((splitZoned? (call kind.keyword.toList (decimals (n :: params)))).orElse fun _ =>
      splitParams? (call kind.keyword.toList (decimals (n :: params)))) =
        some ⟨kind.keyword.toList, some (decimals (n :: params))⟩ := by
    rw [splitZoned?_call halpha hparams, splitParams?_call hopen hname htrim hparams]
    rfl
  have hbase : parseBase (call kind.keyword.toList (decimals (n :: params))) =
      baseOfParams kind (decimals (n :: params)) := by
    simp only [parseBase, hsplit, hkind, Option.getD_some]
  rw [← String.ofList_toList (s := kind.keyword ++ _), hlist, parse_of_isBare hbare, hbase,
    map_eq_ok_iff]
  constructor
  · rintro ⟨base, hbase, rfl⟩
    rcases baseOfParams_eq_ok_iff.1 hbase with ⟨hnil, -⟩ | ⟨-, first, rest, hnumbers, rfl⟩
    · exact absurd hnil (decimals_ne_nil n params)
    · obtain ⟨hbound, hvalues⟩ := numbers_decimals_eq_ok_iff.1 hnumbers
      obtain ⟨rfl, rfl⟩ := List.cons.inj hvalues
      exact ⟨hbound, rfl⟩
  · rintro ⟨hbound, rfl⟩
    have hnumbers := numbers_decimals_eq_ok_iff.2 ⟨hbound, rfl⟩
    exact ⟨_, baseOfParams_eq_ok_iff.2 (.inr ⟨decimals_ne_nil n params, _, _, hnumbers, rfl⟩), rfl⟩

/-- The digits of a zoned timestamp are read in the middle of its name. -/
theorem parse_zoned (digits : Fin (maxFractionalDigits + 1)) :
    parse ("TIMESTAMP" ++ SqlType.parenthesised [digits.val] ++ " WITH TIME ZONE") =
      .ok ⟨0, .known .timestamptz none (some digits) none⟩ := by
  have hbare :
      IsBare ("TIMESTAMP" ++ SqlType.parenthesised [digits.val] ++ " WITH TIME ZONE").toList := by
    fin_cases digits <;> exact isBare_of_hasBareEnds (by decide)
  have hbase : parseBase
      ("TIMESTAMP" ++ SqlType.parenthesised [digits.val] ++ " WITH TIME ZONE").toList =
        .ok (.known .timestamptz none (some digits) none) := by
    fin_cases digits <;> rfl
  rw [← String.ofList_toList (s := _ ++ " WITH TIME ZONE"), parse_of_isBare hbare, hbase]
  rfl

/-- A known kind is neither an array nor a named type. -/
theorem family_of_kindOfName? {name : String} {kind : Kind} (h : kindOfName? name = some kind) :
    kind.family ≠ .array ∧ kind.family ≠ .named := by
  unfold kindOfName? at h
  split at h
  · next entry kind' hfind =>
    obtain rfl := Option.some.inj h
    have haliases : ∀ entry ∈ aliases, entry.2.family ≠ .array ∧ entry.2.family ≠ .named := by
      decide
    exact haliases _ (List.mem_of_find?_eq_some hfind)
  · obtain ⟨-, hfamily⟩ := Option.filter_eq_some_iff.1 h
    simpa using hfamily

theorem natAbs_lt_of_numbers {params : List Char} {values : List Int}
    (h : numbers params = .ok values) : ∀ n ∈ values, n.natAbs < 10 ^ Number.maxDigits :=
  forall_of_mapM_eq_ok (fun _ _ _ hread => Number.natAbs_lt_of_readInteger hread) h

theorem of_baseOfNumbers {kind kind' : Kind} {first : Int} {rest : List Int}
    {length precision scale : Option Int}
    (h : baseOfNumbers kind first rest = .known kind' length precision scale) :
    kind' = kind ∧ ∀ number? ∈ [length, precision, scale], ∀ n ∈ number?, n ∈ first :: rest := by
  have hhead : ∀ n ∈ rest.head?, n ∈ first :: rest := fun n hn =>
    List.mem_cons_of_mem first (List.mem_of_mem_head? hn)
  unfold baseOfNumbers at h
  split at h <;> injection h with hkind hlength hprecision hscale <;>
    subst hkind hlength hprecision hscale <;> simp
  simpa using hhead

/-- What a base text says about a known kind is no array and no named type, and has no number
that is too long. -/
theorem known_of_parseBase {cs : List Char} {kind : Kind} {length precision scale : Option Int}
    (h : parseBase cs = .ok (.known kind length precision scale)) :
    kind.family ≠ .array ∧ kind.family ≠ .named ∧
      ∀ number? ∈ [length, precision, scale], ∀ n ∈ number?, n.natAbs < 10 ^ Number.maxDigits := by
  unfold parseBase at h
  split at h
  · simp at h
  · next split hsplit =>
    split at h
    · simp at h
    · next kind' hkind =>
      obtain ⟨harray, hnamed⟩ := family_of_kindOfName? hkind
      rcases baseOfParams_eq_ok_iff.1 h with ⟨-, hbase⟩ | ⟨-, first, rest, hnumbers, hbase⟩
      · obtain ⟨rfl, rfl, rfl, rfl⟩ := BaseText.known.inj hbase
        exact ⟨harray, hnamed, by simp⟩
      · obtain ⟨rfl, hmem⟩ := of_baseOfNumbers hbase.symm
        refine ⟨harray, hnamed, fun number? hnumber n hn => ?_⟩
        exact natAbs_lt_of_numbers hnumbers n (hmem number? hnumber n hn)

/-- A base text that is no known kind is a name as it stands. -/
theorem name_of_parseBase {cs : List Char} {name : String}
    (h : parseBase cs = .ok (.custom name)) : name = String.ofList cs := by
  unfold parseBase at h
  split at h
  · exact (BaseText.custom.inj (Except.ok.inj h)).symm
  · split at h
    · exact (BaseText.custom.inj (Except.ok.inj h)).symm
    · rcases baseOfParams_eq_ok_iff.1 h with ⟨-, hbase⟩ | ⟨-, first, rest, -, hbase⟩
      · simp at hbase
      · unfold baseOfNumbers at hbase
        split at hbase <;> simp at hbase

end TypeText

end PgSchema
