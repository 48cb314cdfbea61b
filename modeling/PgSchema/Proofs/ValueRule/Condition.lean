/-
# Rules read as conditions

The text of a rule is read as a condition whose atoms are rules with one comparison each.  The parts
of a composed rule are in parentheses and their literals are passed over, so the condition is put
together as the rule is, and it holds for a value exactly if the rule accepts the value.

* `ValueRule.reads_condition` : the condition that the text of a rule stands for;
* `ValueRule.check_eq_holds` : what the condition says of a value is what the rule says of it.
-/
import PgSchema.Proofs.Number.FloatText
import PgSchema.Proofs.Number.Numeral
import PgSchema.Proofs.Sql.Condition
import PgSchema.Proofs.Table.Quoted

namespace PgSchema

open Number (boundText isNumberChar)
open Sql (Condition Connective)
open Sql.Condition (IsOperand Reads Token closes endsAtom opens tokens?)

/-! ## Conditions of rules -/

namespace Bounds

theorem atLeast_bounded (a : Float) : ((some a).isSome || (none : Option Float).isSome) = true :=
  rfl

theorem atLeast_ordered (a : Float) : ∀ x ∈ some a, ∀ b ∈ (none : Option Float),
    (Number.Exact.ofFloat b).lt (Number.Exact.ofFloat x) = false := by
  simp

/-- The bounds of a number from `a` on. -/
def atLeast (a : Float) : Bounds := ⟨some a, none, atLeast_bounded a, atLeast_ordered a⟩

theorem atMost_bounded (b : Float) : ((none : Option Float).isSome || (some b).isSome) = true :=
  rfl

theorem atMost_ordered (b : Float) : ∀ a ∈ (none : Option Float), ∀ x ∈ some b,
    (Number.Exact.ofFloat x).lt (Number.Exact.ofFloat a) = false := by
  simp

/-- The bounds of a number up to `b`. -/
def atMost (b : Float) : Bounds := ⟨none, some b, atMost_bounded b, atMost_ordered b⟩

/-- The condition of a rule with bounds: a comparison for each of them. -/
def condition (rule : Bounds → ValueRule) (bounds : Bounds) : Condition ValueRule :=
  match bounds.min, bounds.max with
  | some a, some b => .and (.atom (rule (atLeast a))) (.atom (rule (atMost b)))
  | _, _ => .atom (rule bounds)

end Bounds

namespace ValueRule

mutual

/-- A rule as a condition: its atoms are rules with one comparison. -/
def condition : ValueRule → Condition ValueRule
  | range bounds => bounds.condition range
  | length bounds => bounds.condition length
  | all first others => Connective.and.joinAll first.condition (conditions others)
  | any first others => Connective.or.joinAll first.condition (conditions others)
  | rule => .atom rule

/-- Each rule as a condition. -/
def conditions : List ValueRule → List (Condition ValueRule)
  | [] => []
  | part :: parts => part.condition :: conditions parts

end

mutual

/-- The rules without parts that a rule is composed of. -/
def leaves : ValueRule → List ValueRule
  | all first others => first.leaves ++ leavesOf others
  | any first others => first.leaves ++ leavesOf others
  | rule => [rule]

/-- The rules without parts that rules are composed of. -/
def leavesOf : List ValueRule → List ValueRule
  | [] => []
  | part :: parts => part.leaves ++ leavesOf parts

end

/-- Holds for the values that a rule accepts. -/
def accepts (value : Document) (rule : ValueRule) : Bool :=
  match rule.check value with
  | .ok b => b
  | .error _ => false

theorem conditions_eq_map (parts : List ValueRule) : conditions parts = parts.map condition := by
  induction parts with
  | nil => rfl
  | cons part parts ih => rw [conditions, ih, List.map_cons]

/-! ## Atoms -/

/-- The tokens of a number belong to an operand wherever they stand in it, and none of them is
blank. -/
theorem exists_tokens?_boundText (x : Float) :
    ∃ ts, tokens? (boundText x) = some ts ∧ ts ≠ [] ∧
      ∀ t ∈ ts, t.isPlain = true ∧ t.isBlank = false := by
  have hchars : ∀ c ∈ (boundText x).toList, isNumberChar c = true :=
    List.all_eq_true.1 (Number.all_boundText x)
  obtain ⟨ts, hts⟩ := Sql.Condition.exists_tokens? fun hquote =>
    absurd (hchars _ hquote) (by decide)
  have htext := Sql.Condition.flatMap_text_of_tokens? hts
  refine ⟨ts, hts, ?_, fun t ht => ?_⟩
  · rintro rfl
    exact Number.boundText_ne_empty x htext.symm
  · have hnumber (c : Char) (hc : c ∈ t.text) : isNumberChar c = true :=
      hchars c (htext ▸ List.mem_flatMap.2 ⟨t, ht, hc⟩)
    cases t with
    | opening => exact absurd (hnumber _ List.mem_cons_self) (by decide)
    | closing => exact absurd (hnumber _ List.mem_cons_self) (by decide)
    | literal cs => exact absurd (hnumber _ List.mem_cons_self) (by decide)
    | sign c => exact ⟨rfl, Number.isBlank_of_isNumberChar (hnumber c List.mem_cons_self)⟩
    | word cs =>
      -- a connective has a letter that is in no number
      have hupper (d : Char) (hd : d ∈ cs.map Char.toUpper) : d ≠ 'D' ∧ d ≠ 'R' := by
        obtain ⟨c, hc, rfl⟩ := List.mem_map.1 hd
        exact Number.toUpper_of_isNumberChar (hnumber c hc)
      have hand : cs.map Char.toUpper ≠ Connective.and.word.toList := fun heq =>
        (hupper 'D' (heq ▸ by decide)).1 rfl
      have hor : cs.map Char.toUpper ≠ Connective.or.word.toList := fun heq =>
        (hupper 'R' (heq ▸ by decide)).2 rfl
      have hconnective : (Token.word cs).connective? = none := by
        rw [Token.connective?, if_neg hand, if_neg hor]
      exact ⟨by simp [Token.isPlain, hconnective], rfl⟩

/-- A text that an atom starts with: a word that is no connective, and what belongs to it. -/
def StartsAtom (s : String) : Prop :=
  ∃ cs ts, tokens? s = some (.word cs :: ts) ∧ (Token.word cs).connective? = none ∧
    ∀ us, endsAtom 0 (ts ++ us) = endsAtom 0 us

/-- What an atom starts with and what leads to its end. -/
theorem StartsAtom.isOperand {s u : String} {us : List Token} (h : StartsAtom s)
    (hu : tokens? u = some us) (hopens : opens u = true) (hends : endsAtom 0 us = true)
    (hlast : ∃ t, us.getLast? = some t ∧ t.isBlank = false) :
    IsOperand (s ++ u) (.atom (s ++ u)) := by
  obtain ⟨cs, ts, hts, hcs, hrest⟩ := h
  obtain ⟨t, ht, hblank⟩ := hlast
  have htokens : tokens? (s ++ u) = some (.word cs :: (ts ++ us)) :=
    Sql.Condition.tokens?_append hts hu (.inr hopens)
  refine Sql.Condition.isOperand_atom htokens hcs ((hrest us).trans hends) ?_
  rw [List.getLast?_append, ht]
  simpa using hblank

variable {column : String}

theorem startsAtom_column (h : Sql.Condition.isColumnName column = true) : StartsAtom column := by
  obtain ⟨hname, hword⟩ := Bool.and_eq_true_iff.1 h
  exact ⟨column.toList, [], Sql.Condition.tokens?_name hname, Option.isNone_iff_eq_none.1 hword,
    fun _ => rfl⟩

theorem startsAtom_length (h : Sql.Condition.isColumnName column = true) :
    StartsAtom ("length(" ++ column ++ ")") := by
  have hname := (Bool.and_eq_true_iff.1 h).1
  have hlength : tokens? "length(" = some [.word "length".toList, .opening] := by decide
  have hclosing : tokens? ")" = some [.closing] := by decide
  refine ⟨"length".toList, [.opening, .word column.toList, .closing], ?_, by decide, fun _ => rfl⟩
  rw [String.append_assoc]
  exact Sql.Condition.tokens?_append hlength
    (Sql.Condition.tokens?_append (Sql.Condition.tokens?_name hname) hclosing (.inr (by decide)))
    (.inl (by decide))

/-- A comparison with a bound is an atom. -/
theorem StartsAtom.isOperand_comparison {measured sign : String} (h : StartsAtom measured)
    (hsign : sign = " >= " ∨ sign = " <= ") (x : Float) :
    IsOperand (measured ++ sign ++ boundText x) (.atom (measured ++ sign ++ boundText x)) := by
  obtain ⟨ts, hts, hplain, hcloses, hopens, hne⟩ : ∃ ts, tokens? sign = some ts ∧
      (∀ t ∈ ts, t.isPlain = true) ∧ closes sign = true ∧ opens sign = true ∧ sign ≠ "" := by
    rcases hsign with rfl | rfl <;>
      exact ⟨_, rfl, by decide, by decide, by decide, by decide⟩
  obtain ⟨us, hus, husne, hnumber⟩ := exists_tokens?_boundText x
  have hall : ∀ t ∈ ts ++ us, t.isPlain = true :=
    List.forall_mem_append.2 ⟨hplain, fun t ht => (hnumber t ht).1⟩
  have hends : endsAtom 0 (ts ++ us) = true := by
    rw [← List.append_nil (ts ++ us), Sql.Condition.endsAtom_append_of_isPlain [] hall]
    rfl
  rw [String.append_assoc]
  refine h.isOperand (Sql.Condition.tokens?_append hts hus (.inl hcloses))
    (Sql.Condition.opens_append _ hopens hne) hends ⟨us.getLast husne, ?_, ?_⟩
  · rw [List.getLast?_append, List.getLast?_eq_some_getLast husne]
    rfl
  · exact (hnumber _ (List.getLast_mem husne)).2

/-- A match with a regular expression is an atom. -/
theorem isOperand_matchSql (h : Sql.Condition.isColumnName column = true) (regex : String) :
    IsOperand (matchSql column regex) (.atom (matchSql column regex)) := by
  have hsign : tokens? " ~ " = some [.sign ' ', .sign '~', .sign ' '] := by decide
  rw [matchSql, String.append_assoc]
  exact (startsAtom_column h).isOperand
    (Sql.Condition.tokens?_append hsign (Sql.Condition.tokens?_literal regex) (.inl (by decide)))
    (Sql.Condition.opens_append _ (by decide) (by decide)) rfl ⟨_, rfl, rfl⟩

theorem exists_tokens?_literals (values : List String) :
    ∃ ts, tokens? (", ".intercalate (values.map Sql.literal)) = some ts ∧
      ∀ t ∈ ts, t.isPlain = true := by
  have hcomma : tokens? ", " = some [.sign ',', .sign ' '] := by decide
  induction values with
  | nil => exact ⟨[], by decide, by simp⟩
  | cons value values ih =>
    have hvalue := Sql.Condition.tokens?_literal value
    cases values with
    | nil =>
      rw [List.map_singleton, String.intercalate_singleton]
      exact ⟨_, hvalue, by simp [Token.isPlain, Token.connective?]⟩
    | cons second values =>
      obtain ⟨ts, hts, hplain⟩ := ih
      rw [List.map_cons, List.map_cons, String.intercalate_cons_cons, String.append_assoc]
      refine ⟨_, Sql.Condition.tokens?_append hvalue
        (Sql.Condition.tokens?_append hcomma hts (.inl (by decide)))
        (.inr (Sql.Condition.opens_append _ (by decide) (by decide))), ?_⟩
      simpa [Token.isPlain, Token.connective?] using hplain

/-- Membership in a list of texts is an atom. -/
theorem isOperand_memberSql (h : Sql.Condition.isColumnName column = true) (values : List String) :
    IsOperand (memberSql column values) (.atom (memberSql column values)) := by
  have hin : tokens? " IN (" = some [.sign ' ', .word "IN".toList, .sign ' ', .opening] := by decide
  have hclosing : tokens? ")" = some [.closing] := by decide
  obtain ⟨ts, hts, hplain⟩ := exists_tokens?_literals values
  have hends : endsAtom 0 ([Token.sign ' ', .word "IN".toList, .sign ' '] ++
      Token.opening :: (ts ++ [Token.closing])) = true := by
    rw [Sql.Condition.endsAtom_append_of_isPlain _ (by decide)]
    change endsAtom 1 (ts ++ [Token.closing]) = true
    rw [Sql.Condition.endsAtom_append_of_isPlain _ hplain]
    rfl
  rw [memberSql, String.append_assoc, String.append_assoc]
  refine (startsAtom_column h).isOperand
    (Sql.Condition.tokens?_append hin
      (Sql.Condition.tokens?_append hts hclosing (.inr (by decide))) (.inl (by decide)))
    (Sql.Condition.opens_append _ (by decide) (by decide)) hends ⟨.closing, ?_, rfl⟩
  rw [← List.append_assoc, List.getLast?_concat]

/-! ## Texts of rules -/

/-- A rule that consists of a regular expression is read as one atom. -/
theorem reads_regex (h : Sql.Condition.isColumnName column = true) {rule : ValueRule}
    {regex : String} (hregex : rule.regex? = some regex) :
    Reads (rule.sql column) (.atom (rule.sql column)) := by
  rw [sql_of_regex? hregex]
  exact (isOperand_matchSql h regex).reads

/-- A rule with bounds is read as a comparison for each of them. -/
theorem reads_bounds {rule : Bounds → ValueRule} {measured : String} (h : StartsAtom measured)
    (hsql : ∀ bounds, (rule bounds).sql column = " AND ".intercalate (bounds.comparisons measured))
    (bounds : Bounds) :
    Reads ((rule bounds).sql column) ((bounds.condition rule).map (·.sql column)) := by
  have hlow (a : Float) := h.isOperand_comparison (.inl rfl) a
  have hhigh (b : Float) := h.isOperand_comparison (.inr rfl) b
  have hatLeast (a : Float) :
      (rule (.atLeast a)).sql column = measured ++ " >= " ++ boundText a := by
    rw [hsql]
    exact String.intercalate_singleton
  have hatMost (b : Float) :
      (rule (.atMost b)).sql column = measured ++ " <= " ++ boundText b := by
    rw [hsql]
    exact String.intercalate_singleton
  -- one case for each side that is bounded
  match bounds with
  | ⟨none, none, hbounded, _⟩ => cases hbounded
  | ⟨some a, none, _, _⟩ =>
    change Reads ((rule (.atLeast a)).sql column) (.atom ((rule (.atLeast a)).sql column))
    rw [hatLeast]
    exact (hlow a).reads
  | ⟨none, some b, _, _⟩ =>
    change Reads ((rule (.atMost b)).sql column) (.atom ((rule (.atMost b)).sql column))
    rw [hatMost]
    exact (hhigh b).reads
  | ⟨some a, some b, _, _⟩ =>
    change Reads _ (.and (.atom ((rule (.atLeast a)).sql column))
      (.atom ((rule (.atMost b)).sql column)))
    rw [hsql, hatLeast, hatMost]
    exact Sql.Condition.reads_intercalate .and id .atom (measured ++ " >= " ++ boundText a)
      [measured ++ " <= " ++ boundText b] (by simpa using ⟨hlow a, hhigh b⟩)

/-- A composed rule is read as its parts are, one after the other. -/
theorem reads_composed (op : Connective) {first : ValueRule} {others : List ValueRule}
    (h : ∀ part ∈ first :: others,
      Reads (part.sql column) (part.condition.map (·.sql column))) :
    Reads ((" " ++ op.word ++ " ").intercalate
        (enclosed (first.sql column) :: enclosedParts column others))
      ((op.joinAll first.condition (conditions others)).map (·.sql column)) := by
  have hread := Sql.Condition.reads_intercalate op (fun part => enclosed (part.sql column))
    (fun part => part.condition.map (·.sql column)) first others
    fun part hpart => IsOperand.enclosed (h part hpart)
  rw [List.map_cons] at hread
  rw [enclosedParts_eq_map, conditions_eq_map, Sql.Condition.map_joinAll, List.map_map]
  exact hread

mutual

/-- The text of a rule is read as the condition that the rule is. -/
theorem reads_condition (h : Sql.Condition.isColumnName column = true) :
    ∀ rule : ValueRule, Reads (rule.sql column) (rule.condition.map (·.sql column))
  | range bounds => reads_bounds (startsAtom_column h) (fun _ => rfl) bounds
  | length bounds => reads_bounds (startsAtom_length h) (fun _ => rfl) bounds
  | pattern .. => reads_regex h rfl
  | oneOf first others => (isOperand_memberSql h (first :: others)).reads
  | email => reads_regex h rfl
  | url => reads_regex h rfl
  | letters _ => reads_regex h rfl
  | alphanumeric .. => reads_regex h rfl
  | all first others => by
    have hand : (" AND " : String) = " " ++ Connective.and.word ++ " " := by decide
    rw [sql, condition, hand]
    exact reads_composed .and
      (List.forall_mem_cons.2 ⟨reads_condition h first, reads_conditions h others⟩)
  | any first others => by
    have hor : (" OR " : String) = " " ++ Connective.or.word ++ " " := by decide
    rw [sql, condition, hor]
    exact reads_composed .or
      (List.forall_mem_cons.2 ⟨reads_condition h first, reads_conditions h others⟩)

theorem reads_conditions (h : Sql.Condition.isColumnName column = true) :
    ∀ parts : List ValueRule, ∀ part ∈ parts,
      Reads (part.sql column) (part.condition.map (·.sql column))
  | [] => by simp
  | part :: parts =>
    List.forall_mem_cons.2 ⟨reads_condition h part, reads_conditions h parts⟩

end

/-! ## Values -/

variable {value : Document}

theorem accepts_of_check {rule : ValueRule} {b : Bool} (h : rule.check value = .ok b) :
    rule.accepts value = b := by
  rw [accepts, h]

/-- A rule with bounds says of a value what its comparisons say together. -/
theorem check_bounds_eq_holds {rule : Bounds → ValueRule} {measure : Option Number.Exact}
    (hcheck : ∀ bounds, (rule bounds).check value = checkBounds bounds measure) {bounds : Bounds}
    (h : ∃ b, (rule bounds).check value = .ok b) :
    (rule bounds).check value = .ok ((bounds.condition rule).holds (accepts value)) := by
  cases measure with
  | none =>
    obtain ⟨b, hb⟩ := h
    rw [hcheck] at hb
    cases hb
  | some x =>
    have hadmits (bounds : Bounds) : (rule bounds).accepts value = bounds.admits x :=
      accepts_of_check (hcheck bounds)
    match bounds with
    | ⟨none, none, hbounded, _⟩ => cases hbounded
    | ⟨some a, none, _, _⟩ | ⟨none, some b, _, _⟩ =>
      rw [hcheck, Bounds.condition, Condition.holds, hadmits]
      rfl
    | ⟨some a, some b, _, _⟩ =>
      rw [hcheck, Bounds.condition, Condition.holds, Condition.holds, Condition.holds, hadmits,
        hadmits]
      simp [checkBounds, Bounds.admits, Bounds.atLeast, Bounds.atMost]

/-- A rule without parts says of a value what it says as an atom. -/
theorem check_atom_eq_holds {rule : ValueRule} (h : ∃ b, rule.check value = .ok b) :
    rule.check value = .ok ((Condition.atom rule).holds (accepts value)) := by
  obtain ⟨b, hb⟩ := h
  rw [hb, Condition.holds, accepts_of_check hb]

theorem checkEvery_eq_all {truth : ValueRule → Bool} {parts : List ValueRule}
    (h : ∀ part ∈ parts, part.check value = .ok (truth part)) :
    checkEvery value parts = .ok (parts.all truth) := by
  induction parts with
  | nil => rfl
  | cons part parts ih =>
    obtain ⟨hpart, hparts⟩ := List.forall_mem_cons.1 h
    rw [checkEvery, hpart, List.all_cons]
    cases truth part with
    | true => exact ih hparts
    | false => rfl

theorem checkSome_eq_any {truth : ValueRule → Bool} {parts : List ValueRule}
    (h : ∀ part ∈ parts, part.check value = .ok (truth part)) :
    checkSome value parts = .ok (parts.any truth) := by
  induction parts with
  | nil => rfl
  | cons part parts ih =>
    obtain ⟨hpart, hparts⟩ := List.forall_mem_cons.1 h
    rw [checkSome, hpart, List.any_cons]
    cases truth part with
    | true => rfl
    | false => exact ih hparts

mutual

/-- A rule of which no leaf fails on a value says of it what its condition says. -/
theorem check_eq_holds : ∀ rule : ValueRule, (∀ leaf ∈ rule.leaves, ∃ b, leaf.check value = .ok b) →
    rule.check value = .ok (rule.condition.holds (accepts value))
  | range bounds, h => check_bounds_eq_holds (fun _ => rfl) (h _ List.mem_cons_self)
  | length bounds, h => check_bounds_eq_holds (fun _ => rfl) (h _ List.mem_cons_self)
  | pattern .., h => check_atom_eq_holds (h _ List.mem_cons_self)
  | oneOf .., h => check_atom_eq_holds (h _ List.mem_cons_self)
  | email, h => check_atom_eq_holds (h _ List.mem_cons_self)
  | url, h => check_atom_eq_holds (h _ List.mem_cons_self)
  | letters _, h => check_atom_eq_holds (h _ List.mem_cons_self)
  | alphanumeric .., h => check_atom_eq_holds (h _ List.mem_cons_self)
  | all first others, h => by
    obtain ⟨hfirst, hothers⟩ := List.forall_mem_append.1 h
    rw [check, check_eq_holds first hfirst, condition, Sql.Condition.holds_joinAll_and,
      conditions_eq_map, List.all_map]
    cases first.condition.holds (accepts value) with
    | true => exact checkEvery_eq_all (check_parts_eq_holds others hothers)
    | false => rfl
  | any first others, h => by
    obtain ⟨hfirst, hothers⟩ := List.forall_mem_append.1 h
    rw [check, check_eq_holds first hfirst, condition, Sql.Condition.holds_joinAll_or,
      conditions_eq_map, List.any_map]
    cases first.condition.holds (accepts value) with
    | true => rfl
    | false => exact checkSome_eq_any (check_parts_eq_holds others hothers)

theorem check_parts_eq_holds : ∀ parts : List ValueRule,
    (∀ leaf ∈ leavesOf parts, ∃ b, leaf.check value = .ok b) →
    ∀ part ∈ parts, part.check value = .ok (part.condition.holds (accepts value))
  | [], _ => by simp
  | part :: parts, h => by
    obtain ⟨hpart, hparts⟩ := List.forall_mem_append.1 h
    exact List.forall_mem_cons.2 ⟨check_eq_holds part hpart, check_parts_eq_holds parts hparts⟩

end

end ValueRule
end PgSchema
