/-
# Defaults written out and read back

A default that is read from a text is written out as the text without the blanks around it, or as
the usual spelling of the function or constant that the text names in any case.  Either of them is
read as the same default again.

* `DefaultValue.named?` : the default that a text in capitals names;
* `DefaultValue.parse_expression` : the expression of a default that was read from a text is read as
  this default.
-/
import PgSchema.DefaultValue
import PgSchema.Proofs.Text.Span

namespace PgSchema

open Text

namespace DefaultValue

variable {s text capitals : String} {d : DefaultValue}

/-! ## What a text stands for -/

/-- The defaults that a text can name. -/
def namedDefaults : List DefaultValue := knownFunctions ++ [null, boolean true, boolean false]

/-- The default that a text in capitals names. -/
def named? (capitals : String) : Option DefaultValue :=
  namedDefaults.find? fun d => upper d.expression == capitals

/-- The default that a text stands for when it names none: the text is the expression. -/
def ofWritten (text : String) : Checked DefaultValue :=
  if startsWith text "'" then make .literal text ("Parsed default: " ++ text)
  else if startsWith (upper text) "NEXTVAL(" then
    make .function text ("Parsed default: " ++ text)
  else ofExpression text

theorem parse_text (s : String) : parse (.text s) = ofText s := rfl

/-- A text is read by its name, and else as it is written without the blanks around it. -/
theorem ofText_eq (s : String) :
    ofText s = match named? (upper (trim s)) with
      | some d => .ok d
      | none => ofWritten (trim s) := by
  have hnull : upper null.expression = "NULL" := by decide
  have htrue : upper (boolean true).expression = "TRUE" := by decide
  have hfalse : upper (boolean false).expression = "FALSE" := by decide
  have hswap (word : String) : (word == upper (trim s)) = (upper (trim s) == word) := BEq.comm
  rw [ofText, named?, namedDefaults, List.find?_append]
  cases knownFunctions.find? fun d => upper d.expression == upper (trim s) with
  | some known => rfl
  | none =>
    simp only [Option.none_or, List.find?_cons, List.find?_nil, hnull, htrue, hfalse, hswap]
    cases upper (trim s) == "NULL" <;> cases upper (trim s) == "TRUE" <;>
      cases upper (trim s) == "FALSE" <;>
      simp only [if_true, if_false, Bool.false_eq_true, ofWritten]

theorem ofText_of_named? (h : named? (upper (trim s)) = some d) : ofText s = .ok d := by
  rw [ofText_eq, h]

theorem expression_of_make {kind : DefaultKind} {expression description : String}
    (h : make kind expression description = .ok d) : d.expression = expression := by
  unfold make at h
  split at h
  · cases h
  · cases h
    rfl

theorem expression_of_ofWritten (h : ofWritten text = .ok d) : d.expression = text := by
  unfold ofWritten at h
  split at h
  · exact expression_of_make h
  · split at h
    · exact expression_of_make h
    · exact expression_of_make h

/-! ## Reading an expression again -/

/-- The expression of a default that has a name is in capitals what names it. -/
theorem upper_trim_of_named? (h : named? capitals = some d) :
    upper (trim d.expression) = capitals := by
  have hbare : ∀ d ∈ namedDefaults, trim d.expression = d.expression := by decide
  rw [named?] at h
  have hupper := List.find?_some h
  rw [hbare d (List.mem_of_find?_eq_some h)]
  exact eq_of_beq hupper

/-- The expression of a default is read as the default. -/
theorem ofText_expression (h : ofText s = .ok d) : ofText d.expression = .ok d := by
  rw [ofText_eq] at h
  cases hnamed : named? (upper (trim s)) with
  | some named =>
    rw [hnamed] at h
    obtain rfl := Checked.ok.inj h
    rw [ofText_eq, upper_trim_of_named? hnamed, hnamed]
  | none =>
    rw [hnamed] at h
    rw [ofText_eq, expression_of_ofWritten h, trim_trim, hnamed, h]

/-- The expression of a default that was read from a text is read as a default of the same kind,
expression and description, which needs the same extensions, gives the same advice and fits the same
types. -/
theorem parse_expression (h : parse (.text s) = .ok d) :
    ∃ e, parse (.text d.expression) = .ok e ∧
      (e.kind = d.kind ∧ e.expression = d.expression ∧ e.description = d.description) ∧
      e.requiredExtensions = d.requiredExtensions ∧ e.warnings = d.warnings ∧
      ∀ sqlType, e.fits sqlType = d.fits sqlType := by
  rw [parse_text] at h ⊢
  exact ⟨d, ofText_expression h, ⟨rfl, rfl, rfl⟩, rfl, rfl, fun _ => rfl⟩

/-- A function that is named with a long s and blanks around it. -/
theorem parse_expression_timestamp :
    parse (.text " current_time\u017ftamp\n") = .ok currentTimestamp ∧
      ∃ e, parse (.text currentTimestamp.expression) = .ok e ∧ e.kind = .function ∧
        e.fits "timestamp" = true ∧ e.fits "date" = false := by
  have hcapitals : upper (trim " current_time\u017ftamp\n") = "CURRENT_TIMESTAMP" := by decide
  have hnamed : named? "CURRENT_TIMESTAMP" = some currentTimestamp :=
    List.find?_cons_of_pos (by decide)
  have hread : parse (.text " current_time\u017ftamp\n") = .ok currentTimestamp := by
    rw [parse_text]
    apply ofText_of_named?
    rw [hcapitals, hnamed]
  obtain ⟨e, hparse, ⟨hkind, -, -⟩, -, -, hfits⟩ := parse_expression hread
  refine ⟨hread, e, hparse, hkind, ?_, ?_⟩
  · rw [hfits]
    decide
  · rw [hfits]
    decide

end DefaultValue
end PgSchema
