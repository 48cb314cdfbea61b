/-
# Row security policies

A policy says which rows a command may see or write.  Without roles it applies to everyone.
-/
import PgSchema.Loading.Definition
import PgSchema.PolicyCommand
import PgSchema.Text.Case

namespace PgSchema

/-- A row security policy of a table. -/
@[ext] structure Policy where
  name : String
  command : PolicyCommand
  roles : List String
  /-- Which rows are visible. -/
  condition : String
  /-- Which rows may be written. -/
  checkCondition : Option String
  comment : Option String
  /-- A policy that is not permissive is restrictive. -/
  permissive : Bool
  name_nonempty : name ≠ ""

instance : DecidableEq Policy := fun _ _ => decidable_of_iff _ Policy.ext_iff.symm

namespace Policy

/-- The condition on written rows, unless it is empty. -/
def check? (p : Policy) : Option String := p.checkCondition.filter (· != "")

/-- Holds for a policy that checks written rows although its command writes none. -/
def checksInVain (p : Policy) : Bool := p.check?.isSome && !p.command.allowsCheck

/-! ## Reading and writing -/

def nameField : FieldName := { name := "name" }
def commandField : FieldName := { name := "command", alias? := some "for" }
def rolesField : FieldName := { name := "roles", alias? := some "to" }
def conditionField : FieldName := { name := "condition", alias? := some "using" }
def checkField : FieldName := { name := "check_condition", alias? := some "with_check" }
def commentField : FieldName := { name := "comment" }
def permissiveField : FieldName := { name := "permissive" }

/-- The fields of a policy. -/
def fields : List FieldName :=
  [nameField, commandField, rolesField, conditionField, checkField, commentField,
   permissiveField]

/-- Reads a command, in any case and with blanks around it. -/
def loadCommand : Document → Checked PolicyCommand
  | .text s => Loading.member (.text (Text.lower (Text.trim s)))
  | _ => .fault .notMember

/-- Reads a policy. -/
def load (d : Document) : Checked Policy :=
  d.asRecord fields fun entries =>
    (fun (name : Loading.NonemptyText) command roles condition checkCondition comment
        permissive =>
      ({ name := name.value, command, roles, condition, checkCondition, comment, permissive,
         name_nonempty := name.nonempty } : Policy))
      <$> entries.required nameField Loading.nonemptyText
      <*> entries.optional commandField .all loadCommand
      <*> entries.optional rolesField [] Loading.oneOrMoreTexts
      <*> entries.optional conditionField "" Loading.text
      <*> entries.nullable checkField Loading.text
      <*> entries.nullable commentField Loading.text
      <*> entries.optional permissiveField true Loading.flag

/-- The fields of a policy as they are written. -/
def written (p : Policy) : List Written :=
  [{ field := nameField, value := .text p.name },
   { field := commandField, value := .ofWord p.command, isDefault := p.command == .all },
   { field := rolesField, value := .ofTexts p.roles, isDefault := p.roles.isEmpty },
   { field := conditionField, value := .text p.condition, isDefault := p.condition == "" },
   { field := checkField, value := .ofText? p.checkCondition,
     isDefault := p.checkCondition.isNone },
   { field := commentField, value := .ofText? p.comment, isDefault := p.comment.isNone },
   { field := permissiveField, value := .flag p.permissive, isDefault := p.permissive }]

/-- Writes a policy as a record. -/
def save (style : Style) (p : Policy) : Document := style.record p.written

instance : Definition Policy := { load, save }

end Policy
end PgSchema
