/-
# Upper and lower case

Full case conversion of text: a character may become several, and a capital sigma at the end
of a word becomes the final form.
-/
import PgSchema.Text.CaseTable

namespace PgSchema.Text

/-- The run that holds the code point, if any. -/
def CaseRun.find? (runs : List CaseRun) (n : Nat) : Option CaseRun :=
  runs.find? fun run => run.first ≤ n && n ≤ run.last && (n - run.first) % run.step == 0

/-- The conversion of one character: its expansion, else the shift of its run, else itself. -/
def convertCase (expansions : List (Nat × List Nat)) (runs : List CaseRun) (c : Char) :
    List Char :=
  match expansions.find? fun entry => entry.1 == c.toNat with
  | some (_, codes) => codes.map Char.ofNat
  | none =>
    match CaseRun.find? runs c.toNat with
    | some run => [Char.ofNat ((c.toNat : Int) + run.shift).toNat]
    | none => [c]

/-- The upper case of one character. -/
def upperChar (c : Char) : List Char := convertCase upperExpansions upperRuns c

/-- The lower case of one character, whatever stands beside it. -/
def lowerChar (c : Char) : List Char := convertCase lowerExpansions lowerRuns c

/-- The upper case of a text. -/
def upper (s : String) : String := String.ofList (s.toList.flatMap upperChar)

/-- Holds when the nearest character that is not passed over is a letter with case. -/
def nextIsCased (cs : List Char) : Bool :=
  match cs.dropWhile caseIgnorables.contains with
  | c :: _ => casedLetters.contains c
  | [] => false

/-- The lower case of the remaining text, where `before` holds the characters already passed,
nearest first: a capital sigma takes its final form after a cased letter and before none. -/
def lowerFrom (before : List Char) : List Char → List Char
  | [] => []
  | c :: cs =>
    (if c == 'Σ' then
      [if nextIsCased before && !nextIsCased cs then 'ς' else 'σ']
     else lowerChar c) ++ lowerFrom (c :: before) cs

/-- The lower case of a text. -/
def lower (s : String) : String := String.ofList (lowerFrom [] s.toList)

end PgSchema.Text
