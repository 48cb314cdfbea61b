/-
# Conditions read back

A condition in SQL consists of atoms, such as comparisons, that `AND` and `OR` put together.  `AND`
binds tighter than `OR`, and parentheses enclose a condition where an atom could stand.  The inside
of a literal, and what an atom has in parentheses, are passed over.  What binds tighter than both
stays in the atoms; `BETWEEN`, whose `AND` is no connective, is not read.

* `Condition.read?` : the condition that a text stands for, with the texts of its atoms;
* `IsOperand.enclosed` : a condition in parentheses is read as one operand;
* `reads_intercalate` : operands with a connective between them are read from the left.
-/
import Mathlib.Data.List.DropRight
import PgSchema.Proofs.Sql.Names

namespace PgSchema.Sql

/-- Atoms that are put together by conjunction and disjunction. -/
inductive Condition (α : Type)
  | atom (a : α)
  | and (x y : Condition α)
  | or (x y : Condition α)
deriving DecidableEq

/-- What puts two conditions together. -/
inductive Connective
  | and
  | or
deriving DecidableEq

namespace Connective

variable {α : Type}

def word : Connective → String
  | and => "AND"
  | or => "OR"

/-- Two conditions put together. -/
def join : Connective → Condition α → Condition α → Condition α
  | and => .and
  | or => .or

/-- Several conditions put together, from the left. -/
def joinAll (op : Connective) (first : Condition α) (others : List (Condition α)) : Condition α :=
  others.foldl op.join first

/-- A condition behind those that are put together already, if there are any. -/
def joinTo (op : Connective) : Option (Condition α) → Condition α → Condition α
  | some x => op.join x
  | none => id

end Connective

namespace Condition

variable {α β : Type}

/-- The condition with its atoms replaced. -/
def map (f : α → β) : Condition α → Condition β
  | atom a => atom (f a)
  | and x y => and (x.map f) (y.map f)
  | or x y => or (x.map f) (y.map f)

/-- The truth of a condition, given that of its atoms. -/
def holds (truth : α → Bool) : Condition α → Bool
  | atom a => truth a
  | and x y => x.holds truth && y.holds truth
  | or x y => x.holds truth || y.holds truth

theorem map_joinAll (f : α → β) (op : Connective) (first : Condition α)
    (others : List (Condition α)) :
    (op.joinAll first others).map f = op.joinAll (first.map f) (others.map (map f)) := by
  induction others generalizing first with
  | nil => rfl
  | cons second others ih =>
    have hjoin : (op.join first second).map f = op.join (first.map f) (second.map f) := by
      cases op <;> rfl
    exact (ih _).trans (by rw [hjoin]; rfl)

theorem holds_joinAll_and (truth : α → Bool) (first : Condition α) (others : List (Condition α)) :
    (Connective.and.joinAll first others).holds truth =
      (first.holds truth && others.all (holds truth)) := by
  induction others generalizing first with
  | nil => simp [Connective.joinAll]
  | cons second others ih =>
    refine (ih _).trans ?_
    rw [List.all_cons, ← Bool.and_assoc]
    rfl

theorem holds_joinAll_or (truth : α → Bool) (first : Condition α) (others : List (Condition α)) :
    (Connective.or.joinAll first others).holds truth =
      (first.holds truth || others.any (holds truth)) := by
  induction others generalizing first with
  | nil => simp [Connective.joinAll]
  | cons second others ih =>
    refine (ih _).trans ?_
    rw [List.any_cons, ← Bool.or_assoc]
    rfl

/-! ## Tokens -/

/-- The tokens of a condition; a literal is kept as it is written. -/
inductive Token
  | word (cs : List Char)
  | literal (cs : List Char)
  | opening
  | closing
  /-- Any other character, such as a blank or one of an operator. -/
  | sign (c : Char)
deriving DecidableEq

namespace Token

/-- The text of a token. -/
def text : Token → List Char
  | word cs => cs
  | literal cs => '\'' :: (cs ++ ['\''])
  | opening => ['(']
  | closing => [')']
  | sign c => [c]

def isBlank : Token → Bool
  | sign c => Text.isBlank c
  | _ => false

/-- The connective that a word stands for, in capitals or not. -/
def connective? : Token → Option Connective
  | word cs =>
    if cs.map Char.toUpper = Connective.and.word.toList then some .and
    else if cs.map Char.toUpper = Connective.or.word.toList then some .or
    else none
  | _ => none

/-- Holds for tokens behind an operand that do not belong to it, with `depth` parentheses open in
it. -/
def isBehind (depth : Nat) (t : Token) : Bool :=
  depth == 0 && (t == closing || t.connective?.isSome)

/-- The number of open parentheses behind a token. -/
def depthBehind (depth : Nat) : Token → Nat
  | opening => depth + 1
  | closing => depth - 1
  | _ => depth

/-- Holds for tokens that belong to an operand wherever they stand in it. -/
def isPlain (t : Token) : Bool := t != opening && t != closing && t.connective?.isNone

end Token

/-- Holds for the characters of words, of numbers and of names with a qualifier. -/
def isWordChar (c : Char) : Bool := continuesWord c || c == '.'

/-- Where a reader of tokens stands. -/
inductive Reading
  | between
  | word (cs : List Char)
  /-- Inside a literal. -/
  | literal (cs : List Char)
  /-- Behind a quote in a literal, which ends it or is doubled. -/
  | ended (cs : List Char)
deriving DecidableEq

namespace Reading

/-- What has been read of a token. -/
def text : Reading → List Char
  | between => []
  | word cs => cs
  | literal cs => '\'' :: cs
  | ended cs => '\'' :: (cs ++ ['\''])

/-- The token that has been read, unless it is a literal without its end. -/
def pending? : Reading → Option (List Token)
  | between => some []
  | word cs => some [.word cs]
  | literal _ => none
  | ended cs => some [.literal cs]

/-- Reads the first character of a token. -/
def begin (c : Char) : List Token × Reading :=
  if c = '\'' then ([], literal [])
  else if isWordChar c then ([], word [c])
  else if c = '(' then ([.opening], between)
  else if c = ')' then ([.closing], between)
  else ([.sign c], between)

/-- Reads a character, and gives the tokens that end in front of it or with it. -/
def step (r : Reading) (c : Char) : List Token × Reading :=
  match r with
  | between => begin c
  | word cs =>
    if isWordChar c then ([], word (cs ++ [c])) else (.word cs :: (begin c).1, (begin c).2)
  | literal cs => if c = '\'' then ([], ended cs) else ([], literal (cs ++ [c]))
  | ended cs =>
    if c = '\'' then ([], literal (cs ++ ['\'', '\'']))
    else (.literal cs :: (begin c).1, (begin c).2)

end Reading

/-- The tokens of the remaining text. -/
def tokensFrom (r : Reading) : List Char → Option (List Token)
  | [] => r.pending?
  | c :: cs => (tokensFrom (r.step c).2 cs).map ((r.step c).1 ++ ·)

/-- The tokens of a text, if its literals have ends. -/
def tokens? (s : String) : Option (List Token) := tokensFrom .between s.toList

/-! ## Reading conditions -/

/-- What stands at the place of an operand. -/
inductive Operand
  | missing
  /-- An atom, with the number of its open parentheses. -/
  | atom (tokens : List Token) (depth : Nat)
  | group (condition : Condition String)

namespace Operand

/-- The operand as a condition; blanks behind an atom do not belong to it. -/
def condition? : Operand → Option (Condition String)
  | missing => none
  | atom ts 0 =>
    some (.atom (String.ofList ((ts.rdropWhile Token.isBlank).flatMap Token.text)))
  | atom _ (_ + 1) => none
  | group x => some x

end Operand

/-- What has been read between two parentheses: a disjunction, the conjunction behind it, and the
operand behind that. -/
structure Level where
  disjunction : Option (Condition String) := none
  conjunction : Option (Condition String) := none
  operand : Operand := .missing

namespace Level

/-- The condition up to the operand. -/
def condition? (l : Level) : Option (Condition String) :=
  l.operand.condition?.map fun x =>
    Connective.or.joinTo l.disjunction (Connective.and.joinTo l.conjunction x)

/-- Puts the operand together with what is in front of it. -/
def connect? (op : Connective) (l : Level) : Option Level :=
  l.operand.condition?.map fun x =>
    let conjunction := Connective.and.joinTo l.conjunction x
    match op with
    | .and => { disjunction := l.disjunction, conjunction := some conjunction }
    | .or => { disjunction := some (Connective.or.joinTo l.disjunction conjunction) }

end Level

/-- The level that is read, and those around it. -/
structure Reader where
  level : Level
  outer : List Level

namespace Reader

/-- Puts something at the place of the operand. -/
def put (r : Reader) (operand : Operand) : Reader :=
  { r with level := { r.level with operand } }

/-- Ends the level: its condition is an operand of the level around it. -/
def close? (r : Reader) : Option Reader :=
  match r.outer with
  | [] => none
  | level :: outer => r.level.condition?.map fun x => put { level, outer } (.group x)

/-- Puts the operand together with what is in front of it. -/
def connect? (r : Reader) (op : Connective) : Option Reader :=
  (r.level.connect? op).map fun level => { r with level }

/-- Ends the operand: a connective or a parenthesis is behind it. -/
def endOperand? (r : Reader) (t : Token) : Option Reader :=
  match t.connective? with
  | some op => r.connect? op
  | none => r.close?

/-- Reads a token. -/
def step (r : Reader) (t : Token) : Option Reader :=
  match r.level.operand with
  | .missing =>
    if t = .opening then some { level := {}, outer := r.level :: r.outer }
    else if t.isBlank then some r
    else if t.isBehind 0 then none
    else some (r.put (.atom [t] 0))
  | .atom ts depth =>
    if t.isBehind depth then r.endOperand? t
    else some (r.put (.atom (ts ++ [t]) (t.depthBehind depth)))
  | .group _ => if t.isBlank then some r else if t.isBehind 0 then r.endOperand? t else none

end Reader

/-- The condition that tokens stand for. -/
def ofTokens? (ts : List Token) : Option (Condition String) := do
  let r ← ts.foldlM Reader.step { level := {}, outer := [] }
  if r.outer.isEmpty then r.level.condition? else none

/-- The condition that a text stands for. -/
def read? (s : String) : Option (Condition String) := (tokens? s).bind ofTokens?

/-- `AND` binds tighter than `OR`. -/
example : read? "a OR b AND c IN ('(', ' OR ')" =
    some (.or (.atom "a") (.and (.atom "b") (.atom "c IN ('(', ' OR ')"))) := by
  decide

/-- Parentheses enclose a condition in front of an atom, and belong to the atom inside it. -/
example : read? "(a or b) and length(c) > 0" =
    some (.and (.or (.atom "a") (.atom "b")) (.atom "length(c) > 0")) := by
  decide

/-! ## Tokens of joined texts -/

/-- Holds for the texts that end what stands in front of them, unless that is open. -/
def opens (s : String) : Bool := s.toList.head?.all fun c => !isWordChar c && c != '\''

/-- Holds for the texts that end with the end of a token. -/
def closes (s : String) : Bool :=
  s.toList.foldl (fun r c => (r.step c).2) Reading.between = .between

theorem Reading.text_step (r : Reading) (c : Char) :
    (r.step c).1.flatMap Token.text ++ (r.step c).2.text = r.text ++ [c] := by
  -- outside words and literals every character begins a token
  have hbegin : (begin c).1.flatMap Token.text ++ (begin c).2.text = [c] := by
    unfold begin
    split_ifs with hquote hword hopening hclosing
    · rw [hquote]
      rfl
    · rfl
    · rw [hopening]
      rfl
    · rw [hclosing]
      rfl
    · rfl
  cases r with
  | between => simpa [step, text] using hbegin
  | word cs =>
    rw [step]
    split_ifs
    · rfl
    · rw [List.flatMap_cons, List.append_assoc, hbegin]
      rfl
  | literal cs =>
    rw [step]
    split_ifs with hquote
    · simp [text, hquote]
    · simp [text]
  | ended cs =>
    rw [step]
    split_ifs with hquote
    · simp [text, hquote]
    · rw [List.flatMap_cons, List.append_assoc, hbegin]
      rfl

/-- Nothing of a text is lost in its tokens. -/
theorem flatMap_text_of_tokensFrom {r : Reading} {cs : List Char} {ts : List Token}
    (h : tokensFrom r cs = some ts) : ts.flatMap Token.text = r.text ++ cs := by
  induction cs generalizing r ts with
  | nil =>
    cases r with
    | literal => cases h
    | _ => obtain rfl := Option.some.inj h; simp [Reading.text, Token.text]
  | cons c cs ih =>
    obtain ⟨us, hus, rfl⟩ := Option.map_eq_some_iff.1 h
    rw [List.flatMap_append, ih hus, ← List.append_assoc, Reading.text_step, List.append_assoc,
      List.singleton_append]

theorem flatMap_text_of_tokens? {s : String} {ts : List Token} (h : tokens? s = some ts) :
    ts.flatMap Token.text = s.toList := flatMap_text_of_tokensFrom h

/-- Tokens of two texts, the second of which starts with a token of its own. -/
theorem tokensFrom_append {r : Reading} {cs ds : List Char} {ts : List Token}
    (h : tokensFrom r cs = some ts)
    (hapart : cs.foldl (fun r c => (r.step c).2) r = .between ∨
      ds.head?.all (fun c => !isWordChar c && c != '\'') = true) :
    tokensFrom r (cs ++ ds) = (tokensFrom .between ds).map (ts ++ ·) := by
  induction cs generalizing r ts with
  | nil =>
    rcases hapart with hclosed | hopens
    · obtain rfl : r = .between := hclosed
      obtain rfl := Option.some.inj h
      simp
    · cases ds with
      | nil =>
        simpa [tokensFrom, Reading.pending?] using h
      | cons d ds =>
        obtain ⟨hword, hquote⟩ : isWordChar d = false ∧ d ≠ '\'' := by simpa using hopens
        -- the character ends the token that is pending
        have hstep : r.step d = (ts ++ (Reading.begin d).1, (Reading.begin d).2) := by
          cases r with
          | literal => cases h
          | _ =>
            obtain rfl := Option.some.inj h
            simp [Reading.step, hword, hquote]
        rw [List.nil_append, tokensFrom, tokensFrom, hstep, Option.map_map]
        simp only [Reading.step, Function.comp_def, List.append_assoc]
  | cons c cs ih =>
    obtain ⟨us, hus, rfl⟩ := Option.map_eq_some_iff.1 h
    rw [List.cons_append, tokensFrom, ih hus hapart, Option.map_map]
    simp only [Function.comp_def, List.append_assoc]

theorem tokens?_append {s u : String} {ts us : List Token} (hs : tokens? s = some ts)
    (hu : tokens? u = some us) (h : closes s = true ∨ opens u = true) :
    tokens? (s ++ u) = some (ts ++ us) := by
  have hapart := h.imp_left fun hcloses => of_decide_eq_true hcloses
  rw [tokens?, String.toList_append, tokensFrom_append hs hapart]
  exact congrArg (Option.map (ts ++ ·)) hu

theorem opens_append {s : String} (u : String) (h : opens s = true) (hne : s ≠ "") :
    opens (s ++ u) = true := by
  obtain ⟨c, cs, hcs⟩ := List.exists_cons_of_ne_nil (mt String.toList_eq_nil_iff.1 hne)
  simpa [opens, String.toList_append, hcs] using h

/-! ## Tokens of names and literals -/

/-- Holds for plain names that are no connective: what can stand for a column in a condition. -/
def isColumnName (name : String) : Bool :=
  isPlainName name && (Token.word name.toList).connective?.isNone

theorem tokensFrom_word {cs ds : List Char} (h : ∀ d ∈ ds, isWordChar d = true) :
    tokensFrom (.word cs) ds = some [.word (cs ++ ds)] := by
  induction ds generalizing cs with
  | nil => simp [tokensFrom, Reading.pending?]
  | cons d ds ih =>
    obtain ⟨hd, hds⟩ := List.forall_mem_cons.1 h
    rw [tokensFrom, Reading.step, if_pos hd, ih hds]
    simp

/-- A plain name is a word. -/
theorem tokens?_name {name : String} (h : isPlainName name = true) :
    tokens? name = some [.word name.toList] := by
  have hword {c : Char} (hc : continuesWord c = true) : isWordChar c = true := by
    rw [isWordChar, hc, Bool.true_or]
  unfold isPlainName at h
  split at h
  · cases h
  · next c cs hcs =>
    obtain ⟨hstart, hrest⟩ := Bool.and_eq_true_iff.1 h
    have hc : isWordChar c = true := hword (by rw [continuesWord, hstart]; rfl)
    have hquote : c ≠ '\'' := by
      rintro rfl
      exact absurd hstart (by decide)
    rw [tokens?, hcs, tokensFrom, Reading.step, Reading.begin, if_neg hquote, if_pos hc,
      tokensFrom_word fun d hd => hword (List.all_eq_true.1 hrest d hd)]
    rfl

theorem tokensFrom_literal (cs ds : List Char) :
    tokensFrom (.literal cs) (escapeChars ds ++ ['\'']) =
      some [.literal (cs ++ escapeChars ds)] := by
  induction ds generalizing cs with
  | nil => simp [escapeChars, tokensFrom, Reading.step, Reading.pending?]
  | cons d ds ih =>
    unfold escapeChars
    split
    · simp [tokensFrom, Reading.step, ih]
    · next hd =>
      have hquote : d ≠ '\'' := by simpa using hd
      simp [tokensFrom, Reading.step, hquote, ih]

/-- The literal of a text is one token, whatever the text. -/
theorem tokens?_literal (s : String) :
    tokens? (literal s) = some [.literal (escapeChars s.toList)] := by
  have hlist : (literal s).toList = '\'' :: (escapeChars s.toList ++ ['\'']) := by
    simp [literal, escape, String.toList_append]
  rw [tokens?, hlist]
  exact congrArg (Option.map ([] ++ ·)) (tokensFrom_literal [] s.toList)

/-- A text without quotes has tokens. -/
theorem exists_tokens? {s : String} (h : '\'' ∉ s.toList) : ∃ ts, tokens? s = some ts := by
  have hfrom (cs : List Char) (hcs : '\'' ∉ cs) :
      ∀ r : Reading, (∃ w, r = .word w) ∨ r = .between → ∃ ts, tokensFrom r cs = some ts := by
    induction cs with
    | nil => rintro r (⟨w, rfl⟩ | rfl) <;> exact ⟨_, rfl⟩
    | cons c cs ih =>
      intro r hr
      obtain ⟨hc, hrest⟩ : '\'' ≠ c ∧ '\'' ∉ cs := by simpa using hcs
      have hbegin : (∃ w, (Reading.begin c).2 = .word w) ∨ (Reading.begin c).2 = .between := by
        unfold Reading.begin
        split_ifs <;> simp_all
      have hnext : (∃ w, (r.step c).2 = .word w) ∨ (r.step c).2 = .between := by
        rcases hr with ⟨w, rfl⟩ | rfl
        · rw [Reading.step]
          split_ifs
          · exact .inl ⟨_, rfl⟩
          · exact hbegin
        · exact hbegin
      obtain ⟨ts, hts⟩ := ih hrest _ hnext
      exact ⟨_, by rw [tokensFrom, hts]; rfl⟩
  exact hfrom s.toList h .between (.inr rfl)

/-! ## Operands -/

/-- Holds for tokens that lead from an atom with `depth` open parentheses to its end. -/
def endsAtom (depth : Nat) : List Token → Bool
  | [] => depth == 0
  | t :: ts => !t.isBehind depth && endsAtom (t.depthBehind depth) ts

theorem endsAtom_append_of_isPlain {depth : Nat} {ts : List Token} (us : List Token)
    (h : ∀ t ∈ ts, t.isPlain = true) : endsAtom depth (ts ++ us) = endsAtom depth us := by
  induction ts with
  | nil => rfl
  | cons t ts ih =>
    obtain ⟨ht, hts⟩ := List.forall_mem_cons.1 h
    simp only [Token.isPlain, Bool.and_eq_true, bne_iff_ne, Option.isNone_iff_eq_none] at ht
    obtain ⟨⟨hopening, hclosing⟩, hconnective⟩ := ht
    have hbehind : t.isBehind depth = false := by simp [Token.isBehind, hclosing, hconnective]
    have hdepth : t.depthBehind depth = depth := by
      unfold Token.depthBehind
      split <;> simp_all
    rw [List.cons_append, endsAtom, hbehind, hdepth, ih hts]
    rfl

/-- A condition that stands for a text at the place of an operand, whatever is in front of it. -/
def IsOperand (s : String) (x : Condition String) : Prop :=
  ∃ ts, tokens? s = some ts ∧ ∀ r : Reader, r.level.operand = .missing →
    ∃ operand, ts.foldlM Reader.step r = some (r.put operand) ∧ operand.condition? = some x

/-- A condition that stands for a text between two parentheses, whatever is around them. -/
def Reads (s : String) (x : Condition String) : Prop :=
  ∃ ts, tokens? s = some ts ∧ ∀ outer, ∃ level,
    ts.foldlM Reader.step { level := {}, outer } = some { level, outer } ∧
      level.condition? = some x

theorem Reads.read? {s : String} {x : Condition String} (h : Reads s x) : read? s = some x := by
  obtain ⟨ts, hts, hrun⟩ := h
  obtain ⟨level, hlevel, hx⟩ := hrun []
  simp [Condition.read?, hts, ofTokens?, hlevel, hx]

namespace Reader

/-- Reads an atom to its end. -/
theorem foldlM_step_atom {r : Reader} {depth : Nat} {ts : List Token} (us : List Token)
    (h : endsAtom depth ts = true) :
    ts.foldlM step (r.put (.atom us depth)) = some (r.put (.atom (us ++ ts) 0)) := by
  induction ts generalizing us depth with
  | nil =>
    obtain rfl : depth = 0 := by simpa [endsAtom] using h
    simp
  | cons t ts ih =>
    obtain ⟨hbehind, hrest⟩ := Bool.and_eq_true_iff.1 h
    have hstep : step (r.put (.atom us depth)) t =
        some (r.put (.atom (us ++ [t]) (t.depthBehind depth))) := by
      simp only [Bool.not_eq_true'] at hbehind
      simp [step, put, hbehind]
    rw [List.foldlM_cons, hstep]
    have hnext := ih (us ++ [t]) hrest
    simpa using hnext

/-- A closing parenthesis ends a level with a condition. -/
theorem step_closing {level l : Level} {outer : List Level} {x : Condition String}
    (h : l.condition? = some x) :
    step { level := l, outer := level :: outer } .closing =
      some (put { level, outer } (.group x)) := by
  have hclose : endOperand? { level := l, outer := level :: outer } .closing =
      some (put { level, outer } (.group x)) := by
    simp [endOperand?, Token.connective?, close?, h]
  obtain ⟨disjunction, conjunction, operand⟩ := l
  cases operand with
  | missing => cases h
  | group y => exact hclose
  | atom ts depth =>
    cases depth with
    | zero => exact hclose
    | succ depth => cases h

/-- A connective between blanks puts the operand together with what is in front of it. -/
theorem foldlM_step_connective (op : Connective) {r : Reader} {x : Condition String}
    (h : r.level.operand.condition? = some x) :
    [Token.sign ' ', .word op.word.toList, .sign ' '].foldlM step r = r.connect? op := by
  have hword : (Token.word op.word.toList).connective? = some op := by cases op <;> rfl
  have hspace : (Token.sign ' ').isBlank = true := by decide
  -- behind the connective there is no operand, so the second blank is passed over
  have hblank (r' : Reader) (h' : r'.level.operand.condition? = some x) :
      (r'.connect? op).bind (step · (.sign ' ')) = r'.connect? op := by
    simp only [connect?, Level.connect?, h', Option.map_some, Option.bind_some]
    cases op <;> rfl
  obtain ⟨⟨disjunction, conjunction, operand⟩, outer⟩ := r
  cases operand with
  | missing => cases h
  | group y =>
    have hfirst : step ⟨⟨disjunction, conjunction, .group y⟩, outer⟩ (.sign ' ') =
        some ⟨⟨disjunction, conjunction, .group y⟩, outer⟩ := by
      simp [step, hspace]
    have hsecond : step ⟨⟨disjunction, conjunction, .group y⟩, outer⟩ (.word op.word.toList) =
        connect? ⟨⟨disjunction, conjunction, .group y⟩, outer⟩ op := by
      simp [step, Token.isBlank, Token.isBehind, endOperand?, hword]
    simpa [hfirst, hsecond] using hblank _ h
  | atom ts depth =>
    cases depth with
    | succ depth => cases h
    | zero =>
      have hsame : (Operand.atom (ts ++ [Token.sign ' ']) 0).condition? =
          (Operand.atom ts 0).condition? := by
        rw [Operand.condition?, Operand.condition?, List.rdropWhile_concat_pos _ _ _ rfl]
      have hconnect :
          connect? ⟨⟨disjunction, conjunction, .atom (ts ++ [Token.sign ' ']) 0⟩, outer⟩ op =
            connect? ⟨⟨disjunction, conjunction, .atom ts 0⟩, outer⟩ op := by
        simp only [connect?, Level.connect?, hsame]
      have hfirst : step ⟨⟨disjunction, conjunction, .atom ts 0⟩, outer⟩ (.sign ' ') =
          some ⟨⟨disjunction, conjunction, .atom (ts ++ [Token.sign ' ']) 0⟩, outer⟩ := rfl
      have hsecond : step ⟨⟨disjunction, conjunction, .atom (ts ++ [Token.sign ' ']) 0⟩, outer⟩
          (.word op.word.toList) = connect? ⟨⟨disjunction, conjunction, .atom ts 0⟩, outer⟩ op := by
        simp [step, Token.isBehind, endOperand?, hword, hconnect]
      simpa [hfirst, hsecond] using hblank _ h

end Reader

/-- A condition in parentheses is an operand. -/
theorem IsOperand.enclosed {s : String} {x : Condition String} (h : Reads s x) :
    IsOperand ("(" ++ s ++ ")") x := by
  obtain ⟨ts, hts, hrun⟩ := h
  have hopening : tokens? "(" = some [.opening] := by decide
  have hclosing : tokens? ")" = some [.closing] := by decide
  refine ⟨[Token.opening] ++ (ts ++ [Token.closing]), ?_, fun r hr => ⟨.group x, ?_, rfl⟩⟩
  · rw [String.append_assoc]
    exact tokens?_append hopening (tokens?_append hts hclosing (.inr (by decide)))
      (.inl (by decide))
  · obtain ⟨level, hlevel, hx⟩ := hrun (r.level :: r.outer)
    have hstep : r.step .opening = some { level := {}, outer := r.level :: r.outer } := by
      simp [Reader.step, hr]
    simp [hstep, hlevel, Reader.step_closing hx]

/-- A text is an atom if it starts with a word that is no connective and the other tokens lead to
the end of an atom, the last of them no blank. -/
theorem isOperand_atom {s : String} {cs : List Char} {ts : List Token}
    (hs : tokens? s = some (.word cs :: ts)) (hcs : (Token.word cs).connective? = none)
    (hends : endsAtom 0 ts = true) (hlast : ∀ t ∈ ts.getLast?, t.isBlank = false) :
    IsOperand s (.atom s) := by
  refine ⟨_, hs, fun r hr => ⟨.atom (.word cs :: ts) 0, ?_, ?_⟩⟩
  · have hstep : r.step (.word cs) = some (r.put (.atom [.word cs] 0)) := by
      simp [Reader.step, hr, Token.isBlank, Token.isBehind, hcs]
    rw [List.foldlM_cons, hstep]
    exact Reader.foldlM_step_atom _ hends
  · have hkeeps : (Token.word cs :: ts).rdropWhile Token.isBlank = .word cs :: ts := by
      rw [List.rdropWhile_eq_self_iff]
      intro hne
      have hmem := List.getLast?_eq_some_getLast hne
      cases ts with
      | nil => exact Bool.false_ne_true
      | cons t ts => simpa using hlast _ (by simpa using hmem)
    rw [Operand.condition?, hkeeps, flatMap_text_of_tokens? hs, String.ofList_toList]

namespace Level

/-- A level with something in front of a connective, without the operand behind it. -/
def behind : Connective → Option (Condition String) → Level
  | .and, x => { conjunction := x }
  | .or, x => { disjunction := x }

variable {operand : Operand} {y : Condition String}

theorem condition?_behind (op : Connective) (x : Option (Condition String))
    (h : operand.condition? = some y) :
    condition? { behind op x with operand } = some (op.joinTo x y) := by
  rw [condition?, h]
  cases op <;> rfl

theorem connect?_behind (op : Connective) (x : Option (Condition String))
    (h : operand.condition? = some y) :
    connect? op { behind op x with operand } = some (behind op (some (op.joinTo x y))) := by
  rw [connect?, h]
  cases op <;> rfl

end Level

/-- Operands with a connective between them are put together from the left. -/
theorem reads_intercalate {β : Type} (op : Connective) (text : β → String)
    (condition : β → Condition String) (first : β) (others : List β)
    (h : ∀ part ∈ first :: others, IsOperand (text part) (condition part)) :
    Reads ((" " ++ op.word ++ " ").intercalate ((first :: others).map text))
      (op.joinAll (condition first) (others.map condition)) := by
  have hseparator : tokens? (" " ++ op.word ++ " ") =
      some [.sign ' ', .word op.word.toList, .sign ' '] := by
    cases op <;> decide
  -- what is in front of the first operand makes the induction go through
  suffices hbehind : ∃ ts,
      tokens? ((" " ++ op.word ++ " ").intercalate ((first :: others).map text)) = some ts ∧
      ∀ x outer, ∃ level,
        ts.foldlM Reader.step { level := Level.behind op x, outer } = some { level, outer } ∧
        level.condition? =
          some (op.joinAll (op.joinTo x (condition first)) (others.map condition)) by
    obtain ⟨ts, hts, hrun⟩ := hbehind
    refine ⟨ts, hts, fun outer => ?_⟩
    have hnone : Level.behind op none = {} := by cases op <;> rfl
    have hfirst := hrun none outer
    rwa [hnone] at hfirst
  induction others generalizing first with
  | nil =>
    obtain ⟨ts, hts, hrun⟩ := h first List.mem_cons_self
    refine ⟨ts, by simpa using hts, fun x outer => ?_⟩
    obtain ⟨operand, hoperand, hcondition⟩ :=
      hrun { level := Level.behind op x, outer } (by cases op <;> rfl)
    exact ⟨_, hoperand, Level.condition?_behind op x hcondition⟩
  | cons second others ih =>
    obtain ⟨hhead, htail⟩ := List.forall_mem_cons.1 h
    obtain ⟨ts, hts, hrun⟩ := hhead
    obtain ⟨us, hus, hrest⟩ := ih second htail
    refine ⟨ts ++ ([Token.sign ' ', .word op.word.toList, .sign ' '] ++ us), ?_, fun x outer => ?_⟩
    · rw [List.map_cons, List.map_cons, String.intercalate_cons_cons, String.append_assoc]
      refine tokens?_append hts (tokens?_append hseparator hus (.inl ?_)) (.inr ?_)
      · cases op <;> decide
      · exact opens_append _ (by cases op <;> decide) (by cases op <;> decide)
    · obtain ⟨operand, hoperand, hcondition⟩ :=
        hrun { level := Level.behind op x, outer } (by cases op <;> rfl)
      have hconnect :
          Reader.connect? (Reader.put { level := Level.behind op x, outer } operand) op =
          some { level := Level.behind op (some (op.joinTo x (condition first))), outer } := by
        rw [Reader.connect?, Reader.put, Level.connect?_behind op x hcondition]
        rfl
      obtain ⟨level, hlevel, hx⟩ := hrest (some (op.joinTo x (condition first))) outer
      refine ⟨level, ?_, hx⟩
      rw [List.foldlM_append, hoperand, Option.bind_eq_bind, Option.bind_some, List.foldlM_append,
        Reader.foldlM_step_connective op hcondition, hconnect]
      exact hlevel

/-- An operand stands for a condition alone, too. -/
theorem IsOperand.reads {s : String} {x : Condition String} (h : IsOperand s x) : Reads s x := by
  have hread : Reads ((" " ++ Connective.and.word ++ " ").intercalate [s])
      (Connective.and.joinAll x []) :=
    reads_intercalate .and (fun _ => s) (fun _ => x) () [] fun _ _ => h
  rwa [String.intercalate_singleton] at hread

end Condition
end PgSchema.Sql
