/-
# White space and comments between tokens

A gap is what stands between two tokens.  It is cut into white space and comments, and the layout
reads it once more for its comments.  Here are the gaps that both read in the same way whatever
follows them, and the comments that end before the next token.

* `isGap_line` and `isGap_block` : comments that are cut off by themselves;
* `ofGap_openLine` : a line comment that no line feed ends takes the rest of its gap.
-/
import PgSchema.Proofs.Layout.Piece
import PgSchema.Proofs.Sql.Comment

namespace PgSchema.Layout

open Sql Text Glyph Lexeme

/-! ## Gaps as pieces -/

/-- Holds for a gap that is read by itself, whatever follows it. -/
def IsWhole (gap : List Char) : Prop :=
  ∀ rest, Piece.ofGap (gap ++ rest) = Piece.ofGap gap ++ Piece.ofGap rest

theorem isWhole_nil : IsWhole [] := fun _ => rfl

theorem isWhole_append {gap gap' : List Char} (h : IsWhole gap) (h' : IsWhole gap') :
    IsWhole (gap ++ gap') := by
  intro rest
  rw [List.append_assoc, h, h', h, List.append_assoc]

/-- A character that starts no comment mark is a piece by itself. -/
theorem ofGap_char {c : Char} (hdash : c ≠ '-') (hslash : c ≠ '/') (rest : List Char) :
    Piece.ofGap (c :: rest) = .loose [c] :: Piece.ofGap rest := by
  apply ofGap_cons_of_eq_none
  rw [Option.eq_none_iff_forall_ne_some]
  rintro ⟨kind, n⟩ hsome
  obtain ⟨ds, hc, -⟩ | ⟨ds, hc, -⟩ := comment?_eq_some_iff.1 hsome
  · exact hdash hc
  · exact hslash hc

theorem isWhole_char {c : Char} (hdash : c ≠ '-') (hslash : c ≠ '/') : IsWhole [c] := by
  intro rest
  rw [List.singleton_append, ofGap_char hdash hslash, ofGap_char hdash hslash]
  rfl

theorem isWhole_chars {cs : List Char} (h : ∀ c ∈ cs, c ≠ '-' ∧ c ≠ '/') : IsWhole cs := by
  induction cs with
  | nil => exact isWhole_nil
  | cons c cs ih =>
    obtain ⟨⟨hdash, hslash⟩, htail⟩ := List.forall_mem_cons.1 h
    exact isWhole_append (isWhole_char hdash hslash) (ih htail)

theorem ne_of_isBlank {c d : Char} (h : isBlank c = true) (hd : isBlank d = false) : c ≠ d := by
  rintro rfl
  rw [h] at hd
  exact absurd hd (by decide)

/-- White space starts no comment. -/
theorem ofGap_blank {c : Char} (h : isBlank c = true) (rest : List Char) :
    Piece.ofGap (c :: rest) = .loose [c] :: Piece.ofGap rest :=
  ofGap_char (ne_of_isBlank h (by decide)) (ne_of_isBlank h (by decide)) rest

theorem isWhole_blank {c : Char} (h : isBlank c = true) : IsWhole [c] :=
  isWhole_char (ne_of_isBlank h (by decide)) (ne_of_isBlank h (by decide))

theorem isWhole_blanks {bs : List Char} (h : bs.all isBlank = true) : IsWhole bs := by
  rw [List.all_eq_true] at h
  exact isWhole_chars fun c hc =>
    ⟨ne_of_isBlank (h c hc) (by decide), ne_of_isBlank (h c hc) (by decide)⟩

theorem lineLength_append {cs : List Char} (h : '\n' ∉ cs) (rest : List Char) :
    Piece.lineLength (cs ++ rest) = cs.length + Piece.lineLength rest := by
  induction cs with
  | nil => rw [List.nil_append, List.length_nil, Nat.zero_add]
  | cons c cs ih =>
    rw [List.mem_cons, not_or] at h
    have hc : ¬ (c == '\n') = true := by simpa using Ne.symm h.1
    rw [List.cons_append, Piece.lineLength, if_neg hc, ih h.2, List.length_cons]
    omega

/-- The first closing mark ends a block comment, whatever follows it. -/
theorem blockLength_append {v : List Char} (h : Piece.blockLength (v ++ ['*', '/']) = v.length + 2)
    (rest : List Char) : Piece.blockLength (v ++ ['*', '/'] ++ rest) = v.length + 2 := by
  induction v with
  | nil => rfl
  | cons c v ih =>
    have hhead : ∀ rest : List Char, (v ++ ['*', '/'] ++ rest).head? = (v ++ ['*', '/']).head? := by
      intro rest
      cases v <;> rfl
    rw [List.cons_append, Piece.blockLength] at h
    split at h
    · simp at h
    · next hopen =>
      rw [List.cons_append, List.cons_append, Piece.blockLength, hhead, if_neg hopen, ih ?_]
      · rw [List.length_cons]
        omega
      · rw [List.length_cons] at h
        omega

/-- A line comment with its line feed is one piece, whatever follows it. -/
theorem ofGap_closedLine {v : List Char} (h : '\n' ∉ v) (rest : List Char) :
    Piece.ofGap ('-' :: '-' :: (v ++ ['\n']) ++ rest) =
      .lineComment ('-' :: '-' :: (v ++ ['\n'])) :: Piece.ofGap rest := by
  have hlength : Piece.lineLength (v ++ ['\n'] ++ rest) = (v ++ ['\n']).length := by
    rw [List.append_assoc, lineLength_append h, List.length_append]
    rfl
  rw [List.cons_append, List.cons_append, ofGap_line, hlength, List.take_left, List.drop_left]

/-- A line comment that no line feed ends is one piece at the end of a gap. -/
theorem ofGap_openLine {v : List Char} (h : '\n' ∉ v) :
    Piece.ofGap ('-' :: '-' :: v) = [.lineComment ('-' :: '-' :: v)] := by
  have hlength := lineLength_append h []
  rw [List.append_nil] at hlength
  rw [ofGap_line, hlength, Piece.lineLength, Nat.add_zero, List.take_length, List.drop_length]
  rfl

/-- A block comment that its first closing mark ends is one piece, whatever follows it. -/
theorem ofGap_singleBlock {v : List Char}
    (h : Piece.blockLength (v ++ ['*', '/']) = v.length + 2) (rest : List Char) :
    Piece.ofGap ('/' :: '*' :: (v ++ ['*', '/']) ++ rest) =
      .blockComment ('/' :: '*' :: (v ++ ['*', '/'])) :: Piece.ofGap rest := by
  have hrest := blockLength_append h rest
  have hcount : v.length + 2 = (v ++ ['*', '/']).length := by simp
  rw [hcount] at hrest
  rw [List.cons_append, List.cons_append, ofGap_block, hrest, List.take_left, List.drop_left]

theorem isWhole_of_ofGap {t : List Char} {piece : Piece}
    (h : ∀ rest, Piece.ofGap (t ++ rest) = piece :: Piece.ofGap rest) : IsWhole t := by
  intro rest
  have hnil := h []
  rw [List.append_nil] at hnil
  rw [h, hnil]
  rfl

/-! ## Commands with a quoted body -/

/-- Holds where a statement ends. -/
def endsStatement : List Lexeme → Bool
  | [] => true
  | ℓ :: _ => ℓ.kind == .semicolon

/-- Holds for the lexemes behind the word of a command whose body is a quoted text, with white
space and comments before it. -/
def isQuotedBody : List Lexeme → Bool
  | [] => false
  | ℓ :: ℓs =>
    match ℓ.kind with
    | .blank | .lineBreak | .comment => isQuotedBody ℓs
    | .quoted => endsStatement ℓs
    | _ => false

/-- Only the last lexeme of a command stays as it is, and here it is the only one that matters. -/
theorem ofLexemesFrom_of_isQuotedBody {ℓs : List Lexeme} (h : isQuotedBody ℓs = true)
    (hstarts : ∀ ℓ ∈ ℓs, StartsAsKind ℓ) (body : List Lexeme) :
    Piece.ofLexemesFrom (.command body) ℓs =
      Piece.ofLexemesFrom (.between (body.reverse.flatMap (·.text)) false) ℓs := by
  -- white space and comments go into the gap on either side; the quoted text ends the command
  induction ℓs generalizing body with
  | nil => simp [isQuotedBody] at h
  | cons ℓ ℓs ih =>
    obtain ⟨hℓ, hstarts⟩ := List.forall_mem_cons.1 hstarts
    have hgap : ((ℓ :: body).reverse).flatMap (·.text) =
        body.reverse.flatMap (·.text) ++ ℓ.text := by simp
    rw [isQuotedBody] at h
    cases hkind : ℓ.kind with
    | blank | lineBreak | comment =>
      rw [hkind] at h
      simp only [Piece.ofLexemesFrom, hkind, ih h hstarts, hgap]
      rfl
    | quoted =>
      rw [hkind] at h
      -- a quoted text is not all blank, so the command is not taken for a gap
      have hnot : (body.reverse.flatMap (·.text) ++ ℓ.text).all isBlank = false := by
        obtain hℓ | hℓ | ⟨c, cs, htext, hc⟩ := hℓ
        · simp [hkind] at hℓ
        · simp [hkind] at hℓ
        · simp [htext, hc]
      have hcommand : Piece.ofCommand (ℓ :: body) =
          (Piece.ofGap (body.reverse.flatMap (·.text)) ++ [Piece.quoted ℓ.text], []) := by
        simp only [Piece.ofCommand, hgap, hnot, hkind]
        simp
      cases ℓs with
      | nil =>
        simp only [Piece.ofLexemesFrom, hkind, hcommand]
        simp
      | cons ℓ' ℓs =>
        have hkind' : ℓ'.kind = .semicolon := by simpa [endsStatement] using h
        simp only [Piece.ofLexemesFrom, hkind, hkind', hcommand]
        simp [ofGap_nil]
    | plain | parameter | semicolon | opening | command => simp [hkind] at h

/-! ## Gaps as lexemes -/

/-- Holds for white space and comments that join the gap before the next token, whatever follows
them. -/
def IsGap (t : List Char) : Prop :=
  ∀ (p : Bool) (cs : List Char) (ℓs : List Lexeme), scanFrom p 0 cs = .ok ℓs →
    ∃ ℓs', scanFrom p 0 (t ++ cs) = .ok ℓs' ∧ isQuotedBody ℓs' = isQuotedBody ℓs ∧
      ∀ gap fresh, Piece.ofLexemesFrom (.between gap fresh) ℓs' =
        Piece.ofLexemesFrom (.between (gap ++ t) fresh) ℓs

/-- Holds for white space and comments that are the gap at the end of a script. -/
def IsLastGap (t : List Char) : Prop :=
  ∀ p : Bool, ∃ ℓs, scanFrom p 0 t = .ok ℓs ∧ ∀ gap fresh,
    Piece.ofLexemesFrom (.between gap fresh) ℓs = Piece.ofGap (gap ++ t)

theorem isGap_nil : IsGap [] :=
  fun _ _ ℓs h => ⟨ℓs, h, rfl, fun gap _ => by rw [List.append_nil]⟩

theorem isGap_append {t u : List Char} (ht : IsGap t) (hu : IsGap u) : IsGap (t ++ u) := by
  intro p cs ℓs h
  obtain ⟨ℓs₁, hℓs₁, hbody₁, hplace₁⟩ := hu p cs ℓs h
  obtain ⟨ℓs₂, hℓs₂, hbody₂, hplace₂⟩ := ht p (u ++ cs) ℓs₁ hℓs₁
  refine ⟨ℓs₂, by rwa [List.append_assoc], hbody₂.trans hbody₁, fun gap fresh => ?_⟩
  rw [hplace₂, hplace₁, List.append_assoc]

theorem isLastGap_nil : IsLastGap [] := by
  intro p
  refine ⟨[], rfl, fun gap fresh => ?_⟩
  rw [List.append_nil]
  rfl

theorem isLastGap_append {t u : List Char} (ht : IsGap t) (hu : IsLastGap u) :
    IsLastGap (t ++ u) := by
  intro p
  obtain ⟨ℓs₁, hℓs₁, hplace₁⟩ := hu p
  obtain ⟨ℓs₂, hℓs₂, -, hplace₂⟩ := ht p u ℓs₁ hℓs₁
  refine ⟨ℓs₂, hℓs₂, fun gap fresh => ?_⟩
  rw [hplace₂, hplace₁, List.append_assoc]

/-- White space joins the gap before the next token. -/
theorem isGap_blank {c : Char} (hc : isBlank c = true) : IsGap [c] := by
  intro p cs ℓs h
  rw [List.singleton_append]
  by_cases htab : isSpaceOrTab c = true
  · -- spaces and tabs that follow belong to the same lexeme
    have hnext : next p c cs = .ok (.blank, (cs.takeWhile isSpaceOrTab).length) := by
      rw [next_of_isBlank hc, if_pos htab]
    cases cs with
    | nil =>
      obtain rfl := Except.ok.inj h
      exact ⟨_, scanFrom_cons_eq_ok_iff.2 ⟨_, _, _, hnext, h, rfl⟩, rfl, fun _ _ => rfl⟩
    | cons d cs =>
      by_cases hd : isSpaceOrTab d = true
      · obtain ⟨kind, n, rest, hnext', hrest, rfl⟩ := scanFrom_cons_eq_ok_iff.1 h
        rw [next_of_isBlank (isBlank_of_isSpaceOrTab hd), if_pos hd] at hnext'
        obtain ⟨rfl, rfl⟩ := Prod.mk.inj (Except.ok.inj hnext')
        rw [List.takeWhile_cons_of_pos hd, List.length_cons] at hnext
        refine ⟨_, scanFrom_cons_eq_ok_iff.2 ⟨_, _, rest, hnext, hrest, rfl⟩, rfl,
          fun gap fresh => ?_⟩
        rw [Piece.ofLexemesFrom, Piece.ofLexemesFrom, List.take_succ_cons, List.append_assoc]
        rfl
      · rw [List.takeWhile_cons_of_neg hd] at hnext
        exact ⟨_, scanFrom_cons_eq_ok_iff.2 ⟨_, _, ℓs, hnext, h, rfl⟩, rfl, fun _ _ => rfl⟩
  · have hnext : next p c cs = .ok (.lineBreak, 0) := by
      rw [next_of_isBlank hc, if_neg htab]
    exact ⟨_, scanFrom_cons_eq_ok_iff.2 ⟨_, _, ℓs, hnext, h, rfl⟩, rfl, fun _ _ => rfl⟩

theorem isGap_blanks {bs : List Char} (hbs : bs.all isBlank = true) : IsGap bs := by
  induction bs with
  | nil => exact isGap_nil
  | cons b bs ih =>
    rw [List.all_cons, Bool.and_eq_true] at hbs
    exact isGap_append (isGap_blank hbs.1) (ih hbs.2)

/-- The text of a line comment joins the gap before the next token, with what follows it. -/
theorem exists_scan_line {p : Bool} {body cs : List Char} (hbody : body.any endsLine = false)
    (hhead : ∀ c, cs.head? = some c → endsLine c = true) {ℓs : List Lexeme}
    (h : scanFrom p 0 cs = .ok ℓs) :
    ∃ ℓs', scanFrom p 0 ('-' :: '-' :: (body ++ cs)) = .ok ℓs' ∧
      isQuotedBody ℓs' = isQuotedBody ℓs ∧ ∀ gap fresh,
      Piece.ofLexemesFrom (.between gap fresh) ℓs' =
        Piece.ofLexemesFrom (.between (gap ++ '-' :: '-' :: body) fresh) ℓs := by
  refine ⟨_, scanFrom_cons_eq_ok_iff.2 ⟨_, _, ℓs, next_line p hbody hhead, ?_, rfl⟩, rfl,
    fun gap fresh => ?_⟩
  · rw [Nat.add_comm, List.drop_succ_cons, List.drop_left]
    exact h
  · rw [Nat.add_comm, List.take_succ_cons, List.take_left, Piece.ofLexemesFrom]

/-- A line comment with a line end and white space behind its text is cut off by itself. -/
theorem isGap_line {body u : List Char} (hbody : body.any endsLine = false) (hu : IsGap u)
    (hhead : u.head?.any endsLine = true) : IsGap ('-' :: '-' :: (body ++ u)) := by
  intro p cs ℓs h
  obtain ⟨ℓs₁, hℓs₁, hbody₁, hplace₁⟩ := hu p cs ℓs h
  have hends : ∀ c, (u ++ cs).head? = some c → endsLine c = true := by
    intro c hc
    cases u with
    | nil => simp at hhead
    | cons d u =>
      obtain rfl : d = c := Option.some.inj hc
      simpa using hhead
  obtain ⟨ℓs₂, hℓs₂, hbody₂, hplace₂⟩ := exists_scan_line hbody hends hℓs₁
  refine ⟨ℓs₂, ?_, hbody₂.trans hbody₁, fun gap fresh => ?_⟩
  · rw [← hℓs₂]
    simp
  · rw [hplace₂, hplace₁]
    simp

/-- A line comment at the end of a script, or before white space at its end. -/
theorem isLastGap_line {body u : List Char} (hbody : body.any endsLine = false)
    (hu : IsLastGap u) (hhead : ∀ c, u.head? = some c → endsLine c = true) :
    IsLastGap ('-' :: '-' :: (body ++ u)) := by
  intro p
  obtain ⟨ℓs₁, hℓs₁, hplace₁⟩ := hu p
  obtain ⟨ℓs₂, hℓs₂, -, hplace₂⟩ := exists_scan_line hbody hhead hℓs₁
  refine ⟨ℓs₂, hℓs₂, fun gap fresh => ?_⟩
  rw [hplace₂, hplace₁]
  simp

/-- A block comment is cut off by itself. -/
theorem isGap_block {w : List Char}
    (h : commentLength? ('/', '*') ('*', '/') 1 w = some w.length) : IsGap ('/' :: '*' :: w) := by
  intro p cs ℓs hcs
  have hnext := next_block p (t := w) (r := []) (by rwa [List.append_nil]) cs
  rw [List.cons_append, List.cons_append]
  refine ⟨_, scanFrom_cons_eq_ok_iff.2 ⟨_, _, ℓs, hnext, ?_, rfl⟩, rfl, fun gap fresh => ?_⟩
  · rwa [List.drop_succ_cons, List.drop_left]
  · rw [List.take_succ_cons, List.take_left, Piece.ofLexemesFrom]

/-! ## Comments that are read in one way -/

/-- Holds for a line comment with the line feed that ends it. -/
def IsClosedLine (t : List Char) : Prop :=
  ∃ v, t = '-' :: '-' :: (v ++ ['\n']) ∧ '\n' ∉ v ∧ IsGap t

/-- Holds for a line comment that a carriage return ends, with what stands between it and the next
token. -/
def IsOpenLine (t : List Char) : Prop :=
  ∃ v, t = '-' :: '-' :: v ∧ '\n' ∉ v ∧ '\r' ∈ v ∧ IsGap t

/-- Holds for a line comment that reaches to the end of a script. -/
def IsLastLine (t : List Char) : Prop :=
  ∃ v, t = '-' :: '-' :: v ∧ '\n' ∉ v ∧ IsLastGap t

/-- Holds for a block comment that its first closing mark ends. -/
def IsSingleBlock (t : List Char) : Prop :=
  ∃ v, t = '/' :: '*' :: (v ++ ['*', '/']) ∧
    Piece.blockLength (v ++ ['*', '/']) = v.length + 2 ∧ IsGap t

theorem isWhole_closedLine {t : List Char} (h : IsClosedLine t) : IsWhole t := by
  obtain ⟨v, rfl, hfeed, -⟩ := h
  exact isWhole_of_ofGap (ofGap_closedLine hfeed)

theorem isWhole_singleBlock {t : List Char} (h : IsSingleBlock t) : IsWhole t := by
  obtain ⟨v, rfl, hlength, -⟩ := h
  exact isWhole_of_ofGap (ofGap_singleBlock hlength)

end PgSchema.Layout
