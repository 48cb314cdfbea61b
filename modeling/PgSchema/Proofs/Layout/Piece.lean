/-
# The pieces of a script

The pieces of a script, joined in order, are the script.  A line comment takes the line feed
that ends it, or it reaches to the end of its gap and a token stands behind it; either way no
white space stands between the comment and a line end of its own.

* `flatMap_text_ofLexemes` : the pieces, joined in order, are the text of the lexemes;
* `linesClosed_ofLexemes` : a line comment with white space behind it ends with white space;
* `length_segments_ofLexemes_le` : there are no more segments than characters.
-/
import PgSchema.Proofs.Layout.Spread
import PgSchema.Proofs.Sql.Lexeme

namespace PgSchema.Layout

open Sql Text Glyph

/-! ## Line comments and what follows them -/

/-- Holds when the first glyph is a character of white space. -/
def StartsBlank (gs : List Glyph) : Prop := ∃ c, gs.head? = some (char c) ∧ isBlank c = true

/-- Holds for glyphs in which a line comment with white space right behind it ends with white
space itself. -/
def LinesClosed : List Glyph → Prop
  | [] => True
  | .char _ :: gs => LinesClosed gs
  | .segment mark text :: gs =>
    (mark = lineMark → StartsBlank gs → EndsBlank text) ∧ LinesClosed gs

theorem linesClosed_chars_append {cs : List Char} {gs : List Glyph} :
    LinesClosed (cs.map char ++ gs) ↔ LinesClosed gs := by
  induction cs with
  | nil => rfl
  | cons c cs ih => exact ih

theorem linesClosed_quoted (text : List Char) {gs : List Glyph} (h : LinesClosed gs) :
    LinesClosed (segment quotedMark text :: gs) :=
  ⟨fun hmark => absurd hmark (by decide), h⟩

theorem not_startsBlank_segment (mark : Char) (text : List Char) (gs : List Glyph) :
    ¬ StartsBlank (segment mark text :: gs) := by
  rintro ⟨c, hc, -⟩
  simp at hc

/-- A parted glyph right behind a segment has white space before it. -/
theorem startsBlank_of_parted {gs : List Glyph}
    (h : (glyphInk .joined gs).head?.any Prod.fst = true) : StartsBlank gs := by
  cases gs with
  | nil => simp [glyphInk] at h
  | cons g gs =>
    cases g with
    | char c =>
      refine ⟨c, rfl, ?_⟩
      rw [← Bool.not_eq_false]
      intro hc
      simp [glyphInk, hc] at h
    | segment mark text => simp [glyphInk] at h

theorem linesEnd_glyphInk {gs : List Glyph} (h : LinesClosed gs) (j : Joint) :
    LinesEnd (glyphInk j gs) := by
  induction gs generalizing j with
  | nil => trivial
  | cons g gs ih =>
    cases g with
    | char c =>
      rw [glyphInk]
      split
      · exact ih h _
      · exact ih h _
    | segment mark text =>
      exact ⟨fun hmark hparted => h.1 hmark (startsBlank_of_parted hparted), ih h.2 _⟩

/-! ## Gaps -/

open Piece

/-- A line comment ends with a line feed, or it is the rest of the text. -/
theorem take_lineLength (cs : List Char) :
    (∃ front, cs.take (lineLength cs) = front ++ ['\n']) ∨ lineLength cs = cs.length := by
  induction cs with
  | nil => exact .inr rfl
  | cons c cs ih =>
    rw [lineLength]
    by_cases hc : (c == '\n') = true
    · rw [if_pos hc, beq_iff_eq.1 hc]
      exact .inl ⟨[], rfl⟩
    · rw [if_neg hc, Nat.add_comm, List.take_succ_cons, List.length_cons]
      refine ih.imp ?_ (congrArg (· + 1))
      rintro ⟨front, hfront⟩
      exact ⟨c :: front, by rw [hfront, List.cons_append]⟩

/-- The comments in gaps. -/
theorem comment?_eq_some_iff {c : Char} {cs : List Char} {kind : List Char → Piece} {n : Nat} :
    Piece.comment? c cs = some (kind, n) ↔
      (∃ ds, c = '-' ∧ cs = '-' :: ds ∧ kind = lineComment ∧ n = 1 + lineLength ds) ∨
      (∃ ds, c = '/' ∧ cs = '*' :: ds ∧ kind = blockComment ∧ n = 1 + blockLength ds) := by
  constructor
  · intro h
    rw [Piece.comment?.eq_def] at h
    split at h
    · next ds =>
      obtain ⟨rfl, rfl⟩ := Prod.mk.inj (Option.some.inj h)
      exact .inl ⟨ds, rfl, rfl, rfl, rfl⟩
    · next ds =>
      obtain ⟨rfl, rfl⟩ := Prod.mk.inj (Option.some.inj h)
      exact .inr ⟨ds, rfl, rfl, rfl, rfl⟩
    · simp at h
  · rintro (⟨ds, rfl, rfl, rfl, rfl⟩ | ⟨ds, rfl, rfl, rfl, rfl⟩) <;> rfl

theorem ofGap_nil : ofGap [] = [] := rfl

theorem ofGap_cons_eq (c : Char) (cs : List Char) :
    ofGap (c :: cs) =
      match Piece.comment? c cs with
      | some (kind, n) => kind (c :: cs.take n) :: ofGapFrom n cs
      | none => loose [c] :: ofGap cs := rfl

theorem ofGapFrom_add_one (skip : Nat) (c : Char) (cs : List Char) :
    ofGapFrom (skip + 1) (c :: cs) = ofGapFrom skip cs := rfl

theorem ofGapFrom_eq_drop (skip : Nat) (cs : List Char) :
    ofGapFrom skip cs = ofGap (cs.drop skip) := by
  induction cs generalizing skip with
  | nil => rw [List.drop_nil]; rfl
  | cons c cs ih =>
    cases skip with
    | zero => rfl
    | succ skip => rw [ofGapFrom_add_one, ih, List.drop_succ_cons]

theorem ofGap_cons_of_eq_some {c : Char} {cs : List Char} {kind : List Char → Piece} {n : Nat}
    (h : Piece.comment? c cs = some (kind, n)) :
    ofGap (c :: cs) = kind (c :: cs.take n) :: ofGap (cs.drop n) := by
  rw [ofGap_cons_eq, h, ← ofGapFrom_eq_drop]

theorem ofGap_cons_of_eq_none {c : Char} {cs : List Char} (h : Piece.comment? c cs = none) :
    ofGap (c :: cs) = loose [c] :: ofGap cs := by
  rw [ofGap_cons_eq, h]

/-- A gap is read by comments: it is empty, starts with a line comment or a block comment, or
starts with a character that starts no comment. -/
theorem gap_induction {motive : List Char → Prop} (nil : motive [])
    (line : ∀ cs, motive (cs.drop (lineLength cs)) → motive ('-' :: '-' :: cs))
    (block : ∀ cs, motive (cs.drop (blockLength cs)) → motive ('/' :: '*' :: cs))
    (char : ∀ c cs, Piece.comment? c cs = none → motive cs → motive (c :: cs))
    (cs : List Char) : motive cs := by
  induction hn : cs.length using Nat.strongRecOn generalizing cs with
  | _ n ih =>
    cases cs with
    | nil => exact nil
    | cons c cs =>
      rw [List.length_cons] at hn
      cases h : Piece.comment? c cs with
      | none => exact char c cs h (ih cs.length (by omega) cs rfl)
      | some found =>
        obtain ⟨ds, rfl, rfl, -, -⟩ | ⟨ds, rfl, rfl, -, -⟩ := comment?_eq_some_iff.1 h
        · refine line ds (ih _ ?_ _ rfl)
          rw [List.length_drop, ← hn, List.length_cons]
          omega
        · refine block ds (ih _ ?_ _ rfl)
          rw [List.length_drop, ← hn, List.length_cons]
          omega

theorem ofGap_line (cs : List Char) : ofGap ('-' :: '-' :: cs) =
    lineComment ('-' :: '-' :: cs.take (lineLength cs)) :: ofGap (cs.drop (lineLength cs)) := by
  rw [ofGap_cons_of_eq_some (comment?_eq_some_iff.2 (.inl ⟨cs, rfl, rfl, rfl, rfl⟩)),
    Nat.add_comm, List.take_succ_cons, List.drop_succ_cons]

theorem ofGap_block (cs : List Char) : ofGap ('/' :: '*' :: cs) =
    blockComment ('/' :: '*' :: cs.take (blockLength cs)) :: ofGap (cs.drop (blockLength cs)) := by
  rw [ofGap_cons_of_eq_some (comment?_eq_some_iff.2 (.inr ⟨cs, rfl, rfl, rfl, rfl⟩)),
    Nat.add_comm, List.take_succ_cons, List.drop_succ_cons]

/-- The pieces of a gap, joined in order, are the gap. -/
theorem flatMap_text_ofGap (gap : List Char) : (ofGap gap).flatMap Piece.text = gap := by
  induction gap using gap_induction with
  | nil => rfl
  | line cs ih => rw [ofGap_line, List.flatMap_cons, ih]; simp [Piece.text]
  | block cs ih => rw [ofGap_block, List.flatMap_cons, ih]; simp [Piece.text]
  | char c cs h ih => rw [ofGap_cons_of_eq_none h, List.flatMap_cons, ih]; rfl

theorem ofPieces_cons (p : Piece) (ps : List Piece) :
    Glyph.ofPieces (p :: ps) = ofPiece p ++ Glyph.ofPieces ps := rfl

theorem ofPieces_append (ps qs : List Piece) :
    Glyph.ofPieces (ps ++ qs) = Glyph.ofPieces ps ++ Glyph.ofPieces qs := List.flatMap_append

/-- The line comments of a gap are closed if no white space follows the gap. -/
theorem linesClosed_ofGap_append {gs : List Glyph} (hgs : LinesClosed gs) (h : ¬ StartsBlank gs)
    (gap : List Char) : LinesClosed (Glyph.ofPieces (ofGap gap) ++ gs) := by
  induction gap using gap_induction with
  | nil => exact hgs
  | line cs ih =>
    rw [ofGap_line]
    refine ⟨fun _ hblank => ?_, ih⟩
    obtain ⟨front, hfront⟩ | hall := take_lineLength cs
    · simp only [EndsBlank, hfront, ← List.cons_append, List.getLast?_concat, Option.any_some]
      decide
    · rw [hall, List.drop_length] at hblank
      exact absurd hblank h
  | block cs ih =>
    rw [ofGap_block]
    exact ⟨fun hmark => absurd hmark (by decide), ih⟩
  | char c cs hc ih =>
    rw [ofGap_cons_of_eq_none hc]
    exact ih

/-! ## Commands -/

/-- What is left of the rest of a command as gap is white space. -/
theorem ofCommand_cases (body : List Lexeme) :
    ofCommand body = ([], body.reverse.flatMap (·.text)) ∨
    ∃ gap text, ofCommand body = (ofGap gap ++ [Piece.quoted text], []) ∧
      gap ++ text = body.reverse.flatMap (·.text) ∧ gap ++ text ≠ [] := by
  cases body with
  | nil => exact .inl rfl
  | cons last before =>
    simp only [ofCommand]
    split
    · exact .inl rfl
    · next hblank =>
      have hne : (last :: before).reverse.flatMap (·.text) ≠ [] := by
        intro hnil
        rw [hnil] at hblank
        exact hblank rfl
      split
      · exact .inr ⟨_, [], rfl, List.append_nil _, by rwa [List.append_nil]⟩
      · have htext : before.reverse.flatMap (·.text) ++ last.text =
            (last :: before).reverse.flatMap (·.text) := by simp
        exact .inr ⟨_, _, rfl, htext, htext ▸ hne⟩

theorem flatMap_text_ofCommand (body : List Lexeme) :
    (ofCommand body).1.flatMap Piece.text ++ (ofCommand body).2 =
      body.reverse.flatMap (·.text) := by
  obtain h | ⟨gap, text, h, htext, -⟩ := ofCommand_cases body
  · rw [h]
    rfl
  · rw [h, ← htext, List.flatMap_append, flatMap_text_ofGap]
    simp [Piece.text]

theorem linesClosed_ofCommand_append {gs : List Glyph} (hgs : LinesClosed gs)
    (h : ¬ StartsBlank gs) (body : List Lexeme) :
    LinesClosed (Glyph.ofPieces ((ofCommand body).1 ++ ofGap (ofCommand body).2) ++ gs) := by
  obtain hbody | ⟨gap, text, hbody, -⟩ := ofCommand_cases body
  · rw [hbody]
    exact linesClosed_ofGap_append hgs h _
  · rw [hbody, ofPieces_append, ofPieces_append, List.append_assoc, List.append_assoc]
    exact linesClosed_ofGap_append (linesClosed_quoted text hgs)
      (not_startsBlank_segment _ _ gs) gap

/-! ## Scripts -/

/-- The text that a place holds back. -/
def Piece.Place.held : Place → List Char
  | .between gap _ => gap
  | .command body => body.reverse.flatMap (·.text)

/-- The pieces that a place ends with. -/
def Piece.Place.flush : Place → List Piece
  | .between gap _ => ofGap gap
  | .command body => (ofCommand body).1 ++ ofGap (ofCommand body).2

theorem flatMap_text_flush (place : Place) : place.flush.flatMap Piece.text = place.held := by
  cases place with
  | between gap fresh => exact flatMap_text_ofGap gap
  | command body =>
    rw [Place.flush, List.flatMap_append, flatMap_text_ofGap, flatMap_text_ofCommand]
    rfl

theorem linesClosed_flush_append {gs : List Glyph} (hgs : LinesClosed gs) (h : ¬ StartsBlank gs)
    (place : Place) : LinesClosed (Glyph.ofPieces place.flush ++ gs) := by
  cases place with
  | between gap fresh => exact linesClosed_ofGap_append hgs h gap
  | command body => exact linesClosed_ofCommand_append hgs h body

theorem ofLexemesFrom_nil (place : Place) : ofLexemesFrom place [] = place.flush := by
  cases place <;> rfl

/-- A lexeme is held back, or it becomes a piece behind those that the place ends with. -/
theorem ofLexemesFrom_cons (place : Place) (ℓ : Lexeme) (ℓs : List Lexeme) :
    (∃ place', ofLexemesFrom place (ℓ :: ℓs) = ofLexemesFrom place' ℓs ∧
      place'.held = place.held ++ ℓ.text) ∨
    ∃ piece place',
      ofLexemesFrom place (ℓ :: ℓs) = place.flush ++ piece :: ofLexemesFrom place' ℓs ∧
      (piece = loose ℓ.text ∨ piece = quoted ℓ.text) ∧ ℓ.kind ≠ .blank ∧ ℓ.kind ≠ .lineBreak ∧
      place'.held = [] := by
  cases place with
  | command body =>
    by_cases hkind : ℓ.kind = .semicolon
    · refine .inr ⟨loose ℓ.text, .between [] true, ?_, .inl rfl, by simp [hkind], by simp [hkind],
        rfl⟩
      rw [ofLexemesFrom, if_pos hkind]
      rfl
    · refine .inl ⟨.command (ℓ :: body), ?_, by simp [Place.held]⟩
      rw [ofLexemesFrom, if_neg hkind]
  | between gap fresh =>
    rw [ofLexemesFrom]
    cases hkind : ℓ.kind with
    | blank => exact .inl ⟨_, rfl, rfl⟩
    | lineBreak => exact .inl ⟨_, rfl, rfl⟩
    | comment => exact .inl ⟨_, rfl, rfl⟩
    | quoted => exact .inr ⟨_, _, rfl, .inr rfl, by simp, by simp, rfl⟩
    | plain => exact .inr ⟨_, _, rfl, .inl rfl, by simp, by simp, rfl⟩
    | parameter => exact .inr ⟨_, _, rfl, .inl rfl, by simp, by simp, rfl⟩
    | semicolon => exact .inr ⟨_, _, rfl, .inl rfl, by simp, by simp, rfl⟩
    | opening => exact .inr ⟨_, _, rfl, .inl rfl, by simp, by simp, rfl⟩
    | command => exact .inr ⟨_, _, rfl, .inl rfl, by simp, by simp, by cases fresh <;> rfl⟩

theorem text_of_loose_or_quoted {piece : Piece} {text : List Char}
    (h : piece = loose text ∨ piece = quoted text) : piece.text = text := by
  rcases h with rfl | rfl <;> rfl

theorem flatMap_text_ofLexemesFrom (place : Place) (ℓs : List Lexeme) :
    (ofLexemesFrom place ℓs).flatMap Piece.text = place.held ++ ℓs.flatMap (·.text) := by
  induction ℓs generalizing place with
  | nil => rw [ofLexemesFrom_nil, flatMap_text_flush, List.flatMap_nil, List.append_nil]
  | cons ℓ ℓs ih =>
    obtain ⟨place', heq, hheld⟩ | ⟨piece, place', heq, hpiece, -, -, hheld⟩ :=
      ofLexemesFrom_cons place ℓ ℓs
    · rw [heq, ih, hheld, List.flatMap_cons, List.append_assoc]
    · rw [heq, List.flatMap_append, List.flatMap_cons, ih, flatMap_text_flush,
        text_of_loose_or_quoted hpiece, hheld, List.flatMap_cons]
      rfl

/-- The pieces of a script, joined in order, are the text of its lexemes. -/
theorem flatMap_text_ofLexemes (ℓs : List Lexeme) :
    (ofLexemes ℓs).flatMap Piece.text = ℓs.flatMap (·.text) :=
  flatMap_text_ofLexemesFrom _ ℓs

/-- A line comment of a script with white space right behind it ends with white space. -/
theorem linesClosed_ofLexemesFrom {ℓs : List Lexeme} (hℓs : ∀ ℓ ∈ ℓs, ℓ.StartsAsKind)
    (place : Place) : LinesClosed (Glyph.ofPieces (ofLexemesFrom place ℓs)) := by
  induction ℓs generalizing place with
  | nil =>
    rw [ofLexemesFrom_nil, ← List.append_nil (Glyph.ofPieces _)]
    have hnil : LinesClosed [] := trivial
    refine linesClosed_flush_append hnil ?_ place
    rintro ⟨c, hc, -⟩
    simp at hc
  | cons ℓ ℓs ih =>
    obtain ⟨hℓ, htail⟩ := List.forall_mem_cons.1 hℓs
    obtain ⟨place', heq, -⟩ | ⟨piece, place', heq, hpiece, hblank, hbreak, -⟩ :=
      ofLexemesFrom_cons place ℓ ℓs
    · rw [heq]
      exact ih htail place'
    · rw [heq, ofPieces_append, ofPieces_cons]
      rcases hpiece with rfl | rfl
      · refine linesClosed_flush_append (linesClosed_chars_append.2 (ih htail place')) ?_ place
        -- a token of loose text does not start with white space
        obtain h | h | ⟨c, cs, htext, hc⟩ := hℓ
        · exact absurd h hblank
        · exact absurd h hbreak
        · rintro ⟨d, hd, hd'⟩
          rw [htext] at hd
          obtain rfl := Glyph.char.inj (Option.some.inj hd)
          simp [hd'] at hc
      · exact linesClosed_flush_append (linesClosed_quoted ℓ.text (ih htail place'))
          (not_startsBlank_segment _ _ _) place

theorem linesClosed_ofLexemes {ℓs : List Lexeme} (hℓs : ∀ ℓ ∈ ℓs, ℓ.StartsAsKind) :
    LinesClosed (Glyph.ofPieces (ofLexemes ℓs)) :=
  linesClosed_ofLexemesFrom hℓs _

/-! ## Segments -/

theorem segments_append (ps qs : List Piece) : segments (ps ++ qs) = segments ps ++ segments qs :=
  List.filterMap_append

/-- The segments of a gap are comments, which have two characters or more. -/
theorem two_mul_length_segments_ofGap_le (gap : List Char) :
    2 * (segments (ofGap gap)).length ≤ gap.length := by
  induction gap using gap_induction with
  | nil => exact Nat.le_refl 0
  | line cs ih =>
    rw [List.length_drop] at ih
    rw [ofGap_line]
    change 2 * ((segments (ofGap (cs.drop (lineLength cs)))).length + 1) ≤ cs.length + 2
    omega
  | block cs ih =>
    rw [List.length_drop] at ih
    rw [ofGap_block]
    change 2 * ((segments (ofGap (cs.drop (blockLength cs)))).length + 1) ≤ cs.length + 2
    omega
  | char c cs h ih =>
    rw [ofGap_cons_of_eq_none h]
    exact Nat.le_succ_of_le ih

theorem length_segments_flush_le (place : Place) :
    (segments place.flush).length ≤ place.held.length := by
  cases place with
  | between gap fresh =>
    have hgap := two_mul_length_segments_ofGap_le gap
    change (segments (ofGap gap)).length ≤ gap.length
    omega
  | command body =>
    change (segments ((ofCommand body).1 ++ ofGap (ofCommand body).2)).length ≤
      (body.reverse.flatMap (·.text)).length
    obtain hbody | ⟨gap, text, hbody, htext, hne⟩ := ofCommand_cases body
    · have hgap := two_mul_length_segments_ofGap_le (body.reverse.flatMap (·.text))
      rw [hbody]
      change (segments (ofGap (body.reverse.flatMap (·.text)))).length ≤ _
      omega
    -- the last lexeme may be an empty segment, but a command with one has some text
    · have hgap := two_mul_length_segments_ofGap_le gap
      have hlength := List.length_pos_iff.2 hne
      rw [hbody, ofGap_nil, List.append_nil, segments_append, List.length_append, ← htext]
      change (segments (ofGap gap)).length + 1 ≤ (gap ++ text).length
      rw [List.length_append] at hlength ⊢
      omega

theorem length_segments_ofLexemesFrom_le {ℓs : List Lexeme} (hℓs : ∀ ℓ ∈ ℓs, ℓ.StartsAsKind)
    (place : Place) : (segments (ofLexemesFrom place ℓs)).length ≤
      (place.held ++ ℓs.flatMap (·.text)).length := by
  induction ℓs generalizing place with
  | nil =>
    rw [ofLexemesFrom_nil, List.flatMap_nil, List.append_nil]
    exact length_segments_flush_le place
  | cons ℓ ℓs ih =>
    obtain ⟨hstarts, htail⟩ := List.forall_mem_cons.1 hℓs
    obtain ⟨place', heq, hheld⟩ | ⟨piece, place', heq, hpiece, hblank, hbreak, hheld⟩ :=
      ofLexemesFrom_cons place ℓ ℓs
    · rw [heq, List.flatMap_cons, ← List.append_assoc, ← hheld]
      exact ih htail place'
    · obtain ⟨c, cs, htext, -⟩ := (hstarts.resolve_left hblank).resolve_left hbreak
      have hpieceLength : (segments [piece]).length ≤ 1 := List.length_filterMap_le _ _
      have hflush := length_segments_flush_le place
      have hrest := ih htail place'
      rw [hheld, List.nil_append] at hrest
      rw [heq, ← List.singleton_append, segments_append, segments_append, List.flatMap_cons, htext]
      simp only [List.length_append, List.length_cons]
      omega

/-- Every segment takes a character of the lexemes or more. -/
theorem length_segments_ofLexemes_le {ℓs : List Lexeme} (hℓs : ∀ ℓ ∈ ℓs, ℓ.StartsAsKind) :
    (segments (ofLexemes ℓs)).length ≤ (ℓs.flatMap (·.text)).length :=
  length_segments_ofLexemesFrom_le hℓs _

/-! ## Loose marks -/

/-- A character of loose text stands in the text of the pieces. -/
theorem isProper_ofPieces {ps : List Piece} (h : ∀ c ∈ ps.flatMap Piece.text, isMark c = false) :
    ∀ g ∈ Glyph.ofPieces ps, g.IsProper := by
  intro g hg
  obtain ⟨p, hp, hg⟩ := List.mem_flatMap.1 hg
  cases p with
  | loose text =>
    obtain ⟨c, hc, rfl⟩ := List.mem_map.1 hg
    exact h c (List.mem_flatMap.2 ⟨_, hp, hc⟩)
  | quoted text =>
    obtain rfl := List.mem_singleton.1 hg
    rfl
  | lineComment text =>
    obtain rfl := List.mem_singleton.1 hg
    rfl
  | blockComment text =>
    obtain rfl := List.mem_singleton.1 hg
    rfl

end PgSchema.Layout
