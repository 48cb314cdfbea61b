/-
# Verbatim texts in layouts

The segments of a script stand in its layout as they are.  The tokenizer's quoted texts and comments
lie in segments where the layout finds the same comments and no command holds them back.

* `inOrder_of_within` : texts within the segments of glyphs stand in their text, in order;
* `within_ofLexemes` : verbatim texts lie within segments;
* `format_keeps_verbatim` : the verbatim texts of a script stand in its layout, in order.
-/
import PgSchema.Proofs.Layout.Format
import PgSchema.Proofs.Layout.Regular
import PgSchema.Proofs.Sql.Verbatim
import PgSchema.Text.Search

namespace PgSchema.Layout

open Sql Text Glyph Lexeme

/-! ## Texts in order -/

/-- Holds when texts stand one behind the other in a text. -/
def InOrder : List (List Char) → List Char → Prop
  | [], _ => True
  | t :: ts, cs => ∃ front rest, cs = front ++ (t ++ rest) ∧ InOrder ts rest

theorem inOrder_append_left {ts : List (List Char)} {cs : List Char} (h : InOrder ts cs)
    (front : List Char) : InOrder ts (front ++ cs) := by
  cases ts with
  | nil => trivial
  | cons t ts =>
    obtain ⟨front', rest, rfl, hrest⟩ := h
    exact ⟨front ++ front', rest, (List.append_assoc ..).symm, hrest⟩

theorem inOrder_append {ts us : List (List Char)} {cs ds : List Char} (h : InOrder ts cs)
    (h' : InOrder us ds) : InOrder (ts ++ us) (cs ++ ds) := by
  induction ts generalizing cs with
  | nil => exact inOrder_append_left h' cs
  | cons t ts ih =>
    obtain ⟨front, rest, rfl, hrest⟩ := h
    exact ⟨front, rest ++ ds, by simp, ih hrest⟩

/-- A single text stands in a text when it is part of it. -/
theorem inOrder_singleton_iff {t cs : List Char} : InOrder [t] cs ↔ t <:+: cs := by
  constructor
  · rintro ⟨front, rest, rfl, -⟩
    exact ⟨front, rest, List.append_assoc ..⟩
  · rintro ⟨front, rest, rfl⟩
    exact ⟨front, rest, List.append_assoc .., trivial⟩

theorem inOrder_singleton (t : List Char) : InOrder [t] t :=
  ⟨[], [], by simp, trivial⟩

/-- Some of the texts that stand in a text stand in it, in their order. -/
theorem inOrder_of_sublist {ts us : List (List Char)} (hsub : us.Sublist ts) {cs : List Char}
    (h : InOrder ts cs) : InOrder us cs := by
  induction hsub generalizing cs with
  | slnil => trivial
  | cons t _ ih =>
    obtain ⟨front, rest, rfl, hrest⟩ := h
    exact inOrder_append_left (inOrder_append_left (ih hrest) t) front
  | cons_cons t _ ih =>
    obtain ⟨front, rest, rfl, hrest⟩ := h
    exact ⟨front, rest, rfl, ih hrest⟩

/-- Holds when texts stand one behind the other in other texts, each in one of them. -/
def Within : List (List Char) → List (List Char) → Prop
  | ts, [] => ts = []
  | ts, cs :: css => ∃ us vs, ts = us ++ vs ∧ InOrder us cs ∧ Within vs css

theorem within_nil (css : List (List Char)) : Within [] css := by
  induction css with
  | nil => exact rfl
  | cons cs css ih => exact ⟨[], [], rfl, trivial, ih⟩

theorem within_cons {ts us : List (List Char)} {cs : List Char} {css : List (List Char)}
    (hts : InOrder ts cs) (h : Within us css) : Within (ts ++ us) (cs :: css) :=
  ⟨ts, us, rfl, hts, h⟩

theorem within_append {ts us css css' : List (List Char)} (h : Within ts css)
    (h' : Within us css') : Within (ts ++ us) (css ++ css') := by
  induction css generalizing ts with
  | nil =>
    obtain rfl : ts = [] := h
    exact h'
  | cons cs css ih =>
    obtain ⟨vs, ws, rfl, hvs, hws⟩ := h
    rw [List.append_assoc]
    exact within_cons hvs (ih hws)

/-- The segments of glyphs stand in their text. -/
theorem inOrder_of_within {ts : List (List Char)} {gs : List Glyph}
    (h : Within ts (segmentsOf gs)) : InOrder ts (textOf gs) := by
  induction gs generalizing ts with
  | nil =>
    obtain rfl : ts = [] := h
    trivial
  | cons g gs ih =>
    rw [textOf_cons]
    cases g with
    | char c => exact inOrder_append_left (ih h) [c]
    | segment mark text =>
      obtain ⟨us, vs, rfl, hus, hvs⟩ := h
      exact inOrder_append hus (ih hvs)

/-! ## Scripts whose verbatim texts are kept -/

/-- Where a script is cut: between tokens, where a command may start or not, or in a command, where
its tokens so far have no character of a comment mark or some have.  `inLine` holds in the line of a
line comment. -/
inductive Spot
  | between (fresh inLine : Bool)
  | command (plain inLine : Bool)
deriving DecidableEq, Repr

/-- Holds where a command ends. -/
def endsCommand : List Lexeme → Bool
  | [] => true
  | ℓ :: _ => ℓ.kind == .semicolon

/-- Holds for a token that starts no comment, and no line. -/
def isPlain (text : List Char) : Bool := text.all fun c => c != '-' && c != '/' && c != '\n'

/-- Holds for lexemes whose comments the layout reads as the tokenizer does, and which have quoted
text in a command only at its end.  The layout looks for comments in all of a command, so a comment
in it stands behind plain tokens only. -/
def keepsVerbatimFrom : Spot → List Lexeme → Bool
  | _, [] => true
  | .between fresh inLine, ℓ :: ℓs =>
    match ℓ.kind with
    | .blank | .lineBreak =>
      keepsVerbatimFrom (.between fresh (inLine && ℓ.text != ['\n'])) ℓs
    | .comment =>
      match behindComment? inLine ℓ.text with
      | some inLine => keepsVerbatimFrom (.between fresh inLine) ℓs
      | none => false
    | .quoted | .plain | .parameter => keepsVerbatimFrom (.between false false) ℓs
    | .semicolon | .opening => keepsVerbatimFrom (.between true false) ℓs
    | .command =>
      keepsVerbatimFrom (if fresh then .command true false else .between false false) ℓs
  | .command plain inLine, ℓ :: ℓs =>
    if ℓ.kind = .semicolon then keepsVerbatimFrom (.between true false) ℓs
    -- the last lexeme of a command is a segment of its own
    else if isVerbatim ℓ && endsCommand ℓs then keepsVerbatimFrom (.command false false) ℓs
    else
      match ℓ.kind with
      | .blank | .lineBreak =>
        keepsVerbatimFrom (.command plain (inLine && ℓ.text != ['\n'])) ℓs
      | .comment =>
        match behindComment? inLine ℓ.text with
        | some inLine => plain && keepsVerbatimFrom (.command true inLine) ℓs
        | none => false
      | .quoted => false
      | _ => keepsVerbatimFrom (.command (plain && isPlain ℓ.text) inLine) ℓs

/-! ## Gaps -/

/-- Holds for a gap in whose segments the texts `ts` stand; `inLine` holds if it ends in the line of
a line comment. -/
def GapHolds (inLine : Bool) (gap : List Char) (ts : List (List Char)) : Prop :=
  if inLine then
    ∃ front line us vs, gap = front ++ '-' :: '-' :: line ∧ ts = us ++ vs ∧ IsWhole front ∧
      Within us (segments (Piece.ofGap front)) ∧ '\n' ∉ line ∧ InOrder vs ('-' :: '-' :: line)
  else IsWhole gap ∧ Within ts (segments (Piece.ofGap gap))

theorem within_ofGap {inLine : Bool} {gap : List Char} {ts : List (List Char)}
    (h : GapHolds inLine gap ts) : Within ts (segments (Piece.ofGap gap)) := by
  cases inLine with
  | false => exact h.2
  | true =>
    obtain ⟨front, line, us, vs, rfl, rfl, hfront, hus, hfeed, hvs⟩ := h
    have hline := within_append hus (within_cons hvs (within_nil []))
    rw [List.append_nil] at hline
    rw [hfront, ofGap_openLine hfeed, segments_append]
    exact hline

/-- A gap that is read by itself holds what its parts hold. -/
theorem gapHolds_append {gap gap' : List Char} {ts us : List (List Char)}
    (h : GapHolds false gap ts) (h' : GapHolds false gap' us) :
    GapHolds false (gap ++ gap') (ts ++ us) := by
  refine ⟨isWhole_append h.1 h'.1, ?_⟩
  rw [h.1, segments_append]
  exact within_append h.2 h'.2

theorem gapHolds_line_append {gap t : List Char} {ts us : List (List Char)}
    (h : GapHolds true gap ts) (ht : '\n' ∉ t) (hus : InOrder us t) :
    GapHolds true (gap ++ t) (ts ++ us) := by
  obtain ⟨front, line, vs, ws, rfl, rfl, hfront, hvs, hfeed, hws⟩ := h
  refine ⟨front, line ++ t, vs, ws ++ us, by simp, by simp, hfront, hvs, ?_,
    inOrder_append hws hus⟩
  rw [List.mem_append, not_or]
  exact ⟨hfeed, ht⟩

/-- A line comment goes on over any text without a line feed. -/
theorem gapHolds_in_line {gap t : List Char} {ts : List (List Char)} (h : GapHolds true gap ts)
    (ht : '\n' ∉ t) : GapHolds true (gap ++ t) ts := by
  have hnone : InOrder [] t := trivial
  have hall := gapHolds_line_append h ht hnone
  rwa [List.append_nil] at hall

theorem gapHolds_blanks {bs : List Char} (h : bs.all isBlank = true) : GapHolds false bs [] :=
  ⟨isWhole_blanks h, within_nil _⟩

/-- A line feed ends the line of a line comment. -/
theorem gapHolds_feed {gap : List Char} {ts : List (List Char)} (h : GapHolds true gap ts) :
    GapHolds false (gap ++ ['\n']) ts := by
  obtain ⟨front, line, us, vs, rfl, rfl, hfront, hus, hfeed, hvs⟩ := h
  have hpiece := ofGap_closedLine hfeed
  have hnil := hpiece []
  rw [List.append_nil] at hnil
  rw [List.append_assoc]
  refine gapHolds_append ⟨hfront, hus⟩ ⟨isWhole_of_ofGap hpiece, ?_⟩
  have hline := within_cons (inOrder_append hvs (show InOrder [] ['\n'] from trivial))
    (within_nil [])
  rw [List.append_nil, List.append_nil] at hline
  rw [List.cons_append, List.cons_append, hnil]
  exact hline

/-- Behind a comment that the layout reads as the tokenizer does. -/
theorem gapHolds_comment {inLine next : Bool} {gap text : List Char} {ts : List (List Char)}
    (h : GapHolds inLine gap ts) (htext : IsCommentText text)
    (hnext : behindComment? inLine text = some next) :
    GapHolds next (gap ++ text) (ts ++ [text]) := by
  obtain ⟨body, rfl, hfeed⟩ | ⟨v, rfl⟩ | ⟨w, rfl⟩ := htext
  · obtain rfl := Option.some.inj hnext
    cases inLine with
    | true =>
      refine gapHolds_line_append h ?_ (inOrder_singleton _)
      simpa using hfeed
    | false => exact ⟨gap, body, ts, _, rfl, rfl, h.1, h.2, hfeed, inOrder_singleton _⟩
  · obtain ⟨rfl, hline, hblock⟩ := behindComment?_block hnext
    cases next with
    | true => exact gapHolds_line_append h (by simpa using hline rfl) (inOrder_singleton _)
    | false =>
      have hpiece := ofGap_singleBlock (v := v) (by simpa using hblock rfl)
      have hnil := hpiece []
      rw [List.append_nil] at hnil
      refine gapHolds_append h ⟨isWhole_of_ofGap hpiece, ?_⟩
      rw [hnil]
      exact within_cons (inOrder_singleton _) (within_nil [])
  · rw [behindComment?_brace] at hnext
    simp at hnext

/-- Behind white space. -/
theorem gapHolds_white {inLine : Bool} {gap text : List Char} {ts : List (List Char)}
    (h : GapHolds inLine gap ts) (hblank : text.all isBlank = true)
    (hfeed : '\n' ∈ text → text = ['\n']) :
    GapHolds (inLine && text != ['\n']) (gap ++ text) ts := by
  cases inLine with
  | false =>
    have hall := gapHolds_append h (gapHolds_blanks hblank)
    rwa [List.append_nil] at hall
  | true =>
    by_cases heq : text = ['\n']
    · rw [heq]
      exact gapHolds_feed h
    · have hgoes : (text != ['\n']) = true := bne_iff_ne.2 heq
      rw [hgoes]
      exact gapHolds_in_line h fun hmem => heq (hfeed hmem)

/-! ## Commands -/

/-- Holds when texts stand in the segments of a gap that starts with the given text. -/
def Covered (ts : List (List Char)) (text : List Char) : Prop :=
  ∀ rest, Within ts (segments (Piece.ofGap (text ++ rest)))

theorem covered_append {ts : List (List Char)} {text : List Char} (h : Covered ts text)
    (rest : List Char) : Covered ts (text ++ rest) := by
  intro rest'
  rw [List.append_assoc]
  exact h _

theorem covered_of_gapHolds {inLine : Bool} {gap : List Char} {ts : List (List Char)}
    (h : GapHolds inLine gap ts) : Covered ts gap := by
  intro rest
  cases inLine with
  | false =>
    rw [h.1, segments_append]
    have hall := within_append h.2 (within_nil (segments (Piece.ofGap rest)))
    rwa [List.append_nil] at hall
  | true =>
    obtain ⟨front, line, us, vs, rfl, rfl, hfront, hus, hfeed, hvs⟩ := h
    -- the line comment goes on into the rest
    have hlength := lineLength_append hfeed rest
    rw [List.append_assoc, List.cons_append, List.cons_append, hfront, ofGap_line, hlength,
      List.take_length_add_append, segments_append]
    have hline := inOrder_append hvs
      (show InOrder [] (rest.take (Piece.lineLength rest)) from trivial)
    have hall := within_append hus (within_cons hline (within_nil (segments
      (Piece.ofGap ((line ++ rest).drop (line.length + Piece.lineLength rest))))))
    rw [List.append_nil, List.append_nil] at hall
    exact hall

/-- Holds for the lexemes of a command so far, latest first: the verbatim texts before the latest
are covered by the gap before it, and so is the latest, if it is not a verbatim text at the end of
the command. -/
structure BodyHolds (plain inLine : Bool) (body ℓs : List Lexeme) : Prop where
  starts : ∀ ℓ ∈ body, StartsAsKind ℓ
  before : Covered (verbatimTexts body.tail.reverse) (body.tail.reverse.flatMap (·.text))
  all : Covered (verbatimTexts body.reverse) (body.reverse.flatMap (·.text)) ∨
    endsCommand ℓs = true ∧ ∃ ℓ, body.head? = some ℓ ∧ isVerbatim ℓ = true
  gap : plain = true → GapHolds inLine (body.reverse.flatMap (·.text)) (verbatimTexts body.reverse)

variable {plain inLine : Bool} {body ℓs : List Lexeme} {ℓ : Lexeme}

theorem verbatimTexts_append (ℓs ℓs' : List Lexeme) :
    verbatimTexts (ℓs ++ ℓs') = verbatimTexts ℓs ++ verbatimTexts ℓs' := by
  rw [verbatimTexts, List.filter_append, List.map_append]
  rfl

theorem verbatimTexts_concat (ℓs : List Lexeme) (ℓ : Lexeme) :
    verbatimTexts (ℓs ++ [ℓ]) = verbatimTexts ℓs ++ if isVerbatim ℓ then [ℓ.text] else [] := by
  rw [verbatimTexts_append, verbatimTexts_cons]
  exact congrArg (verbatimTexts ℓs ++ ·) (List.append_nil _)

theorem flatMap_text_concat (ℓs : List Lexeme) (ℓ : Lexeme) :
    (ℓs ++ [ℓ]).flatMap (·.text) = ℓs.flatMap (·.text) ++ ℓ.text := by
  simp

/-- White space has no verbatim texts. -/
theorem verbatimTexts_of_blank (hstarts : ∀ ℓ ∈ ℓs, StartsAsKind ℓ)
    (hblank : (ℓs.flatMap (·.text)).all isBlank = true) : verbatimTexts ℓs = [] := by
  induction ℓs with
  | nil => rfl
  | cons ℓ ℓs ih =>
    obtain ⟨hℓ, hℓs⟩ := List.forall_mem_cons.1 hstarts
    rw [List.flatMap_cons, List.all_append, Bool.and_eq_true] at hblank
    have hkind : isVerbatim ℓ = false := by
      rcases hℓ with h | h | ⟨c, cs, htext, hc⟩
      · simp [isVerbatim, h]
      · simp [isVerbatim, h]
      · have hhead := hblank.1
        rw [htext, List.all_cons, hc] at hhead
        simp at hhead
    rw [verbatimTexts_cons, hkind, ih hℓs hblank.2]
    rfl

theorem bodyHolds_nil (ℓs : List Lexeme) : BodyHolds true false [] ℓs where
  starts := by simp
  before := fun _ => within_nil _
  all := .inl fun _ => within_nil _
  gap := fun _ => gapHolds_blanks rfl

/-- The texts so far are covered where the command goes on. -/
theorem covered_of_bodyHolds (h : BodyHolds plain inLine body (ℓ :: ℓs))
    (hkind : ℓ.kind ≠ .semicolon) :
    Covered (verbatimTexts body.reverse) (body.reverse.flatMap (·.text)) := by
  rcases h.all with hall | ⟨hend, -⟩
  · exact hall
  · exact absurd (eq_of_beq hend) hkind

/-- A further lexeme that is no verbatim text. -/
theorem bodyHolds_cons {plain' inLine' : Bool} (h : BodyHolds plain inLine body (ℓ :: ℓs))
    (hkind : ℓ.kind ≠ .semicolon) (hstarts : StartsAsKind ℓ) (hloose : isVerbatim ℓ = false)
    (hgap : plain' = true →
      GapHolds inLine' (body.reverse.flatMap (·.text) ++ ℓ.text) (verbatimTexts body.reverse)) :
    BodyHolds plain' inLine' (ℓ :: body) ℓs := by
  have hcovered := covered_of_bodyHolds h hkind
  have htexts : verbatimTexts (ℓ :: body).reverse = verbatimTexts body.reverse := by
    rw [List.reverse_cons, verbatimTexts_concat, hloose]
    exact List.append_nil _
  have htext : (ℓ :: body).reverse.flatMap (·.text) = body.reverse.flatMap (·.text) ++ ℓ.text := by
    rw [List.reverse_cons, flatMap_text_concat]
  refine ⟨List.forall_mem_cons.2 ⟨hstarts, h.starts⟩, hcovered, .inl ?_, ?_⟩
  · rw [htexts, htext]
    exact covered_append hcovered ℓ.text
  · rwa [htexts, htext]

/-- Holds where a lexeme of white space leaves the line of a line comment, if it is in one. -/
theorem bodyHolds_white (h : BodyHolds plain inLine body (ℓ :: ℓs))
    (hkind : ℓ.kind = .blank ∨ ℓ.kind = .lineBreak) (hshape : HasShape ℓ)
    (hstarts : StartsAsKind ℓ) :
    BodyHolds plain (inLine && ℓ.text != ['\n']) (ℓ :: body) ℓs := by
  obtain ⟨hblank, hfeed⟩ := hshape.1 hkind
  have hloose : isVerbatim ℓ = false := by rcases hkind with h | h <;> simp [isVerbatim, h]
  have hsemicolon : ℓ.kind ≠ .semicolon := by rcases hkind with h | h <;> simp [h]
  exact bodyHolds_cons h hsemicolon hstarts hloose fun hplain =>
    gapHolds_white (h.gap hplain) hblank fun hmem => (hfeed hmem).2

/-- A verbatim text at the end of a command. -/
theorem bodyHolds_last (h : BodyHolds plain inLine body (ℓ :: ℓs)) (hkind : ℓ.kind ≠ .semicolon)
    (hstarts : StartsAsKind ℓ) (hverbatim : isVerbatim ℓ = true) (hend : endsCommand ℓs = true) :
    BodyHolds false false (ℓ :: body) ℓs where
  starts := List.forall_mem_cons.2 ⟨hstarts, h.starts⟩
  before := covered_of_bodyHolds h hkind
  all := .inr ⟨hend, ℓ, rfl, hverbatim⟩
  gap := by simp

/-- A comment behind plain tokens. -/
theorem bodyHolds_comment {next : Bool} (h : BodyHolds true inLine body (ℓ :: ℓs))
    (hkind : ℓ.kind = .comment) (hstarts : StartsAsKind ℓ) (htext : IsCommentText ℓ.text)
    (hnext : behindComment? inLine ℓ.text = some next) : BodyHolds true next (ℓ :: body) ℓs := by
  have hverbatim : isVerbatim ℓ = true := by simp [isVerbatim, hkind]
  have hgap := gapHolds_comment (h.gap rfl) htext hnext
  rw [← flatMap_text_concat] at hgap
  have htexts := verbatimTexts_concat body.reverse ℓ
  rw [if_pos hverbatim] at htexts
  rw [← htexts, ← List.reverse_cons] at hgap
  exact ⟨List.forall_mem_cons.2 ⟨hstarts, h.starts⟩,
    covered_of_bodyHolds h (by simp [hkind]), .inl (covered_of_gapHolds hgap), fun _ => hgap⟩

/-- A token without comment marks goes on with a gap. -/
theorem gapHolds_plain {gap text : List Char} {ts : List (List Char)} (h : GapHolds inLine gap ts)
    (hplain : isPlain text = true) : GapHolds inLine (gap ++ text) ts := by
  have hchars : ∀ c ∈ text, (c ≠ '-' ∧ c ≠ '/') ∧ c ≠ '\n' := by simpa [isPlain] using hplain
  cases inLine with
  | true =>
    exact gapHolds_in_line h fun hmem => (hchars _ hmem).2 rfl
  | false =>
    have hwhole : IsWhole text := isWhole_chars fun c hc => (hchars c hc).1
    have hall := gapHolds_append h ⟨hwhole, within_nil _⟩
    rwa [List.append_nil] at hall

/-- Texts within a gap, and one in the quoted text behind it. -/
theorem within_ofGap_quoted {ts us : List (List Char)} {gap text : List Char} (h : Covered ts gap)
    (hus : InOrder us text) :
    Within (ts ++ us) (segments (Piece.ofGap gap ++ [.quoted text] ++ Piece.ofGap [])) := by
  have hgap := h []
  have hquoted := within_append hgap (within_cons hus (within_nil []))
  rw [List.append_nil, List.append_nil] at hquoted
  rw [segments_append, segments_append, List.append_assoc]
  exact hquoted

/-- The verbatim texts of a command lie within its segments. -/
theorem within_ofCommand (h : BodyHolds plain inLine body ℓs) :
    Within (verbatimTexts body.reverse)
      (segments ((Piece.ofCommand body).1 ++ Piece.ofGap (Piece.ofCommand body).2)) := by
  cases body with
  | nil => exact within_nil _
  | cons last before =>
    simp only [Piece.ofCommand]
    split
    · next hblank =>
      rw [verbatimTexts_of_blank (fun ℓ hℓ => h.starts ℓ (List.mem_reverse.1 hℓ)) hblank]
      exact within_nil _
    · split
      · next hkind =>
        rcases h.all with hall | ⟨-, ℓ, hℓ, hverbatim⟩
        · have hsegments := @within_ofGap_quoted _ [] _ [] hall trivial
          rwa [List.append_nil] at hsegments
        · obtain rfl := Option.some.inj hℓ
          simp [isVerbatim, hkind] at hverbatim
      · rw [List.reverse_cons, verbatimTexts_concat]
        refine within_ofGap_quoted h.before ?_
        split
        · exact inOrder_singleton last.text
        · trivial

/-! ## Verbatim texts of scripts -/

/-- Holds for lexemes between tokens whose verbatim texts lie within segments, behind those of the
gap so far. -/
def LieWithin (ℓs : List Lexeme) : Prop :=
  ∀ fresh inLine gap ts, keepsVerbatimFrom (.between fresh inLine) ℓs = true →
    GapHolds inLine gap ts →
    Within (ts ++ verbatimTexts ℓs) (segments (Piece.ofLexemesFrom (.between gap fresh) ℓs))

/-- Holds for lexemes from a command on whose verbatim texts lie within segments, behind those of
the command so far. -/
def LieWithinCommand (ℓs : List Lexeme) : Prop :=
  ∀ plain inLine body, keepsVerbatimFrom (.command plain inLine) ℓs = true →
    BodyHolds plain inLine body ℓs →
    Within (verbatimTexts body.reverse ++ verbatimTexts ℓs)
      (segments (Piece.ofLexemesFrom (.command body) ℓs))

/-- White space between tokens. -/
theorem lieWithin_white {fresh inLine : Bool} {gap : List Char} {ts : List (List Char)}
    (h : LieWithin ℓs) (hkind : ℓ.kind = .blank ∨ ℓ.kind = .lineBreak) (hshape : HasShape ℓ)
    (hkeeps : keepsVerbatimFrom (.between fresh (inLine && ℓ.text != ['\n'])) ℓs = true)
    (hgap : GapHolds inLine gap ts) :
    Within (ts ++ verbatimTexts (ℓ :: ℓs))
      (segments (Piece.ofLexemesFrom (.between (gap ++ ℓ.text) fresh) ℓs)) := by
  obtain ⟨hblank, hfeed⟩ := hshape.1 hkind
  have hloose : isVerbatim ℓ = false := by rcases hkind with h | h <;> simp [isVerbatim, h]
  rw [verbatimTexts_cons, hloose]
  exact h _ _ _ _ hkeeps (gapHolds_white hgap hblank fun hmem => (hfeed hmem).2)

/-- A loose token, and the pieces behind it. -/
theorem within_loose {gap text : List Char} {ts us : List (List Char)} {ps : List Piece}
    (hts : Within ts (segments (Piece.ofGap gap))) (hus : Within us (segments ps)) :
    Within (ts ++ us) (segments (Piece.ofGap gap ++ .loose text :: ps)) := by
  rw [segments_append]
  exact within_append hts hus

theorem lieWithin_cons (h : LieWithin ℓs) (hcommand : LieWithinCommand ℓs) (hshape : HasShape ℓ) :
    LieWithin (ℓ :: ℓs) := by
  intro fresh inLine gap ts hkeeps hgap
  have hstart : GapHolds false [] [] := gapHolds_blanks rfl
  have htexts := verbatimTexts_cons ℓ ℓs
  rw [keepsVerbatimFrom] at hkeeps
  rw [Piece.ofLexemesFrom]
  cases hkind : ℓ.kind with
  | blank =>
    rw [hkind] at hkeeps
    exact lieWithin_white h (.inl hkind) hshape hkeeps hgap
  | lineBreak =>
    rw [hkind] at hkeeps
    exact lieWithin_white h (.inr hkind) hshape hkeeps hgap
  | comment =>
    rw [hkind] at hkeeps
    rw [if_pos (by simp [isVerbatim, hkind])] at htexts
    rw [htexts, ← List.append_assoc]
    dsimp only at hkeeps
    split at hkeeps
    · next hnext => exact h _ _ _ _ hkeeps (gapHolds_comment hgap (hshape.2 hkind) hnext)
    · exact absurd hkeeps (by decide)
  | quoted =>
    rw [hkind] at hkeeps
    rw [if_pos (by simp [isVerbatim, hkind])] at htexts
    rw [htexts, segments_append]
    exact within_append (within_ofGap hgap)
      (within_cons (inOrder_singleton ℓ.text) (h _ _ _ _ hkeeps hstart))
  | command =>
    rw [hkind] at hkeeps
    rw [if_neg (by simp [isVerbatim, hkind])] at htexts
    rw [htexts]
    refine within_loose (within_ofGap hgap) ?_
    -- only at the start of a statement does the word open a body
    cases fresh with
    | true => exact hcommand _ _ _ hkeeps (bodyHolds_nil ℓs)
    | false => exact h _ _ _ _ hkeeps hstart
  | _ =>
    rw [hkind] at hkeeps
    rw [if_neg (by simp [isVerbatim, hkind])] at htexts
    rw [htexts]
    exact within_loose (within_ofGap hgap) (h _ _ _ _ hkeeps hstart)

theorem lieWithinCommand_cons (h : LieWithin ℓs) (hcommand : LieWithinCommand ℓs)
    (hshape : HasShape ℓ) (hstarts : StartsAsKind ℓ) : LieWithinCommand (ℓ :: ℓs) := by
  intro plain inLine body hkeeps hbody
  have htexts := verbatimTexts_concat body.reverse ℓ
  rw [keepsVerbatimFrom] at hkeeps
  rw [Piece.ofLexemesFrom, verbatimTexts_cons, ← List.append_assoc, ← htexts]
  split at hkeeps
  · next hkind =>
    rw [if_pos hkind]
    rw [htexts, if_neg (by simp [isVerbatim, hkind]), List.append_nil, segments_append]
    exact within_append (within_ofCommand hbody) (h _ _ _ _ hkeeps (gapHolds_blanks rfl))
  · next hkind =>
    rw [if_neg hkind, ← List.reverse_cons]
    split at hkeeps
    -- quoted text that ends the statement is a segment of its own
    · next hlast =>
      rw [Bool.and_eq_true] at hlast
      exact hcommand _ _ _ hkeeps (bodyHolds_last hbody hkind hstarts hlast.1 hlast.2)
    · next hlast =>
      cases hℓ : ℓ.kind with
      | blank =>
        rw [hℓ] at hkeeps
        exact hcommand _ _ _ hkeeps (bodyHolds_white hbody (.inl hℓ) hshape hstarts)
      | lineBreak =>
        rw [hℓ] at hkeeps
        exact hcommand _ _ _ hkeeps (bodyHolds_white hbody (.inr hℓ) hshape hstarts)
      | comment =>
        rw [hℓ] at hkeeps
        dsimp only at hkeeps
        split at hkeeps
        · next hnext =>
          obtain ⟨rfl, hrest⟩ := Bool.and_eq_true_iff.1 hkeeps
          exact hcommand _ _ _ hrest (bodyHolds_comment hbody hℓ hstarts (hshape.2 hℓ) hnext)
        · exact absurd hkeeps (by decide)
      -- quoted text within the body is no segment, so the condition excludes it
      | quoted =>
        rw [hℓ] at hkeeps
        simp at hkeeps
      | semicolon => exact absurd hℓ hkind
      | _ =>
        rw [hℓ] at hkeeps
        refine hcommand _ _ _ hkeeps
          (bodyHolds_cons hbody hkind hstarts (by simp [isVerbatim, hℓ]) fun hplain => ?_)
        obtain ⟨hbefore, hplain⟩ := Bool.and_eq_true_iff.1 hplain
        exact gapHolds_plain (hbody.gap hbefore) hplain

/-- Verbatim texts lie within segments. -/
theorem lieWithin (hshape : ∀ ℓ ∈ ℓs, HasShape ℓ) (hstarts : ∀ ℓ ∈ ℓs, StartsAsKind ℓ) :
    LieWithin ℓs ∧ LieWithinCommand ℓs := by
  induction ℓs with
  | nil =>
    constructor
    · intro fresh inLine gap ts _ hgap
      have hall := within_ofGap hgap
      rwa [← List.append_nil ts] at hall
    · intro plain inLine body _ hbody
      have hall := within_ofCommand hbody
      rwa [← List.append_nil (verbatimTexts body.reverse)] at hall
  | cons ℓ ℓs ih =>
    obtain ⟨hℓshape, hshape'⟩ := List.forall_mem_cons.1 hshape
    obtain ⟨hℓstarts, hstarts'⟩ := List.forall_mem_cons.1 hstarts
    obtain ⟨h, hcommand⟩ := ih hshape' hstarts'
    exact ⟨lieWithin_cons h hcommand hℓshape,
      lieWithinCommand_cons h hcommand hℓshape hℓstarts⟩

/-- The verbatim texts of a script lie within its segments. -/
theorem within_ofLexemes {s : String} {ℓs : List Lexeme} (hscan : scan s.toList = .ok ℓs)
    (hkeeps : keepsVerbatimFrom (.between true false) ℓs = true) :
    Within (verbatimTexts ℓs) (segments (Piece.ofLexemes ℓs)) :=
  (lieWithin (hasShape_of_mem_scanFrom hscan) (startsAsKind_of_mem_scanFrom hscan)).1
    true false [] [] hkeeps (gapHolds_blanks rfl)

/-- The texts that the tokenizer takes for verbatim stand in the layout, in order, where it and the
layout find the same comments and no command holds a quoted text back; so do those of PostgreSQL,
if the tokenizer finds them. -/
theorem format_keeps_verbatim {s out : String} {ℓs : List Lexeme}
    (hmarks : ∀ c ∈ s.toList, isMark c = false) (hscan : scan s.toList = .ok ℓs)
    (hkeeps : keepsVerbatimFrom (.between true false) ℓs = true) (h : format s = .ok out) :
    InOrder (verbatimTexts ℓs) out.toList ∧
      ((verbatims s.toList).Sublist (verbatimTexts ℓs) →
        InOrder (verbatims s.toList) out.toList) := by
  have hproper := isProper_ofLexemes hmarks hscan
  rw [format_of_scan_eq_ok hscan] at h
  cases hpieces : Layout.ofPieces (Piece.ofLexemes ℓs) with
  | error e => simp [hpieces, Except.map] at h
  | ok cs =>
    rw [hpieces] at h
    obtain rfl := Except.ok.inj h
    obtain ⟨-, -, hs, -, -, -, rfl, hsegments, -, -⟩ := exists_textOf_of_ofPieces hpieces hproper
    have hwithin := within_ofLexemes hscan hkeeps
    rw [← hsegments] at hwithin
    rw [String.toList_ofList]
    exact ⟨inOrder_of_within hwithin, fun hsub =>
      inOrder_of_sublist hsub (inOrder_of_within hwithin)⟩

/-- A literal and a comment of a script stand in its layout as they are. -/
theorem format_keeps_literal_and_comment :
    format "f ( 'a  b' )  --c" = .ok "f ('a  b') --c" ∧
      InOrder ["'a  b'".toList, "--c".toList] "f ('a  b') --c".toList := by
  have hmarks : ∀ c ∈ "f ( 'a  b' )  --c".toList, isMark c = false :=
    isMark_eq_false_of_all (by decide)
  have hout : format "f ( 'a  b' )  --c" = .ok "f ('a  b') --c" := rfl
  obtain ⟨ℓs, hscan, hkeeps, htexts⟩ : ∃ ℓs, scan "f ( 'a  b' )  --c".toList = .ok ℓs ∧
      keepsVerbatimFrom (.between true false) ℓs = true ∧
      verbatimTexts ℓs = ["'a  b'".toList, "--c".toList] := ⟨_, rfl, by decide, by decide⟩
  have hverbatims : verbatims "f ( 'a  b' )  --c".toList = ["'a  b'".toList, "--c".toList] := by
    decide
  have hkept := (format_keeps_verbatim hmarks hscan hkeeps hout).2
  rw [hverbatims, htexts] at hkept
  exact ⟨hout, hkept (.refl _)⟩

/-- A literal in a command is laid out as if its text were code. -/
theorem format_loses_literal_of_command :
    verbatims "DO 'a  b' c;".toList = ["'a  b'".toList] ∧
      format "DO 'a  b' c;" = .ok "DO 'a b' c;" ∧
      ¬ InOrder ["'a  b'".toList] "DO 'a b' c;".toList := by
  refine ⟨by decide, rfl, ?_⟩
  rw [inOrder_singleton_iff, ← occursIn_iff]
  decide

end PgSchema.Layout
