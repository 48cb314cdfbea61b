/-
# Regular scripts

The tokenizer and the layout look for comments each in their own way.  They agree on the comments
of regular scripts, which are made of legible glyphs.

* `isRegularFrom` : the regular scripts, by their lexemes;
* `exists_legible_of_scan` : a regular script is the text of legible glyphs.
-/
import PgSchema.Proofs.Layout.Legible

namespace PgSchema.Layout

open Sql Text Glyph Lexeme

/-! ## Regular scripts -/

/-- Holds for a block comment that its first closing mark ends. -/
def isSingleBlock : List Char → Bool
  | '/' :: '*' :: w => Piece.blockLength w == w.length
  | _ => false

/-- Whether the text behind a comment is in the line of a line comment; `inLine` tells this of the
comment.  Only comments that the layout reads as the tokenizer does are given: block comments are
not nested, and none goes on over the end of the line of a line comment. -/
def behindComment? (inLine : Bool) (text : List Char) : Option Bool :=
  if ['-', '-'].isPrefixOf text then some true
  else if ['/', '*'].isPrefixOf text &&
      (if inLine then !text.contains '\n' else isSingleBlock text) then some inLine
  else none

/-- Holds for the lexemes of a script without dollar signs that start no quoted text, whose comments
the layout reads as the tokenizer does and whose commands have a quoted body.  `fresh` holds where a
command may start, and `inLine` between a line comment and the next line feed or token. -/
def isRegularFrom (fresh inLine : Bool) : List Lexeme → Bool
  | [] => true
  | ℓ :: ℓs =>
    match ℓ.kind with
    | .blank => isRegularFrom fresh inLine ℓs
    | .lineBreak => isRegularFrom fresh (inLine && ℓ.text != ['\n']) ℓs
    | .comment =>
      match behindComment? inLine ℓ.text with
      | some inLine => isRegularFrom fresh inLine ℓs
      | none => false
    | .quoted => isRegularFrom false false ℓs
    | kind =>
      ℓ.text.head? != some '$' && (!(kind == .command && fresh) || isQuotedBody ℓs) &&
        isRegularFrom (freshBehind kind) false ℓs

/-- Holds where a token or a quoted text comes next, or the end of the script. -/
def startsPiece : List Lexeme → Bool
  | [] => true
  | ℓ :: _ => ℓ.kind == .quoted || isLoose ℓ.kind

theorem behindComment?_line (inLine : Bool) (body : List Char) :
    behindComment? inLine ('-' :: '-' :: body) = some true := rfl

theorem behindComment?_block {inLine next : Bool} {w : List Char}
    (h : behindComment? inLine ('/' :: '*' :: w) = some next) : next = inLine ∧
      (inLine = true → '\n' ∉ w) ∧ (inLine = false → Piece.blockLength w = w.length) := by
  rw [behindComment?, if_neg (by simp)] at h
  cases inLine with
  | false =>
    rw [if_neg Bool.false_ne_true] at h
    split at h
    · next hblock =>
      rw [Bool.and_eq_true, isSingleBlock, beq_iff_eq] at hblock
      exact ⟨(Option.some.inj h).symm, fun hline => absurd hline (by decide), fun _ => hblock.2⟩
    · simp at h
  | true =>
    rw [if_pos rfl] at h
    split at h
    · next hblock =>
      rw [Bool.and_eq_true] at hblock
      exact ⟨(Option.some.inj h).symm, fun _ => by simpa using hblock.2,
        fun hline => absurd hline (by decide)⟩
    · simp at h

theorem behindComment?_brace (inLine : Bool) (w : List Char) :
    behindComment? inLine ('\x7b' :: w) = none := by
  rw [behindComment?, if_neg (by simp), if_neg (by simp)]

/-- A piece ends the line of a line comment. -/
theorem isRegularFrom_of_startsPiece {fresh inLine : Bool} {ℓs : List Lexeme}
    (h : startsPiece ℓs = true) : isRegularFrom fresh inLine ℓs = isRegularFrom fresh false ℓs := by
  cases ℓs with
  | nil => rfl
  | cons ℓ ℓs =>
    obtain ⟨kind, text⟩ := ℓ
    cases kind with
    | blank => simp [startsPiece, isLoose] at h
    | lineBreak => simp [startsPiece, isLoose] at h
    | comment => simp [startsPiece, isLoose] at h
    | quoted => rfl
    | plain => rfl
    | parameter => rfl
    | semicolon => rfl
    | opening => rfl
    | command => rfl

theorem not_startsPiece_of_isBlank {p : Bool} {c : Char} {cs : List Char} {ℓs : List Lexeme}
    (hc : isBlank c = true) (h : scanFrom p 0 (c :: cs) = .ok ℓs) : startsPiece ℓs = false := by
  obtain ⟨kind, n, rest, hnext, -, rfl⟩ := scanFrom_cons_eq_ok_iff.1 h
  rw [next_of_isBlank hc] at hnext
  split at hnext
  · obtain ⟨rfl, -⟩ := Prod.mk.inj (Except.ok.inj hnext)
    rfl
  · obtain ⟨rfl, -⟩ := Prod.mk.inj (Except.ok.inj hnext)
    rfl

/-! ## Line comments -/

/-- Holds for what stands between the text of a line comment and a line feed, a token or the end
of the script, with the line feed; `rest` and `ℓs` are the text behind it and its lexemes. -/
def EndsInLine (u rest : List Char) (ℓs : List Lexeme) : Prop :=
  (∃ v, u = v ++ ['\n'] ∧ '\n' ∉ v ∧ IsGap u) ∨
  ('\n' ∉ u ∧ IsGap u ∧ startsPiece ℓs = true) ∨
  (rest = [] ∧ '\n' ∉ u ∧ IsLastGap u)

theorem endsInLine_append {t u rest : List Char} {ℓs : List Lexeme} (h : EndsInLine u rest ℓs)
    (ht : '\n' ∉ t) (hgap : IsGap u → IsGap (t ++ u)) (hlast : IsLastGap u → IsLastGap (t ++ u)) :
    EndsInLine (t ++ u) rest ℓs := by
  have hfeed : ∀ {v}, '\n' ∉ v → '\n' ∉ t ++ v := by
    intro v hv
    rw [List.mem_append, not_or]
    exact ⟨ht, hv⟩
  obtain ⟨v, rfl, hv, hu⟩ | ⟨hu, hgap', hpiece⟩ | ⟨hrest, hu, hlast'⟩ := h
  · exact .inl ⟨t ++ v, (List.append_assoc ..).symm, hfeed hv, hgap hu⟩
  · exact .inr (.inl ⟨hfeed hu, hgap hgap', hpiece⟩)
  · exact .inr (.inr ⟨hrest, hfeed hu, hlast hlast'⟩)

/-- What stands behind the text of a line comment starts with a line end, if it is not empty. -/
theorem head_of_endsInLine {p : Bool} {u rest : List Char} {ℓs : List Lexeme}
    (h : EndsInLine u rest ℓs) (hscan : scanFrom p 0 rest = .ok ℓs)
    (hhead : ∀ c, (u ++ rest).head? = some c → endsLine c = true) :
    u.head?.any endsLine = true ∨ (u = [] ∧ rest = []) := by
  cases u with
  | cons c u => exact .inl (hhead c rfl)
  | nil =>
    refine .inr ⟨rfl, ?_⟩
    obtain ⟨v, hv, -⟩ | ⟨-, -, hpiece⟩ | ⟨hrest, -⟩ := h
    · simp at hv
    · cases rest with
      | nil => rfl
      | cons c rest =>
        have hc := isBlank_of_endsLine (hhead c rfl)
        rw [not_startsPiece_of_isBlank hc hscan] at hpiece
        exact absurd hpiece (by decide)
    · exact hrest

/-- The text of a line comment with what stands behind it. -/
theorem endsInLine_line {p : Bool} {body u rest : List Char} {ℓs : List Lexeme}
    (hbody : body.any endsLine = false) (h : EndsInLine u rest ℓs)
    (hscan : scanFrom p 0 rest = .ok ℓs)
    (hhead : ∀ c, (u ++ rest).head? = some c → endsLine c = true) :
    EndsInLine ('-' :: '-' :: (body ++ u)) rest ℓs := by
  have hfeed : '\n' ∉ '-' :: '-' :: body := by
    intro hmem
    simp only [List.mem_cons] at hmem
    obtain h | h | h := hmem
    · exact absurd h (by decide)
    · exact absurd h (by decide)
    · exact absurd (List.any_eq_false.1 hbody _ h) (by decide)
  obtain hu | ⟨rfl, rfl⟩ := head_of_endsInLine h hscan hhead
  · refine endsInLine_append (t := '-' :: '-' :: body) h hfeed (isGap_line hbody · hu)
      fun hlast => ?_
    apply isLastGap_line hbody hlast
    intro c hc
    rw [hc] at hu
    exact hu
  · refine .inr (.inr ⟨rfl, ?_, isLastGap_line hbody isLastGap_nil (by simp)⟩)
    rwa [List.append_nil]

theorem isGap_of_commentLength? {ds : List Char} {k : Nat}
    (h : commentLength? ('/', '*') ('*', '/') 1 ds = some k) :
    ∃ v, ds = v ++ ['*', '/'] ++ ds.drop k ∧ ds.take k = v ++ ['*', '/'] ∧
      IsGap ('/' :: '*' :: (v ++ ['*', '/'])) := by
  obtain ⟨v, r, rfl, rfl⟩ := exists_append_of_commentLength? h
  have hlength : (v ++ ['*', '/']).length = v.length + 2 := by simp
  rw [← hlength] at h
  rw [← hlength, List.drop_left, List.take_left]
  refine ⟨v, rfl, rfl, isGap_block ?_⟩
  have hend := commentLength?_append h []
  rwa [List.append_nil] at hend

/-- Holds for a text behind the text of a line comment if it can be cut where the line comment ends,
and the lexemes behind the cut are regular. -/
def ReachesLineEnd (p fresh : Bool) (cs : List Char) (ℓs : List Lexeme) : Prop :=
  ∃ u rest ℓs', cs = u ++ rest ∧ scanFrom p 0 rest = .ok ℓs' ∧
    isRegularFrom fresh false ℓs' = true ∧ isQuotedBody ℓs' = isQuotedBody ℓs ∧
    EndsInLine u rest ℓs'

section ReachesLineEnd

variable {p fresh : Bool} {c : Char} {cs : List Char} {n : Nat} {kind : LexemeKind}
  {ℓs : List Lexeme}

/-- White space ends a line comment with its first line feed, or leaves it open. -/
theorem reachesLineEnd_white (hnext : next p c cs = .ok (kind, n))
    (hkind : kind = .blank ∨ kind = .lineBreak)
    (hrest : scanFrom (LexemeKind.afterParameter p kind) 0 (cs.drop n) = .ok ℓs)
    (hgoes : c :: cs.take n ≠ ['\n'] → ReachesLineEnd p fresh (cs.drop n) ℓs)
    (hends : kind = .lineBreak ∧ c :: cs.take n = ['\n'] → isRegularFrom fresh false ℓs = true) :
    ReachesLineEnd p fresh (c :: cs) (⟨kind, c :: cs.take n⟩ :: ℓs) := by
  have hsplit : c :: cs = c :: cs.take n ++ cs.drop n := by
    rw [List.cons_append, List.take_append_drop]
  obtain ⟨hblank, hfeed, hafter⟩ := white_of_next hnext hkind
  rw [hafter] at hrest
  have hbody : isQuotedBody ℓs = isQuotedBody (⟨kind, c :: cs.take n⟩ :: ℓs) := by
    obtain rfl | rfl := hkind <;> rfl
  by_cases hmem : '\n' ∈ c :: cs.take n
  · refine ⟨['\n'], cs.drop n, ℓs, ?_, hrest, hends (hfeed hmem), hbody,
      .inl ⟨[], rfl, by simp, isGap_blank (by decide)⟩⟩
    rw [hsplit, (hfeed hmem).2]
  · have hne : c :: cs.take n ≠ ['\n'] := by
      intro heq
      rw [heq] at hmem
      exact hmem List.mem_cons_self
    obtain ⟨u, r, ℓs', heq, hscan, hregular, hsame, hu⟩ := hgoes hne
    refine ⟨c :: cs.take n ++ u, r, ℓs', ?_, hscan, hregular, hsame.trans hbody, ?_⟩
    · rw [hsplit, heq, List.append_assoc]
    · exact endsInLine_append hu hmem (isGap_append (isGap_blanks hblank))
        (isLastGap_append (isGap_blanks hblank))

/-- A comment within a line comment belongs to its text, up to where the line comment ends. -/
theorem reachesLineEnd_comment (hnext : next p c cs = .ok (.comment, n))
    (hrest : scanFrom p 0 (cs.drop n) = .ok ℓs)
    (hregular : isRegularFrom fresh true (⟨.comment, c :: cs.take n⟩ :: ℓs) = true)
    (hgoes : isRegularFrom fresh true ℓs = true → ReachesLineEnd p fresh (cs.drop n) ℓs) :
    ReachesLineEnd p fresh (c :: cs) (⟨.comment, c :: cs.take n⟩ :: ℓs) := by
  rw [isRegularFrom] at hregular
  obtain ⟨body, r, rfl, rfl, rfl, hbody, hhead⟩ | ⟨ds, k, rfl, rfl, rfl, hk⟩ | rfl :=
    next_comment_cases hnext
  · rw [Nat.add_comm, List.drop_succ_cons, List.drop_left] at hrest hgoes
    rw [Nat.add_comm, List.take_succ_cons, behindComment?_line] at hregular
    obtain ⟨u, r', ℓs', rfl, hscan, hregular', hsame, hu⟩ := hgoes hregular
    exact ⟨'-' :: '-' :: (body ++ u), r', ℓs', by simp, hscan, hregular', hsame,
      endsInLine_line hbody hu hscan hhead⟩
  · obtain ⟨v, hv, htake, hgap⟩ := isGap_of_commentLength? hk
    rw [List.drop_succ_cons] at hrest hgoes
    simp only [List.take_succ_cons, htake] at hregular
    split at hregular
    · next next hnext' =>
      obtain ⟨rfl, hfeed, -⟩ := behindComment?_block hnext'
      obtain ⟨u, r', ℓs', heq, hscan, hregular', hsame, hu⟩ := hgoes hregular
      refine ⟨'/' :: '*' :: (v ++ ['*', '/']) ++ u, r', ℓs', ?_, hscan, hregular', hsame, ?_⟩
      · rw [hv, heq]
        simp
      · refine endsInLine_append hu ?_ (isGap_append hgap) (isLastGap_append hgap)
        simpa using hfeed rfl
    · simp at hregular
  · rw [behindComment?_brace] at hregular
    simp at hregular

end ReachesLineEnd

/-- Behind the text of a line comment of a regular script. -/
theorem reachesLineEnd_of_isRegularFrom {p fresh : Bool} {cs : List Char} {ℓs : List Lexeme}
    (h : scanFrom p 0 cs = .ok ℓs) (hregular : isRegularFrom fresh true ℓs = true) :
    ReachesLineEnd p fresh cs ℓs := by
  induction hn : cs.length using Nat.strongRecOn generalizing cs ℓs with
  | _ n ih =>
    subst hn
    by_cases hpiece : startsPiece ℓs = true
    · rw [isRegularFrom_of_startsPiece hpiece] at hregular
      exact ⟨[], cs, ℓs, rfl, h, hregular, rfl, .inr (.inl ⟨by simp, isGap_nil, hpiece⟩)⟩
    cases cs with
    | nil =>
      obtain rfl := Except.ok.inj h
      exact absurd rfl hpiece
    | cons c cs =>
      obtain ⟨kind, n, rest, hnext, hrest, rfl⟩ := scanFrom_cons_eq_ok_iff.1 h
      have hlt : (cs.drop n).length < (c :: cs).length := by
        rw [List.length_drop, List.length_cons]
        omega
      cases kind with
      | blank =>
        exact reachesLineEnd_white hnext (.inl rfl) hrest (fun _ => ih _ hlt hrest hregular rfl)
          (by simp)
      | lineBreak =>
        refine reachesLineEnd_white hnext (.inr rfl) hrest (fun hne => ?_) (fun heq => ?_)
        · have hgoes : (c :: cs.take n != ['\n']) = true := bne_iff_ne.2 hne
          refine ih _ hlt hrest ?_ rfl
          simpa only [isRegularFrom, hgoes, Bool.and_self] using hregular
        · simpa [isRegularFrom, heq.2] using hregular
      | comment =>
        exact reachesLineEnd_comment hnext hrest hregular fun hgoes => ih _ hlt hrest hgoes rfl
      | quoted => exact absurd rfl hpiece
      | plain => exact absurd rfl hpiece
      | parameter => exact absurd rfl hpiece
      | semicolon => exact absurd rfl hpiece
      | opening => exact absurd rfl hpiece
      | command => exact absurd rfl hpiece

/-! ## Regular scripts are legible -/

/-- A line comment of a regular script is closed by a line feed, or a token or the end of the script
stands behind it. -/
theorem line_cases {p : Bool} {body u rest : List Char} {ℓs : List Lexeme}
    (hbody : body.any endsLine = false) (h : EndsInLine u rest ℓs)
    (hscan : scanFrom p 0 rest = .ok ℓs)
    (hhead : ∀ c, (u ++ rest).head? = some c → endsLine c = true) :
    IsClosedLine ('-' :: '-' :: (body ++ u)) ∨
      (IsOpenLine ('-' :: '-' :: (body ++ u)) ∧ startsPiece ℓs = true) ∨
      (IsLastLine ('-' :: '-' :: (body ++ u)) ∧ rest = []) := by
  have hends := head_of_endsInLine h hscan hhead
  obtain ⟨v, hv, hfeed, hgap⟩ | ⟨hfeed, hgap, hpiece⟩ | ⟨hrest, hfeed, hlast⟩ :=
    endsInLine_line hbody h hscan hhead
  · match v, hv, hfeed with
    | [], hv, _ => simp at hv
    | [c], hv, _ => simp at hv
    | c :: d :: v, hv, hfeed =>
      simp only [List.cons_append, List.cons.injEq] at hv
      obtain ⟨rfl, rfl, hv⟩ := hv
      exact .inl ⟨v, by rw [hv], fun h => hfeed (by simp [h]), hgap⟩
  · obtain hends | ⟨rfl, hrest⟩ := hends
    · -- a line end other than a line feed
      refine .inr (.inl ⟨⟨body ++ u, rfl, fun h => hfeed (by simp [h]), ?_, hgap⟩, hpiece⟩)
      -- the line end behind the comment is no line feed, so it is a carriage return
      cases u with
      | nil => simp at hends
      | cons c u =>
        have hc : endsLine c = true := by simpa using hends
        rw [endsLine, Bool.or_eq_true, beq_iff_eq, beq_iff_eq] at hc
        obtain rfl | rfl := hc
        · simp at hfeed
        · simp
    · have hlast := isLastGap_append hgap isLastGap_nil
      rw [List.append_nil] at hlast
      refine .inr (.inr ⟨⟨body ++ [], rfl, fun h => hfeed ?_, hlast⟩, hrest⟩)
      exact List.mem_cons_of_mem _ (List.mem_cons_of_mem _ h)
  · exact .inr (.inr ⟨⟨body ++ u, rfl, fun h => hfeed (by simp [h]), hlast⟩, hrest⟩)

/-- The comments of a regular script that no line comment precedes in their line. -/
theorem regular_comment_cases {p fresh : Bool} {c : Char} {cs : List Char} {n : Nat}
    {ℓs : List Lexeme} (hnext : next p c cs = .ok (.comment, n))
    (hrest : scanFrom p 0 (cs.drop n) = .ok ℓs)
    (hregular : isRegularFrom fresh false (⟨.comment, c :: cs.take n⟩ :: ℓs) = true) :
    ∃ t rest ℓs', c :: cs = t ++ rest ∧ t ≠ [] ∧ scanFrom p 0 rest = .ok ℓs' ∧
      isRegularFrom fresh false ℓs' = true ∧ isQuotedBody ℓs' = isQuotedBody ℓs ∧
      (IsSingleBlock t ∨ IsClosedLine t ∨ (IsOpenLine t ∧ startsPiece ℓs' = true) ∨
        (IsLastLine t ∧ rest = [])) := by
  rw [isRegularFrom] at hregular
  obtain ⟨body, r, rfl, rfl, rfl, hbody, hhead⟩ | ⟨ds, k, rfl, rfl, rfl, hk⟩ | rfl :=
    next_comment_cases hnext
  · rw [Nat.add_comm, List.drop_succ_cons, List.drop_left] at hrest
    rw [Nat.add_comm, List.take_succ_cons, behindComment?_line] at hregular
    obtain ⟨u, rest, ℓs', rfl, hscan, hregular', hsame, hu⟩ :=
      reachesLineEnd_of_isRegularFrom hrest hregular
    refine ⟨'-' :: '-' :: (body ++ u), rest, ℓs', by simp, by simp, hscan, hregular', hsame,
      .inr ?_⟩
    exact line_cases hbody hu hscan hhead
  · obtain ⟨v, hv, htake, hgap⟩ := isGap_of_commentLength? hk
    rw [List.drop_succ_cons] at hrest
    simp only [List.take_succ_cons, htake] at hregular
    split at hregular
    · next next hnext' =>
      obtain ⟨rfl, -, hblock⟩ := behindComment?_block hnext'
      refine ⟨'/' :: '*' :: (v ++ ['*', '/']), ds.drop k, ℓs, ?_, by simp, hrest, hregular, rfl,
        .inl ?_⟩
      · rw [List.cons_append, List.cons_append, ← hv]
      · exact ⟨v, rfl, by simpa using hblock rfl, hgap⟩
    · simp at hregular
  · rw [behindComment?_brace] at hregular
    simp at hregular

/-- Holds for legible glyphs whose text is cut into the given lexemes and which start as these
do. -/
structure LegibleAs (p fresh : Bool) (cs : List Char) (ℓs : List Lexeme) (gs : List Glyph) :
    Prop where
  legible : Legible p fresh gs
  text : textOf gs = cs
  starts : startsPiece ℓs = true → StartsPiece gs
  ends : endsStatement ℓs = true → EndsStatement gs
  quotedBody : isQuotedBody ℓs = true → IsQuotedBody gs

section LegibleAs

variable {p fresh : Bool} {c : Char} {cs : List Char} {n : Nat} {kind : LexemeKind}
  {ℓs : List Lexeme} {gs : List Glyph}

theorem exists_legibleAs_white (hnext : next p c cs = .ok (kind, n))
    (hkind : kind = .blank ∨ kind = .lineBreak) (h : LegibleAs p fresh (cs.drop n) ℓs gs) :
    ∃ gs, LegibleAs p fresh (c :: cs) (⟨kind, c :: cs.take n⟩ :: ℓs) gs := by
  obtain ⟨hall, -, -⟩ := white_of_next hnext hkind
  refine ⟨_, legible_blanks_append hall h.legible, ?_, ?_, ?_, fun hbody => ?_⟩
  · rw [textOf_chars_append, h.text, List.cons_append, List.take_append_drop]
  · obtain rfl | rfl := hkind <;> exact nofun
  · obtain rfl | rfl := hkind <;> exact nofun
  · rw [isQuotedBody_blanks_append hall]
    obtain rfl | rfl := hkind <;> exact h.quotedBody hbody

theorem exists_legibleAs_quoted (hnext : next p c cs = .ok (.quoted, n))
    (h : LegibleAs false false (cs.drop n) ℓs gs) :
    ∃ gs, LegibleAs p fresh (c :: cs) (⟨.quoted, c :: cs.take n⟩ :: ℓs) gs := by
  have hnext' : next p c (cs.take n ++ textOf gs) = .ok (.quoted, (cs.take n).length) := by
    rw [h.text, List.take_append_drop,
      List.length_take_of_le (length_le_of_next_quoted hnext), hnext]
  refine ⟨_, .quoted hnext' h.legible, ?_, fun _ => rfl, nofun, h.ends⟩
  rw [textOf_segment, h.text, List.cons_append, List.take_append_drop]

theorem isQuotedBody_eq_false_of_isLoose (hloose : isLoose kind = true) (text : List Char) :
    isQuotedBody (⟨kind, text⟩ :: ℓs) = false := by
  cases kind with
  | blank => exact absurd hloose (by decide)
  | lineBreak => exact absurd hloose (by decide)
  | comment => exact absurd hloose (by decide)
  | quoted => exact absurd hloose (by decide)
  | _ => rfl

theorem exists_legibleAs_token (hnext : next p c cs = .ok (kind, n)) (hloose : isLoose kind = true)
    (hdollar : c ≠ '$') (hcommand : kind = .command → fresh = false ∨ isQuotedBody ℓs = true)
    (h : LegibleAs (LexemeKind.afterParameter p kind) (freshBehind kind) (cs.drop n) ℓs gs) :
    ∃ gs, LegibleAs p fresh (c :: cs) (⟨kind, c :: cs.take n⟩ :: ℓs) gs := by
  have hblank : isBlank c = false := by
    apply isBlank_eq_false_of_next hnext <;> rintro rfl <;> exact absurd hloose (by decide)
  obtain ⟨m, hm, hhead⟩ := next_of_ink_eq hblank hdollar rfl hnext hloose
  have hnext' : next p c (cs.take n ++ textOf gs) = .ok (kind, (cs.take n).length) := by
    rw [h.text, List.take_append_drop, List.length_take_of_le hhead.le_left, hnext]
  refine ⟨_, .token hblank hdollar hnext' hloose
    (fun hkind => (hcommand hkind).imp_right h.quotedBody) h.legible, ?_, fun _ => hblank,
    fun hends => ?_, fun hbody => ?_⟩
  · rw [textOf_chars_append, h.text, List.cons_append, List.take_append_drop]
  · obtain rfl : kind = .semicolon := beq_iff_eq.1 hends
    obtain rfl := eq_semicolon_of_next hnext
    exact .inr ⟨_, rfl⟩
  · rw [isQuotedBody_eq_false_of_isLoose hloose] at hbody
    exact absurd hbody (by decide)

/-- A comment of a regular script, with what belongs to it. -/
theorem exists_legibleAs_comment {t rest : List Char} {ℓs' : List Lexeme}
    (hscan : scanFrom p 0 rest = .ok ℓs') (hsame : isQuotedBody ℓs' = isQuotedBody ℓs)
    (ht : IsSingleBlock t ∨ IsClosedLine t ∨ (IsOpenLine t ∧ startsPiece ℓs' = true) ∨
      (IsLastLine t ∧ rest = [])) (h : LegibleAs p fresh rest ℓs' gs) (text : List Char) :
    ∃ gs, LegibleAs p fresh (t ++ rest) (⟨.comment, text⟩ :: ℓs) gs := by
  have hbody : isQuotedBody (⟨.comment, text⟩ :: ℓs) = true → IsQuotedBody gs := by
    intro hbody
    exact h.quotedBody (hsame.trans hbody)
  have htext : ∀ mark, textOf (segment mark t :: gs) = t ++ rest := by
    intro mark
    rw [textOf_segment, h.text]
  obtain hblock | hline | ⟨hline, hpiece⟩ | ⟨hline, hnil⟩ := ht
  · exact ⟨_, .block hblock h.legible, htext _, nofun, nofun, hbody⟩
  · exact ⟨_, .closedLine hline h.legible, htext _, nofun, nofun, hbody⟩
  · exact ⟨_, .openLine hline (h.starts hpiece) h.legible, htext _, nofun, nofun, hbody⟩
  · subst hnil
    obtain rfl := Except.ok.inj hscan
    refine ⟨_, .lastLine hline, ?_, nofun, nofun, fun hquoted => ?_⟩
    · rw [textOf_segment, textOf_nil]
    · exact absurd (hsame.trans hquoted) Bool.false_ne_true

/-- The text of a regular script is that of legible glyphs. -/
theorem exists_legible_of_scan (h : scanFrom p 0 cs = .ok ℓs)
    (hregular : isRegularFrom fresh false ℓs = true) : ∃ gs, LegibleAs p fresh cs ℓs gs := by
  -- on the length of the text, since a line comment takes the gap behind it along
  induction hn : cs.length using Nat.strongRecOn generalizing p fresh cs ℓs with
  | _ n ih =>
    subst hn
    cases cs with
    | nil =>
      obtain rfl := Except.ok.inj h
      exact ⟨[], .nil, rfl, fun _ => trivial, fun _ => .inl rfl, nofun⟩
    | cons c cs =>
      obtain ⟨kind, n, rest, hnext, hrest, rfl⟩ := scanFrom_cons_eq_ok_iff.1 h
      have hlt : (cs.drop n).length < (c :: cs).length := by
        rw [List.length_drop, List.length_cons]
        omega
      have hwhite : kind = .blank ∨ kind = .lineBreak → isRegularFrom fresh false rest = true →
          ∃ gs, LegibleAs p fresh (c :: cs) (⟨kind, c :: cs.take n⟩ :: rest) gs := by
        intro hkind hregular'
        rw [(white_of_next hnext hkind).2.2] at hrest
        obtain ⟨gs, hgs⟩ := ih _ hlt hrest hregular' rfl
        exact exists_legibleAs_white hnext hkind hgs
      have htoken : isLoose kind = true → ((c :: cs.take n).head? != some '$' &&
          (!(kind == .command && fresh) || isQuotedBody rest) &&
          isRegularFrom (freshBehind kind) false rest) = true →
          ∃ gs, LegibleAs p fresh (c :: cs) (⟨kind, c :: cs.take n⟩ :: rest) gs := by
        intro hloose hregular'
        simp only [Bool.and_eq_true, List.head?_cons, bne_iff_ne, ne_eq,
          Option.some.injEq] at hregular'
        obtain ⟨⟨hdollar, hcommand⟩, hregular'⟩ := hregular'
        obtain ⟨gs, hgs⟩ := ih _ hlt hrest hregular' rfl
        refine exists_legibleAs_token hnext hloose hdollar ?_ hgs
        rintro rfl
        simpa using hcommand
      cases kind with
      | blank => exact hwhite (.inl rfl) hregular
      | lineBreak => exact hwhite (.inr rfl) hregular
      | comment =>
        obtain ⟨t, r, ℓs', heq, hne, hscan, hregular', hsame, ht⟩ :=
          regular_comment_cases hnext hrest hregular
        have hlt' : r.length < (c :: cs).length := by
          rw [heq, List.length_append]
          have := List.length_pos_iff.2 hne
          omega
        obtain ⟨gs, hgs⟩ := ih _ hlt' hscan hregular' rfl
        obtain ⟨gs', hgs'⟩ := exists_legibleAs_comment hscan hsame ht hgs (c :: cs.take n)
        rw [← heq] at hgs'
        exact ⟨gs', hgs'⟩
      | quoted =>
        obtain ⟨gs, hgs⟩ := ih _ hlt hrest hregular rfl
        exact exists_legibleAs_quoted hnext hgs
      | plain => exact htoken rfl hregular
      | parameter => exact htoken rfl hregular
      | semicolon => exact htoken rfl hregular
      | opening => exact htoken rfl hregular
      | command => exact htoken rfl hregular

end LegibleAs

end PgSchema.Layout
