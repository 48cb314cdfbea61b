/-
# White space behind open line comments

A line comment that no line feed ends takes the white space behind it, through the first line
feed, when its text is cut again.  `absorb` says so for glyphs.

* `textOf_absorb` : the text stays;
* `length_absorb` : the glyphs get fewer unless they stay.
-/
import PgSchema.Proofs.Layout.Solid

namespace PgSchema.Layout

open Text Glyph

/-! ## Taking white space -/

/-- The white space at the start of glyphs, through its first line feed. -/
def feed : List Glyph → List Char
  | [] => []
  | .segment _ _ :: _ => []
  | .char c :: gs => if c == '\n' then [c] else if isBlank c then c :: feed gs else []

/-- Holds for the text of a line comment that no line feed ends. -/
def isOpen (mark : Char) (text : List Char) : Bool :=
  mark == lineMark && text.getLast? != some '\n'

theorem isOpen_of_ne {mark : Char} (h : mark ≠ lineMark) (text : List Char) :
    isOpen mark text = false := by
  rw [isOpen, beq_false_of_ne h, Bool.false_and]

/-- Glyphs whose open line comments have taken the white space behind them; the first `skip` glyphs
have been taken already. -/
def absorbFrom (skip : Nat) : List Glyph → List Glyph
  | [] => []
  | g :: gs =>
    match skip, g with
    | skip + 1, _ => absorbFrom skip gs
    | 0, .char c => .char c :: absorbFrom 0 gs
    | 0, .segment mark text =>
      if isOpen mark text then .segment mark (text ++ feed gs) :: absorbFrom (feed gs).length gs
      else .segment mark text :: absorbFrom 0 gs

/-- Glyphs whose open line comments have taken the white space behind them. -/
def absorb (gs : List Glyph) : List Glyph := absorbFrom 0 gs

theorem absorbFrom_eq_drop (skip : Nat) (gs : List Glyph) :
    absorbFrom skip gs = absorb (gs.drop skip) := by
  induction gs generalizing skip with
  | nil => simp [absorb, absorbFrom]
  | cons g gs ih =>
    cases skip with
    | zero => rfl
    | succ skip => rw [absorbFrom, ih, List.drop_succ_cons]

theorem absorb_char (c : Char) (gs : List Glyph) : absorb (char c :: gs) = char c :: absorb gs :=
  rfl

theorem absorb_segment {mark : Char} {text : List Char} (h : isOpen mark text = false)
    (gs : List Glyph) : absorb (segment mark text :: gs) = segment mark text :: absorb gs := by
  rw [absorb, absorbFrom, h]
  rfl

theorem absorb_open {mark : Char} {text : List Char} (h : isOpen mark text = true)
    (gs : List Glyph) : absorb (segment mark text :: gs) =
      segment mark (text ++ feed gs) :: absorb (gs.drop (feed gs).length) := by
  rw [absorb, absorbFrom, if_pos h, absorbFrom_eq_drop]

theorem absorb_chars_append (cs : List Char) (gs : List Glyph) :
    absorb (cs.map char ++ gs) = cs.map char ++ absorb gs := by
  induction cs with
  | nil => rfl
  | cons c cs ih => exact congrArg (char c :: ·) ih

/-- Glyphs start with the white space that an open line comment takes: through a line feed, or to
the next glyph that is no white space. -/
theorem feed_cases (gs : List Glyph) :
    ∃ bs rest, bs.all isBlank = true ∧ '\n' ∉ bs ∧
      ((gs = bs.map char ++ char '\n' :: rest ∧ feed gs = bs ++ ['\n']) ∨
        (gs = bs.map char ++ rest ∧ feed gs = bs ∧
          ∀ c, rest.head? = some (char c) → isBlank c = false)) := by
  induction gs with
  | nil => exact ⟨[], [], rfl, by simp, .inr ⟨rfl, rfl, by simp⟩⟩
  | cons g gs ih =>
    cases g with
    | segment mark text => exact ⟨[], _, rfl, by simp, .inr ⟨rfl, rfl, by simp⟩⟩
    | char c =>
      -- a line feed is the last character that is taken
      by_cases hfeed : c = '\n'
      · subst hfeed
        exact ⟨[], gs, rfl, by simp, .inl ⟨rfl, rfl⟩⟩
      · have hne : ¬ (c == '\n') = true := by simpa using hfeed
        by_cases hc : isBlank c = true
        · obtain ⟨bs, rest, hbs, hnot, hcases⟩ := ih
          refine ⟨c :: bs, rest, by rw [List.all_cons, hc, hbs]; rfl, ?_, ?_⟩
          · rw [List.mem_cons, not_or]
            exact ⟨Ne.symm hfeed, hnot⟩
          · rw [feed, if_neg hne, if_pos hc]
            obtain ⟨rfl, heq⟩ | ⟨rfl, heq, hrest⟩ := hcases
            · exact .inl ⟨rfl, congrArg (c :: ·) heq⟩
            · exact .inr ⟨rfl, congrArg (c :: ·) heq, hrest⟩
        · refine ⟨[], _, rfl, by simp, .inr ⟨rfl, ?_, ?_⟩⟩
          · rw [feed, if_neg hne, if_neg hc]
          · intro d hd
            obtain rfl := Glyph.char.inj (Option.some.inj hd)
            simpa using hc

theorem feed_append_drop (gs : List Glyph) :
    (feed gs).map char ++ gs.drop (feed gs).length = gs := by
  obtain ⟨bs, rest, -, -, ⟨heq, hfeed⟩ | ⟨heq, hfeed, -⟩⟩ := feed_cases gs
  · have hsplit : gs = (bs ++ ['\n']).map char ++ rest := by simp [heq]
    rw [hfeed, hsplit, List.drop_left' (by rw [List.length_map])]
  · rw [hfeed, heq, List.drop_left' (by rw [List.length_map])]

theorem all_isBlank_feed (gs : List Glyph) : (feed gs).all isBlank = true := by
  obtain ⟨bs, rest, hbs, -, ⟨-, hfeed⟩ | ⟨-, hfeed, -⟩⟩ := feed_cases gs
  · rw [hfeed, List.all_append, hbs]
    decide
  · rw [hfeed, hbs]

/-- Glyphs are read by line comments: open ones with the white space behind them, other segments,
and characters. -/
theorem absorb_induction {motive : List Glyph → Prop} (nil : motive [])
    (char : ∀ c gs, motive gs → motive (char c :: gs))
    (segment : ∀ mark text gs, isOpen mark text = false → motive gs →
      motive (segment mark text :: gs))
    (open_ : ∀ mark text gs, isOpen mark text = true → motive (gs.drop (feed gs).length) →
      motive (.segment mark text :: gs))
    (gs : List Glyph) : motive gs := by
  induction hn : gs.length using Nat.strongRecOn generalizing gs with
  | _ n ih =>
    subst hn
    cases gs with
    | nil => exact nil
    | cons g gs =>
      have hlt : ∀ k, (gs.drop k).length < (g :: gs).length := by
        intro k
        rw [List.length_drop, List.length_cons]
        omega
      cases g with
      | char c => exact char c gs (ih gs.length (Nat.lt_succ_self _) gs rfl)
      | segment mark text =>
        cases hopen : isOpen mark text with
        | false => exact segment mark text gs hopen (ih gs.length (Nat.lt_succ_self _) gs rfl)
        | true => exact open_ mark text gs hopen (ih _ (hlt _) _ rfl)

/-- Line comments that take white space leave the text as it is. -/
theorem textOf_absorb (gs : List Glyph) : textOf (absorb gs) = textOf gs := by
  induction gs using absorb_induction with
  | nil => rfl
  | char c gs ih => rw [absorb_char, textOf_cons, textOf_cons, ih]
  | segment mark text gs h ih => rw [absorb_segment h, textOf_cons, textOf_cons, ih]
  | open_ mark text gs h ih =>
    have hsplit := congrArg textOf (feed_append_drop gs)
    rw [textOf_chars_append] at hsplit
    rw [absorb_open h, textOf_segment, textOf_segment, ih, List.append_assoc, hsplit]

theorem isProper_absorb {gs : List Glyph} (h : ∀ g ∈ gs, g.IsProper) :
    ∀ g ∈ absorb gs, g.IsProper := by
  induction gs using absorb_induction with
  | nil => exact h
  | char c gs ih =>
    obtain ⟨hc, hgs⟩ := List.forall_mem_cons.1 h
    exact List.forall_mem_cons.2 ⟨hc, ih hgs⟩
  | segment mark text gs hopen ih =>
    obtain ⟨hmark, hgs⟩ := List.forall_mem_cons.1 h
    rw [absorb_segment hopen]
    exact List.forall_mem_cons.2 ⟨hmark, ih hgs⟩
  | open_ mark text gs hopen ih =>
    obtain ⟨hmark, hgs⟩ := List.forall_mem_cons.1 h
    rw [absorb_open hopen]
    exact List.forall_mem_cons.2 ⟨hmark, ih fun g hg => hgs g (List.mem_of_mem_drop hg)⟩

/-- Line comments that take white space leave fewer glyphs. -/
theorem length_absorb (gs : List Glyph) :
    (absorb gs).length ≤ gs.length ∧ ((absorb gs).length = gs.length → absorb gs = gs) := by
  induction gs using absorb_induction with
  | nil => exact ⟨Nat.le_refl _, fun _ => rfl⟩
  | char c gs ih =>
    rw [absorb_char, List.length_cons, List.length_cons]
    exact ⟨Nat.succ_le_succ ih.1, fun h => congrArg _ (ih.2 (Nat.succ.inj h))⟩
  | segment mark text gs h ih =>
    rw [absorb_segment h, List.length_cons, List.length_cons]
    exact ⟨Nat.succ_le_succ ih.1, fun h => congrArg _ (ih.2 (Nat.succ.inj h))⟩
  | open_ mark text gs h ih =>
    have hlength := congrArg List.length (feed_append_drop gs)
    rw [List.length_append, List.length_map] at hlength
    rw [absorb_open h, List.length_cons, List.length_cons]
    refine ⟨by omega, fun heq => ?_⟩
    have hnil : feed gs = [] := List.eq_nil_of_length_eq_zero (by omega)
    rw [hnil, List.length_nil, List.drop_zero] at ih heq ⊢
    rw [List.append_nil, ih.2 (Nat.succ.inj heq)]

end PgSchema.Layout
