import DocAudit.Proofs.CanonicalTypes
import Mathlib.Logic.Relation

/-!
# Proofs/SpacingVariants — spacing makes no difference to a type

`Respaces` is one change of the white space of a text that is none to a reader of types: a run of
white space for another, or white space more at either end, in front of punctuation that fixes the
blank there, or behind punctuation that does.  Texts that such changes lead to from each other are
spacing variants (`IsSpacingVariant`).

Writing the blanks anew forgets such a change wherever it was made (`respace_of_respaces`).  The
normal form takes quotes off first, but taking them off afterwards comes to the same up to blank
ends (`respace_unquote_trim`), so no change has to be followed into the quotes.
-/

namespace DocAudit

namespace TypeText

open Text

variable {prev : Option Char} {white : Bool} {c : Char} {s t w : List Char}

/-! ## Changes of spacing -/

/-- White space in front of these characters means nothing. -/
def looseBefore : List Char :=
  ['[', ']', '(', ')', '.', ',', '|']

/-- White space behind these characters means nothing. -/
def looseBehind : List Char :=
  ['[', '(', '.', ',', '|']

/-- One change of spacing: a run of white space is replaced by another, or white space is put at
either end of the text, in front of punctuation or behind it. -/
inductive Respaces : List Char → List Char → Prop
  | run {u w w' v : List Char} (hw : isBlank w = true) (hne : w ≠ []) (hw' : isBlank w' = true)
      (hne' : w' ≠ []) : Respaces (u ++ (w ++ v)) (u ++ (w' ++ v))
  | front {w s : List Char} (hw : isBlank w = true) : Respaces s (w ++ s)
  | back {w s : List Char} (hw : isBlank w = true) : Respaces s (s ++ w)
  | before {u w v : List Char} {c : Char} (hc : c ∈ looseBefore) (hw : isBlank w = true) :
      Respaces (u ++ c :: v) (u ++ (w ++ c :: v))
  | behind {u w v : List Char} {c : Char} (hc : c ∈ looseBehind) (hw : isBlank w = true) :
      Respaces (u ++ c :: v) (u ++ c :: (w ++ v))

/-- Changes of spacing, made and taken back in any order, lead from one text to the other. -/
def IsSpacingVariant : List Char → List Char → Prop :=
  Relation.EqvGen Respaces

/-! ## Punctuation -/

theorem mem_looseBefore_of_mem_looseBehind : ∀ c ∈ looseBehind, c ∈ looseBefore := by
  simp [looseBefore, looseBehind]

theorem not_isWhite_of_mem_looseBefore : ∀ c ∈ looseBefore, isWhite c = false := by
  simp [looseBefore, isWhite]

theorem not_isMark_of_mem_looseBefore : ∀ c ∈ looseBefore, isMark c = false := by
  simp [looseBefore, isMark]

theorem gap_of_mem_looseBefore (hc : c ∈ looseBefore) (prev : Option Char) (white white' : Bool) :
    gap prev white c = gap prev white' c := by
  have hfixed : ∀ c ∈ looseBefore, closesUp c = true ∨ (c == '|') = true := by
    simp [looseBefore, closesUp]
  rcases prev with _ | p
  · rfl
  · rcases hfixed c hc with hclose | hbar
    · simp [gap, hclose]
    · simp [gap, hbar]

theorem gap_of_mem_looseBehind {p : Char} (hp : p ∈ looseBehind) (white white' : Bool) (c : Char) :
    gap (some p) white c = gap (some p) white' c := by
  have hfixed : ∀ p ∈ looseBehind, isSeparator p = true ∨ holdsNext p = true := by
    simp [looseBehind, isSeparator, holdsNext]
  rcases hfixed p hp with hseparator | hholds
  · simp [gap, hseparator]
  · simp [gap, hholds]

/-! ## Writing the blanks anew -/

/-- Of white space only its presence shows. -/
theorem respace_run (hw : isBlank w = true) (hne : w ≠ []) (s : List Char) :
    respace prev white (w ++ s) = respace prev true s := by
  induction w generalizing white with
  | nil => exact absurd rfl hne
  | cons c w ih =>
    rw [isBlank, List.all_cons, Bool.and_eq_true] at hw
    rw [List.cons_append, respace_cons_of_isWhite hw.1]
    by_cases hnil : w = []
    · rw [hnil, List.nil_append]
    · exact ih hw.2 hnil

/-- White space in front of punctuation does not show. -/
theorem respace_before (hc : c ∈ looseBefore) (hw : isBlank w = true)
    (s : List Char) : respace prev white (w ++ c :: s) = respace prev white (c :: s) := by
  by_cases hnil : w = []
  · rw [hnil, List.nil_append]
  · have hwhite := not_isWhite_of_mem_looseBefore c hc
    rw [respace_run hw hnil, respace_cons hwhite, respace_cons hwhite,
      gap_of_mem_looseBefore hc prev true white]

/-- White space behind punctuation does not show. -/
theorem respace_behind {p : Char} (hp : p ∈ looseBehind) (hw : isBlank w = true)
    (s : List Char) : respace (some p) white (w ++ s) = respace (some p) white s := by
  have hforget : ∀ white', respace (some p) white' s = respace (some p) white s := by
    intro white'
    rcases s with _ | ⟨c, s⟩
    · rfl
    · rw [respace, respace, gap_of_mem_looseBehind hp white' white]
  by_cases hnil : w = []
  · rw [hnil, List.nil_append]
  · rw [respace_run hw hnil, hforget true]

/-- What is written the same behind everything may be exchanged. -/
theorem respace_append_congr (h : ∀ prev white, respace prev white s = respace prev white t)
    (u : List Char) (prev : Option Char) (white : Bool) :
    respace prev white (u ++ s) = respace prev white (u ++ t) := by
  induction u generalizing prev white with
  | nil => exact h prev white
  | cons c u ih => rw [List.cons_append, List.cons_append, respace, respace, ih, ih]

/-- **Writing the blanks anew forgets a change of spacing.** -/
theorem respace_of_respaces (h : Respaces s t) : respace none false s = respace none false t := by
  cases h with
  | run hw hne hw' hne' =>
    refine respace_append_congr (fun prev white => ?_) _ none false
    rw [respace_run hw hne, respace_run hw' hne']
  | front hw => exact (respace_none_append hw s).symm
  | back hw => exact (respace_append_blank s hw).symm
  | before hc hw =>
    exact respace_append_congr (fun prev white => (respace_before hc hw _).symm) _ none false
  | @behind u w v c hc hw =>
    refine respace_append_congr (fun prev white => ?_) _ none false
    have hwhite := not_isWhite_of_mem_looseBefore c (mem_looseBefore_of_mem_looseBehind c hc)
    rw [respace_cons hwhite, respace_cons hwhite, respace_behind hc hw]

/-! ## Marks and quotes -/

/-- Marks are no white space and no punctuation, so a change of spacing is one without them too. -/
theorem respaces_filter (h : Respaces s t) :
    Respaces (s.filter fun c => !isMark c) (t.filter fun c => !isMark c) := by
  have hblank : ∀ {w : List Char}, isBlank w = true → (w.filter fun c => !isMark c) = w :=
    fun {w} hw => List.filter_eq_self.mpr fun c hc => by
      simp [not_isMark_of_isWhite (isBlank_iff.mp hw c hc)]
  have hpunctuation : ∀ {c : Char} {v : List Char}, c ∈ looseBefore →
      ((c :: v).filter fun c => !isMark c) = c :: v.filter fun c => !isMark c :=
    fun {c v} hc => List.filter_cons_of_pos (by simp [not_isMark_of_mem_looseBefore c hc])
  cases h with
  | run hw hne hw' hne' =>
    simp only [List.filter_append, hblank hw, hblank hw']
    exact .run hw hne hw' hne'
  | front hw =>
    rw [List.filter_append, hblank hw]
    exact .front hw
  | back hw =>
    rw [List.filter_append, hblank hw]
    exact .back hw
  | @before u w v c hc hw =>
    simp only [List.filter_append, hpunctuation hc, hblank hw]
    exact .before hc hw
  | @behind u w v c hc hw =>
    simp only [List.filter_append, hpunctuation (mem_looseBefore_of_mem_looseBehind c hc),
      hblank hw]
    exact .behind hc hw

theorem exists_respace_concat (hc : isWhite c = false) (prev : Option Char) (white : Bool)
    (s : List Char) :
    ∃ v, isBlank v = true ∧ respace prev white (s ++ [c]) = respace prev white s ++ v ++ [c] := by
  induction s generalizing prev white with
  | nil => exact ⟨gap prev white c, isBlank_gap prev white c, by simp [respace, hc]⟩
  | cons b s ih =>
    by_cases hb : isWhite b = true
    · rw [List.cons_append, respace_cons_of_isWhite hb, respace_cons_of_isWhite hb]
      exact ih prev true
    · rw [Bool.not_eq_true] at hb
      obtain ⟨v, hv, hrest⟩ := ih (some b) false
      exact ⟨v, hv, by rw [List.cons_append, respace_cons hb, respace_cons hb, hrest]; simp⟩

/-- Up to a blank in front, a text is written the same behind everything. -/
theorem trim_respace_eq (prev : Option Char) (white : Bool) (s : List Char) :
    trim (respace prev white s) = respace none false s := by
  induction s generalizing white with
  | nil => rfl
  | cons c s ih =>
    by_cases hc : isWhite c = true
    · rw [respace_cons_of_isWhite hc, ih, respace_cons_of_isWhite hc, respace_none_eq]
    · rw [Bool.not_eq_true] at hc
      have hstart : respace none false (c :: s) = c :: respace (some c) false s :=
        respace_cons hc s
      rw [respace_cons hc, trim_append_left (isBlank_gap prev white c), ← hstart, trim_respace]

/-- Writing the blanks of a trimmed text anew puts no quotes around it. -/
theorem isQuoted_of_respace (h : IsQuoted (respace none false (trim s))) : IsQuoted (trim s) := by
  obtain ⟨q, m, hq, hquoted⟩ := h
  rcases hs : trim s with _ | ⟨c, t⟩
  · rw [hs] at hquoted
    cases hquoted
  have hc : isWhite c = false := not_isWhite_of_head?_trim (s := s) (by rw [hs]; rfl)
  rw [hs, respace_cons hc] at hquoted
  obtain ⟨rfl, hrest⟩ := List.cons.inj hquoted
  -- The last character is not white, so it is the last one of the new text as well.
  rcases t.eq_nil_or_concat' with rfl | ⟨t, d, rfl⟩
  · simp [respace] at hrest
  · have hd : isWhite d = false := not_isWhite_of_getLast?_trim (s := s) (by
      rw [hs, ← List.cons_append, List.getLast?_concat])
    obtain ⟨v, -, hspaced⟩ := exists_respace_concat hd (some c) false t
    obtain ⟨-, hlast⟩ := List.append_inj' (hspaced.symm.trans hrest) rfl
    exact ⟨c, t, hq, by rw [List.cons.inj hlast |>.1]⟩

/-- **Quotes may come off before or after the blanks are written anew.** -/
theorem respace_unquote_trim (s : List Char) :
    respace none false (unquote (trim s)) = trim (unquote (respace none false s)) := by
  rw [← respace_trim s]
  by_cases hquoted : IsQuoted (trim s)
  · obtain ⟨q, m, hq, hs⟩ := hquoted
    have hwhite : isWhite q = false := by rcases hq with rfl | rfl <;> decide
    obtain ⟨v, hv, hspaced⟩ := exists_respace_concat hwhite (some q) false m
    have hrespaced : respace none false (trim s) = q :: (respace (some q) false m ++ v ++ [q]) := by
      rw [hs, respace_cons hwhite, hspaced]
      rfl
    rw [hrespaced, unquote_quoted hq, hs, unquote_quoted hq, trim_append_right _ hv,
      trim_respace_eq]
  · rw [unquote_eq_self hquoted, unquote_eq_self fun h => hquoted (isQuoted_of_respace h),
      trim_respace]

theorem normalize_eq_trim_unquote (h : ':' ∉ s) :
    normalize s = trim (unquote (respace none false (s.filter fun c => !isMark c))) := by
  rw [normalize, dropRoles_eq_self (not_hasRole_of_colon_not_mem h), respace_unquote_trim]

/-- Without marks, spacing variants are the same text once their blanks are written anew. -/
theorem respace_of_isSpacingVariant (h : IsSpacingVariant s t) :
    respace none false (s.filter fun c => !isMark c)
      = respace none false (t.filter fun c => !isMark c) := by
  induction h with
  | rel s t h => exact respace_of_respaces (respaces_filter h)
  | refl s => rfl
  | symm s t _ ih => exact ih.symm
  | trans s t u _ _ ih ih' => exact ih.trans ih'

end TypeText

open TypeText

/-- **Spacing makes no difference to a type** — spacing variants without a colon have one normal
form and denote one type, so a type declared as one and documented as the other is never
reported. -/
theorem spacing_variants_agree {t u : String} (ht : ':' ∉ t.toList) (hu : ':' ∉ u.toList)
    (h : IsSpacingVariant t.toList u.toList) :
    normalType t = normalType u ∧ TypeExpr.parse t = TypeExpr.parse u ∧
      ∀ name, Analysis.typeFinding name (some t) (some u) = none := by
  have hnormal : TypeText.normalize t.toList = TypeText.normalize u.toList := by
    rw [normalize_eq_trim_unquote ht, normalize_eq_trim_unquote hu, respace_of_isSpacingVariant h]
  have hparse : TypeExpr.parse t = TypeExpr.parse u := by
    rw [TypeExpr.parse, TypeExpr.parse, hnormal]
  refine ⟨by rw [normalType, normalType, hnormal], hparse, fun name => ?_⟩
  exact Analysis.typeFinding_eq_none_iff.mpr hparse

/-- White space in front of a bracket and behind it, a wide space, and a tab behind the quotes. -/
theorem spacing_variants_sample :
    IsSpacingVariant "'A [ b\u2003c]'".toList "'A[b c]'\t".toList ∧
    normalType "'A [ b\u2003c]'" = "A[b c]" ∧
    TypeExpr.parse "'A [ b\u2003c]'" = TypeExpr.parse "'A[b c]'\t" := by
  have hbefore : Respaces "'A[ b\u2003c]'".toList "'A [ b\u2003c]'".toList :=
    @Respaces.before "'A".toList [' '] " b\u2003c]'".toList '[' (by decide) (by decide)
  have hbehind : Respaces "'A[b\u2003c]'".toList "'A[ b\u2003c]'".toList :=
    @Respaces.behind "'A".toList [' '] "b\u2003c]'".toList '[' (by decide) (by decide)
  have hrun : Respaces "'A[b\u2003c]'".toList "'A[b c]'".toList :=
    @Respaces.run "'A[b".toList ['\u2003'] [' '] "c]'".toList (by decide) (by decide) (by decide)
      (by decide)
  have hback : Respaces "'A[b c]'".toList "'A[b c]'\t".toList :=
    @Respaces.back ['\t'] "'A[b c]'".toList (by decide)
  have hvariant : IsSpacingVariant "'A [ b\u2003c]'".toList "'A[b c]'\t".toList :=
    .trans _ _ _ (.symm _ _ (.rel _ _ hbefore)) <| .trans _ _ _ (.symm _ _ (.rel _ _ hbehind)) <|
      .trans _ _ _ (.rel _ _ hrun) (.rel _ _ hback)
  obtain ⟨hnormal, hparse, -⟩ := spacing_variants_agree (by decide) (by decide) hvariant
  exact ⟨hvariant, hnormal.trans (by decide), hparse⟩

end DocAudit
