import DocAudit.Proofs.Spacing

/-!
# Proofs/PendingBlank — the blanks of a type written in one pass, with edits of the output

`respace` decides each blank before it writes it.  The same text comes out of a pass that corrects
itself: white space is only noted, a separator is written with a blank behind it, punctuation first
takes the blanks off the end of what is written, and the blanks at the two ends of the output are
trimmed at last.

The output and the text of `respace` differ by blanks that are taken off later.  Behind a separator
the output is one blank ahead (`behind`), and a bar at the very front has a blank before it, which
stays there up to the end (`ahead`).  With these split off, a step puts the gap and the character
behind the output (`step_behind`), and a whole pass puts the text of `respace` there
(`out_foldl_step`).
-/

namespace DocAudit.TypeText

open DocAudit.Text DocAudit.TypeExpr

/-! ## The pass -/

/-- The text without the blanks at its end; other white space stays. -/
def dropBlanks (s : List Char) : List Char :=
  (s.reverse.dropWhile (· == ' ')).reverse

/-- What is written, and whether white space was read since. -/
structure Spacer where
  out : List Char
  white : Bool

/-- Punctuation that is written without blanks around it. -/
def isTight (c : Char) : Bool :=
  c == '[' || c == ']' || c == '(' || c == ')' || c == '.'

/-- White space between words is written as a blank, except at the front, behind a blank and behind
punctuation that what follows stands close to. -/
def Spacer.needsBlank (w : Spacer) : Bool :=
  w.white && !w.out.isEmpty && !(w.out.getLast?.any fun p => p == ' ' || holdsNext p)

/-- One more character. -/
def Spacer.step (w : Spacer) (c : Char) : Spacer :=
  if isWhite c then { w with white := true }
  else if isTight c then ⟨dropBlanks w.out ++ [c], false⟩
  else if c = ',' then ⟨dropBlanks w.out ++ [',', ' '], false⟩
  else if c = '|' then ⟨dropBlanks w.out ++ [' ', '|', ' '], false⟩
  else if w.needsBlank then ⟨w.out ++ [' '] ++ [c], false⟩
  else ⟨w.out ++ [c], false⟩

/-- The text with its blanks written in one pass. -/
def respaceInOnePass (s : List Char) : List Char :=
  trim (s.foldl Spacer.step ⟨[], false⟩).out

/-! ## What the output is ahead -/

/-- The blank that is written behind a separator at once. -/
def behind : Option Char → List Char
  | none => []
  | some p => if isSeparator p then [' '] else []

/-- The blank in front of a bar that nothing stands before. -/
def ahead (prev : Option Char) (c : Char) : List Char :=
  if prev = none ∧ c = '|' then [' '] else []

theorem isBlank_behind (prev : Option Char) : isBlank (behind prev) = true := by
  rcases prev with _ | p
  · rfl
  · rw [behind]
    split <;> rfl

theorem isBlank_ahead (prev : Option Char) (c : Char) : isBlank (ahead prev c) = true := by
  rw [ahead]
  split <;> rfl

theorem beq_blank_of_not_isWhite {c : Char} (h : isWhite c = false) : (c == ' ') = false := by
  refine beq_false_of_ne ?_
  rintro rfl
  simp [isWhite] at h

theorem dropBlanks_append_behind {text : List Char} {prev : Option Char}
    (hlast : text.getLast? = prev) (hprev : ∀ p ∈ prev, isWhite p = false) :
    dropBlanks (text ++ behind prev) = text := by
  rcases List.eq_nil_or_concat text with rfl | ⟨front, p, rfl⟩
  · obtain rfl : none = prev := hlast
    rfl
  · rw [List.concat_eq_append, List.getLast?_concat] at hlast
    subst hlast
    have hp := beq_blank_of_not_isWhite (hprev p rfl)
    unfold behind
    dsimp only
    split <;> simp [dropBlanks, hp]

/-- Ordinary characters: the blank in front of them is one that the output is ahead, or it is
written now. -/
theorem blank_before {text : List Char} {prev : Option Char} {white : Bool} {c : Char}
    (hlast : text.getLast? = prev) (hprev : ∀ p ∈ prev, isWhite p = false)
    (hclose : closesUp c = false) (hbar : c ≠ '|') :
    text ++ gap prev white c
      = text ++ behind prev
        ++ if Spacer.needsBlank ⟨text ++ behind prev, white⟩ then [' '] else [] := by
  rcases prev with _ | p
  · obtain rfl := List.getLast?_eq_none_iff.mp hlast
    simp [gap, behind, Spacer.needsBlank]
  · obtain ⟨front, rfl⟩ := List.getLast?_eq_some_iff.mp hlast
    have hp := beq_blank_of_not_isWhite (hprev p rfl)
    cases hsep : isSeparator p with
    | true => simp [gap, behind, Spacer.needsBlank, hclose, hsep]
    | false => simp [gap, behind, Spacer.needsBlank, hclose, hsep, hbar, hp]

/-- **A character goes behind the output with its gap**, up to the blanks that the output is
ahead. -/
theorem step_behind {text : List Char} {prev : Option Char} {white : Bool} {c : Char}
    (hlast : text.getLast? = prev) (hprev : ∀ p ∈ prev, isWhite p = false)
    (hc : isWhite c = false) :
    Spacer.step ⟨text ++ behind prev, white⟩ c
      = ⟨text ++ ahead prev c ++ gap prev white c ++ [c] ++ behind (some c), false⟩ := by
  have hdrop := dropBlanks_append_behind hlast hprev
  rw [Spacer.step, if_neg (by simp [hc])]
  dsimp only
  rw [hdrop]
  split
  · rename_i htight
    simp only [isTight, Bool.or_eq_true, beq_iff_eq] at htight
    rcases htight with (((rfl | rfl) | rfl) | rfl) | rfl <;> rcases prev with _ | p <;>
      simp [ahead, gap, behind, closesUp, isSeparator]
  split
  · rename_i hcomma
    subst hcomma
    rcases prev with _ | p <;> simp [ahead, gap, behind, closesUp, isSeparator]
  split
  · rename_i hbar
    subst hbar
    rcases prev with _ | p <;> simp [ahead, gap, behind, closesUp, isSeparator]
  rename_i htight hcomma hbar
  have hclose : closesUp c = false := by
    rw [show closesUp c = (isTight c || c == ',') from rfl]
    simp [htight, hcomma]
  have hsep : isSeparator c = false := by simp [isSeparator, hcomma, hbar]
  have hahead : ahead prev c = [] := if_neg fun h => hbar h.2
  have hbehind : behind (some c) = [] := if_neg (by simp [hsep])
  rw [hahead, hbehind, List.append_nil, List.append_nil, blank_before hlast hprev hclose hbar]
  split <;> simp

/-- **What one pass writes**, up to the blanks that the output is ahead. -/
theorem out_foldl_step (s : List Char) {text : List Char} {prev : Option Char} (white : Bool)
    (hlast : text.getLast? = prev) (hprev : ∀ p ∈ prev, isWhite p = false) :
    ∃ front back, isBlank front = true ∧ isBlank back = true ∧ (prev ≠ none → front = []) ∧
      (s.foldl Spacer.step ⟨text ++ behind prev, white⟩).out
        = text ++ front ++ respace prev white s ++ back := by
  induction s generalizing text prev white with
  | nil =>
    refine ⟨[], behind prev, rfl, isBlank_behind prev, fun _ => rfl, ?_⟩
    simp [respace]
  | cons c s ih =>
    cases hc : isWhite c with
    | true =>
      rw [List.foldl_cons, Spacer.step, if_pos hc, respace_cons_of_isWhite hc]
      exact ih true hlast hprev
    | false =>
      rw [List.foldl_cons, step_behind hlast hprev hc, respace_cons hc]
      have hlast' : (text ++ ahead prev c ++ gap prev white c ++ [c]).getLast? = some c :=
        List.getLast?_concat
      obtain ⟨front, back, -, hback, hfront, hout⟩ := ih false hlast' (by simpa using hc)
      obtain rfl := hfront (Option.some_ne_none c)
      refine ⟨ahead prev c, back, isBlank_ahead prev c, hback,
        fun hsome => if_neg fun h => hsome h.1, ?_⟩
      rw [hout]
      simp

/-- **One pass with edits of its output writes the blanks anew.** -/
theorem respaceInOnePass_eq (s : List Char) : respaceInOnePass s = respace none false s := by
  have hempty : ([] : List Char).getLast? = none := rfl
  obtain ⟨front, back, hfront, hback, -, hout⟩ := out_foldl_step s false hempty nofun
  have hstart : ([] : List Char) ++ behind none = [] := rfl
  rw [hstart] at hout
  rw [respaceInOnePass, hout, trim_append_right _ hback, List.nil_append, trim_append_left hfront,
    trim_respace]

end DocAudit.TypeText
