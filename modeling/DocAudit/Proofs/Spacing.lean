import DocAudit.Proofs.Brackets
import DocAudit.Proofs.TypeNormalForm

/-!
# Proofs/Spacing — what writing the blanks of a type anew keeps

`respace` drops the white space of a type and puts blanks of its own.  So it keeps the characters
that are not white (`filter_respace`), and with them the nesting of brackets (`balanced_respace`);
it forgets blank ends (`respace_trim`) and has none itself (`trim_respace`).  On text without roles,
marks and quotes it is all there is to the normal form (`normalize_eq_respace`).
-/

namespace DocAudit.TypeText

open DocAudit.Text DocAudit.TypeExpr

variable {prev : Option Char} {white : Bool}

/-! ## Blank ends -/

theorem respace_cons_of_isWhite {c : Char} (hc : isWhite c = true) (s : List Char) :
    respace prev white (c :: s) = respace prev true s := by
  rw [respace, if_pos hc]

theorem respace_cons {c : Char} (hc : isWhite c = false) (s : List Char) :
    respace prev white (c :: s) = gap prev white c ++ c :: respace (some c) false s := by
  rw [respace, if_neg (by simp [hc])]

/-- At the start of a text white space makes no difference. -/
theorem respace_none_eq (white white' : Bool) (s : List Char) :
    respace none white s = respace none white' s := by
  rcases s with _ | ⟨c, s⟩
  · rfl
  · rw [respace, respace]
    rfl

theorem respace_none_append {u : List Char} (hu : isBlank u = true) (s : List Char) :
    respace none white (u ++ s) = respace none white s := by
  induction u generalizing white with
  | nil => rfl
  | cons c u ih =>
    rw [isBlank, List.all_cons, Bool.and_eq_true] at hu
    rw [List.cons_append, respace_cons_of_isWhite hu.1, ih hu.2, respace_none_eq true white]

theorem respace_of_isBlank {v : List Char} (hv : isBlank v = true) : respace prev white v = [] := by
  induction v generalizing white with
  | nil => rfl
  | cons c v ih =>
    rw [isBlank, List.all_cons, Bool.and_eq_true] at hv
    rw [respace_cons_of_isWhite hv.1, ih hv.2]

theorem respace_append_blank (s : List Char) {v : List Char} (hv : isBlank v = true) :
    respace prev white (s ++ v) = respace prev white s := by
  induction s generalizing prev white with
  | nil => rw [List.nil_append, respace_of_isBlank hv, respace]
  | cons c s ih => rw [List.cons_append, respace, respace, ih, ih]

/-- **Blank ends are forgotten.** -/
theorem respace_trim (s : List Char) : respace none white (trim s) = respace none white s := by
  obtain ⟨u, v, hu, hv, hs⟩ := exists_blank_ends s
  conv_rhs => rw [hs, respace_append_blank _ hv, respace_none_append hu]

/-! ## Characters -/

/-- The new blanks are white. -/
theorem isBlank_gap (prev : Option Char) (white : Bool) (c : Char) :
    isBlank (gap prev white c) = true := by
  unfold gap
  split
  · rfl
  split
  · rfl
  split <;> decide

/-- **The characters that are not white stay, in their order.** -/
theorem filter_respace (s : List Char) :
    (respace prev white s).filter (fun c => !isWhite c) = s.filter fun c => !isWhite c := by
  induction s generalizing prev white with
  | nil => rfl
  | cons c s ih =>
    by_cases hc : isWhite c = true
    · rw [respace_cons_of_isWhite hc, ih, List.filter_cons_of_neg (by simp [hc])]
    · rw [Bool.not_eq_true] at hc
      have hgap : (gap prev white c).filter (fun c => !isWhite c) = [] :=
        List.filter_eq_nil_iff.mpr fun b hb => by
          simp [isBlank_iff.mp (isBlank_gap prev white c) b hb]
      rw [respace_cons hc, List.filter_append, hgap, List.nil_append,
        List.filter_cons_of_pos (by simp [hc]), List.filter_cons_of_pos (by simp [hc]), ih]

/-! ## Nesting -/

variable {weight : Char → Int}

theorem nesting_filter (hweight : ∀ {c}, isWhite c = true → weight c = 0) (s : List Char) :
    nesting weight (s.filter fun c => !isWhite c) = nesting weight s := by
  induction s with
  | nil => rfl
  | cons c s ih =>
    by_cases hc : isWhite c = true
    · rw [List.filter_cons_of_neg (by simp [hc]), nesting_cons, hweight hc, ih, Int.zero_add]
    · rw [List.filter_cons_of_pos (by simp [hc]), nesting_cons, nesting_cons, ih]

/-- **Brackets that balance keep balancing.** -/
theorem balanced_respace (hweight : ∀ {c}, isWhite c = true → weight c = 0) {s : List Char}
    (h : Balanced weight s) : Balanced weight (respace prev white s) where
  nonneg u hu := by
    -- The part of the old text with the same characters has the same nesting.
    obtain ⟨v, hv⟩ := hu.filter fun c => !isWhite c
    rw [filter_respace] at hv
    obtain ⟨x, y, rfl, hx, -⟩ := List.filter_eq_append_iff.mp hv.symm
    rw [← nesting_filter hweight u, ← hx, nesting_filter hweight x]
    exact h.nonneg x (List.prefix_append x y)
  closed := by
    rw [← nesting_filter hweight, filter_respace, nesting_filter hweight, h.closed]

theorem hasBalancedBrackets_respace {s : List Char} (h : HasBalancedBrackets s) :
    HasBalancedBrackets (respace prev white s) :=
  ⟨balanced_respace jointWeight_of_isWhite h.joint,
    balanced_respace squareWeight_of_isWhite h.square⟩

/-! ## No blank ends -/

theorem not_isWhite_of_head?_respace {s : List Char} {c : Char}
    (h : (respace none white s).head? = some c) : isWhite c = false := by
  induction s generalizing white with
  | nil => cases h
  | cons b s ih =>
    by_cases hb : isWhite b = true
    · rw [respace_cons_of_isWhite hb] at h
      exact ih h
    · rw [Bool.not_eq_true] at hb
      rw [respace_cons hb] at h
      exact Option.some.inj h ▸ hb

theorem not_isWhite_of_getLast?_respace {s : List Char} {c : Char}
    (h : (respace prev white s).getLast? = some c) : isWhite c = false := by
  induction s generalizing prev white with
  | nil => cases h
  | cons b s ih =>
    by_cases hb : isWhite b = true
    · rw [respace_cons_of_isWhite hb] at h
      exact ih h
    · rw [Bool.not_eq_true] at hb
      rw [respace_cons hb, List.getLast?_append, List.getLast?_cons] at h
      rcases hrest : (respace (some b) false s).getLast? with _ | d
      · rw [hrest] at h
        exact Option.some.inj h ▸ hb
      · obtain rfl : d = c := by simpa [hrest] using h
        exact ih hrest

theorem trim_eq_self {s : List Char} (hhead : ∀ c, s.head? = some c → isWhite c = false)
    (hlast : ∀ c, s.getLast? = some c → isWhite c = false) : trim s = s := by
  have hdrop : ∀ t : List Char, (∀ c, t.head? = some c → isWhite c = false) →
      t.dropWhile isWhite = t := by
    intro t ht
    rcases t with _ | ⟨c, t⟩
    · rfl
    · exact List.dropWhile_cons_of_neg (by simp [ht c rfl])
  rw [trim, trimStart, hdrop s hhead, trimEnd, hdrop _ (by simpa using hlast), List.reverse_reverse]

/-- **The new text has no blank ends.** -/
theorem trim_respace (s : List Char) : trim (respace none white s) = respace none white s :=
  trim_eq_self (fun _ => not_isWhite_of_head?_respace) fun _ => not_isWhite_of_getLast?_respace

/-! ## Plain text -/

/-- The text has no colon, no mark of a cross-reference and no quote. -/
def IsPlainText (s : List Char) : Prop :=
  ∀ c ∈ s, c ≠ ':' ∧ isMark c = false ∧ c ≠ '"' ∧ c ≠ '\''

-- Said by name, so that it goes through the text and never through all characters.
instance (s : List Char) : Decidable (IsPlainText s) :=
  List.decidableBAll (fun c => c ≠ ':' ∧ isMark c = false ∧ c ≠ '"' ∧ c ≠ '\'') s

theorem IsPlainText.append {s t : List Char} (hs : IsPlainText s) (ht : IsPlainText t) :
    IsPlainText (s ++ t) :=
  fun c hc => (List.mem_append.mp hc).elim (hs c) (ht c)

/-- **The normal form of plain text is a matter of spacing.** -/
theorem normalize_eq_respace {s : List Char} (h : IsPlainText s) :
    normalize s = respace none false s := by
  have hroles : dropRoles s = s := by
    have happend := dropRoles_append_left (u := s) (fun c hc => (h c hc).1) []
    simpa [dropRoles, dropRolesFrom] using happend
  have hmarks : (s.filter fun c => !isMark c) = s :=
    List.filter_eq_self.mpr fun c hc => by simp [(h c hc).2.1]
  have hquotes : unquote (trim s) = trim s := by
    rcases htrim : trim s with _ | ⟨q, t⟩
    · rfl
    · obtain ⟨u, v, -, -, hs⟩ := exists_blank_ends s
      have hq : q ∈ s := by
        rw [hs, htrim]
        simp
      exact if_neg fun hquote => hquote.1.elim (h q hq).2.2.1 (h q hq).2.2.2
  rw [normalize, hroles, hmarks, hquotes, respace_trim]

end DocAudit.TypeText
