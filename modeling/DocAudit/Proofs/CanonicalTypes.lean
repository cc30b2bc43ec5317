import DocAudit.Proofs.Roles
import DocAudit.Proofs.UnionSpellings
import DocAudit.Proofs.VisibleText
import Mathlib.Data.List.Chain

/-!
# Proofs/CanonicalTypes — the normal form of a type, and when it is its own normal form

Writing the blanks of a text anew twice is writing them anew once (`respace_respace`): a blank that
was written is asked for again, and no other one is.  So a normal form is spaced as it should be,
has no marks and no blank ends, and a second pass can only take roles and quotes away, those that
came to light when the first pass removed a mark or a quote.  A role that goes takes a colon along,
a pair of quotes itself, and no pass brings them back.  Hence a normal form is its own normal form
exactly if it has neither (`normalType_canonical`).  All else that shows in the text stays
(`visible_normalize`).
-/

namespace DocAudit

namespace TypeText

open Text

variable {prev : Option Char} {white : Bool} {c : Char}

/-! ## Blanks -/

theorem gap_eq_nil_or (prev : Option Char) (white : Bool) (c : Char) :
    gap prev white c = [] ∨ gap prev white c = [' '] := by
  unfold gap
  split
  · exact .inl rfl
  split
  · exact .inl rfl
  split
  · exact .inr rfl
  · exact .inl rfl

/-- A blank that is written is asked for again. -/
theorem gap_true_of_eq_blank (h : gap prev white c = [' ']) : gap prev true c = [' '] := by
  rcases prev with _ | p
  · cases h
  · unfold gap at h ⊢
    grind

/-- Where no blank is written, none is asked for without white space. -/
theorem gap_false_of_eq_nil (h : gap prev white c = []) : gap prev false c = [] := by
  rcases prev with _ | p
  · rfl
  · unfold gap at h ⊢
    grind

/-- **A text whose blanks have been written anew keeps them.** -/
theorem respace_respace (s : List Char) :
    respace prev false (respace prev white s) = respace prev white s := by
  induction s generalizing prev white with
  | nil => rfl
  | cons c s ih =>
    by_cases hc : isWhite c = true
    · rw [respace_cons_of_isWhite hc, ih]
    · rw [Bool.not_eq_true] at hc
      rw [respace_cons hc]
      rcases gap_eq_nil_or prev white c with hgap | hgap
      · rw [hgap, List.nil_append, respace_cons hc, gap_false_of_eq_nil hgap, ih, List.nil_append]
      · rw [hgap, List.singleton_append, respace_cons_of_isWhite (by decide), respace_cons hc,
          gap_true_of_eq_blank hgap, ih, List.singleton_append]

theorem eq_blank_of_mem_respace {s : List Char} {b : Char} (hb : b ∈ respace prev white s)
    (hwhite : isWhite b = true) : b = ' ' := by
  induction s generalizing prev white with
  | nil => cases hb
  | cons c s ih =>
    by_cases hc : isWhite c = true
    · rw [respace_cons_of_isWhite hc] at hb
      exact ih hb
    · rw [Bool.not_eq_true] at hc
      rw [respace_cons hc, List.mem_append, List.mem_cons] at hb
      rcases hb with hb | rfl | hb
      · rcases gap_eq_nil_or prev white c with hgap | hgap <;> rw [hgap] at hb
        · cases hb
        · exact List.mem_singleton.mp hb
      · exact absurd (hc.symm.trans hwhite) Bool.false_ne_true
      · exact ih hb

theorem isChain_respace (s : List Char) :
    (respace prev white s).IsChain fun a b => isWhite a = true → isWhite b = false := by
  induction s generalizing prev white with
  | nil => exact .nil
  | cons c s ih =>
    by_cases hc : isWhite c = true
    · rw [respace_cons_of_isWhite hc]
      exact ih
    · rw [Bool.not_eq_true] at hc
      have hrest : (c :: respace (some c) false s).IsChain
          fun a b => isWhite a = true → isWhite b = false :=
        List.isChain_cons.mpr
          ⟨fun _ _ hwhite => absurd (hc.symm.trans hwhite) Bool.false_ne_true, ih⟩
      rw [respace_cons hc]
      rcases gap_eq_nil_or prev white c with hgap | hgap <;> rw [hgap]
      · exact hrest
      · exact List.isChain_cons_cons.mpr ⟨fun _ => hc, hrest⟩

/-- **No two blanks stand side by side.** -/
theorem not_two_blanks_respace (s : List Char) : ¬[' ', ' '] <:+: respace prev white s := by
  rintro ⟨u, v, huv⟩
  have hchain := @isChain_respace prev white s
  rw [← huv, List.append_assoc, List.isChain_append] at hchain
  have hblank := (List.isChain_cons_cons.mp hchain.2.1).1
  exact absurd (hblank (by decide)) (by decide)

/-! ## Quotes -/

/-- The text stands between two equal quotes. -/
def IsQuoted (s : List Char) : Prop :=
  ∃ q t, (q = '"' ∨ q = '\'') ∧ s = q :: (t ++ [q])

theorem unquote_eq_self {s : List Char} (h : ¬IsQuoted s) : unquote s = s := by
  rcases s with _ | ⟨q, s⟩
  · rfl
  · refine if_neg fun hquotes => h ?_
    obtain ⟨t, rfl⟩ := List.getLast?_eq_some_iff.mp hquotes.2
    exact ⟨q, t, hquotes.1, rfl⟩

theorem unquote_quoted {q : Char} (hq : q = '"' ∨ q = '\'') (t : List Char) :
    unquote (q :: (t ++ [q])) = t := by
  rw [unquote, if_pos ⟨hq, List.getLast?_concat⟩, List.dropLast_concat]

theorem unquote_sublist (s : List Char) : (unquote s).Sublist s := by
  by_cases h : IsQuoted s
  · obtain ⟨q, t, hq, rfl⟩ := h
    rw [unquote_quoted hq]
    exact (List.sublist_append_left t [q]).cons q
  · rw [unquote_eq_self h]

/-! ## A second pass -/

theorem count_respace (hc : isWhite c = false) (s : List Char) :
    (respace prev white s).count c = s.count c := by
  have hkept : ∀ l : List Char, (l.filter fun b => !isWhite b).count c = l.count c := fun l =>
    List.count_filter (by simp [hc])
  rw [← hkept, filter_respace, hkept]

/-- What shows of a text without its roles, marks and quotes shows of its normal form. -/
theorem visible_normalize (s : List Char) :
    visible (normalize s) = visible (unquote (trim ((dropRoles s).filter fun c => !isMark c))) := by
  rw [normalize, visible, filter_respace, visible]

/-- No pass brings a character back that is not white. -/
theorem count_normalize_le (hc : isWhite c = false) (s : List Char) :
    (normalize s).count c ≤ (dropRoles s).count c := by
  rw [normalize, count_respace hc]
  exact ((unquote_sublist _).trans ((trim_sublist _).trans List.filter_sublist)).count_le c

/-- Of a normal form without roles a second pass only takes the quotes. -/
theorem normalize_normalize {s : List Char} (h : ¬HasRole (normalize s)) :
    normalize (normalize s) = respace none false (unquote (normalize s)) := by
  have hmarks : ((normalize s).filter fun c => !isMark c) = normalize s :=
    List.filter_eq_self.mpr fun c hc => by simp [not_isMark_of_mem_normalize hc]
  have htrim : trim (normalize s) = normalize s := trim_respace _
  rw [normalize, dropRoles_eq_self h, hmarks, htrim]

/-- **A normal form is its own normal form exactly if it has neither a role nor quotes around
it.** -/
theorem normalize_normalize_eq_iff (s : List Char) :
    normalize (normalize s) = normalize s ↔ ¬HasRole (normalize s) ∧ ¬IsQuoted (normalize s) := by
  constructor
  · intro hfixed
    have hrole : ¬HasRole (normalize s) := fun hrole => by
      have hle := count_normalize_le (c := ':') (by decide) (normalize s)
      rw [hfixed] at hle
      exact absurd (count_colon_dropRoles_lt hrole) (Nat.not_lt.mpr hle)
    refine ⟨hrole, ?_⟩
    rintro ⟨q, t, hq, hquoted⟩
    have hwhite : isWhite q = false := by rcases hq with rfl | rfl <;> decide
    have hcount : t.count q = (q :: (t ++ [q])).count q := by
      rw [← hquoted, ← hfixed, normalize_normalize hrole, hquoted, unquote_quoted hq,
        count_respace hwhite]
    rw [List.count_cons_self, List.count_append, List.count_singleton_self] at hcount
    omega
  · rintro ⟨hrole, hquoted⟩
    rw [normalize_normalize hrole, unquote_eq_self hquoted]
    exact respace_respace _

/-- **The look of a normal form**: no blank ends, no marks of cross-references, and no white space
but single blanks. -/
structure IsCanonical (n : List Char) : Prop where
  head_not_white : ∀ c ∈ n.head?, isWhite c = false
  last_not_white : ∀ c ∈ n.getLast?, isWhite c = false
  no_backtick : '\x60' ∉ n
  no_tilde : '~' ∉ n
  eq_blank : ∀ c ∈ n, isWhite c = true → c = ' '
  not_two_blanks : ¬[' ', ' '] <:+: n

theorem isCanonical_normalize (s : List Char) : IsCanonical (normalize s) where
  head_not_white _ hc := not_isWhite_of_head?_respace hc
  last_not_white _ hc := not_isWhite_of_getLast?_respace hc
  no_backtick h := absurd (not_isMark_of_mem_normalize h) (by decide)
  no_tilde h := absurd (not_isMark_of_mem_normalize h) (by decide)
  eq_blank _ hc hwhite := eq_blank_of_mem_respace hc hwhite
  not_two_blanks := not_two_blanks_respace _

end TypeText

open Text TypeText

/-- **The normal form of a type is canonical** — it has the look of a normal form, shows all of the
text but roles, marks and quotes, and is its own normal form unless a role stands in it or quotes
stand around it. -/
theorem normalType_canonical (text : String) :
    IsCanonical (normalType text).toList ∧
    visible (normalType text).toList
      = visible (unquote (trim ((dropRoles text.toList).filter fun c => !isMark c))) ∧
    (normalType (normalType text) = normalType text ↔
      ¬HasRole (normalType text).toList ∧ ¬IsQuoted (normalType text).toList) := by
  have htext : (normalType text).toList = TypeText.normalize text.toList := String.toList_ofList
  have hfixed : normalType (normalType text) = normalType text ↔
      TypeText.normalize (TypeText.normalize text.toList) = TypeText.normalize text.toList := by
    rw [normalType, htext, normalType, String.ofList_inj]
  rw [hfixed, htext]
  exact ⟨isCanonical_normalize _, visible_normalize _, normalize_normalize_eq_iff _⟩

/-- Removing a mark may leave a role, and removing quotes may leave others. -/
example : normalType ":`a:" = ":a:" ∧ normalType "'\"a\"'" = "\"a\"" := by decide

end DocAudit
