import DocAudit.Proofs.Trimming
import DocAudit.TypeExpr
import Mathlib.Data.Int.Basic
import Mathlib.Data.List.Basic
import Mathlib.Data.List.Flatten
import Mathlib.Data.List.Infix

/-!
# Proofs/Brackets — nesting, and the parts of a text that brackets enclose

The nesting behind a text is a sum over its characters: an opening bracket adds one and a closing
one takes one away.  `splitOutside` counts both kinds of brackets together, `enclosed` the square
ones alone, so nesting is stated for any `weight` of characters.

* `splitOutside_append_enclosed` — text whose separators are all enclosed goes to the first piece of
  what follows;
* `splitOutside_append_separator` — a separator behind closed brackets cuts the text;
* `flatten_members_sublist` — the members are parts of the text, in order;
* `enclosed_append_close` — what balanced square brackets enclose is found.
-/

namespace DocAudit.TypeExpr

open DocAudit.Text

/-! ## Nesting -/

/-- What a character adds to the nesting of both kinds of brackets. -/
def jointWeight (c : Char) : Int :=
  if c = '[' ∨ c = '(' then 1 else if c = ']' ∨ c = ')' then -1 else 0

/-- What a character adds to the nesting of square brackets. -/
def squareWeight (c : Char) : Int :=
  if c = '[' then 1 else if c = ']' then -1 else 0

/-- The nesting behind a text: the sum of what its characters add. -/
def nesting (weight : Char → Int) : List Char → Int
  | [] => 0
  | c :: s => weight c + nesting weight s

variable {weight : Char → Int} {sep : Char}

@[simp] theorem nesting_nil : nesting weight [] = 0 :=
  rfl

@[simp] theorem nesting_cons (c : Char) (s : List Char) :
    nesting weight (c :: s) = weight c + nesting weight s :=
  rfl

@[simp] theorem nesting_append (s t : List Char) :
    nesting weight (s ++ t) = nesting weight s + nesting weight t := by
  induction s with
  | nil => simp
  | cons c s ih => rw [List.cons_append, nesting_cons, nesting_cons, ih, Int.add_assoc]

theorem jointWeight_of_isWhite {c : Char} (h : isWhite c = true) : jointWeight c = 0 :=
  forall_isWhite (P := fun c => jointWeight c = 0) (by decide) h

theorem squareWeight_of_isWhite {c : Char} (h : isWhite c = true) : squareWeight c = 0 :=
  forall_isWhite (P := fun c => squareWeight c = 0) (by decide) h

/-- White space does not nest. -/
theorem nesting_of_isBlank (hweight : ∀ {c}, isWhite c = true → weight c = 0) {s : List Char}
    (h : isBlank s = true) : nesting weight s = 0 := by
  induction s with
  | nil => rfl
  | cons c s ih =>
    rw [isBlank, List.all_cons, Bool.and_eq_true] at h
    rw [nesting_cons, hweight h.1, ih h.2]
    rfl

/-- No bracket is closed before it is opened, and all are closed at the end. -/
structure Balanced (weight : Char → Int) (s : List Char) : Prop where
  nonneg : ∀ u, u <+: s → 0 ≤ nesting weight u
  closed : nesting weight s = 0

instance (weight : Char → Int) (s : List Char) : Decidable (Balanced weight s) :=
  decidable_of_iff ((∀ u ∈ s.inits, 0 ≤ nesting weight u) ∧ nesting weight s = 0)
    ⟨fun h => ⟨fun u hu => h.1 u ((List.mem_inits u s).mpr hu), h.2⟩,
      fun h => ⟨fun u hu => h.nonneg u ((List.mem_inits u s).mp hu), h.closed⟩⟩

/-- Both counts of brackets balance. -/
structure HasBalancedBrackets (s : List Char) : Prop where
  joint : Balanced jointWeight s
  square : Balanced squareWeight s

instance (s : List Char) : Decidable (HasBalancedBrackets s) :=
  decidable_of_iff (Balanced jointWeight s ∧ Balanced squareWeight s)
    ⟨fun h => ⟨h.1, h.2⟩, fun h => ⟨h.joint, h.square⟩⟩

/-! ## Pieces -/

theorem consHead_ne_nil (c : Char) (l : List (List Char)) : consHead c l ≠ [] := by
  rcases l with _ | ⟨piece, pieces⟩ <;> exact List.cons_ne_nil _ _

theorem consHead_append {c : Char} {l l' : List (List Char)} (h : l ≠ []) :
    consHead c (l ++ l') = consHead c l ++ l' := by
  obtain ⟨piece, pieces, rfl⟩ := List.exists_cons_of_ne_nil h
  rfl

/-- One character: a separator at nesting zero opens a new piece, every other character goes to the
first one. -/
theorem splitOutside_cons (hsep : jointWeight sep = 0) (depth : Int) (c : Char) (s : List Char) :
    splitOutside sep depth (c :: s)
      = if c = sep ∧ depth = 0 then [] :: splitOutside sep 0 s
        else consHead c (splitOutside sep (depth + jointWeight c) s) := by
  have hopen : ∀ b, (b = '[' ∨ b = '(') → jointWeight b = 1 := fun b hb => if_pos hb
  have hclose : ∀ b, (b = ']' ∨ b = ')') → jointWeight b = -1 := by rintro b (rfl | rfl) <;> rfl
  rw [splitOutside]
  split
  · rename_i hc
    have hne : c ≠ sep := fun heq => absurd (hopen c hc) (by rw [heq, hsep]; decide)
    rw [if_neg fun h => hne h.1, hopen c hc]
  split
  · rename_i hc
    have hne : c ≠ sep := fun heq => absurd (hclose c hc) (by rw [heq, hsep]; decide)
    rw [if_neg fun h => hne h.1, hclose c hc]
    rfl
  · rename_i hc hc'
    have hweight : jointWeight c = 0 := by rw [jointWeight, if_neg hc, if_neg hc']
    split
    · rename_i h
      rw [h.2]
    · rw [hweight, Int.add_zero]

theorem splitOutside_ne_nil (hsep : jointWeight sep = 0) (depth : Int) (s : List Char) :
    splitOutside sep depth s ≠ [] := by
  rcases s with _ | ⟨c, s⟩
  · exact List.cons_ne_nil _ _
  · rw [splitOutside_cons hsep]
    split
    · exact List.cons_ne_nil _ _
    · exact consHead_ne_nil c _

/-- **A separator behind closed brackets cuts the text.** -/
theorem splitOutside_append_separator (hsep : jointWeight sep = 0) {s : List Char} {depth : Int}
    (hs : depth + nesting jointWeight s = 0) (t : List Char) :
    splitOutside sep depth (s ++ sep :: t)
      = splitOutside sep depth s ++ splitOutside sep 0 t := by
  induction s generalizing depth with
  | nil =>
    obtain rfl : depth = 0 := by simpa using hs
    rw [List.nil_append, splitOutside_cons hsep, if_pos ⟨rfl, rfl⟩]
    rfl
  | cons c s ih =>
    rw [List.cons_append, splitOutside_cons hsep, splitOutside_cons hsep]
    rw [nesting_cons] at hs
    split
    · rename_i h
      rw [h.1, h.2, hsep] at hs
      rw [ih (by simpa using hs), List.cons_append]
    · rw [ih (by omega), consHead_append (splitOutside_ne_nil hsep _ s)]

/-- **Text whose separators are all enclosed goes to the first piece of what follows.** -/
theorem splitOutside_append_enclosed (hsep : jointWeight sep = 0) {s : List Char} {depth : Int}
    (hs : ∀ u v, s = u ++ sep :: v → depth + nesting jointWeight u ≠ 0) (t : List Char) :
    splitOutside sep depth (s ++ t)
      = (splitOutside sep (depth + nesting jointWeight s) t).modifyHead (s ++ ·) := by
  induction s generalizing depth with
  | nil =>
    obtain ⟨piece, pieces, hpieces⟩ := List.exists_cons_of_ne_nil (splitOutside_ne_nil hsep depth t)
    simp [hpieces]
  | cons c s ih =>
    have hc : ¬(c = sep ∧ depth = 0) := by
      rintro ⟨rfl, rfl⟩
      exact hs [] s rfl rfl
    have hrest := @ih (depth + jointWeight c) fun u v huv => by
      have hbehind := hs (c :: u) v (by rw [huv, List.cons_append])
      rwa [nesting_cons, ← Int.add_assoc] at hbehind
    rw [List.cons_append, splitOutside_cons hsep, if_neg hc, hrest, nesting_cons, ← Int.add_assoc]
    obtain ⟨piece, pieces, hpieces⟩ := List.exists_cons_of_ne_nil
      (splitOutside_ne_nil hsep (depth + jointWeight c + nesting jointWeight s) t)
    rw [hpieces]
    rfl

theorem splitOutside_append_of_not_mem (hsep : jointWeight sep = 0) {s : List Char} (hs : sep ∉ s)
    (depth : Int) (t : List Char) :
    splitOutside sep depth (s ++ t)
      = (splitOutside sep (depth + nesting jointWeight s) t).modifyHead (s ++ ·) := by
  refine splitOutside_append_enclosed hsep (fun u v huv => absurd ?_ hs) t
  rw [huv]
  exact List.mem_append_right u List.mem_cons_self

/-- Text without separators is one piece. -/
theorem splitOutside_eq_singleton (hsep : jointWeight sep = 0) {s : List Char} (hs : sep ∉ s)
    (depth : Int) : splitOutside sep depth s = [s] := by
  simpa [splitOutside] using splitOutside_append_of_not_mem hsep hs depth []

/-- A text in one piece is that piece. -/
theorem splitOutside_eq_of_length (hsep : jointWeight sep = 0) {depth : Int} {s : List Char}
    (h : (splitOutside sep depth s).length = 1) : splitOutside sep depth s = [s] := by
  induction s generalizing depth with
  | nil => rfl
  | cons c s ih =>
    rw [splitOutside_cons hsep] at h ⊢
    split at h
    · exact absurd (List.length_eq_zero_iff.mp (Nat.succ.inj h)) (splitOutside_ne_nil hsep 0 s)
    · rename_i hc
      have hlength : (splitOutside sep (depth + jointWeight c) s).length = 1 := by
        obtain ⟨piece, pieces, hs⟩ := List.exists_cons_of_ne_nil
          (splitOutside_ne_nil hsep (depth + jointWeight c) s)
        rw [hs] at h ⊢
        exact h
      rw [if_neg hc, ih hlength]
      rfl

/-- Text without separators behind a text goes to its last piece. -/
theorem exists_last_piece (hsep : jointWeight sep = 0) {v : List Char} (hv : sep ∉ v)
    (depth : Int) (s : List Char) : ∃ pieces last,
      splitOutside sep depth s = pieces ++ [last] ∧
        splitOutside sep depth (s ++ v) = pieces ++ [last ++ v] := by
  induction s generalizing depth with
  | nil => exact ⟨[], [], rfl, splitOutside_eq_singleton hsep hv depth⟩
  | cons c s ih =>
    rw [List.cons_append, splitOutside_cons hsep, splitOutside_cons hsep]
    split
    · obtain ⟨pieces, last, hs, hsv⟩ := ih 0
      exact ⟨[] :: pieces, last, by rw [hs]; rfl, by rw [hsv]; rfl⟩
    · obtain ⟨pieces, last, hs, hsv⟩ := ih (depth + jointWeight c)
      rw [hs, hsv]
      rcases pieces with _ | ⟨piece, pieces⟩
      · exact ⟨[], c :: last, rfl, rfl⟩
      · exact ⟨(c :: piece) :: pieces, last, rfl, rfl⟩

theorem flatten_consHead (c : Char) (l : List (List Char)) :
    (consHead c l).flatten = c :: l.flatten := by
  rcases l with _ | ⟨piece, pieces⟩ <;> rfl

/-- The pieces are parts of the text. -/
theorem flatten_splitOutside_sublist (hsep : jointWeight sep = 0) (depth : Int)
    (s : List Char) : (splitOutside sep depth s).flatten.Sublist s := by
  induction s generalizing depth with
  | nil => exact List.Sublist.refl []
  | cons c s ih =>
    rw [splitOutside_cons hsep]
    split
    · exact (ih 0).cons c
    · rw [flatten_consHead]
      exact (ih _).cons_cons c

/-! ## Members -/

theorem members_append_separator (hsep : jointWeight sep = 0) {s : List Char}
    (hs : nesting jointWeight s = 0) (t : List Char) :
    members sep (s ++ sep :: t) = members sep s ++ members sep t := by
  rw [members, splitOutside_append_separator hsep (by rwa [Int.zero_add]), List.map_append]
  rfl

theorem members_eq_singleton (hsep : jointWeight sep = 0) {s : List Char} (hs : trim s = s)
    (h : (members sep s).length = 1) : members sep s = [s] := by
  rw [members, List.length_map] at h
  rw [members, splitOutside_eq_of_length hsep h, List.map_singleton, hs]

/-- A blank at the end makes no difference to the members. -/
theorem members_append_blank (hsep : jointWeight sep = 0) (s : List Char) {v : List Char}
    (hblank : isBlank v = true) (hv : sep ∉ v) : members sep (s ++ v) = members sep s := by
  obtain ⟨pieces, last, hs, hsv⟩ := exists_last_piece hsep hv 0 s
  rw [members, members, hs, hsv]
  simp [trim_append_right last hblank]

/-- A blank in front makes no difference to the members. -/
theorem members_blank_append (hsep : jointWeight sep = 0) {u : List Char}
    (hblank : isBlank u = true) (hu : sep ∉ u) (s : List Char) :
    members sep (u ++ s) = members sep s := by
  have hpieces := splitOutside_append_of_not_mem hsep hu 0 s
  rw [nesting_of_isBlank jointWeight_of_isWhite hblank, Int.add_zero] at hpieces
  obtain ⟨piece, pieces, hs⟩ := List.exists_cons_of_ne_nil (splitOutside_ne_nil hsep 0 s)
  rw [members, members, hpieces, hs]
  simp [trim_append_left hblank]

/-- The members are parts of the text. -/
theorem flatten_members_sublist (hsep : jointWeight sep = 0) (s : List Char) :
    (members sep s).flatten.Sublist s := by
  have htrim : (members sep s).flatten.Sublist (splitOutside sep 0 s).flatten := by
    rw [members, ← List.flatMap_def, ← List.flatMap_id]
    exact List.Sublist.flatMap_right _ fun piece _ => trim_sublist piece
  exact htrim.trans (flatten_splitOutside_sublist hsep 0 s)

/-! ## Arguments -/

/-- **What balanced square brackets enclose is found.** -/
theorem enclosed_append_close {s : List Char} {opened : Nat}
    (hnonneg : ∀ u, u <+: s → 0 ≤ opened + nesting squareWeight u)
    (hclosed : opened + nesting squareWeight s = 0) :
    enclosed opened (s ++ [']']) = some s := by
  induction s generalizing opened with
  | nil =>
    obtain rfl : opened = 0 := by simpa using hclosed
    rfl
  | cons c s ih =>
    have hnext : ∀ next : Nat, (next : Int) = opened + squareWeight c →
        enclosed next (s ++ [']']) = some s := by
      intro next hnext
      refine ih (fun u hu => ?_) ?_
      · have hcu := hnonneg (c :: u) ((List.cons_prefix_cons).mpr ⟨rfl, hu⟩)
        rw [nesting_cons, ← Int.add_assoc] at hcu
        rwa [hnext]
      · rw [nesting_cons, ← Int.add_assoc] at hclosed
        rwa [hnext]
    rw [List.cons_append, enclosed]
    split
    · rename_i hc
      rw [hnext (opened + 1) (by simp [squareWeight, hc])]
      rfl
    split
    · rename_i hc hc'
      have hpos := hnonneg [c] ((List.cons_prefix_cons).mpr ⟨rfl, List.nil_prefix⟩)
      have hweight : squareWeight c = -1 := by simp [squareWeight, hc']
      rw [nesting_cons, hweight, nesting_nil] at hpos
      rw [if_neg (by omega), hnext (opened - 1) (by omega)]
      rfl
    · rename_i hc hc'
      rw [hnext opened (by simp [squareWeight, hc, hc'])]
      rfl

theorem enclosed_eq_some {s inner : List Char} {opened : Nat} (h : enclosed opened s = some inner) :
    s = inner ++ [']'] := by
  -- A character that does not end the text goes in front of what the rest encloses.
  have hcons : ∀ {opened c} {s t : List Char},
      (∀ {t}, enclosed opened s = some t → s = t ++ [']']) →
      (enclosed opened s).map (c :: ·) = some t → c :: s = t ++ [']'] := by
    intro opened c s t ih h
    obtain ⟨t, ht, rfl⟩ := Option.map_eq_some_iff.mp h
    rw [ih ht, List.cons_append]
  fun_induction enclosed opened s generalizing inner with
  | case1 => cases h
  | case2 opened s ih => exact hcons ih h
  | case3 => cases h; rfl
  | case4 => cases h
  | case5 opened s hopened hclose ih => exact hcons ih h
  | case6 opened c s hopen hclose ih => exact hcons ih h

end DocAudit.TypeExpr
