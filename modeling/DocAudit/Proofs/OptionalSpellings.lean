import DocAudit.Analysis
import DocAudit.Proofs.Spacing
import DocAudit.Proofs.TypeForms

/-!
# Proofs/OptionalSpellings — when `Optional[X]` and `X | None` are one type

The two spellings are read in different ways.  `Optional` reads its argument as a type of its own
and makes that nullable (`parse_optional`); a bar puts `None` beside the alternatives of the text,
as one more member (`parse_or_none`).  They come to the same exactly for a text that is open to
`None` (`IsOpenToNone`): it has a member other than `None`, and it is not by itself the whole of an
`Optional` or a `Union`, which the first way takes apart and the second leaves as it is.

The normal form of either spelling is that of `X` up to the blanks around the new characters
(`respace_append_close`, `exists_respace_append_none`, `respace_open`), and these blanks make no
difference to the members.
-/

namespace DocAudit

theorem Analysis.typeFinding_eq_none_iff {name declared documented : String} :
    typeFinding name (some declared) (some documented) = none ↔
      TypeExpr.parse declared = TypeExpr.parse documented := by
  rw [typeFinding]
  split <;> simp [*]

namespace TypeExpr

open DocAudit.Text DocAudit.TypeText

/-! ## The spellings in normal form -/

theorem respace_append_close (prev : Option Char) (white : Bool) (s : List Char) :
    respace prev white (s ++ [']']) = respace prev white s ++ [']'] := by
  induction s generalizing prev white with
  | nil => rcases prev with _ | p <;> rfl
  | cons c s ih =>
    by_cases hc : isWhite c = true
    · rw [List.cons_append, respace_cons_of_isWhite hc, respace_cons_of_isWhite hc, ih]
    · rw [Bool.not_eq_true] at hc
      rw [List.cons_append, respace_cons hc, respace_cons hc, ih]
      simp

theorem respace_bar_none (prev : Option Char) (white : Bool) :
    ∃ v, isBlank v = true ∧ '|' ∉ v ∧
      respace prev white " | None".toList = v ++ "| None".toList := by
  rcases prev with _ | p
  · exact ⟨[], rfl, by decide, rfl⟩
  · exact ⟨[' '], by decide, by decide, rfl⟩

/-- One blank or none stands in front of the bar, and one behind it. -/
theorem exists_respace_append_none (prev : Option Char) (white : Bool) (s : List Char) :
    ∃ v, isBlank v = true ∧ '|' ∉ v ∧
      respace prev white (s ++ " | None".toList)
        = respace prev white s ++ v ++ "| None".toList := by
  induction s generalizing prev white with
  | nil => exact respace_bar_none prev white
  | cons c s ih =>
    by_cases hc : isWhite c = true
    · rw [List.cons_append, respace_cons_of_isWhite hc, respace_cons_of_isWhite hc]
      exact ih prev true
    · rw [Bool.not_eq_true] at hc
      obtain ⟨v, hblank, hv, h⟩ := ih (some c) false
      refine ⟨v, hblank, hv, ?_⟩
      rw [List.cons_append, respace_cons hc, respace_cons hc, h]
      simp

/-- Behind an opening bracket a text is written as at the start, but for a blank in front of a
bar. -/
theorem respace_open (white : Bool) (s : List Char) :
    respace (some '[') white s = respace none white s ∨
      ∃ t, respace none white s = '|' :: t ∧ respace (some '[') white s = ' ' :: '|' :: t := by
  induction s generalizing white with
  | nil => exact .inl rfl
  | cons c s ih =>
    by_cases hc : isWhite c = true
    · rw [respace_cons_of_isWhite hc, respace_cons_of_isWhite hc]
      exact ih true
    · rw [Bool.not_eq_true] at hc
      rw [respace_cons hc, respace_cons hc]
      by_cases hbar : c = '|'
      · subst hbar
        exact .inr ⟨_, rfl, rfl⟩
      · refine .inl ?_
        have hgap : gap (some '[') white c = [] := by
          simp [gap, hbar, isSeparator, holdsNext]
        rw [hgap]
        rfl

/-! ## Optional types -/

/-- The names of `Optional`, with the opening bracket. -/
def IsOptionalHead (head : List Char) : Prop :=
  head = "Optional[".toList ∨ head = "typing.Optional[".toList

theorem members_generic {head s : List Char} (hbar : '|' ∉ head)
    (hhead : nesting jointWeight head = 1) (hs : Balanced jointWeight s) :
    (members '|' (head ++ (s ++ [']']))).length = 1 := by
  have hinside : ∀ u v, s = u ++ '|' :: v → 1 + nesting jointWeight u ≠ 0 := by
    intro u v huv
    have hu := hs.nonneg u ⟨'|' :: v, huv.symm⟩
    omega
  rw [members, splitOutside_append_of_not_mem jointWeight_bar hbar, hhead, Int.zero_add,
    splitOutside_append_enclosed jointWeight_bar hinside, hs.closed]
  rfl

theorem optional?_generic {head s : List Char} (hhead : IsOptionalHead head)
    (hs : Balanced squareWeight s) : optional? (head ++ (s ++ [']'])) = some s := by
  rcases hhead with rfl | rfl
  · rw [optional?, generic?_append_close _ hs]
    rfl
  · have hother : generic? "Optional[".toList ("typing.Optional[".toList ++ (s ++ [']'])) = none :=
      rfl
    rw [optional?, hother, generic?_append_close _ hs]
    rfl

/-- **`Optional` makes its argument nullable.** -/
theorem ofNormal_generic_optional {head s : List Char} (hhead : IsOptionalHead head)
    (hs : HasBalancedBrackets s) :
    ofNormal (head ++ (s ++ [']'])) = { ofNormal s with nullable := true } := by
  refine ofNormal_of_optional (members_generic ?_ ?_ hs.joint) (optional?_generic hhead hs.square)
  · rcases hhead with rfl | rfl <;> decide
  · rcases hhead with rfl | rfl <;> decide

theorem respace_optionalHead {head : List Char} (hhead : IsOptionalHead head) (s : List Char) :
    respace none false (head ++ s) = head ++ respace (some '[') false s := by
  rcases hhead with rfl | rfl <;> rfl

theorem isPlainText_optionalHead {head : List Char} (hhead : IsOptionalHead head) :
    IsPlainText head := by
  rcases hhead with rfl | rfl <;> decide

theorem ofNormal_normalize_optional {head x : List Char} (hhead : IsOptionalHead head)
    (hplain : IsPlainText x) (hx : HasBalancedBrackets x) :
    ofNormal (normalize (head ++ (x ++ [']'])))
      = { ofNormal (respace (some '[') false x) with nullable := true } := by
  have hclose : IsPlainText [']'] := by decide
  rw [normalize_eq_respace ((isPlainText_optionalHead hhead).append (hplain.append hclose)),
    respace_optionalHead hhead, respace_append_close]
  exact ofNormal_generic_optional hhead (hasBalancedBrackets_respace hx)

/-! ## The two spellings -/

/-- Behind an opening bracket a text denotes the same type as at the start. -/
theorem ofNormal_respace_open (s : List Char) :
    ofNormal (respace (some '[') false s) = ofNormal (respace none false s) := by
  rcases respace_open false s with h | ⟨t, hnone, hopen⟩
  · rw [h]
  · -- The bar in front cuts either text, and what is in front of it is blank.
    have hmembers : members '|' (' ' :: '|' :: t) = members '|' ('|' :: t) :=
      members_blank_append jointWeight_bar (u := [' ']) (by decide) (by decide) _
    have hcut : members '|' ('|' :: t) = members '|' [] ++ members '|' t :=
      members_append_separator jointWeight_bar (s := []) rfl t
    have hlength : 1 < (members '|' ('|' :: t)).length := by
      have hpos := length_members_pos jointWeight_bar t
      rw [hcut, List.length_append]
      exact Nat.lt_add_of_pos_right hpos
    rw [hnone, hopen, ofNormal_of_alternatives hlength,
      ofNormal_of_alternatives (by rwa [hmembers]), hmembers]

theorem ofNormal_normalize_or_none {x : List Char} (hplain : IsPlainText x)
    (hx : HasBalancedBrackets x) :
    ofNormal (normalize (x ++ " | None".toList))
      = ofMembers (members '|' (normalize x) ++ [noneText]) := by
  have hnone : IsPlainText " | None".toList := by decide
  obtain ⟨v, hblank, hv, hrespace⟩ := exists_respace_append_none none false x
  have hnesting : nesting jointWeight (respace none false x ++ v) = 0 := by
    rw [nesting_append, (hasBalancedBrackets_respace hx).joint.closed,
      nesting_of_isBlank jointWeight_of_isWhite hblank]
    rfl
  have hmembers : members '|' (respace none false x ++ v ++ "| None".toList)
      = members '|' (respace none false x) ++ [noneText] := by
    have hcut := members_append_separator jointWeight_bar hnesting " None".toList
    rwa [members_append_blank jointWeight_bar _ hblank hv] at hcut
  have hlength : 1 < (members '|' (respace none false x) ++ [noneText]).length := by
    rw [List.length_append]
    exact Nat.lt_add_of_pos_left (length_members_pos jointWeight_bar _)
  rw [normalize_eq_respace (hplain.append hnone), normalize_eq_respace hplain, hrespace,
    ofNormal_of_alternatives (by rwa [hmembers]), hmembers]

/-- `None` can stand beside the type of the text: the text has another member, and it is not by
itself the whole of an `Optional` or a `Union`. -/
structure IsOpenToNone (s : List Char) : Prop where
  exists_other : ∃ m ∈ members '|' s, m ≠ noneText
  not_generic : (members '|' s).length = 1 → optional? s = none ∧ union? s = none

instance (s : List Char) : Decidable (IsOpenToNone s) :=
  decidable_of_iff ((∃ m ∈ members '|' s, m ≠ noneText) ∧
      ((members '|' s).length = 1 → optional? s = none ∧ union? s = none))
    ⟨fun ⟨hother, hgeneric⟩ => ⟨hother, hgeneric⟩, fun ⟨hother, hgeneric⟩ => ⟨hother, hgeneric⟩⟩

/-- **Where taking `None` in and putting it beside are the same.** -/
theorem nullable_eq_append_none_iff {s : List Char} (hs : trim s = s) :
    { ofNormal s with nullable := true } = ofMembers (members '|' s ++ [noneText]) ↔
      IsOpenToNone s := by
  by_cases hother : ∃ m ∈ members '|' s, m ≠ noneText
  · rw [ofMembers_append_none hother]
    by_cases hlength : (members '|' s).length = 1
    · have hself := members_eq_singleton jointWeight_bar hs hlength
      have hbase : (ofMembers (members '|' s)).base = String.ofList s := by
        obtain ⟨m, hm, hne⟩ := hother
        obtain rfl : m = s := by simpa [hself] using hm
        rw [hself, ofMembers_singleton hne]
      rw [TypeExpr.mk.injEq, hbase, base_ofNormal_eq_iff hlength]
      exact ⟨fun h => ⟨hother, fun _ => h.1⟩, fun h => ⟨h.not_generic hlength, rfl⟩⟩
    · have hpos := length_members_pos jointWeight_bar s
      rw [ofNormal_of_alternatives (by omega)]
      exact ⟨fun _ => ⟨hother, fun h => absurd h hlength⟩, fun _ => rfl⟩
  · have hall : ∀ m ∈ members '|' s ++ [noneText], m = noneText := by
      intro m hm
      rcases List.mem_append.mp hm with hm | hm
      · by_contra hne
        exact hother ⟨m, hm, hne⟩
      · exact List.mem_singleton.mp hm
    rw [ofMembers_of_forall hall]
    exact ⟨fun h => absurd (congrArg nullable h) (by simp), fun h => absurd h.exists_other hother⟩

theorem parse_optional {X : String} (hplain : IsPlainText X.toList)
    (hX : HasBalancedBrackets X.toList) (head : String) (hhead : IsOptionalHead head.toList) :
    parse (head ++ X ++ "]") = { ofNormal (normalize X.toList) with nullable := true } := by
  rw [parse, String.toList_append, String.toList_append, List.append_assoc]
  exact (ofNormal_normalize_optional hhead hplain hX).trans (by
    rw [ofNormal_respace_open, normalize_eq_respace hplain])

theorem parse_or_none {X : String} (hplain : IsPlainText X.toList)
    (hX : HasBalancedBrackets X.toList) :
    parse (X ++ " | None") = ofMembers (members '|' (normalize X.toList) ++ [noneText]) := by
  rw [parse, String.toList_append, ofNormal_normalize_or_none hplain hX]

theorem parse_optional_eq_or_none_iff {X : String} (hplain : IsPlainText X.toList)
    (hX : HasBalancedBrackets X.toList) (head : String) (hhead : IsOptionalHead head.toList) :
    parse (head ++ X ++ "]") = parse (X ++ " | None") ↔ IsOpenToNone (normalize X.toList) := by
  rw [parse_optional hplain hX head hhead, parse_or_none hplain hX]
  refine nullable_eq_append_none_iff ?_
  rw [normalize_eq_respace hplain, trim_respace]

end TypeExpr

open TypeExpr TypeText

/-- **One optional type, two spellings** — `Optional[X]` is one type under either of its names and
admits `None`; it is the type of `X | None` exactly if `X` is open to `None`, and exactly then a
parameter declared in one spelling and documented in the other is not reported. -/
theorem optional_spellings_agree_iff {X : String} (hplain : IsPlainText X.toList)
    (hX : HasBalancedBrackets X.toList) :
    parse ("typing.Optional[" ++ X ++ "]") = parse ("Optional[" ++ X ++ "]") ∧
    (parse ("Optional[" ++ X ++ "]")).nullable = true ∧
    (parse ("Optional[" ++ X ++ "]") = parse (X ++ " | None") ↔
      IsOpenToNone (normalize X.toList)) ∧
    ∀ name,
      (Analysis.typeFinding name (some ("Optional[" ++ X ++ "]")) (some (X ++ " | None")) = none ↔
        IsOpenToNone (normalize X.toList)) ∧
      (Analysis.typeFinding name (some (X ++ " | None")) (some ("Optional[" ++ X ++ "]")) = none ↔
        IsOpenToNone (normalize X.toList)) := by
  have hshort := parse_optional hplain hX "Optional[" (.inl rfl)
  have hlong := parse_optional hplain hX "typing.Optional[" (.inr rfl)
  have hiff := parse_optional_eq_or_none_iff hplain hX "Optional[" (.inl rfl)
  refine ⟨hlong.trans hshort.symm, by rw [hshort], hiff, fun name => ⟨?_, ?_⟩⟩
  · rw [← hiff, Analysis.typeFinding_eq_none_iff]
  · rw [← hiff, Analysis.typeFinding_eq_none_iff, eq_comm]

theorem optional_spellings_agree_sample :
    (IsPlainText "Dict[str, int]".toList ∧ HasBalancedBrackets "Dict[str, int]".toList) ∧
    parse ("Optional[" ++ "Dict[str, int]" ++ "]") = parse ("Dict[str, int]" ++ " | None") := by
  have hplain : IsPlainText "Dict[str, int]".toList := by decide
  have hbalanced : HasBalancedBrackets "Dict[str, int]".toList := by decide
  exact ⟨⟨hplain, hbalanced⟩,
    (optional_spellings_agree_iff hplain hbalanced).2.2.1.mpr (by decide)⟩

/-- A union inside `Optional` is taken apart, and the same union beside `None` is one member. -/
theorem optional_of_union_differs :
    "Union[int, str]" ≠ "" ∧ IsPlainText "Union[int, str]".toList ∧
      HasBalancedBrackets "Union[int, str]".toList ∧
      parse ("Optional[" ++ "Union[int, str]" ++ "]") ≠ parse ("Union[int, str]" ++ " | None") := by
  have hplain : IsPlainText "Union[int, str]".toList := by decide
  have hbalanced : HasBalancedBrackets "Union[int, str]".toList := by decide
  refine ⟨by decide, hplain, hbalanced, fun hsame => ?_⟩
  have hopen := (parse_optional_eq_or_none_iff hplain hbalanced "Optional[" (.inl rfl)).mp
    hsame
  exact absurd hopen (by decide)

end DocAudit
