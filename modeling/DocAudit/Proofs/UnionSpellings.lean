import DocAudit.Proofs.OptionalSpellings

/-!
# Proofs/UnionSpellings — a union is one type, however it is spelled

    m₁ | … | mₙ      Union[m₁, …, mₙ]      typing.Union[m₁, …, mₙ]

All three are read off the members, and the members are found again in either text
(`members_respace_intercalate`): the normal form of the text is that of its members up to blanks
around the separators (`respace_append_cons`, `respace_eq_gap_append`), a separator between members
cuts, and the separators inside a member are enclosed by its brackets.  So the spellings denote what
their list of members denotes, and of `None` in that list only its presence shows.
-/

namespace DocAudit

open Text

namespace TypeText

/-! ## Normal texts -/

theorem unquote_subset (s : List Char) : unquote s ⊆ s := by
  intro c hc
  unfold unquote at hc
  split at hc
  · exact hc
  · split at hc
    · exact List.mem_cons_of_mem _ (List.mem_of_mem_dropLast hc)
    · exact hc

theorem not_isMark_of_isWhite {c : Char} (h : isWhite c = true) : isMark c = false :=
  forall_isWhite (P := fun c => isMark c = false) (by decide) h

/-- No mark of a cross-reference is left in a normal form. -/
theorem not_isMark_of_mem_normalize {s : List Char} {c : Char} (hc : c ∈ normalize s) :
    isMark c = false := by
  by_cases hwhite : isWhite c = true
  · exact not_isMark_of_isWhite hwhite
  · have hkept : c ∈ (normalize s).filter fun c => !isWhite c :=
      List.mem_filter.mpr ⟨hc, by simp [hwhite]⟩
    rw [normalize, filter_respace] at hkept
    have hsource := (trim_sublist _).subset (unquote_subset _ (List.mem_filter.mp hkept).1)
    simpa using (List.mem_filter.mp hsource).2

variable {prev : Option Char} {white : Bool}

/-- Behind a character that is not white a text is written as if nothing stood before that
character. -/
theorem respace_append_cons {c : Char} (hc : isWhite c = false) (u t : List Char) :
    respace prev white (u ++ c :: t)
      = respace prev white (u ++ [c]) ++ respace (some c) false t := by
  induction u generalizing prev white with
  | nil =>
    rw [List.nil_append, List.nil_append, respace_cons hc, respace_cons hc, List.append_assoc]
    rfl
  | cons b u ih =>
    by_cases hb : isWhite b = true
    · rw [List.cons_append, List.cons_append, respace_cons_of_isWhite hb,
        respace_cons_of_isWhite hb, ih]
    · rw [Bool.not_eq_true] at hb
      rw [List.cons_append, List.cons_append, respace_cons hb, respace_cons hb, ih]
      simp

/-- **A text that is spaced as it should be keeps its spacing anywhere**; only the blank in front of
it depends on what is before it. -/
theorem respace_eq_gap_append {c : Char} {s : List Char}
    (h : respace none false (c :: s) = c :: s) :
    respace prev white (c :: s) = gap prev white c ++ c :: s := by
  have hc : isWhite c = false := not_isWhite_of_head?_respace (s := c :: s) (by rw [h]; rfl)
  rw [respace_cons hc] at h ⊢
  exact congrArg (gap prev white c ++ ·) h

end TypeText

namespace TypeExpr

open TypeText

/-! ## Members and what stands between them -/

/-- Every occurrence of the separator is enclosed by brackets. -/
def IsEnclosed (sep : Char) (s : List Char) : Prop :=
  ∀ u v, s = u ++ sep :: v → nesting jointWeight u ≠ 0

instance (sep : Char) (s : List Char) : Decidable (IsEnclosed sep s) :=
  decidable_of_iff (∀ u ∈ s.inits, u ++ [sep] <+: s → nesting jointWeight u ≠ 0)
    ⟨fun h u v hs => h u ((List.mem_inits u s).mpr ⟨sep :: v, hs.symm⟩) ⟨v, by simp [hs]⟩,
      fun h u _ ⟨v, hs⟩ => h u v (by simp [← hs])⟩

/-- **The text can be a member of a union**: a type in normal form without quotes and colons, with
brackets that balance and that enclose all its separators. -/
structure IsMemberText (s : List Char) : Prop where
  ne_nil : s ≠ []
  normal : normalize s = s
  no_quote : '"' ∉ s ∧ '\'' ∉ s
  no_colon : ':' ∉ s
  brackets : HasBalancedBrackets s
  bars_enclosed : IsEnclosed '|' s
  commas_enclosed : IsEnclosed ',' s

/-- How the members of a list are kept apart: a separator, and the text that it is written as. -/
inductive IsGlue : Char → List Char → Prop
  | bar : IsGlue '|' " | ".toList
  | comma : IsGlue ',' ", ".toList

namespace IsGlue

variable {sep : Char} {glue : List Char}

theorem jointWeight_eq (h : IsGlue sep glue) : jointWeight sep = 0 := by
  obtain _ | _ := h <;> rfl

theorem isPlainText (h : IsGlue sep glue) : IsPlainText glue := by
  obtain _ | _ := h <;> decide

theorem hasBalancedBrackets (h : IsGlue sep glue) : HasBalancedBrackets glue := by
  obtain _ | _ := h <;> decide

theorem isEnclosed (h : IsGlue sep glue) {s : List Char} (hs : IsMemberText s) :
    IsEnclosed sep s := by
  obtain _ | _ := h
  · exact hs.bars_enclosed
  · exact hs.commas_enclosed

/-- A blank is never a separator. -/
theorem not_mem_of_isBlank (h : IsGlue sep glue) {v : List Char} (hv : isBlank v = true) :
    sep ∉ v := by
  intro hmem
  have hwhite := isBlank_iff.mp hv sep hmem
  obtain _ | _ := h <;> exact absurd hwhite (by decide)

/-- The separator is written with at most a blank in front. -/
theorem exists_respace_append (h : IsGlue sep glue) (c : Char) (t : List Char) :
    ∃ v, isBlank v = true ∧
      respace (some c) false (glue ++ t) = v ++ sep :: respace (some sep) true t := by
  obtain _ | _ := h
  · exact ⟨[' '], rfl, rfl⟩
  · exact ⟨[], rfl, rfl⟩

end IsGlue

theorem IsMemberText.isPlainText {s : List Char} (h : IsMemberText s) : IsPlainText s := by
  intro c hc
  refine ⟨fun hcolon => h.no_colon (hcolon ▸ hc), ?_, fun hquote => h.no_quote.1 (hquote ▸ hc),
    fun hquote => h.no_quote.2 (hquote ▸ hc)⟩
  rw [← h.normal] at hc
  exact not_isMark_of_mem_normalize hc

theorem IsMemberText.respace_eq {s : List Char} (h : IsMemberText s) :
    respace none false s = s := by
  rw [← normalize_eq_respace h.isPlainText, h.normal]

theorem IsMemberText.trim_eq {s : List Char} (h : IsMemberText s) : trim s = s := by
  rw [← h.respace_eq, trim_respace]

instance (s : List Char) : Decidable (IsMemberText s) :=
  decidable_of_iff (s ≠ [] ∧ normalize s = s ∧ ('"' ∉ s ∧ '\'' ∉ s) ∧ ':' ∉ s ∧
      HasBalancedBrackets s ∧ IsEnclosed '|' s ∧ IsEnclosed ',' s)
    ⟨fun ⟨hne, hnormal, hquote, hcolon, hbrackets, hbars, hcommas⟩ =>
        ⟨hne, hnormal, hquote, hcolon, hbrackets, hbars, hcommas⟩,
      fun ⟨hne, hnormal, hquote, hcolon, hbrackets, hbars, hcommas⟩ =>
        ⟨hne, hnormal, hquote, hcolon, hbrackets, hbars, hcommas⟩⟩

/-- A member keeps its text wherever it stands, behind a blank or none. -/
theorem IsMemberText.exists_respace {s : List Char} (h : IsMemberText s) (prev : Option Char)
    (white : Bool) : ∃ v, isBlank v = true ∧ respace prev white s = v ++ s := by
  obtain ⟨c, t, rfl⟩ := List.exists_cons_of_ne_nil h.ne_nil
  exact ⟨gap prev white c, isBlank_gap prev white c, respace_eq_gap_append h.respace_eq⟩

/-- Behind a member only a blank stands in front of the separator, and the next member is written as
behind the separator. -/
theorem IsMemberText.exists_respace_glue {sep : Char} {glue s : List Char} (h : IsMemberText s)
    (hglue : IsGlue sep glue) (prev : Option Char) (white : Bool) (t : List Char) :
    ∃ v w, isBlank v = true ∧ isBlank w = true ∧
      respace prev white (s ++ glue ++ t)
        = v ++ s ++ w ++ sep :: respace (some sep) true t := by
  obtain ⟨v, hv, hspaced⟩ := h.exists_respace prev white
  obtain ⟨u, c, rfl⟩ : ∃ u c, s = u ++ [c] :=
    ⟨s.dropLast, s.getLast h.ne_nil, (List.dropLast_concat_getLast h.ne_nil).symm⟩
  have hc : isWhite c = false :=
    @not_isWhite_of_getLast?_respace none false (u ++ [c]) c (by rw [h.respace_eq]; simp)
  obtain ⟨w, hw, hcut⟩ := hglue.exists_respace_append c t
  refine ⟨v, w, hv, hw, ?_⟩
  rw [List.append_assoc, List.append_assoc, List.singleton_append, respace_append_cons hc, hspaced,
    hcut, ← List.append_assoc]

/-- A member text is one member. -/
theorem members_memberText {sep : Char} {glue s : List Char} (hglue : IsGlue sep glue)
    (h : IsMemberText s) : members sep s = [s] := by
  have hinside : ∀ u v, s = u ++ sep :: v → 0 + nesting jointWeight u ≠ 0 := by
    intro u v hs
    rw [Int.zero_add]
    exact hglue.isEnclosed h u v hs
  have hpiece := splitOutside_append_enclosed hglue.jointWeight_eq hinside []
  rw [List.append_nil] at hpiece
  rw [members, hpiece]
  simp [splitOutside, h.trim_eq]

/-! ## The members of a list -/

theorem Balanced.append {weight : Char → Int} {s t : List Char} (hs : Balanced weight s)
    (ht : Balanced weight t) : Balanced weight (s ++ t) where
  nonneg u hu := by
    obtain ⟨v, hv⟩ := hu
    rcases List.append_eq_append_iff.mp hv with ⟨w, hw, -⟩ | ⟨w, rfl, hw⟩
    · exact hs.nonneg u ⟨w, hw.symm⟩
    · rw [nesting_append, hs.closed, Int.zero_add]
      exact ht.nonneg w ⟨v, hw.symm⟩
  closed := by rw [nesting_append, hs.closed, ht.closed, Int.add_zero]

theorem HasBalancedBrackets.append {s t : List Char} (hs : HasBalancedBrackets s)
    (ht : HasBalancedBrackets t) : HasBalancedBrackets (s ++ t) :=
  ⟨hs.joint.append ht.joint, hs.square.append ht.square⟩

/-- What the members and the text between them have, the list of members has. -/
theorem intercalate_induction {P : List Char → Prop} {glue : List Char} {ms : List (List Char)}
    (happend : ∀ {s t}, P s → P t → P (s ++ t)) (hglue : P glue) (hnil : P [])
    (hms : ∀ m ∈ ms, P m) : P (glue.intercalate ms) := by
  induction ms with
  | nil => exact hnil
  | cons m ms ih =>
    have hm := hms m List.mem_cons_self
    have hrest := ih fun n hn => hms n (List.mem_cons_of_mem m hn)
    match ms with
    | [] => rwa [List.intercalate_singleton]
    | n :: ms =>
      rw [List.intercalate_cons_cons]
      exact happend (happend hm hglue) hrest

variable {ms : List (List Char)}

theorem isPlainText_intercalate {sep : Char} {glue : List Char} (hglue : IsGlue sep glue)
    (hms : ∀ m ∈ ms, IsMemberText m) : IsPlainText (glue.intercalate ms) :=
  intercalate_induction .append hglue.isPlainText nofun fun m hm => (hms m hm).isPlainText

theorem hasBalancedBrackets_intercalate {sep : Char} {glue : List Char} (hglue : IsGlue sep glue)
    (hms : ∀ m ∈ ms, IsMemberText m) : HasBalancedBrackets (glue.intercalate ms) :=
  intercalate_induction .append hglue.hasBalancedBrackets (by decide)
    fun m hm => (hms m hm).brackets

/-- **The members of a list are found again**, wherever the list stands. -/
theorem members_respace_intercalate {sep : Char} {glue : List Char} (hglue : IsGlue sep glue)
    (hne : ms ≠ []) (hms : ∀ m ∈ ms, IsMemberText m) (prev : Option Char) (white : Bool) :
    members sep (respace prev white (glue.intercalate ms)) = ms := by
  have hsep := hglue.jointWeight_eq
  have hmember : ∀ m v, IsMemberText m → isBlank v = true → members sep (v ++ m) = [m] := by
    intro m v hm hv
    rw [members_blank_append hsep hv (hglue.not_mem_of_isBlank hv), members_memberText hglue hm]
  induction ms generalizing prev white with
  | nil => exact absurd rfl hne
  | cons m ms ih =>
    have hm := hms m List.mem_cons_self
    match ms with
    | [] =>
      obtain ⟨v, hv, hspaced⟩ := hm.exists_respace prev white
      rw [List.intercalate_singleton, hspaced, hmember m v hm hv]
    | n :: ms =>
      have hrest := ih (List.cons_ne_nil n ms) (fun k hk => hms k (List.mem_cons_of_mem m hk))
        (some sep) true
      obtain ⟨v, w, hv, hw, hspaced⟩ :=
        hm.exists_respace_glue hglue prev white (glue.intercalate (n :: ms))
      have hnesting : nesting jointWeight (v ++ m ++ w) = 0 := by
        rw [nesting_append, nesting_append, nesting_of_isBlank jointWeight_of_isWhite hv,
          nesting_of_isBlank jointWeight_of_isWhite hw, hm.brackets.joint.closed]
        rfl
      rw [List.intercalate_cons_cons, hspaced, members_append_separator hsep hnesting, hrest,
        members_append_blank hsep _ hw (hglue.not_mem_of_isBlank hw), hmember m v hm hv]
      rfl

/-! ## Reading the spellings -/

/-- The names of `Union`, with the opening bracket. -/
def IsUnionHead (head : List Char) : Prop :=
  head = "Union[".toList ∨ head = "typing.Union[".toList

theorem ofNormal_bars (hlength : 2 ≤ ms.length) (hms : ∀ m ∈ ms, IsMemberText m) :
    ofNormal (normalize (" | ".toList.intercalate ms)) = ofMembers ms := by
  have hne : ms ≠ [] := List.ne_nil_of_length_pos (by omega)
  have hmembers := members_respace_intercalate .bar hne hms none false
  rw [normalize_eq_respace (isPlainText_intercalate .bar hms),
    ofNormal_of_alternatives (by rw [hmembers]; exact hlength), hmembers]

theorem ofNormal_generic_union {head s : List Char} (hhead : IsUnionHead head)
    (hs : HasBalancedBrackets s) :
    ofNormal (head ++ (s ++ [']'])) = ofMembers (members ',' s) := by
  have hargument : optional? (head ++ (s ++ [']'])) = none ∧
      union? (head ++ (s ++ [']'])) = some s := by
    obtain rfl | rfl := hhead
    · refine ⟨rfl, ?_⟩
      rw [union?, generic?_append_close _ hs.square]
      rfl
    · have hother : generic? "Union[".toList ("typing.Union[".toList ++ (s ++ [']'])) = none := rfl
      refine ⟨rfl, ?_⟩
      rw [union?, hother, generic?_append_close _ hs.square]
      rfl
  have hone : (members '|' (head ++ (s ++ [']']))).length = 1 := by
    refine members_generic ?_ ?_ hs.joint
    · obtain rfl | rfl := hhead <;> decide
    · obtain rfl | rfl := hhead <;> decide
  rw [ofNormal_of_not_optional hone hargument.1, hargument.2]

theorem ofNormal_union {head : List Char} (hhead : IsUnionHead head) (hne : ms ≠ [])
    (hms : ∀ m ∈ ms, IsMemberText m) :
    ofNormal (normalize (head ++ (", ".toList.intercalate ms ++ [']']))) = ofMembers ms := by
  have hplain : IsPlainText (head ++ (", ".toList.intercalate ms ++ [']'])) := by
    have hclose : IsPlainText [']'] := by decide
    refine IsPlainText.append ?_ ((isPlainText_intercalate .comma hms).append hclose)
    obtain rfl | rfl := hhead <;> decide
  have hspaced : ∀ s, respace none false (head ++ s) = head ++ respace (some '[') false s := by
    intro s
    obtain rfl | rfl := hhead <;> rfl
  rw [normalize_eq_respace hplain, hspaced, respace_append_close, ofNormal_generic_union hhead
    (hasBalancedBrackets_respace (hasBalancedBrackets_intercalate .comma hms)),
    members_respace_intercalate .comma hne hms]

/-- The spellings of the union of the members. -/
def unionSpellings (ms : List String) : List String :=
  [" | ".intercalate ms, "Union[" ++ ", ".intercalate ms ++ "]",
    "typing.Union[" ++ ", ".intercalate ms ++ "]"]

/-- **Every spelling denotes what the members denote.** -/
theorem parse_unionSpelling {ms : List String} (hlength : 2 ≤ ms.length)
    (hms : ∀ m ∈ ms, IsMemberText m.toList) {text : String} (htext : text ∈ unionSpellings ms) :
    parse text = ofMembers (ms.map String.toList) := by
  have hlength' : 2 ≤ (ms.map String.toList).length := by rwa [List.length_map]
  have hne : ms.map String.toList ≠ [] := List.ne_nil_of_length_pos (by omega)
  have hms' : ∀ m ∈ ms.map String.toList, IsMemberText m := List.forall_mem_map.mpr hms
  have hunion : ∀ head : String, IsUnionHead head.toList →
      parse (head ++ ", ".intercalate ms ++ "]") = ofMembers (ms.map String.toList) := by
    intro head hhead
    rw [parse, String.toList_append, String.toList_append, List.append_assoc,
      String.toList_intercalate]
    exact ofNormal_union hhead hne hms'
  simp only [unionSpellings, List.mem_cons, List.not_mem_nil, or_false] at htext
  obtain rfl | rfl | rfl := htext
  · rw [parse, String.toList_intercalate]
    exact ofNormal_bars hlength' hms'
  · exact hunion "Union[" (.inl rfl)
  · exact hunion "typing.Union[" (.inr rfl)

/-! ## Where `None` stands -/

theorem toList_eq_noneText_iff {m : String} : m.toList = noneText ↔ m = "None" :=
  @String.toList_inj m "None"

theorem filter_map_toList (ms : List String) :
    (ms.map String.toList).filter (fun m => m ≠ noneText)
      = (ms.filter fun m => m ≠ "None").map String.toList := by
  simp only [List.filter_map, Function.comp_def, ne_eq, toList_eq_noneText_iff]

theorem any_map_toList (ms : List String) :
    ((ms.map String.toList).any fun m => m == noneText) = decide ("None" ∈ ms) := by
  rw [Bool.eq_iff_iff]
  simp only [List.any_map, List.any_eq_true, Function.comp_apply, beq_iff_eq,
    toList_eq_noneText_iff, exists_eq_right, decide_eq_true_eq]

theorem ofMembers_map_toList {ms : List String} (h : ∃ m ∈ ms, m ≠ "None") :
    ofMembers (ms.map String.toList)
      = ⟨" | ".intercalate (ms.filter fun m => m ≠ "None"), decide ("None" ∈ ms)⟩ := by
  have hother : ∃ m ∈ ms.map String.toList, m ≠ noneText := by
    obtain ⟨m, hm, hne⟩ := h
    exact ⟨m.toList, List.mem_map_of_mem hm, fun hnone => hne (toList_eq_noneText_iff.mp hnone)⟩
  rw [ofMembers_of_exists hother, filter_map_toList, any_map_toList, ← String.toList_intercalate,
    String.ofList_toList]

/-- **Of `None` only its presence shows.** -/
theorem ofMembers_congr {ms ms' : List (List Char)}
    (hrest : (ms.filter fun m => m ≠ noneText) = ms'.filter fun m => m ≠ noneText)
    (hnone : (ms.any fun m => m == noneText) = ms'.any fun m => m == noneText) :
    ofMembers ms = ofMembers ms' := by
  rw [ofMembers, ofMembers, hrest, hnone]

theorem isMemberText_none : IsMemberText "None".toList := by
  decide

/-- Where only `None` is moved or repeated, the members stay members. -/
theorem isMemberText_of_filter_eq {ms ms' : List String} (hms : ∀ m ∈ ms, IsMemberText m.toList)
    (hrest : (ms'.filter fun m => m ≠ "None") = ms.filter fun m => m ≠ "None") :
    ∀ m ∈ ms', IsMemberText m.toList := by
  intro m hm
  by_cases hnone : m = "None"
  · rw [hnone]
    exact isMemberText_none
  · have hkept : m ∈ ms'.filter fun m => m ≠ "None" :=
      List.mem_filter.mpr ⟨hm, decide_eq_true hnone⟩
    rw [hrest] at hkept
    exact hms m (List.mem_filter.mp hkept).1

end TypeExpr

open TypeExpr

/-- **One union, three spellings** — the bars and both names of `Union` denote the members other
than `None` in their order, nullable if `None` is among them; a union of `None` alone is `None`.
Moving and repeating `None` changes nothing. -/
theorem union_spellings_agree {ms : List String} (hlength : 2 ≤ ms.length)
    (hms : ∀ m ∈ ms, IsMemberText m.toList) :
    (∀ text ∈ unionSpellings ms,
      ((∃ m ∈ ms, m ≠ "None") →
        parse text = ⟨" | ".intercalate (ms.filter fun m => m ≠ "None"), decide ("None" ∈ ms)⟩) ∧
      ((∀ m ∈ ms, m = "None") →
        parse text = ⟨"None", false⟩ ∧ returnsNothing (some text) = true)) ∧
    ∀ ms' : List String, 2 ≤ ms'.length →
      (ms'.filter fun m => m ≠ "None") = (ms.filter fun m => m ≠ "None") →
      ("None" ∈ ms' ↔ "None" ∈ ms) →
      ∀ text ∈ unionSpellings ms, ∀ text' ∈ unionSpellings ms', parse text' = parse text := by
  refine ⟨fun text htext => ?_, fun ms' hlength' hrest hnone text htext text' htext' => ?_⟩
  · have hparse := parse_unionSpelling hlength hms htext
    refine ⟨fun hother => hparse.trans (ofMembers_map_toList hother), fun hall => ?_⟩
    have hnone : parse text = ⟨"None", false⟩ := by
      rw [hparse, ofMembers_of_forall]
      exact List.forall_mem_map.mpr fun m hm => by rw [hall m hm]; rfl
    refine ⟨hnone, ?_⟩
    rw [returnsNothing, hnone]
    rfl
  · rw [parse_unionSpelling hlength hms htext,
      parse_unionSpelling hlength' (isMemberText_of_filter_eq hms hrest) htext']
    refine ofMembers_congr ?_ ?_
    · rw [filter_map_toList, filter_map_toList, hrest]
    · rw [any_map_toList, any_map_toList, decide_eq_decide.mpr hnone]

/-- Bars and commas inside a member stay inside it, and `None` may stand on either side. -/
theorem union_spellings_sample :
    (∀ m ∈ ["Dict[str, int | None]", "None", "List[int]"], IsMemberText m.toList) ∧
    parse "Dict[str, int | None] | None | List[int]"
      = ⟨"Dict[str, int | None] | List[int]", true⟩ ∧
    parse "Union[Dict[str, int | None], None, List[int]]"
      = ⟨"Dict[str, int | None] | List[int]", true⟩ ∧
    parse "typing.Union[None, Dict[str, int | None], List[int], None]"
      = parse "Dict[str, int | None] | None | List[int]" := by
  have hms : ∀ m ∈ ["Dict[str, int | None]", "None", "List[int]"], IsMemberText m.toList := by
    decide
  have hother : ∃ m ∈ ["Dict[str, int | None]", "None", "List[int]"], m ≠ "None" := by decide
  obtain ⟨hparse, hmoved⟩ := union_spellings_agree (by decide) hms
  refine ⟨hms, (hparse _ (by decide)).1 hother, (hparse _ (by decide)).1 hother, ?_⟩
  exact hmoved ["None", "Dict[str, int | None]", "List[int]", "None"] (by decide) (by decide)
    (by decide) _ (by decide) _ (by decide)

end DocAudit
