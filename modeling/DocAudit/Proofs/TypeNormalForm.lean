import DocAudit.Proofs.Trimming
import DocAudit.TypeExpr

/-!
# Proofs/TypeNormalForm — what the normal form of a type forgets

A cross-reference role is made of small letters and colons, so text without them in front of a type
or behind it takes no part in any role (`dropRoles_append_left`, `dropRoles_append_right`).  Blank
ends are such text, and the rest of the normal form trims them: `normalize_trim`.
-/

namespace DocAudit.TypeText

open DocAudit.Text

/-! ## Roles at the ends of a text -/

/-- The character takes no part in a role. -/
def standsApart (c : Char) : Bool :=
  !isLower c && c != ':'

theorem not_isLower_of_standsApart {c : Char} (h : standsApart c = true) : isLower c = false := by
  simp only [standsApart, Bool.and_eq_true, Bool.not_eq_true'] at h
  exact h.1

theorem ne_colon_of_standsApart {c : Char} (h : standsApart c = true) : c ≠ ':' := by
  simp only [standsApart, Bool.and_eq_true, bne_iff_ne] at h
  exact h.2

theorem standsApart_of_isWhite {c : Char} (h : isWhite c = true) : standsApart c = true :=
  forall_isWhite (P := fun c => standsApart c = true) (by decide) h

variable {v : List Char}

theorem takeWhile_isLower_append (s : List Char) (hv : ∀ c ∈ v, standsApart c = true) :
    (s ++ v).takeWhile isLower = s.takeWhile isLower := by
  have hnil : v.takeWhile isLower = [] := by
    rcases v with _ | ⟨c, v⟩
    · rfl
    · exact List.takeWhile_cons_of_neg
        (by simp [not_isLower_of_standsApart (hv c List.mem_cons_self)])
  rw [List.takeWhile_append, hnil, List.append_nil]
  split
  · rename_i h
    exact (List.takeWhile_sublist isLower).eq_of_length h |>.symm
  · rfl

theorem segmentLength_le (s : List Char) : segmentLength s ≤ s.length := by
  simp only [segmentLength]
  split
  · rename_i h
    -- The colon behind the name is still a part of the text.
    have hlt : (s.takeWhile isLower).length < s.length := Nat.lt_of_not_le fun hge => by
      rw [List.drop_eq_nil_of_le hge] at h
      exact absurd h.2 nofun
    omega
  · omega

theorem segmentLength_append (s : List Char) (hv : ∀ c ∈ v, standsApart c = true) :
    segmentLength (s ++ v) = segmentLength s := by
  simp only [segmentLength, takeWhile_isLower_append s hv]
  have hle : (s.takeWhile isLower).length ≤ s.length := (List.takeWhile_sublist _).length_le
  have hhead : ((s ++ v).drop (s.takeWhile isLower).length).head? = some ':'
      ↔ (s.drop (s.takeWhile isLower).length).head? = some ':' := by
    rw [List.drop_append_of_le_length hle, List.head?_append]
    rcases (s.drop (s.takeWhile isLower).length).head? with _ | c
    · rw [Option.none_or]
      refine ⟨fun h => absurd rfl (ne_colon_of_standsApart (hv ':' (List.mem_of_head? h))), nofun⟩
    · rfl
  simp only [hhead]

theorem roleLength_le (s : List Char) : roleLength s ≤ s.length := by
  simp only [roleLength]
  split
  · omega
  · have hfirst := segmentLength_le s
    have hsecond := segmentLength_le (s.drop (segmentLength s))
    rw [List.length_drop] at hsecond
    omega

theorem roleLength_append (s : List Char) (hv : ∀ c ∈ v, standsApart c = true) :
    roleLength (s ++ v) = roleLength s := by
  simp only [roleLength, segmentLength_append s hv,
    List.drop_append_of_le_length (segmentLength_le s), segmentLength_append _ hv]

/-- Text without a colon in front of a type keeps its place. -/
theorem dropRoles_append_left {u : List Char} (hu : ∀ c ∈ u, c ≠ ':') (s : List Char) :
    dropRoles (u ++ s) = u ++ dropRoles s := by
  induction u with
  | nil => rfl
  | cons c u ih =>
    have hc : c ≠ ':' := hu c List.mem_cons_self
    have hrest := ih fun b hb => hu b (List.mem_cons_of_mem c hb)
    rw [dropRoles] at hrest ⊢
    rw [List.cons_append, dropRolesFrom, if_neg fun h => hc h.1, hrest, List.cons_append]

theorem dropRolesFrom_append (hv : ∀ c ∈ v, standsApart c = true) : ∀ (s : List Char) (skip : Nat),
    skip ≤ s.length → dropRolesFrom skip (s ++ v) = dropRolesFrom skip s ++ v
  | [], skip, h => by
      obtain rfl : skip = 0 := by simpa using h
      have hcolon : ∀ c ∈ v, c ≠ ':' := fun c hc => ne_colon_of_standsApart (hv c hc)
      simpa [dropRoles, dropRolesFrom] using dropRoles_append_left hcolon []
  | _ :: s, skip + 1, h => by
      rw [List.cons_append, dropRolesFrom, dropRolesFrom]
      exact dropRolesFrom_append hv s skip (by simpa using h)
  | c :: s, 0, _ => by
      rw [List.cons_append, dropRolesFrom, dropRolesFrom, roleLength_append s hv]
      split
      · exact dropRolesFrom_append hv s _ (roleLength_le s)
      · rw [dropRolesFrom_append hv s 0 (Nat.zero_le _), List.cons_append]

/-- **Text that stands apart behind a type keeps its place.** -/
theorem dropRoles_append_right (s : List Char) (hv : ∀ c ∈ v, standsApart c = true) :
    dropRoles (s ++ v) = dropRoles s ++ v :=
  dropRolesFrom_append hv s 0 (Nat.zero_le _)

/-! ## Blank ends -/

theorem isBlank_filter {s : List Char} (h : isBlank s = true) (p : Char → Bool) :
    isBlank (s.filter p) = true :=
  isBlank_iff.mpr fun c hc => isBlank_iff.mp h c (List.mem_filter.mp hc).1

/-- **The normal form forgets blank ends.** -/
theorem normalize_trim (s : List Char) : normalize (trim s) = normalize s := by
  obtain ⟨u, v, hu, hv, hs⟩ := exists_blank_ends s
  have huApart : ∀ c ∈ u, c ≠ ':' := fun c hc =>
    ne_colon_of_standsApart (standsApart_of_isWhite (isBlank_iff.mp hu c hc))
  have hvApart : ∀ c ∈ v, standsApart c = true := fun c hc =>
    standsApart_of_isWhite (isBlank_iff.mp hv c hc)
  have hroles : dropRoles s = u ++ dropRoles (trim s) ++ v :=
    calc dropRoles s = dropRoles (u ++ trim s ++ v) := congrArg dropRoles hs
      _ = u ++ dropRoles (trim s) ++ v := by
        rw [dropRoles_append_right _ hvApart, dropRoles_append_left huApart]
  rw [normalize, normalize, hroles, List.filter_append, List.filter_append,
    trim_append_right _ (isBlank_filter hv _), trim_append_left (isBlank_filter hu _)]

end DocAudit.TypeText

namespace DocAudit.TypeExpr

/-- **Blank ends make no difference to a type.** -/
theorem parse_trim (text : String) :
    parse (String.ofList (Text.trim text.toList)) = parse text := by
  rw [parse, parse, String.toList_ofList, TypeText.normalize_trim]

end DocAudit.TypeExpr
