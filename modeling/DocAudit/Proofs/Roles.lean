import DocAudit.Proofs.TypeNormalForm

/-!
# Proofs/Roles — cross-reference roles and text that is marked up with them

A role is a name between two colons, perhaps behind the name of a domain (`IsRoleName`).  Counting
characters finds a role exactly where one stands (`roleLength_ne_zero_iff`), so a text keeps all of
its characters if it has no role (`dropRoles_eq_self`) and loses a colon if it has one
(`count_colon_dropRoles_lt`).

In a text that is marked up with roles, no role runs over into what follows it, because a backtick
stands there (`dropRoles_role`).  The marks go with the backticks, hence marked-up text and plain
text have one normal form (`normalType_markedUp`).
-/

namespace DocAudit

namespace TypeText

open Text

/-! ## Roles -/

/-- A name of small letters. -/
def IsLetters (s : List Char) : Prop :=
  s ≠ [] ∧ ∀ c ∈ s, isLower c = true

instance (s : List Char) : Decidable (IsLetters s) :=
  @instDecidableAnd _ _ inferInstance (List.decidableBAll (fun c => isLower c = true) s)

/-- What stands between the outer colons of a role: a name, perhaps behind the name of a domain. -/
inductive IsRoleName : List Char → Prop
  | plain {name : List Char} (hname : IsLetters name) : IsRoleName name
  | inDomain {domain name : List Char} (hdomain : IsLetters domain) (hname : IsLetters name) :
      IsRoleName (domain ++ ':' :: name)

/-- A role stands somewhere in the text. -/
def HasRole (s : List Char) : Prop :=
  ∃ u name v, IsRoleName name ∧ s = u ++ ':' :: (name ++ ':' :: v)

/-! ## Counting the characters of a role -/

variable {name s v : List Char} {c : Char}

theorem takeWhile_letters (h : IsLetters name) (v : List Char) :
    (name ++ ':' :: v).takeWhile isLower = name := by
  rw [List.takeWhile_append_of_pos h.2, List.takeWhile_cons_of_neg (by decide), List.append_nil]

theorem segmentLength_letters (h : IsLetters name) (v : List Char) :
    segmentLength (name ++ ':' :: v) = name.length + 1 := by
  simp only [segmentLength, takeWhile_letters h v, List.drop_left]
  exact if_pos ⟨h.1, rfl⟩

theorem exists_letters_of_segmentLength (h : segmentLength s ≠ 0) :
    ∃ name v, IsLetters name ∧ s = name ++ ':' :: v := by
  obtain ⟨rest, hrest⟩ : s.takeWhile isLower <+: s := List.takeWhile_prefix isLower
  have hdrop : s.drop (s.takeWhile isLower).length = rest := by
    have hleft : (s.takeWhile isLower ++ rest).drop (s.takeWhile isLower).length = rest :=
      List.drop_left
    rwa [hrest] at hleft
  simp only [segmentLength, hdrop] at h
  split at h
  · rename_i hsegment
    obtain ⟨v, rfl⟩ := List.head?_eq_some_iff.mp hsegment.2
    refine ⟨s.takeWhile isLower, v, ⟨hsegment.1, fun c hc => ?_⟩, hrest.symm⟩
    exact List.all_eq_true.mp List.all_takeWhile c hc
  · exact absurd rfl h

/-- Behind the first name a second one is looked for. -/
theorem roleLength_letters (h : IsLetters name) (v : List Char) :
    roleLength (name ++ ':' :: v) = name.length + 1 + segmentLength v := by
  have hdrop : (name ++ ':' :: v).drop (name.length + 1) = v := by
    rw [← List.drop_drop, List.drop_left, List.drop_one, List.tail_cons]
  simp only [roleLength, segmentLength_letters h v, hdrop]
  exact if_neg (Nat.succ_ne_zero _)

/-- **A role is found exactly where one stands.** -/
theorem roleLength_ne_zero_iff :
    roleLength s ≠ 0 ↔ ∃ name v, IsRoleName name ∧ s = name ++ ':' :: v := by
  constructor
  · intro h
    have hsegment : segmentLength s ≠ 0 := fun hzero => h (by simp [roleLength, hzero])
    obtain ⟨name, v, hname, hs⟩ := exists_letters_of_segmentLength hsegment
    exact ⟨name, v, .plain hname, hs⟩
  · rintro ⟨name, v, hname, rfl⟩
    cases hname with
    | plain hname =>
      rw [roleLength_letters hname]
      omega
    | inDomain hdomain hname =>
      rw [List.append_assoc, List.cons_append, roleLength_letters hdomain]
      omega

theorem segmentLength_eq_zero (hv : ∀ c ∈ v.head?, isLower c = false) : segmentLength v = 0 := by
  have hletters : v.takeWhile isLower = [] := by
    rcases v with _ | ⟨c, v⟩
    · rfl
    · exact List.takeWhile_cons_of_neg (by simp [hv c rfl])
  simp [segmentLength, hletters]

/-- A role ends with its colon if no letter follows. -/
theorem roleLength_role (hname : IsRoleName name) (hv : ∀ c ∈ v.head?, isLower c = false) :
    roleLength (name ++ ':' :: v) = name.length + 1 := by
  cases hname with
  | plain hname => rw [roleLength_letters hname, segmentLength_eq_zero hv, Nat.add_zero]
  | inDomain hdomain hname =>
    rw [List.append_assoc, List.cons_append, roleLength_letters hdomain,
      segmentLength_letters hname, List.length_append, List.length_cons]
    omega

/-! ## Dropping roles -/

theorem dropRolesFrom_eq (skip : Nat) (s : List Char) :
    dropRolesFrom skip s = dropRoles (s.drop skip) := by
  induction s generalizing skip with
  | nil => simp [dropRoles, dropRolesFrom]
  | cons c s ih =>
    rcases skip with _ | skip
    · rfl
    · rw [dropRolesFrom, ih, List.drop_succ_cons]

theorem dropRoles_cons_of_role (h : roleLength s ≠ 0) :
    dropRoles (':' :: s) = dropRoles (s.drop (roleLength s)) := by
  rw [dropRoles, dropRolesFrom, if_pos ⟨rfl, h⟩, dropRolesFrom_eq]

theorem dropRoles_cons (h : ¬(c = ':' ∧ roleLength s ≠ 0)) :
    dropRoles (c :: s) = c :: dropRoles s := by
  rw [dropRoles, dropRolesFrom, if_neg h]
  rfl

/-- A role with no letter behind it goes, and nothing else does. -/
theorem dropRoles_role (hname : IsRoleName name) (hv : ∀ c ∈ v.head?, isLower c = false) :
    dropRoles (':' :: (name ++ ':' :: v)) = dropRoles v := by
  have hlength := roleLength_role hname hv
  rw [dropRoles_cons_of_role (by omega), hlength, ← List.drop_drop, List.drop_left, List.drop_one,
    List.tail_cons]

theorem dropRolesFrom_sublist (skip : Nat) (s : List Char) : (dropRolesFrom skip s).Sublist s := by
  fun_induction dropRolesFrom skip s with
  | case1 => exact .slnil
  | case2 skip c s ih => exact ih.cons c
  | case3 c s hrole ih => exact ih.cons c
  | case4 c s hrole ih => exact ih.cons_cons c

theorem dropRoles_sublist (s : List Char) : (dropRoles s).Sublist s :=
  dropRolesFrom_sublist 0 s

theorem hasRole_cons_iff : HasRole (c :: s) ↔ (c = ':' ∧ roleLength s ≠ 0) ∨ HasRole s := by
  rw [roleLength_ne_zero_iff]
  constructor
  · rintro ⟨_ | ⟨b, u⟩, name, v, hname, hs⟩
    · obtain ⟨rfl, rfl⟩ := List.cons.inj hs
      exact .inl ⟨rfl, name, v, hname, rfl⟩
    · exact .inr ⟨u, name, v, hname, (List.cons.inj hs).2⟩
  · rintro (⟨rfl, name, v, hname, rfl⟩ | ⟨u, name, v, hname, rfl⟩)
    · exact ⟨[], name, v, hname, rfl⟩
    · exact ⟨c :: u, name, v, hname, rfl⟩

/-- **A text without a role stays as it is.** -/
theorem dropRoles_eq_self (h : ¬HasRole s) : dropRoles s = s := by
  induction s with
  | nil => rfl
  | cons c s ih =>
    rw [hasRole_cons_iff, not_or] at h
    rw [dropRoles_cons h.1, ih h.2]

theorem not_hasRole_of_colon_not_mem (h : ':' ∉ s) : ¬HasRole s := by
  rintro ⟨u, name, v, -, rfl⟩
  exact h (by simp)

/-- **A text with a role loses a colon.**  It need not lose the role in question, which may share a
colon with one in front of it. -/
theorem count_colon_dropRoles_lt (h : HasRole s) : (dropRoles s).count ':' < s.count ':' := by
  induction s with
  | nil =>
    obtain ⟨u, name, v, -, hs⟩ := h
    simp at hs
  | cons c s ih =>
    by_cases hrole : c = ':' ∧ roleLength s ≠ 0
    · obtain ⟨rfl, hrole⟩ := hrole
      have hrest := ((dropRoles_sublist _).trans (List.drop_sublist (roleLength s) s)).count_le ':'
      rw [dropRoles_cons_of_role hrole, List.count_cons_self]
      omega
    · have hrest := ih ((hasRole_cons_iff.mp h).resolve_left hrole)
      rw [dropRoles_cons hrole, List.count_cons, List.count_cons]
      omega

/-! ## Text that is marked up -/

/-- The first text is the second one with some of its parts marked up as cross-references: such a
part stands between backticks behind a role, and a tilde may open it. -/
inductive MarksUp : List Char → List Char → Prop
  | text {p : List Char} (hp : ':' ∉ p) : MarksUp p p
  | reference {p name tilde q s t : List Char} (hp : ':' ∉ p) (hname : IsRoleName name)
      (htilde : tilde = [] ∨ tilde = ['~']) (hq : ':' ∉ q) (hrest : MarksUp s t) :
      MarksUp (p ++ ':' :: (name ++ ':' :: '\x60' :: (tilde ++ (q ++ '\x60' :: s)))) (p ++ (q ++ t))

theorem colon_not_mem_of_marksUp {s t : List Char} (h : MarksUp s t) : ':' ∉ t := by
  induction h with
  | text hp => exact hp
  | reference hp hname htilde hq hrest ih => simp [hp, hq, ih]

/-- **Dropping the roles and then the marks leaves the plain text without its marks.** -/
theorem filter_dropRoles_of_marksUp {s t : List Char} (h : MarksUp s t) :
    (dropRoles s).filter (fun c => !isMark c) = t.filter fun c => !isMark c := by
  induction h with
  | text hp => rw [dropRoles_eq_self (not_hasRole_of_colon_not_mem hp)]
  | @reference p name tilde q s t hp hname htilde hq hrest ih =>
    -- Behind the role stands a backtick, and up to the rest of the text no colon.
    have hquoted : ∀ c ∈ '\x60' :: (tilde ++ (q ++ ['\x60'])), c ≠ ':' := by
      rintro c hc rfl
      rcases htilde with rfl | rfl <;> simp [hq] at hc
    have hroles : dropRoles (p ++ ':' :: (name ++ ':' :: '\x60' :: (tilde ++ (q ++ '\x60' :: s))))
        = p ++ ('\x60' :: (tilde ++ (q ++ ['\x60'])) ++ dropRoles s) := by
      rw [dropRoles_append_left (fun c hc hcolon => hp (hcolon ▸ hc)),
        dropRoles_role hname (by rintro c ⟨⟩; decide), ← dropRoles_append_left hquoted]
      simp
    have hmarks : (tilde.filter fun c => !isMark c) = [] := by
      rcases htilde with rfl | rfl <;> rfl
    have hbacktick : isMark '\x60' = true := rfl
    rw [hroles]
    simp [hmarks, hbacktick, ih]

end TypeText

open TypeText

/-- **Cross-references are transparent in types** — text with any of its parts marked up, under any
roles, has the normal form of the plain text and denotes the same type. -/
theorem normalType_markedUp {text plain : String} (h : MarksUp text.toList plain.toList) :
    normalType text = normalType plain ∧ TypeExpr.parse text = TypeExpr.parse plain := by
  have hplain : dropRoles plain.toList = plain.toList :=
    dropRoles_eq_self (not_hasRole_of_colon_not_mem (colon_not_mem_of_marksUp h))
  have hnormal : TypeText.normalize text.toList = TypeText.normalize plain.toList := by
    rw [TypeText.normalize, TypeText.normalize, filter_dropRoles_of_marksUp h, hplain]
  exact ⟨by rw [normalType, normalType, hnormal], by rw [TypeExpr.parse, TypeExpr.parse, hnormal]⟩

/-- A role with a domain and a tilde, and a role right behind another reference. -/
theorem normalType_markedUp_sample :
    MarksUp "Dict[:py:class:`~pkg.Key`, :obj:`a`:meth:`.B`]".toList "Dict[pkg.Key, a.B]".toList ∧
    normalType "Dict[:py:class:`~pkg.Key`, :obj:`a`:meth:`.B`]" = "Dict[pkg.Key, a.B]" ∧
    TypeExpr.parse "Dict[:py:class:`~pkg.Key`, :obj:`a`:meth:`.B`]"
      = TypeExpr.parse "Dict[pkg.Key, a.B]" := by
  have hmethod := @MarksUp.reference [] "meth".toList [] ".B".toList "]".toList _
    (by decide) (.plain (by decide)) (.inl rfl) (by decide) (.text (by decide))
  have hobject := @MarksUp.reference ", ".toList "obj".toList [] "a".toList _ _
    (by decide) (.plain (by decide)) (.inl rfl) (by decide) hmethod
  have htext : MarksUp "Dict[:py:class:`~pkg.Key`, :obj:`a`:meth:`.B`]".toList
      "Dict[pkg.Key, a.B]".toList :=
    @MarksUp.reference "Dict[".toList ("py".toList ++ ':' :: "class".toList) ['~']
      "pkg.Key".toList _ _ (by decide) (.inDomain (by decide) (by decide)) (.inr rfl) (by decide)
      hobject
  obtain ⟨hnormal, hparse⟩ := normalType_markedUp htext
  exact ⟨htext, hnormal.trans (by decide), hparse⟩

end DocAudit
