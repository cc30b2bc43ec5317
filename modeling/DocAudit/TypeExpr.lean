import DocAudit.TypeText

/-!
# TypeExpr — types up to the spelling of optional and union types

A type is compared as its base text and the question whether `None` is admitted beside it. The
spellings `Optional[X]`, `X | None` and `Union[X, None]` meet in one value, and a union keeps its
other members in order. The recursion goes into the argument of `Optional`, which is shorter than
the text around it (`length_generic?_lt`).
-/

namespace DocAudit

open DocAudit.Text

/-- A type as its base text and whether `None` is admitted beside it. -/
structure TypeExpr where
  base : String
  nullable : Bool
deriving DecidableEq, Repr

namespace TypeExpr

/-! ## Reading brackets -/

/-- Puts a character in front of the first piece. -/
def consHead (c : Char) : List (List Char) → List (List Char)
  | [] => [[c]]
  | piece :: pieces => (c :: piece) :: pieces

/-- The pieces between the separators that no bracket encloses; `depth` is the nesting at the start,
counted over both kinds of brackets and allowed to fall below zero. Each character changes it by one
at most, so on a text of fewer than 2 ^ 31 characters it is a signed number of 32 bits. -/
def splitOutside (sep : Char) : (depth : Int) → List Char → List (List Char)
  | _, [] => [[]]
  | depth, c :: s =>
    if c = '[' ∨ c = '(' then consHead c (splitOutside sep (depth + 1) s)
    else if c = ']' ∨ c = ')' then consHead c (splitOutside sep (depth - 1) s)
    else if c = sep ∧ depth = 0 then [] :: splitOutside sep depth s
    else consHead c (splitOutside sep depth s)

/-- The members of a list written with a separator, trimmed. -/
def members (sep : Char) (s : List Char) : List (List Char) :=
  (splitOutside sep 0 s).map trim

/-- What stands in front of the square bracket that closes one opened before, if the text ends with
that bracket; `opened` square brackets have been opened since. -/
def enclosed : (opened : Nat) → List Char → Option (List Char)
  | _, [] => none
  | opened, c :: s =>
    if c = '[' then (enclosed (opened + 1) s).map (c :: ·)
    else if c = ']' then
      if opened = 0 then if s = [] then some [] else none
      else (enclosed (opened - 1) s).map (c :: ·)
    else (enclosed opened s).map (c :: ·)

/-- The argument of a generic type whose brackets span the whole text; `head` is its name with the
opening bracket. -/
def generic? (head s : List Char) : Option (List Char) :=
  if head.isPrefixOf s then enclosed 0 (s.drop head.length) else none

theorem length_enclosed_lt : ∀ {s : List Char} {opened : Nat} {inner : List Char},
    enclosed opened s = some inner → inner.length < s.length
  | [], _, _, h => by simp [enclosed] at h
  | c :: s, opened, inner, h => by
      rw [enclosed] at h
      split at h
      · obtain ⟨t, ht, rfl⟩ := Option.map_eq_some_iff.1 h
        have := length_enclosed_lt ht
        simp only [List.length_cons]; omega
      · split at h
        · split at h
          · split at h
            · cases h; simp
            · cases h
          · obtain ⟨t, ht, rfl⟩ := Option.map_eq_some_iff.1 h
            have := length_enclosed_lt ht
            simp only [List.length_cons]; omega
        · obtain ⟨t, ht, rfl⟩ := Option.map_eq_some_iff.1 h
          have := length_enclosed_lt ht
          simp only [List.length_cons]; omega

/-- The argument of a generic type is shorter than the type. -/
theorem length_generic?_lt {head s inner : List Char} (h : generic? head s = some inner) :
    inner.length < s.length := by
  rw [generic?] at h
  split at h
  · have := length_enclosed_lt h
    simp only [List.length_drop] at this
    omega
  · cases h

/-- The argument of `Optional`, under either of its names. -/
def optional? (s : List Char) : Option (List Char) :=
  (generic? "Optional[".toList s).or (generic? "typing.Optional[".toList s)

/-- The argument of `Union`, under either of its names. -/
def union? (s : List Char) : Option (List Char) :=
  (generic? "Union[".toList s).or (generic? "typing.Union[".toList s)

theorem length_optional?_lt {s inner : List Char} (h : optional? s = some inner) :
    inner.length < s.length := by
  rcases Option.or_eq_some_iff.1 h with h | ⟨_, h⟩ <;> exact length_generic?_lt h

/-! ## Types -/

/-- The text of the type that has `None` as its only value. -/
def noneText : List Char :=
  "None".toList

/-- The type that a union of the given members denotes. -/
def ofMembers (ms : List (List Char)) : TypeExpr :=
  let rest := ms.filter fun m => m ≠ noneText
  if rest.isEmpty then ⟨"None", false⟩
  else ⟨String.ofList (" | ".toList.intercalate rest), ms.any fun m => m == noneText⟩

/-- The type that a text in normal form denotes. -/
def ofNormal (s : List Char) : TypeExpr :=
  let alternatives := members '|' s
  if 1 < alternatives.length then ofMembers alternatives
  else
    match h : optional? s with
    | some inner =>
      have : inner.length < s.length := length_optional?_lt h
      { ofNormal inner with nullable := true }
    | none =>
      match union? s with
      | some inner => ofMembers (members ',' inner)
      | none => ⟨String.ofList s, false⟩
termination_by s.length

/-- The type that a written type denotes. -/
def parse (text : String) : TypeExpr :=
  ofNormal (TypeText.normalize text.toList)

/-- The type of `None` itself. -/
def isNone (t : TypeExpr) : Bool :=
  t.base == "None" && !t.nullable

end TypeExpr

/-- A return type that promises no value: none is declared, or the type of `None`. -/
def returnsNothing : Option String → Bool
  | none => true
  | some text => (TypeExpr.parse text).isNone

end DocAudit
