import DocAudit.Proofs.TypeForms
import Mathlib.Algebra.GroupWithZero.Nat

/-!
# Proofs/GenericArguments — the argument of a generic type, by brackets and by bytes

`generic?` gives `inner` exactly for the text that is the head, `inner` and one closing bracket,
where the square brackets of `inner` balance (`generic?_eq_some_iff`).

The same argument can be found in one pass over bytes.  `scanGeneric` skips as many characters as
the head has bytes less one, counts brackets in a counter that cannot go below zero, and cuts its
answer out between two byte indices.  Taking one from a counter at zero, or cutting inside a
character, is a fault of its own there, and `scanGeneric_eq` says that no text causes one: once the
counter has counted the bracket of the head, the scan ends at the bracket that brings it back to
zero (`scanAgrees`), and both ends of the cut are ends of characters (`cutAt_append`).
-/

namespace DocAudit.TypeExpr

open DocAudit.Text

/-! ## Balanced arguments -/

/-- No bracket is closed before it is opened, and all are closed at the end, those `opened` before
the text included. -/
structure ClosesFrom (opened : Int) (s : List Char) : Prop where
  nonneg : ∀ u, u <+: s → 0 ≤ opened + nesting squareWeight u
  closed : opened + nesting squareWeight s = 0

theorem closesFrom_cons {opened : Int} {c : Char} {s : List Char} (hopened : 0 ≤ opened)
    (h : ClosesFrom (opened + squareWeight c) s) : ClosesFrom opened (c :: s) := by
  refine ⟨fun u hu => ?_, by rw [nesting_cons, ← Int.add_assoc, h.closed]⟩
  rcases u with _ | ⟨b, u⟩
  · simpa using hopened
  · obtain ⟨rfl, hus⟩ := List.cons_prefix_cons.mp hu
    rw [nesting_cons, ← Int.add_assoc]
    exact h.nonneg u hus

/-- What is found in front of a closing bracket closes all its brackets. -/
theorem closesFrom_of_enclosed {s inner : List Char} {opened : Nat}
    (h : enclosed opened s = some inner) : ClosesFrom opened inner := by
  -- The brackets that are open behind a character are those before it and its own weight.
  have hcons : ∀ {opened next : Nat} {c : Char} {s inner : List Char},
      (next : Int) = opened + squareWeight c →
      (∀ {t}, enclosed next s = some t → ClosesFrom next t) →
      (enclosed next s).map (c :: ·) = some inner → ClosesFrom opened inner := by
    intro opened next c s inner hnext ih h
    obtain ⟨t, ht, rfl⟩ := Option.map_eq_some_iff.mp h
    exact closesFrom_cons (Int.natCast_nonneg opened) (hnext ▸ ih ht)
  fun_induction enclosed opened s generalizing inner with
  | case1 => cases h
  | case2 opened s ih => exact hcons (by simp [squareWeight]) ih h
  | case3 =>
    cases h
    exact ⟨fun u hu => by simp [List.prefix_nil.mp hu], rfl⟩
  | case4 => cases h
  | case5 opened s _ hopened ih =>
    have hweight : squareWeight ']' = -1 := rfl
    exact hcons (by omega) ih h
  | case6 opened c s hopen hclose ih => exact hcons (by simp [squareWeight, hopen, hclose]) ih h

/-- **A generic type is its head, a balanced argument and one closing bracket.** -/
theorem generic?_eq_some_iff {head s inner : List Char} :
    generic? head s = some inner ↔ s = head ++ (inner ++ [']']) ∧ Balanced squareWeight inner := by
  constructor
  · intro h
    have hs := generic?_eq_some h
    rw [hs, generic?, if_pos (by simp), List.drop_left] at h
    have hcloses := closesFrom_of_enclosed h
    exact ⟨hs, fun u hu => by simpa using hcloses.nonneg u hu, by simpa using hcloses.closed⟩
  · rintro ⟨rfl, hinner⟩
    exact generic?_append_close head hinner

/-! ## Texts as bytes -/

/-- How many bytes a text takes. -/
def byteSize (s : List Char) : Nat :=
  (s.map Char.utf8Size).sum

@[simp] theorem byteSize_nil : byteSize [] = 0 :=
  rfl

@[simp] theorem byteSize_cons (c : Char) (s : List Char) :
    byteSize (c :: s) = c.utf8Size + byteSize s :=
  rfl

@[simp] theorem byteSize_append (s t : List Char) :
    byteSize (s ++ t) = byteSize s + byteSize t := by
  simp [byteSize]

theorem byteSize_pos {s : List Char} (h : s ≠ []) : 0 < byteSize s := by
  obtain ⟨c, t, rfl⟩ := List.exists_cons_of_ne_nil h
  have := c.utf8Size_pos
  simp only [byteSize_cons]
  omega

/-- Characters of one byte each are as many as their bytes. -/
theorem byteSize_eq_length {s : List Char} (h : ∀ c ∈ s, c.utf8Size = 1) :
    byteSize s = s.length := by
  induction s with
  | nil => rfl
  | cons c s ih =>
    rw [List.forall_mem_cons] at h
    rw [byteSize_cons, h.1, ih h.2, List.length_cons, Nat.add_comm]

/-- What can go wrong in a scan by bytes. -/
inductive ScanFault
  /-- One is taken from a counter at zero. -/
  | counter
  /-- A text is cut inside a character or behind its end. -/
  | index
deriving DecidableEq, Repr

/-- The text in front of a byte index and the text behind it. -/
def cutAt : Nat → List Char → Except ScanFault (List Char × List Char)
  | 0, s => .ok ([], s)
  | _ + 1, [] => .error .index
  | n + 1, c :: s =>
    if c.utf8Size ≤ n + 1 then
      (cutAt (n + 1 - c.utf8Size) s).map fun parts => (c :: parts.1, parts.2)
    else .error .index

/-- A cut between two characters succeeds. -/
theorem cutAt_append (s t : List Char) : cutAt (byteSize s) (s ++ t) = .ok (s, t) := by
  induction s with
  | nil => simp [cutAt]
  | cons c s ih =>
    obtain ⟨n, hn⟩ := Nat.exists_eq_add_one.mpr (byteSize_pos (List.cons_ne_nil c s))
    have hle : c.utf8Size ≤ n + 1 := by
      rw [← hn, byteSize_cons]
      exact Nat.le_add_right _ _
    have hrest : n + 1 - c.utf8Size = byteSize s := by
      rw [← hn, byteSize_cons, Nat.add_sub_cancel_left]
    rw [hn, List.cons_append, cutAt, if_pos hle, hrest, ih]
    rfl

/-- The text between two byte indices. -/
def slice (first last : Nat) (s : List Char) : Except ScanFault (List Char) :=
  match cutAt last s with
  | .error fault => .error fault
  | .ok (front, _) => (cutAt first front).map Prod.snd

theorem slice_append (s inner t : List Char) :
    slice (byteSize s) (byteSize s + byteSize inner) (s ++ (inner ++ t)) = .ok inner := by
  rw [slice, ← byteSize_append, ← List.append_assoc, cutAt_append]
  simp only [cutAt_append]
  rfl

/-! ## The scan -/

/-- The byte index of the square bracket that brings the counter `depth` back to zero; the text
starts at the byte `index`. -/
def closingIndex : (index depth : Nat) → List Char → Except ScanFault (Option Nat)
  | _, _, [] => .ok none
  | index, depth, c :: s =>
    if c = '[' then closingIndex (index + c.utf8Size) (depth + 1) s
    else if c = ']' then
      if depth = 0 then .error .counter
      else if depth = 1 then .ok (some index)
      else closingIndex (index + c.utf8Size) (depth - 1) s
    else closingIndex (index + c.utf8Size) depth s

/-- The argument of a generic type, found by bytes.  The scan starts at the bracket that ends the
head, if the characters of the head are bytes. -/
def scanGeneric (head s : List Char) : Except ScanFault (Option (List Char)) :=
  if head.isPrefixOf s ∧ s.getLast? = some ']' then
    let skipped := byteSize head - 1
    match closingIndex (byteSize (s.take skipped)) 0 (s.drop skipped) with
    | .error fault => .error fault
    | .ok none => .ok none
    | .ok (some index) =>
      if index = byteSize s - 1 then (slice (byteSize head) index s).map some else .ok none
  else .ok none

/-- The scan and `enclosed` agree: there is no bracket that closes the `opened` ones and the one of
the head, or the scan stops at it, and what stands in front of it is enclosed if nothing follows. -/
def ScanAgrees (index opened : Nat) (s : List Char) : Prop :=
  (closingIndex index (opened + 1) s = .ok none ∧ enclosed opened s = none) ∨
  ∃ inner rest, s = inner ++ ']' :: rest ∧
    closingIndex index (opened + 1) s = .ok (some (index + byteSize inner)) ∧
    enclosed opened s = if rest = [] then some inner else none

/-- A character that does not end the scan goes in front of what the rest gives. -/
theorem scanAgrees_cons {index opened next : Nat} {c : Char} {s : List Char}
    (h : ScanAgrees (index + c.utf8Size) next s)
    (hindex : closingIndex index (opened + 1) (c :: s)
      = closingIndex (index + c.utf8Size) (next + 1) s)
    (henclosed : enclosed opened (c :: s) = (enclosed next s).map (c :: ·)) :
    ScanAgrees index opened (c :: s) := by
  rw [ScanAgrees, hindex, henclosed]
  rcases h with ⟨hnone, hrest⟩ | ⟨inner, rest, rfl, hsome, hrest⟩
  · exact .inl ⟨hnone, by rw [hrest]; rfl⟩
  · refine .inr ⟨c :: inner, rest, rfl, ?_, ?_⟩
    · rw [hsome, byteSize_cons, Nat.add_assoc]
    · rw [hrest]
      split <;> rfl

/-- **A counter above zero has no fault**, and the scan ends where `enclosed` does. -/
theorem scanAgrees (index opened : Nat) (s : List Char) : ScanAgrees index opened s := by
  induction s generalizing index opened with
  | nil => exact .inl ⟨rfl, rfl⟩
  | cons c s ih =>
    by_cases hopen : c = '['
    · exact scanAgrees_cons (ih _ (opened + 1)) (by rw [closingIndex, if_pos hopen])
        (by rw [enclosed, if_pos hopen])
    by_cases hclose : c = ']'
    · rcases opened with _ | opened
      · subst hclose
        exact .inr ⟨[], s, rfl, rfl, rfl⟩
      · refine scanAgrees_cons (ih _ opened) ?_ ?_
        · rw [closingIndex, if_neg hopen, if_pos hclose, if_neg (by omega), if_neg (by omega)]
          rfl
        · rw [enclosed, if_neg hopen, if_pos hclose, if_neg (by omega)]
          rfl
    · exact scanAgrees_cons (ih _ opened) (by rw [closingIndex, if_neg hopen, if_neg hclose])
        (by rw [enclosed, if_neg hopen, if_neg hclose])

theorem generic?_eq_none_of_getLast? {head s : List Char} (h : s.getLast? ≠ some ']') :
    generic? head s = none := by
  rw [Option.eq_none_iff_forall_ne_some]
  intro inner hinner
  rw [generic?_eq_some hinner, ← List.append_assoc] at h
  exact h List.getLast?_concat

/-- The scan from the bracket of the head on. -/
theorem closingIndex_head {name : List Char} (hname : ∀ c ∈ name, c.utf8Size = 1)
    (t : List Char) :
    closingIndex (byteSize ((name ++ ['['] ++ t).take (byteSize (name ++ ['[']) - 1))) 0
        ((name ++ ['['] ++ t).drop (byteSize (name ++ ['[']) - 1))
      = closingIndex (byteSize (name ++ ['['])) 1 t := by
  have hskip : byteSize (name ++ ['[']) - 1 = name.length := by
    rw [byteSize_append, byteSize_eq_length hname]
    rfl
  rw [hskip, List.append_assoc, List.take_left, List.drop_left, byteSize_append]
  rfl

/-- **The scan by bytes has no fault and finds the argument.** -/
theorem scanGeneric_eq {name : List Char} (hname : ∀ c ∈ name, c.utf8Size = 1) (s : List Char) :
    scanGeneric (name ++ ['[']) s = .ok (generic? (name ++ ['[']) s) := by
  rw [scanGeneric]
  split
  · rename_i h
    obtain ⟨t, rfl⟩ := List.isPrefixOf_iff_prefix.mp h.1
    have hgeneric : generic? (name ++ ['[']) (name ++ ['['] ++ t) = enclosed 0 t := by
      rw [generic?, if_pos h.1, List.drop_left]
    simp only [closingIndex_head hname, hgeneric]
    rcases scanAgrees (byteSize (name ++ ['['])) 0 t with
      ⟨hnone, hrest⟩ | ⟨inner, rest, rfl, hsome, hrest⟩
    · rw [hnone, hrest]
    · have hsize : byteSize (name ++ ['['] ++ (inner ++ ']' :: rest)) - 1
          = byteSize (name ++ ['[']) + byteSize inner + byteSize rest := by
        have hclose : ']'.utf8Size = 1 := rfl
        rw [byteSize_append (name ++ ['[']), byteSize_append inner, byteSize_cons]
        omega
      rw [hsome, hrest, hsize]
      by_cases hend : rest = []
      · subst hend
        simp only [byteSize_nil, Nat.add_zero, if_true, slice_append]
        rfl
      · have hpos := byteSize_pos hend
        simp only [if_neg hend]
        exact if_neg (by omega)
  · rename_i h
    rw [not_and_or] at h
    rcases h with h | h
    · rw [generic?, if_neg h]
    · rw [generic?_eq_none_of_getLast? h]

/-- The names of the generic types whose argument is read. -/
def genericNames : List String :=
  ["Optional", "typing.Optional", "Union", "typing.Union"]

theorem utf8Size_of_mem_genericNames {name : String} (h : name ∈ genericNames) :
    ∀ c ∈ name.toList, c.utf8Size = 1 := by
  have hall : (name.toList.all fun c => c.utf8Size == 1) = true := by
    revert name
    decide
  simpa using hall

/-! ## Arguments are shorter -/

theorem byteSize_lt_of_generic? {head s inner : List Char} (h : generic? head s = some inner) :
    byteSize inner < byteSize s := by
  have hclose : ']'.utf8Size = 1 := rfl
  rw [generic?_eq_some h, byteSize_append, byteSize_append, byteSize_cons]
  omega

/-- **Going from an optional type to its argument ends.** -/
theorem wellFounded_optional? : WellFounded fun inner s => optional? s = some inner :=
  Subrelation.wf (fun h => length_optional?_lt h) (measure List.length).wf

/-- **The argument of a generic type is what its brackets enclose** — it is found exactly where the
brackets span the whole text, the scan by bytes has no fault on any text under any of the names in
use, and the argument is shorter than the text, so reading optional types ends. -/
theorem generic_argument_exact (name s : List Char) :
    (∀ inner, generic? (name ++ ['[']) s = some inner ↔
      s = name ++ ['['] ++ inner ++ [']'] ∧ Balanced squareWeight inner) ∧
    ((∀ c ∈ name, c.utf8Size = 1) →
      scanGeneric (name ++ ['[']) s = .ok (generic? (name ++ ['[']) s)) ∧
    (∀ used ∈ genericNames,
      scanGeneric (used.toList ++ ['[']) s = .ok (generic? (used.toList ++ ['[']) s)) ∧
    (∀ inner, generic? (name ++ ['[']) s = some inner →
      inner.length < s.length ∧ byteSize inner < byteSize s) ∧
    WellFounded fun inner t => optional? t = some inner := by
  refine ⟨fun inner => ?_, fun hname => scanGeneric_eq hname s,
    fun used hused => scanGeneric_eq (utf8Size_of_mem_genericNames hused) s, fun inner h => ?_,
    wellFounded_optional?⟩
  · rw [List.append_assoc (name ++ ['['])]
    exact generic?_eq_some_iff
  · exact ⟨length_generic?_lt h, byteSize_lt_of_generic? h⟩

/-- The four heads in use, on a text whose brackets span it and on one where the first bracket
closes early; the texts hold characters of two and three bytes. -/
theorem generic_argument_exact_sample :
    (∀ name ∈ genericNames,
      scanGeneric (name.toList ++ ['[']) (name.toList ++ "[é[€], [x]]".toList)
        = .ok (some "é[€], [x]".toList) ∧
      scanGeneric (name.toList ++ ['[']) (name.toList ++ "[é] | Optional[€]".toList)
        = .ok none) ∧
    Balanced squareWeight "é[€], [x]".toList := by
  have hbalanced : Balanced squareWeight "é[€], [x]".toList := by decide
  refine ⟨fun name hname => ?_, hbalanced⟩
  have hearly : generic? (name.toList ++ ['[']) (name.toList ++ "[é] | Optional[€]".toList)
      = none := by
    revert name
    decide
  have hbytes := utf8Size_of_mem_genericNames hname
  constructor
  · obtain ⟨hiff, hscan, -, -, -⟩ :=
      generic_argument_exact name.toList (name.toList ++ "[é[€], [x]]".toList)
    rw [hscan hbytes, (hiff _).mpr ⟨by simp, hbalanced⟩]
  · obtain ⟨-, hscan, -, -, -⟩ :=
      generic_argument_exact name.toList (name.toList ++ "[é] | Optional[€]".toList)
    rw [hscan hbytes, hearly]

end DocAudit.TypeExpr
