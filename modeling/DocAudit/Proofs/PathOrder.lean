import DocAudit.Proofs.DiscoveredFiles
import DocAudit.Proofs.ReportOrder
import Mathlib.Algebra.GroupWithZero.Nat
import Mathlib.Tactic.Common

/-!
# Proofs/PathOrder — the order of paths, step by step and byte by byte

Paths compare by their steps, and three things make that order known.

* Of the spelling only the steps count: repeated and trailing slashes and inner `.` segments are no
  steps (`components_of_slash` cuts a path at any slash, `stepsBehind` is what follows).
* The first step that differs decides, and a path comes before those that go on from it
  (`compare_lt_iff_steps`).
* Names compare by their characters, which is the order of their bytes in UTF-8
  (`compare_eq_compare_utf8`): the bytes of two characters differ at some place where the greater
  character has the greater byte (`compare_utf8EncodeChar_append`).
-/

namespace DocAudit

open Std

/-! ## Comparing lists -/

section Lists

variable {α : Type} [Ord α]

/-- A common front does not count. -/
theorem compare_append_left [ReflOrd α] (front s t : List α) :
    compare (front ++ s) (front ++ t) = compare s t := by
  induction front with
  | nil => rfl
  | cons a front ih =>
    rw [List.cons_append, List.cons_append, List.compare_cons_cons, ReflOrd.compare_self, ih]
    rfl

/-- **A list comes before another** iff the other goes on from it or the first elements that differ
are in this order. -/
theorem compare_list_lt_iff [LawfulEqOrd α] {s t : List α} :
    compare s t = .lt ↔ (∃ a rest, t = s ++ a :: rest) ∨
      ∃ front a b rest rest', s = front ++ a :: rest ∧ t = front ++ b :: rest' ∧
        compare a b = .lt := by
  constructor
  · intro h
    induction s generalizing t with
    | nil =>
      rcases t with _ | ⟨b, t⟩
      · cases h
      · exact .inl ⟨b, t, rfl⟩
    | cons a s ih =>
      rcases t with _ | ⟨b, t⟩
      · cases h
      rw [List.compare_cons_cons, Ordering.then_eq_lt] at h
      rcases h with h | ⟨heq, h⟩
      · exact .inr ⟨[], a, b, s, t, rfl, rfl, h⟩
      obtain rfl : a = b := LawfulEqOrd.eq_of_compare heq
      rcases ih h with ⟨b, rest, rfl⟩ | ⟨front, c, d, rest, rest', rfl, rfl, hlt⟩
      · exact .inl ⟨b, rest, rfl⟩
      · exact .inr ⟨a :: front, c, d, rest, rest', rfl, rfl, hlt⟩
  · rintro (⟨a, rest, rfl⟩ | ⟨front, a, b, rest, rest', rfl, rfl, h⟩)
    · conv_lhs => rw [← List.append_nil s, List.append_assoc, compare_append_left]
      rfl
    · rw [compare_append_left, List.compare_cons_cons, h]
      rfl

end Lists

/-! ## Characters and their bytes -/

theorem ordering_eq_of_iff {o o' : Ordering} (hlt : o = .lt ↔ o' = .lt)
    (hgt : o = .gt ↔ o' = .gt) : o = o' := by
  cases o <;> cases o' <;> simp_all

theorem compare_nat_congr {a b m n : Nat} (hlt : a < b ↔ m < n) (hgt : b < a ↔ n < m) :
    compare a b = compare m n :=
  ordering_eq_of_iff (by rw [Nat.compare_eq_lt, Nat.compare_eq_lt, hlt])
    (by rw [Nat.compare_eq_gt, Nat.compare_eq_gt, hgt])

/-- Numbers compare by their digits to the base 64, the higher ones first. -/
theorem compare_eq_then_mod (m n : Nat) :
    compare m n = (compare (m / 64) (n / 64)).then (compare (m % 64) (n % 64)) := by
  rcases Nat.lt_trichotomy (m / 64) (n / 64) with h | h | h
  · rw [Nat.compare_eq_lt.mpr h, Nat.compare_eq_lt.mpr (by omega)]
    rfl
  · rw [Nat.compare_eq_eq.mpr h, Ordering.eq_then]
    exact compare_nat_congr (by omega) (by omega)
  · rw [Nat.compare_eq_gt.mpr h, Nat.compare_eq_gt.mpr (by omega)]
    rfl

theorem compare_byte {m n : Nat} (hm : m < 256) (hn : n < 256) :
    compare (UInt8.ofNat m) (UInt8.ofNat n) = compare m n := by
  rw [UInt8.compare_eq_toNat_compare_toNat, UInt8.toNat_ofNat_of_lt' hm,
    UInt8.toNat_ofNat_of_lt' hn]

/-- The last `k` bytes of a character, which hold six bits each. -/
def continuation : (k v : Nat) → List UInt8
  | 0, _ => []
  | k + 1, v => continuation k (v / 64) ++ [UInt8.ofNat (v % 64 + 128)]

/-- The bytes that continue two characters compare as the characters do, if these agree in what
stands in front of them. -/
theorem compare_continuation {k m n : Nat} (h : m / 64 ^ k = n / 64 ^ k) (s t : List UInt8) :
    compare (continuation k m ++ s) (continuation k n ++ t)
      = (compare m n).then (compare s t) := by
  induction k generalizing m n s t with
  | zero =>
    obtain rfl : m = n := by simpa using h
    rw [ReflOrd.compare_self]
    rfl
  | succ k ih =>
    have hdigit : compare (UInt8.ofNat (m % 64 + 128)) (UInt8.ofNat (n % 64 + 128))
        = compare (m % 64) (n % 64) := by
      rw [compare_byte (by omega) (by omega)]
      exact compare_nat_congr (by omega) (by omega)
    have hfront : m / 64 / 64 ^ k = n / 64 / 64 ^ k := by
      rwa [Nat.div_div_eq_div_mul, Nat.div_div_eq_div_mul, ← Nat.pow_succ']
    rw [continuation, continuation, List.append_assoc, List.append_assoc, ih hfront,
      List.singleton_append, List.singleton_append, List.compare_cons_cons, hdigit,
      ← Ordering.then_assoc, ← compare_eq_then_mod]

/-- The first byte of the character `v` if `k` bytes continue it. -/
def IsLead (k v lead : Nat) : Prop :=
  k = 0 ∧ v < 128 ∧ lead = v ∨
  k = 1 ∧ 128 ≤ v ∧ v < 2048 ∧ lead = v / 64 + 192 ∨
  k = 2 ∧ 2048 ≤ v ∧ v < 65536 ∧ lead = v / 64 / 64 + 224 ∨
  k = 3 ∧ 65536 ≤ v ∧ v < 1114112 ∧ lead = v / 64 / 64 / 64 + 240

theorem char_toNat_lt (c : Char) : c.toNat < 1114112 := by
  rcases c.valid with h | h
  · exact Nat.lt_trans h (by decide)
  · exact h.2

/-- A character is a first byte and the bytes that continue it. -/
theorem exists_utf8EncodeChar_eq (c : Char) : ∃ k lead, IsLead k c.toNat lead ∧
    String.utf8EncodeChar c = UInt8.ofNat lead :: continuation k c.toNat := by
  have hlt := char_toNat_lt c
  have hval : c.val.toNat = c.toNat := rfl
  have hdiv : ∀ v, v / 4096 = v / 64 / 64 := fun v => (Nat.div_div_eq_div_mul v 64 64).symm
  have hdiv' : ∀ v, v / 262144 = v / 64 / 64 / 64 := fun v => by
    rw [Nat.div_div_eq_div_mul, Nat.div_div_eq_div_mul]
  simp only [String.utf8EncodeChar, hval, hdiv, hdiv']
  generalize c.toNat = v at hlt
  split_ifs with h₁ h₂ h₃
  · exact ⟨0, v, by unfold IsLead; omega, rfl⟩
  · refine ⟨1, v / 64 + 192, by unfold IsLead; omega, ?_⟩
    rw [Nat.mod_eq_of_lt (by omega : v / 64 < 32)]
    rfl
  · refine ⟨2, v / 64 / 64 + 224, by unfold IsLead; omega, ?_⟩
    rw [Nat.mod_eq_of_lt (by omega : v / 64 / 64 < 16)]
    rfl
  · refine ⟨3, v / 64 / 64 / 64 + 240, by unfold IsLead; omega, ?_⟩
    rw [Nat.mod_eq_of_lt (by omega : v / 64 / 64 / 64 < 8)]
    rfl

theorem IsLead.lt_byte {k v lead : Nat} (h : IsLead k v lead) : lead < 256 := by
  unfold IsLead at h
  omega

/-- The ranges of first bytes stand in the order of the characters. -/
theorem IsLead.lt_of_lt {k k' v v' lead lead' : Nat} (h : IsLead k v lead)
    (h' : IsLead k' v' lead') (hlt : lead < lead') : v < v' := by
  unfold IsLead at h h'
  omega

/-- The first byte says how many bytes follow. -/
theorem IsLead.continues {k k' v v' lead : Nat} (h : IsLead k v lead) (h' : IsLead k' v' lead) :
    k = k' ∧ v / 64 ^ k = v' / 64 ^ k := by
  obtain rfl : k = k' := by
    unfold IsLead at h h'
    omega
  refine ⟨rfl, ?_⟩
  rcases h with ⟨rfl, h⟩ | ⟨rfl, h⟩ | ⟨rfl, h⟩ | ⟨rfl, h⟩ <;> unfold IsLead at h' <;> omega

/-- **The bytes of two characters compare as the characters do**, whatever follows them. -/
theorem compare_utf8EncodeChar_append (c d : Char) (s t : List UInt8) :
    compare (String.utf8EncodeChar c ++ s) (String.utf8EncodeChar d ++ t)
      = (compare c.toNat d.toNat).then (compare s t) := by
  obtain ⟨k, lead, hlead, hc⟩ := exists_utf8EncodeChar_eq c
  obtain ⟨k', lead', hlead', hd⟩ := exists_utf8EncodeChar_eq d
  rw [hc, hd, List.cons_append, List.cons_append, List.compare_cons_cons,
    compare_byte hlead.lt_byte hlead'.lt_byte]
  rcases Nat.lt_trichotomy lead lead' with h | rfl | h
  · rw [Nat.compare_eq_lt.mpr h, Nat.compare_eq_lt.mpr (hlead.lt_of_lt hlead' h)]
    rfl
  · obtain ⟨rfl, hdiv⟩ := hlead.continues hlead'
    rw [ReflOrd.compare_self, Ordering.eq_then, compare_continuation hdiv]
  · rw [Nat.compare_eq_gt.mpr h, Nat.compare_eq_gt.mpr (hlead'.lt_of_lt hlead h)]
    rfl

/-! ## Names and their bytes -/

/-- The bytes of a text in UTF-8. -/
def utf8 (s : String) : List UInt8 :=
  s.toUTF8.data.toList

theorem utf8_eq_flatMap (s : String) : utf8 s = s.toList.flatMap String.utf8EncodeChar := by
  conv_lhs => rw [← String.ofList_toList (s := s)]
  rw [utf8, String.toUTF8_eq_toByteArray, String.toByteArray_ofList, List.utf8Encode]
  simp

theorem compare_flatMap_lt_iff {s t : List Char} :
    compare (s.flatMap String.utf8EncodeChar) (t.flatMap String.utf8EncodeChar) = .lt ↔ s < t := by
  induction s generalizing t with
  | nil =>
    rcases t with _ | ⟨d, t⟩
    · simp
    · obtain ⟨k, lead, -, hd⟩ := exists_utf8EncodeChar_eq d
      simp [hd]
  | cons c s ih =>
    rcases t with _ | ⟨d, t⟩
    · obtain ⟨k, lead, -, hc⟩ := exists_utf8EncodeChar_eq c
      simp [hc]
    · rw [List.flatMap_cons, List.flatMap_cons, compare_utf8EncodeChar_append, Ordering.then_eq_lt,
        ih, List.cons_lt_cons_iff, Nat.compare_eq_lt, Nat.compare_eq_eq, Char.toNat_inj]
      exact Iff.rfl

/-- **Texts compare as their bytes do.** -/
theorem compare_eq_compare_utf8 (a b : String) : compare a b = compare (utf8 a) (utf8 b) := by
  have hlt : ∀ a b : String, compare a b = .lt ↔ compare (utf8 a) (utf8 b) = .lt := fun a b => by
    rw [utf8_eq_flatMap, utf8_eq_flatMap, compare_flatMap_lt_iff, ← String.lt_iff]
    exact compareOfLessAndEq_eq_lt
  refine ordering_eq_of_iff (hlt a b) ?_
  rw [OrientedCmp.gt_iff_lt, OrientedCmp.gt_iff_lt, hlt b a]

namespace Path

/-! ## Steps and paths -/

/-- **The first step that differs decides**, and a path comes before those that go on from it. -/
theorem compare_lt_iff_steps {p q : Path} :
    compare p q = .lt ↔ (∃ a rest, q.components = p.components ++ a :: rest) ∨
      ∃ front a b rest rest', p.components = front ++ a :: rest ∧
        q.components = front ++ b :: rest' ∧ compare a b = .lt :=
  compare_list_lt_iff

/-- The steps that a text stands for if a slash follows it. -/
def stepsBefore (s : List Char) : List Component :=
  match s.splitOn '/' with
  | [] => []
  | first :: rest => leadingSteps first ++ rest.filterMap Component.ofSegment?

/-- The steps that a text stands for behind a slash. -/
def stepsBehind (t : List Char) : List Component :=
  (t.splitOn '/').filterMap Component.ofSegment?

/-- **A path may be cut at any slash.** -/
theorem components_of_slash {p : Path} {s t : List Char} (h : p.text.toList = s ++ '/' :: t) :
    p.components = stepsBefore s ++ stepsBehind t := by
  obtain ⟨first, rest, hfirst⟩ := List.exists_cons_of_ne_nil (List.splitOn_ne_nil '/' s)
  obtain ⟨next, behind, hnext⟩ := List.exists_cons_of_ne_nil (List.splitOn_ne_nil '/' t)
  rw [components, segments, h, List.splitOn_append_cons_self, stepsBefore, stepsBehind, hfirst,
    hnext, List.cons_append, stepsOf_cons (.inr (by simp)), List.filterMap_append,
    List.append_assoc]

theorem components_of_text {p : Path} (h : p.text.toList ≠ []) :
    p.components = stepsBefore p.text.toList := by
  obtain ⟨first, rest, hfirst, hwritten⟩ := exists_written_segments h
  rw [components, segments, stepsBefore, hfirst, stepsOf_cons hwritten]

theorem stepsBehind_slash (t : List Char) : stepsBehind ('/' :: t) = stepsBehind t := by
  have hsegments : ('/' :: t).splitOn '/' = [] :: t.splitOn '/' :=
    List.splitOn_append_cons_self [] t
  rw [stepsBehind, hsegments]
  rfl

theorem stepsBehind_dot (t : List Char) : stepsBehind ('.' :: '/' :: t) = stepsBehind t := by
  have hsegments : ('.' :: '/' :: t).splitOn '/' = ['.'] :: t.splitOn '/' :=
    List.splitOn_append_cons_self ['.'] t
  rw [stepsBehind, hsegments]
  rfl

/-- **What the order of paths is**: the spellings that do not count, the order of steps, and how
steps decide. -/
structure OrderedBySteps : Prop where
  repeatedSlash : ∀ s t : String,
    (mk (s ++ "//" ++ t)).components = (mk (s ++ "/" ++ t)).components
  trailingSlash : ∀ s : String, s ≠ "" → (mk (s ++ "/")).components = (mk s).components
  innerDot : ∀ s t : String,
    (mk (s ++ "/./" ++ t)).components = (mk (s ++ "/" ++ t)).components
  trailingDot : ∀ s : String, s ≠ "" → (mk (s ++ "/.")).components = (mk s).components
  root_lt_current : compare Component.root .current = .lt
  current_lt_parent : compare Component.current .parent = .lt
  parent_lt_name : ∀ label, compare Component.parent (.name label) = .lt
  names : ∀ a b, compare (Component.name a) (.name b) = compare (utf8 a) (utf8 b)
  paths : ∀ p q : Path,
    compare p q = .lt ↔ (∃ a rest, q.components = p.components ++ a :: rest) ∨
      ∃ front a b rest rest', p.components = front ++ a :: rest ∧
        q.components = front ++ b :: rest' ∧ compare a b = .lt

theorem orderedBySteps : OrderedBySteps where
  repeatedSlash s t := by
    rw [components_of_slash (s := s.toList) (t := '/' :: t.toList) (by simp), stepsBehind_slash,
      components_of_slash (s := s.toList) (t := t.toList) (by simp)]
  trailingSlash s hs := by
    rw [components_of_slash (s := s.toList) (t := []) (by simp),
      components_of_text (by simpa using hs)]
    exact List.append_nil _
  innerDot s t := by
    rw [components_of_slash (s := s.toList) (t := '.' :: '/' :: t.toList) (by simp),
      stepsBehind_dot, components_of_slash (s := s.toList) (t := t.toList) (by simp)]
  trailingDot s hs := by
    rw [components_of_slash (s := s.toList) (t := ['.']) (by simp),
      components_of_text (by simpa using hs)]
    exact List.append_nil _
  root_lt_current := rfl
  current_lt_parent := rfl
  parent_lt_name _ := rfl
  names a b := compare_eq_compare_utf8 a b
  paths _ _ := compare_lt_iff_steps

end Path

end DocAudit
