import DocAudit.Proofs.Trimming
import DocAudit.Subject
import Mathlib.Data.List.Nodup

/-!
# Proofs/Resolution — names find their parameters

In a regular signature positions count the parameters and no name occurs twice.  A parameter is then
found under its own name (`resolve?_name`), and the expected parameters stand in the order of their
positions (`pairwise_position_lt`).  Names that look like identifiers are free of everything that a
field marker gives a meaning to: white space, colons, backslashes and stars.
-/

namespace DocAudit

/-! ## Regular signatures -/

/-- Positions count the parameters, and no name occurs twice. -/
structure Signature.IsRegular (s : Signature) : Prop where
  position_eq : ∀ (i : Nat) (p : Parameter), s.parameters[i]? = some p → p.position = i
  names_nodup : (s.parameters.map Parameter.name).Nodup

namespace Signature.IsRegular

variable {s : Signature}

theorem map_position (h : s.IsRegular) :
    s.parameters.map Parameter.position = List.range s.parameters.length := by
  refine List.ext_getElem (by simp) fun i hi _ => ?_
  rw [List.length_map] at hi
  rw [List.getElem_map, List.getElem_range]
  exact h.position_eq i _ (List.getElem?_eq_getElem hi)

/-- **The expected parameters stand in the order of their positions.** -/
theorem pairwise_position_lt (h : s.IsRegular) :
    (s.expected.map Parameter.position).Pairwise (· < ·) := by
  have hsub : (s.expected.map Parameter.position).Sublist (List.range s.parameters.length) :=
    h.map_position ▸ List.filter_sublist.map Parameter.position
  exact List.pairwise_lt_range.sublist hsub

theorem nodup_expected_positions (h : s.IsRegular) :
    (s.expected.map Parameter.position).Nodup :=
  h.pairwise_position_lt.imp Nat.ne_of_lt

theorem nodup_expected_names (h : s.IsRegular) : (s.expected.map Parameter.name).Nodup :=
  h.names_nodup.sublist (List.filter_sublist.map Parameter.name)

theorem nodup_expected (h : s.IsRegular) : s.expected.Nodup :=
  h.nodup_expected_names.of_map Parameter.name

end Signature.IsRegular

theorem Signature.isRegular_iff {s : Signature} : s.IsRegular ↔
    s.parameters.map Parameter.position = List.range s.parameters.length ∧
      (s.parameters.map Parameter.name).Nodup := by
  refine ⟨fun h => ⟨h.map_position, h.names_nodup⟩, fun ⟨hpositions, hnames⟩ => ⟨?_, hnames⟩⟩
  intro i p hp
  have hi := (List.getElem?_eq_some_iff.mp hp).1
  have hposition : (s.parameters.map Parameter.position)[i]? = some p.position := by
    rw [List.getElem?_map, hp, Option.map_some]
  rw [hpositions, List.getElem?_range hi] at hposition
  exact (Option.some.inj hposition).symm

instance (s : Signature) : Decidable s.IsRegular :=
  decidable_of_iff _ Signature.isRegular_iff.symm

/-! ## Names -/

namespace Subject

open Text

/-- The name looks like an identifier and has no star in front. -/
def IsPlainName (name : String) : Prop :=
  isIdentifierLike name = true ∧ name.toList.head? ≠ some '*'

theorem dropStars_eq_self {s : List Char} (h : s.head? ≠ some '*') : dropStars s = s := by
  unfold dropStars
  split
  · exact absurd rfl h
  · exact absurd rfl h
  · rfl

theorem isIdentifier_of_isPlainName {name : String} (h : IsPlainName name) :
    isIdentifier name.toList = true := by
  have hlike := h.1
  rwa [isIdentifierLike, dropStars_eq_self h.2] at hlike

theorem ne_nil_of_isPlainName {name : String} (h : IsPlainName name) : name.toList ≠ [] := by
  intro hnil
  have hid := isIdentifier_of_isPlainName h
  rw [hnil] at hid
  exact absurd hid (by decide)

/-- **A plain name is made of word characters.** -/
theorem isWord_of_mem_plainName {name : String} (h : IsPlainName name) :
    ∀ c ∈ name.toList, isWord c = true := by
  have hid := isIdentifier_of_isPlainName h
  rcases hs : name.toList with _ | ⟨c, s⟩
  · nofun
  rw [hs] at hid
  simp only [isIdentifier, Bool.and_eq_true, List.all_eq_true] at hid
  intro b hb
  rcases List.mem_cons.mp hb with rfl | hb
  · exact hid.1.1
  · exact hid.2 b hb

theorem not_mem_plainName {name : String} (h : IsPlainName name) {c : Char}
    (hc : isWord c = false) : c ∉ name.toList := by
  intro hmem
  rw [isWord_of_mem_plainName h c hmem] at hc
  exact absurd hc (by decide)

/-! ## Resolving a name -/

theorem starsOf_eq_nil {s : List Char} (h : s.head? ≠ some '*') :
    (s.takeWhile fun c => c == '*') = [] ∧ (s.dropWhile fun c => c == '*') = s := by
  rcases s with _ | ⟨c, s⟩
  · exact ⟨rfl, rfl⟩
  · have hc : ¬(c == '*') = true := fun he => h (by simp [eq_of_beq he])
    exact ⟨List.takeWhile_cons_of_neg hc, List.dropWhile_cons_of_neg hc⟩

/-- **A parameter is found under its own name**, unless that starts with a star. -/
theorem resolve?_of_head? {expected : List Parameter}
    (hnames : (expected.map Parameter.name).Nodup) {p : Parameter} (hp : p ∈ expected)
    (hname : p.name.toList.head? ≠ some '*') : resolve? expected p.name = some p := by
  have hanswers : ∀ q, answersTo [] p.name.toList q = true ↔ q.name = p.name := fun q => by
    simp [answersTo, String.toList_inj]
  simp only [resolve?, starsOf_eq_nil hname]
  rcases hfind : expected.find? (answersTo [] p.name.toList) with _ | q
  · exact absurd ((hanswers p).mpr rfl) (List.find?_eq_none.mp hfind p hp)
  · have hq := (hanswers q).mp (List.find?_some hfind)
    rw [List.inj_on_of_nodup_map hnames (List.mem_of_find?_eq_some hfind) hp hq]

theorem resolve?_name {expected : List Parameter} (hnames : (expected.map Parameter.name).Nodup)
    {p : Parameter} (hp : p ∈ expected) (hname : IsPlainName p.name) :
    resolve? expected p.name = some p :=
  resolve?_of_head? hnames hp hname.2

end Subject

end DocAudit
