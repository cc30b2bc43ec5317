import DocAudit.Docstring
import DocAudit.Proofs.GenericArguments
import Mathlib.Data.List.TakeWhile

/-!
# Proofs/StringLiterals — a string literal is its letters and its content between quotes

Four styles of quotes are tried one after the other, and the first that stands at both ends of what
follows the letters is taken.  A style that is tried later is shorter, or as long and of another
character (`pairwise_quoteStyles`), so the one that is taken is the longest that fits: `Wraps` says
what a literal looks like then, and no other text has a content (`literalValue_eq_some_iff`).  Three
quotes are always the longest, and a single one is if the content does not start with it
(`longest_of_head?`).

Lengths count characters here.  Counted in bytes a text is longer only if it has a character that is
no quote, and then the quotes at its two ends do not overlap (`mem_of_overlap`).  So the same styles
fit when lengths are bytes, and the content is cut out between two ends of characters
(`sliceLiteral_eq`).
-/

namespace DocAudit.Docstring

open DocAudit.TypeExpr (byteSize byteSize_append byteSize_eq_length cutAt cutAt_append slice
  slice_append ScanFault)

/-! ## Between two quotes -/

theorem quote_at_ends (quote content : List Char) :
    quote.isPrefixOf (quote ++ content ++ quote) = true ∧
      quote.isSuffixOf (quote ++ content ++ quote) = true := by
  rw [List.isPrefixOf_iff_prefix, List.isSuffixOf_iff_suffix]
  exact ⟨⟨content ++ quote, (List.append_assoc _ _ _).symm⟩, List.suffix_append _ _⟩

theorem between_eq_some_iff {quote s content : List Char} :
    between quote s = some content ↔ s = quote ++ content ++ quote := by
  constructor
  · intro h
    rw [between] at h
    split at h
    · rename_i hfits
      obtain ⟨hlength, hopens, hcloses⟩ := hfits
      obtain ⟨t, rfl⟩ := List.isPrefixOf_iff_prefix.mp hopens
      -- The closing quotes lie in what follows the opening ones, since there is room for both.
      have hclosing : quote <:+ t := by
        refine List.suffix_of_suffix_length_le (List.isSuffixOf_iff_suffix.mp hcloses)
          (List.suffix_append quote t) ?_
        rw [List.length_append] at hlength
        omega
      obtain ⟨inner, rfl⟩ := hclosing
      have hroom : (quote ++ (inner ++ quote)).length - 2 * quote.length = inner.length := by
        simp only [List.length_append]
        omega
      rw [hroom, List.drop_left, List.take_left] at h
      rw [← Option.some.inj h, List.append_assoc]
    · cases h
  · rintro rfl
    have hlength : (quote ++ content ++ quote).length = 2 * quote.length + content.length := by
      simp only [List.length_append]
      omega
    rw [between, if_pos ⟨by omega, quote_at_ends quote content⟩, hlength, Nat.add_sub_cancel_left,
      List.append_assoc, List.drop_left, List.take_left]

theorem between_eq_none_iff {quote s : List Char} :
    between quote s = none ↔ ∀ content, s ≠ quote ++ content ++ quote := by
  rw [Option.eq_none_iff_forall_ne_some]
  exact forall_congr' fun content => not_congr between_eq_some_iff

/-! ## The styles -/

/-- The styles are one or three of the same quote. -/
theorem mem_quoteStyles_iff {quote : List Char} :
    quote ∈ quoteStyles ↔ ∃ c ∈ ['"', '\''], quote = [c] ∨ quote = [c, c, c] := by
  simp only [quoteStyles, List.mem_cons, List.not_mem_nil, or_false, exists_eq_or_imp,
    exists_eq_left]
  tauto

/-- **A style is shorter than those before it, or as long and starts with another character.** -/
theorem pairwise_quoteStyles :
    quoteStyles.Pairwise fun before style =>
      style.length < before.length ∨
        style.length = before.length ∧ style.head? ≠ before.head? := by
  decide

/-- The text in quotes is not one in longer quotes. -/
def Longest (quote content : List Char) : Prop :=
  ∀ longer ∈ quoteStyles, quote.length < longer.length →
    ∀ inner, quote ++ content ++ quote ≠ longer ++ inner ++ longer

/-- **The style that is taken is the longest one that stands at both ends.** -/
theorem findSome?_between_eq_some_iff {s content : List Char} :
    (quoteStyles.findSome? fun quote => between quote s) = some content ↔
      ∃ quote ∈ quoteStyles, s = quote ++ content ++ quote ∧ Longest quote content := by
  constructor
  · intro h
    obtain ⟨front, quote, back, hstyles, hquote, hfront⟩ := List.findSome?_eq_some_iff.mp h
    obtain rfl := between_eq_some_iff.mp hquote
    refine ⟨quote, by simp [hstyles], rfl, fun longer hlonger hlength inner => ?_⟩
    have hpairwise := pairwise_quoteStyles
    rw [hstyles, List.pairwise_append, List.pairwise_cons] at hpairwise
    rw [hstyles, List.mem_append, List.mem_cons] at hlonger
    rcases hlonger with hmem | rfl | hmem
    · exact between_eq_none_iff.mp (hfront longer hmem) inner
    · exact absurd hlength (Nat.lt_irrefl _)
    · have := hpairwise.2.1.1 longer hmem
      omega
  · rintro ⟨quote, hquote, rfl, hlongest⟩
    obtain ⟨front, back, hstyles⟩ := List.append_of_mem hquote
    refine List.findSome?_eq_some_iff.mpr
      ⟨front, quote, back, hstyles, between_eq_some_iff.mpr rfl, fun style hstyle => ?_⟩
    refine between_eq_none_iff.mpr fun inner hinner => ?_
    have hpairwise := pairwise_quoteStyles
    rw [hstyles, List.pairwise_append] at hpairwise
    rcases hpairwise.2.2 style hstyle quote List.mem_cons_self with hlength | ⟨hlength, hhead⟩
    · exact hlongest style (by simp [hstyles, hstyle]) hlength inner hinner
    · -- Styles of the same length at the front of one text are the same.
      rw [List.append_assoc, List.append_assoc] at hinner
      rw [(List.append_inj hinner hlength).1] at hhead
      exact hhead rfl

/-! ## Whole literals -/

theorem isQuote_iff {c : Char} : isQuote c = true ↔ c ∈ ['"', '\''] := by
  simp [isQuote]

theorem any_isBytesOrFormat_iff {letters : List Char} :
    letters.any isBytesOrFormat = true ↔ ∃ c ∈ letters, c ∈ ['b', 'B', 'f', 'F'] := by
  simp [isBytesOrFormat, or_assoc]

/-- The literal is its letters and the content between two equal quotes, the longest ones that stand
at both ends. -/
structure Wraps (literal letters quote content : List Char) : Prop where
  parts : literal = letters ++ quote ++ content ++ quote
  letters_apart : ∀ c ∈ letters, c ∉ ['"', '\'']
  style : quote ∈ quoteStyles
  longest : Longest quote content

/-- The letters of a literal end where its quotes start. -/
theorem literalValue_append {letters quote rest : List Char}
    (hletters : ∀ c ∈ letters, c ∉ ['"', '\'']) (hquote : quote ∈ quoteStyles) :
    literalValue (letters ++ (quote ++ rest))
      = if letters.any isBytesOrFormat then none
        else quoteStyles.findSome? fun style => between style (quote ++ rest) := by
  have hpass : ∀ c ∈ letters, (!isQuote c) = true := fun c hc => by
    rw [Bool.not_eq_true', ← Bool.not_eq_true, isQuote_iff]
    exact hletters c hc
  obtain ⟨c, tail, hcons, hc⟩ : ∃ c tail, quote ++ rest = c :: tail ∧ isQuote c = true := by
    obtain ⟨c, hc, rfl | rfl⟩ := mem_quoteStyles_iff.mp hquote
    all_goals exact ⟨c, _, rfl, isQuote_iff.mpr hc⟩
  have hstop : ¬ (!isQuote c) = true := by simp [hc]
  rw [literalValue, List.takeWhile_append_of_pos hpass, List.dropWhile_append_of_pos hpass, hcons,
    List.takeWhile_cons, if_neg hstop, List.dropWhile_cons, if_neg hstop, List.append_nil]

/-- **A literal has the content that it wraps**, unless its letters make it one of bytes or a
formatted one; and no other text has a content. -/
theorem literalValue_eq_some_iff {literal content : List Char} :
    literalValue literal = some content ↔
      ∃ letters quote, Wraps literal letters quote content ∧
        ∀ c ∈ letters, c ∉ ['b', 'B', 'f', 'F'] := by
  constructor
  · intro h
    rw [literalValue] at h
    split at h
    · cases h
    · rename_i hplain
      obtain ⟨quote, hquote, hquoted, hlongest⟩ := findSome?_between_eq_some_iff.mp h
      refine ⟨literal.takeWhile fun c => !isQuote c, quote, ⟨?_, fun c hc => ?_, hquote, hlongest⟩,
        ?_⟩
      · rw [List.append_assoc, List.append_assoc, ← List.append_assoc quote, ← hquoted,
          List.takeWhile_append_dropWhile]
      · have hpass : (!isQuote c) = true := List.mem_takeWhile_imp (p := fun c => !isQuote c) hc
        rw [← isQuote_iff]
        simpa using hpass
      · rw [any_isBytesOrFormat_iff] at hplain
        exact fun c hc hmark => hplain ⟨c, hc, hmark⟩
  · rintro ⟨letters, quote, ⟨rfl, hletters, hquote, hlongest⟩, hplain⟩
    have hany : ¬ letters.any isBytesOrFormat = true := by
      rw [any_isBytesOrFormat_iff]
      exact fun ⟨c, hc, hmark⟩ => hplain c hc hmark
    rw [List.append_assoc, List.append_assoc, literalValue_append hletters hquote, if_neg hany,
      findSome?_between_eq_some_iff]
    exact ⟨quote, hquote, (List.append_assoc _ _ _).symm, hlongest⟩

/-- Three quotes are the longest, and a single one is if the content does not start with it. -/
theorem longest_of_head? {c : Char} {quote content : List Char}
    (hquote : quote = [c] ∨ quote = [c, c, c])
    (hcontent : quote = [c] → content.head? ≠ some c) : Longest quote content := by
  intro longer hlonger hlength inner hinner
  obtain ⟨d, -, hform⟩ := mem_quoteStyles_iff.mp hlonger
  rcases hquote with rfl | rfl
  · obtain rfl : longer = [d, d, d] :=
      hform.resolve_left fun hsingle => by simp [hsingle] at hlength
    -- The second of the three quotes is the first character of the content.
    rcases content with _ | ⟨e, content⟩
    · simp at hinner
    · simp only [List.cons_append, List.nil_append, List.cons.injEq] at hinner
      exact hcontent rfl (by simp [hinner.1, hinner.2.1])
  · rcases hform with rfl | rfl <;> simp at hlength

/-! ## Literals as bytes -/

/-- The content between the given quotes, cut out between two byte indices. -/
def sliceBetween (quote s : List Char) : Except ScanFault (Option (List Char)) :=
  if 2 * byteSize quote ≤ byteSize s ∧ quote.isPrefixOf s ∧ quote.isSuffixOf s then
    (slice (byteSize quote) (byteSize s - byteSize quote) s).map some
  else .ok none

/-- The content of a string literal, with the letters and the content cut at byte indices. -/
def sliceLiteral (literal : List Char) : Except ScanFault (Option (List Char)) :=
  match cutAt (byteSize (literal.takeWhile fun c => !isQuote c)) literal with
  | .error fault => .error fault
  | .ok (letters, quoted) =>
    if letters.any isBytesOrFormat then .ok none
    else quoteStyles.findSomeM? fun quote => sliceBetween quote quoted

theorem utf8Size_of_mem_quoteStyles {quote : List Char} (h : quote ∈ quoteStyles) :
    ∀ c ∈ quote, c.utf8Size = 1 := by
  obtain ⟨c, hc, hform⟩ := mem_quoteStyles_iff.mp h
  have hbyte : c.utf8Size = 1 := by
    simp only [List.mem_cons, List.not_mem_nil, or_false] at hc
    rcases hc with rfl | rfl <;> rfl
  rcases hform with rfl | rfl <;> simp [hbyte]

/-- Where the quotes at the two ends overlap, the text holds nothing but quotes. -/
theorem mem_of_overlap {quote s : List Char} (hopens : quote <+: s) (hcloses : quote <:+ s)
    (hlength : s.length < 2 * quote.length) : ∀ c ∈ s, c ∈ quote := by
  obtain ⟨t, rfl⟩ := hopens
  have ht : t <:+ quote := by
    refine List.suffix_of_suffix_length_le (List.suffix_append quote t) hcloses ?_
    rw [List.length_append] at hlength
    omega
  exact fun c hc => (List.mem_append.mp hc).elim id fun hmem => ht.subset hmem

theorem sliceBetween_eq {quote : List Char} (hbytes : ∀ c ∈ quote, c.utf8Size = 1) (s : List Char) :
    sliceBetween quote s = .ok (between quote s) := by
  cases hbetween : between quote s with
  | some content =>
    obtain rfl := between_eq_some_iff.mp hbetween
    have hsize : byteSize (quote ++ content ++ quote)
        = byteSize quote + byteSize content + byteSize quote := by
      rw [byteSize_append, byteSize_append]
    rw [sliceBetween, if_pos ⟨by omega, quote_at_ends quote content⟩, hsize, Nat.add_sub_cancel,
      List.append_assoc, slice_append]
    rfl
  | none =>
    rw [sliceBetween, if_neg]
    rintro ⟨hsize, hopens, hcloses⟩
    have hlength : s.length < 2 * quote.length := by
      by_contra hroom
      rw [between, if_pos ⟨not_lt.mp hroom, hopens, hcloses⟩] at hbetween
      cases hbetween
    have hmem := mem_of_overlap (List.isPrefixOf_iff_prefix.mp hopens)
      (List.isSuffixOf_iff_suffix.mp hcloses) hlength
    rw [byteSize_eq_length hbytes, byteSize_eq_length fun c hc => hbytes c (hmem c hc)] at hsize
    omega

theorem findSomeM?_ok {styles : List (List Char)}
    {f : List Char → Except ScanFault (Option (List Char))} {g : List Char → Option (List Char)}
    (h : ∀ style ∈ styles, f style = .ok (g style)) :
    styles.findSomeM? f = .ok (styles.findSome? g) := by
  induction styles with
  | nil => rfl
  | cons style styles ih =>
    rw [List.forall_mem_cons] at h
    rw [List.findSomeM?_cons, h.1, List.findSome?_cons]
    cases g style with
    | none => exact ih h.2
    | some content => rfl

/-- **Cutting at byte indices has no fault on any text and finds the same content.** -/
theorem sliceLiteral_eq (literal : List Char) :
    sliceLiteral literal = .ok (literalValue literal) := by
  have hcut := cutAt_append (literal.takeWhile fun c => !isQuote c)
    (literal.dropWhile fun c => !isQuote c)
  rw [List.takeWhile_append_dropWhile] at hcut
  rw [sliceLiteral, hcut, literalValue]
  dsimp only
  split
  · rfl
  · exact findSomeM?_ok fun quote hquote =>
      sliceBetween_eq (utf8Size_of_mem_quoteStyles hquote) _

/-! ## Exactness -/

/-- **String literals are unwrapped exactly** — in single or triple quotes of either kind the
content comes back as it is written, unless one of the letters in front makes the literal one of
bytes or a formatted one; any text without quotes may stand for the letters.  A single quote has to
be followed by another character, for otherwise it may be the first of three.  No text that wraps
nothing has a content, and cutting by bytes finds it without a fault. -/
theorem string_literals_exact :
    (∀ letters content : List Char, (∀ d ∈ letters, d ∉ ['"', '\'']) →
      ∀ c ∈ ['"', '\''], ∀ quote ∈ [[c], [c, c, c]], (quote = [c] → content.head? ≠ some c) →
        ((∃ d ∈ letters, d ∈ ['b', 'B', 'f', 'F']) →
          literalValue (letters ++ quote ++ content ++ quote) = none) ∧
        ((∀ d ∈ letters, d ∉ ['b', 'B', 'f', 'F']) →
          literalValue (letters ++ quote ++ content ++ quote) = some content)) ∧
    (∀ literal content : List Char, literalValue literal = some content ↔
      ∃ letters quote, Wraps literal letters quote content ∧
        ∀ d ∈ letters, d ∉ ['b', 'B', 'f', 'F']) ∧
    ∀ literal : List Char, sliceLiteral literal = .ok (literalValue literal) := by
  refine ⟨fun letters content hletters c hc quote hquote hcontent => ?_,
    fun _ _ => literalValue_eq_some_iff, sliceLiteral_eq⟩
  have hform : quote = [c] ∨ quote = [c, c, c] := by simpa using hquote
  have hstyle : quote ∈ quoteStyles := mem_quoteStyles_iff.mpr ⟨c, hc, hform⟩
  refine ⟨fun hmarked => ?_, fun hplain => ?_⟩
  · rw [List.append_assoc, List.append_assoc, literalValue_append hletters hstyle,
      if_pos (any_isBytesOrFormat_iff.mpr hmarked)]
  · have hwraps : Wraps (letters ++ quote ++ content ++ quote) letters quote content :=
      ⟨rfl, hletters, hstyle, longest_of_head? hform hcontent⟩
    exact literalValue_eq_some_iff.mpr ⟨letters, quote, hwraps, hplain⟩

/-- Three quotes around a content that starts with two of them and ends in a character of three
bytes, behind a letter and in a literal of bytes; and a single quote around a content in the other
ones, and around nothing. -/
theorem string_literals_exact_sample :
    literalValue ("R".toList ++ ['"', '"', '"'] ++ "\"\"é'€".toList ++ ['"', '"', '"'])
      = some "\"\"é'€".toList ∧
    literalValue ("rB".toList ++ ['"', '"', '"'] ++ "\"\"é'€".toList ++ ['"', '"', '"']) = none ∧
    "\"é\"".toList.head? ≠ some '\'' ∧
    literalValue ("u".toList ++ ['\''] ++ "\"é\"".toList ++ ['\'']) = some "\"é\"".toList ∧
    sliceLiteral ([] ++ ['\''] ++ [] ++ ['\'']) = .ok (some []) := by
  obtain ⟨hvalue, -, hslice⟩ := string_literals_exact
  have hother : "\"é\"".toList.head? ≠ some '\'' := by decide
  refine ⟨?_, ?_, hother, ?_, ?_⟩
  · exact (hvalue _ _ (by simp) '"' (by decide) _ (by decide) (by decide)).2 (by simp)
  · exact (hvalue _ _ (by simp) '"' (by decide) _ (by decide) (by decide)).1 (by simp)
  · exact (hvalue _ _ (by simp) '\'' (by decide) _ (by decide) fun _ => hother).2 (by simp)
  · have hempty := (hvalue [] [] (by simp) '\'' (by decide) ['\''] (by decide) (by decide)).2
    rw [hslice, hempty (by simp)]

end DocAudit.Docstring
