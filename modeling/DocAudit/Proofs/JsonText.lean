import DocAudit.Json.Printer
import DocAudit.Json.Reader
import Mathlib.Tactic.SplitIfs

/-!
# Proofs/JsonText — printed values read back

The reader undoes the printer in every style whose breaks are white space (`Style.IsBlank`), so the
compact and the indented text of a value denote the value (`parse?_compact`, `parse?_pretty`).

The proof goes through texts that continue: `ReadsBack st j` says that the reader takes the text of
`j` off the front of whatever follows it, as long as no numeral follows, and that it needs no more
fuel than twice the length of the text.  Strings, numbers and the constants read back by themselves;
an array or object does if its parts do (`items?_renderItems`, `members?_renderMembers`).
-/

namespace DocAudit.Json

/-! ## White space -/

/-- Nothing but white space between tokens. -/
def IsGap (s : List Char) : Prop :=
  ∀ c ∈ s, isSpace c = true

theorem skipSpace_append {gap : List Char} (h : IsGap gap) (s : List Char) :
    skipSpace (gap ++ s) = skipSpace s :=
  List.dropWhile_append_of_pos h

theorem skipSpace_cons {c : Char} (h : isSpace c = false) (s : List Char) :
    skipSpace (c :: s) = c :: s :=
  List.dropWhile_cons_of_neg (by simp [h])

theorem value?_append {gap : List Char} (h : IsGap gap) (fuel : Nat) (s : List Char) :
    value? fuel (gap ++ s) = value? fuel s := by
  cases fuel with
  | zero => rw [value?, value?]
  | succ fuel => rw [value?, value?, skipSpace_append h]

theorem items?_append {gap : List Char} (h : IsGap gap) (fuel : Nat) (s : List Char) :
    items? fuel (gap ++ s) = items? fuel s := by
  cases fuel with
  | zero => rw [items?, items?]
  | succ fuel => rw [items?, items?, value?_append h]

theorem members?_append {gap : List Char} (h : IsGap gap) (fuel : Nat) (s : List Char) :
    members? fuel (gap ++ s) = members? fuel s := by
  cases fuel with
  | zero => rw [members?, members?]
  | succ fuel => rw [members?, members?, skipSpace_append h]

/-! ## Strings -/

theorem hexDigit?_digitChar : ∀ n < 16, hexDigit? (Nat.digitChar n) = some n := by
  decide

theorem unicode?_hexPair {c : Char} (h : c.toNat < 0x20) (s : List Char) :
    unicode? ('0' :: '0' :: (hexPair c.toNat ++ s)) = some (c, s) := by
  have hhigh := hexDigit?_digitChar (c.toNat / 16) (by omega)
  have hlow := hexDigit?_digitChar (c.toNat % 16) (by omega)
  have hzero : hexDigit? '0' = some 0 := rfl
  have hunit : hexUnit? ('0' :: '0' :: (hexPair c.toNat ++ s)) = some (c.toNat, s) := by
    simp only [hexPair, hexUnit?, List.cons_append, List.nil_append, hhigh, hlow, hzero,
      Option.bind_eq_bind, Option.bind_some]
    congr 2
    omega
  have hrange : ¬(0xd800 ≤ c.toNat ∧ c.toNat < 0xdc00) := by omega
  have hrange' : ¬(0xdc00 ≤ c.toNat ∧ c.toNat < 0xe000) := by omega
  simp only [unicode?, hunit, Option.bind_eq_bind, Option.bind_some, hrange, hrange', if_false,
    Char.ofNat_toNat]

theorem chars?_backslash {c : Char} {s s' : List Char} (h : escaped? s = some (c, s'))
    (fuel : Nat) :
    chars? (fuel + 1) ('\\' :: s) = (chars? fuel s').map fun p => (c :: p.1, p.2) := by
  have hquote : '\\' ≠ '"' := by decide
  simp only [chars?, if_neg hquote, if_true, h, Option.bind_eq_bind, Option.bind_some]
  rcases chars? fuel s' with _ | ⟨cs, rest⟩ <;> rfl

/-- **A character reads back from its escape**, and takes one unit of fuel. -/
theorem chars?_escape (c : Char) (fuel : Nat) (s : List Char) :
    chars? (fuel + 1) (escape c ++ s) = (chars? fuel s).map fun p => (c :: p.1, p.2) := by
  unfold escape
  split_ifs with hquote hbackslash hnewline hreturn htab hback hfeed hcontrol
  · exact chars?_backslash (by rw [hquote]; rfl) fuel
  · exact chars?_backslash (by rw [hbackslash]; rfl) fuel
  · exact chars?_backslash (by rw [hnewline]; rfl) fuel
  · exact chars?_backslash (by rw [hreturn]; rfl) fuel
  · exact chars?_backslash (by rw [htab]; rfl) fuel
  · exact chars?_backslash (by rw [← Char.ofNat_toNat c, hback]; rfl) fuel
  · exact chars?_backslash (by rw [← Char.ofNat_toNat c, hfeed]; rfl) fuel
  · have hescaped : escaped? ('u' :: '0' :: '0' :: (hexPair c.toNat ++ s)) = some (c, s) :=
      unicode?_hexPair hcontrol s
    exact chars?_backslash hescaped fuel
  · rw [List.singleton_append, chars?, if_neg hquote, if_neg hbackslash, if_neg hcontrol]
    rcases chars? fuel s with _ | ⟨cs, rest⟩ <;> rfl

theorem chars?_flatMap_escape (cs : List Char) {fuel : Nat} (h : cs.length < fuel)
    (rest : List Char) : chars? fuel (cs.flatMap escape ++ '"' :: rest) = some (cs, rest) := by
  induction cs generalizing fuel with
  | nil =>
    obtain ⟨fuel, rfl⟩ := Nat.exists_eq_add_of_lt h
    simp [chars?]
  | cons c cs ih =>
    rcases fuel with _ | fuel
    · exact absurd h (Nat.not_lt_zero _)
    · rw [List.flatMap_cons, List.append_assoc, chars?_escape, ih (by simpa using h)]
      rfl

theorem length_le_length_flatMap_escape (cs : List Char) :
    cs.length ≤ (cs.flatMap escape).length := by
  induction cs with
  | nil => exact Nat.le_refl 0
  | cons c cs ih =>
    have hc : 0 < (escape c).length := by
      unfold escape
      split_ifs <;> simp
    rw [List.flatMap_cons, List.length_append, List.length_cons]
    omega

/-- A string reads back from its quoted text. -/
theorem text?_quoted (s : String) (rest : List Char) :
    text? (s.toList.flatMap escape ++ '"' :: rest) = some (s, rest) := by
  have hlength : s.toList.length < (s.toList.flatMap escape ++ '"' :: rest).length := by
    have := length_le_length_flatMap_escape s.toList
    rw [List.length_append, List.length_cons]
    omega
  simp only [text?, chars?_flatMap_escape s.toList hlength, Option.map_some, String.ofList_toList]

/-! ## Numbers -/

theorem isNumeral_of_isDigit {c : Char} (h : c.isDigit = true) : isNumeral c = true := by
  simp [isNumeral, h]

theorem isDigit_of_mem_toDigits {n : Nat} {c : Char} (h : c ∈ Nat.toDigits 10 n) :
    c.isDigit = true :=
  Nat.isDigit_of_mem_toDigits (by decide) (by decide) h

theorem toDigits_eq_cons (n : Nat) :
    ∃ d ds, Nat.toDigits 10 n = d :: ds ∧ d.isDigit = true := by
  obtain ⟨d, ds, hds⟩ := List.exists_cons_of_ne_nil (Nat.toDigits_ne_nil (n := n) (b := 10))
  exact ⟨d, ds, hds, isDigit_of_mem_toDigits (hds ▸ List.mem_cons_self)⟩

/-- Only zero itself starts with a zero. -/
theorem head?_toDigits_ne_zero {n : Nat} (h : 0 < n) : (Nat.toDigits 10 n).head? ≠ some '0' := by
  induction n using Nat.strongRecOn with
  | ind n ih =>
    rw [Nat.toDigits_eq_if (by decide)]
    split
    · rename_i hlt
      have hdigit : ∀ d < 10, 0 < d → Nat.digitChar d ≠ '0' := by decide
      simpa using hdigit n hlt h
    · rename_i hge
      have hhead := ih (n / 10) (by omega) (by omega)
      obtain ⟨d, ds, hds, -⟩ := toDigits_eq_cons (n / 10)
      rw [hds] at hhead ⊢
      exact hhead

theorem isInteger_toDigits (n : Nat) : isInteger (Nat.toDigits 10 n) = true := by
  have hdigits : isDigits (Nat.toDigits 10 n) = true := by
    rw [isDigits, Bool.and_eq_true, List.all_eq_true]
    exact ⟨by simp [Nat.toDigits_ne_nil], fun c hc => isDigit_of_mem_toDigits hc⟩
  rw [isInteger, hdigits, Bool.true_and, Bool.or_eq_true]
  rcases Nat.eq_zero_or_pos n with rfl | hpos
  · exact Or.inl (by rw [Nat.toDigits_zero]; rfl)
  · exact Or.inr (by simpa using head?_toDigits_ne_zero hpos)

theorem numeral?_toDigits (n : Nat) : numeral? (Nat.toDigits 10 n) = some (natural n) := by
  have hvalue : (Nat.toDigits 10 n).foldl (fun n c => 10 * n + (c.toNat - 48)) 0 = n :=
    Nat.ofDigitChars_ten_toDigits
  rw [numeral?, if_pos (isInteger_toDigits n), hvalue]

/-! ## What may follow a value -/

/-- The text goes on with something that is no part of a numeral. -/
def EndsNumeral (rest : List Char) : Prop :=
  ∀ c ∈ rest.head?, isNumeral c = false

theorem not_isNumeral_of_isSpace {c : Char} (h : isSpace c = true) : isNumeral c = false := by
  simp only [isSpace, Bool.or_eq_true, beq_iff_eq] at h
  rcases h with ((rfl | rfl) | rfl) | rfl <;> decide

theorem endsNumeral_nil : EndsNumeral [] := nofun

theorem endsNumeral_cons {c : Char} (h : isNumeral c = false) (s : List Char) :
    EndsNumeral (c :: s) := by
  rintro c ⟨⟩
  exact h

theorem endsNumeral_append {gap : List Char} (hgap : IsGap gap) {s : List Char}
    (h : EndsNumeral s) : EndsNumeral (gap ++ s) := by
  rcases gap with _ | ⟨c, gap⟩
  · exact h
  · exact endsNumeral_cons (not_isNumeral_of_isSpace (hgap c List.mem_cons_self)) _

theorem not_isSpace_of_isDigit {c : Char} (h : c.isDigit = true) : isSpace c = false := by
  rw [Bool.eq_false_iff]
  intro hspace
  exact absurd (isNumeral_of_isDigit h) (by simp [not_isNumeral_of_isSpace hspace])

/-- A digit opens neither a string nor an array, an object or a constant. -/
theorem value?_of_isDigit {d : Char} (h : d.isDigit = true) (fuel : Nat) (s : List Char) :
    value? (fuel + 1) (d :: s)
      = (numeral? ((d :: s).takeWhile isNumeral)).map
          fun v => (v, (d :: s).dropWhile isNumeral) := by
  rw [value?, skipSpace_cons (not_isSpace_of_isDigit h)]
  split <;> simp_all

/-- A numeral is taken as far as it goes. -/
theorem value?_toDigits (n : Nat) {rest : List Char} (hrest : EndsNumeral rest) (fuel : Nat) :
    value? (fuel + 1) (Nat.toDigits 10 n ++ rest) = some (natural n, rest) := by
  have hnumerals : ∀ c ∈ Nat.toDigits 10 n, isNumeral c = true := fun c hc =>
    isNumeral_of_isDigit (isDigit_of_mem_toDigits hc)
  have hstop : rest.takeWhile isNumeral = [] ∧ rest.dropWhile isNumeral = rest := by
    rcases rest with _ | ⟨c, rest⟩
    · exact ⟨rfl, rfl⟩
    · simp [hrest c rfl]
  have htake : (Nat.toDigits 10 n ++ rest).takeWhile isNumeral = Nat.toDigits 10 n := by
    rw [List.takeWhile_append_of_pos hnumerals, hstop.1, List.append_nil]
  have hdrop : (Nat.toDigits 10 n ++ rest).dropWhile isNumeral = rest := by
    rw [List.dropWhile_append_of_pos hnumerals, hstop.2]
  obtain ⟨d, ds, hds, hd⟩ := toDigits_eq_cons n
  have hread := value?_of_isDigit hd fuel (ds ++ rest)
  rwa [← List.cons_append, ← hds, htake, hdrop, numeral?_toDigits] at hread

/-! ## Values that are written with digits alone -/

/-- Every number in the value is written with digits alone, as those of records are. -/
inductive HasNaturals : Json → Prop
  | null : HasNaturals null
  | bool (b : Bool) : HasNaturals (bool b)
  | natural (n : Nat) : HasNaturals (natural n)
  | string (s : String) : HasNaturals (string s)
  | array {items : List Json} (h : ∀ j ∈ items, HasNaturals j) : HasNaturals (array items)
  | object {members : List (String × Json)} (h : ∀ m ∈ members, HasNaturals m.2) :
      HasNaturals (object members)

/-- What the style puts between tokens is white space. -/
structure Style.IsBlank (st : Style) : Prop where
  lineBreak : ∀ level, IsGap (st.lineBreak level)
  colon : ∃ gap, st.colon = ':' :: gap ∧ IsGap gap

theorem Style.isBlank_compact : Style.compact.IsBlank where
  lineBreak _ := nofun
  colon := ⟨[], rfl, nofun⟩

theorem Style.isBlank_pretty : Style.pretty.IsBlank where
  lineBreak level := by
    intro c hc
    rcases List.mem_cons.mp hc with rfl | hc
    · rfl
    · rw [List.eq_of_mem_replicate hc]
      rfl
  colon := ⟨[' '], rfl, by simp [IsGap, isSpace]⟩

variable {st : Style}

/-- The text of a value starts with a character that is neither white nor a closing bracket. -/
theorem render_eq_cons (st : Style) (level : Nat) {j : Json} (h : HasNaturals j) :
    ∃ c s, render st level j = c :: s ∧ isSpace c = false ∧ c ≠ ']' := by
  cases h with
  | null => exact ⟨'n', _, by rw [render]; rfl, by decide, by decide⟩
  | bool b =>
    cases b
    · exact ⟨'f', _, by rw [render]; rfl, by decide, by decide⟩
    · exact ⟨'t', _, by rw [render]; rfl, by decide, by decide⟩
  | natural n =>
    obtain ⟨d, ds, hds, hd⟩ := toDigits_eq_cons n
    refine ⟨d, ds, by rw [render, hds], not_isSpace_of_isDigit hd, ?_⟩
    rintro rfl
    exact absurd hd (by decide)
  | string s => exact ⟨'"', _, by rw [render, quoted]; rfl, by decide, by decide⟩
  | @array items _ =>
    rcases items with _ | ⟨item, items⟩ <;> exact ⟨'[', _, by rw [render], by decide, by decide⟩
  | @object members _ =>
    rcases members with _ | ⟨⟨key, value⟩, members⟩ <;>
      exact ⟨'\x7b', _, by rw [render], by decide, by decide⟩

theorem length_render_pos (st : Style) (level : Nat) {j : Json} (h : HasNaturals j) :
    0 < (render st level j).length := by
  obtain ⟨c, s, hrender, -⟩ := render_eq_cons st level h
  rw [hrender]
  exact Nat.succ_pos _

/-- The reader takes the text of the value off the front of a text, whatever follows. -/
def ReadsBack (st : Style) (j : Json) : Prop :=
  ∀ (level fuel : Nat) (rest : List Char), 2 * (render st level j).length ≤ fuel →
    EndsNumeral rest → value? fuel (render st level j ++ rest) = some (j, rest)

/-- A text is never empty, so there is fuel for a first step. -/
theorem readsBack_of_step {j : Json} (hj : HasNaturals j)
    (h : ∀ (level fuel : Nat) (rest : List Char), 2 * (render st level j).length ≤ fuel + 1 →
      EndsNumeral rest → value? (fuel + 1) (render st level j ++ rest) = some (j, rest)) :
    ReadsBack st j := by
  intro level fuel rest hfuel hrest
  have hpos := length_render_pos st level hj
  obtain ⟨fuel, rfl⟩ : ∃ n, fuel = n + 1 := ⟨fuel - 1, by omega⟩
  exact h level fuel rest hfuel hrest

theorem readsBack_null : ReadsBack st null :=
  readsBack_of_step .null fun level fuel rest _ _ => by
    simp [render, value?, skipSpace_cons, isSpace, word?]

theorem readsBack_bool (b : Bool) : ReadsBack st (bool b) :=
  readsBack_of_step (.bool b) fun level fuel rest _ _ => by
    cases b <;> simp [render, value?, skipSpace_cons, isSpace, word?]

theorem readsBack_natural (n : Nat) : ReadsBack st (natural n) :=
  readsBack_of_step (.natural n) fun level fuel rest _ hrest => by
    rw [render]
    exact value?_toDigits n hrest fuel

theorem readsBack_string (s : String) : ReadsBack st (string s) :=
  readsBack_of_step (.string s) fun level fuel rest _ _ => by
    have htext : render st level (string s) ++ rest
        = '"' :: (s.toList.flatMap escape ++ '"' :: rest) := by
      simp [render, quoted]
    rw [htext, value?, skipSpace_cons (by decide)]
    simp only [text?_quoted, Option.map_some]

/-! ## Arrays -/

theorem endsNumeral_renderItems (hst : st.IsBlank) (level : Nat) (items : List Json)
    (rest : List Char) : EndsNumeral (renderItems st level items ++ rest) := by
  rcases items with _ | ⟨item, items⟩
  · rw [renderItems, List.append_assoc]
    exact endsNumeral_append (hst.lineBreak level) (endsNumeral_cons (by decide) _)
  · rw [renderItems]
    exact endsNumeral_cons (by decide) _

/-- **Items read back if each of them does.** -/
theorem items?_renderItems (hst : st.IsBlank) (level : Nat) {item : Json} {items : List Json}
    (hitem : ReadsBack st item) (hitems : ∀ j ∈ items, ReadsBack st j) (fuel : Nat)
    (hfuel : 2 * (render st (level + 1) item ++ renderItems st level items).length ≤ fuel)
    (rest : List Char) :
    items? fuel (render st (level + 1) item ++ (renderItems st level items ++ rest))
      = some (item :: items, rest) := by
  -- Every item takes one unit of fuel and leaves a shorter text behind, so twice the length lasts.
  induction items generalizing item fuel with
  | nil =>
    simp only [renderItems, List.length_append, List.length_singleton] at hfuel
    obtain ⟨fuel, rfl⟩ : ∃ n, fuel = n + 1 := ⟨fuel - 1, by omega⟩
    have hvalue := hitem (level + 1) fuel (renderItems st level [] ++ rest) (by omega)
      (endsNumeral_renderItems hst level [] rest)
    have hclose : skipSpace (renderItems st level [] ++ rest) = ']' :: rest := by
      rw [renderItems, List.append_assoc, skipSpace_append (hst.lineBreak level)]
      exact skipSpace_cons (by decide) rest
    simp only [items?, hvalue, hclose]
  | cons next items ih =>
    simp only [renderItems, List.length_append, List.length_cons] at hfuel
    obtain ⟨fuel, rfl⟩ : ∃ n, fuel = n + 1 := ⟨fuel - 1, by omega⟩
    have hvalue := hitem (level + 1) fuel (renderItems st level (next :: items) ++ rest) (by omega)
      (endsNumeral_renderItems hst level (next :: items) rest)
    have hcomma : skipSpace (renderItems st level (next :: items) ++ rest)
        = ',' :: (st.lineBreak (level + 1) ++
            (render st (level + 1) next ++ (renderItems st level items ++ rest))) := by
      rw [renderItems, List.cons_append, skipSpace_cons (by decide)]
      simp only [List.append_assoc]
    have hnext := ih (hitems next List.mem_cons_self)
      (fun j hj => hitems j (List.mem_cons_of_mem next hj)) fuel
      (by rw [List.length_append]; omega)
    simp only [items?, hvalue, hcomma, items?_append (hst.lineBreak (level + 1)), hnext,
      Option.map_some]

theorem readsBack_array (hst : st.IsBlank) {items : List Json}
    (hplain : ∀ j ∈ items, HasNaturals j) (hitems : ∀ j ∈ items, ReadsBack st j) :
    ReadsBack st (array items) := by
  refine readsBack_of_step (.array hplain) fun level fuel rest hfuel _ => ?_
  rcases items with _ | ⟨item, items⟩
  · simp [render, value?, skipSpace_cons, isSpace]
  · rw [render, List.length_cons, List.length_append, List.length_append] at hfuel
    have hread := items?_renderItems hst level (hitems item List.mem_cons_self)
      (fun j hj => hitems j (List.mem_cons_of_mem item hj)) fuel
      (by rw [List.length_append]; omega) rest
    obtain ⟨c, s, hrender, hspace, hclose⟩ :=
      render_eq_cons st (level + 1) (hplain item List.mem_cons_self)
    have hopen : skipSpace (st.lineBreak (level + 1) ++
        (render st (level + 1) item ++ (renderItems st level items ++ rest)))
          = c :: (s ++ (renderItems st level items ++ rest)) := by
      rw [skipSpace_append (hst.lineBreak (level + 1)), hrender, List.cons_append,
        skipSpace_cons hspace]
    have htext : render st level (array (item :: items)) ++ rest
        = '[' :: (st.lineBreak (level + 1) ++
            (render st (level + 1) item ++ (renderItems st level items ++ rest))) := by
      rw [render]
      simp only [List.cons_append, List.append_assoc]
    rw [htext, value?, skipSpace_cons (by decide)]
    -- The bracket of an empty array cannot be next, because a value starts otherwise.
    simp only [hopen]
    split
    · rename_i h
      cases h
      exact absurd rfl hclose
    · rw [items?_append (hst.lineBreak (level + 1)), hread]
      rfl

/-! ## Objects -/

/-- The text of one member. -/
def renderMember (st : Style) (level : Nat) (key : String) (value : Json) : List Char :=
  quoted key ++ st.colon ++ render st level value

theorem renderMembers_cons (level : Nat) (key : String) (value : Json)
    (members : List (String × Json)) :
    renderMembers st level ((key, value) :: members)
      = ',' :: (st.lineBreak (level + 1) ++
          (renderMember st (level + 1) key value ++ renderMembers st level members)) := by
  rw [renderMembers, renderMember]
  simp only [List.append_assoc]

theorem endsNumeral_renderMembers (hst : st.IsBlank) (level : Nat) (members : List (String × Json))
    (rest : List Char) : EndsNumeral (renderMembers st level members ++ rest) := by
  rcases members with _ | ⟨⟨key, value⟩, members⟩
  · rw [renderMembers, List.append_assoc]
    exact endsNumeral_append (hst.lineBreak level) (endsNumeral_cons (by decide) _)
  · rw [renderMembers_cons]
    exact endsNumeral_cons (by decide) _

/-- A member is read, and then a comma leads to the other members or a brace closes the object. -/
theorem members?_renderMember (hst : st.IsBlank) (level : Nat) (key : String) {value : Json}
    (hvalue : ReadsBack st value) {fuel : Nat}
    (hfuel : 2 * (renderMember st level key value).length ≤ fuel) {s : List Char}
    (hs : EndsNumeral s) :
    (∀ t, skipSpace s = ',' :: t →
      members? (fuel + 1) (renderMember st level key value ++ s)
        = (members? fuel t).map fun p => ((key, value) :: p.1, p.2)) ∧
    ∀ t, skipSpace s = '\x7d' :: t →
      members? (fuel + 1) (renderMember st level key value ++ s) = some ([(key, value)], t) := by
  obtain ⟨gap, hcolon, hgap⟩ := hst.colon
  have htext : renderMember st level key value ++ s
      = '"' :: (key.toList.flatMap escape ++ '"' :: ':' ::
          (gap ++ (render st level value ++ s))) := by
    simp [renderMember, quoted, hcolon]
  have hlength : 2 * (render st level value).length ≤ fuel := by
    rw [renderMember, List.length_append] at hfuel
    omega
  have hread : value? fuel (gap ++ (render st level value ++ s)) = some (value, s) := by
    rw [value?_append hgap]
    exact hvalue level fuel s hlength hs
  have hopen : ∀ t, skipSpace ('"' :: t) = '"' :: t := skipSpace_cons (by decide)
  have hmark : ∀ t, skipSpace (':' :: t) = ':' :: t := skipSpace_cons (by decide)
  rw [htext, members?]
  simp only [hopen, text?_quoted, hmark, hread]
  constructor
  · intro t ht
    simp only [ht]
  · intro t ht
    simp only [ht]

/-- **Members read back if the value of each of them does.** -/
theorem members?_renderMembers (hst : st.IsBlank) (level : Nat) (key : String) (value : Json)
    {members : List (String × Json)} (hvalue : ReadsBack st value)
    (hmembers : ∀ m ∈ members, ReadsBack st m.2) (fuel : Nat)
    (hfuel : 2 * (renderMember st (level + 1) key value ++ renderMembers st level members).length
      ≤ fuel)
    (rest : List Char) :
    members? fuel (renderMember st (level + 1) key value ++
        (renderMembers st level members ++ rest))
      = some ((key, value) :: members, rest) := by
  induction members generalizing key value fuel with
  | nil =>
    simp only [renderMembers, List.length_append, List.length_singleton] at hfuel
    obtain ⟨fuel, rfl⟩ : ∃ n, fuel = n + 1 := ⟨fuel - 1, by omega⟩
    have hclose : skipSpace (renderMembers st level [] ++ rest) = '\x7d' :: rest := by
      rw [renderMembers, List.append_assoc, skipSpace_append (hst.lineBreak level)]
      exact skipSpace_cons (by decide) rest
    exact (members?_renderMember hst (level + 1) key hvalue (by omega)
      (endsNumeral_renderMembers hst level [] rest)).2 rest hclose
  | cons next members ih =>
    obtain ⟨nextKey, nextValue⟩ := next
    simp only [renderMembers_cons, List.length_append, List.length_cons] at hfuel
    obtain ⟨fuel, rfl⟩ : ∃ n, fuel = n + 1 := ⟨fuel - 1, by omega⟩
    have hcomma : skipSpace (renderMembers st level ((nextKey, nextValue) :: members) ++ rest)
        = ',' :: (st.lineBreak (level + 1) ++ (renderMember st (level + 1) nextKey nextValue ++
            (renderMembers st level members ++ rest))) := by
      rw [renderMembers_cons, List.cons_append, skipSpace_cons (by decide)]
      simp only [List.append_assoc]
    have hnext := ih nextKey nextValue (hmembers _ List.mem_cons_self)
      (fun m hm => hmembers m (List.mem_cons_of_mem _ hm)) fuel
      (by rw [List.length_append]; omega)
    rw [(members?_renderMember hst (level + 1) key hvalue (by omega)
      (endsNumeral_renderMembers hst level _ rest)).1 _ hcomma,
      members?_append (hst.lineBreak (level + 1)), hnext, Option.map_some]

theorem readsBack_object (hst : st.IsBlank) {members : List (String × Json)}
    (hplain : ∀ m ∈ members, HasNaturals m.2) (hmembers : ∀ m ∈ members, ReadsBack st m.2) :
    ReadsBack st (object members) := by
  refine readsBack_of_step (.object hplain) fun level fuel rest hfuel _ => ?_
  rcases members with _ | ⟨⟨key, value⟩, members⟩
  · simp [render, value?, skipSpace_cons, isSpace]
  · have htext : render st level (object ((key, value) :: members))
        = '\x7b' :: (st.lineBreak (level + 1) ++
            (renderMember st (level + 1) key value ++ renderMembers st level members)) := by
      rw [render, renderMember]
      simp only [List.append_assoc]
    rw [htext, List.length_cons, List.length_append] at hfuel
    have hread := members?_renderMembers hst level key value (hmembers _ List.mem_cons_self)
      (fun m hm => hmembers m (List.mem_cons_of_mem _ hm)) fuel (by omega) rest
    have hopen : skipSpace (st.lineBreak (level + 1) ++ (renderMember st (level + 1) key value ++
        (renderMembers st level members ++ rest)))
          = renderMember st (level + 1) key value ++ (renderMembers st level members ++ rest) := by
      rw [skipSpace_append (hst.lineBreak (level + 1))]
      exact skipSpace_cons (by decide) _
    rw [htext, value?, List.cons_append, skipSpace_cons (by decide)]
    simp only [List.append_assoc, hopen]
    split
    · rename_i h
      cases h
    · rw [members?_append (hst.lineBreak (level + 1)), hread]
      rfl

/-! ## Values and whole texts -/

/-- **Every value reads back from its text, whatever follows.** -/
theorem readsBack_of_hasNaturals (hst : st.IsBlank) {j : Json} (h : HasNaturals j) :
    ReadsBack st j := by
  induction h with
  | null => exact readsBack_null
  | bool b => exact readsBack_bool b
  | natural n => exact readsBack_natural n
  | string s => exact readsBack_string s
  | array h ih => exact readsBack_array hst h ih
  | object h ih => exact readsBack_object hst h ih

/-- **The text of a value denotes the value**, in every style whose breaks are white space. -/
theorem parse?_render (hst : st.IsBlank) {j : Json} (h : HasNaturals j) :
    parse? (String.ofList (render st 0 j)) = some j := by
  have hread := readsBack_of_hasNaturals hst h 0 (2 * (render st 0 j).length + 2) [] (by omega)
    endsNumeral_nil
  rw [List.append_nil] at hread
  simp only [parse?, String.toList_ofList, hread]
  rfl

theorem parse?_compact {j : Json} (h : HasNaturals j) : parse? j.compact = some j :=
  parse?_render Style.isBlank_compact h

theorem parse?_pretty {j : Json} (h : HasNaturals j) : parse? j.pretty = some j :=
  parse?_render Style.isBlank_pretty h

end DocAudit.Json
