import DocAudit.Proofs.FunctionWalk
import DocAudit.Proofs.TokenOrder
import Mathlib.Data.List.Forall2

/-!
# Proofs/ExtractedFunctions — the definitions of a source and the functions they are of

The functions that the walk over a source passes are those that are reached; this module says what
is extracted of each.  Its name is a word, and a word has no dot, so a dot in the qualified name
comes from a class around it (`dot_mem_definition`).  The text of a decorator is an `@` and what
follows it, and no expression starts with a second one, so taking all marks off takes one off
(`text_decorator`).  And every body ends a line before the next function starts, hence the lines
increase (`pairwise_line_functions`).
-/

namespace DocAudit.Python

open DocAudit.Python.Tree

/-! ## Names, decorators and lines -/

theorem dot_mem_qualifiedName {classes : List String} {name : String} (hname : '.' ∉ name.toList) :
    '.' ∈ (".".intercalate (classes ++ [name])).toList ↔ classes ≠ [] := by
  rw [String.toList_intercalate]
  constructor
  · rintro hdot rfl
    exact hname (by simpa using hdot)
  · intro hne
    obtain ⟨c, classes, rfl⟩ := List.exists_cons_of_ne_nil hne
    rw [List.cons_append, List.map_cons, List.intercalate_cons_of_ne_nil (by simp)]
    simp

/-- The text of a decorator is a mark and what stands behind it, which starts with no other. -/
theorem text_decorator {source : List Char} {children : List Tree} (front back : List Token)
    (h : Reads (grammar .decorator) children)
    (htokens : tokens source = front ++ tokensOfList children ++ back) :
    ∃ rest, (text source (node .decorator children)).toList = '@' :: rest ∧
      rest.head? ≠ some '@' := by
  obtain ⟨mark, first, others, t, hchildren, hkind, htext, hstarts, hfits⟩ :=
    tokens_of_reads_decorator h
  have hchain := isChain_tokens source
  have hbefore := pairwise_before_tokens source
  rw [htokens, hchildren, List.append_assoc] at hchain hbefore
  have hmarked : Layout.MarkedOff source mark first :=
    (List.isChain_cons_cons.mp (List.isChain_append.mp hchain).2.1).1
  obtain ⟨hstop, rest, hsource, hrest⟩ := hmarked hkind htext
  obtain ⟨last, hlast⟩ : ∃ last, (first :: others).getLast? = some last :=
    ⟨_, List.getLast?_eq_some_getLast (List.cons_ne_nil first others)⟩
  have hle : mark.start + 1 ≤ last.stop := by
    have hmark := (List.pairwise_cons.mp (List.pairwise_append.mp hbefore).2.1).1 last
      (List.mem_append_left back (List.mem_of_getLast? hlast))
    exact hstop ▸ hmark.stop
  obtain ⟨n, hn⟩ := Nat.exists_eq_add_of_le hle
  refine ⟨rest.take n, ?_, fun hat => ?_⟩
  · have hlength : last.stop - mark.start = n + 1 := by omega
    rw [text, Tree.tokens, hchildren, List.getLast?_cons_cons, hlast]
    simp only [List.head?_cons]
    rw [hsource, hlength, List.take_succ_cons, String.toList_ofList]
  · refine not_marked_of_startsExpression hstarts hfits (hrest ?_)
    rw [List.head?_take] at hat
    exact (Option.ite_none_left_eq_some.mp hat).2

theorem decoratorName_of_marked {d : String} {rest : List Char} (hd : d.toList = '@' :: rest)
    (hrest : rest.head? ≠ some '@') : decoratorName d = Text.trim d.toList.tail := by
  have hdrop : rest.dropWhile (· == '@') = rest := by
    cases rest with
    | nil => rfl
    | cons c rest =>
      rw [List.dropWhile_cons_of_neg]
      simpa using hrest
  rw [decoratorName, hd, List.tail_cons, List.dropWhile_cons_of_pos (by rfl), hdrop]

theorem mem_decoratorsOf {source : List Char} {trees : List Tree} {d : String} :
    d ∈ decoratorsOf source trees ↔
      ∃ children, node .decorator children ∈ trees ∧
        d = text source (node .decorator children) := by
  fun_induction decoratorsOf source trees with
  | case1 => simp
  | case2 children trees ih => simp [ih]
  | case3 tree trees hne ih =>
    rw [ih]
    constructor
    · rintro ⟨children, hmem, rfl⟩
      exact ⟨children, List.mem_cons_of_mem tree hmem, rfl⟩
    · rintro ⟨children, hmem, rfl⟩
      exact ⟨children, (List.mem_cons.mp hmem).resolve_left fun heq => hne children heq.symm, rfl⟩

/-- The line on which a function starts. -/
def Found.line (f : Found) : Nat :=
  ((tokensOfList f.parts).head?.map Token.line).getD 0

/-- **The functions that a walk passes stand on lines of their own, one below the other.** -/
theorem pairwise_line_functions {source : List Char} {trees : List Tree} {rest : List Token}
    (hreads : Reads (grammar .module) trees)
    (htokens : tokens source = tokensOfList trees ++ rest) :
    (functionsOfList [] [] trees).Pairwise fun f g => f.line < g.line := by
  have hbefore := pairwise_before_tokens source
  rw [htokens, List.pairwise_append] at hbefore
  obtain ⟨hinside, hbetween⟩ :=
    List.pairwise_flatMap.mp (hbefore.1.sublist (sublist_tokens_functionsOfList [] [] trees))
  refine hbetween.imp_of_mem fun {f g} hf hg hfg => ?_
  have hheaded : ∀ f ∈ functionsOfList [] [] trees, ∃ name body,
      Headed "def" name body f.parts ∧ Reads (grammar .suite) body := fun f hf =>
    headed_of_reads_functionDef
      (reads_of_under hreads (reached_of_mem_functionsOfList (.inl hreads) hf).under.1)
  obtain ⟨name, body, hfheaded, hfbody⟩ := hheaded f hf
  obtain ⟨name', body', hgheaded, hgbody⟩ := hheaded g hg
  obtain ⟨first, others, hftokens, -⟩ := first_of_headed hfheaded
  obtain ⟨first', others', hgtokens, hword⟩ := first_of_headed hgheaded
  obtain ⟨newline, hmem, hnewline⟩ := exists_newline_of_headed hfheaded hfbody
  -- a function starts no later than one of its lines ends, and the next one starts below that
  have hline : first.line ≤ newline.line := by
    have hpairwise := hinside f hf
    rw [hftokens] at hpairwise hmem
    obtain rfl | hmem := List.mem_cons.mp hmem
    · exact Nat.le_refl _
    · exact ((List.pairwise_cons.mp hpairwise).1 newline hmem).line
  have hnext : newline.line < first'.line :=
    (hfg newline hmem first' (by rw [hgtokens]; exact List.mem_cons_self)).nextLine hnewline hword
  rw [Found.line, Found.line, hftokens, hgtokens]
  exact hline.trans_lt hnext

/-! ## What is extracted -/

/-- The definition is that of the function: it is called by the names of the classes around it and
its own, it stands on the line of its first token, and calls bind its first parameter if it is in a
class and no decorator says otherwise. -/
structure Describes (path : Path) (source : List Char) (f : Found) (d : Definition) : Prop where
  named : ∃ name body, Headed "def" name body f.parts ∧
    d.signature.qualifiedName = ".".intercalate (f.classes ++ [name.text])
  located : ∃ first rest, tokensOfList f.parts = first :: rest ∧
    d.signature.location = ⟨path, first.line⟩
  marked : ∀ children, node .decorator children ∈ f.decorated →
    (text source (node .decorator children)).toList.head? = some '@'
  isMethod : d.signature.isMethod = true ↔ f.classes ≠ [] ∧
    ∀ children, node .decorator children ∈ f.decorated →
      Text.trim (text source (node .decorator children)).toList.tail ≠ "staticmethod".toList

theorem qualifiedName_definition {f : Found} {name : Token} {body : List Tree}
    (h : Headed "def" name body f.parts) (ctx : Context) (source : List Char) :
    (f.definition ctx source).signature.qualifiedName =
      ".".intercalate (f.classes ++ [name.text]) := by
  rw [← wordBehind_of_headed h (by decide)]
  rfl

section

variable {source : List Char} {trees : List Tree} {rest : List Token}
  (hreads : Reads (grammar .module) trees) (htokens : tokens source = tokensOfList trees ++ rest)

include hreads htokens

theorem text_of_mem_decorated {classes : List String} {f : Found} (hf : Reached classes trees f)
    {children : List Tree} (hmem : node .decorator children ∈ f.decorated) :
    ∃ rest, (text source (node .decorator children)).toList = '@' :: rest ∧
      rest.head? ≠ some '@' := by
  have hunder := hf.under.2 _ hmem
  obtain ⟨front, back, hinside⟩ := exists_tokensOfList_of_under hunder
  refine text_decorator front (back ++ rest) (reads_of_under hreads hunder) ?_
  rw [htokens, hinside, List.append_assoc, Tree.tokens]

theorem isStatic_eq_false_iff {classes : List String} {f : Found} (hf : Reached classes trees f) :
    isStatic (decoratorsOf source f.decorated) = false ↔
      ∀ children, node .decorator children ∈ f.decorated →
        Text.trim (text source (node .decorator children)).toList.tail ≠ "staticmethod".toList := by
  have hname : ∀ children, node .decorator children ∈ f.decorated →
      decoratorName (text source (node .decorator children)) =
        Text.trim (text source (node .decorator children)).toList.tail := by
    intro children hmem
    obtain ⟨rest, htext, hrest⟩ := text_of_mem_decorated hreads htokens hf hmem
    exact decoratorName_of_marked htext hrest
  rw [isStatic, List.any_eq_false]
  constructor
  · intro h children hmem
    rw [← hname children hmem]
    simpa using h _ (mem_decoratorsOf.mpr ⟨children, hmem, rfl⟩)
  · intro h d hd
    obtain ⟨children, hmem, rfl⟩ := mem_decoratorsOf.mp hd
    rw [hname children hmem]
    simpa using h children hmem

theorem describes_definition {classes : List String} {f : Found} (hf : Reached classes trees f)
    (ctx : Context) : Describes ctx.path source f (f.definition ctx source) := by
  obtain ⟨name, body, hheaded, -⟩ :=
    headed_of_reads_functionDef (reads_of_under hreads hf.under.1)
  obtain ⟨first, others, hfirst, -⟩ := first_of_headed hheaded
  refine ⟨⟨name, body, hheaded, qualifiedName_definition hheaded ctx source⟩,
    ⟨first, others, hfirst, ?_⟩, fun children hmem => ?_, ?_⟩
  · simp [Found.definition, definitionOf, headOf, hfirst]
  · obtain ⟨rest, htext, -⟩ := text_of_mem_decorated hreads htokens hf hmem
    rw [htext, List.head?_cons]
  · rw [← isStatic_eq_false_iff hreads htokens hf]
    simp [Found.definition, definitionOf, headOf]

theorem dot_mem_definition {classes : List String} {f : Found} (hf : Reached classes trees f)
    (ctx : Context) :
    '.' ∈ (f.definition ctx source).signature.qualifiedName.toList ↔ f.classes ≠ [] := by
  obtain ⟨name, body, hheaded, -⟩ :=
    headed_of_reads_functionDef (reads_of_under hreads hf.under.1)
  have hmem : name ∈ tokens source := by
    obtain ⟨front, back, hinside⟩ :=
      exists_tokensOfList_of_under ((Under.here hheaded.name_mem).trans hf.under.1)
    rw [htokens, hinside]
    simp [Tree.tokens]
  rw [qualifiedName_definition hheaded]
  refine dot_mem_qualifiedName fun hdot => ?_
  have hcontinues := continuesName_of_mem_tokens hmem hheaded.name_kind '.' hdot
  exact absurd hcontinues (by decide)

end

/-- A source whose definitions can be extracted can be read. -/
theorem exists_read_of_extract {path : Path} {settings : Settings} {source : String}
    {defs : List Definition} (h : extract path settings source = .ok defs) :
    ∃ trees, Tree.read (tokens source.toList) = .ok trees := by
  cases hread : Tree.read (tokens source.toList) with
  | ok trees => exact ⟨trees, rfl⟩
  | error line => simp [extract, Module.parse, hread, Except.map] at h

theorem extract_eq_map (path : Path) (settings : Settings) {source : String} {trees : List Tree}
    (hread : Tree.read (tokens source.toList) = .ok trees) :
    extract path settings source =
      .ok (((functionsOfList [] [] trees).filter (counts settings.includeMethods [])).map
        (Found.definition ⟨path, suppressedLines settings.suppressionMarker
          ((tokens source.toList).flatMap Token.comments)⟩ source.toList)) := by
  rw [extract, Module.parse]
  simp only [hread, Except.map]
  exact congrArg Except.ok (definitions_statementsOfList _ _ [] source.toList [] trees)

/-- **The definitions of a source are those of the functions that are reached**, each once and in
the order of their lines; those outside classes are the ones whose names have no dot. -/
theorem extract_functions_exact (path : Path) (settings : Settings) (source : String)
    (trees : List Tree) (hread : Tree.read (tokens source.toList) = .ok trees) :
    ∃ (found : List Found) (defs : List Definition),
      (∀ f, f ∈ found ↔ Reached [] trees f) ∧ found.Nodup ∧
      List.Forall₂ (Describes path source.toList) found defs ∧
      (defs.Pairwise fun d e => d.signature.location.line < e.signature.location.line) ∧
      extract path { settings with includeMethods := true } source = .ok defs ∧
      extract path { settings with includeMethods := false } source =
        .ok (defs.filter fun d => '.' ∉ d.signature.qualifiedName.toList) := by
  obtain ⟨hreads, rest, htokens⟩ := reads_of_read hread
  have hreached : ∀ f, f ∈ functionsOfList [] [] trees ↔ Reached [] trees f :=
    fun f => mem_functionsOfList_iff (.inl hreads)
  have hlines := pairwise_line_functions hreads htokens
  let ctx : Context := ⟨path, suppressedLines settings.suppressionMarker
    ((tokens source.toList).flatMap Token.comments)⟩
  refine ⟨functionsOfList [] [] trees,
    (functionsOfList [] [] trees).map (Found.definition ctx source.toList), hreached, ?_, ?_, ?_,
    ?_, ?_⟩
  · exact hlines.imp fun hlt heq => absurd (congrArg Found.line heq) hlt.ne
  · refine List.forall₂_map_right_iff.mpr (List.forall₂_same.mpr fun f hf => ?_)
    exact describes_definition hreads htokens ((hreached f).mp hf) ctx
  · exact List.pairwise_map.mpr hlines
  · rw [extract_eq_map path _ hread]
    exact congrArg (fun found => Except.ok (found.map (Found.definition ctx source.toList)))
      (List.filter_eq_self.mpr fun _ _ => rfl)
  · rw [extract_eq_map path _ hread, List.filter_map]
    refine congrArg (fun found => Except.ok (found.map (Found.definition ctx source.toList)))
      (List.filter_congr fun f hf => ?_)
    have hdot := dot_mem_definition hreads htokens ((hreached f).mp hf) ctx
    rw [Bool.eq_iff_iff]
    simp [counts, hdot]

theorem exists_ok_of_toOption_map {ε α β : Type} {x : Except ε α} {g : α → β} {b : β}
    (h : x.toOption.map g = some b) : ∃ a, x = .ok a ∧ g a = b := by
  cases x with
  | ok a => exact ⟨a, rfl, Option.some.inj h⟩
  | error e => cases h

/-- A source with a class in a class, a static method, a coroutine and a function in a function. -/
def nestedSource : String :=
  "class A:\n  class B:\n    @ staticmethod\n    def f(): pass\n" ++
    "  async def k(self):\n    def inner(): pass\ndef m(): pass\n"

theorem extract_nestedSource :
    ∃ (trees : List Tree) (found : List Found) (defs : List Definition),
      Tree.read (tokens nestedSource.toList) = .ok trees ∧
      (∀ f, f ∈ found ↔ Reached [] trees f) ∧
      List.Forall₂ (Describes ⟨"a.py"⟩ nestedSource.toList) found defs ∧
      (defs.map fun d =>
          (d.signature.qualifiedName, d.signature.isMethod, d.signature.location.line)) =
        [("A.B.f", false, 4), ("A.k", true, 5), ("m", false, 7)] := by
  obtain ⟨defs, hextract, hnames⟩ : ∃ defs, extract ⟨"a.py"⟩ {} nestedSource = .ok defs ∧
      (defs.map fun d =>
          (d.signature.qualifiedName, d.signature.isMethod, d.signature.location.line)) =
        [("A.B.f", false, 4), ("A.k", true, 5), ("m", false, 7)] :=
    exists_ok_of_toOption_map (by decide +kernel)
  obtain ⟨trees, hread⟩ := exists_read_of_extract hextract
  obtain ⟨found, defs', hfound, -, hdescribes, -, hextract', -⟩ :=
    extract_functions_exact ⟨"a.py"⟩ {} nestedSource trees hread
  obtain rfl : defs = defs' := Except.ok.inj (hextract.symm.trans hextract')
  exact ⟨trees, found, defs, hread, hfound, hdescribes, hnames⟩

end DocAudit.Python
