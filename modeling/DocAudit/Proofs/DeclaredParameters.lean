import DocAudit.Proofs.ExtractedFunctions
import Mathlib.Data.List.Forall2

/-!
# Proofs/DeclaredParameters — the parameters of a definition, from what is written

Parameters are read in two steps.  The parts between the parentheses become entries, one for each
parameter that is written and in its form (`Writes`, `forall₂_writes_entries`); the grammar leaves
no other form, and a name is never mistaken for a star or a slash because no word has such a
character. The entries then become parameters, and there the state of the loop is all there is to
say: `declared?` gives the parameter of an entry from the entries in front of it, whose count is its
position and whose stars decide whether it can still take a position (`parametersFrom_eq_filterMap`,
by induction over the entries behind any front).

Positions are therefore indices, for extracted signatures as for those built one parameter at a time
(`IsNumbered`).
-/

namespace DocAudit.Python

open DocAudit.Python.Tree

/-! ## What an entry declares -/

namespace ParameterNode

/-- The entry declares a parameter. -/
def declares : ParameterNode → Bool
  | plain .. | star .. | doubleStar .. => true
  | slash | bareStar | comment => false

/-- No position is left to the parameters behind the entry. -/
def endsPositions : ParameterNode → Bool
  | star .. | bareStar => true
  | plain .. | doubleStar .. | slash | comment => false

/-- The parameter that an entry declares behind the given entries. -/
def declared? (before : List ParameterNode) : ParameterNode → Option Parameter
  | plain name hint hasDefault =>
    some
      { name
        position := before.countP declares
        kind := if before.any endsPositions then .keywordOnly else .positional
        declaredType := hint
        hasDefault }
  | star name hint => some ⟨name, before.countP declares, .variadicPositional, hint, false⟩
  | doubleStar name hint => some ⟨name, before.countP declares, .variadicKeyword, hint, false⟩
  | slash | bareStar | comment => none

end ParameterNode

open ParameterNode

/-- **Each entry declares what it declares behind the entries in front of it.** -/
theorem parametersFrom_eq_filterMap (before entries : List ParameterNode) :
    parametersFrom (before.countP declares) (before.any endsPositions) entries =
      entries.zipIdx.filterMap fun (entry, i) => entry.declared? (before ++ entries.take i) := by
  induction entries generalizing before with
  | nil => rfl
  | cons entry entries ih =>
    -- the entry joins the front, and the entries behind it count from one
    have hrest := ih (before ++ [entry])
    have hshift : (entries.zipIdx.filterMap fun (e, i) =>
          e.declared? (before ++ [entry] ++ entries.take i)) =
        (entries.zipIdx 1).filterMap fun (e, i) =>
          e.declared? (before ++ (entry :: entries).take i) := by
      rw [List.zipIdx_succ, List.filterMap_map]
      simp [Function.comp_def]
    rw [hshift, List.countP_append, List.any_append] at hrest
    rw [List.zipIdx_cons, List.filterMap_cons, Nat.zero_add, ← hrest]
    cases entry <;> simp [parametersFrom, declared?, declares, endsPositions, plainKind]

/-! ## Positions -/

/-- The position of each parameter is its index. -/
def IsNumbered (ps : List Parameter) : Prop :=
  ps.map Parameter.position = List.range ps.length

theorem positions_parametersFrom (position : Nat) (keywordOnly : Bool)
    (entries : List ParameterNode) :
    (parametersFrom position keywordOnly entries).map Parameter.position =
      List.range' position (parametersFrom position keywordOnly entries).length := by
  fun_induction parametersFrom position keywordOnly entries with
  | case1 => rfl
  | case2 position keywordOnly name hint hasDefault entries ih
  | case3 position keywordOnly name hint entries ih
  | case4 position keywordOnly name hint entries ih =>
    rw [List.map_cons, ih, List.length_cons, List.range'_succ]
  | case5 position keywordOnly entries ih | case6 position keywordOnly entries ih
  | case7 position keywordOnly entries ih => exact ih

theorem isNumbered_parametersOf (entries : List ParameterNode) :
    IsNumbered (parametersOf entries) := by
  rw [IsNumbered, List.range_eq_range']
  exact positions_parametersFrom 0 false entries

theorem IsNumbered.withParameter {s : Signature} (h : IsNumbered s.parameters) (p : Parameter) :
    IsNumbered (s.withParameter p).parameters := by
  simp only [IsNumbered, Signature.withParameter, List.map_append, List.map_singleton,
    List.length_append, List.length_singleton]
  rw [h, List.range_succ]

theorem isNumbered_foldl_withParameter {s : Signature} (h : IsNumbered s.parameters)
    (ps : List Parameter) : IsNumbered (ps.foldl Signature.withParameter s).parameters := by
  induction ps generalizing s with
  | nil => exact h
  | cons p ps ih => exact ih (h.withParameter p)

/-! ## Kinds -/

theorem kind_ne_positional_of_mem {position : Nat} {entries : List ParameterNode} {p : Parameter}
    (hp : p ∈ parametersFrom position true entries) : p.kind ≠ .positional := by
  induction entries generalizing position with
  | nil => cases hp
  | cons entry entries ih =>
    cases entry with
    | plain name hint hasDefault | star name hint | doubleStar name hint =>
      rw [parametersFrom, List.mem_cons] at hp
      obtain rfl | hp := hp
      · nofun
      · exact ih hp
    | bareStar | slash | comment => exact ih hp

/-- Behind a parameter that takes keywords only or all positions left, none takes a position. -/
theorem pairwise_kind_parametersFrom (position : Nat) (keywordOnly : Bool)
    (entries : List ParameterNode) :
    (parametersFrom position keywordOnly entries).Pairwise fun p q =>
      p.kind = .keywordOnly ∨ p.kind = .variadicPositional → q.kind ≠ .positional := by
  fun_induction parametersFrom position keywordOnly entries with
  | case1 => exact .nil
  | case2 position keywordOnly name hint hasDefault entries ih =>
    refine .cons (fun q hq hkind => ?_) ih
    cases keywordOnly
    · simp [plainKind] at hkind
    · exact kind_ne_positional_of_mem hq
  | case3 position keywordOnly name hint entries ih =>
    exact .cons (fun q hq _ => kind_ne_positional_of_mem hq) ih
  | case4 position keywordOnly name hint entries ih =>
    exact .cons (fun q _ hkind => by simp at hkind) ih
  | case5 position keywordOnly entries ih | case6 position keywordOnly entries ih
  | case7 position keywordOnly entries ih => exact ih

/-! ## What is written between the parentheses -/

/-- A type behind a colon, if there is one, and its text. -/
inductive WritesHint (source : List Char) : List Tree → Option String → Prop
  | untyped : WritesHint source [] none
  | typed {colon : Token} {children : List Tree} (hcolon : colon.text = ":") :
      WritesHint source [leaf colon, node .hint children] (some (text source (node .hint children)))

/-- An expression behind an equals sign, if there is one. -/
inductive WritesDefault : List Tree → Bool → Prop
  | required : WritesDefault [] false
  | default {sign : Token} {value : List Tree} (hsign : sign.kind = .operator ∧ sign.text = "=")
      (hvalue : Reads (.rule .expression) value) : WritesDefault (leaf sign :: value) true

/-- The parts of a parameter and the entry that they are written for. -/
inductive Writes (source : List Char) : List Tree → ParameterNode → Prop
  | plain {name : Token} {typed valued : List Tree} {hint : Option String} {hasDefault : Bool}
      (hname : name.kind = .word) (hhint : WritesHint source typed hint)
      (hdefault : WritesDefault valued hasDefault) :
      Writes source (leaf name :: (typed ++ valued)) (.plain name.text hint hasDefault)
  | star {mark name : Token} {typed : List Tree} {hint : Option String} (hmark : mark.text = "*")
      (hhint : WritesHint source typed hint) :
      Writes source (leaf mark :: leaf name :: typed) (.star name.text hint)
  | doubleStar {mark name : Token} {typed : List Tree} {hint : Option String}
      (hmark : mark.text = "**") (hhint : WritesHint source typed hint) :
      Writes source (leaf mark :: leaf name :: typed) (.doubleStar name.text hint)
  | slash {mark : Token} (hmark : mark.text = "/") : Writes source [leaf mark] .slash
  | bareStar {mark : Token} (hmark : mark.text = "*") : Writes source [leaf mark] .bareStar

theorem exists_writesHint (source : List Char) {trees : List Tree}
    (h : Reads (.opt (.seq [.op ":", .rule .hint])) trees) :
    ∃ hint, WritesHint source trees hint := by
  obtain rfl | h := reads_opt.mp h
  · exact ⟨none, .untyped⟩
  · simp only [reads_seq_cons, reads_seq_nil, Pattern.op, reads_terminal,
      reads_visible (r := .hint) rfl] at h
    obtain ⟨_, _, rfl, ⟨colon, rfl, hcolon⟩, _, _, rfl, ⟨children, rfl, -⟩, rfl⟩ := h
    simp only [Terminal.fits, Bool.and_eq_true, beq_iff_eq] at hcolon
    exact ⟨_, .typed hcolon.2⟩

theorem exists_writesDefault {trees : List Tree}
    (h : Reads (.opt (.seq [.op "=", .rule .expression])) trees) :
    ∃ hasDefault, WritesDefault trees hasDefault := by
  obtain rfl | h := reads_opt.mp h
  · exact ⟨false, .required⟩
  · simp only [reads_seq_cons, reads_seq_nil, Pattern.op, reads_terminal] at h
    obtain ⟨_, _, rfl, ⟨sign, rfl, hsign⟩, value, _, rfl, hvalue, rfl⟩ := h
    rw [List.append_nil]
    exact ⟨true, .default (by simpa [Terminal.fits] using hsign) hvalue⟩

/-- A parameter that is read has one of the forms. -/
theorem exists_writes (source : List Char) {parts : List Tree}
    (h : Reads (grammar .parameter) parts) : ∃ entry, Writes source parts entry := by
  obtain ⟨p, hp, h⟩ := reads_alt.mp h
  simp only [List.mem_cons, List.not_mem_nil, or_false] at hp
  obtain rfl | rfl | rfl | rfl := hp
  · simp only [reads_seq_cons, reads_seq_nil, Pattern.op, Pattern.anyWord, reads_terminal] at h
    obtain ⟨_, _, rfl, ⟨mark, rfl, hmark⟩, _, _, rfl, ⟨name, rfl, hname⟩, typed, _, rfl, htyped,
      rfl⟩ := h
    obtain ⟨hint, hhint⟩ := exists_writesHint source htyped
    simp only [Terminal.fits, Bool.and_eq_true, beq_iff_eq] at hmark
    rw [List.append_nil]
    exact ⟨_, .doubleStar hmark.2 hhint⟩
  · simp only [reads_seq_cons, reads_seq_nil, Pattern.op, reads_terminal] at h
    obtain ⟨_, _, rfl, ⟨mark, rfl, hmark⟩, named, _, rfl, hnamed, rfl⟩ := h
    simp only [Terminal.fits, Bool.and_eq_true, beq_iff_eq] at hmark
    rw [List.append_nil]
    obtain rfl | hnamed := reads_opt.mp hnamed
    · exact ⟨_, .bareStar hmark.2⟩
    · simp only [reads_seq_cons, reads_seq_nil, Pattern.anyWord, reads_terminal] at hnamed
      obtain ⟨_, _, rfl, ⟨name, rfl, hname⟩, typed, _, rfl, htyped, rfl⟩ := hnamed
      obtain ⟨hint, hhint⟩ := exists_writesHint source htyped
      rw [List.append_nil]
      exact ⟨_, .star hmark.2 hhint⟩
  · obtain ⟨mark, rfl, hmark⟩ := reads_terminal.mp h
    simp only [Terminal.fits, Bool.and_eq_true, beq_iff_eq] at hmark
    exact ⟨_, .slash hmark.2⟩
  · simp only [reads_seq_cons, reads_seq_nil, Pattern.anyWord, reads_terminal] at h
    obtain ⟨_, _, rfl, ⟨name, rfl, hname⟩, typed, _, rfl, htyped, valued, _, rfl, hvalued, rfl⟩ := h
    obtain ⟨hint, hhint⟩ := exists_writesHint source htyped
    obtain ⟨hasDefault, hdefault⟩ := exists_writesDefault hvalued
    rw [List.append_nil valued]
    have hwrites :
        Writes source (leaf name :: (typed ++ valued)) (.plain name.text hint hasDefault) :=
      .plain (beq_iff_eq.mp hname) hhint hdefault
    exact ⟨_, hwrites⟩

theorem childrenOf?_eq_none {r : Rule} {trees : List Tree}
    (h : ∀ children, node r children ∉ trees) : childrenOf? r trees = none := by
  fun_induction childrenOf? r trees with
  | case1 => rfl
  | case2 children trees => exact absurd List.mem_cons_self (h children)
  | case3 r' children trees hne ih => exact ih fun c hc => h c (List.mem_cons_of_mem _ hc)
  | case4 t trees ih => exact ih fun c hc => h c (List.mem_cons_of_mem _ hc)

theorem hint?_of_writesHint {source : List Char} {typed valued : List Tree} {hint : Option String}
    {hasDefault : Bool} (hhint : WritesHint source typed hint)
    (hdefault : WritesDefault valued hasDefault) : hint? source (typed ++ valued) = hint := by
  cases hhint with
  | typed => rfl
  | untyped =>
    cases hdefault with
    | required => rfl
    | @default sign value hsign hvalue =>
      have hnone : childrenOf? .hint value = none := childrenOf?_eq_none fun children hnode =>
        absurd (mem_of_node_mem expressionRules (by decide) hvalue (by decide) hnode).1 (by decide)
      rw [List.nil_append, hint?, childrenOf?, hnone, Option.map_none]

theorem any_equals_of_writes {source : List Char} {typed valued : List Tree} {hint : Option String}
    {hasDefault : Bool} (hhint : WritesHint source typed hint)
    (hdefault : WritesDefault valued hasDefault) :
    (typed ++ valued).any (isToken "=") = hasDefault := by
  have htyped : typed.any (isToken "=") = false := by
    cases hhint with
    | untyped => rfl
    | typed hcolon => simp [isToken, hcolon]
  rw [List.any_append, htyped, Bool.false_or]
  cases hdefault with
  | required => rfl
  | default hsign _ => simp [isToken, hsign]

theorem entryOf_eq_of_writes {source : List Char} {parts : List Tree} {entry : ParameterNode}
    (hwords : ∀ t ∈ tokensOfList parts, t.kind = .word →
      ∀ c ∈ t.text.toList, continuesName c = true)
    (h : Writes source parts entry) : entryOf source parts = entry := by
  cases h with
  | @plain name typed valued hint hasDefault hname hhint hdefault =>
    have hne : ∀ text c, c ∈ text.toList → continuesName c = false → name.text ≠ text := by
      rintro text c hc hnot rfl
      rw [hwords name List.mem_cons_self hname c hc] at hnot
      cases hnot
    unfold entryOf
    dsimp only
    split
    · exact absurd ‹_› (hne "/" '/' (by decide) (by decide))
    · exact absurd ‹_› (hne "*" '*' (by decide) (by decide))
    · exact absurd ‹_› (hne "*" '*' (by decide) (by decide))
    · exact absurd ‹_› (hne "**" '*' (by decide) (by decide))
    · rw [hint?_of_writesHint hhint hdefault, any_equals_of_writes hhint hdefault]
  | @star mark name typed hint hmark hhint =>
    simp only [entryOf, hmark]
    rw [← hint?_of_writesHint hhint .required, List.append_nil]
  | @doubleStar mark name typed hint hmark hhint =>
    simp only [entryOf, hmark]
    rw [← hint?_of_writesHint hhint .required, List.append_nil]
  | slash hmark => simp [entryOf, hmark]
  | bareStar hmark => simp [entryOf, hmark]

/-- The parts of the parameters among the trees. -/
def parameterParts : List Tree → List (List Tree)
  | [] => []
  | node .parameter parts :: trees => parts :: parameterParts trees
  | _ :: trees => parameterParts trees

theorem filter_commentEntries (t : Option Token) :
    (commentEntries t).filter (· ≠ .comment) = [] := by
  refine List.filter_eq_nil_iff.mpr fun entry hentry => ?_
  unfold commentEntries at hentry
  split at hentry
  · obtain ⟨c, -, rfl⟩ := List.mem_map.mp hentry
    simp
  · cases hentry

theorem ne_comment_of_writes {source : List Char} {parts : List Tree} {entry : ParameterNode}
    (h : Writes source parts entry) : entry ≠ .comment := by
  cases h <;> nofun

/-- **Apart from comments, the entries are those that are written, one for each parameter.** -/
theorem forall₂_writes_entries {source : List Char} {children : List Tree}
    (h : ∀ parts, node .parameter parts ∈ children → Writes source parts (entryOf source parts)) :
    List.Forall₂ (Writes source) (parameterParts children)
      ((entries source children).filter (· ≠ .comment)) := by
  fun_induction entries source children with
  | case1 => exact .nil
  | case2 parts trees ih =>
    have hparts := h parts List.mem_cons_self
    have hne := ne_comment_of_writes hparts
    rw [parameterParts, List.filter_append, filter_commentEntries, List.nil_append,
      List.filter_cons_of_pos (by simpa using hne)]
    exact .cons hparts (ih fun parts hmem => h parts (List.mem_cons_of_mem _ hmem))
  | case3 tree trees hne ih =>
    rw [parameterParts, List.filter_append, filter_commentEntries, List.nil_append]
    · exact ih fun parts hmem => h parts (List.mem_cons_of_mem _ hmem)
    · exact hne

theorem writes_entryOf_of_under {source : List Char} {trees : List Tree} {rest : List Token}
    (hreads : Reads (grammar .module) trees) (htokens : tokens source = tokensOfList trees ++ rest)
    {parts : List Tree} (hparts : Under (node .parameter parts) trees) :
    Writes source parts (entryOf source parts) := by
  obtain ⟨entry, hwrites⟩ := exists_writes source (reads_of_under hreads hparts)
  rwa [entryOf_eq_of_writes (fun t ht => ?_) hwrites]
  refine @continuesName_of_mem_tokens source t ?_
  obtain ⟨front, back, hinside⟩ := exists_tokensOfList_of_under hparts
  rw [htokens, hinside, Tree.tokens]
  simp [ht]

theorem exists_childrenOf?_of_mem {r : Rule} {trees : List Tree}
    (h : ∃ children, node r children ∈ trees) :
    ∃ children, childrenOf? r trees = some children ∧ node r children ∈ trees := by
  fun_induction childrenOf? r trees with
  | case1 => simp at h
  | case2 children trees => exact ⟨children, rfl, List.mem_cons_self⟩
  | case3 r' children trees hne ih =>
    obtain ⟨children', hmem⟩ := h
    obtain ⟨c, hc, hmem⟩ := ih ⟨children', by simpa [hne] using hmem⟩
    exact ⟨c, hc, List.mem_cons_of_mem _ hmem⟩
  | case4 t trees ih =>
    obtain ⟨children', hmem⟩ := h
    obtain ⟨c, hc, hmem⟩ := ih ⟨children', by simpa using hmem⟩
    exact ⟨c, hc, List.mem_cons_of_mem _ hmem⟩

theorem exists_parameters_of_reads {parts : List Tree} (h : Reads (grammar .functionDef) parts) :
    ∃ children, childrenOf? .parameters parts = some children ∧
      node .parameters children ∈ parts := by
  refine exists_childrenOf?_of_mem ?_
  have hsplit : Reads (.seq ([.opt (.kw "async"), .kw "def", .anyWord, .opt (.rule .typeParameters),
      .op "("] ++ [.rule .parameters, .op ")", .opt (.seq [.op "->", .rule .hint]), .op ":",
      .rule .suite])) parts := h
  obtain ⟨front, _, rfl, -, hrest⟩ := reads_seq_append.mp hsplit
  obtain ⟨_, back, rfl, hparameters, -⟩ := reads_seq_cons.mp hrest
  obtain ⟨children, rfl, -⟩ := (reads_visible rfl).mp hparameters
  exact ⟨children, by simp⟩

/-- **The parameters of a definition are those that are written between its parentheses.** -/
theorem writes_of_extract {path : Path} {settings : Settings} {source : String} {trees : List Tree}
    {defs : List Definition} (hread : Tree.read (tokens source.toList) = .ok trees)
    (h : extract path settings source = .ok defs) {d : Definition} (hd : d ∈ defs) :
    ∃ f children, Reached [] trees f ∧ d.signature.location.line = f.line ∧
      node .parameters children ∈ f.parts ∧
      d.signature.parameters = parametersOf (entries source.toList children) ∧
      List.Forall₂ (Writes source.toList) (parameterParts children)
        ((entries source.toList children).filter (· ≠ .comment)) := by
  obtain ⟨hreads, rest, htokens⟩ := reads_of_read hread
  rw [extract_eq_map path settings hread] at h
  cases h
  obtain ⟨f, hf, rfl⟩ := List.mem_map.mp hd
  have hreached := (mem_functionsOfList_iff (.inl hreads)).mp (List.mem_filter.mp hf).1
  obtain ⟨children, hchildren, hmem⟩ :=
    exists_parameters_of_reads (reads_of_under hreads hreached.under.1)
  refine ⟨f, children, hreached, rfl, hmem, ?_, forall₂_writes_entries fun parts hparts => ?_⟩
  · simp [Found.definition, definitionOf, headOf, hchildren]
  · have hunder : Under (node .parameter parts) trees :=
      ((Under.here hparts).trans (.here hmem)).trans hreached.under.1
    exact writes_entryOf_of_under hreads htokens hunder

/-! ## The whole -/

/-- **Parameters are declared as they are written**: one for each entry that declares one, in order,
each at its index, of the kind and with the type and default of its form.  So it is for the
signatures that are extracted, and positions are indices for those that are built as well. -/
theorem parameters_faithful :
    (∀ entries : List ParameterNode,
      parametersOf entries =
          entries.zipIdx.filterMap (fun (entry, i) => entry.declared? (entries.take i)) ∧
        IsNumbered (parametersOf entries) ∧
        (parametersOf entries).Pairwise fun p q =>
          p.kind = .keywordOnly ∨ p.kind = .variadicPositional → q.kind ≠ .positional) ∧
    (∀ (path : Path) (settings : Settings) (source : String) (defs : List Definition),
      extract path settings source = .ok defs →
      ∃ trees, Tree.read (tokens source.toList) = .ok trees ∧
        ∀ d ∈ defs, IsNumbered d.signature.parameters ∧
          ∃ f children, Reached [] trees f ∧ d.signature.location.line = f.line ∧
            node .parameters children ∈ f.parts ∧
            d.signature.parameters = parametersOf (entries source.toList children) ∧
            List.Forall₂ (Writes source.toList) (parameterParts children)
              ((entries source.toList children).filter (· ≠ .comment))) ∧
    ∀ (name : String) (location : Location) (ps : List Parameter),
      IsNumbered (ps.foldl Signature.withParameter (.bare name location)).parameters := by
  refine ⟨fun entries => ⟨?_, isNumbered_parametersOf entries, ?_⟩, ?_, fun name location ps => ?_⟩
  · exact parametersFrom_eq_filterMap [] entries
  · exact pairwise_kind_parametersFrom 0 false entries
  · intro path settings source defs h
    obtain ⟨trees, hread⟩ := exists_read_of_extract h
    refine ⟨trees, hread, fun d hd => ?_⟩
    obtain ⟨f, children, hf, hline, hmem, hparameters, hwrites⟩ := writes_of_extract hread h hd
    refine ⟨?_, f, children, hf, hline, hmem, hparameters, hwrites⟩
    rw [hparameters]
    exact isNumbered_parametersOf _
  · exact isNumbered_foldl_withParameter (s := .bare name location) rfl ps

/-- A definition whose parameters have all the forms there are, with a separator and a comment
between them. -/
def sourceWithForms : String :=
  "def f(a, b=1, # both ways\n  /, c: int, d: str = '', *args: T, e, g=2, **kw): pass\n"

/-- The parameters of that definition. -/
def parametersWithForms : List Parameter :=
  [⟨"a", 0, .positional, none, false⟩, ⟨"b", 1, .positional, none, true⟩,
    ⟨"c", 2, .positional, some "int", false⟩, ⟨"d", 3, .positional, some "str", true⟩,
    ⟨"args", 4, .variadicPositional, some "T", false⟩, ⟨"e", 5, .keywordOnly, none, false⟩,
    ⟨"g", 6, .keywordOnly, none, true⟩, ⟨"kw", 7, .variadicKeyword, none, false⟩]

theorem parameters_sourceWithForms :
    ∃ defs, extract ⟨"a.py"⟩ {} sourceWithForms = .ok defs ∧
      (defs.map fun d => d.signature.parameters) = [parametersWithForms] ∧
      ∀ d ∈ defs, IsNumbered d.signature.parameters := by
  obtain ⟨defs, hextract, hmap⟩ : ∃ defs, extract ⟨"a.py"⟩ {} sourceWithForms = .ok defs ∧
      (defs.map fun d => d.signature.parameters) = [parametersWithForms] :=
    exists_ok_of_toOption_map (by decide +kernel)
  obtain ⟨trees, -, hdefs⟩ := parameters_faithful.2.1 ⟨"a.py"⟩ {} sourceWithForms defs hextract
  exact ⟨defs, hextract, hmap, fun d hd => (hdefs d hd).1⟩

end DocAudit.Python
