import DocAudit.Python.Module

/-!
# Proofs/Readings — trees as readings of the grammar

The reader tries alternatives in order, goes on as long as a pattern fits and looks ahead.  For what
the trees of a source can look like none of that matters: `Reads p trees` says that the trees are a
reading of the pattern, whichever alternative was taken, and whatever the reader finds is one
(`reads_of_readPattern`, by its own recursion, so fuel plays no part).  The tokens of a reading are
the tokens read, in order.

Readings are taken apart by one equivalence for each form of pattern (`reads_seq_cons` and so on).
For what is deep inside a pattern that would be long, so two properties of the grammar are computed
instead: `IsClosed rules` bounds the nodes that a reading can hold to those of the rules
(`mem_of_node_mem`), and `leads` the tokens that it can start with (`exists_first_of_leads`).
-/

namespace DocAudit.Python

namespace Tree

theorem tokensOfList_append (trees more : List Tree) :
    tokensOfList (trees ++ more) = tokensOfList trees ++ tokensOfList more := by
  induction trees with
  | nil => rfl
  | cons tree trees ih =>
    rw [List.cons_append, tokensOfList, ih, tokensOfList, List.append_assoc]

@[simp] theorem tokensOfList_leaf (t : Token) : tokensOfList [leaf t] = [t] := rfl

@[simp] theorem tokensOfList_node (r : Rule) (trees : List Tree) :
    tokensOfList [node r trees] = tokensOfList trees := by
  rw [tokensOfList, tokens, tokensOfList, List.append_nil]

end Tree

open DocAudit.Python.Tree

/-! ## Readings -/

/-- The trees are a reading of the pattern, if alternatives may be taken in any order and nothing is
looked at ahead. -/
inductive Reads : Pattern → List Tree → Prop
  | terminal {t : Terminal} {token : Token} (h : t.fits token = true) :
      Reads (.terminal t) [leaf token]
  | visible {r : Rule} {trees : List Tree} (hr : isVisible r = true) (h : Reads (grammar r) trees) :
      Reads (.rule r) [node r trees]
  | hidden {r : Rule} {trees : List Tree} (hr : isVisible r = false) (h : Reads (grammar r) trees) :
      Reads (.rule r) trees
  | done : Reads (.seq []) []
  | next {p : Pattern} {ps : List Pattern} {trees more : List Tree} (h : Reads p trees)
      (hs : Reads (.seq ps) more) : Reads (.seq (p :: ps)) (trees ++ more)
  | alt {p : Pattern} {ps : List Pattern} {trees : List Tree} (hp : p ∈ ps) (h : Reads p trees) :
      Reads (.alt ps) trees
  | stop {p : Pattern} : Reads (.many p) []
  | more {p : Pattern} {trees more : List Tree} (h : Reads p trees) (hs : Reads (.many p) more) :
      Reads (.many p) (trees ++ more)
  | absent {p : Pattern} : Reads (.opt p) []
  | present {p : Pattern} {trees : List Tree} (h : Reads p trees) : Reads (.opt p) trees
  | ahead {p : Pattern} : Reads (.ahead p) []
  | notAhead {p : Pattern} : Reads (.notAhead p) []

/-- **What the reader finds is a reading, and its tokens are the tokens read.** -/
theorem reads_of_readPattern (fuel : Nat) (p : Pattern) (ts : List Token) :
    ∀ {trees rest}, (readPattern fuel p ts).found = some (trees, rest) →
      Reads p trees ∧ ts = tokensOfList trees ++ rest := by
  -- the cases that give nothing come last; what was reached never matters
  fun_induction readPattern fuel p ts
  case case3 fuel t token ts hfits =>
    rintro _ _ ⟨⟩
    exact ⟨.terminal hfits, rfl⟩
  case case5 fuel ts r o hvisible ih =>
    intro trees rest h
    obtain ⟨⟨children, rest'⟩, hfound, hpair⟩ := Option.map_eq_some_iff.mp h
    obtain ⟨rfl, rfl⟩ := Prod.mk.inj hpair
    obtain ⟨hreads, hts⟩ := ih hfound
    exact ⟨.visible hvisible hreads, by rw [tokensOfList_node, hts]⟩
  case case6 fuel ts r o hhidden ih =>
    intro trees rest h
    obtain ⟨hreads, hts⟩ := ih h
    exact ⟨.hidden (Bool.eq_false_iff.mpr hhidden) hreads, hts⟩
  case case7 fuel ts =>
    rintro _ _ ⟨⟩
    exact ⟨.done, rfl⟩
  case case8 fuel ts p ps o hnone ih =>
    intro trees rest h
    rw [hnone] at h
    cases h
  case case9 fuel ts p ps o front rest' hfront ihfront ihback =>
    intro trees rest h
    obtain ⟨⟨back, rest''⟩, hback, hpair⟩ := Option.map_eq_some_iff.mp h
    obtain ⟨rfl, rfl⟩ := Prod.mk.inj hpair
    obtain ⟨hreads, hts⟩ := ihfront hfront
    obtain ⟨hreads', hts'⟩ := ihback hback
    exact ⟨.next hreads hreads', by rw [tokensOfList_append, hts, hts', List.append_assoc]⟩
  case case11 fuel ts p ps o hnone ihfirst ihrest =>
    intro trees rest h
    obtain ⟨hreads, hts⟩ := ihrest h
    cases hreads with
    | alt hp hreads => exact ⟨.alt (List.mem_cons_of_mem p hp) hreads, hts⟩
  case case12 fuel ts p ps o val hval ih =>
    intro trees rest h
    obtain ⟨hreads, hts⟩ := ih h
    exact ⟨.alt List.mem_cons_self hreads, hts⟩
  case case13 fuel ts p o hnone ih =>
    rintro _ _ ⟨⟩
    exact ⟨.stop, rfl⟩
  case case14 fuel ts p o front rest' hfront ihfront ihback =>
    intro trees rest h
    obtain ⟨⟨back, rest''⟩, hback, hpair⟩ := Option.map_eq_some_iff.mp h
    obtain ⟨rfl, rfl⟩ := Prod.mk.inj hpair
    obtain ⟨hreads, hts⟩ := ihfront hfront
    obtain ⟨hreads', hts'⟩ := ihback hback
    exact ⟨.more hreads hreads', by rw [tokensOfList_append, hts, hts', List.append_assoc]⟩
  case case15 fuel ts p o hnone ih =>
    rintro _ _ ⟨⟩
    exact ⟨.absent, rfl⟩
  case case16 fuel ts p o val hval ih =>
    intro trees rest h
    obtain ⟨hreads, hts⟩ := ih h
    exact ⟨.present hreads, hts⟩
  case case17 fuel ts p o ih =>
    intro trees rest h
    obtain ⟨found, -, hpair⟩ := Option.map_eq_some_iff.mp h
    obtain ⟨rfl, rfl⟩ := Prod.mk.inj hpair
    exact ⟨.ahead, rfl⟩
  case case18 fuel ts p o hnone ih =>
    rintro _ _ ⟨⟩
    exact ⟨.notAhead, rfl⟩
  all_goals nofun

/-! ## The parts of a reading -/

theorem reads_terminal {t : Terminal} {trees : List Tree} :
    Reads (.terminal t) trees ↔ ∃ token, trees = [leaf token] ∧ t.fits token = true := by
  constructor
  · intro h
    cases h with
    | terminal h => exact ⟨_, rfl, h⟩
  · rintro ⟨token, rfl, h⟩
    exact .terminal h

theorem reads_visible {r : Rule} (hr : isVisible r = true) {trees : List Tree} :
    Reads (.rule r) trees ↔ ∃ children, trees = [node r children] ∧ Reads (grammar r) children := by
  constructor
  · intro h
    cases h with
    | visible _ h => exact ⟨_, rfl, h⟩
    | hidden hr' _ => exact absurd (hr'.symm.trans hr) Bool.false_ne_true
  · rintro ⟨children, rfl, h⟩
    exact .visible hr h

theorem reads_hidden {r : Rule} (hr : isVisible r = false) {trees : List Tree} :
    Reads (.rule r) trees ↔ Reads (grammar r) trees := by
  constructor
  · intro h
    cases h with
    | visible hr' _ => exact absurd (hr.symm.trans hr') Bool.false_ne_true
    | hidden _ h => exact h
  · exact .hidden hr

theorem reads_seq_nil {trees : List Tree} : Reads (.seq []) trees ↔ trees = [] := by
  constructor
  · intro h
    cases h
    rfl
  · rintro rfl
    exact .done

theorem reads_seq_cons {p : Pattern} {ps : List Pattern} {trees : List Tree} :
    Reads (.seq (p :: ps)) trees ↔
      ∃ front back, trees = front ++ back ∧ Reads p front ∧ Reads (.seq ps) back := by
  constructor
  · intro h
    cases h with
    | next h hs => exact ⟨_, _, rfl, h, hs⟩
  · rintro ⟨front, back, rfl, h, hs⟩
    exact .next h hs

theorem reads_seq_append {ps qs : List Pattern} {trees : List Tree} :
    Reads (.seq (ps ++ qs)) trees ↔
      ∃ front back, trees = front ++ back ∧ Reads (.seq ps) front ∧ Reads (.seq qs) back := by
  induction ps generalizing trees with
  | nil =>
    constructor
    · exact fun h => ⟨[], trees, rfl, .done, h⟩
    · rintro ⟨front, back, rfl, hfront, hback⟩
      rwa [reads_seq_nil.mp hfront]
  | cons p ps ih =>
    simp only [List.cons_append, reads_seq_cons, ih]
    constructor
    · rintro ⟨a, _, rfl, ha, b, c, rfl, hb, hc⟩
      exact ⟨a ++ b, c, (List.append_assoc a b c).symm, ⟨a, b, rfl, ha, hb⟩, hc⟩
    · rintro ⟨_, c, rfl, ⟨a, b, rfl, ha, hb⟩, hc⟩
      exact ⟨a, b ++ c, List.append_assoc a b c, ha, b, c, rfl, hb, hc⟩

theorem reads_alt {ps : List Pattern} {trees : List Tree} :
    Reads (.alt ps) trees ↔ ∃ p ∈ ps, Reads p trees := by
  constructor
  · intro h
    cases h with
    | alt hp h => exact ⟨_, hp, h⟩
  · rintro ⟨p, hp, h⟩
    exact .alt hp h

theorem reads_opt {p : Pattern} {trees : List Tree} :
    Reads (.opt p) trees ↔ trees = [] ∨ Reads p trees := by
  constructor
  · intro h
    cases h with
    | absent => exact .inl rfl
    | present h => exact .inr h
  · rintro (rfl | h)
    · exact .absent
    · exact .present h

/-- The trees of a source are a reading of a module, and their tokens are those of the source. -/
theorem reads_of_read {ts : List Token} {trees : List Tree} (h : Tree.read ts = .ok trees) :
    Reads (grammar .module) trees ∧ ∃ rest, ts = tokensOfList trees ++ rest := by
  unfold Tree.read at h
  dsimp only at h
  split at h
  · rename_i trees' rest hfound
    cases h
    obtain ⟨hreads, hts⟩ := reads_of_readPattern _ _ _ hfound
    exact ⟨(reads_hidden rfl).mp hreads, rest, hts⟩
  · cases h

/-! ## Trees inside others -/

/-- The tree stands somewhere in the trees, at whatever depth. -/
inductive Under (tree : Tree) : List Tree → Prop
  | here {trees : List Tree} (h : tree ∈ trees) : Under tree trees
  | deeper {trees children : List Tree} {r : Rule} (hnode : node r children ∈ trees)
      (h : Under tree children) : Under tree trees

theorem Under.trans {tree : Tree} {r : Rule} {children trees : List Tree} (h : Under tree children)
    (hnode : Under (node r children) trees) : Under tree trees := by
  induction hnode with
  | here hmem => exact .deeper hmem h
  | deeper hmem _ ih => exact .deeper hmem ih

theorem reads_of_node_mem {p : Pattern} {trees : List Tree} (h : Reads p trees) {r : Rule}
    {children : List Tree} (hnode : node r children ∈ trees) : Reads (grammar r) children := by
  induction h with
  | terminal | done | stop | absent | ahead | notAhead => simp at hnode
  | visible hr h _ =>
    cases List.mem_singleton.mp hnode
    exact h
  | hidden _ _ ih | alt _ _ ih | present _ ih => exact ih hnode
  | next _ _ ihfront ihback | more _ _ ihfront ihback =>
    exact (List.mem_append.mp hnode).elim ihfront ihback

/-- Whatever a reading holds, a node in it is a reading of its own rule. -/
theorem reads_of_under {p : Pattern} {trees : List Tree} (h : Reads p trees) {r : Rule}
    {children : List Tree} (hnode : Under (node r children) trees) :
    Reads (grammar r) children := by
  induction hnode generalizing p with
  | here hmem => exact reads_of_node_mem h hmem
  | deeper hmem _ ih => exact ih (reads_of_node_mem h hmem)

theorem exists_tokensOfList_of_mem {tree : Tree} {trees : List Tree} (h : tree ∈ trees) :
    ∃ front back, tokensOfList trees = front ++ tree.tokens ++ back := by
  obtain ⟨before, behind, rfl⟩ := List.append_of_mem h
  exact ⟨tokensOfList before, tokensOfList behind, by
    rw [tokensOfList_append, tokensOfList, List.append_assoc]⟩

/-- The tokens of a tree stand together. -/
theorem exists_tokensOfList_of_under {tree : Tree} {trees : List Tree} (h : Under tree trees) :
    ∃ front back, tokensOfList trees = front ++ tree.tokens ++ back := by
  induction h with
  | here hmem => exact exists_tokensOfList_of_mem hmem
  | deeper hmem _ ih =>
    obtain ⟨front, back, htokens⟩ := exists_tokensOfList_of_mem hmem
    obtain ⟨front', back', htokens'⟩ := ih
    refine ⟨front ++ front', back' ++ back, ?_⟩
    rw [htokens, Tree.tokens, htokens']
    simp only [List.append_assoc]

/-! ## Which nodes a reading can hold -/

namespace Pattern

mutual

/-- The rules that a pattern names. -/
def rules : Pattern → List Rule
  | terminal _ | ahead _ | notAhead _ => []
  | rule r => [r]
  | seq ps | alt ps => rulesOfList ps
  | many p | opt p => p.rules

/-- The rules that several patterns name. -/
def rulesOfList : List Pattern → List Rule
  | [] => []
  | p :: ps => p.rules ++ rulesOfList ps

end

theorem rules_subset_of_mem {p : Pattern} {ps : List Pattern} (hp : p ∈ ps) :
    p.rules ⊆ rulesOfList ps := by
  induction hp with
  | head ps => exact List.subset_append_left _ _
  | tail q _ ih => exact List.Subset.trans ih (List.subset_append_right _ _)

end Pattern

/-- The rules name each other only, as far as they leave no node of their own. -/
def IsClosed (rules : List Rule) : Prop :=
  ∀ r ∈ rules, isVisible r = false → ∀ s ∈ (grammar r).rules, s ∈ rules

instance (rules : List Rule) : Decidable (IsClosed rules) :=
  inferInstanceAs
    (Decidable (∀ r ∈ rules, isVisible r = false → ∀ s ∈ (grammar r).rules, s ∈ rules))

theorem mem_of_node_mem (rules : List Rule) (hrules : IsClosed rules) {p : Pattern}
    {trees : List Tree} (h : Reads p trees) (hp : ∀ s ∈ p.rules, s ∈ rules) {r : Rule}
    {children : List Tree} (hnode : node r children ∈ trees) : r ∈ rules ∧ isVisible r = true := by
  induction h with
  | terminal | done | stop | absent | ahead | notAhead => simp at hnode
  | visible hr _ _ =>
    cases List.mem_singleton.mp hnode
    exact ⟨hp r (List.mem_singleton_self r), hr⟩
  | @hidden r' _ hr _ ih =>
    exact ih (hrules r' (hp r' (List.mem_singleton_self r')) hr) hnode
  | alt hmem _ ih => exact ih (fun s hs => hp s (Pattern.rules_subset_of_mem hmem hs)) hnode
  | present _ ih => exact ih hp hnode
  | next _ _ ihfront ihback =>
    obtain hfront | hback := List.mem_append.mp hnode
    · exact ihfront (fun s hs => hp s (List.mem_append_left _ hs)) hfront
    · exact ihback (fun s hs => hp s (List.mem_append_right _ hs)) hback
  | more _ _ ihfront ihback => exact (List.mem_append.mp hnode).elim (ihfront hp) (ihback hp)

/-! ## What a reading can start with -/

namespace Pattern

mutual

/-- A stretch of the pattern starts with one of the terminals, if those of the rules do. -/
def leads (rules : List Rule) (starts : Terminal → Bool) : Pattern → Bool
  | terminal t => starts t
  | rule r => rules.contains r
  | seq [] => false
  | seq (p :: _) => p.leads rules starts
  | alt ps => leadsAll rules starts ps
  | many _ | opt _ | ahead _ | notAhead _ => false

/-- A stretch of any of the patterns starts with one of the terminals, if the rules do. -/
def leadsAll (rules : List Rule) (starts : Terminal → Bool) : List Pattern → Bool
  | [] => true
  | p :: ps => p.leads rules starts && leadsAll rules starts ps

end

theorem leads_of_mem {rules : List Rule} {starts : Terminal → Bool} {p : Pattern}
    {ps : List Pattern} (hps : leadsAll rules starts ps = true) (hp : p ∈ ps) :
    p.leads rules starts = true := by
  induction hp with
  | head ps => exact (Bool.and_eq_true_iff.mp hps).1
  | tail q _ ih => exact ih (Bool.and_eq_true_iff.mp hps).2

end Pattern

/-- If each of the rules starts with one of the terminals, a reading does where its pattern does. -/
theorem exists_first_of_leads {rules : List Rule} {starts : Terminal → Bool}
    (hrules : ∀ r ∈ rules, (grammar r).leads rules starts = true) {p : Pattern} {trees : List Tree}
    (h : Reads p trees) (hp : p.leads rules starts = true) :
    ∃ t first rest, tokensOfList trees = first :: rest ∧ t.fits first = true ∧ starts t = true := by
  induction h with
  | @terminal t token h => exact ⟨t, token, [], rfl, h, hp⟩
  | visible _ _ ih =>
    rw [tokensOfList_node]
    exact ih (hrules _ (List.contains_iff_mem.mp hp))
  | hidden _ _ ih => exact ih (hrules _ (List.contains_iff_mem.mp hp))
  | alt hmem _ ih => exact ih (Pattern.leads_of_mem hp hmem)
  | @next _ _ front back _ _ ihfront _ =>
    obtain ⟨t, first, rest, htokens, hfits, hstarts⟩ := ihfront hp
    refine ⟨t, first, rest ++ tokensOfList back, ?_, hfits, hstarts⟩
    rw [tokensOfList_append, htokens, List.cons_append]
  | done | stop | more | absent | present | ahead | notAhead => cases hp

end DocAudit.Python
