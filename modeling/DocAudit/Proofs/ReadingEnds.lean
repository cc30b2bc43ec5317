import DocAudit.Proofs.Readings

/-!
# Proofs/ReadingEnds — reading by the grammar ends before its fuel does

The reader takes one unit of fuel for each step into a pattern, so a tree that is not found could be
one that the fuel did not reach.  It never is: with the fuel of `Tree.read` or any more the answer
is the same (`readPattern_eq_of_le`), hence a source is refused exactly if it is refused with all
fuel that is large enough (`read_eq_error_iff`).

Two computed properties of the grammar carry this.  Every repeated pattern takes a token each time
(`Pattern.ends`), and no rule comes back to itself before it has taken one: rules have a `level`,
and in front of its first token a pattern only holds rules of lower levels.  So `Pattern.cost`
bounds the steps up to the next token, and each token pays for a hundred more.
-/

namespace DocAudit.Python

open DocAudit.Python.Tree

namespace Pattern

/-! ## Patterns that take a token -/

mutual

/-- Where the pattern fits it takes at least one token; all rules do but the empty list of
parameters. -/
def takes : Pattern → Bool
  | terminal _ => true
  | rule r => r != .parameters
  | seq ps => takesInOne ps
  | alt ps => takesInAll ps
  | many _ | opt _ | ahead _ | notAhead _ => false

/-- One of the patterns takes a token. -/
def takesInOne : List Pattern → Bool
  | [] => false
  | p :: ps => p.takes || takesInOne ps

/-- Each of the patterns takes a token. -/
def takesInAll : List Pattern → Bool
  | [] => true
  | p :: ps => p.takes && takesInAll ps

end

theorem takes_of_mem {p : Pattern} {ps : List Pattern} (hps : takesInAll ps = true) (hp : p ∈ ps) :
    p.takes = true := by
  induction hp with
  | head ps => exact (Bool.and_eq_true_iff.mp hps).1
  | tail q _ ih => exact ih (Bool.and_eq_true_iff.mp hps).2

theorem takes_grammar {r : Rule} (hr : r ≠ .parameters) : (grammar r).takes = true := by
  cases r with
  | parameters => exact absurd rfl hr
  | _ => rfl

mutual

/-- Whatever the pattern repeats takes a token each time. -/
def ends : Pattern → Bool
  | terminal _ | rule _ => true
  | seq ps | alt ps => endsInAll ps
  | many p => p.takes && p.ends
  | opt p | ahead p | notAhead p => p.ends

/-- Whatever one of the patterns repeats takes a token each time. -/
def endsInAll : List Pattern → Bool
  | [] => true
  | p :: ps => p.ends && endsInAll ps

end

theorem ends_grammar (r : Rule) : (grammar r).ends = true := by
  cases r <;> rfl

/-! ## Steps up to the next token -/

/-- In front of its first token the pattern of a rule only holds rules of lower levels. -/
def level : Rule → Nat
  | .decorated | .compound | .parameters | .yieldExpression | .trailer | .strings
  | .importName => 2
  | .atom | .replacement | .closedPattern => 3
  | .primary | .targetAtom | .casePattern => 4
  | .operand | .target | .casePatterns => 5
  | .comparison | .targets => 6
  | .inversion | .assignment => 7
  | .disjunction => 8
  | .expression => 9
  | .hint | .starExpression | .argument | .subscripts | .withItem => 10
  | .expressions | .arguments | .withItems => 11
  | .value => 12
  | .expressionStatement | .assigned => 13
  | .simple => 15
  | .simpleLine => 16
  | .statement | .suite => 17
  | .module => 18
  | _ => 1

mutual

/-- How many steps deep the pattern is read, if each token taken on the way pays for a hundred. -/
def cost : Pattern → Nat
  | terminal _ => 1
  | rule r => 10 * level r + 1
  | seq ps => costInSeq ps
  | alt ps => costInAlt ps
  | many p | opt p | ahead p | notAhead p => p.cost + 1

/-- The steps of the patterns one behind the other. -/
def costInSeq : List Pattern → Nat
  | [] => 1
  | p :: ps => max p.cost (if p.takes then costInSeq ps - 100 else costInSeq ps) + 1

/-- The steps of the patterns one after the other at the same place. -/
def costInAlt : List Pattern → Nat
  | [] => 1
  | p :: ps => max p.cost (costInAlt ps) + 1

end

theorem cost_grammar_le (r : Rule) : (grammar r).cost ≤ 10 * level r := by
  cases r <;> decide

theorem cost_pos (p : Pattern) : 0 < p.cost := by
  cases p with
  | seq ps => cases ps <;> simp [cost, costInSeq]
  | alt ps => cases ps <;> simp [cost, costInAlt]
  | _ => simp [cost]

end Pattern

/-- A reading of a pattern that takes a token is not empty. -/
theorem tokensOfList_ne_nil {p : Pattern} {trees : List Tree} (h : Reads p trees)
    (hp : p.takes = true) : tokensOfList trees ≠ [] := by
  induction h with
  | terminal => simp
  | @visible r _ _ _ ih =>
    rw [tokensOfList_node]
    exact ih (Pattern.takes_grammar (bne_iff_ne.mp hp))
  | @hidden r _ _ _ ih => exact ih (Pattern.takes_grammar (bne_iff_ne.mp hp))
  | alt hmem _ ih => exact ih (Pattern.takes_of_mem hp hmem)
  | next _ _ ihfront ihback =>
    rw [tokensOfList_append]
    rcases Bool.or_eq_true_iff.mp hp with hfront | hback
    · exact List.append_ne_nil_of_left_ne_nil (ihfront hfront) _
    · exact List.append_ne_nil_of_right_ne_nil _ (ihback hback)
  | done | stop | more | absent | present | ahead | notAhead => cases hp

theorem length_rest_le {fuel : Nat} {p : Pattern} {ts : List Token} {trees : List Tree}
    {rest : List Token} (h : (readPattern fuel p ts).found = some (trees, rest)) :
    rest.length ≤ ts.length := by
  obtain ⟨-, hts⟩ := reads_of_readPattern fuel p ts h
  simp [hts]

theorem length_rest_lt {fuel : Nat} {p : Pattern} {ts : List Token} {trees : List Tree}
    {rest : List Token} (h : (readPattern fuel p ts).found = some (trees, rest))
    (hp : p.takes = true) : rest.length < ts.length := by
  obtain ⟨hreads, hts⟩ := reads_of_readPattern fuel p ts h
  have hpos := List.length_pos_iff.mpr (tokensOfList_ne_nil hreads hp)
  rw [hts, List.length_append]
  omega

/-! ## Enough fuel -/

/-- The fuel that suffices to read the pattern at the front of the tokens. -/
def enough (p : Pattern) (ts : List Token) : Nat :=
  100 * ts.length + p.cost

theorem enough_pos (p : Pattern) (ts : List Token) : 0 < enough p ts :=
  Nat.lt_of_lt_of_le p.cost_pos (Nat.le_add_left _ _)

theorem enough_grammar_lt (r : Rule) (ts : List Token) :
    enough (grammar r) ts < enough (.rule r) ts := by
  have := Pattern.cost_grammar_le r
  simp only [enough, Pattern.cost]
  omega

theorem enough_first_lt (p : Pattern) (ps : List Pattern) (ts : List Token) :
    enough p ts < enough (.seq (p :: ps)) ts := by
  simp only [enough, Pattern.cost, Pattern.costInSeq]
  omega

/-- What is read behind a pattern takes less: either tokens are gone, or its steps are counted. -/
theorem enough_rest_lt {fuel : Nat} {p : Pattern} {ts : List Token} {trees : List Tree}
    {rest : List Token} (h : (readPattern fuel p ts).found = some (trees, rest))
    (ps : List Pattern) : enough (.seq ps) rest < enough (.seq (p :: ps)) ts := by
  simp only [enough, Pattern.cost, Pattern.costInSeq]
  split
  · rename_i hp
    have := length_rest_lt h hp
    omega
  · have := length_rest_le h
    omega

theorem enough_again_lt {fuel : Nat} {p : Pattern} {ts : List Token} {trees : List Tree}
    {rest : List Token} (h : (readPattern fuel p ts).found = some (trees, rest))
    (hp : p.takes = true) : enough (.many p) rest < enough (.many p) ts := by
  have := length_rest_lt h hp
  simp only [enough]
  omega

theorem enough_alternative_lt (p : Pattern) (ps : List Pattern) (ts : List Token) :
    enough p ts < enough (.alt (p :: ps)) ts ∧
      enough (.alt ps) ts < enough (.alt (p :: ps)) ts := by
  simp only [enough, Pattern.cost, Pattern.costInAlt]
  omega

/-- **With enough fuel the answer does not depend on it.** -/
theorem readPattern_eq_of_enough {fuel fuel' : Nat} {p : Pattern} {ts : List Token}
    (hp : p.ends = true) (h : enough p ts ≤ fuel) (h' : enough p ts ≤ fuel') :
    readPattern fuel p ts = readPattern fuel' p ts := by
  induction fuel generalizing fuel' p ts with
  | zero => exact absurd h (Nat.not_le_of_lt (enough_pos p ts))
  | succ fuel ih =>
    obtain ⟨fuel', rfl⟩ := Nat.exists_eq_add_one.mpr (Nat.lt_of_lt_of_le (enough_pos p ts) h')
    -- every call below is on a pattern and tokens for which less is enough
    have hstep : ∀ q us, q.ends = true → enough q us < enough p ts →
        readPattern fuel q us = readPattern fuel' q us := fun q us hq hlt =>
      ih hq (Nat.le_of_lt_succ (Nat.lt_of_lt_of_le hlt h))
        (Nat.le_of_lt_succ (Nat.lt_of_lt_of_le hlt h'))
    cases p with
    | terminal t => rfl
    | rule r =>
      rw [readPattern, readPattern, hstep _ ts (Pattern.ends_grammar r) (enough_grammar_lt r ts)]
    | seq ps =>
      rcases ps with _ | ⟨p, ps⟩
      · rfl
      obtain ⟨hfirst, hrest⟩ := Bool.and_eq_true_iff.mp hp
      rw [readPattern, readPattern, hstep p ts hfirst (enough_first_lt p ps ts)]
      rcases hfound : (readPattern fuel' p ts).found with _ | ⟨trees, rest⟩
      · rfl
      · dsimp only
        rw [hstep (.seq ps) rest hrest (enough_rest_lt hfound ps)]
    | alt ps =>
      rcases ps with _ | ⟨p, ps⟩
      · rfl
      obtain ⟨hfirst, hrest⟩ := Bool.and_eq_true_iff.mp hp
      obtain ⟨hlt, hlt'⟩ := enough_alternative_lt p ps ts
      rw [readPattern, readPattern, hstep p ts hfirst hlt, hstep (.alt ps) ts hrest hlt']
    | many p =>
      obtain ⟨htakes, hends⟩ := Bool.and_eq_true_iff.mp hp
      rw [readPattern, readPattern, hstep p ts hends (Nat.lt_succ_self _)]
      rcases hfound : (readPattern fuel' p ts).found with _ | ⟨trees, rest⟩
      · rfl
      · dsimp only
        rw [hstep (.many p) rest hp (enough_again_lt hfound htakes)]
    | opt p | ahead p | notAhead p =>
      have hread := hstep p ts hp (Nat.lt_succ_self _)
      simp only [readPattern, hread]

/-- **The fuel of `Tree.read` is enough** for any tokens: more of it changes nothing. -/
theorem readPattern_eq_of_le {fuel : Nat} {ts : List Token} (h : 100 * (ts.length + 10) ≤ fuel) :
    readPattern fuel (.rule .module) ts
      = readPattern (100 * (ts.length + 10)) (.rule .module) ts := by
  have henough : enough (.rule .module) ts ≤ 100 * (ts.length + 10) := by
    simp only [enough, Pattern.cost, Pattern.level]
    omega
  exact readPattern_eq_of_enough rfl (Nat.le_trans henough h) henough

/-- **A source is refused by the grammar and never for lack of fuel.** -/
theorem read_eq_error_iff {ts : List Token} :
    (∃ line, Tree.read ts = .error line) ↔
      ∃ least, ∀ fuel ≥ least, (readPattern fuel (.rule .module) ts).found = none := by
  have hread : (∃ line, Tree.read ts = .error line) ↔
      (readPattern (100 * (ts.length + 10)) (.rule .module) ts).found = none := by
    unfold Tree.read
    dsimp only
    split
    · rename_i hfound
      simp [hfound]
    · rename_i hfound
      simp [hfound]
  rw [hread]
  constructor
  · exact fun hnone => ⟨_, fun fuel hfuel => by rw [readPattern_eq_of_le hfuel, hnone]⟩
  · rintro ⟨least, hleast⟩
    have hmore := hleast _ (Nat.le_max_left least (100 * (ts.length + 10)))
    rwa [readPattern_eq_of_le (Nat.le_max_right least _)] at hmore

end DocAudit.Python
