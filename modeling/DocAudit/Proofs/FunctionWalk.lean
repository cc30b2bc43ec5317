import DocAudit.Extraction
import DocAudit.Proofs.DefinitionParts

/-!
# Proofs/FunctionWalk — the functions that the bodies of a module and its classes hold

`Reached classes body f` says where a function has to stand to be documented by itself: it is a
member of the body, alone or below decorators, or a member of the body of a class that is one.
Extraction goes the other way round, from trees to statements and from these to definitions, and
never speaks of bodies.

`functionsOfList` is that walk without what it computes on the way: extraction is the walk followed
by `Found.definition`, and leaving classes out is a filter on it (`definitions_statementsOfList`).
The walk passes through whatever it meets, so it agrees with `Reached` only where the trees are
readings: there a body holds no stray blocks and the head of a class holds no functions
(`mem_functionsOfList_iff`).
-/

namespace DocAudit.Python

open DocAudit.Python.Tree

/-! ## Where functions stand -/

/-- A function definition where it stands: the classes around it, the parts of the decorated
definition it is in, if it is in one, and its own parts. -/
structure Found where
  classes : List String
  decorated : List Tree
  parts : List Tree

/-- The tree is a member of the body, alone or below decorators. -/
inductive Stands (body : List Tree) : List Tree → Tree → Prop
  | plain {tree : Tree} (h : tree ∈ body) : Stands body [] tree
  | decorated {parts : List Tree} {tree : Tree} (h : node .decorated parts ∈ body)
      (htree : tree ∈ parts) : Stands body parts tree

/-- The function is a member of the body, or a member of the body of a class that is reached in the
same way. -/
inductive Reached : List String → List Tree → Found → Prop
  | function {classes : List String} {body decorated parts : List Tree}
      (h : Stands body decorated (node .functionDef parts)) :
      Reached classes body ⟨classes, decorated, parts⟩
  | member {classes : List String} {body decorated parts members : List Tree} {name : Token}
      {f : Found} (h : Stands body decorated (node .classDef parts))
      (hclass : Headed "class" name members parts)
      (hmember : Reached (classes ++ [name.text]) members f) : Reached classes body f

/-! ## The walk -/

namespace Tree

mutual

/-- The functions that a walk over a tree passes, in the given classes and below the given
decorators. -/
def functions (classes : List String) (decorated : List Tree) : Tree → List Found
  | leaf _ => []
  | node .functionDef parts => [⟨classes, decorated, parts⟩]
  | node .classDef parts => functionsOfList (classes ++ [wordBehind "class" parts]) [] parts
  | node .decorated parts => functionsOfList classes parts parts
  | node .suite parts => functionsOfList classes [] parts
  | node _ _ => []

/-- The functions that a walk over several trees passes. -/
def functionsOfList (classes : List String) (decorated : List Tree) : List Tree → List Found
  | [] => []
  | tree :: trees => tree.functions classes decorated ++ functionsOfList classes decorated trees

end

theorem mem_functionsOfList {classes : List String} {decorated trees : List Tree} {f : Found} :
    f ∈ functionsOfList classes decorated trees ↔
      ∃ tree ∈ trees, f ∈ tree.functions classes decorated := by
  induction trees with
  | nil => simp [functionsOfList]
  | cons tree trees ih => simp [functionsOfList, ih]

mutual

theorem length_le_of_mem_functions {classes : List String} {decorated : List Tree} {f : Found}
    (tree : Tree) (hf : f ∈ tree.functions classes decorated) :
    classes.length ≤ f.classes.length := by
  unfold functions at hf
  split at hf
  · cases hf
  · obtain rfl := List.mem_singleton.mp hf
    exact Nat.le_refl _
  · rename_i parts
    have hlength := length_le_of_mem_functionsOfList parts hf
    rw [List.length_append, List.length_singleton] at hlength
    exact Nat.le_of_succ_le hlength
  · exact length_le_of_mem_functionsOfList _ hf
  · exact length_le_of_mem_functionsOfList _ hf
  · cases hf

theorem length_le_of_mem_functionsOfList {classes : List String} {decorated : List Tree} {f : Found}
    (trees : List Tree) (hf : f ∈ functionsOfList classes decorated trees) :
    classes.length ≤ f.classes.length := by
  match trees with
  | [] => cases hf
  | tree :: trees =>
    rw [functionsOfList, List.mem_append] at hf
    exact hf.elim (length_le_of_mem_functions tree) (length_le_of_mem_functionsOfList trees)

end

mutual

/-- The tokens of the functions that a walk passes are tokens of its tree, in the same order. -/
theorem sublist_tokens_functions (classes : List String) (decorated : List Tree) (tree : Tree) :
    ((tree.functions classes decorated).flatMap fun f => tokensOfList f.parts).Sublist
      tree.tokens := by
  unfold functions
  split
  · exact List.nil_sublist _
  · rw [List.flatMap_singleton]
    exact List.Sublist.refl _
  · exact sublist_tokens_functionsOfList _ _ _
  · exact sublist_tokens_functionsOfList _ _ _
  · exact sublist_tokens_functionsOfList _ _ _
  · exact List.nil_sublist _

theorem sublist_tokens_functionsOfList (classes : List String) (decorated trees : List Tree) :
    ((functionsOfList classes decorated trees).flatMap fun f => tokensOfList f.parts).Sublist
      (tokensOfList trees) := by
  match trees with
  | [] => exact List.nil_sublist _
  | tree :: trees =>
    rw [functionsOfList, List.flatMap_append]
    exact (sublist_tokens_functions classes decorated tree).append
      (sublist_tokens_functionsOfList classes decorated trees)

end

end Tree

/-! ## Extraction is the walk -/

/-- The definition of a function. -/
def Found.definition (ctx : Context) (source : List Char) (f : Found) : Definition :=
  definitionOf ctx f.classes (headOf source (decoratorsOf source f.decorated) f.parts)
    (statementsOfList source [] f.parts)

theorem definitionsOfList_append (ctx : Context) (intoClasses : Bool) (classes : List String)
    (front back : List Statement) :
    definitionsOfList ctx intoClasses classes (front ++ back) =
      definitionsOfList ctx intoClasses classes front ++
        definitionsOfList ctx intoClasses classes back := by
  induction front with
  | nil => rfl
  | cons s front ih =>
    rw [List.cons_append, definitionsOfList, ih, definitionsOfList, List.append_assoc]

theorem definitionsOfList_simpleOf (ctx : Context) (intoClasses : Bool) (classes : List String)
    (source : List Char) (parts : List Tree) :
    definitionsOfList ctx intoClasses classes [simpleOf source parts] = [] := by
  unfold simpleOf
  repeat' split
  all_goals rfl

/-- The classes whose functions count: all of them, or those around the walk. -/
def counts (intoClasses : Bool) (classes : List String) (f : Found) : Bool :=
  intoClasses || f.classes.length == classes.length

theorem filter_counts_member (classes : List String) (name : String) (parts : List Tree) :
    (functionsOfList (classes ++ [name]) [] parts).filter (counts false classes) = [] := by
  refine List.filter_eq_nil_iff.mpr fun f hf => ?_
  have hlength := length_le_of_mem_functionsOfList parts hf
  rw [List.length_append, List.length_singleton] at hlength
  simp only [counts, Bool.false_or, beq_iff_eq]
  omega

mutual

/-- The definitions of a tree are those of the functions that the walk passes. -/
theorem definitions_statements (ctx : Context) (intoClasses : Bool) (classes : List String)
    (source : List Char) (decorated : List Tree) (tree : Tree) :
    definitionsOfList ctx intoClasses classes
        (tree.statements source (decoratorsOf source decorated)) =
      ((tree.functions classes decorated).filter (counts intoClasses classes)).map
        (Found.definition ctx source) := by
  unfold functions
  split
  · rfl
  · rename_i parts
    rw [List.filter_cons_of_pos (by simp [counts])]
    rfl
  · rename_i parts
    rw [statements, definitionsOfList, definitions, definitionsOfList, List.append_nil]
    cases intoClasses
    · rw [filter_counts_member]
      rfl
    · rw [if_pos rfl]
      exact definitions_statementsOfList ctx true _ source [] parts
  · exact definitions_statementsOfList ctx intoClasses classes source _ _
  · exact definitions_statementsOfList ctx intoClasses classes source [] _
  · -- what is left gives statements that hold no definitions, or no statements at all
    rename_i r parts hfunction hclass hdecorated hsuite
    cases r <;> first
      | rfl
      | contradiction
      | exact definitionsOfList_simpleOf ctx intoClasses classes source parts

theorem definitions_statementsOfList (ctx : Context) (intoClasses : Bool) (classes : List String)
    (source : List Char) (decorated trees : List Tree) :
    definitionsOfList ctx intoClasses classes
        (statementsOfList source (decoratorsOf source decorated) trees) =
      ((functionsOfList classes decorated trees).filter (counts intoClasses classes)).map
        (Found.definition ctx source) := by
  match trees with
  | [] => rfl
  | tree :: trees =>
    rw [statementsOfList, definitionsOfList_append, functionsOfList, List.filter_append,
      List.map_append, definitions_statements ctx intoClasses classes source decorated tree,
      definitions_statementsOfList ctx intoClasses classes source decorated trees]

end

/-! ## The walk passes what is reached -/

theorem Stands.under {body decorated : List Tree} {tree : Tree} (h : Stands body decorated tree) :
    Under tree body ∧ ∀ d ∈ decorated, Under d body := by
  cases h with
  | plain hmem => exact ⟨.here hmem, nofun⟩
  | decorated hnode htree =>
    exact ⟨.deeper hnode (.here htree), fun d hd => .deeper hnode (.here hd)⟩

theorem Reached.under {classes : List String} {body : List Tree} {f : Found}
    (h : Reached classes body f) :
    Under (node .functionDef f.parts) body ∧ ∀ d ∈ f.decorated, Under d body := by
  induction h with
  | function h => exact h.under
  | member h hclass _ ih =>
    have hsuite := Under.here hclass.suite_mem
    exact ⟨(ih.1.trans hsuite).trans h.under.1, fun d hd =>
      ((ih.2 d hd).trans hsuite).trans h.under.1⟩

/-- Nothing in the head of a definition is passed. -/
theorem mem_functionsOfList_of_headed {keyword : String} {name : Token} {body parts : List Tree}
    (h : Headed keyword name body parts) {classes : List String} {f : Found} :
    f ∈ functionsOfList classes [] parts ↔ f ∈ functionsOfList classes [] body := by
  constructor
  · intro hf
    obtain ⟨tree, htree, hf⟩ := mem_functionsOfList.mp hf
    cases h with
    | @intro front head mark hfront hmark hname hhead =>
      have htree' : (∃ t, tree = leaf t) ∨ tree ∈ head ∨ tree = node .suite body := by
        obtain rfl | ⟨t, rfl, -⟩ := hfront <;> simp at htree <;> grind
      obtain ⟨t, rfl⟩ | hmem | rfl := htree'
      · cases hf
      · cases tree with
        | leaf t => cases hf
        | node r children =>
          have hr := hhead r children hmem
          simp only [List.mem_cons, List.not_mem_nil, or_false] at hr
          obtain rfl | rfl | rfl := hr <;> cases hf
      · exact hf
  · exact fun hf => mem_functionsOfList.mpr ⟨node .suite body, h.suite_mem, hf⟩

theorem mem_functionsOfList_of_stands {body decorated : List Tree} {tree : Tree}
    (h : Stands body decorated tree) {classes : List String} {f : Found}
    (hf : f ∈ tree.functions classes decorated) : f ∈ functionsOfList classes [] body := by
  cases h with
  | plain hmem => exact mem_functionsOfList.mpr ⟨tree, hmem, hf⟩
  | decorated hnode htree =>
    exact mem_functionsOfList.mpr ⟨_, hnode, mem_functionsOfList.mpr ⟨tree, htree, hf⟩⟩

theorem mem_functionsOfList_of_reached {classes : List String} {body : List Tree} {f : Found}
    (h : Reached classes body f) : f ∈ functionsOfList classes [] body := by
  induction h with
  | function h => exact mem_functionsOfList_of_stands h (List.mem_singleton_self _)
  | member h hclass _ ih =>
    refine mem_functionsOfList_of_stands h ?_
    rw [functions, wordBehind_of_headed hclass (by decide)]
    exact (mem_functionsOfList_of_headed hclass).mpr ih

/-- What the walk over a body passes, it passes in a definition that is a member. -/
theorem exists_stands_of_mem_functionsOfList {body : List Tree} (hbody : IsBody body)
    {classes : List String} {f : Found} (hf : f ∈ functionsOfList classes [] body) :
    ∃ decorated r parts, Stands body decorated (node r parts) ∧ r ∈ [Rule.functionDef, .classDef] ∧
      f ∈ (node r parts).functions classes decorated := by
  obtain ⟨tree, htree, hf⟩ := mem_functionsOfList.mp hf
  cases tree with
  | leaf t => cases hf
  | node r parts =>
    have hrule := hbody.rule_of_mem htree
    simp only [List.mem_cons, List.not_mem_nil, or_false] at hrule
    obtain rfl | rfl | rfl | rfl | rfl := hrule
    · obtain ⟨decorators, r, children, rfl, hr, hdecorators⟩ :=
        parts_of_reads_decorated (hbody.reads_of_under (.here htree))
      refine ⟨_, r, children, .decorated htree (by simp), hr, ?_⟩
      obtain ⟨tree, hmem, hf⟩ := mem_functionsOfList.mp hf
      obtain hmem | hmem := List.mem_append.mp hmem
      · cases tree with
        | leaf t => cases hf
        | node s trees =>
          obtain rfl := hdecorators s trees hmem
          cases hf
      · rwa [List.mem_singleton.mp hmem] at hf
    · exact ⟨[], _, parts, .plain htree, by decide, hf⟩
    · exact ⟨[], _, parts, .plain htree, by decide, hf⟩
    · cases hf
    · cases hf

theorem sizeOf_lt_of_under {tree : Tree} {trees : List Tree} (h : Under tree trees) :
    sizeOf tree < sizeOf trees := by
  induction h with
  | here hmem => exact List.sizeOf_lt_of_mem hmem
  | deeper hmem _ ih =>
    have hnode := List.sizeOf_lt_of_mem hmem
    simp only [node.sizeOf_spec] at hnode
    omega

-- a body of a class is no part of the body around it, so the recursion goes by size
theorem reached_of_mem_functionsOfList {classes : List String} {body : List Tree}
    (hbody : IsBody body) {f : Found} (hf : f ∈ functionsOfList classes [] body) :
    Reached classes body f := by
  obtain ⟨decorated, r, parts, hstands, hr, hf⟩ := exists_stands_of_mem_functionsOfList hbody hf
  simp only [List.mem_cons, List.not_mem_nil, or_false] at hr
  obtain rfl | rfl := hr
  · rw [List.mem_singleton.mp hf]
    exact .function hstands
  · obtain ⟨name, members, hclass, hmembers⟩ :=
      headed_of_reads_classDef (hbody.reads_of_under hstands.under.1)
    rw [functions, wordBehind_of_headed hclass (by decide),
      mem_functionsOfList_of_headed hclass] at hf
    have hsmaller := sizeOf_lt_of_under ((Under.here hclass.suite_mem).trans hstands.under.1)
    exact .member hstands hclass (reached_of_mem_functionsOfList (.inr hmembers) hf)
termination_by sizeOf body
decreasing_by
  simp only [node.sizeOf_spec] at hsmaller
  omega

/-- **The walk over a body passes exactly the functions that are reached.** -/
theorem mem_functionsOfList_iff {classes : List String} {body : List Tree} (hbody : IsBody body)
    {f : Found} : f ∈ functionsOfList classes [] body ↔ Reached classes body f :=
  ⟨reached_of_mem_functionsOfList hbody, mem_functionsOfList_of_reached⟩

end DocAudit.Python
