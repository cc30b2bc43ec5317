/-!
# Firsts — the first element of each key

`firstsBy key l` keeps, in order, the elements of `l` whose key no earlier element has. Reports drop
repeated diagnostics with it, file lists drop repeated paths, and analyses list what is mentioned in
the order of first mention.
-/

namespace DocAudit

variable {α κ : Type}

/-- The elements whose key no earlier element of the list has, in order. -/
def firstsBy [DecidableEq κ] (key : α → κ) : List α → List α
  | [] => []
  | a :: l => a :: (firstsBy key l).filter fun b => key b ≠ key a

end DocAudit
