/-!
# Sets of characters given by their boundaries

A property of characters that a standard lays down as a table is kept as the ascending list of the
code points at which membership changes: the first boundary starts a range of members, the second
one ends it, and so on.

## Main definitions

* `within` — membership in the set with the given boundaries

## Main results

* `within_cons_of_lt`, `within_cons_of_le` — how the first boundary decides
-/

namespace ComponentCompiler.Text

/-- Whether the number of boundaries up to a code point is odd, for an ascending list of
boundaries. -/
def within : List Nat → Nat → Bool
  | [], _ => false
  | boundary :: rest, n => if n < boundary then false else !within rest n

theorem within_cons_of_lt {boundary n : Nat} (rest : List Nat) (below : n < boundary) :
    within (boundary :: rest) n = false := by
  simp [within, below]

theorem within_cons_of_le {boundary n : Nat} (rest : List Nat) (reached : boundary ≤ n) :
    within (boundary :: rest) n = !within rest n := by
  simp [within, Nat.not_lt.2 reached]

end ComponentCompiler.Text
