/-! The Jaro similarity of two words, from 0 to 1. Characters match when they are equal and no further apart
than the window allows, each one once; matches that stand in another order count for less. -/

namespace ImpLang

def jaroWindow (a b : List Char) : Nat := max a.length b.length / 2 - 1

/-- The place in `b` that matches character `c` at place `i`: the first within the window not yet taken. -/
def jaroPartner? (window : Nat) (b : List Char) (taken : List Nat) (i : Nat) (c : Char) : Option Nat :=
  (List.range (min b.length (i + window + 1))).find? fun j =>
    i - window ≤ j && b[j]? == some c && !taken.contains j

/-- The matching pairs of places, in the order of the first word. -/
def jaroPairs (a b : List Char) : List (Nat × Nat) :=
  a.zipIdx.foldl
    (fun pairs (c, i) =>
      match jaroPartner? (jaroWindow a b) b (pairs.map (·.2)) i c with
      | some j => pairs ++ [(i, j)]
      | none => pairs)
    []

def jaro (first second : String) : Float :=
  let a := first.toList
  let b := second.toList
  let pairs := jaroPairs a b
  let inFirst := pairs.filterMap fun p => a[p.1]?
  let inSecond := ((pairs.map (·.2)).mergeSort).filterMap fun j => b[j]?
  let moved := (inFirst.zip inSecond).countP fun p => p.1 != p.2
  let matching := pairs.length.toFloat
  if pairs.isEmpty then if a.isEmpty && b.isEmpty then 1 else 0
  else
    (matching / a.length.toFloat + matching / b.length.toFloat
      + (pairs.length - moved / 2).toFloat / matching) / 3

end ImpLang
