import ImpLang.Parser.Basic
import Std.Data.HashSet.Basic

/-! Which delayed parts a run builds. A delayed part is known by its path, the way down to it from the whole
parser through the parts and rules that enclose it, innermost step first: so each copy of a rule has delayed
parts of its own. A part is built when a run first enters it and is kept from then on, so the number built is
the number of different paths entered. -/

namespace ImpLang

abbrev Path := List Nat

namespace Parser

variable {ρ : Type → Type}

/-- The paths entered while a step repeats, each round at the place where the last one stopped. -/
def enteredIn (step : Cursor → Outcome Unit) (entered : Cursor → List Path) : Nat → Cursor → List Path
  | 0, _ => []
  | n + 1, c =>
    entered c ++
      match step c with
      | .matched _ d => enteredIn step entered n d
      | _ => []

/-- The paths entered after a match, at the place where it stopped. -/
def enteredAfter {α : Type} (o : Outcome α) (entered : Cursor → List Path) : List Path :=
  match o with
  | .matched _ d => entered d
  | _ => []

/-- The paths of the delayed parts that a run enters, in order; `calls` and `enteredBy` say what rules do. -/
def entered (n : Nat) (calls : Calls ρ) (enteredBy : (α : Type) → ρ α → Path → Cursor → List Path)
    {α : Type} : Parser ρ α → Path → Cursor → List Path
  | pair p q, π, c =>
    p.entered n calls enteredBy (0 :: π) c
      ++ enteredAfter (p.matchAt n calls c) (q.entered n calls enteredBy (1 :: π))
  | either p q, π, c =>
    p.entered n calls enteredBy (0 :: π) c
      ++ match p.matchAt n calls c with
        | .failed => q.entered n calls enteredBy (1 :: π) c
        | _ => []
  | map _ p, π, c => p.entered n calls enteredBy π c
  | tryMap _ p, π, c => p.entered n calls enteredBy π c
  | filter _ p, π, c => p.entered n calls enteredBy π c
  | maybe p, π, c => p.entered n calls enteredBy π c
  | phrase p, π, c => p.entered n calls enteredBy π c
  | zeroOrMore p, π, c =>
    enteredIn (fun d => p.discard.matchAt n calls d) (p.entered n calls enteredBy π) n c
  | oneOrMore p, π, c =>
    enteredIn (fun d => p.discard.matchAt n calls d) (p.entered n calls enteredBy π) (n + 1) c
  | sepBy p q, π, c =>
    p.entered n calls enteredBy (0 :: π) c
      ++ enteredAfter (p.matchAt n calls c)
        (enteredIn (fun d => (right q p).discard.matchAt n calls d)
          (fun d => q.entered n calls enteredBy (1 :: π) d
            ++ enteredAfter (q.matchAt n calls d) (p.entered n calls enteredBy (0 :: π)))
          n)
  | fold p q, π, c =>
    p.entered n calls enteredBy (0 :: π) c
      ++ enteredAfter (p.matchAt n calls c)
        (enteredIn (fun d => (right q p).discard.matchAt n calls d)
          (fun d => q.entered n calls enteredBy (1 :: π) d
            ++ enteredAfter (q.matchAt n calls d) (p.entered n calls enteredBy (0 :: π)))
          n)
  | delay p, π, c => π :: p.entered n calls enteredBy (0 :: π) c
  | call r, π, c => enteredBy _ r π c
  | reserved _ _, _, _ => []
  | tag _, _, _ => []
  | epsilon, _, _ => []
  | failure, _, _ => []

/-- The paths entered inside rules, with calls nested at most `n` deep. -/
def enteredWithin (rules : Rules ρ) : Nat → (α : Type) → ρ α → Path → Cursor → List Path
  | 0 => fun _ _ _ _ => []
  | n + 1 => fun _ r => (rules _ r).entered n (callsWithin rules n) (enteredWithin rules n)

end Parser

/-- The delayed parts built so far. -/
structure Cells where
  built : Std.HashSet Path := ∅

namespace Cells

def count (cells : Cells) : Nat := cells.built.size

/-- Builds what a run of the parser within the bound `n` enters. -/
def run {ρ : Type → Type} {α : Type} (rules : Rules ρ) (n : Nat) (p : Parser ρ α) (c : Cursor)
    (cells : Cells) : Cells :=
  ⟨cells.built.insertMany
    (p.entered n (Parser.callsWithin rules n) (Parser.enteredWithin rules n) [] c)⟩

end Cells
end ImpLang
