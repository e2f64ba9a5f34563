import ImpLang.Parser.Cursor

/-! Parsers over token lists. A parser is data: it may call rules by name, and rules may call each other and
themselves, so running one takes a bound on how deep calls nest and how often a repetition goes round. A run
within the bound ends the same way under every larger bound. -/

namespace ImpLang

/-- Parsers with values of a given type, calling rules named by `ρ`. -/
inductive Parser (ρ : Type → Type) : Type → Type 1 where
  /-- The token with this text and kind; its value is the text. -/
  | reserved (lexeme : String) (kind : TokenKind) : Parser ρ String
  /-- Any token of the kind; its value is the text. -/
  | tag (kind : TokenKind) : Parser ρ String
  | epsilon : Parser ρ Unit
  | failure {α : Type} : Parser ρ α
  | pair {α β : Type} (p : Parser ρ α) (q : Parser ρ β) : Parser ρ (α × β)
  /-- Ordered choice: the second part is tried, at the same place, only when the first fails. -/
  | either {α : Type} (p q : Parser ρ α) : Parser ρ α
  | map {α β : Type} (f : α → β) (p : Parser ρ α) : Parser ρ β
  /-- Fails on a value that `f` rejects. -/
  | tryMap {α β : Type} (f : α → Option β) (p : Parser ρ α) : Parser ρ β
  | filter {α : Type} (accepts : α → Bool) (p : Parser ρ α) : Parser ρ α
  | maybe {α : Type} (p : Parser ρ α) : Parser ρ (Option α)
  | zeroOrMore {α : Type} (p : Parser ρ α) : Parser ρ (List α)
  | oneOrMore {α : Type} (p : Parser ρ α) : Parser ρ (List α)
  /-- One or more items; a separator with no item after it stays unread. -/
  | sepBy {α β : Type} (item : Parser ρ α) (separator : Parser ρ β) : Parser ρ (List α)
  /-- Like `sepBy`, but each separator yields the function that joins the value so far with the next. -/
  | fold {α : Type} (operand : Parser ρ α) (operator : Parser ρ (α → α → α)) : Parser ρ α
  /-- Fails unless the part ends where the tokens end. -/
  | phrase {α : Type} (p : Parser ρ α) : Parser ρ α
  /-- A part that is built when it is first run. -/
  | delay {α : Type} (p : Parser ρ α) : Parser ρ α
  | call {α : Type} (rule : ρ α) : Parser ρ α

/-- How a rule behaves at a cursor. -/
abbrev Calls (ρ : Type → Type) := (α : Type) → ρ α → Cursor → Outcome α

/-- What each rule stands for. -/
abbrev Rules (ρ : Type → Type) := (α : Type) → ρ α → Parser ρ α

/-- Repeats a step until it fails, at most `n` times round. -/
def iterate {σ : Type} (step : σ → Cursor → Outcome σ) : Nat → σ → Cursor → Outcome σ
  | 0, _, _ => .unfinished
  | n + 1, s, c =>
    match step s c with
    | .unfinished => .unfinished
    | .failed => .matched s c
    | .matched s' c' => iterate step n s' c'

namespace Parser

variable {ρ : Type → Type} {α β : Type}

def left (p : Parser ρ α) (q : Parser ρ β) : Parser ρ α := map Prod.fst (pair p q)

def right (p : Parser ρ α) (q : Parser ρ β) : Parser ρ β := map Prod.snd (pair p q)

def discard (p : Parser ρ α) : Parser ρ Unit := map (fun _ => ()) p

/-- The behaviour of a parser, given that of the rules, with at most `n` rounds in each repetition. -/
def matchAt (n : Nat) (calls : Calls ρ) {α : Type} : Parser ρ α → Cursor → Outcome α
  | reserved lexeme kind, c => .ofOption (c.token? fun t => t.kind == kind && t.lexeme == lexeme)
  | tag kind, c => .ofOption (c.token? fun t => t.kind == kind)
  | epsilon, c => .matched () c
  | failure, _ => .failed
  | pair p q, c => (p.matchAt n calls c).bind fun v d => (q.matchAt n calls d).map fun w => (v, w)
  | either p q, c => (p.matchAt n calls c).orElse fun _ => q.matchAt n calls c
  | map f p, c => (p.matchAt n calls c).map f
  | tryMap f p, c => (p.matchAt n calls c).bind fun v d =>
      match f v with
      | some w => .matched w d
      | none => .failed
  | filter accepts p, c => (p.matchAt n calls c).bind fun v d => if accepts v then .matched v d else .failed
  | maybe p, c => ((p.matchAt n calls c).map some).orElse fun _ => .matched none c
  | zeroOrMore p, c =>
      (iterate (fun vs d => (p.matchAt n calls d).map (· :: vs)) n [] c).map List.reverse
  | oneOrMore p, c =>
      (p.matchAt n calls c).bind fun v d =>
        (iterate (fun vs e => (p.matchAt n calls e).map (· :: vs)) n [v] d).map List.reverse
  | sepBy p q, c =>
      (p.matchAt n calls c).bind fun v d =>
        (iterate (fun vs e => (q.matchAt n calls e).bind fun _ e' => (p.matchAt n calls e').map (· :: vs))
          n [v] d).map List.reverse
  | fold p q, c =>
      (p.matchAt n calls c).bind fun v d =>
        iterate (fun acc e => (q.matchAt n calls e).bind fun f e' => (p.matchAt n calls e').map (f acc)) n v d
  | phrase p, c => (p.matchAt n calls c).bind fun v d => if d.atEnd then .matched v d else .failed
  | delay p, c => p.matchAt n calls c
  | call r, c => calls _ r c

/-- The rules with calls nested at most `n` deep. -/
def callsWithin (rules : Rules ρ) : Nat → Calls ρ
  | 0 => fun _ _ _ => .unfinished
  | n + 1 => fun _ r => (rules _ r).matchAt n (callsWithin rules n)

/-- Runs a parser within the bound `n`. -/
def run (rules : Rules ρ) (n : Nat) (p : Parser ρ α) (c : Cursor) : Outcome α :=
  p.matchAt n (callsWithin rules n) c

/-- The same parser with its rules called by other names. -/
def rename {σ : Type → Type} (f : (α : Type) → ρ α → σ α) {α : Type} : Parser ρ α → Parser σ α
  | reserved lexeme kind => reserved lexeme kind
  | tag kind => tag kind
  | epsilon => epsilon
  | failure => failure
  | pair p q => pair (p.rename f) (q.rename f)
  | either p q => either (p.rename f) (q.rename f)
  | map g p => map g (p.rename f)
  | tryMap g p => tryMap g (p.rename f)
  | filter accepts p => filter accepts (p.rename f)
  | maybe p => maybe (p.rename f)
  | zeroOrMore p => zeroOrMore (p.rename f)
  | oneOrMore p => oneOrMore (p.rename f)
  | sepBy p q => sepBy (p.rename f) (q.rename f)
  | fold p q => fold (p.rename f) (q.rename f)
  | phrase p => phrase (p.rename f)
  | delay p => delay (p.rename f)
  | call r => call (f _ r)

end Parser
end ImpLang
