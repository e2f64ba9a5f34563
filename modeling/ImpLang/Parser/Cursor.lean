import ImpLang.Token

/-! A cursor stands in front of a token, or past the last one. An outcome is what matching at a cursor comes
to: it fails, it yields a value and the cursor where it stopped, or it was cut short before either. -/

namespace ImpLang

structure Cursor where
  position : Nat
  rest : List Token
  deriving DecidableEq

namespace Cursor

/-- The cursor in front of the token with this index, which may lie past the end. -/
def ofTokens (tokens : List Token) (position : Nat) : Cursor := ⟨position, tokens.drop position⟩

def current? (c : Cursor) : Option Token := c.rest.head?

def atEnd (c : Cursor) : Bool := c.rest.isEmpty

/-- Matches one token, provided that it passes the test, and yields its lexeme. -/
def token? (c : Cursor) (test : Token → Bool) : Option (String × Cursor) :=
  match c.rest with
  | [] => none
  | t :: ts => if test t then some (t.lexeme, ⟨c.position + 1, ts⟩) else none

theorem atEnd_ofTokens (tokens : List Token) (position : Nat) :
    (ofTokens tokens position).atEnd = decide (tokens.length ≤ position) := by
  rw [Bool.eq_iff_iff]
  simp [atEnd, ofTokens]

theorem current?_ofTokens (tokens : List Token) (position : Nat) :
    (ofTokens tokens position).current? = tokens[position]? := by
  simp [current?, ofTokens]

end Cursor

inductive Outcome (α : Type) where
  | unfinished
  | failed
  | matched (value : α) (next : Cursor)

namespace Outcome

variable {α β γ : Type}

/-- Goes on from where a match stopped. -/
def bind : Outcome α → (α → Cursor → Outcome β) → Outcome β
  | unfinished, _ => unfinished
  | failed, _ => failed
  | matched v c, f => f v c

def map (f : α → β) (o : Outcome α) : Outcome β := o.bind fun v c => matched (f v) c

/-- The second outcome stands in for a failure, and for nothing else. -/
def orElse : Outcome α → (Unit → Outcome α) → Outcome α
  | unfinished, _ => unfinished
  | failed, f => f ()
  | matched v c, _ => matched v c

def ofOption : Option (α × Cursor) → Outcome α
  | none => failed
  | some (v, c) => matched v c

def value? : Outcome α → Option α
  | matched v _ => some v
  | _ => none

@[simp] theorem bind_unfinished (f : α → Cursor → Outcome β) : unfinished.bind f = unfinished := rfl
@[simp] theorem bind_failed (f : α → Cursor → Outcome β) : failed.bind f = failed := rfl
@[simp] theorem bind_matched (v : α) (c : Cursor) (f : α → Cursor → Outcome β) :
    (matched v c).bind f = f v c := rfl

@[simp] theorem orElse_unfinished (f : Unit → Outcome α) : unfinished.orElse f = unfinished := rfl
@[simp] theorem orElse_failed (f : Unit → Outcome α) : failed.orElse f = f () := rfl
@[simp] theorem orElse_matched (v : α) (c : Cursor) (f : Unit → Outcome α) :
    (matched v c).orElse f = matched v c := rfl

@[simp] theorem map_unfinished (f : α → β) : unfinished.map f = unfinished := rfl
@[simp] theorem map_failed (f : α → β) : failed.map f = failed := rfl
@[simp] theorem map_matched (v : α) (c : Cursor) (f : α → β) : (matched v c).map f = matched (f v) c := rfl

theorem bind_assoc (o : Outcome α) (f : α → Cursor → Outcome β) (g : β → Cursor → Outcome γ) :
    (o.bind f).bind g = o.bind fun v c => (f v c).bind g := by
  cases o <;> rfl

theorem map_map (o : Outcome α) (f : α → β) (g : β → γ) : (o.map f).map g = o.map fun v => g (f v) := by
  cases o <;> rfl

theorem map_bind (o : Outcome α) (f : α → Cursor → Outcome β) (g : β → γ) :
    (o.bind f).map g = o.bind fun v c => (f v c).map g := by
  cases o <;> rfl

theorem orElse_assoc (o : Outcome α) (f g : Unit → Outcome α) :
    (o.orElse f).orElse g = o.orElse fun u => (f u).orElse g := by
  cases o <;> rfl

end Outcome
end ImpLang
