import ImpLang.Program.Eval

/-! Running statements. A run ends where the statement does or at the first fault; what was assigned before a
fault stays. A bound limits the turns of each `while` loop, and a run that stays within one bound ends the same
way under every larger one. Counted loops need no bound. -/

namespace ImpLang

/-- Where a run ends: the variables it leaves, and the fault that ended it, if one did. -/
structure Halt where
  environment : Environment
  fault? : Option Fault := none
  deriving DecidableEq

/-- Runs the body again and again while the test holds, trying the test at most `n` times. -/
def whileLoop (test : Environment → Except Fault Bool) (body : Environment → Option Halt) :
    Nat → Environment → Option Halt
  | 0, _ => none
  | n + 1, e =>
    match test e with
    | .error f => some ⟨e, some f⟩
    | .ok false => some ⟨e, none⟩
    | .ok true =>
      match body e with
      | some ⟨e', none⟩ => whileLoop test body n e'
      | h => h

/-- Runs the body the given number of times. -/
def countedLoop (body : Environment → Option Halt) : Nat → Environment → Option Halt
  | 0, e => some ⟨e, none⟩
  | k + 1, e =>
    match body e with
    | some ⟨e', none⟩ => countedLoop body k e'
    | h => h

/-- Runs a statement with at most `n` turns in each `while` loop; a negative count is none. -/
def Statement.exec (n : Nat) : Statement → Environment → Option Halt
  | assign x a, e =>
    match a.eval e with
    | .ok v => some ⟨e.set x v, none⟩
    | .error f => some ⟨e, some f⟩
  | compound s t, e =>
    match s.exec n e with
    | some ⟨e', none⟩ => t.exec n e'
    | h => h
  | ifThen b s, e =>
    match b.eval e with
    | .ok true => s.exec n e
    | .ok false => some ⟨e, none⟩
    | .error f => some ⟨e, some f⟩
  | ifThenElse b s t, e =>
    match b.eval e with
    | .ok true => s.exec n e
    | .ok false => t.exec n e
    | .error f => some ⟨e, some f⟩
  | whileDo b s, e => whileLoop (fun e => b.eval e) (s.exec n) n e
  | repeatTimes k s, e => countedLoop (s.exec n) k.toInt.toNat e

end ImpLang
