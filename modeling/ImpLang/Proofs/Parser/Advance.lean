import ImpLang.Proofs.Grammar.Recognition
import ImpLang.Proofs.Parser.Consumption
import ImpLang.Proofs.Parser.Nesting
import ImpLang.Proofs.Parser.Repetition

/-! Repetitions whose step gets on. Nothing but its parts bounds a repetition; but when each round,
taken as a whole, ends further on among the tokens than it began, no more rounds succeed than there
are tokens left, and the repetition ends if its parts do. -/

namespace ImpLang
namespace Behaviour

open ImpLang.Parser

variable {ρ : Type → Type} {α β : Type} {b : Behaviour ρ} {ts : List Token} {p : Parser ρ α}
  {s : Parser ρ β} {c e : Cursor} {q : Nat} {v : α} {vs : List α}

/-- A run of the parser ends, in a failure or in a match. -/
def Ends (b : Behaviour ρ) (p : Parser ρ α) (c : Cursor) : Prop :=
  b.Fails p c ∨ ∃ v d, b.Matches p c v d

/-- From wherever it starts, among the tokens or past them, a match of the parser stops further on and
not past their end. -/
def Advances (b : Behaviour ρ) (ts : List Token) (p : Parser ρ α) : Prop :=
  ∀ q v d, b.Matches p (.ofTokens ts q) v d → ∃ r, d = .ofTokens ts r ∧ q < r ∧ r ≤ ts.length

/-- A loop that repeats the step from position `q` of the tokens on comes to these values, one for
each round that succeeds, and stops at `e`; there are no more rounds than tokens left. -/
structure Loops (b : Behaviour ρ) (ts : List Token) (step : Parser ρ α) (q : Nat) (vs : List α)
    (e : Cursor) : Prop where
  rounds : b.MaximalChain step (.ofTokens ts q) vs e
  length_le : vs.length ≤ ts.length - q

theorem ends_pair (hs : ∀ c, b.Ends s c) (hp : ∀ c, b.Ends p c) (c : Cursor) :
    b.Ends (pair s p) c := by
  obtain hs | ⟨w, d, hs⟩ := hs c
  · exact Or.inl (fails_pair.2 (Or.inl hs))
  obtain hp | ⟨v, e, hp⟩ := hp d
  · exact Or.inl (fails_pair.2 (Or.inr ⟨w, d, hs, hp⟩))
  · exact Or.inr ⟨(w, v), e, matches_pair.2 ⟨d, hs, hp⟩⟩

/-- Each round that succeeds leaves fewer tokens for the rounds behind it. -/
theorem Advances.loops (ha : b.Advances ts p) (hp : ∀ c, b.Ends p c) (q : Nat) :
    ∃ vs e, b.Loops ts p q vs e := by
  obtain hfails | ⟨v, d, hv⟩ := hp (.ofTokens ts q)
  · exact ⟨[], _, ⟨.nil _, hfails⟩, Nat.zero_le _⟩
  obtain ⟨r, rfl, hqr, hr⟩ := ha q v d hv
  obtain ⟨vs, e, ⟨hchain, hstops⟩, hlength⟩ := ha.loops hp r
  refine ⟨v :: vs, e, ⟨.cons hv hchain, hstops⟩, ?_⟩
  rw [List.length_cons]
  omega
termination_by ts.length - q

/-! What the loops of the repetitions come to, behind the first item where there is one. -/

theorem Loops.oneOrMore (h : b.Loops ts p q vs e) (hv : b.Matches p c v (.ofTokens ts q)) :
    b.Matches (oneOrMore p) c (v :: vs) e :=
  matches_oneOrMore.2 ⟨v, _, vs, hv, h.rounds, rfl⟩

theorem Loops.sepBy {ws : List (β × α)} (h : b.Loops ts (pair s p) q ws e)
    (hv : b.Matches p c v (.ofTokens ts q)) :
    b.Matches (sepBy p s) c (v :: ws.map Prod.snd) e := by
  rw [(sameAt_sepBy p s).matches_iff, matches_map]
  refine ⟨(v, ws.map Prod.snd), matches_pair.2 ⟨_, hv, ?_⟩, rfl⟩
  exact matches_zeroOrMore.2 (h.rounds.map Prod.snd)

theorem Loops.fold {s : Parser ρ (α → α → α)} {ws : List ((α → α → α) × α)}
    (h : b.Loops ts (pair s p) q ws e) (hv : b.Matches p c v (.ofTokens ts q)) :
    b.Matches (fold p s) c (ws.foldl (fun acc w => w.1 acc w.2) v) e := by
  rw [(sameAt_fold p s).matches_iff, matches_map]
  exact ⟨(v, ws), matches_pair.2 ⟨_, hv, matches_zeroOrMore.2 h.rounds⟩, rfl⟩

/-- A repetition fails with its first item, or goes on from where that stops. -/
theorem Ends.goes_on {γ : Type} {r : Parser ρ γ} {goal : α → Nat → Prop} (hp : b.Ends p c)
    (hfails : b.Fails p c → b.Fails r c)
    (hgoal : ∀ v q, b.Matches p c v (.ofTokens ts q) → goal v q) :
    b.Fails r c ∨ ∃ v d, b.Matches p c v d ∧ ∀ q, d = .ofTokens ts q → goal v q := by
  obtain hp | ⟨v, d, hv⟩ := hp
  · exact Or.inl (hfails hp)
  · exact Or.inr ⟨v, d, hv, fun q hd => hgoal v q (hd ▸ hv)⟩

/-! Over well-formed rules both conditions can be read off the parsers. -/

section Rules

variable {rules : Rules ρ}

theorem ends_ofRules (hw : WellFormed rules) (hp : p.repeatsSoundly = true) (c : Cursor) :
    (ofRules rules).Ends p c := by
  have hrun : p.run rules (c.rest.length + 1) c ≠ .unfinished :=
    run_ne_unfinished hw hp (Nat.lt_succ_self _)
  cases h : p.run rules (c.rest.length + 1) c with
  | unfinished => exact absurd h hrun
  | failed => exact Or.inl ⟨_, h⟩
  | matched v d => exact Or.inr ⟨v, d, _, h⟩

theorem advances_ofRules (hw : WellFormed rules) (hp : p.advances = true) (ts : List Token) :
    (ofRules rules).Advances ts p := by
  intro q v d h
  have hm : Parser.Matches rules p (.ofTokens ts q) v d := h
  obtain ⟨us, hu⟩ := hm.past
  obtain ⟨hd, -, hle, -⟩ := hu.within
  have hlt : q < d.position := hm.position_lt hw hp
  exact ⟨d.position, hd, hlt, by omega⟩

end Rules

/-- Repetitions end if their parts end and their step gets on. The step is the part itself in
`zeroOrMore` and `oneOrMore`; in `sepBy` and `fold` it is a separator and its item, one of which may
read nothing. From the position where the loop is entered, which is behind the first item where there
has to be one, no more rounds succeed than there are tokens left. -/
theorem repetitions_end (b : Behaviour ρ) (ts : List Token) :
    (∀ p : Parser ρ α, (∀ c, b.Ends p c) → b.Advances ts p →
      (∀ q, ∃ vs e, b.Loops ts p q vs e ∧ b.Matches (zeroOrMore p) (.ofTokens ts q) vs e) ∧
        ∀ c, b.Fails (oneOrMore p) c ∨ ∃ v d, b.Matches p c v d ∧ ∀ q, d = .ofTokens ts q →
          ∃ vs e, b.Loops ts p q vs e ∧ b.Matches (oneOrMore p) c (v :: vs) e) ∧
    (∀ (p : Parser ρ α) (s : Parser ρ β), (∀ c, b.Ends p c) → (∀ c, b.Ends s c) →
      b.Advances ts (pair s p) →
        ∀ c, b.Fails (sepBy p s) c ∨ ∃ v d, b.Matches p c v d ∧ ∀ q, d = .ofTokens ts q →
          ∃ ws e, b.Loops ts (pair s p) q ws e ∧
            b.Matches (sepBy p s) c (v :: ws.map Prod.snd) e) ∧
    ∀ (p : Parser ρ α) (s : Parser ρ (α → α → α)), (∀ c, b.Ends p c) → (∀ c, b.Ends s c) →
      b.Advances ts (pair s p) →
        ∀ c, b.Fails (fold p s) c ∨ ∃ v d, b.Matches p c v d ∧ ∀ q, d = .ofTokens ts q →
          ∃ ws e, b.Loops ts (pair s p) q ws e ∧
            b.Matches (fold p s) c (ws.foldl (fun acc w => w.1 acc w.2) v) e := by
  refine ⟨fun p hp ha => ⟨fun q => ?_, fun c => ?_⟩, fun p s hp hs ha c => ?_,
    fun p s hp hs ha c => ?_⟩
  · obtain ⟨vs, e, h⟩ := ha.loops hp q
    exact ⟨vs, e, h, matches_zeroOrMore.2 h.rounds⟩
  · refine (hp c).goes_on fails_oneOrMore.2 fun v q hv => ?_
    obtain ⟨vs, e, h⟩ := ha.loops hp q
    exact ⟨vs, e, h, h.oneOrMore hv⟩
  · refine (hp c).goes_on fails_sepBy.2 fun v q hv => ?_
    obtain ⟨ws, e, h⟩ := ha.loops (ends_pair hs hp) q
    exact ⟨ws, e, h, h.sepBy hv⟩
  · refine (hp c).goes_on fails_fold.2 fun v q hv => ?_
    obtain ⟨ws, e, h⟩ := ha.loops (ends_pair hs hp) q
    exact ⟨ws, e, h, h.fold hv⟩

/-- In `x + y z` the second plus is left out, and the sum is read all the same. -/
theorem plus_left_out :
    let ts : List Token := [⟨.identifier, "x", {}⟩, ⟨.reserved, "+", {}⟩, ⟨.identifier, "y", {}⟩,
      ⟨.identifier, "z", {}⟩]
    let b := Behaviour.ofRules Grammar.rules
    let p : Parser Nonterminal Arith := Grammar.arithmeticTerm
    let s : Parser Nonterminal (Arith → Arith → Arith) :=
      .map (fun _ => .operation "+") (.maybe (Grammar.keyword "+"))
    (∀ c, b.Ends p c) ∧ (∀ c, b.Ends s c) ∧ b.Advances ts p ∧ b.Advances ts (pair s p) ∧
      (∃ e, b.Matches (zeroOrMore p) (.ofTokens ts 9) [] e) ∧
      ∃ ws, b.Loops ts (pair s p) 1 ws (.ofTokens ts 4) ∧
        ws.foldl (fun acc w => w.1 acc w.2) (.var "x") =
          .operation "+" (.operation "+" (.var "x") (.var "y")) (.var "z") := by
  intro ts b p s
  have hw := Grammar.rules_wellFormed
  have hp : ∀ c, b.Ends p c := ends_ofRules hw rfl
  have hs : ∀ c, b.Ends s c := ends_ofRules hw rfl
  have ha : b.Advances ts p := advances_ofRules hw rfl ts
  have has : b.Advances ts (pair s p) := advances_ofRules hw rfl ts
  obtain ⟨hitems, -, hfold⟩ :=
    repetitions_end (α := Arith) (β := Arith → Arith → Arith) b ts
  refine ⟨hp, hs, ha, has, ?_, ?_⟩
  · -- no tokens are left at position 9, so no round succeeds
    obtain ⟨vs, e, h, hm⟩ := (hitems p hp ha).1 9
    obtain rfl := List.length_eq_zero_iff.1 (Nat.le_zero.1 h.length_le)
    exact ⟨e, hm⟩
  · have hsum : b.Matches (fold p s) (.ofTokens ts 0)
        (.operation "+" (.operation "+" (.var "x") (.var "y")) (.var "z")) (.ofTokens ts 4) :=
      ⟨4, rfl⟩
    have hx : b.Matches p (.ofTokens ts 0) (.var "x") (.ofTokens ts 1) := ⟨4, rfl⟩
    obtain ⟨v, d, hv, hloop⟩ := (hfold p s hp hs has (.ofTokens ts 0)).resolve_left hsum.not_fails
    obtain ⟨rfl, rfl⟩ := hv.unique hx
    obtain ⟨ws, e, h, hm⟩ := hloop 1 rfl
    obtain ⟨hvalue, rfl⟩ := hm.unique hsum
    exact ⟨ws, h, hvalue⟩

end Behaviour
end ImpLang
