import ImpLang.Proofs.Parser.Behaviour
import ImpLang.Program.Grammar
import Mathlib.Logic.Equiv.Prod

/-! The algebra of sequence and ordered choice. Both are associative, and a sequence distributes over a
choice in its second part. It does not in its first part, since a choice is never taken back: once a
part has matched, the others are not tried, whatever comes behind. -/

namespace ImpLang

namespace Outcome

variable {α β : Type}

theorem bind_orElse (o : Outcome α) (f g : α → Cursor → Outcome β) :
    (o.bind fun v c => (f v c).orElse fun _ => g v c) =
      (o.bind f).orElse fun _ => o.bind g := by
  cases o <;> rfl

/-- What goes on from a choice goes on from each part, unless it fails where the first part has
matched: then the second part would be tried after all. -/
theorem orElse_bind {o : Outcome α} {f : Unit → Outcome α} {g : α → Cursor → Outcome β}
    (h : ∀ v c, o = .matched v c → g v c ≠ .failed) :
    (o.orElse f).bind g = (o.bind g).orElse fun u => (f u).bind g := by
  cases o with
  | unfinished | failed => rfl
  | matched v c =>
    have hg := h v c rfl
    rw [orElse_matched, bind_matched]
    cases hv : g v c with
    | failed => exact absurd hv hg
    | unfinished | matched w d => rfl

end Outcome

namespace Behaviour

open Outcome ImpLang.Parser

variable {ρ : Type → Type} {α β γ : Type} {b : Behaviour ρ} {c : Cursor}

theorem sameAt_pair_pair (p : Parser ρ α) (q : Parser ρ β) (r : Parser ρ γ) :
    b.SameAt c (map (Equiv.prodAssoc α β γ) (pair (pair p q) r)) (pair p (pair q r)) := by
  refine sameAt_of_eq fun n => ?_
  simp only [matchAt, Outcome.map, bind_assoc, bind_matched]
  rfl

theorem sameAt_either_either (p q r : Parser ρ α) :
    b.SameAt c (either (either p q) r) (either p (either q r)) :=
  sameAt_of_eq fun _ => orElse_assoc _ _ _

theorem sameAt_pair_either (p : Parser ρ α) (q r : Parser ρ β) :
    b.SameAt c (pair p (either q r)) (either (pair p q) (pair p r)) := by
  refine sameAt_of_eq fun n => ?_
  simp only [matchAt]
  rw [← bind_orElse]
  congr 1
  funext v d
  exact orElse_bind fun _ _ _ => by simp

/-- What begins like the first part is never reached. -/
theorem sameAt_either_left (p : Parser ρ α) (q : Parser ρ β) :
    b.SameAt c (either p (left p q)) p := by
  refine sameAt_of_eq fun n => ?_
  simp only [left, matchAt]
  cases p.matchAt n (b.calls n) c <;> rfl

theorem Matches.pair_either {p : Parser ρ α} {v : α} {d : Cursor} (h : b.Matches p c v d)
    (q : Parser ρ α) (r : Parser ρ β) : b.SameAt c (pair (either p q) r) (pair p r) := by
  obtain ⟨m, hm⟩ := h
  refine sameAt_of_eventually (m := m) fun n hn => ?_
  have hp : p.matchAt n (b.calls n) c = .matched v d := (matchAt_grows b p c).later hm (by simp) hn
  simp only [matchAt, hp, orElse_matched]

theorem Fails.pair_either {p : Parser ρ α} (h : b.Fails p c) (q : Parser ρ α) (r : Parser ρ β) :
    b.SameAt c (pair (either p q) r) (pair q r) := by
  obtain ⟨m, hm⟩ := h
  refine sameAt_of_eventually (m := m) fun n hn => ?_
  have hp : p.matchAt n (b.calls n) c = .failed := (matchAt_grows b p c).later hm (by simp) hn
  simp only [matchAt, hp, orElse_failed]

theorem sameAt_map_either (f : α → β) (p q : Parser ρ α) :
    b.SameAt c (map f (either p q)) (either (map f p) (map f q)) :=
  sameAt_of_eq fun _ => orElse_bind fun _ _ _ => by simp

theorem sameAt_tryMap_either {f : α → Option β} {p : Parser ρ α}
    (h : ∀ v d, b.Matches p c v d → (f v).isSome) (q : Parser ρ α) :
    b.SameAt c (tryMap f (either p q)) (either (tryMap f p) (tryMap f q)) := by
  refine sameAt_of_eq fun n => orElse_bind fun v d hv => ?_
  obtain ⟨w, hw⟩ := Option.isSome_iff_exists.1 (h v d ⟨n, hv⟩)
  simp [hw]

theorem sameAt_filter_either {accepts : α → Bool} {p : Parser ρ α}
    (h : ∀ v d, b.Matches p c v d → accepts v) (q : Parser ρ α) :
    b.SameAt c (filter accepts (either p q)) (either (filter accepts p) (filter accepts q)) := by
  refine sameAt_of_eq fun n => orElse_bind fun v d hv => ?_
  simp [h v d ⟨n, hv⟩]

/-- The laws by which parsers may be recast, whatever their parts do. Sequences regroup, with their
values, and choices regroup; a sequence distributes over a choice behind its first part; what begins
with the first part of a choice is hidden by it. A choice stands once it is made: in front of a third
parser it is its first part where that matches, and its second where the first fails. And a value is
mapped or tested behind a choice as in its parts, if one of the first part is not rejected. -/
theorem sequence_and_choice_laws (b : Behaviour ρ) (c : Cursor) :
    (∀ (p : Parser ρ α) (q : Parser ρ β) (r : Parser ρ γ),
        b.SameAt c (map (Equiv.prodAssoc α β γ) (pair (pair p q) r)) (pair p (pair q r))) ∧
      (∀ p q r : Parser ρ α, b.SameAt c (either (either p q) r) (either p (either q r))) ∧
      (∀ (p : Parser ρ α) (q r : Parser ρ β),
        b.SameAt c (pair p (either q r)) (either (pair p q) (pair p r))) ∧
      (∀ (p : Parser ρ α) (q : Parser ρ β), b.SameAt c (either p (left p q)) p) ∧
      (∀ (p q : Parser ρ α) (r : Parser ρ β),
        (∀ v d, b.Matches p c v d → b.SameAt c (pair (either p q) r) (pair p r)) ∧
          (b.Fails p c → b.SameAt c (pair (either p q) r) (pair q r))) ∧
      (∀ (p q : Parser ρ α) (f : α → Option β), (∀ v d, b.Matches p c v d → (f v).isSome) →
        b.SameAt c (tryMap f (either p q)) (either (tryMap f p) (tryMap f q))) ∧
      (∀ (p q : Parser ρ α) (accepts : α → Bool), (∀ v d, b.Matches p c v d → accepts v) →
        b.SameAt c (filter accepts (either p q)) (either (filter accepts p) (filter accepts q))) ∧
      ∀ (p q : Parser ρ α) (f : α → β),
        b.SameAt c (map f (either p q)) (either (map f p) (map f q)) := by
  refine ⟨sameAt_pair_pair, sameAt_either_either, sameAt_pair_either, sameAt_either_left, ?_, ?_,
    ?_, fun p q f => sameAt_map_either f p q⟩
  · exact fun p q r => ⟨fun v d hp => hp.pair_either q r, fun hp => hp.pair_either q r⟩
  · exact fun p q f h => sameAt_tryMap_either h q
  · exact fun p q accepts h => sameAt_filter_either h q

/-- In front of `x + 1 ;` a name is taken before a sum, and then there is no semicolon; a sum alone
would leave one. -/
theorem name_taken_before_sum :
    let ts : List Token := [⟨.identifier, "x", {}⟩, ⟨.reserved, "+", {}⟩, ⟨.integer, "1", {}⟩,
      ⟨.reserved, ";", {}⟩]
    let b := Behaviour.ofRules Grammar.rules
    let c := Cursor.ofTokens ts 0
    let d := Cursor.ofTokens ts 2
    let p : Parser Nonterminal Arith := .map .var Grammar.identifier
    let q : Parser Nonterminal Arith := .call .arithmetic
    let r := Grammar.keyword ";"
    let accepts (a : Arith) : Bool := a = .var "x"
    let f (a : Arith) : Option Arith := if accepts a then some a else none
    b.Matches p c (.var "x") (.ofTokens ts 1) ∧ b.Fails p d ∧
      b.Matches (pair q r) c (.operation "+" (.var "x") (.int 1), ";") (.ofTokens ts 4) ∧
      b.Fails (pair (either p q) r) c ∧
      b.Matches (pair (either p q) r) d (.int 1, ";") (.ofTokens ts 4) ∧
      b.SameAt c (tryMap f (either p q)) (either (tryMap f p) (tryMap f q)) ∧
      b.SameAt c (filter accepts (either p q)) (either (filter accepts p) (filter accepts q)) := by
  intro ts b c d p q r accepts f
  have hp : b.Matches p c (.var "x") (.ofTokens ts 1) := ⟨0, rfl⟩
  have hp' : b.Fails p d := ⟨0, rfl⟩
  have haccepts (v : Arith) (e : Cursor) (hv : b.Matches p c v e) : accepts v := by
    obtain ⟨rfl, -⟩ := hp.unique hv
    rfl
  have hf (v : Arith) (e : Cursor) (hv : b.Matches p c v e) : (f v).isSome := by
    simp [f, haccepts v e hv]
  obtain ⟨-, -, -, -, hchoice, -⟩ :=
    sequence_and_choice_laws (α := Arith) (β := String) (γ := Unit) b c
  obtain ⟨-, -, -, -, hchoice', -⟩ :=
    sequence_and_choice_laws (α := Arith) (β := String) (γ := Unit) b d
  obtain ⟨-, -, -, -, -, htryMap, hfilter, -⟩ :=
    sequence_and_choice_laws (α := Arith) (β := Arith) (γ := Unit) b c
  refine ⟨hp, hp', ⟨5, rfl⟩, ?_, ?_, htryMap p q f hf, hfilter p q accepts haccepts⟩
  · exact ((hchoice p q r).1 _ _ hp).fails_iff.2 ⟨0, rfl⟩
  · exact (((hchoice' p q r).2 hp').matches_iff _ _).2 ⟨5, rfl⟩

end Behaviour
end ImpLang
