import ImpLang.Program.Grammar
import ImpLang.Proofs.Parser.Matches
import Mathlib.Data.List.Forall2

/-! A parser sees the tokens ahead of it and nothing else: neither their places in the text nor
how many tokens went before. Cursors that are alike lead every parser to outcomes that are alike,
and so a parser does from the middle of a list what it does from the start of another. -/

namespace ImpLang

/-- The same tokens stand ahead, but for their places, and the first cursor is `k` tokens further
on. -/
structure Cursor.Alike (k : Nat) (c d : Cursor) : Prop where
  position : c.position = d.position + k
  rest : List.Forall₂ Token.Agrees c.rest d.rest

inductive Outcome.Alike (k : Nat) {α : Type} : Outcome α → Outcome α → Prop where
  | unfinished : Alike k .unfinished .unfinished
  | failed : Alike k .failed .failed
  | matched {v : α} {c d : Cursor} (next : c.Alike k d) : Alike k (.matched v c) (.matched v d)

variable {k : Nat} {α β : Type} {c d : Cursor}

theorem Cursor.Alike.atEnd (h : c.Alike k d) : c.atEnd = d.atEnd := by
  obtain ⟨i, ts⟩ := c
  obtain ⟨j, us⟩ := d
  cases h.rest <;> rfl

theorem Cursor.Alike.token? (h : c.Alike k d) {test : Token → Bool}
    (ht : ∀ t u, t.Agrees u → test t = test u) :
    Outcome.Alike k (.ofOption (c.token? test)) (.ofOption (d.token? test)) := by
  obtain ⟨i, ts⟩ := c
  obtain ⟨j, us⟩ := d
  obtain ⟨hp, hr⟩ := h
  cases hr with
  | nil => exact .failed
  | @cons t u ts us ha hr =>
    cases hu : test u with
    | false => simpa [Cursor.token?, ht t u ha, hu, Outcome.ofOption] using Outcome.Alike.failed
    | true =>
      have hnext : Cursor.Alike k ⟨i + 1, ts⟩ ⟨j + 1, us⟩ := ⟨by simp at hp ⊢; omega, hr⟩
      simpa [Cursor.token?, ht t u ha, hu, ha.2, Outcome.ofOption] using Outcome.Alike.matched hnext

namespace Outcome

variable {o o' : Outcome α}

theorem Alike.bind {f g : α → Cursor → Outcome β} (h : o.Alike k o')
    (hf : ∀ v c d, c.Alike k d → (f v c).Alike k (g v d)) : (o.bind f).Alike k (o'.bind g) := by
  cases h with
  | unfinished => exact .unfinished
  | failed => exact .failed
  | matched next => exact hf _ _ _ next

theorem Alike.map (f : α → β) (h : o.Alike k o') : (o.map f).Alike k (o'.map f) :=
  h.bind fun _ _ _ => .matched

theorem Alike.orElse {f g : Unit → Outcome α} (h : o.Alike k o') (hf : (f ()).Alike k (g ())) :
    (o.orElse f).Alike k (o'.orElse g) := by
  cases h with
  | unfinished => exact .unfinished
  | failed => exact hf
  | matched next => exact .matched next

theorem Alike.value? (h : o.Alike k o') : o.value? = o'.value? := by cases h <;> rfl

theorem Alike.eq_unfinished_iff (h : o.Alike k o') : o = .unfinished ↔ o' = .unfinished := by
  cases h <;> simp

theorem Alike.eq_failed_iff (h : o.Alike k o') : o = .failed ↔ o' = .failed := by
  cases h <;> simp

theorem Alike.of_matched {v : α} (h : Alike k (.matched v c) o) :
    ∃ d, o = .matched v d ∧ c.position = k + d.position := by
  cases h with
  | matched next => exact ⟨_, rfl, next.position.trans (Nat.add_comm ..)⟩

theorem Alike.of_matched_right {v : α} (h : Alike k o (.matched v d)) :
    ∃ c, o = .matched v c ∧ c.position = k + d.position := by
  cases h with
  | matched next => exact ⟨_, rfl, next.position.trans (Nat.add_comm ..)⟩

end Outcome

theorem iterate_alike {σ : Type} {step : σ → Cursor → Outcome σ}
    (hs : ∀ s c d, c.Alike k d → (step s c).Alike k (step s d)) (n : Nat) (s : σ)
    (h : c.Alike k d) : (iterate step n s c).Alike k (iterate step n s d) := by
  induction n generalizing s c d with
  | zero => exact .unfinished
  | succ n ih =>
    have ho := hs s c d h
    unfold iterate
    generalize step s c = o, step s d = o' at ho
    cases ho with
    | unfinished => exact .unfinished
    | failed => exact .matched h
    | matched next => exact ih _ next

namespace Parser

variable {ρ : Type → Type}

theorem matchAt_alike {n : Nat} {calls : Calls ρ}
    (hc : ∀ α (r : ρ α) c d, c.Alike k d → (calls α r c).Alike k (calls α r d)) (p : Parser ρ α)
    (h : c.Alike k d) : (p.matchAt n calls c).Alike k (p.matchAt n calls d) := by
  induction p generalizing c d with
  | reserved l kind => exact h.token? fun t u ha => by rw [ha.1, ha.2]
  | tag kind => exact h.token? fun t u ha => by rw [ha.1]
  | epsilon => exact .matched h
  | failure => exact .failed
  | pair p q ihp ihq => exact (ihp h).bind fun v _ _ h => (ihq h).map _
  | either p q ihp ihq => exact (ihp h).orElse (ihq h)
  | map f p ih => exact (ih h).map f
  | tryMap f p ih =>
    refine (ih h).bind fun v _ _ h => ?_
    cases f v with
    | none => exact .failed
    | some w => exact .matched h
  | filter accepts p ih =>
    refine (ih h).bind fun v _ _ h => ?_
    cases accepts v with
    | false => exact .failed
    | true => exact .matched h
  | maybe p ih => exact ((ih h).map some).orElse (.matched h)
  | zeroOrMore p ih => exact (iterate_alike (fun vs _ _ h => (ih h).map (· :: vs)) n [] h).map _
  | oneOrMore p ih =>
    exact (ih h).bind fun v _ _ h =>
      (iterate_alike (fun vs _ _ h => (ih h).map (· :: vs)) n [v] h).map _
  | sepBy p q ihp ihq =>
    exact (ihp h).bind fun v _ _ h =>
      (iterate_alike
        (fun vs _ _ h => (ihq h).bind fun _ _ _ h => (ihp h).map (· :: vs)) n [v] h).map _
  | fold p q ihp ihq =>
    exact (ihp h).bind fun v _ _ h =>
      iterate_alike (fun acc _ _ h => (ihq h).bind fun f _ _ h => (ihp h).map (f acc)) n v h
  | phrase p ih =>
    refine (ih h).bind fun v _ _ h => ?_
    rw [h.atEnd]
    split
    · exact .matched h
    · exact .failed
  | delay p ih => exact ih h
  | call r => exact hc _ r _ _ h

theorem callsWithin_alike (rules : Rules ρ) (n : Nat) (r : ρ α) (h : c.Alike k d) :
    (callsWithin rules n α r c).Alike k (callsWithin rules n α r d) := by
  induction n generalizing α c d with
  | zero => exact .unfinished
  | succ n ih => exact matchAt_alike (fun _ r _ _ h => ih r h) (rules α r) h

theorem run_alike (rules : Rules ρ) (n : Nat) (p : Parser ρ α) (h : c.Alike k d) :
    (p.run rules n c).Alike k (p.run rules n d) :=
  matchAt_alike (fun _ r _ _ h => callsWithin_alike rules n r h) p h

def Terminates (rules : Rules ρ) (p : Parser ρ α) (c : Cursor) : Prop :=
  ∃ n, p.run rules n c ≠ .unfinished

/-- The parser matches with this value and stops in front of the token with this index. -/
def MatchesUpTo (rules : Rules ρ) (p : Parser ρ α) (c : Cursor) (v : α) (i : Nat) : Prop :=
  ∃ d, Matches rules p c v d ∧ d.position = i

/-- What a parser does depends on the tokens ahead alone, and not on where they stand in the text.
From any index of a list, also past its end, it does what it does from the start of a list of
tokens that agree with those ahead, and stops as many tokens further on. -/
theorem run_sees_tokens_ahead (rules : Rules ρ) (p : Parser ρ α) {ts us : List Token} {k : Nat}
    (h : List.Forall₂ Token.Agrees (ts.drop k) us) :
    (Terminates rules p (.ofTokens ts k) ↔ Terminates rules p (.ofTokens us 0)) ∧
      (Fails rules p (.ofTokens ts k) ↔ Fails rules p (.ofTokens us 0)) ∧
      ∀ v i, MatchesUpTo rules p (.ofTokens ts k) v i ↔
        ∃ j, i = k + j ∧ MatchesUpTo rules p (.ofTokens us 0) v j := by
  have halike : (Cursor.ofTokens ts k).Alike k (Cursor.ofTokens us 0) :=
    ⟨(Nat.zero_add k).symm, h⟩
  have hrun (n : Nat) := run_alike rules n p halike
  refine ⟨?_, ?_, fun v i => ⟨?_, ?_⟩⟩
  · exact exists_congr fun n => not_congr (hrun n).eq_unfinished_iff
  · exact exists_congr fun n => (hrun n).eq_failed_iff
  · rintro ⟨c, ⟨n, hc⟩, rfl⟩
    obtain ⟨d, hd, hp⟩ := (hc ▸ hrun n).of_matched
    exact ⟨d.position, hp, d, ⟨n, hd⟩, rfl⟩
  · rintro ⟨_, rfl, d, ⟨n, hd⟩, rfl⟩
    obtain ⟨c, hc, hp⟩ := (hd ▸ hrun n).of_matched_right
    exact ⟨c, ⟨n, hc⟩, hp⟩

theorem nested_name_from_second_token :
    let ts : List Token := [⟨.reserved, ";", ⟨1, 1⟩⟩, ⟨.reserved, "(", ⟨1, 3⟩⟩,
      ⟨.identifier, "x", ⟨2, 1⟩⟩, ⟨.reserved, ")", ⟨2, 2⟩⟩]
    let us : List Token := [⟨.reserved, "(", {}⟩, ⟨.identifier, "x", {}⟩, ⟨.reserved, ")", {}⟩]
    List.Forall₂ Token.Agrees (ts.drop 1) us ∧
      MatchesUpTo Grammar.rules (.call .arithmetic) (.ofTokens ts 1) (.var "x") 4 := by
  intro ts us
  have h : List.Forall₂ Token.Agrees (ts.drop 1) us := by decide
  have hu : MatchesUpTo Grammar.rules (.call .arithmetic) (.ofTokens us 0) (.var "x") 3 :=
    ⟨⟨3, []⟩, ⟨5, rfl⟩, rfl⟩
  exact ⟨h, ((run_sees_tokens_ahead Grammar.rules _ h).2.2 _ 4).2 ⟨3, rfl, hu⟩⟩

end Parser
end ImpLang
