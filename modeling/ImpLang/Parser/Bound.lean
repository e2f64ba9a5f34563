import ImpLang.Parser.Basic

/-! More room changes nothing but a run that was cut short: a run that ends within a bound ends the same way
within every larger one. -/

namespace ImpLang

/-- The second outcome is the first, unless the first was cut short. -/
def Outcome.Below {α : Type} (o o' : Outcome α) : Prop := o = .unfinished ∨ o = o'

namespace Outcome

variable {α β : Type} {o o' : Outcome α}

theorem Below.refl (o : Outcome α) : o.Below o := Or.inr rfl

theorem Below.eq (h : o.Below o') (hf : o ≠ .unfinished) : o = o' := h.resolve_left hf

theorem below_bind {f g : α → Cursor → Outcome β} (h : o.Below o') (hf : ∀ v c, (f v c).Below (g v c)) :
    (o.bind f).Below (o'.bind g) := by
  obtain rfl | rfl := h
  · exact Or.inl rfl
  · cases o with
    | unfinished => exact Or.inl rfl
    | failed => exact Or.inr rfl
    | matched v c => exact hf v c

theorem below_map (f : α → β) (h : o.Below o') : (o.map f).Below (o'.map f) :=
  below_bind h fun _ _ => Below.refl _

theorem below_orElse {f g : Unit → Outcome α} (h : o.Below o') (hf : (f ()).Below (g ())) :
    (o.orElse f).Below (o'.orElse g) := by
  obtain rfl | rfl := h
  · exact Or.inl rfl
  · cases o with
    | unfinished => exact Or.inl rfl
    | failed => exact hf
    | matched v c => exact Or.inr rfl

end Outcome

theorem iterate_below {σ : Type} {step step' : σ → Cursor → Outcome σ} {n m : Nat} (hn : n ≤ m)
    (hs : ∀ s c, (step s c).Below (step' s c)) (s : σ) (c : Cursor) :
    (iterate step n s c).Below (iterate step' m s c) := by
  induction n generalizing m s c with
  | zero => exact Or.inl rfl
  | succ n ih =>
    obtain ⟨m, rfl⟩ : ∃ k, m = k + 1 := ⟨m - 1, by omega⟩
    have h := hs s c
    unfold iterate
    obtain h | h := h
    · rw [h]; exact Or.inl rfl
    · rw [← h]
      cases step s c with
      | unfinished => exact Or.inl rfl
      | failed => exact Or.inr rfl
      | matched s' c' => exact ih (by omega) s' c'

namespace Parser

variable {ρ : Type → Type}

open Outcome

theorem matchAt_below {n m : Nat} (hn : n ≤ m) {calls calls' : Calls ρ}
    (hc : ∀ α (r : ρ α) c, (calls α r c).Below (calls' α r c)) {α : Type} (p : Parser ρ α) (c : Cursor) :
    (p.matchAt n calls c).Below (p.matchAt m calls' c) := by
  induction p generalizing c with
  | reserved | tag | epsilon | failure => exact Below.refl _
  | pair p q ihp ihq => exact below_bind (ihp c) fun v d => below_map _ (ihq d)
  | either p q ihp ihq => exact below_orElse (ihp c) (ihq c)
  | map f p ih => exact below_map f (ih c)
  | tryMap f p ih => exact below_bind (ih c) fun _ _ => Below.refl _
  | filter accepts p ih => exact below_bind (ih c) fun _ _ => Below.refl _
  | maybe p ih => exact below_orElse (below_map _ (ih c)) (Below.refl _)
  | zeroOrMore p ih => exact below_map _ (iterate_below hn (fun _ d => below_map _ (ih d)) _ _)
  | oneOrMore p ih =>
    exact below_bind (ih c) fun v d =>
      below_map _ (iterate_below hn (fun _ e => below_map _ (ih e)) _ _)
  | sepBy p q ihp ihq =>
    exact below_bind (ihp c) fun v d =>
      below_map _ (iterate_below hn (fun _ e => below_bind (ihq e) fun _ e' => below_map _ (ihp e')) _ _)
  | fold p q ihp ihq =>
    exact below_bind (ihp c) fun v d =>
      iterate_below hn (fun _ e => below_bind (ihq e) fun _ e' => below_map _ (ihp e')) _ _
  | phrase p ih => exact below_bind (ih c) fun _ _ => Below.refl _
  | delay p ih => exact ih c
  | call r => exact hc _ r c

theorem callsWithin_below (rules : Rules ρ) {n m : Nat} (hn : n ≤ m) {α : Type} (r : ρ α) (c : Cursor) :
    (callsWithin rules n α r c).Below (callsWithin rules m α r c) := by
  induction n generalizing m α c with
  | zero => exact Or.inl rfl
  | succ n ih =>
    obtain ⟨m, rfl⟩ : ∃ k, m = k + 1 := ⟨m - 1, by omega⟩
    exact matchAt_below (by omega) (fun _ r c => ih (by omega) r c) _ c

/-- A run that ends within a bound ends the same way within a larger one. -/
theorem run_mono (rules : Rules ρ) {n m : Nat} (hn : n ≤ m) {α : Type} {p : Parser ρ α} {c : Cursor}
    (hf : p.run rules n c ≠ .unfinished) : p.run rules m c = p.run rules n c :=
  ((matchAt_below hn (fun _ => callsWithin_below rules hn) p c).eq hf).symm

end Parser
end ImpLang
