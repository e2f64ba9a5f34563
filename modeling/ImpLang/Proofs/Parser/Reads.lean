import ImpLang.Proofs.Parser.Matches

/-! What a match has read. Taken as a grammar, with choice unordered and repetition free, a parser
describes token lists with their values; whatever it matches, it describes. So each match moves on
by a stretch of tokens. -/

namespace ImpLang

/-- Stretches of tokens, one after the other, that lead from one value to another. -/
inductive Stretches {σ : Type} (step : σ → List Token → σ → Prop) : σ → List Token → σ → Prop
  | none (s : σ) : Stretches step s [] s
  | snoc {s t u : σ} {us ws : List Token} (h : Stretches step s us t) (h' : step t ws u) :
      Stretches step s (us ++ ws) u

theorem iterate_stretches {σ : Type} {step : σ → Cursor → Outcome σ}
    {lang : σ → List Token → σ → Prop}
    (hs : ∀ s c t d, step s c = .matched t d → ∃ us, c.Past us d ∧ lang s us t) {n : Nat} {s t : σ}
    {c d : Cursor}
    (h : iterate step n s c = .matched t d) : ∃ us, c.Past us d ∧ Stretches lang s us t := by
  -- the stretches read before the present round come first
  suffices ∀ n s' c' us,
      iterate step n s' c' = .matched t d → c.Past us c' → Stretches lang s us s' →
        ∃ us, c.Past us d ∧ Stretches lang s us t from this n s c [] h (.refl c) (.none s)
  intro n
  induction n with
  | zero => intro s' c' us h; cases h
  | succ n ih =>
    intro s' c' us h hp hr
    unfold iterate at h
    split at h
    · cases h
    · cases h
      exact ⟨us, hp, hr⟩
    · rename_i s'' c'' hm
      obtain ⟨ws, hp', hl⟩ := hs _ _ _ _ hm
      exact ih s'' c'' (us ++ ws) h (hp.trans hp') (hr.snoc hl)

namespace Parser

open Outcome

variable {ρ : Type → Type}

/-- What each rule may read. -/
abbrev Language (ρ : Type → Type) := (α : Type) → ρ α → List Token → α → Prop

/-- An item is read and put in front. -/
def ItemStep {α : Type} (item : List Token → α → Prop) (acc : List α) (us : List Token)
    (acc' : List α) : Prop :=
  ∃ v, item us v ∧ v :: acc = acc'

/-- A separator and an item are read and joined to the value so far. -/
def JoinStep {α β σ : Type} (separator : List Token → β → Prop) (item : List Token → α → Prop)
    (j : σ → β → α → σ) (acc : σ) (us : List Token) (acc' : σ) : Prop :=
  ∃ xs ys s v, us = xs ++ ys ∧ separator xs s ∧ item ys v ∧ j acc s v = acc'

/-- The token lists that a parser describes, with their values, given what the rules may read. -/
def Reads (lang : Language ρ) {α : Type} : Parser ρ α → List Token → α → Prop
  | reserved lexeme kind, us, s => ∃ t, us = [t] ∧ t.kind = kind ∧ t.lexeme = lexeme ∧ s = t.lexeme
  | tag kind, us, s => ∃ t, us = [t] ∧ t.kind = kind ∧ s = t.lexeme
  | epsilon, us, _ => us = []
  | failure, _, _ => False
  | pair p q, us, v => ∃ xs ys, us = xs ++ ys ∧ p.Reads lang xs v.1 ∧ q.Reads lang ys v.2
  | either p q, us, v => p.Reads lang us v ∨ q.Reads lang us v
  | map f p, us, w => ∃ v, p.Reads lang us v ∧ f v = w
  | tryMap f p, us, w => ∃ v, p.Reads lang us v ∧ f v = some w
  | filter accepts p, us, v => p.Reads lang us v ∧ accepts v = true
  | maybe _, us, none => us = []
  | maybe p, us, some v => p.Reads lang us v
  | zeroOrMore p, us, vs => Stretches (ItemStep (p.Reads lang)) [] us vs.reverse
  | oneOrMore p, us, vs => ∃ v xs ys, us = xs ++ ys ∧ p.Reads lang xs v ∧
      Stretches (ItemStep (p.Reads lang)) [v] ys vs.reverse
  | sepBy p q, us, vs => ∃ v xs ys, us = xs ++ ys ∧ p.Reads lang xs v ∧
      Stretches (JoinStep (q.Reads lang) (p.Reads lang) fun acc _ v => v :: acc) [v] ys vs.reverse
  | fold p q, us, w => ∃ v xs ys, us = xs ++ ys ∧ p.Reads lang xs v ∧
      Stretches (JoinStep (q.Reads lang) (p.Reads lang) fun acc f v => f acc v) v ys w
  | phrase p, us, v => p.Reads lang us v
  | delay p, us, v => p.Reads lang us v
  | call r, us, v => lang _ r us v

theorem itemStep_of_map {α : Type} {item : List Token → α → Prop} {o : Outcome α}
    {acc acc' : List α} {c d : Cursor}
    (hi : ∀ v, o = .matched v d → ∃ us, c.Past us d ∧ item us v)
    (h : o.map (· :: acc) = .matched acc' d) : ∃ us, c.Past us d ∧ ItemStep item acc us acc' := by
  obtain ⟨v, hv, hacc⟩ := map_eq_matched.1 h
  obtain ⟨us, hu, hr⟩ := hi v hv
  exact ⟨us, hu, v, hr, hacc⟩

theorem joinStep_of_bind {α β σ : Type} {separator : List Token → β → Prop}
    {item : List Token → α → Prop}
    {j : σ → β → α → σ} {o : Outcome β} {f : Cursor → Outcome α} {acc acc' : σ} {c d : Cursor}
    (hs : ∀ s b, o = .matched s b → ∃ us, c.Past us b ∧ separator us s)
    (hi : ∀ v b, f b = .matched v d → ∃ us, b.Past us d ∧ item us v)
    (h : (o.bind fun s b => (f b).map (j acc s)) = .matched acc' d) :
    ∃ us, c.Past us d ∧ JoinStep separator item j acc us acc' := by
  obtain ⟨s, b, hsep, h'⟩ := bind_eq_matched.1 h
  obtain ⟨v, hv, hacc⟩ := map_eq_matched.1 h'
  obtain ⟨xs, hx, hr⟩ := hs s b hsep
  obtain ⟨ys, hy, hr'⟩ := hi v b hv
  exact ⟨xs ++ ys, hx.trans hy, xs, ys, s, v, rfl, hr, hr', hacc⟩

variable {lang : Language ρ} {n : Nat} {calls : Calls ρ}

/-- Whatever a parser matches, it describes, provided that the rules do so. -/
theorem matchAt_reads
    (hc : ∀ α (r : ρ α) c v d, calls α r c = .matched v d → ∃ us, c.Past us d ∧ lang α r us v)
    {α : Type} (p : Parser ρ α) {c d : Cursor} {v : α} (h : p.matchAt n calls c = .matched v d) :
    ∃ us, c.Past us d ∧ p.Reads lang us v := by
  induction p generalizing c d with
  | reserved lexeme kind =>
    obtain ⟨t, hp, ht, rfl⟩ := Cursor.token?_eq_some.1 (ofOption_eq_matched.1 h)
    simp only [Bool.and_eq_true, beq_iff_eq] at ht
    exact ⟨[t], hp, t, rfl, ht.1, ht.2, rfl⟩
  | tag kind =>
    obtain ⟨t, hp, ht, rfl⟩ := Cursor.token?_eq_some.1 (ofOption_eq_matched.1 h)
    exact ⟨[t], hp, t, rfl, by simpa using ht, rfl⟩
  | epsilon => cases h; exact ⟨[], .refl _, rfl⟩
  | failure => cases h
  | pair p q ihp ihq =>
    obtain ⟨a, b, hp, h'⟩ := bind_eq_matched.1 h
    obtain ⟨w, hq, rfl⟩ := map_eq_matched.1 h'
    obtain ⟨us, hu, hr⟩ := ihp hp
    obtain ⟨ws, hw, hr'⟩ := ihq hq
    exact ⟨us ++ ws, hu.trans hw, us, ws, rfl, hr, hr'⟩
  | either p q ihp ihq =>
    obtain hp | ⟨-, hq⟩ := orElse_eq_matched.1 h
    · obtain ⟨us, hu, hr⟩ := ihp hp
      exact ⟨us, hu, Or.inl hr⟩
    · obtain ⟨us, hu, hr⟩ := ihq hq
      exact ⟨us, hu, Or.inr hr⟩
  | map f p ih =>
    obtain ⟨w, hp, hf⟩ := map_eq_matched.1 h
    obtain ⟨us, hu, hr⟩ := ih hp
    exact ⟨us, hu, w, hr, hf⟩
  | tryMap f p ih =>
    obtain ⟨w, b, hp, h'⟩ := bind_eq_matched.1 h
    obtain ⟨us, hu, hr⟩ := ih hp
    cases hf : f w <;> simp only [hf] at h' <;> cases h'
    exact ⟨us, hu, w, hr, hf⟩
  | filter accepts p ih =>
    obtain ⟨w, b, hp, h'⟩ := bind_eq_matched.1 h
    obtain ⟨us, hu, hr⟩ := ih hp
    split at h' <;> cases h'
    exact ⟨us, hu, hr, ‹_›⟩
  | maybe p ih =>
    obtain hp | ⟨-, hp⟩ := orElse_eq_matched.1 h
    · obtain ⟨w, hp', rfl⟩ := map_eq_matched.1 hp
      obtain ⟨us, hu, hr⟩ := ih hp'
      exact ⟨us, hu, hr⟩
    · cases hp
      exact ⟨[], .refl _, rfl⟩
  | zeroOrMore p ih =>
    obtain ⟨ws, hi, rfl⟩ := map_eq_matched.1 h
    obtain ⟨us, hu, hr⟩ := iterate_stretches (fun _ _ _ _ => itemStep_of_map fun _ => ih) hi
    exact ⟨us, hu, by simpa [Reads] using hr⟩
  | oneOrMore p ih =>
    obtain ⟨w, b, hp, h'⟩ := bind_eq_matched.1 h
    obtain ⟨ws, hi, rfl⟩ := map_eq_matched.1 h'
    obtain ⟨us, hu, hr⟩ := ih hp
    obtain ⟨us', hu', hr'⟩ := iterate_stretches (fun _ _ _ _ => itemStep_of_map fun _ => ih) hi
    exact ⟨us ++ us', hu.trans hu', w, us, us', rfl, hr, by simpa using hr'⟩
  | sepBy p q ihp ihq =>
    obtain ⟨w, b, hp, h'⟩ := bind_eq_matched.1 h
    obtain ⟨ws, hi, rfl⟩ := map_eq_matched.1 h'
    obtain ⟨us, hu, hr⟩ := ihp hp
    obtain ⟨us', hu', hr'⟩ :=
      iterate_stretches
        (fun _ _ _ _ => joinStep_of_bind (j := fun acc _ v => v :: acc)
          (fun _ _ => ihq) (fun _ _ => ihp)) hi
    exact ⟨us ++ us', hu.trans hu', w, us, us', rfl, hr, by simpa using hr'⟩
  | fold p q ihp ihq =>
    obtain ⟨w, b, hp, hi⟩ := bind_eq_matched.1 h
    obtain ⟨us, hu, hr⟩ := ihp hp
    obtain ⟨us', hu', hr'⟩ :=
      iterate_stretches
        (fun _ _ _ _ => joinStep_of_bind (j := fun acc f v => f acc v)
          (fun _ _ => ihq) (fun _ _ => ihp)) hi
    exact ⟨us ++ us', hu.trans hu', w, us, us', rfl, hr, hr'⟩
  | phrase p ih =>
    obtain ⟨w, b, hp, h'⟩ := bind_eq_matched.1 h
    split at h' <;> cases h'
    exact ih hp
  | delay p ih => exact ih h
  | call r => exact hc _ r _ _ _ h

theorem callsWithin_reads {rules : Rules ρ}
    (hl : ∀ α (r : ρ α) us v, (rules α r).Reads lang us v → lang α r us v)
    (n : Nat) {α : Type} (r : ρ α) {c d : Cursor} {v : α}
    (h : callsWithin rules n α r c = .matched v d) : ∃ us, c.Past us d ∧ lang α r us v := by
  induction n generalizing α c d with
  | zero => cases h
  | succ n ih =>
    obtain ⟨us, hu, hr⟩ := matchAt_reads (fun _ r _ _ _ h => ih r h) (rules α r) h
    exact ⟨us, hu, hl α r us v hr⟩

/-- If every rule may read what it describes, then so does every parser that calls them. -/
theorem Matches.reads {rules : Rules ρ}
    (hl : ∀ α (r : ρ α) us v, (rules α r).Reads lang us v → lang α r us v)
    {α : Type} {p : Parser ρ α} {c d : Cursor} {v : α} (h : Matches rules p c v d) :
    ∃ us, c.Past us d ∧ p.Reads lang us v := by
  obtain ⟨n, h⟩ := h
  exact matchAt_reads (fun _ r _ _ _ h => callsWithin_reads hl n r h) p h

theorem Matches.past {rules : Rules ρ} {α : Type} {p : Parser ρ α} {c d : Cursor} {v : α}
    (h : Matches rules p c v d) : ∃ us, c.Past us d := by
  obtain ⟨us, hu, -⟩ : ∃ us, c.Past us d ∧ p.Reads (fun _ _ _ _ => True) us v :=
    h.reads fun _ _ _ _ _ => trivial
  exact ⟨us, hu⟩

end Parser
end ImpLang
