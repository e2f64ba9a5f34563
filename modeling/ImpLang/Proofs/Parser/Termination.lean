import ImpLang.Proofs.Parser.Reads

/-! Which runs end. A rule is guarded when it calls no rule before it has read a token; a
repetition is sound when each of its rounds reads one. If all rules are guarded, read something
and repeat soundly, then a bound greater than the number of tokens left is room enough for every
run. -/

namespace ImpLang.Parser

open Outcome

variable {ρ : Type → Type}

/-- Every match reads a token, provided that every match of a rule does. -/
def advances {α : Type} : Parser ρ α → Bool
  | reserved _ _ | tag _ | failure | call _ => true
  | epsilon | maybe _ | zeroOrMore _ => false
  | pair p q => p.advances || q.advances
  | either p q => p.advances && q.advances
  | map _ p => p.advances
  | tryMap _ p => p.advances
  | filter _ p => p.advances
  | oneOrMore p => p.advances
  | sepBy p _ => p.advances
  | fold p _ => p.advances
  | phrase p => p.advances
  | delay p => p.advances

/-- Every round of every repetition reads a token. -/
def repeatsSoundly {α : Type} : Parser ρ α → Bool
  | reserved _ _ | tag _ | failure | call _ | epsilon => true
  | pair p q => p.repeatsSoundly && q.repeatsSoundly
  | either p q => p.repeatsSoundly && q.repeatsSoundly
  | map _ p => p.repeatsSoundly
  | tryMap _ p => p.repeatsSoundly
  | filter _ p => p.repeatsSoundly
  | maybe p => p.repeatsSoundly
  | zeroOrMore p => p.advances && p.repeatsSoundly
  | oneOrMore p => p.advances && p.repeatsSoundly
  | sepBy p q => (p.advances || q.advances) && p.repeatsSoundly && q.repeatsSoundly
  | fold p q => (p.advances || q.advances) && p.repeatsSoundly && q.repeatsSoundly
  | phrase p => p.repeatsSoundly
  | delay p => p.repeatsSoundly

/-- No rule is called, and no repetition begins, before a token has been read. -/
def guarded {α : Type} : Parser ρ α → Bool
  | reserved _ _ | tag _ | failure | epsilon => true
  | call _ | zeroOrMore _ => false
  | pair p q => p.guarded && (p.advances || q.guarded)
  | either p q => p.guarded && q.guarded
  | map _ p => p.guarded
  | tryMap _ p => p.guarded
  | filter _ p => p.guarded
  | maybe p => p.guarded
  | oneOrMore p => p.guarded && p.advances
  | sepBy p _ => p.guarded && p.advances
  | fold p _ => p.guarded && p.advances
  | phrase p => p.guarded
  | delay p => p.guarded

/-- All that is known here of what rules read: it is not empty. -/
def Something : Language ρ := fun _ _ us _ => us ≠ []

theorem Reads.ne_nil {α : Type} {p : Parser ρ α} {us : List Token} {v : α}
    (h : p.Reads Something us v) (hp : p.advances = true) : us ≠ [] := by
  induction p generalizing us with
  | reserved | tag => obtain ⟨t, rfl, -⟩ := h; simp
  | epsilon | maybe | zeroOrMore => cases hp
  | failure => exact h.elim
  | pair p q ihp ihq =>
    obtain ⟨xs, ys, rfl, hx, hy⟩ := h
    simp only [advances, Bool.or_eq_true] at hp
    rcases hp with hp | hq
    · simp [ihp hx hp]
    · simp [ihq hy hq]
  | either p q ihp ihq =>
    simp only [advances, Bool.and_eq_true] at hp
    exact h.elim (fun h => ihp h hp.1) fun h => ihq h hp.2
  | map f p ih | tryMap f p ih => obtain ⟨w, h, -⟩ := h; exact ih h hp
  | filter accepts p ih => exact ih h.1 hp
  | oneOrMore p ih => obtain ⟨w, xs, ys, rfl, hx, -⟩ := h; simp [ih hx hp]
  | sepBy p q ihp | fold p q ihp => obtain ⟨w, xs, ys, rfl, hx, -⟩ := h; simp [ihp hx hp]
  | phrase p ih | delay p ih => exact ih h hp
  | call r => exact h

section Room

variable {n : Nat} {calls : Calls ρ}

/-- Every match of a rule moves on. -/
def MoveOn (calls : Calls ρ) : Prop :=
  ∀ α (r : ρ α) c v d, calls α r c = .matched v d → ∃ us, c.Past us d ∧ us ≠ []

theorem length_le_of_matchAt (hc : MoveOn calls) {α : Type} {p : Parser ρ α} {c d : Cursor} {v : α}
    (h : p.matchAt n calls c = .matched v d) : d.rest.length ≤ c.rest.length := by
  obtain ⟨us, hu, -⟩ : ∃ us, c.Past us d ∧ p.Reads Something us v := matchAt_reads hc p h
  have := hu.length
  omega

theorem length_lt_of_matchAt (hc : MoveOn calls) {α : Type} {p : Parser ρ α} {c d : Cursor} {v : α}
    (hp : p.advances = true) (h : p.matchAt n calls c = .matched v d) :
    d.rest.length < c.rest.length := by
  obtain ⟨us, hu, hr⟩ : ∃ us, c.Past us d ∧ p.Reads Something us v := matchAt_reads hc p h
  have := hu.length
  have := List.length_pos_iff.2 (hr.ne_nil hp)
  omega

theorem bind_ne_unfinished {α β : Type} {o : Outcome α} {f : α → Cursor → Outcome β}
    (ho : o ≠ .unfinished) (hf : ∀ v d, o = .matched v d → f v d ≠ .unfinished) :
    o.bind f ≠ .unfinished := by
  cases o with
  | unfinished => exact absurd rfl ho
  | failed => simp
  | matched v d => exact hf v d rfl

theorem map_ne_unfinished {α β : Type} {o : Outcome α} (f : α → β) (ho : o ≠ .unfinished) :
    o.map f ≠ .unfinished :=
  bind_ne_unfinished ho fun _ _ _ => by simp

theorem orElse_ne_unfinished {α : Type} {o : Outcome α} {f : Unit → Outcome α}
    (ho : o ≠ .unfinished) (hf : f () ≠ .unfinished) : o.orElse f ≠ .unfinished := by
  cases o with
  | unfinished => exact absurd rfl ho
  | failed => exact hf
  | matched v d => simp

theorem iterate_ne_unfinished {σ : Type} {step : σ → Cursor → Outcome σ}
    (hs : ∀ s c, c.rest.length < n → step s c ≠ .unfinished)
    (ha : ∀ s c t d, step s c = .matched t d → d.rest.length < c.rest.length) {m : Nat} (hm : m ≤ n)
    {s : σ} {c : Cursor} (hc : c.rest.length < m) : iterate step m s c ≠ .unfinished := by
  induction m generalizing s c with
  | zero => omega
  | succ m ih =>
    unfold iterate
    split
    · rename_i h
      exact absurd h (hs s c (by omega))
    · simp
    · rename_i t d h
      have := ha s c t d h
      exact ih (by omega) (by omega)

/-- The bound `n` is room enough for the parser at this cursor: it exceeds the number of tokens
left, or equals it while rules are called only behind the next token. -/
def Room (n : Nat) {α : Type} (p : Parser ρ α) (c : Cursor) : Prop :=
  c.rest.length < n ∨ c.rest.length ≤ n ∧ p.guarded = true

/-- Behind the first item of a repetition there is room for its rounds. -/
theorem length_lt_of_head (hc : MoveOn calls) {α : Type} {p : Parser ρ α} {c d : Cursor} {v : α}
    (hr : c.rest.length < n ∨ c.rest.length ≤ n ∧ p.guarded = true ∧ p.advances = true)
    (h : p.matchAt n calls c = .matched v d) : d.rest.length < n := by
  have := length_le_of_matchAt hc h
  rcases hr with hr | ⟨hr, -, ha⟩
  · omega
  · have := length_lt_of_matchAt hc ha h
    omega

/-! A repetition ends if its parsers do wherever fewer than `n` tokens are left. -/

theorem items_ne_unfinished (hc : MoveOn calls) {α : Type} {p : Parser ρ α}
    (ha : p.advances = true)
    (hp : ∀ c, c.rest.length < n → p.matchAt n calls c ≠ .unfinished) (acc : List α) {c : Cursor}
    (h : c.rest.length < n) :
    iterate (fun vs d => (p.matchAt n calls d).map (· :: vs)) n acc c ≠ .unfinished := by
  refine iterate_ne_unfinished (fun _ d hd => map_ne_unfinished _ (hp d hd)) ?_ (Nat.le_refl n) h
  intro vs d ws e hm
  obtain ⟨v, hm, -⟩ := map_eq_matched.1 hm
  exact length_lt_of_matchAt hc ha hm

theorem joins_ne_unfinished (hc : MoveOn calls) {α β σ : Type} {p : Parser ρ α} {q : Parser ρ β}
    (j : σ → β → α → σ) (ha : (p.advances || q.advances) = true)
    (hp : ∀ c, c.rest.length < n → p.matchAt n calls c ≠ .unfinished)
    (hq : ∀ c, c.rest.length < n → q.matchAt n calls c ≠ .unfinished) (acc : σ) {c : Cursor}
    (h : c.rest.length < n) :
    iterate (fun acc d => (q.matchAt n calls d).bind fun s e => (p.matchAt n calls e).map (j acc s))
      n acc c ≠ .unfinished := by
  apply iterate_ne_unfinished ?_ ?_ (Nat.le_refl n) h
  · intro acc d hd
    refine bind_ne_unfinished (hq d hd) fun s e hm => map_ne_unfinished _ (hp e ?_)
    exact Nat.lt_of_le_of_lt (length_le_of_matchAt hc hm) hd
  · intro acc d acc' z hm
    obtain ⟨s, e, hs, hm⟩ := bind_eq_matched.1 hm
    obtain ⟨v, hv, -⟩ := map_eq_matched.1 hm
    have := length_le_of_matchAt hc hs
    have := length_le_of_matchAt hc hv
    rw [Bool.or_eq_true] at ha
    rcases ha with ha | ha
    · have := length_lt_of_matchAt hc ha hv
      omega
    · have := length_lt_of_matchAt hc ha hs
      omega

theorem matchAt_ne_unfinished (hc : MoveOn calls)
    (ht : ∀ α (r : ρ α) c, c.rest.length < n → calls α r c ≠ .unfinished)
    {α : Type} {p : Parser ρ α} {c : Cursor} (hp : p.repeatsSoundly = true) (hr : Room n p c) :
    p.matchAt n calls c ≠ .unfinished := by
  induction p generalizing c with
  | reserved | tag =>
    unfold matchAt
    cases Cursor.token? c _ <;> simp [ofOption]
  | epsilon | failure => simp [matchAt]
  | pair p q ihp ihq =>
    simp only [repeatsSoundly, Bool.and_eq_true] at hp
    simp only [Room, guarded, Bool.and_eq_true, Bool.or_eq_true] at hr
    refine bind_ne_unfinished (ihp hp.1 (hr.imp_right fun h => ⟨h.1, h.2.1⟩)) fun v d h => ?_
    refine map_ne_unfinished _ (ihq hp.2 ?_)
    have := length_le_of_matchAt hc h
    rcases hr with hr | ⟨hr, -, ha | hg⟩
    · exact Or.inl (by omega)
    · have := length_lt_of_matchAt hc ha h
      exact Or.inl (by omega)
    · exact Or.inr ⟨by omega, hg⟩
  | either p q ihp ihq =>
    simp only [repeatsSoundly, Bool.and_eq_true] at hp
    simp only [Room, guarded, Bool.and_eq_true] at hr
    exact orElse_ne_unfinished (ihp hp.1 (hr.imp_right fun h => ⟨h.1, h.2.1⟩))
      (ihq hp.2 (hr.imp_right fun h => ⟨h.1, h.2.2⟩))
  | map f p ih => exact map_ne_unfinished f (ih hp hr)
  | tryMap f p ih => exact bind_ne_unfinished (ih hp hr) fun v d _ => by cases f v <;> simp
  | filter accepts p ih =>
    exact bind_ne_unfinished (ih hp hr) fun v d _ => by cases accepts v <;> simp
  | maybe p ih => exact orElse_ne_unfinished (map_ne_unfinished _ (ih hp hr)) (by simp)
  | zeroOrMore p ih =>
    simp only [repeatsSoundly, Bool.and_eq_true] at hp
    have hr : c.rest.length < n := hr.resolve_right fun h => by cases h.2
    exact map_ne_unfinished _
      (items_ne_unfinished hc hp.1 (fun _ h => ih hp.2 (Or.inl h)) [] hr)
  | oneOrMore p ih =>
    simp only [repeatsSoundly, Bool.and_eq_true] at hp
    simp only [Room, guarded, Bool.and_eq_true] at hr
    refine bind_ne_unfinished (ih hp.2 (hr.imp_right fun h => ⟨h.1, h.2.1⟩)) fun v d h => ?_
    exact map_ne_unfinished _ (items_ne_unfinished hc hp.1 (fun _ h => ih hp.2 (Or.inl h)) [v]
      (length_lt_of_head hc hr h))
  | sepBy p q ihp ihq =>
    simp only [repeatsSoundly, Bool.and_eq_true] at hp
    simp only [Room, guarded, Bool.and_eq_true] at hr
    refine bind_ne_unfinished (ihp hp.1.2 (hr.imp_right fun h => ⟨h.1, h.2.1⟩)) fun v d h => ?_
    exact map_ne_unfinished _ (joins_ne_unfinished hc (fun vs _ v => v :: vs) hp.1.1
      (fun _ h => ihp hp.1.2 (Or.inl h)) (fun _ h => ihq hp.2 (Or.inl h)) [v]
      (length_lt_of_head hc hr h))
  | fold p q ihp ihq =>
    simp only [repeatsSoundly, Bool.and_eq_true] at hp
    simp only [Room, guarded, Bool.and_eq_true] at hr
    refine bind_ne_unfinished (ihp hp.1.2 (hr.imp_right fun h => ⟨h.1, h.2.1⟩)) fun v d h => ?_
    exact joins_ne_unfinished hc (fun acc (f : _ → _ → _) v => f acc v) hp.1.1
      (fun _ h => ihp hp.1.2 (Or.inl h)) (fun _ h => ihq hp.2 (Or.inl h)) v
      (length_lt_of_head hc hr h)
  | phrase p ih => exact bind_ne_unfinished (ih hp hr) fun v d _ => by cases d.atEnd <;> simp
  | delay p ih => exact ih hp hr
  | call r => exact ht _ r c (hr.resolve_right fun h => by cases h.2)

end Room

/-- Rules that read something, repeat soundly and call each other only behind a token. -/
structure WellFormed (rules : Rules ρ) : Prop where
  advances : ∀ α (r : ρ α), (rules α r).advances = true
  repeatsSoundly : ∀ α (r : ρ α), (rules α r).repeatsSoundly = true
  guarded : ∀ α (r : ρ α), (rules α r).guarded = true

variable {rules : Rules ρ}

theorem WellFormed.moveOn (hw : WellFormed rules) (n : Nat) : MoveOn (callsWithin rules n) :=
  fun _ r _ _ _ h => callsWithin_reads (fun α r _ _ h => h.ne_nil (hw.advances α r)) n r h

theorem callsWithin_ne_unfinished (hw : WellFormed rules) {n : Nat} {α : Type} (r : ρ α)
    {c : Cursor} (h : c.rest.length < n) : callsWithin rules n α r c ≠ .unfinished := by
  induction n generalizing α c with
  | zero => omega
  | succ n ih =>
    exact matchAt_ne_unfinished (hw.moveOn n) (fun _ r c h => ih r h) (hw.repeatsSoundly α r)
      (Or.inr ⟨by omega, hw.guarded α r⟩)

/-- A bound greater than the number of tokens left is room enough. -/
theorem run_ne_unfinished (hw : WellFormed rules) {n : Nat} {α : Type} {p : Parser ρ α} {c : Cursor}
    (hp : p.repeatsSoundly = true) (h : c.rest.length < n) : p.run rules n c ≠ .unfinished :=
  matchAt_ne_unfinished (hw.moveOn n) (fun _ r _ h => callsWithin_ne_unfinished hw r h) hp
    (Or.inl h)

end ImpLang.Parser
