import ImpLang.Proofs.Parser.Growth

/-! Matching with no bound in sight, over rules of any kind. A rule need not stand for a parser; it may
do whatever a function of the cursor can do, so that laws for all parsers hold whatever their parts are.
A parser matches, or fails, when it does so within some bound; parsers do the same at a cursor when
they match there alike and fail alike. -/

namespace ImpLang

open Outcome ImpLang.Parser

variable {ρ : Type → Type} {α β : Type}

/-- What rules do within greater and greater bounds. -/
structure Behaviour (ρ : Type → Type) where
  calls : Nat → Calls ρ
  grows : ∀ {α : Type} (r : ρ α) (c : Cursor), Grows fun n => calls n α r c

namespace Behaviour

/-- Rules that stand for parsers, which may call them in turn. -/
def ofRules (rules : Rules ρ) : Behaviour ρ where
  calls := callsWithin rules
  grows r c _ _ hn := callsWithin_below rules hn r c

/-- Rules that stand for functions. -/
def ofFunctions (f : (α : Type) → ρ α → Cursor → Option (α × Cursor)) : Behaviour ρ where
  calls _ _ r c := .ofOption (f _ r c)
  grows _ _ _ _ _ := Below.refl _

/-- The parser matches at `c` with this value and stops at `d`. -/
def Matches (b : Behaviour ρ) (p : Parser ρ α) (c : Cursor) (v : α) (d : Cursor) : Prop :=
  ∃ n, p.matchAt n (b.calls n) c = .matched v d

def Fails (b : Behaviour ρ) (p : Parser ρ α) (c : Cursor) : Prop :=
  ∃ n, p.matchAt n (b.calls n) c = .failed

/-- At `c` the parsers match with the same value and stop at the same place, or both fail; if the run
of neither ends, they do neither. -/
structure SameAt (b : Behaviour ρ) (c : Cursor) (p q : Parser ρ α) : Prop where
  matches_iff : ∀ v d, b.Matches p c v d ↔ b.Matches q c v d
  fails_iff : b.Fails p c ↔ b.Fails q c

variable {b : Behaviour ρ} {p : Parser ρ α} {q : Parser ρ β} {c d e : Cursor} {v w : α}

theorem matchAt_grows (b : Behaviour ρ) (p : Parser ρ α) (c : Cursor) :
    Grows fun n => p.matchAt n (b.calls n) c :=
  fun n m hn => matchAt_below hn (fun _ r c => b.grows r c n m hn) p c

theorem Matches.unique (h : b.Matches p c v d) (h' : b.Matches p c w e) : v = w ∧ d = e := by
  have := (matchAt_grows b p c).unique (by simp) (by simp) h h'
  simpa using this

theorem Matches.not_fails (h : b.Matches p c v d) : ¬ b.Fails p c := by
  intro h'
  have := (matchAt_grows b p c).unique (by simp) (by simp) h h'
  simp at this

/-! One law for the matches of each form of parser, and one for its failures. -/

theorem matches_pair {v : α × β} :
    b.Matches (pair p q) c v e ↔ ∃ d, b.Matches p c v.1 d ∧ b.Matches q d v.2 e := by
  refine (exists_bind_matched (matchAt_grows b p c) fun _ d => (matchAt_grows b q d).map _).trans ?_
  simp only [map_eq_matched, Matches]
  constructor
  · rintro ⟨v, d, h, n, w, h', rfl⟩
    exact ⟨d, h, n, h'⟩
  · rintro ⟨d, h, n, h'⟩
    exact ⟨v.1, d, h, n, v.2, h', rfl⟩

theorem fails_pair :
    b.Fails (pair p q) c ↔ b.Fails p c ∨ ∃ v d, b.Matches p c v d ∧ b.Fails q d := by
  refine (exists_bind_failed (matchAt_grows b p c) fun _ d => (matchAt_grows b q d).map _).trans ?_
  simp only [map_eq_failed, Matches, Fails]

theorem matches_map {f : α → β} {w : β} :
    b.Matches (map f p) c w d ↔ ∃ v, b.Matches p c v d ∧ f v = w := by
  simp only [Matches, matchAt, map_eq_matched]
  grind

theorem fails_map {f : α → β} : b.Fails (map f p) c ↔ b.Fails p c := by
  simp only [Fails, matchAt, map_eq_failed]

theorem matches_tryMap {f : α → Option β} {w : β} :
    b.Matches (tryMap f p) c w d ↔ ∃ v, b.Matches p c v d ∧ f v = some w := by
  constructor
  · rintro ⟨n, h⟩
    obtain ⟨v, d', hp, hf⟩ := bind_eq_matched.1 h
    cases hv : f v with
    | none => simp [hv] at hf
    | some u =>
      simp only [hv, matched.injEq] at hf
      obtain ⟨rfl, rfl⟩ := hf
      exact ⟨v, ⟨n, hp⟩, hv⟩
  · rintro ⟨v, ⟨n, hp⟩, hf⟩
    exact ⟨n, bind_eq_matched.2 ⟨v, d, hp, by simp [hf]⟩⟩

theorem fails_tryMap {f : α → Option β} :
    b.Fails (tryMap f p) c ↔ b.Fails p c ∨ ∃ v d, b.Matches p c v d ∧ f v = none := by
  constructor
  · rintro ⟨n, h⟩
    obtain hp | ⟨v, d, hp, hf⟩ := bind_eq_failed.1 h
    · exact Or.inl ⟨n, hp⟩
    · refine Or.inr ⟨v, d, ⟨n, hp⟩, ?_⟩
      cases hv : f v with
      | none => rfl
      | some u => simp [hv] at hf
  · rintro (⟨n, hp⟩ | ⟨v, d, ⟨n, hp⟩, hf⟩)
    · exact ⟨n, bind_eq_failed.2 (Or.inl hp)⟩
    · exact ⟨n, bind_eq_failed.2 (Or.inr ⟨v, d, hp, by simp [hf]⟩)⟩

theorem matches_either {q : Parser ρ α} :
    b.Matches (either p q) c v d ↔ b.Matches p c v d ∨ b.Fails p c ∧ b.Matches q c v d := by
  simp only [Matches, matchAt, orElse_eq_matched, Fails]
  constructor
  · rintro ⟨n, h | ⟨h, h'⟩⟩
    · exact Or.inl ⟨n, h⟩
    · exact Or.inr ⟨⟨n, h⟩, n, h'⟩
  · rintro (⟨n, h⟩ | ⟨h, h'⟩)
    · exact ⟨n, Or.inl h⟩
    · obtain ⟨n, h, h'⟩ := (matchAt_grows b p c).both (matchAt_grows b q c) (by simp) (by simp) h h'
      exact ⟨n, Or.inr ⟨h, h'⟩⟩

theorem fails_either {q : Parser ρ α} :
    b.Fails (either p q) c ↔ b.Fails p c ∧ b.Fails q c := by
  simp only [matchAt, orElse_eq_failed, Fails]
  constructor
  · rintro ⟨n, h, h'⟩
    exact ⟨⟨n, h⟩, n, h'⟩
  · rintro ⟨h, h'⟩
    exact (matchAt_grows b p c).both (matchAt_grows b q c) (by simp) (by simp) h h'

theorem matches_maybe {o : Option α} : b.Matches (maybe p) c o d ↔
    (∃ v, b.Matches p c v d ∧ some v = o) ∨ b.Fails p c ∧ o = none ∧ d = c := by
  simp only [Matches, matchAt, orElse_eq_matched, map_eq_matched, map_eq_failed, Fails]
  grind

theorem maybe_not_fails : ¬ b.Fails (maybe p) c := by
  rintro ⟨n, h⟩
  cases (orElse_eq_failed.1 h).2

theorem matches_phrase :
    b.Matches (phrase p) c v d ↔ b.Matches p c v d ∧ d.atEnd = true := by
  constructor
  · rintro ⟨n, h⟩
    obtain ⟨w, d', hp, hd⟩ := bind_eq_matched.1 h
    split at hd
    · cases hd
      exact ⟨⟨n, hp⟩, ‹_›⟩
    · cases hd
  · rintro ⟨⟨n, hp⟩, hd⟩
    exact ⟨n, bind_eq_matched.2 ⟨v, d, hp, by simp [hd]⟩⟩

/-- Parsers that come to the same within every large bound do the same. -/
theorem sameAt_of_eventually {q : Parser ρ α} {m : Nat}
    (h : ∀ n, m ≤ n → p.matchAt n (b.calls n) c = q.matchAt n (b.calls n) c) : b.SameAt c p q := by
  have hp := matchAt_grows b p c
  have hq := matchAt_grows b q c
  exact ⟨fun v d => hp.exists_iff hq h (by simp), hp.exists_iff hq h (by simp)⟩

theorem sameAt_of_eq {q : Parser ρ α}
    (h : ∀ n, p.matchAt n (b.calls n) c = q.matchAt n (b.calls n) c) : b.SameAt c p q :=
  sameAt_of_eventually (m := 0) fun n _ => h n

end Behaviour
end ImpLang
