import ImpLang.Proofs.Parser.Behaviour

/-! Matching by rules that stand for parsers: which tokens are gone over, and the laws of each form of
parser, of which there is one for its matches and one for its failures. A `fold` goes by rounds, each
of an operator and an operand, and stops where no round succeeds. -/

namespace ImpLang

/-- The cursor `d` stands behind the tokens `us`, counted from `c`. -/
structure Cursor.Past (us : List Token) (c d : Cursor) : Prop where
  rest : c.rest = us ++ d.rest
  position : d.position = c.position + us.length

namespace Cursor

variable {us ws : List Token} {b c d : Cursor}

theorem Past.refl (c : Cursor) : Past [] c c := ⟨rfl, rfl⟩

theorem Past.trans (h : Past us b c) (h' : Past ws c d) : Past (us ++ ws) b d :=
  ⟨by rw [h.rest, h'.rest, List.append_assoc],
    by rw [h'.position, h.position, List.length_append, Nat.add_assoc]⟩

theorem Past.length (h : Past us c d) : c.rest.length = us.length + d.rest.length := by
  rw [h.rest, List.length_append]

theorem Past.head {t : Token} (h : Past (t :: us) c d) : c.rest.head? = some t := by simp [h.rest]

theorem Past.split (h : Past (us ++ ws) c d) : ∃ b, Past us c b ∧ Past ws b d :=
  ⟨⟨c.position + us.length, ws ++ d.rest⟩, ⟨by simp [h.rest], rfl⟩,
    rfl, by simp [h.position, Nat.add_assoc]⟩

theorem Past.uncons {t : Token} (h : Past (t :: us) c d) : ∃ b, Past [t] c b ∧ Past us b d :=
  Past.split (show Past ([t] ++ us) c d from h)

theorem token?_eq_some {test : Token → Bool} {s : String} :
    c.token? test = some (s, d) ↔ ∃ t, Past [t] c d ∧ test t = true ∧ t.lexeme = s := by
  unfold token?
  constructor
  · intro h
    split at h
    · cases h
    · rename_i t ts hc
      split at h
      · cases h
        exact ⟨t, ⟨hc, rfl⟩, ‹_›, rfl⟩
      · cases h
  · rintro ⟨t, ⟨hr, hp⟩, ht, rfl⟩
    have hd : (⟨c.position + 1, d.rest⟩ : Cursor) = d := by rw [← @List.length_singleton _ t, ← hp]
    simp [hr, ht, hd]

theorem token?_eq_none {test : Token → Bool} :
    c.token? test = none ↔ ∀ t ∈ c.rest.head?, test t = false := by
  unfold token?
  cases c.rest <;> simp

end Cursor

namespace Parser

open Outcome

variable {ρ : Type → Type} {rules : Rules ρ} {α β : Type} {c d e : Cursor}

/-- The parser matches at `c` with this value and stops at `d`. -/
def Matches (rules : Rules ρ) (p : Parser ρ α) (c : Cursor) (v : α) (d : Cursor) : Prop :=
  ∃ n, p.run rules n c = .matched v d

def Fails (rules : Rules ρ) (p : Parser ρ α) (c : Cursor) : Prop := ∃ n, p.run rules n c = .failed

theorem run_grows (rules : Rules ρ) (p : Parser ρ α) (c : Cursor) :
    Grows fun n => p.run rules n c :=
  Behaviour.matchAt_grows (.ofRules rules) p c

theorem Matches.unique {p : Parser ρ α} {v w : α} (h : Matches rules p c v d)
    (h' : Matches rules p c w e) : v = w ∧ d = e :=
  Behaviour.Matches.unique (b := .ofRules rules) h h'

theorem Matches.not_fails {p : Parser ρ α} {v : α} (h : Matches rules p c v d) :
    ¬ Fails rules p c :=
  Behaviour.Matches.not_fails (b := .ofRules rules) h

theorem run_tag (k : TokenKind) (n : Nat) (c : Cursor) :
    (tag k).run rules n c = .ofOption (c.token? fun t => t.kind == k) := rfl

theorem run_reserved (l : String) (n : Nat) (c : Cursor) :
    (reserved l .reserved).run rules n c = .ofOption (c.token? (Token.isReserved l)) := rfl

theorem run_either (p q : Parser ρ α) (n : Nat) (c : Cursor) :
    (either p q).run rules n c = (p.run rules n c).orElse fun _ => q.run rules n c := rfl

theorem matches_tag {k : TokenKind} {s : String} :
    Matches rules (tag k) c s d ↔ ∃ t, c.Past [t] d ∧ t.kind = k ∧ t.lexeme = s := by
  simp [Matches, run_tag, ofOption_eq_matched, Cursor.token?_eq_some]

theorem fails_tag {k : TokenKind} : Fails rules (tag k) c ↔ ∀ t ∈ c.rest.head?, t.kind ≠ k := by
  simp [Fails, run_tag, ofOption_eq_failed, Cursor.token?_eq_none]

theorem matches_reserved {l s : String} : Matches rules (reserved l .reserved) c s d ↔
    ∃ t, c.Past [t] d ∧ t.isReserved l = true ∧ t.lexeme = s := by
  simp [Matches, run_reserved, ofOption_eq_matched, Cursor.token?_eq_some]

theorem fails_reserved {l : String} :
    Fails rules (reserved l .reserved) c ↔ ∀ t ∈ c.rest.head?, t.isReserved l = false := by
  simp [Fails, run_reserved, ofOption_eq_failed, Cursor.token?_eq_none]

theorem failure_fails : Fails rules (failure : Parser ρ α) c := ⟨0, rfl⟩

theorem matches_call {r : ρ α} {v : α} :
    Matches rules (call r) c v d ↔ Matches rules (rules α r) c v d := by
  constructor
  · rintro ⟨_ | n, h⟩
    · cases h
    · exact ⟨n, h⟩
  · rintro ⟨n, h⟩
    exact ⟨n + 1, h⟩

theorem fails_call {r : ρ α} : Fails rules (call r) c ↔ Fails rules (rules α r) c := by
  constructor
  · rintro ⟨_ | n, h⟩
    · cases h
    · exact ⟨n, h⟩
  · rintro ⟨n, h⟩
    exact ⟨n + 1, h⟩

theorem matches_pair {p : Parser ρ α} {q : Parser ρ β} {v : α × β} :
    Matches rules (pair p q) c v e ↔ ∃ d, Matches rules p c v.1 d ∧ Matches rules q d v.2 e :=
  Behaviour.matches_pair (b := .ofRules rules)

theorem fails_pair {p : Parser ρ α} {q : Parser ρ β} :
    Fails rules (pair p q) c ↔
      Fails rules p c ∨ ∃ v d, Matches rules p c v d ∧ Fails rules q d :=
  Behaviour.fails_pair (b := .ofRules rules)

theorem matches_map {f : α → β} {p : Parser ρ α} {w : β} :
    Matches rules (map f p) c w d ↔ ∃ v, Matches rules p c v d ∧ f v = w :=
  Behaviour.matches_map (b := .ofRules rules)

theorem fails_map {f : α → β} {p : Parser ρ α} : Fails rules (map f p) c ↔ Fails rules p c :=
  Behaviour.fails_map (b := .ofRules rules)

theorem matches_tryMap {f : α → Option β} {p : Parser ρ α} {w : β} :
    Matches rules (tryMap f p) c w d ↔ ∃ v, Matches rules p c v d ∧ f v = some w :=
  Behaviour.matches_tryMap (b := .ofRules rules)

theorem fails_tryMap {f : α → Option β} {p : Parser ρ α} :
    Fails rules (tryMap f p) c ↔ Fails rules p c ∨ ∃ v d, Matches rules p c v d ∧ f v = none :=
  Behaviour.fails_tryMap (b := .ofRules rules)

theorem matches_either {p q : Parser ρ α} {v : α} :
    Matches rules (either p q) c v d ↔
      Matches rules p c v d ∨ Fails rules p c ∧ Matches rules q c v d :=
  Behaviour.matches_either (b := .ofRules rules)

theorem fails_either {p q : Parser ρ α} :
    Fails rules (either p q) c ↔ Fails rules p c ∧ Fails rules q c :=
  Behaviour.fails_either (b := .ofRules rules)

theorem matches_maybe_some {p : Parser ρ α} {v : α} (h : Matches rules p c v d) :
    Matches rules (maybe p) c (some v) d :=
  (Behaviour.matches_maybe (b := .ofRules rules)).2 (Or.inl ⟨v, h, rfl⟩)

theorem matches_maybe_none {p : Parser ρ α} (h : Fails rules p c) :
    Matches rules (maybe p) c none c :=
  (Behaviour.matches_maybe (b := .ofRules rules)).2 (Or.inr ⟨h, rfl, rfl⟩)

theorem matches_phrase {p : Parser ρ α} {v : α} :
    Matches rules (phrase p) c v d ↔ Matches rules p c v d ∧ d.atEnd = true :=
  Behaviour.matches_phrase (b := .ofRules rules)

section Fold

variable {p : Parser ρ α} {q : Parser ρ (α → α → α)} {u v : α}

/-- A round of a fold: an operator, an operand, and the value so far joined with the operand's. -/
def foldRound (rules : Rules ρ) (p : Parser ρ α) (q : Parser ρ (α → α → α)) (n : Nat) (acc : α)
    (c : Cursor) : Outcome α :=
  (q.run rules n c).bind fun f d => (p.run rules n d).map (f acc)

/-- A fold that starts at `c` comes by the value `v` at `d`. -/
def Folds (rules : Rules ρ) (p : Parser ρ α) (q : Parser ρ (α → α → α)) (c : Cursor) (v : α)
    (d : Cursor) : Prop :=
  ∃ w b, Matches rules p c w b ∧ Relation.ReflTransGen (Round (foldRound rules p q)) (w, b) (v, d)

theorem foldRound_grows (rules : Rules ρ) (p : Parser ρ α) (q : Parser ρ (α → α → α)) (acc : α)
    (c : Cursor) : Grows fun n => foldRound rules p q n acc c :=
  (run_grows rules q c).bind fun _ d => (run_grows rules p d).map _

theorem round_foldRound {x y : α × Cursor} : Round (foldRound rules p q) x y ↔
    ∃ f d v, Matches rules q x.2 f d ∧ Matches rules p d v y.2 ∧ f x.1 v = y.1 := by
  refine (exists_bind_matched (run_grows rules q x.2)
    fun _ d => (run_grows rules p d).map _).trans ?_
  simp only [map_eq_matched, Matches]
  grind

theorem foldRound_fails : (∃ n, foldRound rules p q n v c = .failed) ↔
    Fails rules q c ∨ ∃ f d, Matches rules q c f d ∧ Fails rules p d := by
  refine (exists_bind_failed (run_grows rules q c) fun _ d => (run_grows rules p d).map _).trans ?_
  simp only [map_eq_failed, Matches, Fails]

theorem Folds.first (h : Matches rules p c v d) : Folds rules p q c v d := ⟨v, d, h, .refl⟩

theorem Folds.more {f : α → α → α} {b : Cursor} (h : Folds rules p q c u b)
    (hq : Matches rules q b f d) (hp : Matches rules p d v e) : Folds rules p q c (f u v) e := by
  obtain ⟨w, a, hw, hr⟩ := h
  exact ⟨w, a, hw, hr.tail (round_foldRound.2 ⟨f, d, v, hq, hp, rfl⟩)⟩

theorem matches_fold : Matches rules (fold p q) c v d ↔
    Folds rules p q c v d ∧ (Fails rules q d ∨ ∃ f e, Matches rules q d f e ∧ Fails rules p e) := by
  refine (exists_bind_matched (run_grows rules p c) fun w b =>
    Grows.iterate (foldRound_grows rules p q) w b).trans ?_
  simp only [exists_iterate_matched (foldRound_grows rules p q), foldRound_fails, Folds, Matches]
  grind

theorem fails_fold : Fails rules (fold p q) c ↔ Fails rules p c := by
  refine (exists_bind_failed (run_grows rules p c) fun w b =>
    Grows.iterate (foldRound_grows rules p q) w b).trans ?_
  simp [iterate_ne_failed, Fails]

theorem Folds.matches (h : Folds rules p q c v d) (hq : Fails rules q d) :
    Matches rules (fold p q) c v d :=
  matches_fold.2 ⟨h, Or.inl hq⟩

end Fold

end Parser
end ImpLang
