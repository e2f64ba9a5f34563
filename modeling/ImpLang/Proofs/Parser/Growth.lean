import ImpLang.Parser.Bound
import Mathlib.Logic.Relation

/-! Outcomes within greater and greater bounds. Whatever ends within some bound may be taken to
end within any larger one, so a chain of runs ends exactly when each run of it does, and a
repetition ends exactly when a chain of rounds leads to a place where no further round succeeds. -/

namespace ImpLang

namespace Outcome

variable {α β : Type}

theorem bind_eq_matched {o : Outcome α} {f : α → Cursor → Outcome β} {w : β} {e : Cursor} :
    o.bind f = .matched w e ↔ ∃ v d, o = .matched v d ∧ f v d = .matched w e := by
  cases o <;> simp [and_assoc]

theorem bind_eq_failed {o : Outcome α} {f : α → Cursor → Outcome β} :
    o.bind f = .failed ↔ o = .failed ∨ ∃ v d, o = .matched v d ∧ f v d = .failed := by
  cases o <;> simp [and_assoc]

theorem orElse_eq_matched {o : Outcome α} {f : Unit → Outcome α} {v : α} {d : Cursor} :
    o.orElse f = .matched v d ↔ o = .matched v d ∨ o = .failed ∧ f () = .matched v d := by
  cases o <;> simp

theorem orElse_eq_failed {o : Outcome α} {f : Unit → Outcome α} :
    o.orElse f = .failed ↔ o = .failed ∧ f () = .failed := by
  cases o <;> simp

theorem map_eq_matched {o : Outcome α} {f : α → β} {w : β} {d : Cursor} :
    o.map f = .matched w d ↔ ∃ v, o = .matched v d ∧ f v = w := by
  cases o with
  | unfinished => simp
  | failed => simp
  | matched v c => simp only [map_matched, matched.injEq]; grind

theorem map_eq_failed {o : Outcome α} {f : α → β} : o.map f = .failed ↔ o = .failed := by
  cases o <;> simp

theorem ofOption_eq_matched {o : Option (α × Cursor)} {v : α} {d : Cursor} :
    ofOption o = .matched v d ↔ o = some (v, d) := by
  rcases o with _ | ⟨w, e⟩ <;> simp [ofOption]

theorem ofOption_eq_failed {o : Option (α × Cursor)} : ofOption o = .failed ↔ o = none := by
  rcases o with _ | ⟨w, e⟩ <;> simp [ofOption]

/-- Outcomes within greater and greater bounds. -/
def Grows (f : Nat → Outcome α) : Prop := ∀ n m, n ≤ m → (f n).Below (f m)

theorem Grows.bind {f : Nat → Outcome α} {g : Nat → α → Cursor → Outcome β} (hf : Grows f)
    (hg : ∀ v d, Grows fun n => g n v d) : Grows fun n => (f n).bind (g n) :=
  fun n m h => below_bind (hf n m h) fun v d => hg v d n m h

theorem Grows.map {f : Nat → Outcome α} (hf : Grows f) (g : α → β) : Grows fun n => (f n).map g :=
  fun n m h => below_map g (hf n m h)

theorem Grows.later {f : Nat → Outcome α} (hf : Grows f) {n m : Nat} {o : Outcome α} (h : f n = o)
    (ho : o ≠ .unfinished) (hn : n ≤ m) : f m = o :=
  ((hf n m hn).eq (h ▸ ho)).symm.trans h

/-- Two bounds at which a run has ended may be taken equal. -/
theorem Grows.both {f : Nat → Outcome α} {g : Nat → Outcome β} {o : Outcome α} {o' : Outcome β}
    (hf : Grows f) (hg : Grows g) (ho : o ≠ .unfinished) (ho' : o' ≠ .unfinished)
    (h : ∃ n, f n = o) (h' : ∃ n, g n = o') : ∃ n, f n = o ∧ g n = o' := by
  obtain ⟨n, hn⟩ := h
  obtain ⟨m, hm⟩ := h'
  exact ⟨max n m, hf.later hn ho (Nat.le_max_left n m), hg.later hm ho' (Nat.le_max_right n m)⟩

theorem Grows.unique {f : Nat → Outcome α} {o o' : Outcome α} (hf : Grows f) (ho : o ≠ .unfinished)
    (ho' : o' ≠ .unfinished) (h : ∃ n, f n = o) (h' : ∃ n, f n = o') : o = o' := by
  obtain ⟨n, hn, hn'⟩ := hf.both hf ho ho' h h'
  exact hn.symm.trans hn'

theorem Grows.exists_of_eventually {f g : Nat → Outcome α} (hf : Grows f) {m : Nat}
    (h : ∀ n, m ≤ n → f n = g n) {o : Outcome α} (ho : o ≠ .unfinished) (hn : ∃ n, f n = o) :
    ∃ n, g n = o := by
  obtain ⟨n, hn⟩ := hn
  exact ⟨max n m, (h _ (Nat.le_max_right n m)).symm.trans (hf.later hn ho (Nat.le_max_left n m))⟩

/-- Runs that are the same within every large bound end in the same outcomes. -/
theorem Grows.exists_iff {f g : Nat → Outcome α} (hf : Grows f) (hg : Grows g) {m : Nat}
    (h : ∀ n, m ≤ n → f n = g n) {o : Outcome α} (ho : o ≠ .unfinished) :
    (∃ n, f n = o) ↔ ∃ n, g n = o :=
  ⟨hf.exists_of_eventually h ho, hg.exists_of_eventually (fun n hn => (h n hn).symm) ho⟩

section Ends

variable {f : Nat → Outcome α} {w : β} {e : Cursor}

theorem exists_bind_matched {g : Nat → α → Cursor → Outcome β} (hf : Grows f)
    (hg : ∀ v d, Grows fun n => g n v d) : (∃ n, (f n).bind (g n) = .matched w e) ↔
      ∃ v d, (∃ n, f n = .matched v d) ∧ ∃ n, g n v d = .matched w e := by
  simp only [bind_eq_matched]
  constructor
  · rintro ⟨n, v, d, h, h'⟩
    exact ⟨v, d, ⟨n, h⟩, n, h'⟩
  · rintro ⟨v, d, h, h'⟩
    obtain ⟨n, h, h'⟩ := hf.both (hg v d) (by simp) (by simp) h h'
    exact ⟨n, v, d, h, h'⟩

theorem exists_bind_failed {g : Nat → α → Cursor → Outcome β} (hf : Grows f)
    (hg : ∀ v d, Grows fun n => g n v d) : (∃ n, (f n).bind (g n) = .failed) ↔
      (∃ n, f n = .failed) ∨ ∃ v d, (∃ n, f n = .matched v d) ∧ ∃ n, g n v d = .failed := by
  simp only [bind_eq_failed]
  constructor
  · rintro ⟨n, h | ⟨v, d, h, h'⟩⟩
    · exact Or.inl ⟨n, h⟩
    · exact Or.inr ⟨v, d, ⟨n, h⟩, n, h'⟩
  · rintro (⟨n, h⟩ | ⟨v, d, h, h'⟩)
    · exact ⟨n, Or.inl h⟩
    · obtain ⟨n, h, h'⟩ := hf.both (hg v d) (by simp) (by simp) h h'
      exact ⟨n, Or.inr ⟨v, d, h, h'⟩⟩

end Ends
end Outcome

open Outcome

section Iterate

variable {σ : Type} {step : Nat → σ → Cursor → Outcome σ} {s t : σ} {c d : Cursor}

/-- One round of a repetition, from a value and a cursor to the next. -/
def Round (step : Nat → σ → Cursor → Outcome σ) (x y : σ × Cursor) : Prop :=
  ∃ n, step n x.1 x.2 = .matched y.1 y.2

theorem iterate_ne_failed (f : σ → Cursor → Outcome σ) (n : Nat) (s : σ) (c : Cursor) :
    iterate f n s c ≠ .failed := by
  induction n generalizing s c with
  | zero => simp [iterate]
  | succ n ih =>
    unfold iterate
    split
    · simp
    · simp
    · exact ih _ _

theorem rounds_of_iterate {n m : Nat} (h : iterate (step n) m s c = .matched t d) :
    Relation.ReflTransGen (Round step) (s, c) (t, d) ∧ ∃ n, step n t d = .failed := by
  induction m generalizing s c with
  | zero => cases h
  | succ m ih =>
    unfold iterate at h
    split at h
    · cases h
    · rename_i hf
      cases h
      exact ⟨.refl, n, hf⟩
    · rename_i s' c' hm
      obtain ⟨hr, hs⟩ := ih h
      exact ⟨hr.head ⟨n, hm⟩, hs⟩

theorem Grows.iterate (hstep : ∀ s c, Grows fun n => step n s c) (s : σ) (c : Cursor) :
    Grows fun n => iterate (step n) n s c :=
  fun n m h => iterate_below h (fun s c => hstep s c n m h) s c

theorem iterate_of_rounds (hstep : ∀ s c, Grows fun n => step n s c) {x : σ × Cursor}
    (hr : Relation.ReflTransGen (Round step) x (t, d)) (hs : ∃ n, step n t d = .failed) :
    ∃ n, iterate (step n) n x.1 x.2 = .matched t d := by
  induction hr using Relation.ReflTransGen.head_induction_on with
  | refl =>
    obtain ⟨n, hn⟩ := hs
    have hn' : step (n + 1) t d = .failed := (hstep t d).later hn (by simp) n.le_succ
    exact ⟨n + 1, by simp only [iterate, hn']⟩
  | @head x y hxy _ ih =>
    -- the bound of the rest leaves room for one round more
    obtain ⟨n, hn, hm⟩ :=
      (hstep x.1 x.2).both (Grows.iterate hstep y.1 y.2) (by simp) (by simp) hxy ih
    have hn' : step (n + 1) x.1 x.2 = .matched y.1 y.2 :=
      (hstep x.1 x.2).later hn (by simp) n.le_succ
    have hm' : ImpLang.iterate (step (n + 1)) n y.1 y.2 = .matched t d := by
      rw [← (iterate_below (Nat.le_refl n) (fun s c => hstep s c n (n + 1) n.le_succ) y.1 y.2).eq
        (by simp [hm]), hm]
    exact ⟨n + 1, by simp only [ImpLang.iterate, hn', hm']⟩

/-- A repetition ends after some rounds, at the first place where no further round succeeds. -/
theorem exists_iterate_matched (hstep : ∀ s c, Grows fun n => step n s c) :
    (∃ n, iterate (step n) n s c = .matched t d) ↔
      Relation.ReflTransGen (Round step) (s, c) (t, d) ∧ ∃ n, step n t d = .failed :=
  ⟨fun ⟨_, h⟩ => rounds_of_iterate h, fun ⟨hr, hs⟩ => iterate_of_rounds hstep hr hs⟩

end Iterate

end ImpLang
