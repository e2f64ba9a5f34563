import ImpLang.Parser.Description
import ImpLang.Proofs.Parser.Behaviour

/-! Repetition. `zeroOrMore` goes along a chain of matches, each from where the last one stopped, to the
place where no other follows; there is only one such chain. The other repetitions are `zeroOrMore`
behind a first item, with what separates the items read in front of each. -/

open Relation (ReflTransGen)

namespace ImpLang

open Outcome

/-- Repetitions whose steps do the same to values that correspond come to values that correspond. -/
theorem iterate_map {σ τ : Type} {step : σ → Cursor → Outcome σ} {step' : τ → Cursor → Outcome τ}
    (g : σ → τ) (h : ∀ s c, step' (g s) c = (step s c).map g) (n : Nat) (s : σ) (c : Cursor) :
    iterate step' n (g s) c = (iterate step n s c).map g := by
  induction n generalizing s c with
  | zero => rfl
  | succ n ih =>
    rw [iterate, iterate, h]
    cases step s c with
    | unfinished | failed => rfl
    | matched s' c' => exact ih s' c'

namespace Behaviour

open ImpLang.Parser

variable {ρ : Type → Type} {α β : Type} {b : Behaviour ρ} {p : Parser ρ α} {c d e : Cursor} {v : α}
  {vs ws : List α}

/-- Matches in a row, each from where the last one stopped, with their values. -/
inductive Chain (b : Behaviour ρ) (p : Parser ρ α) : Cursor → List α → Cursor → Prop
  | nil (c : Cursor) : Chain b p c [] c
  | cons {v : α} {vs : List α} {c d e : Cursor} (first : b.Matches p c v d)
      (rest : Chain b p d vs e) : Chain b p c (v :: vs) e

/-- A chain of matches behind which no other match follows. -/
structure MaximalChain (b : Behaviour ρ) (p : Parser ρ α) (c : Cursor) (vs : List α) (d : Cursor) :
    Prop where
  chain : b.Chain p c vs d
  stops : b.Fails p d

/-- A round of `zeroOrMore`: one more item, put in front of those that came before it. -/
def itemRound (b : Behaviour ρ) (p : Parser ρ α) (n : Nat) (acc : List α) (c : Cursor) :
    Outcome (List α) :=
  (p.matchAt n (b.calls n) c).map (· :: acc)

theorem itemRound_grows (b : Behaviour ρ) (p : Parser ρ α) (acc : List α) (c : Cursor) :
    Grows fun n => b.itemRound p n acc c :=
  (matchAt_grows b p c).map _

theorem round_itemRound {x y : List α × Cursor} :
    Round (b.itemRound p) x y ↔ ∃ v, b.Matches p x.2 v y.2 ∧ v :: x.1 = y.1 := by
  simp only [Round, itemRound, map_eq_matched, Matches]
  constructor
  · rintro ⟨n, v, hv, hy⟩
    exact ⟨v, ⟨n, hv⟩, hy⟩
  · rintro ⟨v, ⟨n, hv⟩, hy⟩
    exact ⟨n, v, hv, hy⟩

theorem chain_of_rounds {x y : List α × Cursor} (h : ReflTransGen (Round (b.itemRound p)) x y) :
    ∃ vs, y.1 = vs.reverse ++ x.1 ∧ b.Chain p x.2 vs y.2 := by
  induction h using ReflTransGen.head_induction_on with
  | refl => exact ⟨[], rfl, .nil _⟩
  | head hr _ ih =>
    obtain ⟨v, hv, hx⟩ := round_itemRound.1 hr
    obtain ⟨vs, hy, hvs⟩ := ih
    exact ⟨v :: vs, by simp [hy, ← hx], .cons hv hvs⟩

theorem Chain.rounds (h : b.Chain p c vs d) (acc : List α) :
    ReflTransGen (Round (b.itemRound p)) (acc, c) (vs.reverse ++ acc, d) := by
  induction h generalizing acc with
  | nil => exact .refl
  | @cons v vs c d e first rest ih =>
    have hround : Round (b.itemRound p) (acc, c) (v :: acc, d) :=
      round_itemRound.2 ⟨v, first, rfl⟩
    simpa using (ih (v :: acc)).head hround

/-- `zeroOrMore` yields what a maximal chain yields. -/
theorem matches_zeroOrMore : b.Matches (zeroOrMore p) c vs d ↔ b.MaximalChain p c vs d := by
  have hrun : b.Matches (zeroOrMore p) c vs d ↔
      ∃ us, (∃ n, iterate (b.itemRound p n) n [] c = .matched us d) ∧ us.reverse = vs := by
    simp only [Matches, matchAt, map_eq_matched, ← exists_and_right]
    exact exists_comm
  have hfails {us : List α} : (∃ n, b.itemRound p n us d = .failed) ↔ b.Fails p d := by
    simp only [itemRound, map_eq_failed, Fails]
  simp only [hrun, exists_iterate_matched (itemRound_grows b p), hfails]
  constructor
  · rintro ⟨us, ⟨hr, hd⟩, rfl⟩
    obtain ⟨vs, rfl, hvs⟩ := chain_of_rounds hr
    exact ⟨by simpa using hvs, hd⟩
  · rintro ⟨hvs, hd⟩
    exact ⟨vs.reverse, ⟨by simpa using hvs.rounds [], hd⟩, vs.reverse_reverse⟩

theorem zeroOrMore_not_fails : ¬ b.Fails (zeroOrMore p) c := by
  rintro ⟨n, h⟩
  exact iterate_ne_failed _ _ _ _ (map_eq_failed.1 h)

theorem MaximalChain.unique (h : b.MaximalChain p c vs d) (h' : b.MaximalChain p c ws e) :
    vs = ws ∧ d = e :=
  (matches_zeroOrMore.2 h).unique (matches_zeroOrMore.2 h')

theorem MaximalChain.map (f : α → β) (h : b.MaximalChain p c vs d) :
    b.MaximalChain (.map f p) c (vs.map f) d := by
  obtain ⟨hchain, hstops⟩ := h
  refine ⟨?_, fails_map.2 hstops⟩
  clear hstops
  induction hchain with
  | nil c => exact .nil c
  | cons first _ ih => exact .cons (matches_map.2 ⟨_, first, rfl⟩) ih

/-- A parser of single tokens that pass a test. -/
def Tests (b : Behaviour ρ) (p : Parser ρ String) (test : Token → Bool) : Prop :=
  ∀ c, ∃ n, p.matchAt n (b.calls n) c = .ofOption (c.token? test)

/-- Over single tokens the maximal chain goes as far as the tokens do that pass. -/
theorem Tests.maximalChain {p : Parser ρ String} {test : Token → Bool} (hp : b.Tests p test)
    (c : Cursor) : b.MaximalChain p c ((c.rest.takeWhile test).map Token.lexeme)
      ⟨c.position + (c.rest.takeWhile test).length, c.rest.dropWhile test⟩ := by
  obtain ⟨i, ts⟩ := c
  induction ts generalizing i with
  | nil => exact ⟨.nil _, hp ⟨i, []⟩⟩
  | cons t ts ih =>
    have ht := hp ⟨i, t :: ts⟩
    cases htest : test t with
    | false =>
      simp only [Cursor.token?, htest] at ht
      simpa [htest] using ⟨.nil _, ht⟩
    | true =>
      simp only [Cursor.token?, htest] at ht
      obtain ⟨hchain, hstops⟩ := ih (i + 1)
      simp only [List.takeWhile_cons, htest, if_true, List.map_cons, List.length_cons,
        List.dropWhile_cons]
      rw [Nat.add_comm _ 1, ← Nat.add_assoc]
      exact ⟨.cons ht hchain, hstops⟩

theorem Tests.zeroOrMore {p : Parser ρ String} {test : Token → Bool} (hp : b.Tests p test)
    (ts : List Token) (i : Nat) :
    let run := (ts.drop i).takeWhile test
    b.Matches p.zeroOrMore (.ofTokens ts i) (run.map Token.lexeme)
      (.ofTokens ts (i + run.length)) := by
  intro run
  have hdrop : ts.drop (i + run.length) = (ts.drop i).dropWhile test := by
    calc ts.drop (i + run.length) = (ts.drop i).drop run.length := List.drop_drop.symm
      _ = (run ++ (ts.drop i).dropWhile test).drop run.length := by
        rw [List.takeWhile_append_dropWhile]
      _ = (ts.drop i).dropWhile test := List.drop_left
  rw [matches_zeroOrMore, Cursor.ofTokens, Cursor.ofTokens, hdrop]
  exact hp.maximalChain ⟨i, ts.drop i⟩

/-- `zeroOrMore` never fails, and it yields what a maximal chain of matches yields, of which there is
at most one; begun again where it stopped, it yields nothing there. Over single tokens, known by their
kind or by their kind and text, it goes as far as the tokens do that pass. -/
theorem zeroOrMore_follows_maximal_chain (b : Behaviour ρ) (p : Parser ρ α) (c : Cursor) :
    (¬ b.Fails (zeroOrMore p) c) ∧
      (∀ vs d, b.Matches (zeroOrMore p) c vs d ↔ b.MaximalChain p c vs d) ∧
      (∀ vs d ws e, b.MaximalChain p c vs d → b.MaximalChain p c ws e → vs = ws ∧ d = e) ∧
      (∀ vs d, b.Matches (zeroOrMore p) c vs d → b.Matches (zeroOrMore p) d [] d) ∧
      (∀ kind ts i, let run := (ts.drop i).takeWhile fun t : Token => t.kind == kind
        b.Matches (zeroOrMore (tag kind)) (.ofTokens ts i) (run.map Token.lexeme)
          (.ofTokens ts (i + run.length))) ∧
      ∀ lexeme kind ts i,
        let run := (ts.drop i).takeWhile fun t : Token => t.kind == kind && t.lexeme == lexeme
        b.Matches (zeroOrMore (reserved lexeme kind)) (.ofTokens ts i) (run.map Token.lexeme)
          (.ofTokens ts (i + run.length)) := by
  refine ⟨zeroOrMore_not_fails, fun vs d => matches_zeroOrMore,
    fun vs d ws e => MaximalChain.unique, ?_, ?_, ?_⟩
  · intro vs d h
    exact matches_zeroOrMore.2 ⟨.nil d, (matches_zeroOrMore.1 h).stops⟩
  · exact fun kind ts i => Tests.zeroOrMore (fun c => ⟨0, rfl⟩) ts i
  · exact fun lexeme kind ts i => Tests.zeroOrMore (fun c => ⟨0, rfl⟩) ts i

/-- Names are taken in the first two places only, also where a third one follows. -/
theorem two_names_taken :
    let b : Behaviour NamedRule := .ofFunctions fun
      | _, .named _, c => if c.position < 2
          then (c.token? fun t => t.kind == .identifier).map fun v => (.text v.1, v.2) else none
    let p : Parser NamedRule Value := .call (.named "name")
    let ts : List Token := [⟨.identifier, "x", {}⟩, ⟨.identifier, "y", {}⟩, ⟨.identifier, "z", {}⟩]
    b.MaximalChain p (.ofTokens ts 0) [.text "x", .text "y"] (.ofTokens ts 2) ∧
      (∀ vs d, b.MaximalChain p (.ofTokens ts 0) vs d → vs.length = 2 ∧ d.position = 2) ∧
      b.Matches (zeroOrMore p) (.ofTokens ts 2) [] (.ofTokens ts 2) := by
  intro b p ts
  have h : b.Matches (zeroOrMore p) (.ofTokens ts 0) [.text "x", .text "y"] (.ofTokens ts 2) :=
    ⟨3, rfl⟩
  obtain ⟨-, hchain, hunique, hagain, -⟩ := zeroOrMore_follows_maximal_chain b p (.ofTokens ts 0)
  have hmax := (hchain _ _).1 h
  refine ⟨hmax, fun vs d hvs => ?_, hagain _ _ h⟩
  obtain ⟨rfl, rfl⟩ := hunique _ _ _ _ hmax hvs
  exact ⟨rfl, rfl⟩

/-! The repetitions by composition. -/

/-- Items read behind a first one are those read from there, with the first one in front. -/
theorem items_behind_first (item : Cursor → Outcome α) (n : Nat) (v : α) (c : Cursor) :
    (iterate (fun vs d => (item d).map (· :: vs)) n [v] c).map List.reverse =
      (iterate (fun vs d => (item d).map (· :: vs)) n [] c).map fun vs => v :: vs.reverse := by
  have hfirst : iterate (fun vs d => (item d).map (· :: vs)) n [v] c =
      (iterate (fun vs d => (item d).map (· :: vs)) n [] c).map (· ++ [v]) := by
    refine iterate_map (· ++ [v]) (fun vs d => ?_) n [] c
    simp only [map_map, List.cons_append]
  rw [hfirst, map_map]
  simp only [List.reverse_append, List.reverse_singleton, List.singleton_append]

theorem sameAt_oneOrMore (p : Parser ρ α) :
    b.SameAt c (oneOrMore p) (map (fun v => v.1 :: v.2) (pair p (zeroOrMore p))) := by
  refine sameAt_of_eq fun n => ?_
  simp only [matchAt, map_bind, map_map, items_behind_first]

theorem sameAt_sepBy (p : Parser ρ α) (s : Parser ρ β) :
    b.SameAt c (sepBy p s) (map (fun v => v.1 :: v.2) (pair p (zeroOrMore (right s p)))) := by
  refine sameAt_of_eq fun n => ?_
  simp only [matchAt, right, map_bind, map_map]
  congr 1
  funext v d
  simpa only [map_bind, map_map] using items_behind_first
    (fun e => (s.matchAt n (b.calls n) e).bind fun _ e => p.matchAt n (b.calls n) e) n v d

theorem sameAt_fold (p : Parser ρ α) (s : Parser ρ (α → α → α)) :
    b.SameAt c (fold p s)
      (map (fun v => v.2.foldl (fun acc w => w.1 acc w.2) v.1) (pair p (zeroOrMore (pair s p)))) := by
  refine sameAt_of_eq fun n => ?_
  simp only [matchAt, map_bind, map_map, List.foldl_reverse]
  congr 1
  funext v d
  -- the value so far is made of the operators and operands so far, the last of them in front
  refine iterate_map (fun ws : List ((α → α → α) × α) => ws.foldr (fun w acc => w.1 acc w.2) v)
    (fun ws e => ?_) n [] d
  simp only [map_bind, map_map, List.foldr_cons]

theorem sameAt_maybe (p : Parser ρ α) :
    b.SameAt c (maybe p) (either (map some p) (map (fun _ => none) epsilon)) :=
  sameAt_of_eq fun _ => rfl

theorem matches_oneOrMore : b.Matches (oneOrMore p) c vs d ↔
    ∃ v e ws, b.Matches p c v e ∧ b.MaximalChain p e ws d ∧ v :: ws = vs := by
  rw [(sameAt_oneOrMore p).matches_iff, matches_map]
  simp only [matches_pair, matches_zeroOrMore]
  constructor
  · rintro ⟨⟨v, ws⟩, ⟨e, hv, hws⟩, rfl⟩
    exact ⟨v, e, ws, hv, hws, rfl⟩
  · rintro ⟨v, e, ws, hv, hws, rfl⟩
    exact ⟨(v, ws), ⟨e, hv, hws⟩, rfl⟩

theorem fails_oneOrMore : b.Fails (oneOrMore p) c ↔ b.Fails p c := by
  rw [(sameAt_oneOrMore p).fails_iff, fails_map, fails_pair]
  simp [zeroOrMore_not_fails]

theorem fails_sepBy {s : Parser ρ β} : b.Fails (sepBy p s) c ↔ b.Fails p c := by
  rw [(sameAt_sepBy p s).fails_iff, fails_map, fails_pair]
  simp [zeroOrMore_not_fails]

theorem fails_fold {s : Parser ρ (α → α → α)} : b.Fails (fold p s) c ↔ b.Fails p c := by
  rw [(sameAt_fold p s).fails_iff, fails_map, fails_pair]
  simp [zeroOrMore_not_fails]

/-- A maximal chain is empty where the parser fails, and else has a first match and goes on from it. -/
theorem maximalChain_iff : b.MaximalChain p c vs d ↔
    (∃ v e ws, b.Matches p c v e ∧ b.MaximalChain p e ws d ∧ v :: ws = vs) ∨
      b.Fails p c ∧ vs = [] ∧ d = c := by
  constructor
  · rintro ⟨hchain, hstops⟩
    cases hchain with
    | nil => exact Or.inr ⟨hstops, rfl, rfl⟩
    | cons first rest => exact Or.inl ⟨_, _, _, first, ⟨rest, hstops⟩, rfl⟩
  · rintro (⟨v, e, ws, hv, ⟨hchain, hstops⟩, rfl⟩ | ⟨hp, rfl, rfl⟩)
    · exact ⟨.cons hv hchain, hstops⟩
    · exact ⟨.nil d, hp⟩

theorem sameAt_zeroOrMore (p : Parser ρ α) :
    b.SameAt c (zeroOrMore p) (map (fun vs => vs.getD []) (maybe (oneOrMore p))) := by
  refine ⟨fun vs d => ?_, ?_⟩
  · rw [matches_zeroOrMore, maximalChain_iff, ← matches_oneOrMore, ← fails_oneOrMore, matches_map]
    simp only [matches_maybe]
    constructor
    · rintro (hvs | ⟨hp, rfl, rfl⟩)
      · exact ⟨some vs, Or.inl ⟨vs, hvs, rfl⟩, rfl⟩
      · exact ⟨none, Or.inr ⟨hp, rfl, rfl⟩, rfl⟩
    · rintro ⟨_, ⟨ws, hws, rfl⟩ | ⟨hp, rfl, rfl⟩, rfl⟩
      · exact Or.inl hws
      · exact Or.inr ⟨hp, rfl, rfl⟩
  · simp only [fails_map, zeroOrMore_not_fails, maybe_not_fails]

/-- Behind the items that `sepBy` reads, no separator with an item follows. -/
theorem Matches.sepBy_stops {s : Parser ρ β} (h : b.Matches (sepBy p s) c vs d) :
    b.Fails (pair s p) d := by
  rw [(sameAt_sepBy p s).matches_iff, matches_map] at h
  obtain ⟨v, hv, -⟩ := h
  obtain ⟨e, -, hws⟩ := matches_pair.1 hv
  exact fails_map.1 (matches_zeroOrMore.1 hws).stops

theorem Matches.fold_stops {s : Parser ρ (α → α → α)} (h : b.Matches (fold p s) c v d) :
    b.Fails (pair s p) d := by
  rw [(sameAt_fold p s).matches_iff, matches_map] at h
  obtain ⟨w, hw, -⟩ := h
  obtain ⟨e, -, hws⟩ := matches_pair.1 hw
  exact (matches_zeroOrMore.1 hws).stops

/-- Each repetition does what a composition does, with the same value up to the same place. One or
more are one and then any number; items with separators, and a fold, are a first one and then any
number of separators each with its item, whose values are listed or joined from the left. Any number
are one or more, if there are, and an optional part is a choice between it and nothing. So neither
`sepBy` nor `fold` goes past a separator that has no item behind it. -/
theorem repetitions_by_composition (b : Behaviour ρ) (c : Cursor) :
    (∀ p : Parser ρ α,
        b.SameAt c (oneOrMore p) (map (fun v => v.1 :: v.2) (pair p (zeroOrMore p)))) ∧
      (∀ (p : Parser ρ α) (s : Parser ρ β),
        b.SameAt c (sepBy p s) (map (fun v => v.1 :: v.2) (pair p (zeroOrMore (right s p))))) ∧
      (∀ (p : Parser ρ α) (s : Parser ρ (α → α → α)), b.SameAt c (fold p s)
        (map (fun v => v.2.foldl (fun acc w => w.1 acc w.2) v.1) (pair p (zeroOrMore (pair s p))))) ∧
      (∀ p : Parser ρ α,
        b.SameAt c (zeroOrMore p) (map (fun vs => vs.getD []) (maybe (oneOrMore p)))) ∧
      (∀ p : Parser ρ α,
        b.SameAt c (maybe p) (either (map some p) (map (fun _ => none) epsilon))) ∧
      (∀ (p : Parser ρ α) (s : Parser ρ β) vs d,
        b.Matches (sepBy p s) c vs d → b.Fails (pair s p) d) ∧
      ∀ (p : Parser ρ α) (s : Parser ρ (α → α → α)) v d,
        b.Matches (fold p s) c v d → b.Fails (pair s p) d :=
  ⟨sameAt_oneOrMore, sameAt_sepBy, sameAt_fold, sameAt_zeroOrMore, sameAt_maybe,
    fun _ _ _ _ => Matches.sepBy_stops, fun _ _ _ _ => Matches.fold_stops⟩

/-- Of the names in `x - y -` two are read, and the last minus is left. -/
theorem last_minus_left :
    let ts : List Token := [⟨.identifier, "x", {}⟩, ⟨.reserved, "-", {}⟩, ⟨.identifier, "y", {}⟩,
      ⟨.reserved, "-", {}⟩]
    let b := Behaviour.ofRules Grammar.rules
    let c := Cursor.ofTokens ts 0
    let d := Cursor.ofTokens ts 3
    let p : Parser Nonterminal Arith := Grammar.arithmeticTerm
    let s : Parser Nonterminal (Arith → Arith → Arith) := .map .operation (Grammar.keyword "-")
    b.Matches (sepBy p s) c [.var "x", .var "y"] d ∧
      b.Matches (map (fun v => v.1 :: v.2) (pair p (zeroOrMore (right s p)))) c
        [.var "x", .var "y"] d ∧
      b.Matches (fold p s) c (.operation "-" (.var "x") (.var "y")) d ∧
      b.Matches s d (.operation "-") (.ofTokens ts 4) ∧ b.Fails (pair s p) d := by
  intro ts b c d p s
  have hlist : b.Matches (sepBy p s) c [.var "x", .var "y"] d := ⟨3, rfl⟩
  have hfold : b.Matches (fold p s) c (.operation "-" (.var "x") (.var "y")) d := ⟨3, rfl⟩
  obtain ⟨-, hsepBy, -, -, -, -, hstops⟩ :=
    repetitions_by_composition (α := Arith) (β := Arith → Arith → Arith) b c
  exact ⟨hlist, ((hsepBy p s).matches_iff _ d).1 hlist, hfold, ⟨0, rfl⟩, hstops p s _ d hfold⟩

end Behaviour
end ImpLang
