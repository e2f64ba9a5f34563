import ImpLang.Proofs.Parser.Lookahead
import ImpLang.Proofs.Parser.Termination
import Mathlib.Data.List.Chain

/-! How runs nest in one another. A run enters the parts of its parser, each at the cursor where
its turn comes, and a call enters a rule. Every run entered stands no further back; between two
calls the parsers become smaller, and behind a call, when the rules are guarded, no further call
comes before a token has been read. So the number of tokens left bounds how deep runs nest, and
with it every run ends. -/

open Relation (ReflTransGen)

namespace ImpLang
namespace Parser

open Outcome

variable {ρ : Type → Type} {α β : Type}

/-- The parser matches at one cursor and stops at the other. -/
def Leads (rules : Rules ρ) (p : Parser ρ α) (c d : Cursor) : Prop := ∃ v, Matches rules p c v d

/-- A round of a repetition with separators: a separator, and an item. -/
def Joins (rules : Rules ρ) (p : Parser ρ α) (q : Parser ρ β) (c d : Cursor) : Prop :=
  ∃ b, Leads rules q c b ∧ Leads rules p b d

/-- A first item, and rounds. -/
def Lists (rules : Rules ρ) (p : Parser ρ α) (q : Parser ρ β) (c d : Cursor) : Prop :=
  ∃ b, Leads rules p c b ∧ ReflTransGen (Joins rules p q) b d

/-- A run of a parser at a cursor. -/
structure Activation (ρ : Type → Type) where
  {value : Type}
  parser : Parser ρ value
  cursor : Cursor

/-- The runs that a run enters on its way. -/
inductive Enters (rules : Rules ρ) : Activation ρ → Activation ρ → Prop where
  | first {α β : Type} {p : Parser ρ α} {q : Parser ρ β} {c : Cursor} :
      Enters rules ⟨pair p q, c⟩ ⟨p, c⟩
  | second {α β : Type} {p : Parser ρ α} {q : Parser ρ β} {c d : Cursor}
      (h : Leads rules p c d) : Enters rules ⟨pair p q, c⟩ ⟨q, d⟩
  | choice {α : Type} {p q : Parser ρ α} {c : Cursor} : Enters rules ⟨either p q, c⟩ ⟨p, c⟩
  | alternative {α : Type} {p q : Parser ρ α} {c : Cursor} (h : Fails rules p c) :
      Enters rules ⟨either p q, c⟩ ⟨q, c⟩
  | map {α β : Type} {f : α → β} {p : Parser ρ α} {c : Cursor} : Enters rules ⟨map f p, c⟩ ⟨p, c⟩
  | tryMap {α β : Type} {f : α → Option β} {p : Parser ρ α} {c : Cursor} :
      Enters rules ⟨tryMap f p, c⟩ ⟨p, c⟩
  | filter {α : Type} {f : α → Bool} {p : Parser ρ α} {c : Cursor} :
      Enters rules ⟨filter f p, c⟩ ⟨p, c⟩
  | maybe {α : Type} {p : Parser ρ α} {c : Cursor} : Enters rules ⟨maybe p, c⟩ ⟨p, c⟩
  | zeroOrMore {α : Type} {p : Parser ρ α} {c d : Cursor} (h : ReflTransGen (Leads rules p) c d) :
      Enters rules ⟨zeroOrMore p, c⟩ ⟨p, d⟩
  | oneOrMore {α : Type} {p : Parser ρ α} {c d : Cursor} (h : ReflTransGen (Leads rules p) c d) :
      Enters rules ⟨oneOrMore p, c⟩ ⟨p, d⟩
  | sepByFirst {α β : Type} {p : Parser ρ α} {q : Parser ρ β} {c : Cursor} :
      Enters rules ⟨sepBy p q, c⟩ ⟨p, c⟩
  | separator {α β : Type} {p : Parser ρ α} {q : Parser ρ β} {c d : Cursor}
      (h : Lists rules p q c d) : Enters rules ⟨sepBy p q, c⟩ ⟨q, d⟩
  | item {α β : Type} {p : Parser ρ α} {q : Parser ρ β} {c d e : Cursor}
      (h : Lists rules p q c d) (h' : Leads rules q d e) : Enters rules ⟨sepBy p q, c⟩ ⟨p, e⟩
  | foldFirst {α : Type} {p : Parser ρ α} {q : Parser ρ (α → α → α)} {c : Cursor} :
      Enters rules ⟨fold p q, c⟩ ⟨p, c⟩
  | operator {α : Type} {p : Parser ρ α} {q : Parser ρ (α → α → α)} {c d : Cursor}
      (h : Lists rules p q c d) : Enters rules ⟨fold p q, c⟩ ⟨q, d⟩
  | operand {α : Type} {p : Parser ρ α} {q : Parser ρ (α → α → α)} {c d e : Cursor}
      (h : Lists rules p q c d) (h' : Leads rules q d e) : Enters rules ⟨fold p q, c⟩ ⟨p, e⟩
  | phrase {α : Type} {p : Parser ρ α} {c : Cursor} : Enters rules ⟨phrase p, c⟩ ⟨p, c⟩
  | delay {α : Type} {p : Parser ρ α} {c : Cursor} : Enters rules ⟨delay p, c⟩ ⟨p, c⟩
  | call {α : Type} {r : ρ α} {c : Cursor} : Enters rules ⟨call r, c⟩ ⟨rules α r, c⟩

def isCall : Parser ρ α → Bool
  | call _ => true
  | _ => false

/-- How deep the parser's parts are nested. -/
def height {α : Type} : Parser ρ α → Nat
  | reserved _ _ | tag _ | epsilon | failure | call _ => 0
  | pair p q => max p.height q.height + 1
  | either p q => max p.height q.height + 1
  | map _ p => p.height + 1
  | tryMap _ p => p.height + 1
  | filter _ p => p.height + 1
  | maybe p => p.height + 1
  | zeroOrMore p => p.height + 1
  | oneOrMore p => p.height + 1
  | sepBy p q => max p.height q.height + 1
  | fold p q => max p.height q.height + 1
  | phrase p => p.height + 1
  | delay p => p.height + 1

variable {rules : Rules ρ} {p : Parser ρ α} {q : Parser ρ β} {b c d : Cursor}

/-! No run stands further back than the one it was entered from. -/

theorem Leads.past (h : Leads rules p c d) : ∃ us, c.Past us d := h.elim fun _ h => h.past

theorem exists_past_trans (h : ∃ us, b.Past us c) (h' : ∃ us, c.Past us d) : ∃ us, b.Past us d := by
  obtain ⟨us, hu⟩ := h
  obtain ⟨ws, hw⟩ := h'
  exact ⟨us ++ ws, hu.trans hw⟩

theorem exists_past_of_rounds {R : Cursor → Cursor → Prop}
    (hR : ∀ c d, R c d → ∃ us, c.Past us d) (h : ReflTransGen R c d) : ∃ us, c.Past us d := by
  induction h with
  | refl => exact ⟨[], .refl c⟩
  | tail _ hr ih => exact exists_past_trans ih (hR _ _ hr)

theorem Joins.past (h : Joins rules p q c d) : ∃ us, c.Past us d := by
  obtain ⟨b, hq, hp⟩ := h
  exact exists_past_trans hq.past hp.past

theorem Lists.past (h : Lists rules p q c d) : ∃ us, c.Past us d := by
  obtain ⟨b, hp, hr⟩ := h
  exact exists_past_trans hp.past (exists_past_of_rounds (fun _ _ => Joins.past) hr)

theorem Enters.past {a b : Activation ρ} (h : Enters rules a b) :
    ∃ us, a.cursor.Past us b.cursor := by
  cases h with
  | second h => exact h.past
  | zeroOrMore h | oneOrMore h => exact exists_past_of_rounds (fun _ _ => Leads.past) h
  | separator h | operator h => exact h.past
  | item h h' | operand h h' => exact exists_past_trans h.past h'.past
  | _ => exact ⟨[], .refl _⟩

theorem Enters.height_lt {a b : Activation ρ} (h : Enters rules a b)
    (ha : a.parser.isCall = false) : b.parser.height < a.parser.height := by
  cases h with
  | call => cases ha
  | _ =>
    simp only [height]
    omega

theorem Matches.length_lt (hw : WellFormed rules) (hp : p.advances = true) {v : α}
    (h : Matches rules p c v d) : d.rest.length < c.rest.length := by
  obtain ⟨n, h⟩ := h
  exact length_lt_of_matchAt (hw.moveOn n) hp h

theorem Lists.length_lt (hw : WellFormed rules) (hp : p.advances = true)
    (h : Lists rules p q c d) : d.rest.length < c.rest.length := by
  obtain ⟨b, ⟨v, hv⟩, hr⟩ := h
  obtain ⟨us, hu⟩ := exists_past_of_rounds (fun _ _ => Joins.past) hr
  have := hu.length
  have := hv.length_lt hw hp
  omega

theorem Joins.length_lt (hw : WellFormed rules) (ha : (p.advances || q.advances) = true)
    (h : Joins rules p q c d) : d.rest.length < c.rest.length := by
  obtain ⟨b, ⟨f, hf⟩, v, hv⟩ := h
  obtain ⟨us, hu⟩ := hf.past
  obtain ⟨ws, hs⟩ := hv.past
  have := hu.length
  have := hs.length
  rcases (Bool.or_eq_true _ _).mp ha with ha | ha
  · have := hv.length_lt hw ha
    omega
  · have := hf.length_lt hw ha
    omega

/-- The number of tokens left, and one more where a call may come before a token is read. -/
def Activation.weight (a : Activation ρ) : Nat :=
  a.cursor.rest.length + if a.parser.guarded then 0 else 1

theorem Activation.weight_le_of_lt {a b : Activation ρ}
    (h : b.cursor.rest.length < a.cursor.rest.length) : b.weight ≤ a.weight := by
  unfold weight
  split <;> split <;> omega

theorem Activation.weight_le_of_guarded {a b : Activation ρ}
    (h : b.cursor.rest.length ≤ a.cursor.rest.length)
    (hg : a.parser.guarded = true → b.parser.guarded = true) : b.weight ≤ a.weight := by
  unfold weight
  cases ha : a.parser.guarded with
  | true => simpa [hg ha] using h
  | false =>
    simp only [Bool.false_eq_true, if_false]
    split <;> omega

/-- A part whose turn comes behind another has read a token, unless the other may read nothing. -/
theorem Activation.weight_le_behind {a b : Activation ρ} {advances : Bool}
    (hlt : advances = true → b.cursor.rest.length < a.cursor.rest.length)
    (h : b.cursor.rest.length ≤ a.cursor.rest.length)
    (hg : advances = false → a.parser.guarded = true → b.parser.guarded = true) :
    b.weight ≤ a.weight := by
  cases ha : advances with
  | true => exact weight_le_of_lt (hlt ha)
  | false => exact weight_le_of_guarded h (hg ha)

theorem Enters.weight_le (hw : WellFormed rules) {a b : Activation ρ} (h : Enters rules a b)
    (ha : a.parser.isCall = false) : b.weight ≤ a.weight := by
  have hle : b.cursor.rest.length ≤ a.cursor.rest.length := by
    obtain ⟨us, hu⟩ := h.past
    have := hu.length
    omega
  cases h with
  | call => cases ha
  | second h =>
    obtain ⟨v, h⟩ := h
    exact Activation.weight_le_behind (h.length_lt hw) hle fun hp => by simp [guarded, hp]
  | separator h | operator h =>
    exact Activation.weight_le_behind (h.length_lt hw) hle fun hp => by simp [guarded, hp]
  | _ => exact Activation.weight_le_of_guarded hle (by simp_all [guarded])

/-- A rule is entered with no call ahead before the next token. -/
theorem Enters.weight_lt (hw : WellFormed rules) {a b : Activation ρ} (h : Enters rules a b)
    (ha : a.parser.isCall = true) : b.weight < a.weight := by
  cases h with
  | @call _ r c => simp [Activation.weight, hw.guarded _ r, guarded]
  | _ => cases ha

theorem weight_pos_of_isCall {a : Activation ρ} (ha : a.parser.isCall = true) : 0 < a.weight := by
  obtain ⟨p, c⟩ := a
  cases p with
  | call r => simp [Activation.weight, guarded]
  | _ => cases ha

/-- Runs nested in one another, the outermost first. -/
def Nested (rules : Rules ρ) (stack : List (Activation ρ)) : Prop := stack.IsChain (Enters rules)

variable {a : Activation ρ} {l : List (Activation ρ)}

theorem Nested.cons {b : Activation ρ} (h : Nested rules (a :: b :: l)) :
    Enters rules a b ∧ Nested rules (b :: l) :=
  List.isChain_cons_cons.1 h

/-- Each call takes one off the weight. -/
theorem Nested.calls_le (hw : WellFormed rules) (h : Nested rules (a :: l)) :
    (a :: l).countP (·.parser.isCall) ≤ a.weight := by
  induction l generalizing a with
  | nil =>
    cases ha : a.parser.isCall with
    | false => simp [ha]
    | true => simpa [ha] using Nat.succ_le_of_lt (weight_pos_of_isCall ha)
  | cons b l ih =>
    obtain ⟨hb, hl⟩ := h.cons
    have := ih hl
    rw [List.countP_cons]
    cases ha : a.parser.isCall with
    | false =>
      have := hb.weight_le hw ha
      simp only [Bool.false_eq_true, if_false]
      omega
    | true =>
      have := hb.weight_lt hw ha
      simp only [if_true]
      omega

/-- Between two calls the height falls, and a call raises it to that of a rule at most. -/
theorem Enters.measure_lt (hw : WellFormed rules) {n : Nat}
    (hn : ∀ α (r : ρ α), (rules α r).height < n) {a b : Activation ρ} (h : Enters rules a b) :
    n * b.weight + b.parser.height < n * a.weight + a.parser.height := by
  cases ha : a.parser.isCall with
  | false =>
    have := h.height_lt ha
    have := Nat.mul_le_mul_left n (h.weight_le hw ha)
    omega
  | true =>
    have hb : b.parser.height < n := by
      cases h with
      | @call _ r c => exact hn _ r
      | _ => cases ha
    calc n * b.weight + b.parser.height < n * (b.weight + 1) := by rw [Nat.mul_succ]; omega
      _ ≤ n * a.weight := Nat.mul_le_mul_left n (h.weight_lt hw ha)
      _ ≤ n * a.weight + a.parser.height := Nat.le_add_right _ _

theorem Nested.length_le (hw : WellFormed rules) {n : Nat}
    (hn : ∀ α (r : ρ α), (rules α r).height < n) (h : Nested rules (a :: l)) :
    l.length ≤ n * a.weight + a.parser.height := by
  induction l generalizing a with
  | nil => simp
  | cons b l ih =>
    obtain ⟨hb, hl⟩ := h.cons
    have := ih hl
    have := hb.measure_lt hw hn
    simp only [List.length_cons]
    omega

/-- What every run hands on to those it enters holds of all that are nested in it. -/
theorem Nested.forall_mem {P : Activation ρ → Prop} (hP : ∀ a b, Enters rules a b → P a → P b)
    (h : Nested rules (a :: l)) (ha : P a) : ∀ b ∈ l, P b := by
  induction l generalizing a with
  | nil => simp
  | cons x l ih =>
    obtain ⟨hx, hl⟩ := h.cons
    have hPx := hP a x hx ha
    intro b hb
    rcases List.mem_cons.1 hb with rfl | hb
    · exact hPx
    · exact ih hl hPx b hb

theorem Nested.within (hw : WellFormed rules) (h : Nested rules (a :: l)) {b : Activation ρ}
    (hb : b ∈ l) : b.weight ≤ a.weight ∧ ∃ us, a.cursor.Past us b.cursor := by
  refine h.forall_mem (P := fun b => b.weight ≤ a.weight ∧ ∃ us, a.cursor.Past us b.cursor) ?_
    ⟨Nat.le_refl _, [], .refl _⟩ b hb
  rintro x y hxy ⟨hle, hp⟩
  refine ⟨Nat.le_trans ?_ hle, exists_past_trans hp hxy.past⟩
  cases hx : x.parser.isCall with
  | false => exact hxy.weight_le hw hx
  | true => exact Nat.le_of_lt (hxy.weight_lt hw hx)

/-- Inside a guarded parser, rules are called further on only. -/
theorem Nested.call_later (hw : WellFormed rules) (h : Nested rules (a :: l))
    (ha : a.parser.guarded = true) {b : Activation ρ} (hb : b ∈ l) (hc : b.parser.isCall = true) :
    a.cursor.position < b.cursor.position := by
  obtain ⟨hle, us, hu⟩ := h.within hw hb
  obtain ⟨p, c⟩ := b
  cases p with
  | call r =>
    have := hu.length
    have := hu.position
    simp only [Activation.weight, ha, guarded] at *
    simp at *
    omega
  | _ => cases hc

/-! Every run ends, because the runs it enters do. -/

theorem Enters.repeatsSoundly (hw : WellFormed rules) {a b : Activation ρ} (h : Enters rules a b)
    (ha : a.parser.repeatsSoundly = true) : b.parser.repeatsSoundly = true := by
  cases h with
  | @call _ r c => exact hw.repeatsSoundly _ r
  | _ => simp_all [Parser.repeatsSoundly]

theorem exists_bind_ends {f : Nat → Outcome α} {g : Nat → α → Cursor → Outcome β} (hf : Grows f)
    (hg : ∀ v d, Grows fun n => g n v d) (h : ∃ n, f n ≠ .unfinished)
    (h' : ∀ v d, (∃ n, f n = .matched v d) → ∃ n, g n v d ≠ .unfinished) :
    ∃ n, (f n).bind (g n) ≠ .unfinished := by
  obtain ⟨n, hn⟩ := h
  cases ho : f n with
  | unfinished => exact absurd ho hn
  | failed => exact ⟨n, by simp [ho]⟩
  | matched v d =>
    obtain ⟨m, hm⟩ := h' v d ⟨n, ho⟩
    obtain ⟨k, hk, hk'⟩ := hf.both (hg v d) (by simp) hm ⟨n, ho⟩ ⟨m, rfl⟩
    exact ⟨k, by simpa [hk, hk'] using hm⟩

/-- A repetition ends if its rounds move on and each of them ends. -/
theorem iterate_ends {σ : Type} {step : Nat → σ → Cursor → Outcome σ}
    (hstep : ∀ s c, Grows fun n => step n s c) {R : Cursor → Cursor → Prop}
    (hR : ∀ x y, Round step x y → R x.2 y.2)
    (hlt : ∀ c d, R c d → d.rest.length < c.rest.length) {s : σ} {c : Cursor}
    (hs : ∀ s d, ReflTransGen R c d → ∃ n, step n s d ≠ .unfinished) :
    ∃ n, iterate (step n) n s c ≠ .unfinished := by
  suffices ∀ k s d, ReflTransGen R c d → d.rest.length < k →
      ∃ t e, ReflTransGen (Round step) (s, d) (t, e) ∧ ∃ n, step n t e = .failed by
    obtain ⟨t, e, hr, hf⟩ := this _ s c .refl (Nat.lt_succ_self _)
    obtain ⟨n, hn⟩ := (exists_iterate_matched hstep).2 ⟨hr, hf⟩
    exact ⟨n, by simp [hn]⟩
  intro k
  induction k with
  | zero => intro s d _ h; omega
  | succ k ih =>
    intro s d hd hk
    obtain ⟨n, hn⟩ := hs s d hd
    cases ho : step n s d with
    | unfinished => exact absurd ho hn
    | failed => exact ⟨s, d, .refl, n, ho⟩
    | matched s' d' =>
      have hround : Round step (s, d) (s', d') := ⟨n, ho⟩
      have hm := hR _ _ hround
      have := hlt _ _ hm
      obtain ⟨t, e, hr, hf⟩ := ih s' d' (hd.tail hm) (by simp only at this; omega)
      exact ⟨t, e, hr.head hround, hf⟩

theorem item_ends {c : Cursor} (ht : Terminates rules p c) (vs : List α) :
    ∃ n, ((p.run rules n c).map (· :: vs)) ≠ .unfinished := by
  obtain ⟨n, hn⟩ := ht
  exact ⟨n, map_ne_unfinished _ hn⟩

theorem join_ends {σ : Type} {c : Cursor} (j : σ → β → α → σ) (acc : σ)
    (hq : Terminates rules q c) (hp : ∀ d, Leads rules q c d → Terminates rules p d) :
    ∃ n, ((q.run rules n c).bind fun s d => (p.run rules n d).map (j acc s)) ≠ .unfinished := by
  refine exists_bind_ends (run_grows rules q c) (fun _ d => (run_grows rules p d).map _) hq ?_
  intro s d hs
  obtain ⟨n, hn⟩ := hp d ⟨s, hs⟩
  exact ⟨n, map_ne_unfinished _ hn⟩

theorem items_end (hw : WellFormed rules) (ha : p.advances = true) (vs : List α)
    (h : ∀ d, ReflTransGen (Leads rules p) c d → Terminates rules p d) :
    ∃ n, iterate (fun vs d => (p.run rules n d).map (· :: vs)) n vs c ≠ .unfinished := by
  apply iterate_ends (R := Leads rules p)
  · exact fun vs d => (run_grows rules p d).map _
  · rintro x y ⟨n, hr⟩
    obtain ⟨v, hv, -⟩ := map_eq_matched.1 hr
    exact ⟨v, n, hv⟩
  · exact fun c d ⟨v, hv⟩ => hv.length_lt hw ha
  · exact fun vs d hd => item_ends (h d hd) vs

theorem joins_end {σ : Type} (hw : WellFormed rules) (j : σ → β → α → σ)
    (ha : (p.advances || q.advances) = true) (acc : σ)
    (hq : ∀ d, ReflTransGen (Joins rules p q) c d → Terminates rules q d)
    (hp : ∀ d e, ReflTransGen (Joins rules p q) c d → Leads rules q d e → Terminates rules p e) :
    ∃ n, iterate (fun acc d => (q.run rules n d).bind fun s e => (p.run rules n e).map (j acc s)) n
      acc c ≠ .unfinished := by
  apply iterate_ends (R := Joins rules p q)
  · exact fun acc d => (run_grows rules q d).bind fun _ e => (run_grows rules p e).map _
  · rintro x y ⟨n, hr⟩
    obtain ⟨s, e, hs, hr⟩ := bind_eq_matched.1 hr
    obtain ⟨v, hv, -⟩ := map_eq_matched.1 hr
    exact ⟨e, ⟨s, n, hs⟩, v, n, hv⟩
  · exact fun c d h => h.length_lt hw ha
  · exact fun acc d hd => join_ends j acc (hq d hd) fun e => hp d e hd

/-- A run ends if every run that it enters ends. -/
theorem Activation.terminates (hw : WellFormed rules) {a : Activation ρ}
    (ha : a.parser.repeatsSoundly = true)
    (h : ∀ b, Enters rules a b → Terminates rules b.parser b.cursor) :
    Terminates rules a.parser a.cursor := by
  obtain ⟨p, c⟩ := a
  cases p with
  | reserved | tag =>
    refine ⟨0, ?_⟩
    simp only [run, matchAt]
    cases Cursor.token? c _ <;> simp [ofOption]
  | epsilon | failure => exact ⟨0, by simp [run, matchAt]⟩
  | pair p q =>
    refine exists_bind_ends (run_grows rules p c) (fun _ d => (run_grows rules q d).map _)
      (h ⟨p, c⟩ .first) fun v d hv => ?_
    obtain ⟨n, hn⟩ := h ⟨q, d⟩ (.second ⟨v, hv⟩)
    exact ⟨n, map_ne_unfinished _ hn⟩
  | either p q =>
    obtain ⟨n, hn⟩ := h ⟨p, c⟩ .choice
    cases ho : p.run rules n c with
    | unfinished => exact absurd ho hn
    | matched v d => exact ⟨n, by simp [run_either, ho]⟩
    | failed =>
      obtain ⟨m, hm⟩ := h ⟨q, c⟩ (.alternative ⟨n, ho⟩)
      obtain ⟨k, hk, hk'⟩ := (run_grows rules p c).both (run_grows rules q c) (by simp) hm
        ⟨n, ho⟩ ⟨m, rfl⟩
      exact ⟨k, by simpa [run_either, hk, hk'] using hm⟩
  | map f p =>
    obtain ⟨n, hn⟩ := h ⟨p, c⟩ .map
    exact ⟨n, map_ne_unfinished f hn⟩
  | tryMap f p =>
    obtain ⟨n, hn⟩ := h ⟨p, c⟩ .tryMap
    exact ⟨n, bind_ne_unfinished hn fun v d _ => by cases f v <;> simp⟩
  | filter accepts p =>
    obtain ⟨n, hn⟩ := h ⟨p, c⟩ .filter
    exact ⟨n, bind_ne_unfinished hn fun v d _ => by cases accepts v <;> simp⟩
  | maybe p =>
    obtain ⟨n, hn⟩ := h ⟨p, c⟩ .maybe
    exact ⟨n, orElse_ne_unfinished (map_ne_unfinished _ hn) (by simp)⟩
  | zeroOrMore p =>
    simp only [repeatsSoundly, Bool.and_eq_true] at ha
    obtain ⟨n, hn⟩ := items_end hw ha.1 [] fun d hd => h ⟨p, d⟩ (.zeroOrMore hd)
    exact ⟨n, map_ne_unfinished _ hn⟩
  | oneOrMore p =>
    simp only [repeatsSoundly, Bool.and_eq_true] at ha
    refine exists_bind_ends (run_grows rules p c) (fun v d => (Grows.iterate ?_ [v] d).map _)
      (h ⟨p, c⟩ (.oneOrMore .refl)) fun v d hv => ?_
    · exact fun vs e => (run_grows rules p e).map _
    · obtain ⟨n, hn⟩ := items_end hw ha.1 [v] fun e he =>
        h ⟨p, e⟩ (.oneOrMore (he.head ⟨v, hv⟩))
      exact ⟨n, map_ne_unfinished _ hn⟩
  | sepBy p q =>
    simp only [repeatsSoundly, Bool.and_eq_true] at ha
    refine exists_bind_ends (run_grows rules p c) (fun v d => (Grows.iterate ?_ [v] d).map _)
      (h ⟨p, c⟩ .sepByFirst) fun v d hv => ?_
    · exact fun vs e => (run_grows rules q e).bind fun _ e => (run_grows rules p e).map _
    · obtain ⟨n, hn⟩ := joins_end hw (fun vs _ v => v :: vs) ha.1.1 [v]
        (fun e he => h ⟨q, e⟩ (.separator ⟨d, ⟨v, hv⟩, he⟩))
        (fun e x he hx => h ⟨p, x⟩ (.item ⟨d, ⟨v, hv⟩, he⟩ hx))
      exact ⟨n, map_ne_unfinished _ hn⟩
  | fold p q =>
    simp only [repeatsSoundly, Bool.and_eq_true] at ha
    refine exists_bind_ends (run_grows rules p c) (fun v d => Grows.iterate ?_ v d)
      (h ⟨p, c⟩ .foldFirst) fun v d hv => ?_
    · exact fun acc e => (run_grows rules q e).bind fun _ e => (run_grows rules p e).map _
    · exact joins_end hw (fun acc (f : _ → _ → _) v => f acc v) ha.1.1 v
        (fun e he => h ⟨q, e⟩ (.operator ⟨d, ⟨v, hv⟩, he⟩))
        (fun e x he hx => h ⟨p, x⟩ (.operand ⟨d, ⟨v, hv⟩, he⟩ hx))
  | phrase p =>
    obtain ⟨n, hn⟩ := h ⟨p, c⟩ .phrase
    exact ⟨n, bind_ne_unfinished hn fun v d _ => by cases d.atEnd <;> simp⟩
  | delay p => exact h ⟨p, c⟩ .delay
  | call r =>
    obtain ⟨n, hn⟩ := h ⟨rules _ r, c⟩ .call
    exact ⟨n + 1, hn⟩

/-- With the number of tokens left, the nesting is bounded, and so every run ends. -/
theorem Activation.ends (hw : WellFormed rules) {n : Nat}
    (hn : ∀ α (r : ρ α), (rules α r).height < n) (a : Activation ρ)
    (ha : a.parser.repeatsSoundly = true) : Terminates rules a.parser a.cursor := by
  induction hm : n * a.weight + a.parser.height using Nat.strong_induction_on generalizing a with
  | _ m ih =>
    subst hm
    exact a.terminates hw ha fun b hb =>
      ih _ (hb.measure_lt hw hn) b (hb.repeatsSoundly hw ha) rfl

theorem Nested.ends (hw : WellFormed rules) {n : Nat} (hn : ∀ α (r : ρ α), (rules α r).height < n)
    (h : Nested rules (a :: l)) (ha : a.parser.repeatsSoundly = true) {b : Activation ρ}
    (hb : b ∈ l) : Terminates rules b.parser b.cursor :=
  b.ends hw hn (h.forall_mem (fun _ _ hxy hx => hxy.repeatsSoundly hw hx) ha b hb)

/-! The folds in a parser, and how they move on. -/

structure Fold (ρ : Type → Type) where
  {value : Type}
  operand : Parser ρ value
  operator : Parser ρ (value → value → value)

/-- All folds that the parser is built from. -/
def folds {α : Type} : Parser ρ α → List (Fold ρ)
  | reserved _ _ | tag _ | epsilon | failure | call _ => []
  | pair p q => p.folds ++ q.folds
  | either p q => p.folds ++ q.folds
  | map _ p => p.folds
  | tryMap _ p => p.folds
  | filter _ p => p.folds
  | maybe p => p.folds
  | zeroOrMore p => p.folds
  | oneOrMore p => p.folds
  | sepBy p q => p.folds ++ q.folds
  | fold p q => ⟨p, q⟩ :: (p.folds ++ q.folds)
  | phrase p => p.folds
  | delay p => p.folds

/-- Operand and operator read a token whenever they match, and so does every round. -/
structure Fold.Advances (rules : Rules ρ) (f : Fold ρ) : Prop where
  operand : ∀ c v d, Matches rules f.operand c v d → c.position < d.position
  operator : ∀ c g d, Matches rules f.operator c g d → c.position < d.position
  round : ∀ x y, Round (foldRound rules f.operand f.operator) x y → x.2.position < y.2.position

theorem Matches.position_lt (hw : WellFormed rules) (hp : p.advances = true) {v : α}
    (h : Matches rules p c v d) : c.position < d.position := by
  obtain ⟨us, hu⟩ := h.past
  have := hu.length
  have := hu.position
  have := h.length_lt hw hp
  omega

theorem Fold.advances (hw : WellFormed rules) {f : Fold ρ} (hp : f.operand.advances = true)
    (hq : f.operator.advances = true) : f.Advances rules where
  operand _ _ _ h := h.position_lt hw hp
  operator _ _ _ h := h.position_lt hw hq
  round x y h := by
    obtain ⟨g, d, v, hg, hv, -⟩ := round_foldRound.1 h
    exact Nat.lt_trans (hg.position_lt hw hq) (hv.position_lt hw hp)

end Parser
end ImpLang
