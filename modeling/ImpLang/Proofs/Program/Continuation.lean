import ImpLang.Proofs.Grammar.Balance
import ImpLang.Proofs.Grammar.Recognition
import ImpLang.Proofs.Scanner.Feeds

/-! Asking for more. The scanner counts on its own what is open, and the grammar closes on its own
what it opens; both agree. In front of the end of a program the scanner asks for more exactly if
something stands open there, and behind a whole program it does not ask. -/

namespace ImpLang

namespace Delimiter

variable {d : Delimiter} {us ws : List Token} {t : Token}

/-- Something is opened that is not closed any more: behind it, no more is closed than is opened
there. -/
def Unclosed (d : Delimiter) (ts : List Token) : Prop :=
  ∃ us t ws, ts = us ++ t :: ws ∧ t.isOneOf d.opening = true ∧ ∀ xs, xs <+: ws → 0 ≤ d.depth xs

theorem depth_singleton_le (d : Delimiter) (t : Token) : d.depth [t] ≤ 1 := by
  simp only [depth, List.countP_singleton]
  split <;> split <;> omega

theorem isOneOf_of_depth_pos (h : 0 < d.depth [t]) : t.isOneOf d.opening = true := by
  rw [← Bool.not_eq_false]
  intro hn
  simp only [depth, List.countP_singleton, hn, Bool.false_eq_true, if_false] at h
  omega

theorem depth_opening (h : t.isOneOf d.opening = true) : d.depth [t] = 1 := by
  obtain ⟨w, hw, ht⟩ := Token.isOneOf_iff.1 h
  rw [depth_word ht, weight, if_pos hw]

/-- Where the depth is positive something is unclosed: what begins the shortest end of the tokens
in which the depth is positive. -/
theorem unclosed_of_suffix (h : ∃ ws, ws <:+ us ∧ 0 < d.depth ws) : d.Unclosed us := by
  induction us with
  | nil =>
    obtain ⟨ws, hw, hd⟩ := h
    rw [List.suffix_nil.1 hw, depth_nil] at hd
    cases hd
  | cons t us ih =>
    by_cases hshorter : ∃ ws, ws <:+ us ∧ 0 < d.depth ws
    · obtain ⟨xs, u, ys, rfl, hu, hys⟩ := ih hshorter
      exact ⟨t :: xs, u, ys, rfl, hu, hys⟩
    · have hends (ws : List Token) (hw : ws <:+ us) : d.depth ws ≤ 0 :=
        Int.not_lt.1 fun hd => hshorter ⟨ws, hw, hd⟩
      have hwhole : 0 < d.depth [t] + d.depth us := by
        obtain ⟨ws, hw, hd⟩ := h
        rcases List.suffix_cons_iff.1 hw with rfl | hw
        · rwa [depth_cons] at hd
        · exact absurd ⟨ws, hw, hd⟩ hshorter
      have hus := hends us (List.suffix_refl us)
      have ht := depth_singleton_le d t
      refine ⟨[], t, us, rfl, isOneOf_of_depth_pos (by omega), ?_⟩
      rintro xs ⟨ys, rfl⟩
      have hys := hends ys (List.suffix_append xs ys)
      rw [depth_append] at hwhole
      omega

/-- Where never more is closed than is open, the depth tells whether something is unclosed. -/
theorem unclosed_iff (h : ∀ xs, xs <+: us → 0 ≤ d.depth xs) : d.Unclosed us ↔ 0 < d.depth us := by
  constructor
  · rintro ⟨xs, t, ys, rfl, ht, hys⟩
    have hxs := h xs (List.prefix_append xs _)
    have hdepth := hys ys (List.prefix_refl ys)
    rw [depth_append, depth_cons, depth_opening ht]
    omega
  · intro hd
    exact unclosed_of_suffix ⟨us, List.suffix_refl us, hd⟩

end Delimiter

namespace Scanner

variable {s s' : Scanner} {status : FeedStatus} {text : String}

def level (s : Scanner) : Delimiter → Int
  | .parenthesis => s.parenLevel
  | .block => s.blockLevel

theorem Levelled.level_eq (h : s.Levelled) (d : Delimiter) :
    s.level d = d.depth s.tokens.toList := by
  have hword (w : String) : Token.isOneOf [w] = Token.isReserved w := by
    funext t
    simp [Token.isOneOf]
  cases d with
  | parenthesis =>
    rw [level, h.parens, Delimiter.depth, Delimiter.opening, Delimiter.closing, hword, hword]
  | block =>
    rw [level, h.blocks, Delimiter.depth, Delimiter.closing, hword]
    rfl

theorem levels_open_iff : (0 < s.parenLevel ∨ 0 < s.blockLevel) ↔ ∃ d, 0 < s.level d := by
  constructor
  · rintro (h | h)
    · exact ⟨.parenthesis, h⟩
    · exact ⟨.block, h⟩
  · rintro ⟨_ | _, h⟩
    · exact Or.inl h
    · exact Or.inr h

/-- A feed that does not fail asks for more if the tokens leave something open. -/
theorem Levelled.status_eq (h : s.Levelled) (hf : s.feed text = (s', status))
    (hok : ∀ e, status ≠ .failed e) :
    (status = .continuationNeeded ↔ ∃ d : Delimiter, 0 < d.depth s'.tokens.toList) ∧
      (status = .complete ↔ ¬ ∃ d : Delimiter, 0 < d.depth s'.tokens.toList) := by
  rcases feed_cases hf with ⟨e, -, rfl⟩ | ⟨hscan, rfl⟩
  · exact absurd rfl (hok e)
  · have hs' := h.scan hscan
    have hopen : (0 < s'.parenLevel ∨ 0 < s'.blockLevel) ↔
        ∃ d : Delimiter, 0 < d.depth s'.tokens.toList := by
      simp only [levels_open_iff, hs'.level_eq]
    rw [← hopen]
    by_cases ho : 0 < s'.parenLevel ∨ 0 < s'.blockLevel <;> simp [ho]

end Scanner

/-- The scanner holds levels that count its tokens, however it was fed; programs are balanced in
the same counts. So a feed that leaves a program is complete, and one that leaves the beginning of a
program asks for more exactly if something is unclosed in it. -/
theorem continuation_agrees_with_grammar :
    (∀ texts, ∀ d : Delimiter, (({} : Scanner).feedAll texts).level d =
        d.depth (({} : Scanner).feedAll texts).tokens.toList) ∧
      (∀ ts p, parse? ts = some p → ∀ d : Delimiter,
        (∀ us, us <+: ts → 0 ≤ d.depth us) ∧ d.depth ts = 0) ∧
      ∀ texts text s status, (({} : Scanner).feedAll texts).feed text = (s, status) →
        (∀ e, status ≠ .failed e) →
          (∀ p, parse? s.tokens.toList = some p → status = .complete) ∧
          ∀ ts p, parse? ts = some p → s.tokens.toList <+: ts →
            (status = .continuationNeeded ↔ ∃ d : Delimiter, d.Unclosed s.tokens.toList) := by
  have hlevelled (texts : List String) : (({} : Scanner).feedAll texts).Levelled :=
    Scanner.levelled_empty.feedAll texts
  have hbalanced {ts : List Token} {p : Statement} (h : parse? ts = some p) (d : Delimiter) :
      Balanced d ts := (parse?_eq_some.1 h).balanced d
  refine ⟨fun texts => (hlevelled texts).level_eq,
    fun ts p h d => ⟨(hbalanced h d).within, (hbalanced h d).whole⟩,
    fun texts text s status hf hok => ?_⟩
  obtain ⟨hmore, hcomplete⟩ := (hlevelled texts).status_eq hf hok
  constructor
  · intro p hp
    rw [hcomplete]
    rintro ⟨d, hd⟩
    rw [(hbalanced hp d).whole] at hd
    cases hd
  · intro ts p hp hprefix
    rw [hmore]
    refine exists_congr fun d => (Delimiter.unclosed_iff fun xs hx => ?_).symm
    exact (hbalanced hp d).within xs (hx.trans hprefix)

/-- What a failing feed opens, later feeds close. -/
theorem loop_fed_in_parts :
    ((({} : Scanner).feedAll ["while x < (1 $"]).feed ") do y := 1").2 = .continuationNeeded ∧
      ((({} : Scanner).feedAll ["while x < (1 $", ") do y := 1"]).feed "end").2 = .complete := by
  obtain ⟨-, -, hfeeds⟩ := continuation_agrees_with_grammar
  have hok {status : FeedStatus} (h : status ∈ [.complete, .continuationNeeded]) :
      ∀ e, status ≠ .failed e := by
    rintro e rfl
    simp at h
  have hloop : parse? ((({} : Scanner).feedAll
      ["while x < (1 $", ") do y := 1"]).feed "end").1.tokens.toList =
        some (.whileDo (.relation "<" (.var "x") (.int 1)) (.assign "y" (.int 1))) := by
    decide +kernel
  constructor
  · have hopen := (hfeeds ["while x < (1 $"] ") do y := 1" _ _ rfl (hok (by decide +kernel))).2 _ _
      hloop (by decide +kernel)
    refine hopen.2 ⟨.block, Delimiter.unclosed_of_suffix ⟨_, List.suffix_refl _, ?_⟩⟩
    decide +kernel
  · refine (hfeeds ["while x < (1 $", ") do y := 1"] "end" _ _ rfl (hok ?_)).1 _ hloop
    decide +kernel

end ImpLang
