import ImpLang.Proofs.Grammar.Derivation

/-! Parentheses and blocks. Whatever has a derivation is balanced: parentheses and blocks are closed
as often as they are opened, and at no point on the way more often. -/

namespace ImpLang

theorem Token.isOneOf_of_isReserved {t : Token} {w : String} (h : t.isReserved w = true)
    (words : List String) : t.isOneOf words = decide (w ∈ words) := by
  by_cases hw : w ∈ words
  · rw [decide_eq_true hw]
    exact isOneOf_iff.2 ⟨w, hw, h⟩
  · rw [decide_eq_false hw]
    exact isOneOf_eq_false h hw

/-- What can be open: parentheses, and the statements that have a body. -/
inductive Delimiter where
  | parenthesis
  | block

namespace Delimiter

def opening : Delimiter → List String
  | parenthesis => ["("]
  | block => ["if", "while", "repeat"]

def closing : Delimiter → List String
  | parenthesis => [")"]
  | block => ["end"]

/-- How many are open behind the tokens: those that open less those that close. -/
def depth (d : Delimiter) (ts : List Token) : Int :=
  (ts.countP (Token.isOneOf d.opening) : Int) - ts.countP (Token.isOneOf d.closing)

/-- What a reserved word adds to the depth. -/
def weight (d : Delimiter) (w : String) : Int :=
  if w ∈ d.opening then 1 else if w ∈ d.closing then -1 else 0

/-- The words of all delimiters. -/
def words : List String := ["(", ")", "if", "while", "repeat", "end"]

variable {d : Delimiter} {t : Token} {w : String}

theorem weight_eq_zero (h : w ∉ words) : d.weight w = 0 := by
  cases d <;> simp_all [weight, opening, closing, words]

@[simp] theorem depth_nil (d : Delimiter) : d.depth [] = 0 := rfl

@[simp] theorem depth_append (d : Delimiter) (us ws : List Token) :
    d.depth (us ++ ws) = d.depth us + d.depth ws := by
  simp only [depth, List.countP_append]
  omega

theorem depth_cons (d : Delimiter) (t : Token) (ts : List Token) :
    d.depth (t :: ts) = d.depth [t] + d.depth ts :=
  depth_append d [t] ts

theorem not_closing (h : w ∈ d.opening) : w ∉ d.closing := by
  have hd : ∀ w ∈ d.opening, w ∉ d.closing := by cases d <;> decide
  exact hd w h

theorem depth_word (h : t.isReserved w = true) : d.depth [t] = d.weight w := by
  simp only [depth, weight, List.countP_singleton, Token.isOneOf_of_isReserved h, decide_eq_true_eq]
  by_cases ho : w ∈ d.opening
  · simp [ho, not_closing ho]
  · by_cases hc : w ∈ d.closing <;> simp [ho, hc]

/-- Words that delimit nothing leave the depth as it is. -/
theorem depth_other {others : List String} (h : t.isOneOf others = true)
    (ho : ∀ w ∈ others, w ∉ words := by decide) : d.depth [t] = 0 := by
  obtain ⟨w, hw, ht⟩ := Token.isOneOf_iff.1 h
  rw [depth_word ht, weight_eq_zero (ho w hw)]

theorem depth_of_kind (h : t.kind ≠ .reserved) : d.depth [t] = 0 := by
  have hw (words : List String) : t.isOneOf words = false := by
    rw [Bool.eq_false_iff]
    exact fun ht => h (Token.kind_of_isOneOf ht)
  simp [depth, hw]

end Delimiter

/-- Nothing is closed that is not open, and in the end nothing is open. -/
structure Balanced (d : Delimiter) (ts : List Token) : Prop where
  within : ∀ us, us <+: ts → 0 ≤ d.depth us
  whole : d.depth ts = 0

namespace Balanced

variable {d : Delimiter} {us ws : List Token} {l o r t : Token} {a b w : String}
  {others : List String}

theorem single (h : d.depth [t] = 0) : Balanced d [t] := by
  refine ⟨fun us hu => ?_, h⟩
  rcases List.prefix_cons_iff.1 hu with rfl | ⟨xs, rfl, hx⟩
  · simp
  · rw [List.prefix_nil.1 hx]
    exact Int.le_of_eq h.symm

theorem append (hu : Balanced d us) (hw : Balanced d ws) : Balanced d (us ++ ws) := by
  constructor
  · intro xs hx
    rcases List.prefix_or_prefix_of_prefix hx (List.prefix_append us ws) with h | ⟨ys, rfl⟩
    · exact hu.within xs h
    · have := hw.within ys ((List.prefix_append_right_inj us).1 hx)
      rw [d.depth_append, hu.whole]
      omega
  · rw [d.depth_append, hu.whole, hw.whole]
    rfl

/-- Two balanced stretches, with a word between them that delimits nothing. -/
theorem join (hu : Balanced d us) (ho : o.isOneOf others = true) (hw : Balanced d ws)
    (hothers : ∀ w ∈ others, w ∉ Delimiter.words := by decide) : Balanced d (us ++ o :: ws) :=
  hu.append ((single (Delimiter.depth_other ho hothers)).append hw)

theorem joinWord (hu : Balanced d us) (ho : o.isReserved w = true) (hw : Balanced d ws)
    (hothers : ∀ v ∈ [w], v ∉ Delimiter.words := by decide) : Balanced d (us ++ o :: ws) :=
  hu.join (Token.isOneOf_singleton.2 ho) hw hothers

/-- Behind the word that opens, as much more is open as it adds. -/
theorem weight_le_depth (h : Balanced d us) (hl : l.isReserved a = true) {xs : List Token}
    (hx : xs <+: us) : d.weight a ≤ d.depth (l :: xs) := by
  have := h.within xs hx
  rw [d.depth_cons, Delimiter.depth_word hl]
  omega

theorem enclose (h : Balanced d us) (hl : l.isReserved a = true) (hr : r.isReserved b = true)
    (ha : 0 ≤ d.weight a) (hb : d.weight a + d.weight b = 0) : Balanced d (l :: (us ++ [r])) := by
  have hwhole : d.depth (l :: (us ++ [r])) = 0 := by
    rw [d.depth_cons, d.depth_append, h.whole, Delimiter.depth_word hl, Delimiter.depth_word hr]
    omega
  refine ⟨fun xs hx => ?_, hwhole⟩
  rcases List.prefix_cons_iff.1 hx with rfl | ⟨ys, rfl, hy⟩
  · simp
  · rcases List.prefix_concat_iff.1 hy with rfl | hy
    · exact Int.le_of_eq hwhole.symm
    · exact Int.le_trans ha (h.weight_le_depth hl hy)

theorem inParentheses (h : Balanced d us) (hl : l.isReserved "(" = true)
    (hr : r.isReserved ")" = true) : Balanced d (l :: (us ++ [r])) :=
  h.enclose hl hr (by cases d <;> decide) (by cases d <;> decide)

theorem inBlock (h : Balanced d us) (hl : l.isOneOf Delimiter.block.opening = true)
    (hr : r.isReserved "end" = true) : Balanced d (l :: (us ++ [r])) := by
  obtain ⟨w, hw, hl⟩ := Token.isOneOf_iff.1 hl
  have hweight : ∀ w ∈ Delimiter.block.opening,
      0 ≤ d.weight w ∧ d.weight w + d.weight "end" = 0 := by
    cases d <;> decide
  exact h.enclose hl hr (hweight w hw).1 (hweight w hw).2

end Balanced

theorem ArithDerivation.balanced (d : Delimiter) {l : ArithLevel} {us : List Token} {a : Arith}
    (h : ArithDerivation l us a) : Balanced d us := by
  induction h with
  | int kind | var kind => exact .single (Delimiter.depth_of_kind (by rw [kind]; decide))
  | parentheses left _ right ih => exact ih.inParentheses left right
  | ofTerm _ ih | ofProduct _ ih => exact ih
  | times _ operator _ ihl ihr | plus _ operator _ ihl ihr => exact ihl.join operator ihr

theorem ConditionDerivation.balanced (d : Delimiter) {l : ConditionLevel} {us : List Token}
    {b : Condition} (h : ConditionDerivation l us b) : Balanced d us := by
  induction h with
  | negation operator _ ih =>
    exact (Balanced.single (Delimiter.depth_other (Token.isOneOf_singleton.2 operator))).append ih
  | relation left operator right => exact (left.balanced d).join operator (right.balanced d)
  | parentheses left _ right ih => exact ih.inParentheses left right
  | ofTerm _ ih | ofConjunction _ ih => exact ih
  | and _ operator _ ihl ihr | or _ operator _ ihl ihr => exact ihl.joinWord operator ihr

/-- What single statements look like: an assignment, or a balanced stretch between a word that opens
a block and an `end`. -/
inductive SingleShape : List Token → Prop where
  | assignment {x o : Token} {us : List Token} {a : Arith} (name : x.kind = .identifier)
      (operator : o.isReserved ":=") (value : ArithDerivation .sum us a) :
      SingleShape (x :: o :: us)
  | block {l r : Token} {us : List Token} (opening : l.isOneOf Delimiter.block.opening)
      (inner : ∀ d, Balanced d us) (closing : r.isReserved "end") : SingleShape (l :: (us ++ [r]))

theorem SingleShape.balanced {us : List Token} (h : SingleShape us) (d : Delimiter) :
    Balanced d us := by
  cases h with
  | @assignment x o us a name operator value =>
    have hx : Balanced d [x] := .single (Delimiter.depth_of_kind (by rw [name]; decide))
    exact hx.joinWord operator (value.balanced d)
  | block opening inner closing => exact (inner d).inBlock opening closing

def StatementLevel.Shape (us : List Token) : StatementLevel → Prop
  | single => SingleShape us
  | list => ∀ d, Balanced d us

theorem opensBlock_of_isReserved {t : Token} {w : String} (h : t.isReserved w = true)
    (hw : w ∈ Delimiter.block.opening := by decide) : t.isOneOf Delimiter.block.opening = true :=
  Token.isOneOf_iff.2 ⟨w, hw, h⟩

theorem StatementDerivation.shape {l : StatementLevel} {us : List Token} {s : Statement}
    (h : StatementDerivation l us s) : l.Shape us := by
  induction h with
  | assign name operator value => exact .assignment name operator value
  | ifThen opening condition middle _ closing ih | whileDo opening condition middle _ closing ih =>
    have h := SingleShape.block (opensBlock_of_isReserved opening)
      (fun d => (condition.balanced d).joinWord middle (ih d)) closing
    simpa [StatementLevel.Shape] using h
  | ifThenElse opening condition middle _ otherwise _ closing ihs iht =>
    have h := SingleShape.block (opensBlock_of_isReserved opening)
      (fun d => (condition.balanced d).joinWord middle ((ihs d).joinWord otherwise (iht d))) closing
    simpa [StatementLevel.Shape] using h
  | @repeatTimes r n m e us k s opening kind count middle _ closing ih =>
    have hn (d : Delimiter) : Balanced d [n] :=
      .single (Delimiter.depth_of_kind (by rw [kind]; decide))
    exact .block (opensBlock_of_isReserved opening) (fun d => (hn d).joinWord middle (ih d)) closing
  | ofSingle _ ih => exact ih.balanced
  | sequence _ operator _ ihs iht => exact fun d => (ihs d).joinWord operator (iht.balanced d)

/-- The tokens of a program are balanced. -/
theorem Derives.balanced {ts : List Token} {s : Statement} (h : Derives ts s) (d : Delimiter) :
    Balanced d ts := by
  obtain ⟨h⟩ := h
  exact h.shape d

end ImpLang
