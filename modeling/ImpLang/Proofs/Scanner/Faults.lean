import ImpLang.Proofs.Scanner.Layout

/-! What may be wrong with a text, told character by character and with no rule tried: outside
comments only certain characters may stand, and words have to begin with a letter or, behind
digits that fit, to go on with one. -/

namespace ImpLang

/-- Does the text end inside a comment? -/
def inComment (text : List Char) : Bool := (text.reverse.takeWhile (· != '\n')).contains '#'

def operatorCharacters : List Char := ['(', ')', ';', '+', '-', '*', '/', '<', '>', '=']

/-- May the character stand in front of this text, outside comments? -/
def Allowed (c : Char) (behind : List Char) : Prop :=
  isBlank c = true ∨ c ∈ operatorCharacters ∨ isAsciiWord c = true ∨
    (c = ':' ∨ c = '!') ∧ behind.head? = some '='

/-- A word character outside comments, behind this text. -/
def WordAt (front : List Char) (c : Char) : Prop :=
  isAsciiWord c = true ∧ inComment (front ++ [c]) = false

/-- A maximal run of word characters outside comments. -/
structure WordRun (front run behind : List Char) : Prop where
  nonempty : run ≠ []
  word : ∀ a c b, run = a ++ c :: b → WordAt (front ++ a) c
  before : ∀ a c, front = a ++ [c] → ¬ WordAt a c
  after : ∀ c ∈ behind.head?, ¬ WordAt (front ++ run) c

/-- Digits, or none, whose value fits a word; then nothing, or a letter and anything. -/
def RunSound (run : List Char) : Prop :=
  ∃ digits word, run = digits ++ word ∧ (∀ c ∈ digits, c.isDigit = true) ∧
    FitsWord (Decimal.value digits) ∧ ∀ c ∈ word.head?, isLetter c = true

/-- What is wrong with a text behind its first part. -/
inductive Violation : List Char → List Char → LexicalFault → Prop where
  /-- A character that may not stand there. -/
  | character {front behind : List Char} {c : Char} (uncommented : inComment (front ++ [c]) = false)
      (refused : ¬ Allowed c behind) : Violation front (c :: behind) (.illegalCharacter c)
  /-- All the digits at the beginning of a run, if their value is too large. -/
  | literal {front digits word behind : List Char} (run : WordRun front (digits ++ word) behind)
      (all : ∀ c ∈ digits, c.isDigit = true) (stop : ∀ c ∈ word.head?, c.isDigit = false)
      (large : ¬ FitsWord (Decimal.value digits)) :
      Violation front (digits ++ word ++ behind) (.invalidInteger (String.ofList digits))
  /-- An underscore that is first in its run, or first behind the digits there. -/
  | underscore {front digits word behind : List Char}
      (run : WordRun front (digits ++ '_' :: word) behind) (all : ∀ c ∈ digits, c.isDigit = true) :
      Violation (front ++ digits) ('_' :: word ++ behind) (.illegalCharacter '_')

variable {text front run behind l : List Char} {c : Char} {fault : LexicalFault}

theorem allowed_of_mem (h : c ∈ operatorCharacters) (behind : List Char) : Allowed c behind :=
  Or.inr (Or.inl h)

theorem allowed_of_isAsciiWord (h : isAsciiWord c = true) (behind : List Char) :
    Allowed c behind :=
  Or.inr (Or.inr (Or.inl h))

theorem allowed_of_pair (h : c = ':' ∨ c = '!') (hb : behind.head? = some '=') :
    Allowed c behind :=
  Or.inr (Or.inr (Or.inr ⟨h, hb⟩))

/-! Comments. -/

theorem inComment_concat (text : List Char) (c : Char) :
    inComment (text ++ [c]) = (c != '\n' && (c == '#' || inComment text)) := by
  by_cases hc : c = '\n'
  · simp [inComment, hc]
  · have hh : (c == '#') = ('#' == c) := BEq.comm
    have hn : (c != '\n') = true := by simpa using hc
    simp only [inComment, List.reverse_append, List.reverse_cons, List.reverse_nil, List.nil_append,
      List.cons_append, List.takeWhile_cons, hn, if_true, List.contains_cons, hh, Bool.true_and]

theorem inComment_append (h : ∀ c ∈ l, c ≠ '#' ∧ c ≠ '\n') (text : List Char) :
    inComment (text ++ l) = inComment text := by
  induction l generalizing text with
  | nil => rw [List.append_nil]
  | cons c l ih =>
    obtain ⟨hhash, hline⟩ := h c List.mem_cons_self
    rw [List.append_cons, ih fun d hd => h d (List.mem_cons_of_mem c hd), inComment_concat,
      beq_false_of_ne hhash, bne_iff_ne.2 hline]
    rfl

theorem inComment_append_line (h : ∀ c ∈ l, c ≠ '\n') (ht : inComment text = true) :
    inComment (text ++ l) = true := by
  induction l generalizing text with
  | nil => rwa [List.append_nil]
  | cons c l ih =>
    rw [List.append_cons]
    refine ih (fun d hd => h d (List.mem_cons_of_mem c hd)) ?_
    simp [inComment_concat, ht, h c]

theorem inComment_append_false (h : '#' ∉ l) (ht : inComment text = false) :
    inComment (text ++ l) = false := by
  induction l generalizing text with
  | nil => rwa [List.append_nil]
  | cons c l ih =>
    rw [List.append_cons]
    simp only [List.mem_cons, not_or] at h
    refine ih h.2 ?_
    simp [inComment_concat, ht, Ne.symm h.1]

/-- A comment begins with its hash sign. -/
theorem inComment_of_hash {line a b : List Char} (h : ∀ d ∈ line, d ≠ '\n')
    (he : '#' :: line = a ++ c :: b) : inComment (text ++ a ++ [c]) = true := by
  have hhash : inComment (text ++ ['#']) = true := by simp [inComment_concat]
  rcases List.cons_eq_append_iff.1 he with ⟨rfl, hc⟩ | ⟨a, rfl, rfl⟩
  · obtain ⟨rfl, -⟩ := List.cons.inj hc
    rwa [List.append_nil]
  · rw [List.append_cons text, List.append_assoc]
    refine inComment_append_line (fun d hd => h d ?_) hhash
    rw [List.append_cons]
    exact List.mem_append_left b hd

theorem plain_of_isAsciiWord (h : isAsciiWord c = true) : c ≠ '#' ∧ c ≠ '\n' := by
  constructor <;> rintro rfl <;> exact absurd h (by decide)

theorem wordAt_iff : WordAt front c ↔ isAsciiWord c = true ∧ inComment front = false := by
  refine and_congr_right fun h => ?_
  rw [inComment_append fun d hd => ?_]
  rw [List.mem_singleton.1 hd]
  exact plain_of_isAsciiWord h

/-! A run is told by the characters next to it. -/

theorem WordRun.all (h : WordRun front run behind) : ∀ c ∈ run, isAsciiWord c = true := by
  intro c hc
  obtain ⟨a, b, rfl⟩ := List.append_of_mem hc
  exact (h.word a c b rfl).1

theorem WordRun.uncommented (h : WordRun front run behind) : inComment front = false := by
  obtain ⟨c, l, rfl⟩ := List.exists_cons_of_ne_nil h.nonempty
  simpa using (wordAt_iff.1 (h.word [] c l rfl)).2

/-- No word character stands last. -/
def EndsWordless (text : List Char) : Prop := ∀ a c, text = a ++ [c] → isAsciiWord c = false

theorem endsWordless_append (hne : l ≠ []) (h : ∀ c ∈ l, isAsciiWord c = false)
    (text : List Char) : EndsWordless (text ++ l) := by
  intro a c he
  refine h c (List.mem_of_getLast? ?_)
  rw [← List.getLast?_append_of_ne_nil text hne, he, List.getLast?_concat]

theorem not_endsWordless (hne : l ≠ []) (h : ∀ c ∈ l, isAsciiWord c = true) :
    ¬ EndsWordless (text ++ l) := by
  intro he
  obtain ⟨a, c, rfl⟩ : ∃ a c, l = a ++ [c] := ⟨_, _, (List.dropLast_append_getLast hne).symm⟩
  have := he (text ++ a) c (List.append_assoc ..).symm
  simp [h c] at this

theorem WordRun.endsWordless (h : WordRun front run behind) : EndsWordless front := by
  intro a c he
  have hopen := h.uncommented
  rw [Bool.eq_false_iff]
  intro hc
  refine h.before a c he ⟨hc, ?_⟩
  rwa [← he]

theorem WordRun.stop (h : WordRun front run behind) :
    ∀ c ∈ behind.head?, isAsciiWord c = false := by
  intro c hc
  rw [Bool.eq_false_iff]
  intro hw
  refine h.after c hc (wordAt_iff.2 ⟨hw, ?_⟩)
  rw [inComment_append fun d hd => plain_of_isAsciiWord (h.all d hd)]
  exact h.uncommented

theorem WordRun.digits_stop {digits word : List Char} (h : WordRun front (digits ++ word) behind)
    (hs : ∀ c ∈ word.head?, c.isDigit = false) :
    ∀ c ∈ (word ++ behind).head?, c.isDigit = false := by
  cases word with
  | nil =>
    intro c hc
    rw [Bool.eq_false_iff]
    intro hn
    simpa [isAsciiWord_of_isDigit hn] using h.stop c hc
  | cons w word => exact hs

theorem wordRun_of (hne : run ≠ []) (all : ∀ c ∈ run, isAsciiWord c = true)
    (uncommented : inComment front = false) (before : EndsWordless front)
    (stop : ∀ c ∈ behind.head?, isAsciiWord c = false) : WordRun front run behind where
  nonempty := hne
  word a c b he := by
    have ha : ∀ d ∈ a, d ≠ '#' ∧ d ≠ '\n' :=
      fun d hd => plain_of_isAsciiWord (all d (by simp [he, hd]))
    exact wordAt_iff.2 ⟨all c (by simp [he]), by rw [inComment_append ha, uncommented]⟩
  before a c he h := Bool.eq_false_iff.1 (before a c he) h.1
  after c hc h := Bool.eq_false_iff.1 (stop c hc) h.1

/-! What is wrong at one place. -/

theorem ne_nil_of_large {digits : List Char} (h : ¬ FitsWord (Decimal.value digits)) :
    digits ≠ [] := by
  rintro rfl
  exact h (by decide)

theorem Violation.head (h : Violation front behind fault) :
    ∃ c tail, behind = c :: tail ∧ inComment (front ++ [c]) = false ∧
      (Allowed c tail → isAsciiWord c = true) := by
  cases h with
  | @character front behind c uncommented refused =>
    exact ⟨c, behind, rfl, uncommented, fun h => absurd h refused⟩
  | @literal front digits word behind run all stop large =>
    obtain ⟨d, digits, rfl⟩ := List.exists_cons_of_ne_nil (ne_nil_of_large large)
    have hd : WordAt front d := by simpa using run.word [] d (digits ++ word) rfl
    exact ⟨d, digits ++ word ++ behind, rfl, hd.2, fun _ => hd.1⟩
  | @underscore front digits word behind run all =>
    have hd : WordAt (front ++ digits) '_' := run.word digits '_' word rfl
    exact ⟨'_', word ++ behind, rfl, hd.2, fun _ => hd.1⟩

/-- What the fault names stands there, and a character that it names is no digit. -/
theorem Violation.standsAt (h : Violation front behind fault) :
    fault.StandsAt behind ∧ ∀ c, fault = .illegalCharacter c → c.isDigit = false := by
  cases h with
  | @character _ behind c _ refused =>
    refine ⟨rfl, ?_⟩
    rintro _ ⟨⟩
    rw [Bool.eq_false_iff]
    exact fun hd => refused (allowed_of_isAsciiWord (isAsciiWord_of_isDigit hd) behind)
  | @literal _ digits word behind run all stop large =>
    refine ⟨⟨by simpa using ne_nil_of_large large, ?_⟩, fun c hc => by cases hc⟩
    · rw [String.toList_ofList, List.append_assoc,
        takeWhile_append_stop all (run.digits_stop stop)]
  | underscore =>
    refine ⟨rfl, ?_⟩
    rintro _ ⟨⟩
    decide

theorem not_standsAt_both {x : String} (hc : (LexicalFault.illegalCharacter c).StandsAt text)
    (hd : c.isDigit = false) : ¬ (LexicalFault.invalidInteger x).StandsAt text := by
  rintro ⟨hne, hx⟩
  refine hne (String.toList_eq_nil_iff.1 (hx.trans ?_))
  cases text with
  | nil => rfl
  | cons d text =>
    cases hc
    simp [hd]

/-- What is wrong at a place is one thing only. -/
theorem Violation.unique {fault' : LexicalFault} (h : Violation front behind fault)
    (h' : Violation front behind fault') : fault = fault' := by
  obtain ⟨hs, hd⟩ := h.standsAt
  obtain ⟨hs', hd'⟩ := h'.standsAt
  cases fault with
  | illegalCharacter c =>
    cases fault' with
    | illegalCharacter d =>
      cases hs.symm.trans hs'
      rfl
    | invalidInteger x => exact absurd hs' (not_standsAt_both hs (hd c rfl))
  | invalidInteger x =>
    cases fault' with
    | illegalCharacter d => exact absurd hs (not_standsAt_both hs' (hd' d rfl))
    | invalidInteger y => rw [String.toList_inj.1 (hs.2.trans hs'.2.symm)]

/-! A whole text. -/

/-- Nothing is wrong with the text. -/
def Faultless (text : List Char) : Prop :=
  ∀ front behind fault, text = front ++ behind → ¬ Violation front behind fault

theorem RunSound.digits {digits word : List Char} (h : RunSound (digits ++ word))
    (all : ∀ c ∈ digits, c.isDigit = true) (stop : ∀ c ∈ word.head?, c.isDigit = false) :
    FitsWord (Decimal.value digits) ∧ ∀ c ∈ word.head?, isLetter c = true := by
  obtain ⟨digits', word', he, all', fits, hletter⟩ := h
  have stop' : ∀ c ∈ word'.head?, c.isDigit = false :=
    fun c hc => not_isDigit_of_isLetter (hletter c hc)
  obtain rfl : digits = digits' := by
    rw [← takeWhile_append_stop all stop, he, takeWhile_append_stop all' stop']
  obtain rfl := List.append_cancel_left he
  exact ⟨fits, hletter⟩

theorem faultless_iff : Faultless text ↔
    (∀ front c behind, text = front ++ c :: behind → inComment (front ++ [c]) = false →
      Allowed c behind) ∧
    ∀ front run behind, text = front ++ run ++ behind → WordRun front run behind →
      RunSound run := by
  constructor
  · intro h
    refine ⟨fun front c behind he hc => ?_, fun front run behind he hr => ?_⟩
    · by_contra ha
      exact h front (c :: behind) _ he (.character hc ha)
    · obtain ⟨digits, word, rfl, all, stop⟩ : ∃ digits word, run = digits ++ word ∧
          (∀ c ∈ digits, c.isDigit = true) ∧ ∀ c ∈ word.head?, c.isDigit = false :=
        ⟨_, _, List.takeWhile_append_dropWhile.symm, takeWhile_all Char.isDigit run,
          dropWhile_stops Char.isDigit run⟩
      refine ⟨digits, word, rfl, all, ?_, fun c hc => ?_⟩
      · by_contra hlarge
        exact h front (digits ++ word ++ behind) _ (by rw [he, List.append_assoc])
          (.literal hr all stop hlarge)
      · cases word with
        | nil => cases hc
        | cons d word =>
          obtain rfl : d = c := Option.some.inj hc
          rcases isAsciiWord_iff.1 (hr.all d (by simp)) with hl | hd | rfl
          · exact hl
          · simp [stop d rfl] at hd
          · exact absurd (.underscore hr all) (h (front ++ digits) _ _ (by rw [he]; simp))
  · rintro ⟨hallowed, hsound⟩ front behind fault he hv
    cases hv with
    | character uncommented refused => exact refused (hallowed _ _ _ he uncommented)
    | @literal _ digits word behind run all stop large =>
      exact large ((hsound front _ behind (by rw [he]; simp) run).digits all stop).1
    | @underscore front digits word behind run all =>
      have hs := hsound front _ behind (by rw [he]; simp) run
      exact absurd ((hs.digits all (by simp)).2 '_' rfl) (by decide)

/-- The fault is the first thing that is wrong with the text, and is placed where it stands. -/
def FirstFault (text : List Char) (e : LexicalError) : Prop :=
  ∃ front behind, text = front ++ behind ∧ Violation front behind e.fault ∧
    e.location = placeBehind front ∧
    ∀ front' behind' fault', text = front' ++ behind' → Violation front' behind' fault' →
      front.length ≤ front'.length

theorem FirstFault.unique {e e' : LexicalError} (h : FirstFault text e) (h' : FirstFault text e') :
    e = e' := by
  obtain ⟨front, behind, rfl, hv, hplace, hfirst⟩ := h
  obtain ⟨front', behind', he, hv', hplace', hfirst'⟩ := h'
  have hlength : front.length = front'.length :=
    Nat.le_antisymm (hfirst _ _ _ he hv') (hfirst' _ _ _ rfl hv)
  obtain ⟨rfl, rfl⟩ := List.append_inj he hlength
  cases e
  cases e'
  simp only [LexicalError.mk.injEq]
  exact ⟨hv.unique hv', hplace.trans hplace'.symm⟩

end ImpLang
