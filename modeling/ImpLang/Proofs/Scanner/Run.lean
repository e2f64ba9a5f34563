import ImpLang.Proofs.Scanner.Rules
import ImpLang.Scanner.Basic
import Mathlib.Data.List.Forall2

/-! A scan as a run of steps, each of which takes one lexeme off the text. What the steps do
depends on the text alone: from another state the same lexemes are taken. A line end separates
what stands before it from what follows, so that lines may be scanned one by one. -/

namespace ImpLang
namespace Scanner

/-- The first rule that covers anything takes the lexeme off the text, and nothing is wrong with
it. -/
structure Takes (kind? : Option TokenKind) (lexeme rest : List Char) : Prop where
  covers : firstMatch? (lexeme ++ rest) = some (lexeme.length, kind?)
  sound : fault? kind? lexeme = none

/-- Lexeme by lexeme the scanner comes from one place in a text to another. -/
inductive Reaches : Scanner → List Char → Scanner → List Char → Prop where
  | refl (s : Scanner) (text : List Char) : Reaches s text s text
  | step {s s' : Scanner} {kind? : Option TokenKind} {lexeme text rest : List Char}
      (first : Takes kind? lexeme text)
      (more : Reaches (s.accept kind? lexeme) text s' rest) : Reaches s (lexeme ++ text) s' rest

/-- Where the scanner takes nothing more: at the end of the text, or in front of an error. -/
inductive Halts (s : Scanner) : List Char → Option LexicalError → Prop where
  | finished : Halts s [] none
  | illegal {c : Char} {cs : List Char} (uncovered : firstMatch? (c :: cs) = none) :
      Halts s (c :: cs) (some ⟨.illegalCharacter c, s.location⟩)
  | invalid {kind? : Option TokenKind} {lexeme rest : List Char} {fault : LexicalFault}
      (covers : firstMatch? (lexeme ++ rest) = some (lexeme.length, kind?))
      (unsound : fault? kind? lexeme = some fault) :
      Halts s (lexeme ++ rest) (some ⟨fault, s.location⟩)

variable {s s' t : Scanner} {kind? : Option TokenKind} {lexeme text rest : List Char}
    {e? : Option LexicalError}

theorem scan_nil (s : Scanner) : s.scan [] = (s, none) := by rw [scan]

/-- What a rule covers splits off the text. -/
theorem cons_of_covers (h : firstMatch? (lexeme ++ rest) = some (lexeme.length, kind?)) :
    ∃ c cs, lexeme ++ rest = c :: cs ∧ (c :: cs).take lexeme.length = lexeme ∧
      (c :: cs).drop lexeme.length = rest := by
  obtain ⟨c, cs, hc⟩ : ∃ c cs, lexeme ++ rest = c :: cs :=
    List.exists_cons_of_ne_nil fun hn => by
      have := firstMatch?_pos h
      simp_all
  exact ⟨c, cs, hc, by simp [← hc], by simp [← hc]⟩

theorem scan_of_covers (h : firstMatch? (lexeme ++ rest) = some (lexeme.length, kind?))
    (s : Scanner) :
    s.scan (lexeme ++ rest) = match fault? kind? lexeme with
      | some fault => (s, some ⟨fault, s.location⟩)
      | none => (s.accept kind? lexeme).scan rest := by
  obtain ⟨c, cs, hc, htake, hdrop⟩ := cons_of_covers h
  rw [hc] at h ⊢
  rw [scan]
  split
  · rename_i hn
    simp [h] at hn
  · rename_i n k hn
    obtain ⟨rfl, rfl⟩ : lexeme.length = n ∧ kind? = k := by simpa [h] using hn
    cases hf : fault? kind? lexeme <;> simp [htake, hdrop, hf]

theorem Takes.scan (h : Takes kind? lexeme rest) (s : Scanner) :
    s.scan (lexeme ++ rest) = (s.accept kind? lexeme).scan rest := by
  rw [scan_of_covers h.covers, h.sound]

theorem Reaches.scan (h : Reaches s text s' rest) : s.scan text = s'.scan rest := by
  induction h with
  | refl => rfl
  | step first _ ih => exact (first.scan _).trans ih

theorem Halts.scan (h : Halts s text e?) : s.scan text = (s, e?) := by
  cases h with
  | finished => exact scan_nil s
  | illegal hu =>
    rw [scan]
    split
    · rfl
    · simp_all
  | invalid hc hu => rw [scan_of_covers hc, hu]

theorem covers_take {n : Nat} (h : firstMatch? text = some (n, kind?)) :
    firstMatch? (text.take n ++ text.drop n) = some ((text.take n).length, kind?) := by
  rw [List.take_append_drop, List.length_take, Nat.min_eq_left (firstMatch?_le h), h]

theorem reaches_of_scan (s : Scanner) (text : List Char) :
    ∃ rest, Reaches s text (s.scan text).1 rest ∧ Halts (s.scan text).1 rest (s.scan text).2 := by
  fun_induction scan s text with
  | case1 s => exact ⟨[], .refl s [], .finished⟩
  | case2 s c cs h => exact ⟨c :: cs, .refl s _, .illegal h⟩
  | case3 s c cs n kind? h fault hf =>
    have hh := Halts.invalid (s := s) (covers_take h) hf
    rw [List.take_append_drop] at hh
    exact ⟨c :: cs, .refl s _, hh⟩
  | case4 s c cs n kind? h hf ih =>
    obtain ⟨rest, hr, hh⟩ := ih
    have hr := Reaches.step ⟨covers_take h, hf⟩ hr
    rw [List.take_append_drop] at hr
    exact ⟨rest, hr, hh⟩

/-- A scan is a run to where the scanner takes nothing more. -/
theorem scan_eq_iff :
    s.scan text = (s', e?) ↔ ∃ rest, Reaches s text s' rest ∧ Halts s' rest e? := by
  constructor
  · intro h
    simpa [h] using reaches_of_scan s text
  · rintro ⟨rest, hr, hh⟩
    rw [hr.scan, hh.scan]

/-! Blanks leave nothing but their place, and can be read in any portions. -/

theorem accept_append (s : Scanner) (l r : List Char) :
    s.accept none (l ++ r) = (s.accept none l).accept none r := by
  simp [accept, Location.advance_append]

theorem Takes.ne_nil (h : Takes kind? lexeme rest) : lexeme ≠ [] :=
  List.ne_nil_of_length_pos (firstMatch?_pos h.covers)

theorem takes_blanks (h : ∀ c ∈ text, isBlank c = true) (ht : text ≠ [])
    (hr : ∀ c ∈ rest.head?, isBlank c = false) : Takes none text rest :=
  ⟨firstMatch?_blanks h ht hr, by simp [fault?]⟩

theorem scan_blanks_stop (h : ∀ c ∈ text, isBlank c = true)
    (hr : ∀ c ∈ rest.head?, isBlank c = false) (s : Scanner) :
    s.scan (text ++ rest) = (s.accept none text).scan rest := by
  by_cases ht : text = []
  · subst ht
    rfl
  · exact (takes_blanks h ht hr).scan s

theorem scan_blanks (h : ∀ c ∈ text, isBlank c = true) (s : Scanner) (rest : List Char) :
    s.scan (text ++ rest) = (s.accept none text).scan rest := by
  have hstop := dropWhile_stops isBlank rest
  have hall := takeWhile_all isBlank rest
  have hboth : ∀ c ∈ text ++ rest.takeWhile isBlank, isBlank c = true := by
    intro c hc
    exact (List.mem_append.1 hc).elim (h c) (hall c)
  calc s.scan (text ++ rest)
      = s.scan ((text ++ rest.takeWhile isBlank) ++ rest.dropWhile isBlank) := by
        rw [List.append_assoc, List.takeWhile_append_dropWhile]
    _ = ((s.accept none text).accept none (rest.takeWhile isBlank)).scan
          (rest.dropWhile isBlank) := by
        rw [scan_blanks_stop hboth hstop, accept_append]
    _ = (s.accept none text).scan rest := by
        rw [← scan_blanks_stop hall hstop, List.takeWhile_append_dropWhile]

theorem scan_blank {c : Char} (h : isBlank c = true) (s : Scanner) (rest : List Char) :
    s.scan (c :: rest) = (s.accept none [c]).scan rest :=
  scan_blanks (List.forall_mem_singleton.2 h) s rest

/-- A run of blanks is one lexeme, which yields no token. -/
theorem covers_blanks (h : firstMatch? (lexeme ++ rest) = some (lexeme.length, kind?))
    (hb : ∃ c ∈ lexeme.head?, isBlank c = true) :
    kind? = none ∧ ∀ c ∈ lexeme, isBlank c = true := by
  obtain ⟨c, hc, hb⟩ := hb
  have hne : (lexeme ++ rest).takeWhile isBlank ≠ [] := by
    cases lexeme with
    | nil => cases hc
    | cons d l =>
      cases hc
      simp [hb]
  have hm := firstMatch?_blanks (takeWhile_all isBlank (lexeme ++ rest)) hne
    (dropWhile_stops isBlank (lexeme ++ rest))
  rw [List.takeWhile_append_dropWhile, h] at hm
  obtain ⟨hlen, rfl⟩ :
      lexeme.length = ((lexeme ++ rest).takeWhile isBlank).length ∧ kind? = none := by
    simpa using hm
  exact ⟨rfl, (takeWhile_eq_left hlen).1⟩

/-! The end of a line. -/

theorem covers_append_newline (h : firstMatch? (lexeme ++ rest) = some (lexeme.length, kind?))
    (hb : ¬ ∃ c ∈ lexeme.head?, isBlank c = true) (b : List Char) :
    firstMatch? (lexeme ++ (rest ++ '\n' :: b)) = some (lexeme.length, kind?) := by
  obtain ⟨c, l, rfl⟩ := List.exists_cons_of_ne_nil (List.ne_nil_of_length_pos (firstMatch?_pos h))
  have hc : isBlank c = false := Bool.eq_false_iff.2 fun hn => hb ⟨c, rfl, hn⟩
  rw [← h]
  simpa using firstMatch?_append_newline hc (l ++ rest) b

theorem Reaches.scan_append_newline (h : Reaches s text s' rest) (b : List Char) :
    s.scan (text ++ '\n' :: b) = s'.scan (rest ++ '\n' :: b) := by
  induction h with
  | refl => rfl
  | @step s s' kind? lexeme text rest first _ ih =>
    rw [← ih, List.append_assoc]
    by_cases hb : ∃ c ∈ lexeme.head?, isBlank c = true
    · obtain ⟨rfl, hall⟩ := covers_blanks first.covers hb
      exact scan_blanks hall s _
    · exact Takes.scan ⟨covers_append_newline first.covers hb b, first.sound⟩ s

/-- A text read to its end is read the same in front of another line. -/
theorem scan_append_newline (h : s.scan text = (s', none)) (b : List Char) :
    s.scan (text ++ '\n' :: b) = (s'.accept none ['\n']).scan b := by
  obtain ⟨rest, hr, hh⟩ := scan_eq_iff.1 h
  cases hh
  rw [hr.scan_append_newline b]
  exact scan_blank rfl s' b

theorem Halts.append_newline {e : LexicalError} (h : Halts s text (some e)) (b : List Char) :
    Halts s (text ++ '\n' :: b) (some e) := by
  cases h with
  | @illegal c cs hu =>
    refine .illegal (?_ : firstMatch? (c :: (cs ++ '\n' :: b)) = none)
    rw [← hu]
    refine firstMatch?_append_newline (Bool.eq_false_iff.2 fun hn => ?_) cs b
    have := firstMatch?_blanks (takeWhile_all isBlank (c :: cs)) (by simp [hn])
      (dropWhile_stops isBlank (c :: cs))
    rw [List.takeWhile_append_dropWhile, hu] at this
    cases this
  | @invalid kind? lexeme rest fault hc hu =>
    rw [List.append_assoc]
    refine .invalid (covers_append_newline hc (fun hb => ?_) b) hu
    obtain ⟨rfl, -⟩ := covers_blanks hc hb
    simp [fault?] at hu

/-- A text that cannot be read fails at the same place in front of another line. -/
theorem scan_append_newline_error {e : LexicalError} (h : s.scan text = (s', some e))
    (b : List Char) : s.scan (text ++ '\n' :: b) = (s', some e) := by
  obtain ⟨rest, hr, hh⟩ := scan_eq_iff.1 h
  rw [hr.scan_append_newline b, (hh.append_newline b).scan]

/-- Nothing, or whole lines. -/
def EndsLine (text : List Char) : Prop := text = [] ∨ ∃ a, text = a ++ ['\n']

/-- Behind whole lines the scanner goes on where it stopped. -/
theorem scan_append (ht : EndsLine text) (h : s.scan text = (s', none)) (b : List Char) :
    s.scan (text ++ b) = s'.scan b := by
  rcases ht with rfl | ⟨a, rfl⟩
  · rw [scan_nil] at h
    cases h
    rfl
  · rcases hs : s.scan a with ⟨t, _ | e⟩
    · rw [scan_append_newline hs, scan_nil] at h
      cases h
      rw [List.append_assoc]
      exact scan_append_newline hs b
    · rw [scan_append_newline_error hs] at h
      cases h

/-- Behind whole lines with an error nothing more is scanned. -/
theorem scan_append_error {e : LexicalError} (ht : EndsLine text) (h : s.scan text = (s', some e))
    (b : List Char) : s.scan (text ++ b) = (s', some e) := by
  rcases ht with rfl | ⟨a, rfl⟩
  · rw [scan_nil] at h
    cases h
  · rcases hs : s.scan a with ⟨t, _ | f⟩
    · rw [scan_append_newline hs, scan_nil] at h
      cases h
    · rw [scan_append_newline_error hs] at h
      cases h
      rw [List.append_assoc]
      exact scan_append_newline_error hs b

/-! What the scanner holds. -/

theorem Reaches.keeps_tokens (h : Reaches s text s' rest) :
    s.tokens.toList <+: s'.tokens.toList := by
  induction h with
  | refl => exact List.prefix_refl _
  | @step s _ kind? lexeme _ _ _ _ ih =>
    refine List.IsPrefix.trans ?_ ih
    cases kind? with
    | none => exact List.prefix_refl _
    | some kind => simp [accept, push]

theorem scan_keeps_tokens (h : s.scan text = (s', e?)) :
    s.tokens.toList <+: s'.tokens.toList := by
  obtain ⟨_, hr, -⟩ := scan_eq_iff.1 h
  exact hr.keeps_tokens

def opensBlock (t : Token) : Bool := blockOpeners.any t.isReserved

/-- The levels count the tokens held. -/
structure Levelled (s : Scanner) : Prop where
  parens : s.parenLevel =
    (s.tokens.toList.countP (Token.isReserved "(") : Int) -
      s.tokens.toList.countP (Token.isReserved ")")
  blocks : s.blockLevel =
    (s.tokens.toList.countP opensBlock : Int) -
      s.tokens.toList.countP (Token.isReserved "end")

theorem levelled_empty : Levelled {} := ⟨rfl, rfl⟩

theorem countP_push {opens closes : Token → Bool} {level step : Int} {ts : List Token} {t : Token}
    (hl : level = (ts.countP opens : Int) - ts.countP closes)
    (hd : opens t = true → closes t = false)
    (hs : step = if opens t then 1 else if closes t then -1 else 0) :
    level + step = ((ts ++ [t]).countP opens : Int) - (ts ++ [t]).countP closes := by
  rw [hl, hs, List.countP_append, List.countP_append]
  cases ho : opens t with
  | true =>
    simp [ho, hd ho]
    omega
  | false =>
    cases hc : closes t
    · simp [ho, hc]
    · simp [ho, hc]
      omega

theorem Levelled.push (h : Levelled s) (t : Token) : Levelled (s.push t) := by
  have htokens : (s.push t).tokens.toList = s.tokens.toList ++ [t] := by simp [Scanner.push]
  constructor
  · rw [htokens]
    refine countP_push h.parens (fun ht => ?_) rfl
    simp only [Token.isReserved, Bool.and_eq_true, beq_iff_eq] at ht
    simp [Token.isReserved, ht]
  · rw [htokens]
    refine countP_push h.blocks (fun ht => ?_) rfl
    simp only [opensBlock, blockOpeners, Token.isReserved, List.any_cons, List.any_nil,
      Bool.or_eq_true, Bool.and_eq_true, beq_iff_eq, Bool.or_false] at ht
    rcases ht with ⟨-, h⟩ | ⟨-, h⟩ | ⟨-, h⟩ <;> simp [Token.isReserved, h]

theorem Levelled.accept (h : Levelled s) (kind? : Option TokenKind) (lexeme : List Char) :
    Levelled (s.accept kind? lexeme) := by
  cases kind? with
  | none => exact ⟨h.parens, h.blocks⟩
  | some k =>
    have hp := h.push ⟨k, String.ofList lexeme, s.location⟩
    exact ⟨hp.parens, hp.blocks⟩

theorem Reaches.levelled (h : Reaches s text s' rest) (hl : Levelled s) : Levelled s' := by
  induction h with
  | refl => exact hl
  | step _ _ ih => exact ih (hl.accept _ _)

theorem Levelled.scan (hl : Levelled s) (h : s.scan text = (s', e?)) : Levelled s' := by
  obtain ⟨rest, hr, -⟩ := scan_eq_iff.1 h
  exact hr.levelled hl

/-- The second scanner holds what the first does, behind tokens of its own and at other places. -/
def Behind (held : List Token) (s t : Scanner) : Prop :=
  List.Forall₂ Token.Agrees (held ++ s.tokens.toList) t.tokens.toList

theorem Behind.accept {held : List Token} (h : Behind held s t) (kind? : Option TokenKind)
    (lexeme : List Char) : Behind held (s.accept kind? lexeme) (t.accept kind? lexeme) := by
  cases kind? with
  | none => exact h
  | some k =>
    have : List.Forall₂ Token.Agrees
        ((held ++ s.tokens.toList) ++ [⟨k, String.ofList lexeme, s.location⟩])
        (t.tokens.toList ++ [⟨k, String.ofList lexeme, t.location⟩]) :=
      List.rel_append h (.cons ⟨rfl, rfl⟩ .nil)
    simpa [Behind, Scanner.accept, push] using this

/-- From another state the same lexemes are taken. -/
theorem Reaches.behind (h : Reaches s text s' rest) {held : List Token} (ht : Behind held s t) :
    ∃ t', Reaches t text t' rest ∧ Behind held s' t' := by
  induction h generalizing t with
  | refl => exact ⟨t, .refl t _, ht⟩
  | step first _ ih =>
    obtain ⟨t', hr, ht'⟩ := ih (ht.accept _ _)
    exact ⟨t', .step first hr, ht'⟩

theorem scan_behind (h : s.scan text = (s', none)) {held : List Token} (ht : Behind held s t) :
    ∃ t', t.scan text = (t', none) ∧ Behind held s' t' := by
  obtain ⟨rest, hr, hh⟩ := scan_eq_iff.1 h
  cases hh
  obtain ⟨t', hr', ht'⟩ := hr.behind ht
  exact ⟨t', scan_eq_iff.2 ⟨[], hr', .finished⟩, ht'⟩

end Scanner

/-! A whole text. -/

theorem tokenize_eq_ok {source : String} {ts : List Token} :
    tokenize source = .ok ts ↔
      ∃ s, ({} : Scanner).scan source.toList = (s, none) ∧ s.tokens.toList = ts := by
  unfold tokenize Scanner.feed
  obtain ⟨s, _ | e⟩ := ({} : Scanner).scan source.toList
  · by_cases hl : 0 < s.parenLevel ∨ 0 < s.blockLevel <;> simp [hl]
  · simp

theorem tokenize_eq_error {source : String} {e : LexicalError} :
    tokenize source = .error e ↔ ∃ s, ({} : Scanner).scan source.toList = (s, some e) := by
  unfold tokenize Scanner.feed
  obtain ⟨s, _ | e⟩ := ({} : Scanner).scan source.toList
  · by_cases hl : 0 < s.parenLevel ∨ 0 < s.blockLevel <;> simp [hl]
  · simp

end ImpLang
