import ImpLang.Proofs.Scanner.Feeds

/-! Where everything stands. What was read is made up of the lexemes of the tokens held, in order,
with nothing but blanks and comments between them, and each token is placed by what stands before
it, over all feeds. A failing feed is placed the same way, and names what it failed at. -/

namespace ImpLang

/-- The place behind a text: its lines are counted, and the characters of its last line. -/
def placeBehind (text : List Char) : Location :=
  ⟨1 + text.count '\n', 1 + (text.reverse.takeWhile (· != '\n')).length⟩

theorem placeBehind_concat (text : List Char) (c : Char) :
    placeBehind (text ++ [c]) = (placeBehind text).next c := by
  by_cases hc : c = '\n'
  · simp [placeBehind, Location.next, hc, Nat.add_assoc]
  · simp [placeBehind, Location.next, hc, Nat.add_assoc]

theorem placeBehind_append (text more : List Char) :
    placeBehind (text ++ more) = (placeBehind text).advance more := by
  induction more generalizing text with
  | nil => rw [List.append_nil, Location.advance_nil]
  | cons c more ih =>
    rw [List.append_cons, ih, placeBehind_concat, Location.advance_cons]

/-- What may stand between tokens: runs of blanks, and comments. -/
inductive IsGap : List Char → Prop where
  | nil : IsGap []
  | blanks {run gap : List Char} (blank : ∀ c ∈ run, isBlank c = true) (more : IsGap gap) :
      IsGap (run ++ gap)
  | comment {text gap : List Char} (line : ∀ c ∈ text, c ≠ '\n') (more : IsGap gap) :
      IsGap ('#' :: (text ++ gap))

/-- The text is made up of the tokens and of gaps, and they stand at their places. -/
inductive Laid : List Char → List Token → Prop where
  | gap {gap : List Char} (isGap : IsGap gap) : Laid gap []
  | token {text gap : List Char} {ts : List Token} {t : Token} (front : Laid text ts)
      (place : t.location = placeBehind text) (isGap : IsGap gap) :
      Laid (text ++ t.lexeme.toList ++ gap) (ts ++ [t])

/-- What the fault names stands at the head of the text: the character, or all of the digits. -/
def LexicalFault.StandsAt (text : List Char) : LexicalFault → Prop
  | illegalCharacter c => text.head? = some c
  | invalidInteger literal => literal ≠ "" ∧ literal.toList = text.takeWhile Char.isDigit

variable {text gap lexeme rest : List Char} {ts : List Token} {kind? : Option TokenKind}

theorem IsGap.append {gap' : List Char} (h : IsGap gap) (h' : IsGap gap') :
    IsGap (gap ++ gap') := by
  induction h with
  | nil => exact h'
  | blanks blank _ ih =>
    rw [List.append_assoc]
    exact .blanks blank ih
  | comment line _ ih =>
    rw [List.cons_append, List.append_assoc]
    exact .comment line ih

theorem Laid.append_gap (h : Laid text ts) (hg : IsGap gap) : Laid (text ++ gap) ts := by
  cases h with
  | gap isGap => exact .gap (isGap.append hg)
  | token front place isGap =>
    rw [List.append_assoc]
    exact .token front place (isGap.append hg)

/-- Two rules yield no token, and what they cover is a gap. -/
theorem isGap_of_covers (h : firstMatch? (lexeme ++ rest) = some (lexeme.length, none)) :
    IsGap lexeme := by
  obtain ⟨⟨pattern, k⟩, hr, hl, rfl⟩ := rule_of_firstMatch? h
  have hpattern : ∀ r ∈ lexicalRules, r.kind? = none →
      r.pattern = .blanks ∨ r.pattern = .comment := by decide
  rcases hpattern _ hr rfl with rfl | rfl
  · have hrun := takeWhile_eq_left (runLength?_eq_some hl).1
    simpa using IsGap.blanks hrun.1 .nil
  · obtain ⟨c, l, rfl⟩ := List.exists_cons_of_ne_nil (List.ne_nil_of_length_pos (firstMatch?_pos h))
    obtain ⟨rfl, hlen⟩ : c = '#' ∧ l.length = ((l ++ rest).takeWhile (· != '\n')).length := by
      rw [List.cons_append] at hl
      unfold Pattern.length? at hl
      split at hl <;> simp_all
    have hline : ∀ c ∈ l, c ≠ '\n' := fun c hc => by
      simpa using (takeWhile_eq_left hlen).1 c hc
    simpa using IsGap.comment hline .nil

/-- One rule yields integers, and what it covers are all of the digits. -/
theorem digits_of_covers
    (h : firstMatch? (lexeme ++ rest) = some (lexeme.length, some .integer)) :
    lexeme = (lexeme ++ rest).takeWhile Char.isDigit := by
  obtain ⟨⟨pattern, k⟩, hr, hl, rfl⟩ := rule_of_firstMatch? h
  have hpattern : ∀ r ∈ lexicalRules, r.kind? = some .integer → r.pattern = .digits := by decide
  obtain rfl := hpattern _ hr rfl
  obtain ⟨hall, hstop⟩ := takeWhile_eq_left (runLength?_eq_some hl).1
  exact (takeWhile_append_stop hall hstop).symm

namespace Scanner

variable {s s' : Scanner} {chars : List Char} {e? : Option LexicalError}

/-- The scanner has read this text: it holds the tokens laid out there, and stands behind it. -/
structure HasRead (text : List Char) (s : Scanner) : Prop where
  laid : Laid text s.tokens.toList
  place : s.location = placeBehind text

theorem hasRead_nothing : HasRead [] {} := ⟨.gap .nil, rfl⟩

theorem HasRead.accept (h : HasRead text s) (ht : Takes kind? lexeme rest) :
    HasRead (text ++ lexeme) (s.accept kind? lexeme) := by
  have hplace : s.location.advance lexeme = placeBehind (text ++ lexeme) := by
    rw [placeBehind_append, h.place]
  refine ⟨?_, by cases kind? <;> exact hplace⟩
  cases kind? with
  | none => exact h.laid.append_gap (isGap_of_covers ht.covers)
  | some kind =>
    have := Laid.token (t := ⟨kind, String.ofList lexeme, s.location⟩) h.laid h.place .nil
    simpa [Scanner.accept, push] using this

theorem Reaches.hasRead (h : Reaches s chars s' rest) (hh : Halts s' rest e?)
    (hs : HasRead text s) : HasRead (text ++ readPart chars) s' := by
  induction h generalizing text with
  | refl => rwa [hh.readPart, List.append_nil]
  | step first _ ih =>
    rw [first.readPart, ← List.append_assoc]
    exact ih hh (hs.accept first)

theorem HasRead.scan (h : HasRead text s) (hs : s.scan chars = (s', e?)) :
    HasRead (text ++ readPart chars) s' := by
  obtain ⟨rest, hr, hh⟩ := scan_eq_iff.1 hs
  exact hr.hasRead hh h

theorem HasRead.feedAll (h : HasRead text s) (texts : List String) :
    HasRead (text ++ readAll texts) (s.feedAll texts) := by
  induction texts generalizing s text with
  | nil => simpa [readAll, Scanner.feedAll] using h
  | cons u texts ih =>
    have hu : HasRead (text ++ readPart u.toList) (s.scan u.toList).1 := h.scan rfl
    rw [Scanner.feedAll, feed_fst]
    simpa [readAll] using ih hu

/-- The fault stands where the scanner came to a halt. -/
theorem Halts.standsAt {e : LexicalError} (h : Halts s rest (some e)) :
    e.location = s.location ∧ e.fault.StandsAt rest := by
  cases h with
  | illegal => exact ⟨rfl, rfl⟩
  | @invalid kind? lexeme rest fault covers unsound =>
    refine ⟨rfl, ?_⟩
    simp only [fault?] at unsound
    split at unsound
    · rename_i hf
      obtain rfl := hf.1
      cases unsound
      refine ⟨?_, by simpa using digits_of_covers covers⟩
      simpa using List.ne_nil_of_length_pos (firstMatch?_pos covers)
    · cases unsound

end Scanner

/-- However texts are fed, what was read of them is the tokens held with blanks and comments
between them, each at its place. A feed that does not fail is read to its end; one that fails is
read up to the place of its error, and there stands what the error names. -/
theorem feeds_laid_out :
    (∀ texts, Laid (readAll texts) (({} : Scanner).feedAll texts).tokens.toList) ∧
      ∀ texts text s status, (({} : Scanner).feedAll texts).feed text = (s, status) →
        ((∀ e, status ≠ .failed e) → readPart text.toList = text.toList) ∧
          ∀ e, status = .failed e → e.location = placeBehind (readAll (texts ++ [text])) ∧
            ∃ rest, text.toList = readPart text.toList ++ rest ∧ e.fault.StandsAt rest := by
  have hread (texts : List String) : (({} : Scanner).feedAll texts).HasRead (readAll texts) :=
    Scanner.hasRead_nothing.feedAll texts
  refine ⟨fun texts => (hread texts).laid, fun texts text s status h => ?_⟩
  rcases Scanner.feed_cases h with ⟨e, hscan, rfl⟩ | ⟨hscan, rfl⟩
  · obtain ⟨rest, hpart, hh⟩ := Scanner.scan_part hscan
    obtain ⟨hplace, hstands⟩ := hh.standsAt
    refine ⟨fun hok => absurd rfl (hok e), ?_⟩
    rintro _ ⟨⟩
    refine ⟨?_, rest, hpart.symm, hstands⟩
    rw [hplace, ((hread texts).scan hscan).place]
    simp [readAll]
  · obtain ⟨rest, hpart, hh⟩ := Scanner.scan_part hscan
    cases hh
    refine ⟨fun _ => by simpa using hpart, fun e he => ?_⟩
    split at he <;> cases he

-- the refused literal and what is behind it are dropped
example : readAll ["x := 9223372036854775808 ;", "7"] = "x := 7".toList := by decide +kernel

end ImpLang
