import ImpLang.Proofs.Scanner.Run

/-! Feeds one after the other. A feed that fails is followed by others all the same: what was read
before the failing place is kept, the rest of its text is dropped. -/

namespace ImpLang

/-- The part of a text in front of the first place that cannot be read. -/
def readPart : List Char → List Char
  | [] => []
  | c :: cs =>
    match _ : firstMatch? (c :: cs) with
    | none => []
    | some (n, kind?) =>
      match Scanner.fault? kind? ((c :: cs).take n) with
      | some _ => []
      | none => (c :: cs).take n ++ readPart ((c :: cs).drop n)
termination_by text => text.length
decreasing_by
  have := firstMatch?_pos ‹firstMatch? (c :: cs) = some (n, kind?)›
  simp only [List.length_drop, List.length_cons]
  omega

/-- What is read of texts that are fed one after the other. -/
def readAll (texts : List String) : List Char := texts.flatMap fun text => readPart text.toList

namespace Scanner

/-- Feeds the texts in order, whether they fail or not. -/
def feedAll (s : Scanner) : List String → Scanner
  | [] => s
  | text :: texts => (s.feed text).1.feedAll texts

variable {s s' : Scanner} {status : FeedStatus} {text : String} {chars lexeme rest : List Char}
  {kind? : Option TokenKind} {e? : Option LexicalError}

/-- A feed scans its text, and fails exactly if the scan does. -/
theorem feed_cases (h : s.feed text = (s', status)) :
    (∃ e, s.scan text.toList = (s', some e) ∧ status = .failed e) ∨
      (s.scan text.toList = (s', none) ∧
        status = if 0 < s'.parenLevel ∨ 0 < s'.blockLevel then .continuationNeeded
          else .complete) := by
  unfold feed at h
  split at h
  · rename_i t e hscan
    cases h
    exact Or.inl ⟨e, hscan, rfl⟩
  · rename_i t hscan
    cases h
    exact Or.inr ⟨hscan, rfl⟩

theorem feed_fst (s : Scanner) (text : String) : (s.feed text).1 = (s.scan text.toList).1 := by
  unfold feed
  split
  · rename_i hscan
    rw [hscan]
  · rename_i hscan
    rw [hscan]

theorem Levelled.feedAll (h : s.Levelled) (texts : List String) : (s.feedAll texts).Levelled := by
  induction texts generalizing s with
  | nil => exact h
  | cons text texts ih =>
    rw [Scanner.feedAll, feed_fst]
    exact ih (h.scan rfl)

/-! The part read is what the run goes over. -/

theorem readPart_of_covers (h : firstMatch? (lexeme ++ rest) = some (lexeme.length, kind?)) :
    readPart (lexeme ++ rest) = match fault? kind? lexeme with
      | some _ => []
      | none => lexeme ++ readPart rest := by
  obtain ⟨c, cs, hc, htake, hdrop⟩ := cons_of_covers h
  rw [hc] at h ⊢
  rw [readPart]
  split
  · rename_i hn
    simp [h] at hn
  · rename_i n k hn
    obtain ⟨rfl, rfl⟩ : lexeme.length = n ∧ kind? = k := by simpa [h] using hn
    cases hf : fault? kind? lexeme <;> simp [htake, hdrop, hf]

theorem Takes.readPart (h : Takes kind? lexeme rest) :
    readPart (lexeme ++ rest) = lexeme ++ ImpLang.readPart rest := by
  rw [readPart_of_covers h.covers, h.sound]

theorem Halts.readPart (h : Halts s chars e?) : readPart chars = [] := by
  cases h with
  | finished => rw [ImpLang.readPart]
  | illegal hu =>
    rw [ImpLang.readPart]
    split
    · rfl
    · simp_all
  | invalid hc hu => rw [readPart_of_covers hc, hu]

theorem Reaches.readPart_append (h : Reaches s chars s' rest) (hh : Halts s' rest e?) :
    readPart chars ++ rest = chars := by
  induction h with
  | refl => rw [hh.readPart, List.nil_append]
  | step first _ ih => rw [first.readPart, List.append_assoc, ih hh]

/-- A scan takes the part that can be read off its text, and halts in front of the rest. -/
theorem scan_part (h : s.scan chars = (s', e?)) :
    ∃ rest, readPart chars ++ rest = chars ∧ Halts s' rest e? := by
  obtain ⟨rest, hr, hh⟩ := scan_eq_iff.1 h
  exact ⟨rest, hr.readPart_append hh, hh⟩

end Scanner
end ImpLang
