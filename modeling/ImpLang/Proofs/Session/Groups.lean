import ImpLang.Proofs.Scanner.Run
import ImpLang.Session

/-! A session as a sequence of whole texts. The lines are cut into groups, each of which ends
where its text has an error or leaves nothing open; the session does what running the groups in
order does. Between two lines it has scanned the text of the group so far, which is what lets the
incremental scan answer for the whole text. -/

namespace ImpLang

/-- Lines as one text, each with its line end. -/
def Lines.text (lines : List String) : String := String.join (lines.map (· ++ "\n"))

/-- Do the words that open something not outnumber those that close it? -/
def nothingOpen (ts : List Token) : Bool :=
  ts.countP (Token.isReserved "(") ≤ ts.countP (Token.isReserved ")") &&
    ts.countP (fun t => ["if", "while", "repeat"].any t.isReserved) ≤
      ts.countP (Token.isReserved "end")

/-- Is a group with this text over? -/
def endsGroup (source : String) : Bool :=
  match tokenize source with
  | .error _ => true
  | .ok ts => nothingOpen ts

/-- The groups that end among the lines, of which the first begins with the lines held. -/
def groupsFrom : List String → List String → List (List String)
  | _, [] => []
  | held, line :: lines =>
    if endsGroup (Lines.text (held ++ [line])) then (held ++ [line]) :: groupsFrom [] lines
    else groupsFrom (held ++ [line]) lines

/-- Runs the text of a group: its error is reported, a text without tokens is not, and any other
text is run. -/
def runGroup (n : Nat) (e : Environment) (source : String) : Option (Environment × Option Report) :=
  match tokenize source with
  | .error err => some (e, some (.refused err))
  | .ok [] => some (e, none)
  | .ok (t :: ts) =>
    (runSource n source e).map fun ending =>
      (ending.environment, some (.ran (parse? (t :: ts)) ending))

def runGroups (n : Nat) (e : Environment) : List (List String) → Option (Environment × List Report)
  | [] => some (e, [])
  | g :: gs => do
    let (e, report?) ← runGroup n e (Lines.text g)
    let (e, reports) ← runGroups n e gs
    return (e, report?.toList ++ reports)

theorem runGroups_cons (n : Nat) (e : Environment) (g : List String) (gs : List (List String)) :
    runGroups n e (g :: gs) = (runGroup n e (Lines.text g)).bind fun r =>
      (runGroups n r.1 gs).map fun q => (q.1, r.2.toList ++ q.2) := by
  rw [runGroups]
  rcases runGroup n e (Lines.text g) with _ | r
  · rfl
  · rcases h : runGroups n r.1 gs with _ | q <;> simp [h]

theorem Lines.text_concat (held : List String) (line : String) :
    (Lines.text (held ++ [line])).toList = (Lines.text held).toList ++ (line ++ "\n").toList := by
  simp [Lines.text, String.toList_join]

theorem Lines.endsLine_text (lines : List String) : Scanner.EndsLine (Lines.text lines).toList := by
  rcases List.eq_nil_or_concat lines with rfl | ⟨held, line, rfl⟩
  · exact Or.inl rfl
  · refine Or.inr ⟨(Lines.text held).toList ++ line.toList, ?_⟩
    rw [List.concat_eq_append, Lines.text_concat]
    simp

namespace Session

variable {n : Nat} {s : Session} {held : List String} {line : String}

/-- The session has scanned the lines held, and has nothing to say about them yet. -/
def Holds (held : List String) (s : Session) : Prop :=
  ({} : Scanner).scan (Lines.text held).toList = (s.scanner, none)

theorem holds_nothing (e : Environment) : Holds [] ⟨{}, e⟩ := Scanner.scan_nil {}

theorem Holds.scan (h : Holds held s) (line : String) :
    ({} : Scanner).scan (Lines.text (held ++ [line])).toList =
      s.scanner.scan (line ++ "\n").toList := by
  rw [Lines.text_concat]
  exact Scanner.scan_append (Lines.endsLine_text held) h _

theorem open_iff {t : Scanner} (h : t.Levelled) :
    (0 < t.parenLevel ∨ 0 < t.blockLevel) ↔ nothingOpen t.tokens.toList = false := by
  have hb : t.blockLevel =
      (t.tokens.toList.countP (fun u => ["if", "while", "repeat"].any u.isReserved) : Int) -
        t.tokens.toList.countP (Token.isReserved "end") := h.blocks
  rw [h.parens, hb, Bool.eq_false_iff]
  simp only [nothingOpen, ne_eq, Bool.and_eq_true, decide_eq_true_eq]
  omega

/-- A line after which the group goes on is scanned and held. -/
theorem enter_within (h : Holds held s) (hg : endsGroup (Lines.text (held ++ [line])) = false) :
    ∃ t, s.enter n line = some (⟨t, s.environment⟩, none) ∧
      Holds (held ++ [line]) ⟨t, s.environment⟩ := by
  unfold endsGroup at hg
  split at hg
  · cases hg
  · rename_i ts hts
    obtain ⟨t, ht, rfl⟩ := tokenize_eq_ok.1 hts
    have hopen := (open_iff (Scanner.levelled_empty.scan ht)).2 hg
    refine ⟨t, ?_, ht⟩
    rw [h.scan line] at ht
    simp only [enter, Scanner.feed, ht, if_pos hopen]

/-- A line that ends the group has its text run, and the session begins anew. -/
theorem enter_last (h : Holds held s) (hg : endsGroup (Lines.text (held ++ [line])) = true) :
    s.enter n line = (runGroup n s.environment (Lines.text (held ++ [line]))).map fun r =>
      (⟨{}, r.1⟩, r.2) := by
  cases hts : tokenize (Lines.text (held ++ [line])) with
  | error e =>
    obtain ⟨t, ht⟩ := tokenize_eq_error.1 hts
    rw [h.scan line] at ht
    simp only [enter, Scanner.feed, ht, runGroup, hts, Option.map_some]
  | ok ts =>
    obtain ⟨t, ht, rfl⟩ := tokenize_eq_ok.1 hts
    have hclosed : ¬ (0 < t.parenLevel ∨ 0 < t.blockLevel) := by
      rw [open_iff (Scanner.levelled_empty.scan ht)]
      simpa [endsGroup, hts] using hg
    rw [h.scan line] at ht
    simp only [enter, Scanner.feed, ht, if_neg hclosed, Scanner.isEmpty, runGroup, runSource, hts]
    rcases ht' : t.tokens.toList with _ | ⟨u, us⟩
    · simp [Array.toList_eq_nil_iff.1 ht']
    · have hne : t.tokens.isEmpty = false := by
        rw [Array.isEmpty_eq_false_iff]
        intro hnil
        simp [hnil] at ht'
      simp [hne, Option.map_map, Function.comp_def]

theorem enterAll_cons (n : Nat) (s : Session) (line : String) (lines : List String) :
    s.enterAll n (line :: lines) = (s.enter n line).bind fun r =>
      (r.1.enterAll n lines).map fun q => (q.1, r.2.toList ++ q.2) := by
  rw [enterAll]
  rcases s.enter n line with _ | r
  · rfl
  · rcases h : r.1.enterAll n lines with _ | q <;> simp [h]

/-- From lines held, the session goes on as the groups that begin with them do. -/
theorem Holds.enterAll (h : Holds held s) (lines : List String) :
    (s.enterAll n lines).map (fun r => (r.1.environment, r.2)) =
      runGroups n s.environment (groupsFrom held lines) := by
  induction lines generalizing held s with
  | nil => rfl
  | cons line lines ih =>
    cases hg : endsGroup (Lines.text (held ++ [line])) with
    | false =>
      obtain ⟨t, ht, hh⟩ := enter_within (n := n) h hg
      rw [groupsFrom, hg, enterAll_cons, ht]
      simpa [Function.comp_def] using ih hh
    | true =>
      rw [groupsFrom, hg, if_pos rfl, enterAll_cons, runGroups_cons, enter_last h hg,
        Option.bind_map, Option.map_bind]
      congr 1
      funext r
      have hi := ih (holds_nothing r.1)
      simp only [Function.comp_apply, Option.map_map] at hi ⊢
      rw [← hi, Option.map_map]
      rfl

end Session

end ImpLang
