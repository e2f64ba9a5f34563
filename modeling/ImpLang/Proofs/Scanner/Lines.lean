import ImpLang.Proofs.Scanner.Feeds

/-! Lines fed one by one and lines fed at once. No lexeme but a run of blanks goes on behind the
end of a line, so a text may be cut there: the scanner comes to the same state and reports the
same, or it fails in the same place with what it had read before. -/

namespace ImpLang
namespace Scanner

variable {a : String}

/-- Goes on with the scanner that a feed leaves, unless the feed failed. -/
def goOn (r : Scanner × FeedStatus) (next : Scanner → Scanner × FeedStatus) :
    Scanner × FeedStatus :=
  match r with
  | (s, .failed e) => (s, .failed e)
  | (s, _) => next s

theorem feed_append (ha : EndsLine a.toList) (s : Scanner) (b : String) :
    s.feed (a ++ b) = goOn (s.feed a) fun t => t.feed b := by
  rcases hf : s.feed a with ⟨t, status⟩
  rcases feed_cases hf with ⟨e, hscan, rfl⟩ | ⟨hscan, rfl⟩
  · simp only [feed, String.toList_append, scan_append_error ha hscan, goOn]
  · have hfeed : s.feed (a ++ b) = t.feed b := by
      simp only [feed, String.toList_append, scan_append ha hscan]
    rw [hfeed]
    split <;> rfl

/-- Feeds lines in order, up to the first that fails. -/
def feedLines (s : Scanner) : List String → Scanner × FeedStatus
  | [] => s.feed ""
  | line :: lines => goOn (s.feed (line ++ "\n")) fun t => t.feedLines lines

theorem endsLine_line (line : String) : EndsLine (line ++ "\n").toList :=
  Or.inr ⟨line.toList, by simp⟩

theorem feedLines_eq_feed (s : Scanner) (lines : List String) :
    s.feedLines lines = s.feed (String.join (lines.map (· ++ "\n"))) := by
  induction lines generalizing s with
  | nil => rfl
  | cons line lines ih =>
    rw [feedLines, funext ih, List.map_cons, String.join_cons,
      feed_append (endsLine_line line)]

/-- A feed of a text that ends a line and of a second text is the feed of the first and then,
unless it fails, of the second, whatever the scanner had read before; so lines may be fed one by
one or at once. -/
theorem feed_line_then_text :
    (∀ (s : Scanner) (a b : String), s.feed (a ++ "\n" ++ b) =
      match s.feed (a ++ "\n") with
      | (t, .failed e) => (t, .failed e)
      | (t, _) => t.feed b) ∧
      ∀ (s : Scanner) (lines : List String),
        s.feedLines lines = s.feed (String.join (lines.map (· ++ "\n"))) :=
  ⟨fun s a b => feed_append (endsLine_line a) s b, feedLines_eq_feed⟩

-- inside a line a text may not be cut
example : (({} : Scanner).feed "while").1.tokens.size = 1 ∧
    ((({} : Scanner).feed "whi").1.feed "le").1.tokens.size = 2 := by decide +kernel

end Scanner
end ImpLang
