import ImpLang.CommandLine.Reply
import ImpLang.Proofs.Program.Bindings
import ImpLang.Proofs.Program.Messages
import ImpLang.Proofs.Session.Groups

/-! What a session writes. Each group writes the message of its error, or the variables that it leaves
in the order of their names, or nothing if it has no tokens; the session writes what its groups do, one
behind the other. -/

namespace ImpLang

def Lines.bytes (line : String) : List UInt8 := line.toUTF8.data.toList

/-- The line for a variable and its value. -/
def bindingLine (b : String × Int64) : String := b.1 ++ ": " ++ toString b.2.toInt ++ "\n"

/-- The line for the program that the tokens spell, where such lines are asked for. -/
def treeLine (showTree : Bool) (ts : List Token) : String :=
  match parse? ts with
  | some program => if showTree then program.term.compact ++ "\n" else ""
  | none => ""

/-- What the text of a group comes to from the variables `e`: the variables that it leaves, what is
written as output, and what is written as errors. -/
inductive GroupRuns (n : Nat) (showTree : Bool) (e : Environment) (source : String) :
    Environment → String → String → Prop
  | refused {err : LexicalError} (scanned : tokenize source = .error err) :
      GroupRuns n showTree e source e "" (err.message ++ "\n")
  | blank (scanned : tokenize source = .ok []) : GroupRuns n showTree e source e "" ""
  | failed {t : Token} {ts : List Token} {f : Environment} {err : ProgramError}
      (scanned : tokenize source = .ok (t :: ts))
      (ran : runSource n source e = some ⟨f, some err⟩) :
      GroupRuns n showTree e source f (treeLine showTree (t :: ts)) (err.message ++ "\n")
  | done {t : Token} {ts : List Token} {f : Environment} {es : List (String × Int64)}
      (scanned : tokenize source = .ok (t :: ts)) (ran : runSource n source e = some ⟨f, none⟩)
      (entries : f.Lists es) (sorted : es.Pairwise fun a b => Utf8.bytes a.1 < Utf8.bytes b.1) :
      GroupRuns n showTree e source f
        (treeLine showTree (t :: ts) ++ String.join (es.map bindingLine)) ""

/-- What groups come to, each on the variables that those before it leave. -/
inductive GroupsRun (n : Nat) (showTree : Bool) :
    Environment → List (List String) → Environment → String → String → Prop
  | nil (e : Environment) : GroupsRun n showTree e [] e "" ""
  | cons {e f f' : Environment} {g : List String} {gs : List (List String)}
      {output output' errors errors' : String}
      (first : GroupRuns n showTree e (Lines.text g) f output errors)
      (later : GroupsRun n showTree f gs f' output' errors') :
      GroupsRun n showTree e (g :: gs) f' (output ++ output') (errors ++ errors')

/-- The replies to reports, one after the other. -/
def replies (showTree : Bool) (reports : List Report) : CommandLine.Reply :=
  reports.foldr (fun report later => (CommandLine.Report.reply showTree report).andThen later) {}

variable {n : Nat} {showTree : Bool} {e f : Environment} {source output errors : String}

theorem replies_append (rs qs : List Report) :
    replies showTree (rs ++ qs) = (replies showTree rs).andThen (replies showTree qs) := by
  induction rs with
  | nil => simp [replies, CommandLine.Reply.andThen]
  | cons r rs ih =>
    rw [List.cons_append]
    simp only [replies, List.foldr_cons] at ih ⊢
    rw [ih]
    simp only [CommandLine.Reply.andThen, String.append_assoc]

theorem replies_exit (rs : List Report) : (replies showTree rs).exit = 0 := by
  induction rs with
  | nil => rfl
  | cons r rs ih => exact ih

theorem listBindings_eq {es : List (String × Int64)} (entries : f.Lists es)
    (sorted : es.Pairwise fun a b => Utf8.bytes a.1 < Utf8.bytes b.1) :
    CommandLine.listBindings f = String.join (es.map bindingLine) := by
  have hsorted : es.Pairwise fun a b => ¬ b.1 < a.1 :=
    sorted.imp fun h => lt_asymm (Utf8.bytes_lt_iff.1 h)
  rw [CommandLine.listBindings, ← entries.sorted (.refl es) hsorted]
  simp only [Decimal.write_eq_toString]
  rfl

theorem replies_singleton (r : Report) : replies showTree [r] =
    ⟨0, (CommandLine.Report.reply showTree r).output, (CommandLine.Report.reply showTree r).errors⟩ := by
  simp [replies, CommandLine.Reply.andThen]

theorem replies_failed {ts : List Token} {err : ProgramError} :
    replies showTree [.ran (parse? ts) ⟨f, some err⟩] =
      ⟨0, treeLine showTree ts, err.message ++ "\n"⟩ := by
  rw [replies_singleton]
  rfl

theorem replies_done {ts : List Token} :
    replies showTree [.ran (parse? ts) ⟨f, none⟩] =
      ⟨0, treeLine showTree ts ++ CommandLine.listBindings f, ""⟩ := by
  rw [replies_singleton]
  rfl

/-! What is written for a group is the reply to its report, if it has one. -/

theorem GroupRuns.replies_eq (h : GroupRuns n showTree e source f output errors) :
    ∃ report?, runGroup n e source = some (f, report?) ∧
      replies showTree report?.toList = ⟨0, output, errors⟩ := by
  cases h with
  | refused scanned => exact ⟨_, by rw [runGroup, scanned], replies_singleton _⟩
  | blank scanned => exact ⟨_, by rw [runGroup, scanned], rfl⟩
  | failed scanned ran =>
    exact ⟨_, by simp only [runGroup, scanned, ran, Option.map_some]; rfl, replies_failed⟩
  | done scanned ran entries sorted =>
    rw [← listBindings_eq entries sorted]
    exact ⟨_, by simp only [runGroup, scanned, ran, Option.map_some]; rfl, replies_done⟩

theorem groupRuns_of_runGroup {report? : Option Report}
    (h : runGroup n e source = some (f, report?)) :
    GroupRuns n showTree e source f (replies showTree report?.toList).output
      (replies showTree report?.toList).errors := by
  unfold runGroup at h
  split at h
  · rename_i err scanned
    cases h
    rw [Option.toList_some, replies_singleton]
    exact .refused scanned
  · rename_i scanned
    cases h
    exact .blank scanned
  · rename_i t ts scanned
    obtain ⟨⟨f', error?⟩, ran, heq⟩ := Option.map_eq_some_iff.1 h
    cases heq
    cases error? with
    | some err =>
      rw [Option.toList_some, replies_failed]
      exact .failed scanned ran
    | none =>
      have sorted : f'.bindings.Pairwise fun a b => Utf8.bytes a.1 < Utf8.bytes b.1 :=
        f'.bindings_ordered.imp Utf8.bytes_lt_iff.2
      rw [Option.toList_some, replies_done, listBindings_eq f'.lists_bindings sorted]
      exact .done scanned ran f'.lists_bindings sorted

theorem GroupsRun.replies_eq {gs : List (List String)}
    (h : GroupsRun n showTree e gs f output errors) :
    ∃ reports, runGroups n e gs = some (f, reports) ∧
      replies showTree reports = ⟨0, output, errors⟩ := by
  induction h with
  | nil e => exact ⟨[], rfl, rfl⟩
  | cons first later ih =>
    obtain ⟨report?, hfirst, hreply⟩ := first.replies_eq
    obtain ⟨reports, hlater, hreplies⟩ := ih
    refine ⟨report?.toList ++ reports, by simp [runGroups_cons, hfirst, hlater], ?_⟩
    rw [replies_append, hreply, hreplies]
    rfl

theorem groupsRun_of_runGroups {gs : List (List String)} {reports : List Report}
    (h : runGroups n e gs = some (f, reports)) :
    GroupsRun n showTree e gs f (replies showTree reports).output
      (replies showTree reports).errors := by
  induction gs generalizing e reports with
  | nil =>
    cases h
    exact .nil f
  | cons g gs ih =>
    rw [runGroups_cons] at h
    obtain ⟨⟨f', report?⟩, hfirst, h⟩ := Option.bind_eq_some_iff.1 h
    obtain ⟨⟨f'', later⟩, hlater, heq⟩ := Option.map_eq_some_iff.1 h
    cases heq
    rw [replies_append]
    exact .cons (groupRuns_of_runGroup hfirst) (ih hlater)

theorem Lines.decode?_bytes (line : String) : Lines.decode? (Lines.bytes line) = some line := by
  have hb : (⟨(Lines.bytes line).toArray⟩ : ByteArray) = line.toUTF8 := by simp [Lines.bytes]
  rw [Lines.decode?, hb, String.fromUTF8?, String.toUTF8_eq_toByteArray, dif_pos line.isValidUTF8]
  rfl

theorem interact_bytes (n : Nat) (showTree : Bool) (s : Session) (lines : List String) :
    CommandLine.interact n showTree s (lines.map Lines.bytes) =
      (s.enterAll n lines).map fun r => replies showTree r.2 := by
  induction lines generalizing s with
  | nil => rfl
  | cons line lines ih =>
    rw [List.map_cons, CommandLine.interact, Lines.decode?_bytes, Session.enterAll_cons]
    simp only [ih]
    rcases s.enter n line with _ | ⟨s', report?⟩
    · rfl
    · rcases h : s'.enterAll n lines with _ | r
      · simp [h]
      · cases report? <;> simp [h, replies]

/-- A session runs the groups among its lines in order, on the variables it began with: it ends with
their environment and reports what they report, writes what they write and no more, and exits without
failure. As no two errors have the same message, what is written says which error each group ended
in, and where. -/
theorem session_runs_groups (n : Nat) (lines : List String) (e : Environment) :
    (Session.enterAll n ⟨{}, e⟩ lines).map (fun r => (r.1.environment, r.2)) =
      runGroups n e (groupsFrom [] lines) ∧
      (∀ showTree r, CommandLine.interact n showTree ⟨{}, e⟩ (lines.map Lines.bytes) = some r ↔
        r.exit = 0 ∧ ∃ f reports, runGroups n e (groupsFrom [] lines) = some (f, reports) ∧
          GroupsRun n showTree e (groupsFrom [] lines) f r.output r.errors) ∧
      Function.Injective ProgramError.message := by
  have h := (Session.holds_nothing e).enterAll (n := n) lines
  refine ⟨h, fun showTree r => ?_, fun _ _ => ProgramError.message_inj⟩
  have hwritten : CommandLine.interact n showTree ⟨{}, e⟩ (lines.map Lines.bytes) =
      (runGroups n e (groupsFrom [] lines)).map fun q => replies showTree q.2 := by
    rw [interact_bytes, ← h, Option.map_map]
    rfl
  rw [hwritten, Option.map_eq_some_iff]
  refine ⟨?_, ?_⟩
  · rintro ⟨⟨f, reports⟩, hrun, rfl⟩
    exact ⟨replies_exit reports, f, reports, hrun, groupsRun_of_runGroups hrun⟩
  · rintro ⟨hexit, f, reports, hrun, hgroups⟩
    obtain ⟨reports', hrun', hreplies⟩ := hgroups.replies_eq
    cases hrun.symm.trans hrun'
    exact ⟨(f, reports), hrun, by rw [hreplies, ← hexit]⟩

end ImpLang
