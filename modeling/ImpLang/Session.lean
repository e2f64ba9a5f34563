import ImpLang.Program.Run

/-! An interactive session takes a line at a time. Lines are gathered until parentheses and blocks are closed;
the tokens are then run in the environment of the session. A text that cannot be scanned is given up, and a
text without tokens does nothing. -/

namespace ImpLang

structure Session where
  scanner : Scanner := {}
  environment : Environment := {}

/-- What a session reports: a text was refused, or its tokens were run, as the program that they spell if they
spell one. -/
inductive Report where
  | refused (error : LexicalError)
  | ran (program? : Option Statement) (ending : Ending)

namespace Session

/-- Takes one line, given without its line end. -/
def enter (n : Nat) (s : Session) (line : String) : Option (Session × Option Report) :=
  match s.scanner.feed (line ++ "\n") with
  | (scanner, .continuationNeeded) => some ({ s with scanner }, none)
  | (_, .failed e) => some ({ s with scanner := {} }, some (.refused e))
  | (scanner, .complete) =>
    if scanner.isEmpty then some ({ s with scanner := {} }, none)
    else
      let tokens := scanner.tokens.toList
      (runTokens n tokens s.environment).map fun ending =>
        ({ environment := ending.environment }, some (.ran (parse? tokens) ending))

/-- Takes lines in order and gathers the reports. -/
def enterAll (n : Nat) (s : Session) : List String → Option (Session × List Report)
  | [] => some (s, [])
  | line :: lines => do
    let (s, report?) ← s.enter n line
    let (s, reports) ← s.enterAll n lines
    return (s, report?.toList ++ reports)

end Session
end ImpLang
