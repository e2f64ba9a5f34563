import ImpLang.Program.Exec
import ImpLang.Program.Grammar
import ImpLang.Scanner.Basic

/-! Running a text: its tokens, the program they spell, and a run of that program. Nothing is run unless the
whole text is a program. -/

namespace ImpLang

inductive ProgramError where
  | lexical (error : LexicalError)
  | notAProgram
  | fault (fault : Fault)
  deriving DecidableEq

def ProgramError.message : ProgramError → String
  | lexical e => e.message
  | notAProgram => "Parse error!"
  | fault f => f.message

/-- Where running a text ends: the variables it leaves, and why it failed, if it did. -/
structure Ending where
  environment : Environment
  error? : Option ProgramError := none
  deriving DecidableEq

def Halt.ending (h : Halt) : Ending := ⟨h.environment, h.fault?.map .fault⟩

def runTokens (n : Nat) (tokens : List Token) (e : Environment) : Option Ending :=
  match parse? tokens with
  | none => some ⟨e, some .notAProgram⟩
  | some program => (program.exec n e).map Halt.ending

def runSource (n : Nat) (source : String) (e : Environment) : Option Ending :=
  match tokenize source with
  | .error err => some ⟨e, some (.lexical err)⟩
  | .ok tokens => runTokens n tokens e

end ImpLang
