import ImpLang.CommandLine.Arguments
import ImpLang.Program.Term
import ImpLang.Session
import ImpLang.Text.Lines

/-! What the program writes and how it exits, as a function of its arguments, the files it can read and its
standard input. With a file it runs that program; without one it takes lines from standard input. -/

namespace ImpLang.CommandLine

inductive ReadFault where
  /-- A refusal by the system, with its wording and number. -/
  | system (reason : String) (code : Nat)
  | notUtf8
  | nulInName

namespace ReadFault

def notFound : ReadFault := .system "No such file or directory" 2

def notDirectory : ReadFault := .system "Not a directory" 20

def isDirectory : ReadFault := .system "Is a directory" 21

def nameTooLong : ReadFault := .system "File name too long" 36

def message : ReadFault → String
  | system reason code => reason ++ " (os error " ++ toString code ++ ")"
  | notUtf8 => "stream did not contain valid UTF-8"
  | nulInName => "file name contained an unexpected NUL byte"

end ReadFault

/-- How the contents of files are had. -/
abbrev Files := String → Except ReadFault ByteArray

def Files.text (files : Files) (path : String) : Except ReadFault String := do
  match String.fromUTF8? (← files path) with
  | some text => return text
  | none => throw .notUtf8

def unreadable (path : String) (f : ReadFault) : String := path ++ ": " ++ f.message

structure Reply where
  exit : UInt32 := 0
  output : String := ""
  errors : String := ""

namespace Reply

/-- Both replies, one after the other, ending with the second's exit. -/
def andThen (r s : Reply) : Reply := ⟨s.exit, r.output ++ s.output, r.errors ++ s.errors⟩

def failure (message : String) : Reply := { exit := 1, errors := message ++ "\n" }

end Reply

def listBindings (e : Environment) : String :=
  String.join (e.bindings.map fun b => b.1 ++ ": " ++ Decimal.write b.2 ++ "\n")

/-- Runs the program in a file. -/
def script (n : Nat) (files : Files) (showTree : Bool) (path : String) : Option Reply :=
  match files.text path with
  | .error f => some (.failure (unreadable path f))
  | .ok source =>
    match tokenize source with
    | .error e => some (.failure e.message)
    | .ok tokens =>
      let tree := match parse? tokens with
        | some program => if showTree then "Parsed result:\n\n" ++ program.term.laidOut ++ "\n\n" else ""
        | none => ""
      (runTokens n tokens {}).map fun ending =>
        Reply.andThen { output := tree } <|
          match ending.error? with
          | some e => .failure e.message
          | none => { output := "Final variable values:\n" ++ listBindings ending.environment }

/-- What is written for one report of a session. -/
def Report.reply (showTree : Bool) : Report → Reply
  | .refused e => { errors := e.message ++ "\n" }
  | .ran program? ending =>
    let tree := match program? with
      | some program => if showTree then program.term.compact ++ "\n" else ""
      | none => ""
    match ending.error? with
    | some e => { output := tree, errors := e.message ++ "\n" }
    | none => { output := tree ++ listBindings ending.environment }

/-- Takes lines until they end or one is not text. -/
def interact (n : Nat) (showTree : Bool) (s : Session) : List (List UInt8) → Option Reply
  | [] => some {}
  | line :: lines =>
    match Lines.decode? line with
    | none => some (.failure ("Error: " ++ ReadFault.notUtf8.message))
    | some text => do
      let (s, report?) ← s.enter n text
      let later ← interact n showTree s lines
      return (match report? with
        | some r => (Report.reply showTree r).andThen later
        | none => later)

def versionText : String := "imp 0.1.0\n"

def helpText : String := "\n".intercalate [
  "Runs programs written in imp, a small imperative language",
  "",
  "Usage: imp [OPTIONS] [FILE]",
  "",
  "Arguments:",
  "  [FILE]  Program to run. Starts an interactive session when omitted",
  "",
  "Options:",
  "      --ast      Print the parsed program before evaluating it",
  "  -h, --help     Print help",
  "  -V, --version  Print version",
  ""]

/-- The whole program, with at most `n` turns in each `while` loop. -/
def respond (n : Nat) (files : Files) (arguments : List String) (input : ByteArray) : Option Reply :=
  match readArguments arguments with
  | .error e => some { exit := 2, errors := e.message }
  | .ok .help => some { output := helpText }
  | .ok .version => some { output := versionText }
  | .ok (.run (some path) showTree) => script n files showTree path
  | .ok (.run none showTree) => interact n showTree {} (Lines.split input)

end ImpLang.CommandLine
