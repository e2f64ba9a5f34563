import ImpLang.Text.Plain
import ImpLang.Text.Similarity

/-! Command-line arguments: at most one file, and flags before or after it. Arguments are read in order, and
the first that decides the outcome does so at once. A file is settled by the next argument or by the end of
the arguments; a usage line after an error names what was settled before it. Messages show arguments as plain
text. -/

namespace ImpLang.CommandLine

inductive Flag where
  | ast
  | help
  | version
  deriving DecidableEq

namespace Flag

def name : Flag → String
  | ast => "ast"
  | help => "help"
  | version => "version"

def long (f : Flag) : String := "--" ++ f.name

def all : List Flag := [ast, help, version]

def ofName? (name : String) : Option Flag := all.find? (·.name == name)

def ofLetter? : Char → Option Flag
  | 'h' => some help
  | 'V' => some version
  | _ => none

/-- The flag that a misspelt name comes closest to, when it is close enough. -/
def similar? (name : String) : Option Flag :=
  (all.filter fun f => jaro name f.name > 0.7).foldl
    (fun best f =>
      match best with
      | some b => if jaro name f.name ≥ jaro name b.name then some f else some b
      | none => some f)
    none

end Flag

/-- What a usage line shows: everything that may be given, what was given, or the file and `--ast` as a choice
after other flags. -/
inductive Usage where
  | general
  | given (flags : List Flag) (file : Bool)
  | choice (flags : List Flag)
  deriving DecidableEq

def Usage.line (u : Usage) : String :=
  let words := match u with
    | general => ["[OPTIONS]", "[FILE]"]
    | given flags file => flags.eraseDups.map Flag.long ++ [if file then "<FILE>" else "[FILE]"]
    | choice flags => flags.map Flag.long ++ ["<FILE|--ast>"]
  " ".intercalate ("imp" :: words)

inductive Tip where
  | asValue (argument : String)
  | similar (flag : Flag)

def Tip.text : Tip → String
  | asValue a => "tip: to pass '" ++ plain a ++ "' as a value, use '-- " ++ plain a ++ "'"
  | similar f => "tip: a similar argument exists: '" ++ f.long ++ "'"

inductive ArgumentError where
  | unexpected (argument : String) (tip? : Option Tip) (usage : Usage)
  | repeated (flag : Flag)
  | valued (flag : Flag) (value : String) (usage : Usage)
  | emptyFile

namespace ArgumentError

def text : ArgumentError → String
  | unexpected a _ _ => "unexpected argument '" ++ plain a ++ "' found"
  | repeated f => "the argument '" ++ f.long ++ "' cannot be used multiple times"
  | valued f v _ =>
    "unexpected value '" ++ plain v ++ "' for '" ++ f.long ++ "' found; no more were expected"
  | emptyFile => "a value is required for '[FILE]' but none was supplied"

def tip? : ArgumentError → Option Tip
  | unexpected _ t _ => t
  | _ => none

def usage? : ArgumentError → Option Usage
  | unexpected _ _ u => some u
  | repeated _ => some .general
  | valued _ _ u => some u
  | emptyFile => none

def message (e : ArgumentError) : String :=
  "error: " ++ e.text ++ "\n\n"
    ++ (match e.tip? with
      | some t => "  " ++ t.text ++ "\n\n"
      | none => "")
    ++ (match e.usage? with
      | some u => "Usage: " ++ u.line ++ "\n\n"
      | none => "")
    ++ "For more information, try '--help'.\n"

end ArgumentError

/-- What the arguments ask for. -/
inductive Invocation where
  | run (file? : Option String) (showTree : Bool)
  | help
  | version

/-- The arguments read so far. -/
structure Given where
  flags : List Flag := []
  file? : Option String := none
  settled : Bool := false

namespace Given

def isNone (g : Given) : Bool := g.flags.isEmpty && !g.settled

def usage (g : Given) : Usage := if g.isNone then .general else .given g.flags g.settled

/-- A usage line about one more flag. -/
def usageWith (g : Given) (f : Flag) : Usage := .given (g.flags ++ [f]) g.settled

/-- A usage line about a flag that was given a value. -/
def usageValued (g : Given) (f : Flag) : Usage :=
  if g.isNone then .given [f] false else .choice ([f].filter (· != .ast))

/-- The file becomes part of what was given, whatever its name. -/
def settleAny (g : Given) : Given := { g with settled := g.file?.isSome }

def settle (g : Given) : Except ArgumentError Given :=
  if g.file? = some "" ∧ !g.settled then .error .emptyFile else .ok g.settleAny

/-- Takes a flag; asking for help or the version decides the outcome. -/
def takeFlag (g : Given) (f : Flag) : Except ArgumentError (Given ⊕ Invocation) := do
  let g ← g.settle
  match f with
  | .help => return .inr .help
  | .version => return .inr .version
  | .ast =>
    if g.flags.contains .ast then throw (.repeated .ast)
    return .inl { g with flags := g.flags ++ [.ast] }

/-- Takes an argument that starts with two dashes, split into its name and the value after `=`. -/
def takeLong (g : Given) (name : String) (value? : Option String) :
    Except ArgumentError (Given ⊕ Invocation) :=
  match Flag.ofName? name, value? with
  | some f, none => g.takeFlag f
  | some f, some v => .error (.valued f v (g.usageValued f))
  | none, _ =>
    let g := g.settleAny
    match Flag.similar? name with
    | some f => .error (.unexpected ("--" ++ name) (some (.similar f)) (g.usageWith f))
    | none => .error (.unexpected ("--" ++ name) (some (.asValue ("--" ++ name))) g.usage)

/-- Takes the letter after a single dash. Every letter that is known decides the outcome. -/
def takeLetter (g : Given) (c : Char) : Except ArgumentError (Given ⊕ Invocation) :=
  match Flag.ofLetter? c with
  | some f => g.takeFlag f
  | none =>
    let argument := "-" ++ String.singleton c
    .error (.unexpected argument (some (.asValue argument)) .general)

def takeFile (g : Given) (a : String) : Except ArgumentError Given :=
  match g.file? with
  | none => .ok { g with file? := some a }
  | some _ => .error (.unexpected a none .general)

def finish (g : Given) : Except ArgumentError Invocation := do
  let g ← g.settle
  return .run g.file? (g.flags.contains .ast)

def takeFiles (g : Given) : List String → Except ArgumentError Invocation
  | [] => g.finish
  | a :: rest => do (← g.takeFile a).takeFiles rest

end Given

/-- The shapes of an argument. -/
inductive Shape where
  | endOfFlags
  | long (name : String) (value? : Option String)
  | letter (c : Char)
  | file

/-- A lone dash is a file name. The name of a flag ends before the first equals sign, and may be empty. -/
def shape (argument : String) : Shape :=
  match argument.toList with
  | ['-', '-'] => .endOfFlags
  | '-' :: '-' :: cs =>
    .long (String.ofList (cs.takeWhile (· != '=')))
      (match cs.dropWhile (· != '=') with
        | [] => none
        | _ :: value => some (String.ofList value))
  | '-' :: c :: _ => .letter c
  | _ => .file

def Given.take (g : Given) : List String → Except ArgumentError Invocation
  | [] => g.finish
  | a :: rest =>
    let step (r : Except ArgumentError (Given ⊕ Invocation)) : Except ArgumentError Invocation := do
      match ← r with
      | .inl g => g.take rest
      | .inr i => return i
    match shape a with
    | .endOfFlags => g.takeFiles rest
    | .long name value? => step (g.takeLong name value?)
    | .letter c => step (g.takeLetter c)
    | .file => do (← g.takeFile a).take rest

def readArguments (arguments : List String) : Except ArgumentError Invocation := Given.take {} arguments

end ImpLang.CommandLine
