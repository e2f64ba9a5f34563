import ImpLang.CommandLine.Reply

/-! The program `imp`. -/

open ImpLang ImpLang.CommandLine

/-- More turns than any loop takes that ends. -/
def turns : Nat := 4611686018427387904

/-- The number of a system error is given as it is or negated. -/
def readFault : IO.Error → ReadFault
  | .noFileOrDirectory .. => .notFound
  | .inappropriateType _ code _ => if code = 21 ∨ code = -21 then .isDirectory else .notDirectory
  | .permissionDenied .. => .system "Permission denied" 13
  | .invalidArgument .. => .nameTooLong
  | _ => .system "Input/output error" 5

def readFile (path : String) : IO (Except ReadFault ByteArray) := do
  try
    return .ok (← IO.FS.readBinFile path)
  catch e => return .error (readFault e)

def main (arguments : List String) : IO UInt32 := do
  let (contents, input) ←
    match readArguments arguments with
    | .ok (.run (some path) _) => pure (← readFile path, ByteArray.empty)
    | .ok (.run none _) => pure (.error .notFound, ← (← IO.getStdin).readBinToEnd)
    | _ => pure (.error .notFound, ByteArray.empty)
  match respond turns (fun _ => contents) arguments input with
  | none => return 1
  | some reply =>
    (← IO.getStdout).putStr reply.output
    (← IO.getStderr).putStr reply.errors
    return reply.exit
