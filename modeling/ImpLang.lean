import ImpLang.Main
import ImpLang.Parser.Bound
import ImpLang.Parser.Trial
import ImpLang.Program.Bound
import ImpLang.Proofs.Grammar.Descent
import ImpLang.Proofs.Grammar.Longest
import ImpLang.Proofs.Grammar.Truncation
import ImpLang.Proofs.Parser.Advance
import ImpLang.Proofs.Parser.Behaviour
import ImpLang.Proofs.Parser.Choice
import ImpLang.Proofs.Parser.Consumption
import ImpLang.Proofs.Parser.Nesting
import ImpLang.Proofs.Parser.Repetition
import ImpLang.Proofs.Program.Arithmetic
import ImpLang.Proofs.Program.Bindings
import ImpLang.Proofs.Program.Conditions
import ImpLang.Proofs.Program.Continuation
import ImpLang.Proofs.Program.Counting
import ImpLang.Proofs.Program.Course
import ImpLang.Proofs.Program.Independence
import ImpLang.Proofs.Program.Joining
import ImpLang.Proofs.Program.Operators
import ImpLang.Proofs.Program.RoundTrip
import ImpLang.Proofs.Scanner.Feeds
import ImpLang.Proofs.Scanner.Held
import ImpLang.Proofs.Scanner.Judgement
import ImpLang.Proofs.Scanner.Layout
import ImpLang.Proofs.Scanner.Lines
import ImpLang.Proofs.Scanner.Munch
import ImpLang.Proofs.Scanner.Separation
import ImpLang.Proofs.Session.Transcript
