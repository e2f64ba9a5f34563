/-! Text for a place that is not a terminal: control characters and control sequences are left out. A sequence
begins with an escape character and ends as its kind says. White space shows even inside a sequence that is not
a string; then what follows shows too, until a character that does not show by itself, where the sequence goes
on. What is left holds no control character but white space, and text that holds none stays as it is. -/

namespace ImpLang.Plain

/-- How far a control sequence has got: `ground` is outside of any, `device…` the head of a string that names
a device function first, `command` a string that a bell ends. -/
inductive Phase where
  | ground
  | escape
  | intermediate
  | control
  | deviceEntry
  | deviceParameters
  | deviceIntermediate
  | string
  | command
  deriving DecidableEq

def isAscii (c : Char) : Bool := c.toNat < 0x80

def within (low high : Nat) (c : Char) : Bool := low ≤ c.toNat && c.toNat ≤ high

/-- A string ends at the byte 9C, also where it is part of a longer character. -/
def endsString (c : Char) : Bool := (String.singleton c).toUTF8.toList.contains 0x9C

/-- The phase after a character. -/
def next (p : Phase) (c : Char) : Phase :=
  if c = '\x18' ∨ c = '\x1a' then .ground
  else if c = '\x1b' then .escape
  else
    match p with
    | .ground => .ground
    | .escape =>
      if within 0x20 0x2F c then .intermediate
      else if c = '[' then .control
      else if c = ']' then .command
      else if c = 'P' then .deviceEntry
      else if c = 'X' ∨ c = '^' ∨ c = '_' then .string
      else if within 0x30 0x7E c then .ground
      else .escape
    | .intermediate => if within 0x30 0x7E c then .ground else .intermediate
    | .control => if within 0x40 0x7E c then .ground else .control
    | .deviceEntry =>
      if within 0x20 0x2F c then .deviceIntermediate
      else if within 0x30 0x3F c then .deviceParameters
      else if within 0x40 0x7E c then .string
      else .deviceEntry
    | .deviceParameters =>
      if within 0x20 0x2F c then .deviceIntermediate
      else if within 0x3C 0x7E c then .string
      else .deviceParameters
    | .deviceIntermediate => if within 0x30 0x7E c then .string else .deviceIntermediate
    | .string => if endsString c then .ground else .string
    | .command => if c = '\x07' then .ground else .command

def isWhiteControl (c : Char) : Bool := c == '\t' || c == '\n' || c == '\x0c' || c == '\r'

def showsAlone (c : Char) : Bool := isWhiteControl c || (0x20 ≤ c.toNat && c != '\x7f')

def shows (p : Phase) (c : Char) : Bool :=
  match p with
  | .ground => showsAlone c
  | .escape | .intermediate | .control => isWhiteControl c
  | _ => false

/-- What is left from a phase on; `resumed` says that the character before was shown. -/
def strip (p : Phase) (resumed : Bool) : List Char → List Char
  | [] => []
  | c :: cs =>
    if resumed && showsAlone c then c :: strip (if isAscii c then p else .ground) true cs
    else if shows p c then c :: strip (next p c) true cs
    else strip (next p c) false cs

theorem showsAlone_of_shows {p : Phase} {c : Char} (h : shows p c = true) : showsAlone c = true := by
  cases p <;> simp_all [shows, showsAlone]

/-- Nothing is left that would have to be left out. -/
theorem showsAlone_of_mem_strip {p : Phase} {resumed : Bool} {cs : List Char} {c : Char}
    (h : c ∈ strip p resumed cs) : showsAlone c = true := by
  induction cs generalizing p resumed with
  | nil => simp [strip] at h
  | cons d cs ih =>
    rw [strip] at h
    split at h
    · next hd =>
      rcases List.mem_cons.1 h with rfl | h
      · exact (Bool.and_eq_true_iff.1 hd).2
      · exact ih h
    · split at h
      · next hd =>
        rcases List.mem_cons.1 h with rfl | h
        · exact showsAlone_of_shows hd
        · exact ih h
      · exact ih h

/-- Text that holds no control character stays as it is. -/
theorem strip_eq_self {p : Phase} {cs : List Char} (h : ∀ c ∈ cs, showsAlone c = true) :
    strip p true cs = cs := by
  induction cs generalizing p with
  | nil => rfl
  | cons c cs ih => simp [strip, h c, ih fun d hd => h d (List.mem_cons_of_mem c hd)]

end ImpLang.Plain

namespace ImpLang

/-- The text without control characters, but for white space, and without control sequences. -/
def plain (text : String) : String := String.ofList (Plain.strip .ground true text.toList)

end ImpLang
