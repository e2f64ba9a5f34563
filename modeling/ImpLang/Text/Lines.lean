/-! Lines of a byte stream. A newline ends a line, together with one carriage return right before it; bytes
after the last newline are a line too. -/

namespace ImpLang.Lines

def newline : UInt8 := 10

def carriageReturn : UInt8 := 13

/-- A line read back to front, without the carriage return that belonged to its end. -/
def closed : List UInt8 → List UInt8
  | b :: bs => if b = carriageReturn then bs.reverse else (b :: bs).reverse
  | [] => []

/-- The lines of the bytes, of which the first begins with `held`, back to front. -/
def splitFrom : List UInt8 → List UInt8 → List (List UInt8)
  | [], [] => []
  | held, [] => [held.reverse]
  | held, b :: bs => if b = newline then closed held :: splitFrom [] bs else splitFrom (b :: held) bs

def split (bytes : ByteArray) : List (List UInt8) := splitFrom [] bytes.toList

def decode? (line : List UInt8) : Option String := String.fromUTF8? ⟨line.toArray⟩

end ImpLang.Lines
