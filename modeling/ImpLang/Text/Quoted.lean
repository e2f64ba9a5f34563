import ImpLang.Text.DefaultIgnorable
import ImpLang.Text.GraphemeExtend
import ImpLang.Text.Unprintable

/-! Text between double quotes. Quotes, backslashes and four controls have short escapes; any other
character that is unprintable, ignorable or extends a grapheme is written by its code point in
hexadecimal; the rest stand for themselves. -/

namespace ImpLang.Quoted

def byCodePoint (c : Char) : List Char :=
  "\\u\x7b".toList ++ Nat.toDigits 16 c.toNat ++ ['\x7d']

/-- A character that would not show by itself, or would change how its neighbour shows. -/
def isHidden (c : Char) : Bool := isUnprintable c || isDefaultIgnorable c || isGraphemeExtend c

def encodeChar (c : Char) : List Char :=
  match c with
  | '"' => ['\\', '"']
  | '\\' => ['\\', '\\']
  | '\n' => ['\\', 'n']
  | '\r' => ['\\', 'r']
  | '\t' => ['\\', 't']
  | '\x00' => ['\\', '0']
  | c => if isHidden c then byCodePoint c else [c]

def encode (text : String) : String :=
  String.ofList ('"' :: text.toList.flatMap encodeChar ++ ['"'])

end ImpLang.Quoted
