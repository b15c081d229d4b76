import SharedHeap.Text.Combining
import SharedHeap.Text.Digits
import SharedHeap.Text.Unprintable

/-!
Quoted texts: a text between double quotes, with a backslash before quotes and backslashes, short
escapes for the common controls, and the code point of every other character that would not show or
would join the character before it.
-/

namespace SharedHeap.Text

def quotedChar (c : Char) : String :=
  match c with
  | '\x00' => "\\0"
  | '\t' => "\\t"
  | '\n' => "\\n"
  | '\r' => "\\r"
  | '"' => "\\\""
  | '\\' => "\\\\"
  | c =>
    if combining.contains c || unprintable.contains c then
      "\\u\x7b" ++ hexadecimal c.toNat ++ "\x7d"
    else c.toString

def quoted (s : String) : String :=
  "\"" ++ String.join (s.toList.map quotedChar) ++ "\""

end SharedHeap.Text
