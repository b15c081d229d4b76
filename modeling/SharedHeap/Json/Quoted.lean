import SharedHeap.Text.Digits

/-!
Strings of JSON: a text between double quotes, with a backslash before quotes and backslashes and
escapes for controls.
-/

namespace SharedHeap.Json

def quotedChar (c : Char) : String :=
  match c with
  | '"' => "\\\""
  | '\\' => "\\\\"
  | '\x08' => "\\b"
  | '\x0c' => "\\f"
  | '\n' => "\\n"
  | '\r' => "\\r"
  | '\t' => "\\t"
  | c =>
    if c < ' ' then
      let code := Text.hexadecimal c.toNat
      "\\u" ++ String.ofList (List.replicate (4 - code.length) '0') ++ code
    else c.toString

def quoted (s : String) : String :=
  "\"" ++ String.join (s.toList.map quotedChar) ++ "\""

end SharedHeap.Json
