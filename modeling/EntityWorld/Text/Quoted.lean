import EntityWorld.Text.Hidden

/-!
# Quoted text

Text between double quotes, for reports that show a value rather than say it. A quote and a
backslash are escaped, the usual control characters have short escapes, and every other character
without a glyph of its own is written by its number.
-/
namespace EntityWorld.Text

def escapeChar (c : Char) : String :=
  match c with
  | '\x00' => "\\0"
  | '\t' => "\\t"
  | '\n' => "\\n"
  | '\r' => "\\r"
  | '"' => "\\\""
  | '\\' => "\\\\"
  | c =>
    if isHidden c then "\\u\x7b" ++ String.ofList (Nat.toDigits 16 c.toNat) ++ "\x7d"
    else c.toString

def quoted (s : String) : String :=
  "\"" ++ String.join (s.toList.map escapeChar) ++ "\""

end EntityWorld.Text
