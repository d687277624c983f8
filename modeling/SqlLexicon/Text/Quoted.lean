import SqlLexicon.Text.Quoted.Table

/-! Quoted text for messages: every character shows. Between double quotes, a character that would not show by itself
is written as an escape, and so are the quote and the backslash. -/
namespace SqlLexicon.Text

def codeEscape (c : Char) : String :=
  "\\u\x7b" ++ String.ofList (Nat.toDigits 16 c.toNat) ++ "\x7d"

def quotedChar (c : Char) : String :=
  match c with
  | '\x00' => "\\0"
  | '\t' => "\\t"
  | '\r' => "\\r"
  | '\n' => "\\n"
  | '\\' => "\\\\"
  | '"' => "\\\""
  | _ => if inRanges hiddenRanges c then codeEscape c else c.toString

def quoted (text : String) : String := "\"" ++ String.join (text.toList.map quotedChar) ++ "\""

end SqlLexicon.Text
