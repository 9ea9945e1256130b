import Pipework.Text.Printable

set_option autoImplicit false

/-! # Quoted text

The form in which names stand in diagnostic output: between double quotes, with the quote, the
backslash and everything that is not printable escaped. -/

namespace Pipework.Text

/-- `c` as it stands between double quotes. -/
def quotedChar (c : Char) : String :=
  match c with
  | '\x00' => "\\0"
  | '\t' => "\\t"
  | '\r' => "\\r"
  | '\n' => "\\n"
  | '"' => "\\\""
  | '\\' => "\\\\"
  | c =>
    if isPrintable c then c.toString
    else "\\u\x7b" ++ String.ofList (Nat.toDigits 16 c.toNat) ++ "\x7d"

/-- `text` between double quotes. -/
def quoted (text : String) : String := "\"" ++ String.join (text.toList.map quotedChar) ++ "\""

/-- `items` in brackets, separated by commas. -/
def bracketed (items : List String) : String := "[" ++ String.intercalate ", " items ++ "]"

end Pipework.Text
