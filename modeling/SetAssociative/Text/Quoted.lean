import SetAssociative.Text.Printable

/-! Quoted texts, as fault messages show the strings they complain about. The
quote and the backslash are escaped by a backslash, three blanks and the null
character by a letter, and every other character that is not shown as it is by
its code point in hexadecimal. -/
namespace SetAssociative.Text

/-- Lowercase hexadecimal digits without leading zeros. -/
def hexDigits (n : Nat) : List Char := Nat.toDigits 16 n

/-- One character as it stands between the quotes. -/
def quoteChar (c : Char) : List Char :=
  match c with
  | '\x00' => ['\\', '0']
  | '\t' => ['\\', 't']
  | '\n' => ['\\', 'n']
  | '\r' => ['\\', 'r']
  | '"' => ['\\', '"']
  | '\\' => ['\\', '\\']
  | c => if isShown c then [c] else ['\\', 'u', '{'] ++ hexDigits c.toNat ++ ['}']

/-- A text between double quotes, with everything that would not show escaped. -/
def quoted (text : String) : String :=
  String.ofList ('"' :: text.toList.flatMap quoteChar ++ ['"'])

end SetAssociative.Text
