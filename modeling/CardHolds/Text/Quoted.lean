import CardHolds.Text.Invisible

/-!
# Quoted text

`quoted s` puts `s` between double quotes so that it can be read in a message: a quote and a
backslash are preceded by a backslash, the tab, the line ends and the zero character have short
escapes, any other character that does not show is written by its code point in lower case
hexadecimal, and everything else stands for itself.
-/

namespace CardHolds.Text

/-- The digits of a code point in lower case hexadecimal, without leading zeros. -/
def hexDigits (n : Nat) : List Char :=
  Nat.toDigits 16 n

/-- How one character is written inside quotes. -/
def escapeChar (c : Char) : List Char :=
  match c with
  | '"' => ['\\', '"']
  | '\\' => ['\\', '\\']
  | '\t' => ['\\', 't']
  | '\r' => ['\\', 'r']
  | '\n' => ['\\', 'n']
  | '\x00' => ['\\', '0']
  | c => if isInvisible c then ['\\', 'u', '\x7b'] ++ hexDigits c.toNat ++ ['\x7d'] else [c]

/-- The text between double quotes, with every character escaped as `escapeChar` says. -/
def quoted (s : String) : String :=
  String.ofList ('"' :: s.toList.flatMap escapeChar ++ ['"'])

example : quoted "a\"b\\c" = "\"a\\\"b\\\\c\"" := by decide +kernel
example : quoted "\t\x07" = "\"\\t\\u\x7b7\x7d\"" := by decide +kernel

end CardHolds.Text
