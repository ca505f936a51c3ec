import RecordBuffer.Text.Invisible

/-!
# Quoted texts

A quoted text shows every character on one line: quotes and backslashes are
marked by a backslash, and invisible characters are spelled by letter or number.
-/

namespace RecordBuffer.Text

/-- A character inside a quoted text. -/
def escape (character : Char) : List Char :=
  match character with
  | '\x00' => ['\\', '0']
  | '\t' => ['\\', 't']
  | '\r' => ['\\', 'r']
  | '\n' => ['\\', 'n']
  | '\\' => ['\\', '\\']
  | '\x22' => ['\\', '\x22']
  | _ =>
      if isInvisible character then
        ['\\', 'u', '\x7b'] ++ Nat.toDigits 16 character.toNat ++ ['\x7d']
      else [character]

/-- A text between quotes. -/
def quote (text : String) : String :=
  String.ofList (['\x22'] ++ text.toList.flatMap escape ++ ['\x22'])

end RecordBuffer.Text
