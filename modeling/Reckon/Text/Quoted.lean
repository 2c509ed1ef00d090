import Reckon.Text.Hidden

/-! A text between quotes, with its unprintable characters spelled out. -/

namespace Reckon

/-- A character as it stands between quotes. -/
def quotedChar (c : Char) : List Char :=
  match c with
  | '\t' => ['\\', 't']
  | '\r' => ['\\', 'r']
  | '\n' => ['\\', 'n']
  | '\x00' => ['\\', '0']
  | '"' => ['\\', '"']
  | '\\' => ['\\', '\\']
  | _ =>
    -- What else does not show is written by its code point, without leading zeros.
    if isHidden c then ['\\', 'u', '\x7b'] ++ Nat.toDigits 16 c.toNat ++ ['\x7d'] else [c]

/-- A text between double quotes. -/
def quoted (text : String) : String :=
  String.ofList ('"' :: text.toList.flatMap quotedChar ++ ['"'])

end Reckon
