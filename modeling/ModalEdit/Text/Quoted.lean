import ModalEdit.Text.Visible

/-! A text in quotes on one line, in which every character can be told from every other. -/
namespace ModalEdit.Text

def hexDigits (n : Nat) : Text := Nat.toDigits 16 n

/-- A character between quotes. What does not show is written by name or by number. -/
def quotedChar (c : Char) : Text :=
  if c = '\x00' then ['\\', '0']
  else if c = '\t' then ['\\', 't']
  else if c = '\r' then ['\\', 'r']
  else if c = '\n' then ['\\', 'n']
  else if c = '\\' then ['\\', '\\']
  else if c = '\x22' then ['\\', '\x22']
  else if isVisible c then [c]
  else ['\\', 'u', '\x7b'] ++ hexDigits c.toNat ++ ['\x7d']

def quoted (t : Text) : Text := '\x22' :: t.flatMap quotedChar ++ ['\x22']

end ModalEdit.Text
