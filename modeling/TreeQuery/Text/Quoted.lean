import TreeQuery.Unicode.Category
import TreeQuery.Unicode.Properties

/-!
Text in double quotes with everything escaped that a reader could not see: control characters, spaces
other than the common one, unassigned characters, and marks that join the character before them.
-/

namespace TreeQuery.Text

def extendsGrapheme (c : Char) : Bool :=
  ["Mn", "Me"].contains (Unicode.category c) ||
    Unicode.otherGraphemeExtend.any fun r => r.1 ≤ c.toNat && c.toNat ≤ r.2

def isPrintable (c : Char) : Bool :=
  c == ' ' || !(["Cc", "Cf", "Cs", "Co", "Cn", "Zl", "Zp", "Zs"].contains (Unicode.category c))

def quotedChar (c : Char) : List Char :=
  if c = '"' then ['\\', '"']
  else if c = '\\' then ['\\', '\\']
  else if c = '\n' then ['\\', 'n']
  else if c = '\r' then ['\\', 'r']
  else if c = '\t' then ['\\', 't']
  else if c = '\x00' then ['\\', '0']
  else if 0x20 < c.toNat && c.toNat < 0x7F then [c]
  else if extendsGrapheme c || !isPrintable c then
    '\\' :: 'u' :: '\x7b' :: Nat.toDigits 16 c.toNat ++ ['\x7d']
  else [c]

def quoted (text : String) : String := String.ofList ('"' :: text.toList.flatMap quotedChar ++ ['"'])

end TreeQuery.Text
