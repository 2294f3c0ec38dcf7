import PermissionAudit.Text.Digits
import PermissionAudit.Text.Unprintable

/-!
Text between double quotes, with escapes for what would not be seen as itself.
-/

namespace PermissionAudit.Quoted

/-- One character inside the quotes. -/
def quoteChar (c : Char) : List Char :=
  if c = '\\' then ['\\', '\\']
  else if c = '"' then ['\\', '"']
  else if c = '\n' then ['\\', 'n']
  else if c = '\r' then ['\\', 'r']
  else if c = '\t' then ['\\', 't']
  else if c.toNat = 0 then ['\\', '0']
  else if Unprintable.contains c then
    "\\u\x7b".toList ++ Digits.hexDigits c.toNat ++ ['\x7d']
  else [c]

/-- The text in quotes. -/
def quote (s : String) : String :=
  String.ofList ('"' :: s.toList.flatMap quoteChar ++ ['"'])

end PermissionAudit.Quoted
