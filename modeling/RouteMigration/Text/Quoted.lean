import RouteMigration.Text.Hex
import RouteMigration.Text.Printable

/-! A text between quotation marks, with an escape for whatever would not show. -/

namespace RouteMigration.Text

/-- The letter that stands for a character after a backslash. -/
def escapeLetter? (c : Char) : Option Char :=
  [('\x00', '0'), ('\t', 't'), ('\n', 'n'), ('\r', 'r'), ('"', '"'), ('\\', '\\')].lookup c

def quoteChar (c : Char) : List Char :=
  match escapeLetter? c with
  | some letter => ['\\', letter]
  | none =>
    if isPrintable c then [c] else '\\' :: 'u' :: '\x7b' :: (hexText c.toNat ++ ['\x7d'])

def quoted (s : String) : String :=
  String.ofList ('"' :: (s.toList.flatMap quoteChar ++ ['"']))

end RouteMigration.Text
