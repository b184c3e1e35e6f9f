import Registry.Text.Unseen

/-! # Quoted — a text between quotes, as a description of a value shows it

Descriptions of a run and of an inbox show texts in double quotes. A quote and a backslash are
written with a backslash, and so are the characters that cannot be seen. -/

namespace Registry.Text

def quoteChar (c : Char) : List Char :=
  match c with
  | '"' => ['\\', '"']
  | '\\' => ['\\', '\\']
  | '\n' => ['\\', 'n']
  | '\r' => ['\\', 'r']
  | '\t' => ['\\', 't']
  | c =>
    if c.toNat = 0 then ['\\', '0']
    else if isUnseen c then ['\\', 'u', '\x7b'] ++ Nat.toDigits 16 c.toNat ++ ['\x7d']
    else [c]

def quoted (text : String) : String := String.ofList ('"' :: text.toList.flatMap quoteChar ++ ['"'])

/-- A character of a path as it stands between quotes: a single quote is marked too. -/
def quotePathChar (c : Char) : List Char := if c = '\'' then ['\\', '\''] else quoteChar c

def quotedPath (path : String) : String :=
  String.ofList ('"' :: path.toList.flatMap quotePathChar ++ ['"'])

end Registry.Text
