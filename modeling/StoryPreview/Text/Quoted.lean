import StoryPreview.Text.Unprintable
/-!
Texts in quotation marks, for inspection and messages: the mark and the backslash are escaped,
controls have their letters, and other characters without a visible form are written as numbers.
An apostrophe is not escaped.
-/
namespace StoryPreview.Text

def quoteChar (c : Char) : List Char :=
  if c = '"' then ['\\', '"']
  else if c = '\\' then ['\\', '\\']
  else if c = '\n' then ['\\', 'n']
  else if c = '\r' then ['\\', 'r']
  else if c = '\t' then ['\\', 't']
  else if c = '\x00' then ['\\', '0']
  else if ' ' ≤ c ∧ c < '\x7f' then [c]
  else if unprintable.contains c then
    ['\\', 'u', '\x7b'] ++ Nat.toDigits 16 c.toNat ++ ['\x7d']
  else [c]

def quote (s : String) : String :=
  String.ofList ('"' :: (s.toList.flatMap quoteChar ++ ['"']))

end StoryPreview.Text
