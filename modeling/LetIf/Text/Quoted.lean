import LetIf.Text.Combining
import LetIf.Text.Unprintable

/-!
# Quoted texts

A text is shown between double quotes so that it can be told apart from what
stands around it: quote and backslash are escaped, and so is every character
that has no shape of its own on a line. A single quote is kept as it is.
-/

namespace LetIf.Text

def codePoint (c : Char) : List Char :=
  '\\' :: 'u' :: '\x7b' :: (Nat.toDigits 16 c.toNat ++ ['\x7d'])

def escape (c : Char) : List Char :=
  if c = '"' then ['\\', '"']
  else if c = '\\' then ['\\', '\\']
  else if c = '\x00' then ['\\', '0']
  else if c = '\t' then ['\\', 't']
  else if c = '\n' then ['\\', 'n']
  else if c = '\r' then ['\\', 'r']
  else if isCombining c || isUnprintable c then codePoint c
  else [c]

def quoteChars (cs : List Char) : List Char :=
  '"' :: (cs.flatMap escape ++ ['"'])

def quote (s : String) : String :=
  .ofList (quoteChars s.toList)

end LetIf.Text
