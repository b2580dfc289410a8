import ObjectModel.Text.Unprintable

/-!
Quoted text: between double quotes, with a backslash before quotes and backslashes, short escapes
for the usual controls, and the code point in braces for every other unprintable character. The
text never contains a raw newline, and a quote inside it always follows a backslash.
-/

namespace ObjectModel.Text

def escapeChar (c : Char) : List Char :=
  if c = '\x00' then ['\\', '0']
  else if c = '\t' then ['\\', 't']
  else if c = '\r' then ['\\', 'r']
  else if c = '\n' then ['\\', 'n']
  else if c = '"' then ['\\', '"']
  else if c = '\\' then ['\\', '\\']
  else if isUnprintable c then "\\u\x7b".toList ++ Nat.toDigits 16 c.toNat ++ "\x7d".toList
  else [c]

def escape (cs : List Char) : List Char := cs.flatMap escapeChar

@[simp] theorem escape_nil : escape [] = [] := rfl
@[simp] theorem escape_cons (c : Char) (cs : List Char) :
    escape (c :: cs) = escapeChar c ++ escape cs := rfl

def quote (s : String) : String := String.ofList ('"' :: (escape s.toList ++ ['"']))

@[simp] theorem toList_quote (s : String) :
    (quote s).toList = '"' :: (escape s.toList ++ ['"']) := by
  simp [quote]

end ObjectModel.Text
