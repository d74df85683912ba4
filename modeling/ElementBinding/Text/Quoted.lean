import ElementBinding.Text.Printable
/-!
# Quoted text

The form in which a diagnostic shows a text: between quotes, with everything that cannot be shown
escaped. Single quotes are used unless the text holds a single quote and no double one.
-/
namespace ElementBinding.Text

/-- One lower-case hexadecimal digit. -/
def hexDigit (n : Nat) : Char := (Nat.digitChar (n % 16))

/-- The last `width` hexadecimal digits of a number. -/
def hexDigits : (width : Nat) → Nat → List Char
  | 0, _ => []
  | width + 1, n => hexDigits width (n / 16) ++ [hexDigit n]

/-- The quote a text is put between. -/
def chooseQuote (text : List Char) : Char :=
  if text.contains '\'' && !text.contains '"' then '"' else '\''

def quoteChar (quote c : Char) : List Char :=
  if c = quote || c = '\\' then ['\\', c]
  else if c = '\t' then ['\\', 't']
  else if c = '\n' then ['\\', 'n']
  else if c = '\r' then ['\\', 'r']
  else if isPrintable c then [c]
  else if c.toNat < 256 then '\\' :: 'x' :: hexDigits 2 c.toNat
  else if c.toNat < 65536 then '\\' :: 'u' :: hexDigits 4 c.toNat
  else '\\' :: 'U' :: hexDigits 8 c.toNat

/-- A text as a diagnostic shows it. -/
def quoted (text : String) : String :=
  let quote := chooseQuote text.toList
  String.ofList (quote :: text.toList.flatMap (quoteChar quote) ++ [quote])

end ElementBinding.Text
