import ReplicaStore.Text.Printable

/-! # Quoted text

    Text and single characters in quotes, so that every character can be told: what is not visible,
    and what would join the character before it, is written by its code. A text escapes its double
    quotes and leaves single ones; a character literal does the opposite. -/

namespace ReplicaStore.Quoted

/-- The digits of a number in lower-case hexadecimal, without leading zeros. -/
def hexDigits (n : Nat) : List Char :=
  Nat.toDigits 16 n

/-- One character inside quotes of the kind `quote`. -/
def encodeChar (quote c : Char) : List Char :=
  if c = '\x00' then ['\\', '0']
  else if c = '\t' then ['\\', 't']
  else if c = '\r' then ['\\', 'r']
  else if c = '\n' then ['\\', 'n']
  else if c = quote ∨ c = '\\' then ['\\', c]
  else if Printable.isExtending c ∨ ¬ Printable.isVisible c then
    ['\\', 'u', '\x7b'] ++ hexDigits c.toNat ++ ['\x7d']
  else [c]

def doubleQuote : Char := '\x22'

def singleQuote : Char := '\x27'

def text (s : String) : String :=
  String.ofList (doubleQuote :: s.toList.flatMap (encodeChar doubleQuote) ++ [doubleQuote])

def char (c : Char) : String :=
  String.ofList (singleQuote :: encodeChar singleQuote c ++ [singleQuote])

end ReplicaStore.Quoted
