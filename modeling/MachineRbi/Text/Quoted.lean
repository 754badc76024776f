import MachineRbi.Text.Basic
import MachineRbi.Text.Printable
import MachineRbi.Text.Wide

/-!
# Quoted text

The written form of a text inside a list or a mapping. It stands in single quotes, or in double
quotes if it holds a single quote and no double quote; what could be mistaken or not be seen is
escaped. Halves of surrogate pairs are always escaped, one by one. Byte strings are written in the
same way after a `b`.
-/

namespace MachineRbi.Text

/-- The quote to write around these characters. -/
def quoteFor (cs : List Char) : Char :=
  if cs.contains '\'' && !cs.contains '"' then '"' else '\''

/-- The written form of one character between quotes. -/
def escapeChar (quote c : Char) : List Char :=
  if c = quote || c = '\\' then ['\\', c]
  else if c = '\t' then ['\\', 't']
  else if c = '\n' then ['\\', 'n']
  else if c = '\r' then ['\\', 'r']
  else if isPrintable c then [c]
  else if c.toNat < 0x100 then '\\' :: 'x' :: hexDigits 2 c.toNat
  else if c.toNat < 0x10000 then '\\' :: 'u' :: hexDigits 4 c.toNat
  else '\\' :: 'U' :: hexDigits 8 c.toNat

/-- The written form of one code point between quotes. -/
def escapePoint (quote : Char) (point : Nat) : List Char :=
  if point.isValidChar then escapeChar quote (Char.ofNat point)
  else '\\' :: 'u' :: hexDigits 4 point

/-- A text in quotes. -/
def quoted (text : WideText) : String :=
  let quote := quoteFor text.chars
  String.ofList (quote :: text.points.flatMap (escapePoint quote) ++ [quote])

/-- The written form of one byte between quotes; only printable ASCII stands for itself. -/
def escapeByte (quote : Char) (byte : UInt8) : List Char :=
  if byte < 128 then escapeChar quote (Char.ofNat byte.toNat)
  else '\\' :: 'x' :: hexDigits 2 byte.toNat

/-- Bytes in quotes. -/
def quotedBytes (bytes : List UInt8) : String :=
  let quote := quoteFor (bytes.map fun byte => Char.ofNat byte.toNat)
  String.ofList ('b' :: quote :: bytes.flatMap (escapeByte quote) ++ [quote])

end MachineRbi.Text
