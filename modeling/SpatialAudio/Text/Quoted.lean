import SpatialAudio.Text.Combining
import SpatialAudio.Text.Ignorable
import SpatialAudio.Text.Unprintable

/-!
# Text/Quoted — texts between quotation marks

A character that could be mistaken for the end of the text, that is not visible, or that would be
drawn onto the character before it is written behind a backslash: by a letter if it has one, else by
its number in braces.  All others stand for themselves.
-/

namespace SpatialAudio.Text

/-- The letter that stands for a character behind a backslash. -/
def letter? : Char → Option Char
  | '"' => some '"'
  | '\\' => some '\\'
  | '\n' => some 'n'
  | '\r' => some 'r'
  | '\t' => some 't'
  | '\x00' => some '0'
  | _ => none

/-- Whether a character is written by its number. -/
def isHidden (c : Char) : Bool :=
  combining.contains c || ignorable.contains c || unprintable.contains c

/-- A character inside quotation marks. -/
def quoteChar (c : Char) : List Char :=
  match letter? c with
  | some letter => ['\\', letter]
  | none =>
    if isHidden c then ['\\', 'u', '\x7b'] ++ Nat.toDigits 16 c.toNat ++ ['\x7d'] else [c]

/-- A text between quotation marks. -/
def quoted (s : String) : String := String.ofList ('"' :: s.toList.flatMap quoteChar ++ ['"'])

end SpatialAudio.Text
