import DiscVolume.Text.Hex
import DiscVolume.Text.Printable

/-! Quoted text, the form in which names and keys appear in messages. The quote is an apostrophe
unless the text holds an apostrophe and no double quote. Backslashes, the quote in use and
unprintable characters are escaped, so a quoted text is one line of printable characters.
-/

namespace DiscVolume.Text

def apostrophe : Char := '\x27'

/-- The quote that encloses a text. -/
def quoteMark (text : List Char) : Char :=
  if text.contains apostrophe && !text.contains '"' then '"' else apostrophe

/-- The written form of one character between quotes. -/
def escape (mark character : Char) : String :=
  if character = mark || character = '\\' then String.ofList ['\\', character]
  else if character = '\t' then "\\t"
  else if character = '\n' then "\\n"
  else if character = '\r' then "\\r"
  else if isPrintable character then String.singleton character
  else if character.toNat < 0x100 then "\\x" ++ hex 2 character.toNat
  else if character.toNat < 0x10000 then "\\u" ++ hex 4 character.toNat
  else "\\U" ++ hex 8 character.toNat

def quoted (text : String) : String :=
  let mark := quoteMark text.toList
  String.singleton mark ++ String.join (text.toList.map (escape mark)) ++ String.singleton mark

end DiscVolume.Text
