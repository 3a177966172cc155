import Dataflow.Text.GraphemeExtend
import Dataflow.Text.Unprintable

/-! Quoted text: what stands between the quotes can be read off the page. A character that would end
the quotation is written as an escape, and so is one that is not drawn by itself: it has no printed
form, it is a letter that stays blank, or it is drawn as part of the character before it.
-/

namespace Dataflow.Text

/-- The digits of a number in base sixteen, in lower case and without leading zeros. -/
def hex (number : Nat) : String :=
  String.ofList (Nat.toDigits 16 number)

/-- The Hangul fillers: letters that stand for an absent part of a syllable and show nothing. -/
def fillers : CodePoints :=
  [(0x115F, 0x1160), (0x3164, 0x3164), (0xFFA0, 0xFFA0)]

/-- The halfwidth Katakana sound marks. They extend the character before them and yet fill a place
of their own.
-/
def halfwidthMarks : CodePoints :=
  [(0xFF9E, 0xFF9F)]

/-- Whether a code point is drawn as part of the character before it. -/
def isAttached (point : Nat) : Bool :=
  graphemeExtend.contains point && !halfwidthMarks.contains point

/-- Whether a character is drawn by itself. -/
def isDrawn (char : Char) : Bool :=
  !(unprintable.contains char.toNat || fillers.contains char.toNat || isAttached char.toNat)

/-- The escape of one character, or the character itself. -/
def escape (char : Char) : String :=
  match char with
  | '"' => "\\\""
  | '\\' => "\\\\"
  | '\n' => "\\n"
  | '\t' => "\\t"
  | '\r' => "\\r"
  | '\x00' => "\\0"
  | other => if isDrawn other then other.toString else "\\u\x7b" ++ hex other.toNat ++ "\x7d"

/-- A text between double quotes, with its special characters escaped. -/
def quote (text : String) : String :=
  "\"" ++ String.join (text.toList.map escape) ++ "\""

/-- Items in brackets, separated by commas. -/
def bracketed (items : List String) : String :=
  "[" ++ ", ".intercalate items ++ "]"

/-- A text filled up with spaces on the right to at least `width` characters. -/
def padRight (width : Nat) (text : String) : String :=
  text ++ String.ofList (List.replicate (width - text.length) ' ')

/-- Every character from the space to the tilde is drawn by itself, since the tables stay clear of
that stretch.
-/
theorem isDrawn_of_ascii {char : Char} (lower : 32 ≤ char.toNat) (upper : char.toNat ≤ 126)
    : isDrawn char = true := by
  have printed : unprintable.avoids 32 126 = true := by decide +kernel
  have shown : fillers.avoids 32 126 = true := by decide +kernel
  have alone : graphemeExtend.avoids 32 126 = true := by decide +kernel
  simp [isDrawn, isAttached, CodePoints.contains_of_avoids printed lower upper,
    CodePoints.contains_of_avoids shown lower upper,
    CodePoints.contains_of_avoids alone lower upper]

end Dataflow.Text
