import EmulationBindings.Text.Basic

/-!
# Blank characters

The characters that a text loses at its two ends when it is stripped, and that separate words in
an environment file.
-/

namespace EmulationBindings.Text

/-- Tab to carriage return, the four separators U+001C to U+001F, the space, next line, the
no-break space and the spaces and separators of the higher planes. -/
def isBlank (c : Char) : Bool :=
  let n := c.toNat
  (0x09 ≤ n && n ≤ 0x0D) || (0x1C ≤ n && n ≤ 0x20) || n == 0x85 || n == 0xA0 || n == 0x1680 ||
    (0x2000 ≤ n && n ≤ 0x200A) || n == 0x2028 || n == 0x2029 || n == 0x202F || n == 0x205F ||
    n == 0x3000

/-- A blank that is white space, which the four separators are not. -/
def isWhite (c : Char) : Bool := isBlank c && !(0x1C ≤ c.toNat && c.toNat ≤ 0x1F)

def isInnerBlank (c : Char) : Bool := isBlank c && c != '\n' && c != '\r'

def dropBlankEnd (t : Text) : Text := (t.reverse.dropWhile isBlank).reverse

def strip (t : Text) : Text := dropBlankEnd (t.dropWhile isBlank)

def stripWhite (t : Text) : Text := ((t.dropWhile isWhite).reverse.dropWhile isWhite).reverse

end EmulationBindings.Text
