/-!
Blank characters, those with the Unicode property White_Space, and texts without the blanks at
their ends.
-/

namespace PageBuilder.Text

def isBlank (char : Char) : Bool :=
  let code := char.toNat
  (9 ≤ code && code ≤ 13) || code = 0x20 || code = 0x85 || code = 0xA0 || code = 0x1680
    || (0x2000 ≤ code && code ≤ 0x200A) || code = 0x2028 || code = 0x2029 || code = 0x202F
    || code = 0x205F || code = 0x3000

def trimStart (chars : List Char) : List Char := chars.dropWhile isBlank

def trimEnd (chars : List Char) : List Char := (trimStart chars.reverse).reverse

def trim (chars : List Char) : List Char := trimEnd (trimStart chars)

end PageBuilder.Text
