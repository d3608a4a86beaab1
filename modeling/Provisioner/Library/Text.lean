import Mathlib.Data.Char
import Mathlib.Data.List.Lex
import Mathlib.Data.List.Sort

/-!
# Strings as lists of characters

Strings of the modelled programs are compared, cut and joined character by
character, so they are lists of characters here. The operations are the ones
of the Python and Jinja standard libraries, under their names.
-/

namespace Provisioner

abbrev Text := List Char

instance : Coe String Text := ⟨String.toList⟩

instance : LawfulBEq Text := inferInstance

/-- Tested along the text, not over all the characters there are. -/
instance (priority := high) decidableChars {p : Char → Prop} [DecidablePred p] (t : Text) :
    Decidable (∀ c ∈ t, p c) := List.decidableBAll p t

namespace Text

/-- The characters `str.isspace` accepts. -/
def isSpace (c : Char) : Bool :=
  let n := c.toNat
  (9 ≤ n && n ≤ 13) || (28 ≤ n && n ≤ 32) || n == 0x85 || n == 0xa0 || n == 0x1680 ||
    (0x2000 ≤ n && n ≤ 0x200a) || n == 0x2028 || n == 0x2029 || n == 0x202f || n == 0x205f ||
    n == 0x3000

/-- The line boundaries of `str.splitlines`. -/
def isLineBreak (c : Char) : Bool :=
  let n := c.toNat
  (10 ≤ n && n ≤ 13) || (28 ≤ n && n ≤ 30) || n == 0x85 || n == 0x2028 || n == 0x2029

def lstrip (t : Text) : Text := t.dropWhile isSpace

def rstrip (t : Text) : Text := (lstrip t.reverse).reverse

def strip (t : Text) : Text := rstrip (lstrip t)

def rstripChar (c : Char) (t : Text) : Text := (t.reverse.dropWhile (· == c)).reverse

def join (sep : Text) (parts : List Text) : Text := sep.intercalate parts

/-- Only the letters of ASCII, as the DNS compares names. -/
def lowerAscii (t : Text) : Text := t.map Char.toLower

def upper (t : Text) : Text := t.map Char.toUpper

def startswith (t head : Text) : Bool := head.isPrefixOf t

def endswith (t tail : Text) : Bool := tail.isSuffixOf t

/-- `str.split(None, n)`: what is left after `n` fields keeps its trailing blanks. -/
def fields : Nat → Text → List Text
  | 0, t =>
    let rest := lstrip t
    if rest.isEmpty then [] else [rest]
  | n + 1, t =>
    let rest := lstrip t
    if rest.isEmpty then []
    else rest.takeWhile (!isSpace ·) :: fields n (rest.dropWhile (!isSpace ·))

def split (t : Text) : List Text := (t.splitOnP isSpace).filter fun w => !w.isEmpty

def isNumber (t : Text) : Bool := !t.isEmpty && t.all Char.isDigit

def int (t : Text) : Nat := Nat.ofDigitChars 10 t 0

def decimal (n : Nat) : Text := Nat.toDigits 10 n

def sorted (parts : List Text) : List Text := parts.insertionSort (· ≤ ·)

end Text

end Provisioner
