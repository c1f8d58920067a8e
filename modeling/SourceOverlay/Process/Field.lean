import SourceOverlay.Process.Number

/-!
# Fields of a format

A field has flags, a width, a precision and a letter that says how a value is written. Texts are
cut to the precision, integers are filled up to it with zeros, and fractions have so many places
after the point. All are filled up to the width with blanks, or, numbers only, with zeros.
-/

set_option autoImplicit false

namespace SourceOverlay.Process

structure Field where
  flags : List Char := []
  width : Nat := 0
  precision : Option Nat := none
  letter : Char

namespace Field

def has (f : Field) (flag : Char) : Bool := f.flags.contains flag

/-- A width as it was asked for; a negative one asks for filling on the right. -/
def setWidth (f : Field) (width : Int) : Field :=
  { f with flags := if width < 0 then '-' :: f.flags else f.flags, width := width.natAbs }

def pad (f : Field) (text : String) : String :=
  let filling := String.ofList (List.replicate (f.width - text.length) ' ')
  if f.has '-' then text ++ filling else filling ++ text

def text (f : Field) (value : String) : String :=
  f.pad (match f.precision with
    | some n => String.ofList (value.toList.take n)
    | none => value)

def zeros (n : Nat) : String := String.ofList (List.replicate n '0')

def padNumber (f : Field) (zeroFlag : Bool) (sign digits : String) : String :=
  let filling :=
    if zeroFlag && f.has '0' && !f.has '-' then zeros (f.width - sign.length - digits.length)
    else ""
  f.pad (sign ++ filling ++ digits)

def signOf (f : Field) (negative : Bool) : String :=
  if negative then "-" else if f.has '+' then "+" else if f.has ' ' then " " else ""

/-! ### Integers -/

def fill (f : Field) (digits : String) : String :=
  match f.precision with
  | some 0 => if digits == "0" then "" else digits
  | some n => zeros (n - digits.length) ++ digits
  | none => digits

def natural (f : Field) (base : Nat) (n : Nat) : String :=
  f.fill (String.ofList (Nat.toDigits base n))

def signed (f : Field) (value : Int) : String :=
  f.padNumber f.precision.isNone (f.signOf (value < 0)) (f.natural 10 value.natAbs)

def unsigned (f : Field) (n : Nat) : String :=
  let mark (text : String) := if f.has '#' && n ≠ 0 then text else ""
  let zeroFlag := f.precision.isNone
  match f.letter with
  | 'x' => f.padNumber zeroFlag (mark "0x") (f.natural 16 n)
  | 'X' => f.padNumber zeroFlag (mark "0X") (f.natural 16 n).toUpper
  | 'o' =>
    let digits := f.natural 8 n
    let digits := if f.has '#' && digits.toList.head? != some '0' then "0" ++ digits else digits
    f.padNumber zeroFlag "" digits
  | _ => f.padNumber zeroFlag "" (f.natural 10 n)

/-! ### Fractions -/

def fixed (places : Nat) (keepPoint : Bool) (num den : Nat) : String :=
  let n := roundQuotient (num * Nat.pow 10 places) den
  let digits := toString n
  let digits := zeros (places + 1 - digits.length) ++ digits
  let whole := String.ofList (digits.toList.take (digits.length - places))
  let part := String.ofList (digits.toList.drop (digits.length - places))
  if places = 0 then (if keepPoint then whole ++ "." else whole) else whole ++ "." ++ part

def scaled (num den : Nat) (e : Int) : Nat × Nat :=
  if 0 ≤ e then (num, den * Nat.pow 10 e.toNat) else (num * Nat.pow 10 (-e).toNat, den)

def leadingPower (num den : Nat) : Int :=
  let guess : Int := ((toString num).length : Int) - (toString den).length
  let (n, d) := scaled num den guess
  if n < d then guess - 1 else guess

def digitsAndPower (places : Nat) (num den : Nat) : Nat × Int :=
  if num = 0 then (0, 0)
  else
    let power := leadingPower num den
    let (n, d) := scaled num den (power - places)
    let digits := roundQuotient n d
    if Nat.pow 10 (places + 1) ≤ digits then (digits / 10, power + 1) else (digits, power)

def exponentText (mark : String) (power : Int) : String :=
  let digits := toString power.natAbs
  mark ++ (if power < 0 then "-" else "+") ++ zeros (2 - digits.length) ++ digits

def scientific (places : Nat) (keepPoint : Bool) (num den : Nat) : String :=
  let (digits, power) := digitsAndPower places num den
  fixed places keepPoint digits (Nat.pow 10 places) ++ exponentText "e" power

def trimZeros (digits : String) : String :=
  if digits.toList.contains '.' then
    let kept := digits.toList.reverse.dropWhile (· == '0')
    String.ofList (if kept.head? == some '.' then kept.tail else kept).reverse
  else digits

def general (precision : Nat) (keepZeros : Bool) (num den : Nat) : String :=
  let precision := max precision 1
  let (digits, power) := digitsAndPower (precision - 1) num den
  let trim (text : String) := if keepZeros then text else trimZeros text
  if -4 ≤ power && power < precision then
    trim (fixed (precision - 1 - power).toNat keepZeros num den)
  else
    trim (fixed (precision - 1) keepZeros digits (Nat.pow 10 (precision - 1))) ++
      exponentText "e" power

/-- Writes a value in base sixteen. The digit before the point has `lead` bits, of which the
smallest values have none. -/
def hexadecimal (p : Precision) (lead : Nat) (precision : Option Nat) (keepPoint : Bool)
    (mantissa : Nat) (exponent : Int) : String :=
  let bits := p.bits
  let shift := min (bits - 1 - mantissa.log2) (exponent - p.least).toNat
  let full := mantissa * Nat.pow 2 shift
  let exponent := exponent - shift
  let places := (bits - lead + 3) / 4
  let aligned := full * Nat.pow 2 (4 * places - (bits - lead))
  let exponent := if mantissa = 0 then 0 else exponent + (bits - lead : Nat)
  let wanted := precision.getD places
  let (n, exponent) :=
    if wanted < places then
      let rounded := roundQuotient aligned (Nat.pow 16 (places - wanted))
      if Nat.pow 2 lead * Nat.pow 16 wanted ≤ rounded then
        (if lead = 1 then rounded else rounded / 16, if lead = 1 then exponent else exponent + 4)
      else (rounded, exponent)
    else (aligned * Nat.pow 16 (wanted - places), exponent)
  let digits := String.ofList (Nat.toDigits 16 n)
  let digits := zeros (wanted + 1 - digits.length) ++ digits
  let whole := String.ofList (digits.toList.take (digits.length - wanted))
  let part := String.ofList (digits.toList.drop (digits.length - wanted))
  let part :=
    if precision.isNone then String.ofList (part.toList.reverse.dropWhile (· == '0')).reverse
    else part
  let point := if part == "" && !keepPoint then "" else "."
  whole ++ point ++ part ++ "p" ++ (if exponent < 0 then "" else "+") ++ toString exponent

def placesLimit : Nat := 17000

def moreZeros (mark : Char) (n : Nat) (text : String) : String :=
  if n = 0 then text
  else
    let cs := text.toList
    String.ofList (cs.takeWhile (· != mark)) ++ zeros n ++ String.ofList (cs.dropWhile (· != mark))

def finite (f : Field) (p : Precision) (mantissa : Nat) (exponent : Int) : String :=
  let (num, den) := shifted mantissa 1 (-exponent)
  let places := f.precision.getD 6
  let near := min places placesLimit
  let far := places - near
  match f.letter.toLower with
  | 'f' => fixed near (f.has '#') num den ++ zeros far
  | 'e' => moreZeros 'e' far (scientific near (f.has '#') num den)
  | 'g' => general near (f.has '#') num den
  | _ =>
    let lead := if p.bits = 64 then 4 else 1
    let precision := f.precision.map fun n => min n placesLimit
    moreZeros 'p' (f.precision.getD 0 - placesLimit)
      (hexadecimal p lead precision (f.has '#') mantissa exponent)

def fraction (f : Field) (p : Precision) (value : Fraction) : String :=
  let sign := f.signOf value.negative
  let large (text : String) := if f.letter.isUpper then text.toUpper else text
  match value.magnitude with
  | .infinite => f.padNumber false sign (large "inf")
  | .undefined => f.padNumber false sign (large "nan")
  | .finite m e =>
    let mark := if f.letter.toLower == 'a' then large "0x" else ""
    f.padNumber true (sign ++ mark) (large (f.finite p m e))

end Field

end SourceOverlay.Process
