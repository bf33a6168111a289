/-! # Decimal notation

How a number given by decimal digits and a power of ten is written: positionally when its
exponent is moderate, with one digit before the point and an exponent otherwise.
-/

namespace Chartdown

/-- The digits of a natural number, most significant first. -/
def digitsOf (n : Nat) : List Char := Nat.toDigits 10 n

/-- A whole number in decimal, a minus in front where it is negative. -/
def integerText (n : Int) : List Char :=
  if n < 0 then '-' :: digitsOf n.natAbs else digitsOf n.natAbs

/-- A non-negative decimal number `digits * 10 ^ exponent`. -/
structure Decimal where
  digits : Nat
  exponent : Int
  deriving DecidableEq

/-- A style of writing decimal numbers. -/
structure Decimal.Style where
  /-- Numbers of this power of ten or more are written with an exponent. -/
  exponentFrom : Int
  /-- Whether whole numbers written positionally end in `.0`. -/
  pointZero : Bool

namespace Decimal

/-- The style of data: positional below `10 ^ 16`, and a point in every positional number. -/
def dataStyle : Style := ⟨16, true⟩

/-- The style of measures in style sheets: positional below `10 ^ 6`, no point where it is idle. -/
def measureStyle : Style := ⟨6, false⟩

/-- Take zeros off the end of a number's digits, at most `fuel` of them. -/
def dropZeros : Nat → Nat → Nat × Nat
  | 0, n => (n, 0)
  | fuel + 1, n =>
    if n != 0 && n % 10 == 0 then
      let (m, k) := dropZeros fuel (n / 10)
      (m, k + 1)
    else (n, 0)

/-- The same number with as few digits as there can be. -/
def normalize (d : Decimal) : Decimal :=
  let (n, k) := dropZeros d.digits.log2 d.digits
  ⟨n, d.exponent + k⟩

/-- The text of an exponent: a sign and at least two digits. -/
def exponentText (e : Int) : List Char :=
  let ds := digitsOf e.natAbs
  (if e < 0 then '-' else '+') :: (if ds.length < 2 then '0' :: ds else ds)

/-- The number in positional notation. -/
def positional (pointZero : Bool) (ds : List Char) (exponent : Int) : List Char :=
  match exponent with
  | .ofNat k => ds ++ List.replicate k '0' ++ (if pointZero then ['.', '0'] else [])
  | .negSucc k =>
    let places := k + 1
    if places < ds.length then
      ds.take (ds.length - places) ++ '.' :: ds.drop (ds.length - places)
    else
      '0' :: '.' :: List.replicate (places - ds.length) '0' ++ ds

/-- The number with one digit before the point and an exponent. -/
def scientific (ds : List Char) (power : Int) : List Char :=
  match ds with
  | [] => []
  | [d] => d :: 'e' :: exponentText power
  | d :: rest => d :: '.' :: rest ++ 'e' :: exponentText power

/-- The text of a number in a style. Powers of ten under `-4` are written with an exponent in
every style. -/
def text (style : Style) (d : Decimal) : List Char :=
  let ds := digitsOf d.digits
  if d.digits = 0 then positional style.pointZero ['0'] 0
  else
    let power := d.exponent + ds.length - 1
    if -4 ≤ power ∧ power < style.exponentFrom then positional style.pointZero ds d.exponent
    else scientific ds power

end Decimal
end Chartdown
