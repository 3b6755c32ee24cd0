import Raster.Binary.Double

/-!
Working arithmetic: the operations kernels need of a short and of a wide number type, with the IEEE
pair binary32 and binary64 and the exact pair in which both are the rationals.
-/

namespace Raster

/-- Numbers in which samples are blended and taps are weighted. -/
class Scalar (K : Type) extends Add K, Sub K, Mul K, Div K where
  ofNat : Nat → K
  -- Within the type: not every floor of a float fits an integer type.
  floor : K → K
  lt : K → K → Bool

/-- Numbers in which positions and long sums are formed; `S` is the short type they narrow to. -/
class Wide (D : Type) (S : outParam Type) [Scalar S] extends Scalar D where
  ceil : D → D
  abs : D → D
  /-- Truncation to an index, zero below zero. -/
  toIndex : D → Nat
  /-- Truncation to a signed coordinate. -/
  toCoordinate : D → Int
  -- The one step at which results of the wide type are rounded to the short one.
  narrow : D → S

namespace Scalar

variable {K : Type} [Scalar K]

/-- Zero, the start of every sum. -/
def zero : K := ofNat 0

/-- One. -/
def one : K := ofNat 1

/-- One half: pixel centres lie half a step inside their pixel. -/
def half : K := ofNat 1 / ofNat 2

/-- One thousandth: overlaps up to this length are not counted. -/
def thousandth : K := ofNat 1 / ofNat 1000

/-- The smaller number, the first of two equal ones. -/
def smaller (a b : K) : K := if lt b a then b else a

/-- The larger number, the first of two equal ones; a NaN as second argument is ignored. -/
def larger (a b : K) : K := if lt a b then b else a

end Scalar

instance : Scalar Float32 where
  ofNat := Binary.single
  floor := Binary.wholeSingle .down
  -- False whenever one of the two is NaN.
  lt a b := a < b

instance : Wide Float Float32 where
  ofNat := Binary.double
  floor := Binary.wholeDouble .down
  lt a b := a < b
  ceil := Binary.wholeDouble .up
  abs := Float.abs
  toIndex := Binary.toIndex
  toCoordinate := Binary.toCoordinate
  narrow := Binary.narrow

instance : Scalar Rat where
  ofNat n := n
  floor x := x.floor
  lt a b := a < b

/-- Exact arithmetic: nothing rounds, and narrowing changes no value. -/
instance : Wide Rat Rat where
  ceil x := x.ceil
  abs x := if x < 0 then -x else x
  toIndex x := x.floor.toNat
  -- Truncation is the floor of a non-negative number and the ceiling of a negative one.
  toCoordinate x := if x < 0 then x.ceil else x.floor
  narrow x := x

end Raster
