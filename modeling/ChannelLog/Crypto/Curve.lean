import ChannelLog.Bytes

/-!
# The curve secp256k1

Points of `y² = x³ + 7` over the field of `prime` elements, with the base point `generator` of
order `order`. Points are added in Jacobian coordinates: `(X, Y, Z)` stands for
`(X / Z², Y / Z³)`, and `Z = 0` for the point at infinity.
-/

namespace ChannelLog.Curve

def prime : Nat := 0xfffffffffffffffffffffffffffffffffffffffffffffffffffffffefffffc2f

/-- The number of points of the curve, a prime. -/
def order : Nat := 0xfffffffffffffffffffffffffffffffebaaedce6af48a03bbfd25e8cd0364141

/-- What numerals modulo `m` ask for: `m` is not zero. -/
abbrev Modulus (m : Nat) : Prop := @NeZero Nat Zero.ofOfNat0 m

instance : Modulus prime := ⟨by decide⟩

instance : Modulus order := ⟨by decide⟩

/-- The base field. -/
abbrev Field := Fin prime

/-- Multiples of the base point, as integers modulo its order. -/
abbrev Scalar := Fin order

/-! ## Modular arithmetic -/

/-- The binary digits of a number below `2 ^ 256`, the most significant first. -/
def bits (n : Nat) : List Bool := (List.range 256).reverse.map n.testBit

/-- `b ^ e` for an exponent below `2 ^ 256`. -/
def power {m : Nat} [Modulus m] (b : Fin m) (e : Nat) : Fin m :=
  (bits e).foldl (fun acc bit => if bit then acc * acc * b else acc * acc) 1

/-- The inverse modulo a prime `m`; zero for zero. -/
def inverse {m : Nat} [Modulus m] (b : Fin m) : Fin m := power b (m - 2)

/-- A square root modulo `prime`, which leaves the remainder three modulo four. -/
def sqrt? (a : Field) : Option Field :=
  let r := power a ((prime + 1) / 4)
  if r * r = a then some r else none

/-! ## Points -/

/-- A point of the curve. -/
inductive Point where
  | infinity
  | affine (x y : Field)
deriving DecidableEq

def generator : Point :=
  .affine (Fin.ofNat prime 0x79be667ef9dcbbac55a06295ce870b07029bfcdb2dce28d959f2815b16f81798)
    (Fin.ofNat prime 0x483ada7726a3c4655da4fbfc0e1108a8fd17b448a68554199c47d08ffb10d4b8)

def rightSide (x : Field) : Field := x * x * x + 7

def contains (x y : Field) : Bool := y * y == rightSide x

def isOdd (y : Field) : Bool := y.val % 2 == 1

/-- The point with abscissa `x` whose ordinate is odd or even as asked. -/
def lift? (x : Field) (odd : Bool) : Option (Field × Field) :=
  (sqrt? (rightSide x)).map fun y => (x, if isOdd y == odd then y else -y)

/-! ## The group -/

structure Jacobian where
  (x y z : Field)

namespace Jacobian

def infinity : Jacobian := ⟨1, 1, 0⟩

def ofPoint : Point → Jacobian
  | .infinity => infinity
  | .affine x y => ⟨x, y, 1⟩

def toPoint (p : Jacobian) : Point :=
  if p.z = 0 then .infinity
  else
    let i := inverse p.z
    .affine (p.x * (i * i)) (p.y * (i * i * i))

def double (p : Jacobian) : Jacobian :=
  let yy := p.y * p.y
  let s := 4 * (p.x * yy)
  let m := 3 * (p.x * p.x)
  let x := m * m - 2 * s
  ⟨x, m * (s - x) - 8 * (yy * yy), 2 * (p.y * p.z)⟩

def add (p q : Jacobian) : Jacobian :=
  if p.z = 0 then q
  else if q.z = 0 then p
  else
    let pzz := p.z * p.z
    let qzz := q.z * q.z
    let u := p.x * qzz
    let s := p.y * (qzz * q.z)
    let h := q.x * pzz - u
    let r := q.y * (pzz * p.z) - s
    if h = 0 then
      if r = 0 then double p else infinity
    else
      let hh := h * h
      let hhh := hh * h
      let v := u * hh
      let x := r * r - hhh - 2 * v
      ⟨x, r * (v - x) - s * hhh, p.z * q.z * h⟩

/-- The `n`-th multiple of `p`, for `n` below `2 ^ 256`. -/
def multiple (n : Nat) (p : Jacobian) : Jacobian :=
  (bits n).foldl (fun acc bit => if bit then acc.double.add p else acc.double) infinity

end Jacobian

def multiple (n : Scalar) (p : Point) : Point :=
  (Jacobian.multiple n.val (.ofPoint p)).toPoint

/-- `m * p + n * q`. -/
def combination (m : Scalar) (p : Point) (n : Scalar) (q : Point) : Point :=
  ((Jacobian.multiple m.val (.ofPoint p)).add (Jacobian.multiple n.val (.ofPoint q))).toPoint

end ChannelLog.Curve
