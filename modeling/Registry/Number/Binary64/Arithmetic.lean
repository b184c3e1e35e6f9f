import Registry.Number.Binary64

/-! # Arithmetic — sums, products and quotients of doubles

Each operation is exact and rounded once. What has no value, such as a difference of infinities, is
NaN; a quotient by zero is not asked for. -/

namespace Registry.Binary64

-- The double nearest to a quotient with a sign.
def ofSigned (n : Int) (d : Nat) : Binary64 := ofRatio (n < 0) n.natAbs d

def isNegative : Binary64 → Bool
  | .infinite negative | .finite negative _ => negative
  | .nan => false

def isZero : Binary64 → Bool
  | .finite _ 0 => true
  | _ => false

def neg : Binary64 → Binary64
  | .nan => .nan
  | .infinite negative => .infinite (!negative)
  | .finite negative units => .finite (!negative) units

def add : Binary64 → Binary64 → Binary64
  | .infinite a, .infinite b => if a = b then .infinite a else .nan
  | .infinite a, .finite .. | .finite .., .infinite a => .infinite a
  | a, b => match a.signedUnits?, b.signedUnits? with
    | some x, some y => ofSigned (x + y) unitsPerOne
    | _, _ => .nan

def mul (a b : Binary64) : Binary64 :=
  match a.signedUnits?, b.signedUnits? with
  | some x, some y => ofSigned (x * y) (unitsPerOne * unitsPerOne)
  | _, _ =>
    if a = .nan ∨ b = .nan ∨ a.isZero ∨ b.isZero then .nan
    else .infinite (a.isNegative != b.isNegative)

/-- The quotient of two doubles, of which the second is not zero. -/
def div (a b : Binary64) : Binary64 :=
  match a, b with
  | .finite p x, .finite q y => ofRatio (p != q) x y
  | .finite .., .infinite _ => .finite (a.isNegative != b.isNegative) 0
  | .infinite p, .finite q _ => .infinite (p != q)
  | _, _ => .nan

-- The whole part of a double, toward zero.
def truncated? : Binary64 → Option Int
  | .finite negative units =>
    let magnitude : Nat := units / unitsPerOne
    some (if negative then -(magnitude : Int) else magnitude)
  | _ => none

end Registry.Binary64
