import VectorStyle.Binary64.Basic

/-!
# Arithmetic of the 64-bit binary format

Each operation gives the exact result rounded once by `Binary64.ofUnits`. What has no exact result,
such as the difference of two infinities, is NaN. The sign of a product or quotient is the product
of the signs, also for zeros; a sum that is zero has a minus sign only if both terms have.
-/

set_option autoImplicit false

namespace VectorStyle.Binary64

/-- The number with the other sign. -/
def neg : Binary64 → Binary64
  | nan => nan
  | infinity s => infinity !s
  | finite s n h => finite (!s) n h

/-- The number without its sign. -/
def abs : Binary64 → Binary64
  | nan => nan
  | infinity _ => infinity false
  | finite _ n h => finite false n h

/-- The sum, rounded once. -/
def add : Binary64 → Binary64 → Binary64
  | nan, _ => nan
  | _, nan => nan
  | infinity s, infinity t => if s = t then infinity s else nan
  | infinity s, finite .. => infinity s
  | finite .., infinity t => infinity t
  | finite s m _, finite t n _ =>
    let total := signedUnits s m + signedUnits t n
    if total = 0 then ofUnits (s && t) 0 1 else ofUnits (decide (total < 0)) total.natAbs 1

/-- The product, rounded once. -/
def mul : Binary64 → Binary64 → Binary64
  | nan, _ => nan
  | _, nan => nan
  | infinity s, infinity t => infinity (s != t)
  | infinity s, finite t n _ => if n = 0 then nan else infinity (s != t)
  | finite s m _, infinity t => if m = 0 then nan else infinity (s != t)
  | finite s m _, finite t n _ => ofUnits (s != t) (m * n) one

/-- The quotient, rounded once. -/
def div : Binary64 → Binary64 → Binary64
  | nan, _ => nan
  | _, nan => nan
  | infinity _, infinity _ => nan
  | infinity s, finite t _ _ => infinity (s != t)
  | finite s _ _, infinity t => ofUnits (s != t) 0 1
  | finite s m _, finite t n _ =>
    if n = 0 then if m = 0 then nan else infinity (s != t)
    else ofUnits (s != t) (m * one) n

instance : Neg Binary64 := ⟨neg⟩
instance : Add Binary64 := ⟨add⟩
instance : Mul Binary64 := ⟨mul⟩
instance : Div Binary64 := ⟨div⟩

/-! ## Bit patterns -/

/-- The 64 bits of a number: sign, biased exponent, fraction. Every NaN has the pattern of the quiet
one. -/
def toBits : Binary64 → Nat
  | nan => 0x7ff8 * Nat.pow 2 48
  | infinity s => s.toNat * Nat.pow 2 63 + 0x7ff * Nat.pow 2 52
  | finite s n _ =>
    s.toNat * Nat.pow 2 63 +
      if n < Nat.pow 2 52 then n
      else (step n + 1) * Nat.pow 2 52 + (n / Nat.pow 2 (step n) - Nat.pow 2 52)

/-! ## Decimal notation -/

/-- Beyond this power of ten every number with a digit other than zero is infinite, and below its
inverse every number rounds to zero. -/
def decimalRange : Nat := 400

/-- The number nearest to `digits · 10 ^ exponent`, with the given sign. Far out of range the answer
is given without computing the power. -/
def ofDecimal (negative : Bool) (digits : Nat) (exponent : Int) : Binary64 :=
  if digits = 0 then ofUnits negative 0 1
  else if (decimalRange : Int) < exponent then infinity negative
  else if exponent < -((decimalRange + digits.log2 : Nat) : Int) then ofUnits negative 0 1
  else if 0 ≤ exponent then ofRatio negative (digits * Nat.pow 10 exponent.toNat) 1
  else ofRatio negative digits (Nat.pow 10 (-exponent).toNat)

end VectorStyle.Binary64
