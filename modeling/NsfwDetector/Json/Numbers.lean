import NsfwDetector.Arith.Double
import NsfwDetector.Json.Value

/-! # The numbers of a document -/

namespace Json

def Exponent.value (e : Exponent) : ℤ :=
  if e.sign = ['-'] then -Nat.ofDigitChars 10 e.digits 0 else Nat.ofDigitChars 10 e.digits 0

/-- The number that is written. -/
def FloatLiteral.value (x : FloatLiteral) : ℚ :=
  let digits : ℚ := Nat.ofDigitChars 10 x.fraction x.whole
  let exponent := (x.exponent.map Exponent.value).getD 0 - x.fraction.length
  (if x.negative then -digits else digits) * 10 ^ exponent

mutual

/-- Some integer of the document, at any depth, satisfies `p`. -/
def Value.anyInt (p : ℤ → Bool) : Value → Bool
  | .int n => p n
  | .list items => itemsAnyInt p items
  | .dict members => membersAnyInt p members
  | _ => false

def itemsAnyInt (p : ℤ → Bool) : List Value → Bool
  | [] => false
  | item :: items => item.anyInt p || itemsAnyInt p items

def memberAnyInt (p : ℤ → Bool) : String × Value → Bool
  | (_, value) => value.anyInt p

def membersAnyInt (p : ℤ → Bool) : List (String × Value) → Bool
  | [] => false
  | member :: members => memberAnyInt p member || membersAnyInt p members

end

end Json
