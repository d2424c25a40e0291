/-!
Numbers spelled in digits.

`baseValue b` reads digits of base `b`, letters of either case for the digits from ten on;
`decimalValue` is the case of base ten. A digit added at the end multiplies by the base and adds:
`baseValue_concat`.
-/
namespace BrokerPolicy.Text

/-- The value of a digit, in any base up to sixteen. -/
def digitValue (c : Char) : Nat :=
  if c.isDigit then c.toNat - '0'.toNat
  else if 'a' ≤ c then c.toNat - 'a'.toNat + 10
  else c.toNat - 'A'.toNat + 10

/-- A hexadecimal digit. -/
def isHexDigit (c : Char) : Bool :=
  c.isDigit || ('a' ≤ c && c ≤ 'f') || ('A' ≤ c && c ≤ 'F')

/-- The number that digits of base `b` denote. -/
def baseValue (b : Nat) (ds : List Char) : Nat :=
  ds.foldl (fun n d => b * n + digitValue d) 0

/-- The number that decimal digits denote. -/
def decimalValue (ds : List Char) : Nat :=
  baseValue 10 ds

theorem baseValue_nil (b : Nat) : baseValue b [] = 0 := rfl

theorem baseValue_concat (b : Nat) (ds : List Char) (d : Char) :
    baseValue b (ds ++ [d]) = b * baseValue b ds + digitValue d := by
  simp [baseValue]

end BrokerPolicy.Text
