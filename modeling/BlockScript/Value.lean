/-!
# Values

The language computes with signed 64-bit integers. Every operation computes the exact integer
first and has a result only when that integer is in range, so no operation wraps around.
Division truncates toward zero and the remainder takes the sign of the dividend.
-/

set_option autoImplicit false

namespace BlockScript

/-- A signed 64-bit integer. -/
abbrev Value := Int64

namespace Value

/-- An exact integer is in range when it is a 64-bit value. -/
def InRange (n : Int) : Prop :=
  -9223372036854775808 ≤ n ∧ n ≤ 9223372036854775807

instance (n : Int) : Decidable (InRange n) :=
  inferInstanceAs (Decidable (_ ∧ _))

/-- The value of an exact integer in range. -/
def ofInt? (n : Int) : Option Value :=
  if InRange n then some (Int64.ofInt n) else none

/-- Every value is in range. -/
theorem inRange_toInt (v : Value) : InRange v.toInt :=
  ⟨v.minValue_le_toInt, v.toInt_le⟩

theorem toInt_of_ofInt? {n : Int} {v : Value} (h : ofInt? n = some v) : v.toInt = n := by
  unfold ofInt? at h
  split at h
  · next hn =>
    obtain ⟨lower, upper⟩ := hn
    cases h
    exact Int64.toInt_ofInt_of_le (by omega) (by omega)
  · cases h

@[simp] theorem ofInt?_toInt (v : Value) : ofInt? v.toInt = some v := by
  simp [ofInt?, inRange_toInt]

theorem ofInt?_eq_none_iff {n : Int} : ofInt? n = none ↔ ¬InRange n := by
  simp [ofInt?]

/-- The decimal form. -/
def text (v : Value) : String :=
  toString v.toInt

/-- The opposite value. -/
def negate? (a : Value) : Option Value :=
  ofInt? (-a.toInt)

/-- The sum. -/
def add? (a b : Value) : Option Value :=
  ofInt? (a.toInt + b.toInt)

/-- The difference. -/
def subtract? (a b : Value) : Option Value :=
  ofInt? (a.toInt - b.toInt)

/-- The product. -/
def multiply? (a b : Value) : Option Value :=
  ofInt? (a.toInt * b.toInt)

/-- The quotient, truncated toward zero. The divisor is not zero. -/
def divide? (a b : Value) : Option Value :=
  ofInt? (a.toInt.tdiv b.toInt)

/-- The remainder of the truncated quotient. It is always in range. -/
def remainder? (a b : Value) : Option Value :=
  ofInt? (a.toInt.tmod b.toInt)

end Value

end BlockScript
