/-! Fixed-width numbers as bytes: base 256, the lowest digit first. -/

namespace Parley.Wire

abbrev Bytes := List UInt8

def digits : (width : Nat) → Nat → Bytes
  | 0, _ => []
  | width + 1, n => UInt8.ofNat (n % 256) :: digits width (n / 256)

def ofDigits : Bytes → Nat
  | [] => 0
  | d :: ds => d.toNat + 256 * ofDigits ds

@[simp] theorem digits_length (width n : Nat) : (digits width n).length = width := by
  induction width generalizing n with
  | zero => rfl
  | succ width ih => simp [digits, ih]

theorem digits_ofDigits (ds : Bytes) : digits ds.length (ofDigits ds) = ds := by
  induction ds with
  | nil => rfl
  | cons d ds ih =>
    have hd := d.toNat_lt
    have hm : (d.toNat + 256 * ofDigits ds) % 256 = d.toNat := by omega
    have hq : (d.toNat + 256 * ofDigits ds) / 256 = ofDigits ds := by omega
    simp only [List.length_cons, digits, ofDigits, hm, hq, ih, UInt8.ofNat_toNat]

end Parley.Wire
