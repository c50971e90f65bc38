/-
  Bytes as hexadecimal text, two lower-case digits a byte, the high half first.
-/

namespace Proc.Hex

/-- The digit of a value below 16. -/
def digit (n : Nat) : Char :=
  if n < 10 then Char.ofNat ('0'.toNat + n) else Char.ofNat ('a'.toNat + (n - 10))

def value (c : Char) : Option Nat :=
  if '0'.toNat ≤ c.toNat ∧ c.toNat ≤ '9'.toNat then some (c.toNat - '0'.toNat)
  else if 'a'.toNat ≤ c.toNat ∧ c.toNat ≤ 'f'.toNat then some (c.toNat - 'a'.toNat + 10)
  else none

def digits : List UInt8 → List Char
  | [] => []
  | b :: bs => digit (b.toNat / 16) :: digit (b.toNat % 16) :: digits bs

def bytes : List Char → Option (List UInt8)
  | [] => some []
  | [_] => none
  | high :: low :: rest => do
    let high ← value high
    let low ← value low
    let bs ← bytes rest
    return UInt8.ofNat (16 * high + low) :: bs

def encode (bs : List UInt8) : String := String.ofList (digits bs)

def decode (text : String) : Option (List UInt8) := bytes text.toList

theorem value_digit : ∀ n < 16, value (digit n) = some n := by decide

theorem bytes_digits (bs : List UInt8) : bytes (digits bs) = some bs := by
  induction bs with
  | nil => rfl
  | cons b bs ih =>
    have hb : b.toNat < 256 := b.toNat_lt
    have hhigh : value (digit (b.toNat / 16)) = some (b.toNat / 16) :=
      value_digit _ (by omega)
    have hlow : value (digit (b.toNat % 16)) = some (b.toNat % 16) :=
      value_digit _ (by omega)
    rw [digits, bytes, hhigh, hlow, ih]
    show some (UInt8.ofNat (16 * (b.toNat / 16) + b.toNat % 16) :: bs) = some (b :: bs)
    rw [Nat.div_add_mod, UInt8.ofNat_toNat]

/-- A text that was written is read back. -/
theorem decode_encode (bs : List UInt8) : decode (encode bs) = some bs := by
  unfold decode encode
  rw [String.toList_ofList]
  exact bytes_digits bs

end Proc.Hex
