/-
  A binary format of a type: an encoder, and a decoder that undoes it.
-/

namespace Proc

/-- What is decoded from an encoded value is that value. -/
structure Codec (α : Type) where
  encode : α → List UInt8
  decode : List UInt8 → Option α
  decode_encode : ∀ a, decode (encode a) = some a

/-- Values with the same encoding are the same. -/
theorem Codec.encode_inj {α : Type} (c : Codec α) {a b : α} (h : c.encode a = c.encode b) :
    a = b := by
  have hdecode := congrArg c.decode h
  rw [c.decode_encode, c.decode_encode] at hdecode
  exact Option.some.inj hdecode

/-! ## Texts that end by themselves -/

/-- Every byte behind a one, and a zero at the end. -/
def closed : List UInt8 → List UInt8
  | [] => [0]
  | b :: bs => 1 :: b :: closed bs

def readClosed : List UInt8 → Option (List UInt8)
  | [] => none
  | [b] => if b = 0 then some [] else none
  | mark :: b :: rest => if mark = 1 then (readClosed rest).map (b :: ·) else none

theorem readClosed_closed (bs : List UInt8) : readClosed (closed bs) = some bs := by
  induction bs with
  | nil => rfl
  | cons b bs ih =>
    rw [closed, readClosed, if_pos rfl, ih]
    rfl

/-- Without its end the text cannot be read. -/
theorem readClosed_take (bs : List UInt8) {n : Nat} (h : n < (closed bs).length) :
    readClosed ((closed bs).take n) = none := by
  induction bs generalizing n with
  | nil =>
    obtain rfl : n = 0 := Nat.lt_one_iff.mp h
    rfl
  | cons b bs ih =>
    match n, h with
    | 0, _ => rfl
    | 1, _ => rfl
    | n + 2, h =>
      have hrest : n < (closed bs).length := Nat.lt_of_add_lt_add_right h
      rw [closed, List.take_succ_cons, List.take_succ_cons, readClosed, if_pos rfl, ih hrest]
      rfl

end Proc
