/-
  The protobuf wire format, as far as messages of integers, strings, bytes and other messages need
  it.

  A message is a list of numbered fields, and a field is a base-128 integer or a string of bytes
  with its length in front (`emit`, `parse`).  Above it stand the kinds of fields of proto3
  (`FieldKind`): a scalar is left out when it is the default, a repeated field is written once for
  each element, and a message is the bytes of its own fields.  A component is put under its number
  and picked from among the fields with that number.
-/
import OffChainWorker.Lib.Codec

namespace Proc.Protobuf

/-! ## Base-128 integers -/

/-- The groups of `n` from the lowest on, each but the last with the high bit set; `fuel` bounds
    their number. -/
def groups : (fuel n : Nat) → List UInt8
  | 0, n => [UInt8.ofNat n]
  | fuel + 1, n =>
    if n < 128 then [UInt8.ofNat n] else UInt8.ofNat (n % 128 + 128) :: groups fuel (n / 128)

def varint (n : Nat) : List UInt8 := groups n n

/-- The integer at the front, and what follows it. -/
def readVarint : List UInt8 → Option (Nat × List UInt8)
  | [] => none
  | b :: rest =>
    if b.toNat < 128 then some (b.toNat, rest)
    else (readVarint rest).map fun r => (b.toNat - 128 + 128 * r.1, r.2)

theorem toNat_ofNat {n : Nat} (h : n < 256) : (UInt8.ofNat n).toNat = n := by
  rw [UInt8.toNat_ofNat']
  exact Nat.mod_eq_of_lt h

theorem readVarint_last {n : Nat} (h : n < 128) (rest : List UInt8) :
    readVarint (UInt8.ofNat n :: rest) = some (n, rest) := by
  have hn : (UInt8.ofNat n).toNat = n := toNat_ofNat (by omega)
  rw [readVarint, hn, if_pos h]

theorem readVarint_groups {fuel n : Nat} (h : n ≤ fuel) (rest : List UInt8) :
    readVarint (groups fuel n ++ rest) = some (n, rest) := by
  induction fuel generalizing n with
  | zero =>
    obtain rfl : n = 0 := by omega
    exact readVarint_last (by decide) rest
  | succ fuel ih =>
    rw [groups]
    split
    · rename_i hn
      exact readVarint_last hn rest
    · have hb : (UInt8.ofNat (n % 128 + 128)).toNat = n % 128 + 128 := toNat_ofNat (by omega)
      rw [List.cons_append, readVarint, hb, if_neg (by omega), ih (by omega)]
      show some (n % 128 + 128 - 128 + 128 * (n / 128), rest) = some (n, rest)
      rw [Nat.add_sub_cancel, Nat.mod_add_div]

theorem readVarint_varint (n : Nat) (rest : List UInt8) :
    readVarint (varint n ++ rest) = some (n, rest) :=
  readVarint_groups (Nat.le_refl n) rest

theorem varint_ne_nil (n : Nat) : varint n ≠ [] := by
  intro h
  have hread := readVarint_varint n []
  rw [h] at hread
  nomatch hread

/-! ## Fields -/

/-- What a field carries. -/
inductive Value where
  | int (n : Nat)
  | len (bytes : List UInt8)
deriving Repr, DecidableEq

structure Field where
  number : Nat
  value : Value
deriving Repr, DecidableEq

/-- The number and the wire type, then the value. -/
def Field.emit (f : Field) : List UInt8 :=
  match f.value with
  | .int n => varint (8 * f.number) ++ varint n
  | .len bytes => varint (8 * f.number + 2) ++ (varint bytes.length ++ bytes)

def emit (fs : List Field) : List UInt8 := fs.flatMap Field.emit

/-- The field at the front, and what follows it. -/
def readField (data : List UInt8) : Option (Field × List UInt8) := do
  let (tag, data) ← readVarint data
  let (n, data) ← readVarint data
  match tag % 8 with
  | 0 => return (⟨tag / 8, .int n⟩, data)
  | 2 => if n ≤ data.length then return (⟨tag / 8, .len (data.take n)⟩, data.drop n) else none
  | _ => none

/-- Fields up to the end; `fuel` bounds their number. -/
def parseFields : (fuel : Nat) → List UInt8 → Option (List Field)
  | _, [] => some []
  | 0, _ :: _ => none
  | fuel + 1, data => do
    let (f, data) ← readField data
    let fs ← parseFields fuel data
    return f :: fs

def parse (data : List UInt8) : Option (List Field) := parseFields data.length data

theorem readField_emit (f : Field) (rest : List UInt8) :
    readField (f.emit ++ rest) = some (f, rest) := by
  obtain ⟨number, value⟩ := f
  cases value with
  | int n =>
    have htype : 8 * number % 8 = 0 := by omega
    have hnumber : 8 * number / 8 = number := by omega
    simp [Field.emit, readField, readVarint_varint, htype, hnumber]
  | len bytes =>
    have htype : (8 * number + 2) % 8 = 2 := by omega
    have hnumber : (8 * number + 2) / 8 = number := by omega
    simp [Field.emit, readField, readVarint_varint, htype, hnumber]

theorem emit_field_ne_nil (f : Field) : f.emit ≠ [] := by
  obtain ⟨number, value⟩ := f
  cases value <;> simp [Field.emit, varint_ne_nil]

theorem length_le_emit (fs : List Field) : fs.length ≤ (emit fs).length := by
  induction fs with
  | nil => exact Nat.le_refl 0
  | cons f fs ih =>
    have hpos := List.length_pos_iff.mpr (emit_field_ne_nil f)
    show fs.length + 1 ≤ (f.emit ++ emit fs).length
    rw [List.length_append]
    omega

theorem parseFields_emit {fuel : Nat} {fs : List Field} (h : fs.length ≤ fuel) :
    parseFields fuel (emit fs) = some fs := by
  induction fuel generalizing fs with
  | zero =>
    obtain rfl := List.length_eq_zero_iff.mp (Nat.le_zero.mp h)
    rfl
  | succ fuel ih =>
    cases fs with
    | nil => rfl
    | cons f fs =>
      -- the parser first asks whether any byte is left
      obtain ⟨b, bs, hb⟩ := List.exists_cons_of_ne_nil (emit_field_ne_nil f)
      have hread := readField_emit f (emit fs)
      have hrest : parseFields fuel (emit fs) = some fs := ih (Nat.le_of_succ_le_succ h)
      show parseFields (fuel + 1) (f.emit ++ emit fs) = some (f :: fs)
      rw [hb, List.cons_append] at hread ⊢
      rw [parseFields, hread]
      · show (parseFields fuel (emit fs)).bind (fun fs => some (f :: fs)) = some (f :: fs)
        rw [hrest]
        rfl
      · intro h
        nomatch h

/-- **Fields round trip.** -/
@[simp] theorem parse_emit (fs : List Field) : parse (emit fs) = some fs :=
  parseFields_emit (length_le_emit fs)

/-! ## The kinds of fields -/

/-- How a component of type `α` is written as the values under its number, and read back. -/
structure FieldKind (α : Type) where
  write : α → List Value
  read : List Value → Option α
  read_write : ∀ a, read (write a) = some a

attribute [simp] FieldKind.read_write

variable {α : Type}

def Value.toInt? : Value → Option Nat
  | .int n => some n
  | .len _ => none

def Value.toLen? : Value → Option (List UInt8)
  | .int _ => none
  | .len bytes => some bytes

/-- Every value read by `f`. -/
def readAll (f : Value → Option α) : List Value → Option (List α)
  | [] => some []
  | v :: vs => do
    let a ← f v
    let as ← readAll f vs
    return a :: as

theorem readAll_map {f : Value → Option α} {g : α → Value} (h : ∀ a, f (g a) = some a)
    (as : List α) : readAll f (as.map g) = some as := by
  induction as with
  | nil => rfl
  | cons a as ih =>
    show (do
      let a ← f (g a)
      let as ← readAll f (as.map g)
      return a :: as) = some (a :: as)
    rw [h, ih]
    rfl

/-- An integer, left out when it is zero; the last one counts. -/
def uint64 : FieldKind UInt64 where
  write n := if n = 0 then [] else [.int n.toNat]
  read vs := (readAll Value.toInt? vs).map fun ns => UInt64.ofNat (ns.getLast?.getD 0)
  read_write n := by
    split
    · rename_i hn
      rw [hn]
      rfl
    · show some (UInt64.ofNat n.toNat) = some n
      rw [UInt64.ofNat_toNat]

/-- Bytes, left out when there are none; the last ones count. -/
def bytes : FieldKind (List UInt8) where
  write bytes := if bytes = [] then [] else [.len bytes]
  read vs := (readAll Value.toLen? vs).map fun lens => lens.getLast?.getD []
  read_write bytes := by
    split
    · rename_i hbytes
      rw [hbytes]
      rfl
    · rfl

def utf8 (s : String) : List UInt8 := s.toByteArray.data.toList

def readUtf8 (data : List UInt8) : Option String := String.fromUTF8? ⟨data.toArray⟩

theorem readUtf8_utf8 (s : String) : readUtf8 (utf8 s) = some s := by
  unfold readUtf8 utf8 String.fromUTF8?
  rw [Array.toArray_toList, dif_pos s.isValidUTF8]
  rfl

/-- A string, as its bytes. -/
def string : FieldKind String where
  write s := bytes.write (utf8 s)
  read vs := (bytes.read vs).bind readUtf8
  read_write s := by
    rw [bytes.read_write]
    exact readUtf8_utf8 s

/-- A value for each element. -/
def repeated (codec : Codec α) : FieldKind (List α) where
  write as := as.map fun a => .len (codec.encode a)
  read := readAll fun v => v.toLen?.bind codec.decode
  read_write := readAll_map codec.decode_encode

/-- A message that may be absent. -/
def message (codec : Codec α) : FieldKind (Option α) where
  write a := (repeated codec).write a.toList
  read vs := ((repeated codec).read vs).map List.getLast?
  read_write a := by
    rw [(repeated codec).read_write]
    cases a <;> rfl

/-- Strings of bytes as they are. -/
def raw : Codec (List UInt8) := ⟨id, some, fun _ => rfl⟩

/-! ## Numbered components -/

def put (number : Nat) (kind : FieldKind α) (a : α) : List Field :=
  (kind.write a).map fun v => ⟨number, v⟩

/-- The values under a number, in order. -/
def values (number : Nat) (fs : List Field) : List Value :=
  fs.filterMap fun f => if f.number = number then some f.value else none

def pick (number : Nat) (kind : FieldKind α) (fs : List Field) : Option α :=
  kind.read (values number fs)

@[simp] theorem values_append (number : Nat) (fs gs : List Field) :
    values number (fs ++ gs) = values number fs ++ values number gs :=
  List.filterMap_append ..

theorem values_map (number m : Nat) (vs : List Value) :
    values number (vs.map fun v => ⟨m, v⟩) = if m = number then vs else [] := by
  induction vs with
  | nil => split <;> rfl
  | cons v vs ih =>
    rw [List.map_cons, values, List.filterMap_cons]
    unfold values at ih
    rw [ih]
    by_cases h : m = number
    · simp only [if_pos h]
    · simp only [if_neg h]

@[simp] theorem values_put (number m : Nat) (kind : FieldKind α) (a : α) :
    values number (put m kind a) = if m = number then kind.write a else [] :=
  values_map number m (kind.write a)

end Proc.Protobuf
