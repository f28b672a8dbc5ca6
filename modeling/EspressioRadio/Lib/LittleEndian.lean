/-
Unsigned integers as bytes, the least significant first.

`read` and `write` are the shift loops of a C codec on naturals, so a
machine word of any width is read and written by its `toNat`. Writing
and reading back gives the value modulo the bytes' range
(`read_write`).
-/
import Mathlib.Data.List.Basic
import Mathlib.Data.Nat.Bitwise

namespace LittleEndian

/-- The number in `count` bytes from `start`: `value |= p[index] << (8 *
index)` for each `index < count`, with the bytes past the end zero. -/
def read (bytes : List UInt8) (start count : Nat) : Nat :=
  (List.range count).foldl
    (fun value index => value ||| (bytes.getD (start + index) 0).toNat <<< (8 * index)) 0

/-- The `count` bytes of a number, the lowest first: `p[index] = (value >>
(8 * index)) & 0xFF` for each `index < count`. -/
def write (count value : Nat) : List UInt8 :=
  (List.range count).map fun index => UInt8.ofNat ((value >>> (8 * index)) &&& 0xFF)

@[simp] theorem write_length (count value : Nat) : (write count value).length = count := by
  simp [write]

theorem write_getElem? {count value index : Nat} (h : index < count) :
    (write count value)[index]? = some (UInt8.ofNat ((value >>> (8 * index)) &&& 0xFF)) := by
  unfold write
  rw [List.getElem?_map, List.getElem?_range h]
  rfl

/-- The byte a loop step reads back is a digit of the value in base 256. -/
private theorem byte_toNat (x : Nat) : (UInt8.ofNat (x &&& 0xFF)).toNat = x % 256 := by
  rw [show x &&& 0xFF = x % 256 from Nat.and_two_pow_sub_one_eq_mod x 8,
    UInt8.toNat_ofNat']
  exact Nat.mod_mod x 256

/-- The step of the reading loop: the digits below `place` and the one at
`place`, or-ed together, are the digits below `place + 8`. -/
private theorem or_digit (value place : Nat) :
    value % 2 ^ place ||| (value >>> place % 256) <<< place
      = value % 2 ^ (place + 8) := by
  have hlt : value % 2 ^ place < 2 ^ place := Nat.mod_lt _ (Nat.two_pow_pos place)
  rw [Nat.shiftRight_eq_div_pow, Nat.shiftLeft_eq, Nat.lor_comm, Nat.mul_comm,
    ← Nat.two_pow_add_eq_or_of_lt hlt, Nat.pow_add, Nat.mod_mul, Nat.add_comm]

/-- Reading back what was written gives the number, cut off at `count`
bytes, wherever in the list the bytes stand. -/
theorem read_write (front back : List UInt8) (count value : Nat) :
    read (front ++ write count value ++ back) front.length count
      = value % 2 ^ (8 * count) := by
  have hsteps : ∀ k ≤ count, read (front ++ write count value ++ back) front.length k
      = value % 2 ^ (8 * k) := by
    intro k hk
    induction k with
    | zero => simp [read, Nat.mod_one]
    | succ k ih =>
        have hbyte : (front ++ write count value ++ back).getD (front.length + k) 0
            = UInt8.ofNat ((value >>> (8 * k)) &&& 0xFF) := by
          rw [List.getD_eq_getElem?_getD, List.append_assoc,
            List.getElem?_append_right (by omega), Nat.add_sub_cancel_left,
            List.getElem?_append_left (by rw [write_length]; exact hk), write_getElem? hk]
          rfl
        have hprev := ih (by omega)
        unfold read at hprev ⊢
        rw [List.range_succ, List.foldl_append, hprev, List.foldl_cons, List.foldl_nil,
          hbyte, byte_toNat, or_digit]
        rfl
  exact hsteps count (Nat.le_refl count)

end LittleEndian
