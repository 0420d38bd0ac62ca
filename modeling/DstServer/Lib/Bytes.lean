import DstServer.Lib.Outcome

/-!
# Fields of byte strings

Rust slices a byte string by a range, and panics when the range does not fit.
`slice` and `readLe` do the same; `field` is the number that a little-endian
field holds, and is total.

* `yields_slice` and `yields_readLe` are the rules of the two operations: in
  range they do not panic, and what they return is known.
* `window_window` and `field_window` move a position from a part of a byte
  string to the whole.
-/

namespace Lib.Bytes

open Outcome

/-- The bytes from `start` to `stop`, where they exist. -/
def window (bytes : List UInt8) (start length : Nat) : List UInt8 :=
  (bytes.drop start).take length

/-- `&bytes[start..stop]` -/
def slice {ε : Type} (bytes : List UInt8) (start stop : Nat) : Outcome ε (List UInt8) :=
  if start ≤ stop ∧ stop ≤ bytes.length then .ok (window bytes start (stop - start))
  else panics "range out of range for slice"

/-- The number with these bytes, the lowest first. -/
def fromLe : List UInt8 → Nat
  | [] => 0
  | byte :: rest => byte.toNat + 256 * fromLe rest

/-- The number of a little-endian field. -/
def field (bytes : List UInt8) (offset width : Nat) : Nat := fromLe (window bytes offset width)

/-- `from_le_bytes` of the bytes at an offset. -/
def readLe {ε : Type} (width : Nat) (bytes : List UInt8) (offset : Nat) : Outcome ε Nat := do
  let bytes ← slice bytes offset (offset + width)
  pure (fromLe bytes)

theorem fromLe_lt (bytes : List UInt8) : fromLe bytes < 256 ^ bytes.length := by
  induction bytes with
  | nil => exact Nat.one_pos
  | cons byte bytes ih =>
    have hbyte := byte.toNat_lt
    show byte.toNat + 256 * fromLe bytes < 256 ^ (bytes.length + 1)
    rw [Nat.pow_succ]
    omega

theorem length_window_le (bytes : List UInt8) (start length : Nat) :
    (window bytes start length).length ≤ length := by
  unfold window
  rw [List.length_take]
  exact Nat.min_le_left _ _

theorem length_window (bytes : List UInt8) (start length : Nat) (h : start + length ≤ bytes.length) :
    (window bytes start length).length = length := by
  unfold window
  rw [List.length_take, List.length_drop]
  omega

theorem field_lt (bytes : List UInt8) (offset width : Nat) :
    field bytes offset width < 256 ^ width :=
  Nat.lt_of_lt_of_le (fromLe_lt _)
    (Nat.pow_le_pow_right (by omega) (length_window_le bytes offset width))

/-! ## The rules of the operations -/

section Rules

variable {ε : Type} {bytes : List UInt8}

theorem yields_slice {start stop : Nat} (h : start ≤ stop) (hstop : stop ≤ bytes.length) :
    Yields (slice bytes start stop : Outcome ε (List UInt8)) fun part =>
      part = window bytes start (stop - start) := by
  unfold slice
  rw [if_pos ⟨h, hstop⟩]
  exact yields_ok rfl

theorem yields_readLe (offset : Nat) {width : Nat} (h : offset + width ≤ bytes.length) :
    Yields (readLe width bytes offset : Outcome ε Nat) fun n => n = field bytes offset width := by
  unfold readLe
  refine (yields_slice (Nat.le_add_right offset width) h).bind fun part hpart => yields_ok ?_
  rw [hpart, Nat.add_sub_cancel_left]
  rfl

end Rules

/-! ## Parts of a byte string -/

section Parts

variable (bytes : List UInt8)

theorem window_window (start length start' length' : Nat) (h : start' + length' ≤ length) :
    window (window bytes start length) start' length' = window bytes (start + start') length' := by
  unfold window
  rw [List.drop_take, List.take_take, List.drop_drop]
  congr 1
  omega

theorem field_window (start length offset width : Nat) (h : offset + width ≤ length) :
    field (window bytes start length) offset width = field bytes (start + offset) width := by
  unfold field
  rw [window_window bytes start length offset width h]

theorem window_zero (length : Nat) : window bytes 0 length = bytes.take length := rfl

theorem window_append (start length length' : Nat) :
    window bytes start (length + length') =
      window bytes start length ++ window bytes (start + length) length' := by
  unfold window
  rw [List.take_add, List.drop_drop]

end Parts

end Lib.Bytes
