import DstServer.Lib.Json
import DstServer.Lib.OrderedMap

/-!
# The fields of a JSON object

An object whose fields are in key order is an ordered map, and `Fields` is
that map.  `Json.ofFields` and `Json.fields` go from one to the other.

`OrderedMap.extend` inserts the entries of a second map, which win over the
entries of the first one.  A map that has the keys of another one absorbs it
from the left (`extend_of_covers`).
-/

namespace Lib

namespace OrderedMap

variable {κ α : Type} [LinearOrder κ] {m p q : OrderedMap κ α} {k : κ} {v : α}

/-- `Extend::extend`: insert the entries of `p` one after another. -/
def extend (m p : OrderedMap κ α) : OrderedMap κ α :=
  p.entries.foldl (fun m e => m.insert e.1 e.2) m

theorem get?_extend (m p : OrderedMap κ α) (k : κ) :
    (m.extend p).get? k = (p.get? k).or (m.get? k) :=
  get?_foldl_insert p.keys_nodup m k

theorem get?_extend_eq_some (h : (m.extend p).get? k = some v) :
    p.get? k = some v ∨ m.get? k = some v := by
  rw [get?_extend, Option.or_eq_some_iff] at h
  exact h.imp id And.right

@[simp] theorem extend_empty (m : OrderedMap κ α) : m.extend empty = m := rfl

@[simp] theorem empty_extend (m : OrderedMap κ α) : empty.extend m = m := ofList_entries m

theorem mem_keys_extend : k ∈ (m.extend p).keys ↔ k ∈ m.keys ∨ k ∈ p.keys := by
  simp only [← not_iff_not (a := k ∈ _), not_or, ← get?_eq_none_iff, get?_extend,
    Option.or_eq_none_iff]
  exact And.comm

/-- Every key of `p` is a key of `m`. -/
def Covers (m p : OrderedMap κ α) : Prop := ∀ k ∈ p.keys, k ∈ m.keys

theorem covers_empty (m : OrderedMap κ α) : m.Covers empty := by
  intro k hk
  simp at hk

theorem Covers.extend_right (h : m.Covers p) (q : OrderedMap κ α) :
    (m.extend q).Covers (p.extend q) := by
  intro k hk
  exact mem_keys_extend.2 ((mem_keys_extend.1 hk).imp (h k) id)

theorem covers_extend (m p : OrderedMap κ α) : (m.extend p).Covers m := by
  intro k hk
  exact mem_keys_extend.2 (Or.inl hk)

/-- A map absorbs the maps whose keys it has. -/
theorem extend_of_covers (h : m.Covers p) : p.extend m = m := by
  apply ext_get?
  intro k
  rw [get?_extend]
  cases hm : m.get? k with
  | some v => exact Option.some_or
  | none =>
    have hk : k ∉ p.keys := fun hp => get?_eq_none_iff.1 hm (h k hp)
    rw [get?_eq_none_iff.2 hk, Option.or_none]

/-- To insert what is there already changes nothing. -/
theorem insert_self (h : m.get? k = some v) : m.insert k v = m := by
  apply ext_get?
  intro x
  rw [get?_insert]
  split_ifs with hx
  · rw [hx, h]
  · rfl

/-- A traversal that leaves each value as it is leaves the map as it is. -/
theorem eq_of_mapM {ε : Type} {f : κ → α → Outcome ε α} (h : m.mapM f = .ok p)
    (hf : ∀ k v w, m.get? k = some v → f k v = .ok w → w = v) : p = m := by
  apply ext_get?
  intro k
  cases hv : m.get? k with
  | some v =>
    obtain ⟨w, hw, hget⟩ := get?_of_mapM h hv
    rw [hget, hf k v w hv hw]
  | none =>
    rw [get?_eq_none_iff, keys_of_mapM h]
    exact get?_eq_none_iff.1 hv

theorem get?_mem_keys (h : m.get? k = some v) : k ∈ m.keys := mem_keys_iff.2 ⟨v, h⟩

end OrderedMap

/-! ## Objects -/

/-- The fields of an object. -/
abbrev Fields : Type := OrderedMap String Json

namespace Json

def ofFields (fields : Fields) : Json := .object fields.entries

/-- The fields of a value, which has none when it is no object. -/
def fields (value : Json) : Fields := .ofList (value.asObject?.getD [])

@[simp] theorem fields_ofFields (m : Fields) : (ofFields m).fields = m := m.ofList_entries

@[simp] theorem get?_ofFields (m : Fields) (key : String) :
    (ofFields m).get? key = m.get? key := rfl

/-- `value[key] = field` for an object. -/
def set (value : Json) (key : String) (field : Json) : Json :=
  ofFields (value.fields.insert key field)

@[simp] theorem set_ofFields (m : Fields) (key : String) (field : Json) :
    (ofFields m).set key field = ofFields (m.insert key field) := by
  rw [set, fields_ofFields]

end Json

end Lib
