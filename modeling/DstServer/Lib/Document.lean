import DstServer.Lib.Numeral

/-!
# Places in a JSON document

A document is a tree, and a place in it is the list of the field names and
the array indices on the way, as an RFC 6901 pointer spells them.

* `item?` is one step down, and `lookup` goes to a place.
* `setItem` replaces what lies one step down; `item?_setItem` says what it
  does to every step.
* `overlay` is a document laid over another one that fills the absent fields
  of its objects; an array is taken as a whole.  `item?_layered` is one step
  down in such a document.
-/

namespace Lib.Json

/-- The index that a part of a pointer spells: decimal digits without a
leading zero. -/
def index? (part : String) : Option Nat :=
  if part = "0" ∨ part.toList.head? ≠ some '0' then digits? part.toList else none

/-- One step down. -/
def item? (value : Json) (part : String) : Option Json :=
  match value with
  | .object fields => fields.lookup part
  | .array items => (index? part).bind (items[·]?)
  | _ => none

/-- What lies at a place. -/
def lookup (value : Json) : List String → Option Json
  | [] => some value
  | part :: rest => (value.item? part).bind fun item => item.lookup rest

/-- Replace what lies one step down. -/
def setItem (value : Json) (part : String) (item : Json) : Json :=
  match value with
  | .object fields => .object (insertField part item fields)
  | .array items =>
    match index? part with
    | some index => .array (items.set index item)
    | none => .array items
  | other => other

def isArray : Json → Bool
  | .array _ => true
  | _ => false

theorem lookup_append (value : Json) (place rest : List String) :
    value.lookup (place ++ rest) = (value.lookup place).bind fun item => item.lookup rest := by
  induction place generalizing value with
  | nil => rfl
  | cons part place ih =>
    show (value.item? part).bind (fun item => item.lookup (place ++ rest)) = _
    rw [lookup, Option.bind_assoc]
    congr 1
    funext item
    exact ih item

/-! ## Indices -/

theorem toList_of_index? {part : String} {index : Nat} (h : index? part = some index) :
    part.toList = Text.decimal index := by
  unfold index? at h
  split at h
  · rename_i hform
    have hall : part.toList ≠ [] ∧ part.toList.all Char.isDigit = true := by
      by_contra hnot
      unfold digits? at h
      rw [if_neg hnot] at h
      cases h
    have hvalue : Numeral.digits part.toList = index := by
      unfold digits? at h
      rw [if_pos hall] at h
      exact Option.some.inj h
    rcases hform with hpart | hzero
    · subst hpart
      rw [← hvalue]
      decide
    · rw [← hvalue]
      exact (Numeral.decimal_digits (List.all_eq_true.1 hall.2) hall.1 hzero).2.symm
  · cases h

/-- Every index is spelt by its decimal text. -/
theorem index?_decimal (index : Nat) : index? (.ofList (Text.decimal index)) = some index := by
  unfold index?
  rw [String.toList_ofList, digits?_decimal, if_pos]
  by_cases hzero : (Text.decimal index).head? = some '0'
  · left
    rw [Numeral.head?_decimal index hzero]
    decide
  · exact Or.inr hzero

/-- Two spellings of an index are the same. -/
theorem index?_inj {part part' : String} {index : Nat} (h : index? part = some index)
    (h' : index? part' = some index) : part = part' :=
  String.toList_inj.1 ((toList_of_index? h).trans (toList_of_index? h').symm)

/-! ## Fields -/

theorem lookup_field (name other : String) (found : Json) (rest : List (String × Json)) :
    List.lookup other ((name, found) :: rest) =
      if other = name then some found else rest.lookup other := by
  rw [List.lookup_cons]
  by_cases h : other = name
  · rw [if_pos h, beq_iff_eq.2 h]
  · rw [if_neg h, beq_eq_false_iff_ne.2 h]

theorem lookup_insertField (key other : String) (value : Json) (fields : List (String × Json)) :
    (insertField key value fields).lookup other =
      if other = key then some value else fields.lookup other := by
  induction fields with
  | nil => exact lookup_field key other value []
  | cons field rest ih =>
    obtain ⟨name, found⟩ := field
    unfold insertField
    by_cases hlt : key < name
    · rw [if_pos hlt, lookup_field]
    · rw [if_neg hlt]
      by_cases heq : key = name
      · rw [if_pos heq, lookup_field, lookup_field, heq]
        split_ifs <;> rfl
      · rw [if_neg heq, lookup_field, lookup_field, ih]
        by_cases hname : other = name
        · rw [if_pos hname, if_pos hname, if_neg fun hkey => heq (hkey.symm.trans hname)]
        · rw [if_neg hname, if_neg hname]

theorem lookup_removeField (key other : String) (fields : List (String × Json)) :
    (removeField key fields).lookup other = if other = key then none else fields.lookup other := by
  induction fields with
  | nil =>
    show none = if other = key then none else none
    rw [ite_self]
  | cons field rest ih =>
    obtain ⟨name, found⟩ := field
    unfold removeField at ih ⊢
    rw [List.filter_cons, lookup_field]
    by_cases hname : name = key
    · rw [if_neg (by simpa using hname), ih, hname]
      split_ifs <;> rfl
    · rw [if_pos (by simpa using hname), lookup_field, ih]
      by_cases hother : other = name
      · have hkey : ¬other = key := fun h => hname (hother.symm.trans h)
        simp only [if_pos hother, if_neg hkey]
      · rw [if_neg hother, if_neg hother]

/-! ## Replacing -/

/-- A step to another part is not affected. -/
theorem item?_setItem_of_ne (value : Json) {part other : String} (item : Json) (h : other ≠ part) :
    (value.setItem part item).item? other = value.item? other := by
  cases value with
  | object fields =>
    show (insertField part item fields).lookup other = _
    rw [lookup_insertField, if_neg h]
    rfl
  | array items =>
    unfold setItem
    cases hindex : index? part with
    | none => rfl
    | some index =>
      show (index? other).bind _ = (index? other).bind _
      cases hother : index? other with
      | none => rfl
      | some index' =>
        have hne : index ≠ index' := by
          intro heq
          subst heq
          exact h (index?_inj hother hindex)
        show (items.set index item)[index']? = items[index']?
        rw [List.getElem?_set_ne hne]
  | null => rfl
  | bool _ => rfl
  | number _ => rfl
  | string _ => rfl

theorem item?_setItem_self {value : Json} {part : String} (item : Json)
    (h : (value.item? part).isSome = true) : (value.setItem part item).item? part = some item := by
  cases value with
  | object fields =>
    show (insertField part item fields).lookup part = _
    rw [lookup_insertField, if_pos rfl]
  | array items =>
    change ((index? part).bind (items[·]?)).isSome = true at h
    cases hindex : index? part with
    | none =>
      rw [hindex] at h
      cases h
    | some index =>
      rw [hindex] at h
      unfold setItem
      rw [hindex]
      show (index? part).bind _ = some item
      rw [hindex]
      show (items.set index item)[index]? = some item
      have hlt : index < items.length := by
        by_contra hge
        rw [Option.bind_some, List.getElem?_eq_none (Nat.le_of_not_lt hge)] at h
        cases h
      rw [List.getElem?_set_self hlt]
  | null => cases h
  | bool _ => cases h
  | number _ => cases h
  | string _ => cases h

/-- A step from an object that gains a field. -/
theorem item?_insertField (part other : String) (item : Json) (fields : List (String × Json)) :
    (Json.object (insertField part item fields)).item? other =
      if other = part then some item else (Json.object fields).item? other :=
  lookup_insertField part other item fields

/-! ## Layers -/

mutual

/-- A document over another one: the fields of objects are taken together,
and everything else replaces what lies below. -/
def overlay : Json → Json → Json
  | .object fields, .object defaults => .object (overlayFields fields defaults)
  | value, _ => value

def overlayFields : List (String × Json) → List (String × Json) → List (String × Json)
  | [], defaults => defaults
  | (key, value) :: rest, defaults =>
    insertField key
      (match defaults.lookup key with
        | some default => overlay value default
        | none => value)
      (overlayFields rest defaults)

end

/-- A document over one that may be absent. -/
def layered (value : Json) (default? : Option Json) : Json :=
  match default? with
  | some default => overlay value default
  | none => value

/-- A document that may be absent over one that may be absent. -/
def layered? (value? default? : Option Json) : Option Json :=
  match value? with
  | some value => some (layered value default?)
  | none => default?

theorem lookup_overlayFields (fields defaults : List (String × Json)) (key : String) :
    (overlayFields fields defaults).lookup key =
      layered? (fields.lookup key) (defaults.lookup key) := by
  induction fields with
  | nil => rfl
  | cons field rest ih =>
    obtain ⟨name, value⟩ := field
    rw [overlayFields, lookup_insertField, List.lookup_cons, ih]
    by_cases h : key = name
    · subst h
      simp only [beq_self_eq_true, if_pos]
      cases defaults.lookup key <;> rfl
    · rw [if_neg h]
      simp only [beq_eq_false_iff_ne.2 h]

/-- Nothing lies over the document below. -/
theorem layered_empty (fields : List (String × Json)) :
    layered (.object []) (some (.object fields)) = .object fields := by
  rw [layered, overlay, overlayFields]

/-- An array is taken as a whole. -/
theorem layered_array (items : List Json) (default? : Option Json) :
    layered (.array items) default? = .array items := by
  cases default? with
  | none => rfl
  | some default =>
    rw [layered, overlay]
    exact fun _ _ h _ => nomatch h

/-- The document below one step, where both are objects. -/
def underneath (value : Json) (default? : Option Json) (part : String) : Option Json :=
  match value, default? with
  | .object _, some (.object defaults) => defaults.lookup part
  | _, _ => none

/-- Which fields an object has does not matter to what lies below. -/
theorem underneath_object (fields others : List (String × Json)) (default? : Option Json)
    (part : String) :
    underneath (.object fields) default? part = underneath (.object others) default? part := by
  cases default? with
  | none => rfl
  | some default => cases default <;> rfl

theorem underneath_setItem (value : Json) (part : String) (item : Json) (default? : Option Json)
    (other : String) :
    underneath (value.setItem part item) default? other = underneath value default? other := by
  cases value with
  | object fields => exact underneath_object _ fields default? other
  | array items =>
    unfold setItem
    cases index? part <;> rfl
  | _ => rfl

/-- One step down in a layered document. -/
theorem item?_layered (value : Json) (default? : Option Json) (part : String) :
    (layered value default?).item? part =
      layered? (value.item? part) (underneath value default? part) := by
  have hplain : layered? (value.item? part) none = value.item? part := by
    cases value.item? part <;> rfl
  cases default? with
  | none =>
    have hbelow : underneath value none part = none := by cases value <;> rfl
    rw [hbelow, hplain]
    rfl
  | some default =>
    cases value with
    | object fields =>
      cases default with
      | object defaults =>
        show (overlay (.object fields) (.object defaults)).item? part = _
        rw [overlay]
        exact lookup_overlayFields fields defaults part
      | null => rw [show underneath _ _ part = none from rfl, hplain]; rfl
      | bool _ => rw [show underneath _ _ part = none from rfl, hplain]; rfl
      | number _ => rw [show underneath _ _ part = none from rfl, hplain]; rfl
      | string _ => rw [show underneath _ _ part = none from rfl, hplain]; rfl
      | array _ => rw [show underneath _ _ part = none from rfl, hplain]; rfl
    | null => rfl
    | bool _ => rfl
    | number _ => rfl
    | string _ => rfl
    | array items => rw [show underneath _ _ part = none from rfl, hplain]; rfl

/-- What lies at a place of a document lies there in the layered one, over
something or nothing. -/
theorem lookup_layered {value found : Json} {place : List String}
    (h : value.lookup place = some found) (default? : Option Json) :
    ∃ below?, (layered value default?).lookup place = some (layered found below?) := by
  induction place generalizing value default? with
  | nil =>
    cases h
    exact ⟨default?, rfl⟩
  | cons part place ih =>
    rw [lookup, Option.bind_eq_some_iff] at h
    obtain ⟨item, hitem, hfound⟩ := h
    obtain ⟨below?, hbelow⟩ := ih hfound (underneath value default? part)
    refine ⟨below?, ?_⟩
    rw [lookup, item?_layered, hitem]
    exact hbelow

/-- What is no object replaces what lies below it. -/
theorem layered_eq_self {value : Json} (h : value.isObject = false) (default? : Option Json) :
    layered value default? = value := by
  cases default? with
  | none => rfl
  | some default =>
    cases value with
    | object _ => cases h
    | array items => exact layered_array items (some default)
    | _ => rfl

theorem isObject_layered {value : Json} (h : value.isObject = true) (default? : Option Json) :
    (layered value default?).isObject = true := by
  cases value with
  | object fields =>
    cases default? with
    | none => rfl
    | some default => cases default <;> rfl
  | _ => cases h

end Lib.Json
