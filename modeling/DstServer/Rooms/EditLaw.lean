import DstServer.Rooms.Edit
import DstServer.Lib.Document

/-!
# What an edit changes

An edit creates the parents of its field from the defaults.  The effective
configuration is the data over the defaults, so a parent that is a default
object or array leaves it as it was, except where it does not look through to
that default: an array of the data hides what the defaults have below it.
`Seen` says that no default array is created at such a place.

`editBelow_law` is the induction over the parents.  `SetLaw` and `UnsetLaw`
are what follows for the last part of a pointer.
-/

namespace DstServer.Rooms

open Lib Outcome

/-! ## Steps -/

theorem pointerIndex_eq_ok {part : String} {length index : Nat} :
    pointerIndex part length = .ok index ↔ Json.index? part = some index ∧ index < length := by
  unfold pointerIndex
  simp only [bind_eq_ok, orError_eq_ok, ensure_eq_ok, pure_eq_ok, Except.ok.injEq]
  constructor
  · intro h
    obtain ⟨found, hfound, _, _, _, hlt, heq⟩ := h
    subst heq
    exact ⟨hfound, hlt⟩
  · intro h
    exact ⟨index, h.1, (), Or.inr h.2, (), h.2, rfl⟩

/-- One step to an item reaches what lies there. -/
theorem pointerItem_eq_ok {value : Json} {part : String} {item : Json} :
    pointerItem value part = .ok item ↔ value.item? part = some item := by
  cases value with
  | object fields => exact orError_eq_ok
  | array items =>
    unfold pointerItem
    show _ ↔ (Json.index? part).bind (items[·]?) = some item
    simp only [bind_eq_ok, pointerIndex_eq_ok, unwrap_eq_ok, Option.bind_eq_some_iff]
    constructor
    · intro h
      obtain ⟨index, hindex, hitem⟩ := h
      exact ⟨index, hindex.1, hitem⟩
    · intro h
      obtain ⟨index, hindex, hitem⟩ := h
      have hlt : index < items.length := (List.getElem?_eq_some_iff.1 hitem).1
      exact ⟨index, ⟨hindex, hlt⟩, hitem⟩
  | null => simp [pointerItem, Json.item?]
  | bool _ => simp [pointerItem, Json.item?]
  | number _ => simp [pointerItem, Json.item?]
  | string _ => simp [pointerItem, Json.item?]

/-- One step of the loop over the parents: the fallback and the item it goes
on with, and the target that has the item. -/
inductive Descent (target fallback : Json) (part : String) : Json → Json → Json → Prop where
  /-- Both have an item. -/
  | both {default item : Json} (hfallback : fallback.item? part = some default)
      (htarget : target.item? part = some item) : Descent target fallback part default item target
  /-- Only the target has one. -/
  | own {item : Json} (hfallback : fallback.item? part = none)
      (htarget : target.item? part = some item) : Descent target fallback part item item target
  /-- An object of the defaults is created without its fields. -/
  | object {fields defaults : List (String × Json)} (htarget : target = .object fields)
      (habsent : fields.lookup part = none)
      (hfallback : fallback.item? part = some (.object defaults)) :
      Descent target fallback part (.object defaults) (.object [])
        (.object (Json.insertField part (.object []) fields))
  /-- An array of the defaults is created with its items. -/
  | array {fields : List (String × Json)} {items : List Json} (htarget : target = .object fields)
      (habsent : fields.lookup part = none)
      (hfallback : fallback.item? part = some (.array items)) :
      Descent target fallback part (.array items) (.array items)
        (.object (Json.insertField part (.array items) fields))

theorem materialize_of_item {target fallback : Json} {part : String}
    (h : (target.item? part).isSome = true) : materialize target fallback part = target := by
  unfold materialize
  split
  · exact if_pos h
  · rfl

theorem descent_of_step {target fallback default item : Json} {part : String}
    (hdefault : fallbackItem fallback target part = .ok default)
    (hitem : pointerItem (materialize target default part) part = .ok item) :
    Descent target fallback part default item (materialize target default part) := by
  rw [pointerItem_eq_ok] at hitem
  unfold fallbackItem at hdefault
  cases hfallback : fallback.item? part with
  | none =>
    have herror : ∀ found, pointerItem fallback part ≠ .ok found := by
      intro found hfound
      rw [pointerItem_eq_ok, hfallback] at hfound
      cases hfound
    have htarget : target.item? part = some default := by
      rw [← pointerItem_eq_ok]
      split at hdefault
      · rename_i found hfound
        exact absurd hfound (herror found)
      · exact hdefault
    have hkept : materialize target default part = target :=
      materialize_of_item (by rw [htarget]; rfl)
    rw [hkept, htarget] at hitem
    cases hitem
    rw [hkept]
    exact .own hfallback htarget
  | some found =>
    rw [pointerItem_eq_ok.2 hfallback] at hdefault
    cases hdefault
    by_cases hhas : (target.item? part).isSome = true
    · rw [materialize_of_item hhas] at hitem ⊢
      exact .both hfallback hitem
    · have hnone : target.item? part = none := by simpa using hhas
      unfold materialize at hitem ⊢
      split at hitem
      · rename_i fields
        change fields.lookup part = none at hnone
        rw [if_neg (by rw [hnone]; decide)] at hitem ⊢
        split at hitem
        · rw [Json.item?_insertField, if_pos rfl] at hitem
          cases hitem
          exact .object rfl hnone hfallback
        · rw [Json.item?_insertField, if_pos rfl] at hitem
          cases hitem
          exact .array rfl hnone hfallback
        · change fields.lookup part = some item at hitem
          rw [hnone] at hitem
          cases hitem
      · rw [hnone] at hitem
        cases hitem

/-- The loop takes a step and puts the changed item back. -/
theorem editBelow_cons {key part : String} {value target fallback target' : Json} {unset : Bool}
    {rest : List String}
    (h : editBelow key value unset (part :: rest) target fallback = .ok target') :
    ∃ default item opened item', Descent target fallback part default item opened ∧
      editBelow key value unset rest item default = .ok item' ∧
      target' = opened.setItem part item' := by
  unfold editBelow at h
  rw [bind_eq_ok] at h
  obtain ⟨default, hdefault, h⟩ := h
  rw [bind_eq_ok] at h
  obtain ⟨item, hitem, h⟩ := h
  rw [bind_eq_ok] at h
  obtain ⟨item', hrest, h⟩ := h
  cases h
  exact ⟨default, item, _, item', descent_of_step hdefault hitem, hrest, rfl⟩

namespace Descent

variable {target fallback default found opened : Json} {part : String}

theorem item (h : Descent target fallback part default found opened) :
    opened.item? part = some found := by
  cases h with
  | both _ htarget => exact htarget
  | own _ htarget => exact htarget
  | object => rw [Json.item?_insertField, if_pos rfl]
  | array => rw [Json.item?_insertField, if_pos rfl]

theorem others (h : Descent target fallback part default found opened) {other : String}
    (hother : other ≠ part) : opened.item? other = target.item? other := by
  cases h with
  | both => rfl
  | own => rfl
  | object htarget => rw [Json.item?_insertField, if_neg hother, htarget]
  | array htarget => rw [Json.item?_insertField, if_neg hother, htarget]

theorem underneath (h : Descent target fallback part default found opened)
    (default? : Option Json) (other : String) :
    Json.underneath opened default? other = Json.underneath target default? other := by
  cases h with
  | both => rfl
  | own => rfl
  | object htarget => rw [htarget, Json.underneath_object]
  | array htarget => rw [htarget, Json.underneath_object]

end Descent

/-! ## What the effective configuration looks through to -/

/-- The data has a value wherever the defaults have an array on the way to a
place. -/
def Present (data defaults : Json) (place : List String) : Prop :=
  ∀ above items, above <+: place → defaults.lookup above = some (.array items) →
    (data.lookup above).isSome = true

/-- No default array is created below an array that hides it: from where
the data and the defaults part on an array, the data has its own values in
place of all default arrays on the way. -/
def Seen (data defaults : Json) (place : List String) : Prop :=
  ∀ above rest value default, above ++ rest = place → data.lookup above = some value →
    defaults.lookup above = some default → value ≠ default →
    value.isArray = true ∨ default.isArray = true → Present value default rest

/-- What the loop over the parents keeps: the fallback is what the data has
itself, or what the effective configuration has below the data, or it lies
at a place that the effective configuration does not look through to. -/
inductive Placed (target fallback : Json) (default? : Option Json) (place : List String) : Prop where
  | same (h : target = fallback)
  | layered (hdefault : default? = some fallback) (hseen : Seen target fallback place)
  | hidden (hdefault : default? = none) (hpresent : Present target fallback place)

theorem Present.step {target fallback default item : Json} {part : String} {rest : List String}
    (h : Present target fallback (part :: rest)) (hitem : target.item? part = some item)
    (hdefault : fallback.item? part = some default) : Present item default rest := by
  intro above items habove hitems
  have hlookup : fallback.lookup (part :: above) = some (.array items) := by
    rw [Json.lookup, hdefault, Option.bind_some, hitems]
  have hsome := h (part :: above) items (List.cons_prefix_cons.2 ⟨rfl, habove⟩) hlookup
  rw [Json.lookup, hitem, Option.bind_some] at hsome
  exact hsome

theorem Seen.step {target fallback default item : Json} {part : String} {rest : List String}
    (h : Seen target fallback (part :: rest)) (hitem : target.item? part = some item)
    (hdefault : fallback.item? part = some default) : Seen item default rest := by
  intro above rest' value default' hrest hvalue hdefault' hne harray
  apply h (part :: above) rest' value default' (by rw [List.cons_append, hrest]) _ _ hne harray
  · rw [Json.lookup, hitem, Option.bind_some, hvalue]
  · rw [Json.lookup, hdefault, Option.bind_some, hdefault']

/-- Nothing lies in an empty object. -/
theorem lookup_empty {above : List String} {value : Json}
    (h : (Json.object []).lookup above = some value) : above = [] ∧ value = .object [] := by
  cases above with
  | nil => exact ⟨rfl, (Option.some.inj h).symm⟩
  | cons part above => cases h

/-- Where the defaults are the data over something else, it looks through to
all of them. -/
theorem seen_overlay (data base : Json) (place : List String) :
    Seen data (Json.overlay data base) place := by
  intro above rest value default _ hvalue hdefault hne harray
  obtain ⟨below?, hbelow⟩ := Json.lookup_layered hvalue (some base)
  change (Json.overlay data base).lookup above = _ at hbelow
  rw [hbelow] at hdefault
  cases hdefault
  cases hobject : value.isObject with
  | false => exact absurd (Json.layered_eq_self hobject below?).symm hne
  | true =>
    have hlayered := Json.isObject_layered hobject below?
    rcases harray with harray | harray
    · cases value with
      | array => cases hobject
      | _ => cases harray
    · cases hresult : Json.layered value below? with
      | array items =>
        rw [hresult] at hlayered
        cases hlayered
      | _ =>
        rw [hresult] at harray
        cases harray

/-- An empty object hides nothing of an object. -/
theorem seen_empty (defaults : List (String × Json)) (place : List String) :
    Seen (.object []) (.object defaults) place := by
  intro above rest value default _ hvalue hdefault _ harray
  obtain ⟨habove, hvalue⟩ := lookup_empty hvalue
  rw [habove] at hdefault
  cases hdefault
  rw [hvalue] at harray
  simp [Json.isArray] at harray

namespace Descent

variable {target fallback default found opened : Json} {part : String} {rest : List String}

/-- Below a place that the data has itself, the fallback is the data. -/
theorem of_same (h : Descent target target part default found opened) :
    target.item? part = some found ∧ found = default := by
  cases h with
  | both hfallback htarget =>
    rw [hfallback] at htarget
    exact ⟨hfallback.trans htarget, (Option.some.inj htarget).symm⟩
  | own _ htarget => exact ⟨htarget, rfl⟩
  | object htarget habsent hfallback =>
    rw [htarget] at hfallback
    cases habsent.symm.trans hfallback
  | array htarget habsent hfallback =>
    rw [htarget] at hfallback
    cases habsent.symm.trans hfallback

/-- Without a default item, the fallback is the data as well. -/
theorem of_none (h : Descent target fallback part default found opened)
    (hnone : fallback.item? part = none) : target.item? part = some found ∧ found = default := by
  cases h with
  | both hfallback => cases hnone.symm.trans hfallback
  | own _ htarget => exact ⟨htarget, rfl⟩
  | object _ _ hfallback => cases hnone.symm.trans hfallback
  | array _ _ hfallback => cases hnone.symm.trans hfallback

/-- Where the defaults of a step are those of the effective configuration,
they are the fallback. -/
theorem layered_object {fields defaults : List (String × Json)}
    (h : Descent (.object fields) (.object defaults) part default found opened)
    (hseen : Seen (.object fields) (.object defaults) (part :: rest)) :
    Json.layered? (fields.lookup part) (defaults.lookup part) =
        some (Json.layered found (defaults.lookup part)) ∧
      Placed found default (defaults.lookup part) rest := by
  cases h with
  | both hfallback htarget =>
    have hvalue : fields.lookup part = some found := htarget
    have hdefault : defaults.lookup part = some default := hfallback
    rw [hvalue, hdefault]
    exact ⟨rfl, .layered rfl (hseen.step htarget hfallback)⟩
  | own hfallback htarget =>
    have hvalue : fields.lookup part = some _ := htarget
    rw [hvalue]
    exact ⟨rfl, .same rfl⟩
  | object htarget habsent hfallback =>
    cases htarget
    have hdefault : defaults.lookup part = some (.object _) := hfallback
    rw [habsent, hdefault, Json.layered_empty]
    exact ⟨rfl, .layered rfl (seen_empty _ rest)⟩
  | array htarget habsent hfallback =>
    cases htarget
    have hdefault : defaults.lookup part = some (.array _) := hfallback
    rw [habsent, hdefault, Json.layered_array]
    exact ⟨rfl, .same rfl⟩

/-- Where no default is in effect, an object may be created, but no array. -/
theorem hidden (h : Descent target fallback part default found opened)
    (hpresent : Present target fallback (part :: rest)) :
    Placed found default none rest ∧
      (target.item? part = some found ∨ target.item? part = none ∧ found = .object []) := by
  cases h with
  | both hfallback htarget =>
    exact ⟨.hidden rfl (hpresent.step htarget hfallback), Or.inl htarget⟩
  | own _ htarget => exact ⟨.same rfl, Or.inl htarget⟩
  | object htarget habsent hfallback =>
    subst htarget
    refine ⟨.hidden rfl ?_, Or.inr ⟨habsent, rfl⟩⟩
    intro above items habove hitems
    have hlookup : fallback.lookup (part :: above) = some (.array items) := by
      rw [Json.lookup, hfallback, Option.bind_some, hitems]
    have hsome := hpresent (part :: above) items (List.cons_prefix_cons.2 ⟨rfl, habove⟩) hlookup
    change ((List.lookup part _).bind _).isSome = true at hsome
    rw [habsent] at hsome
    cases hsome
  | @array fields items htarget habsent hfallback =>
    subst htarget
    have hlookup : fallback.lookup [part] = some (.array items) := by
      rw [Json.lookup, hfallback, Option.bind_some, Json.lookup]
    have hsome := hpresent [part] items (List.cons_prefix_cons.2 ⟨rfl, List.nil_prefix⟩) hlookup
    change ((List.lookup part _).bind _).isSome = true at hsome
    rw [habsent] at hsome
    cases hsome

/-- One step keeps the fallback in its place, and the effective configuration
has below the step what it has below the item. -/
theorem placed (h : Descent target fallback part default found opened) {default? : Option Json}
    (hplaced : Placed target fallback default? (part :: rest)) :
    Placed found default (Json.underneath target default? part) rest ∧
      ∀ place, place ≠ [] → (Json.layered target default?).lookup (part :: place) =
        (Json.layered found (Json.underneath target default? part)).lookup place := by
  have hfound (hitem : target.item? part = some found) (place : List String) :
      (Json.layered target default?).lookup (part :: place) =
        (Json.layered found (Json.underneath target default? part)).lookup place := by
    rw [Json.lookup, Json.item?_layered, hitem]
    rfl
  have hcreated (hnone : Json.underneath target default? part = none)
      (hitem : target.item? part = some found ∨ target.item? part = none ∧ found = .object [])
      (place : List String) (hplace : place ≠ []) :
      (Json.layered target default?).lookup (part :: place) =
        (Json.layered found (Json.underneath target default? part)).lookup place := by
    rcases hitem with hitem | hitem
    · exact hfound hitem place
    · rw [Json.lookup, Json.item?_layered, hitem.1, hitem.2, hnone]
      cases place with
      | nil => exact absurd rfl hplace
      | cons => rfl
  have hnothing (hnone : Json.underneath target default? part = none)
      (hpresent : Present target fallback (part :: rest)) :
      Placed found default (Json.underneath target default? part) rest ∧
        ∀ place, place ≠ [] → (Json.layered target default?).lookup (part :: place) =
          (Json.layered found (Json.underneath target default? part)).lookup place := by
    constructor
    · rw [hnone]
      exact (h.hidden hpresent).1
    · exact hcreated hnone (h.hidden hpresent).2
  have hown (hitem : target.item? part = some found ∧ found = default) :
      Placed found default (Json.underneath target default? part) rest ∧
        ∀ place, place ≠ [] → (Json.layered target default?).lookup (part :: place) =
          (Json.layered found (Json.underneath target default? part)).lookup place :=
    ⟨.same hitem.2, fun place _ => hfound hitem.1 place⟩
  cases hplaced with
  | same hsame =>
    subst hsame
    exact hown h.of_same
  | hidden hdefault hpresent =>
    apply hnothing _ hpresent
    rw [hdefault]
    cases target <;> rfl
  | layered hdefault hseen =>
    subst hdefault
    by_cases hsame : target = fallback
    · subst hsame
      exact hown h.of_same
    have hparted (harray : target.isArray = true ∨ fallback.isArray = true) :
        Present target fallback (part :: rest) :=
      hseen [] (part :: rest) target fallback rfl rfl rfl hsame harray
    cases target with
    | object fields =>
      cases fallback with
      | object defaults =>
        obtain ⟨hitem, hplaced⟩ := h.layered_object hseen
        refine ⟨hplaced, fun place _ => ?_⟩
        have hstep := Json.item?_layered (.object fields) (some (.object defaults)) part
        rw [Json.lookup, hstep]
        show (Json.layered? (fields.lookup part) (defaults.lookup part)).bind _ = _
        rw [hitem]
        rfl
      | array items => exact hnothing rfl (hparted (Or.inr rfl))
      | null => exact hown (h.of_none rfl)
      | bool _ => exact hown (h.of_none rfl)
      | number _ => exact hown (h.of_none rfl)
      | string _ => exact hown (h.of_none rfl)
    | array items => exact hnothing (by cases fallback <;> rfl) (hparted (Or.inl rfl))
    | null => cases h <;> contradiction
    | bool _ => cases h <;> contradiction
    | number _ => cases h <;> contradiction
    | string _ => cases h <;> contradiction

end Descent

/-! ## The parents of an edit -/

/-- Neither pointer leads to a place at or above that of the other. -/
def Incomparable (place other : List String) : Prop := ¬place <+: other ∧ ¬other <+: place

/-- The effective configuration changes only inside the parent of the edited
field, where it has the items of the parent before and after the edit. -/
structure Framed (target target' : Json) (default? : Option Json) (init : List String)
    (parent parent' : Json) : Prop where
  elsewhere : ∀ place, Incomparable place init →
    (Json.layered target' default?).lookup place = (Json.layered target default?).lookup place
  inside : ∃ below? : Option Json, ∀ place, place ≠ [] →
    (Json.layered target default?).lookup (init ++ place) =
        (Json.layered parent below?).lookup place ∧
      (Json.layered target' default?).lookup (init ++ place) =
        (Json.layered parent' below?).lookup place

/-- The loop over the parents edits one of them and changes nothing else. -/
theorem editBelow_law {key : String} {value target fallback target' : Json} {unset : Bool}
    {init : List String} (h : editBelow key value unset init target fallback = .ok target') :
    ∃ parent parent', editLast parent key value unset = .ok parent' ∧
      target'.lookup init = some parent' ∧
      ∀ default?, Placed target fallback default? init →
        Framed target target' default? init parent parent' := by
  induction init generalizing target fallback target' with
  | nil =>
    refine ⟨target, target', h, rfl, fun default? _ => ?_⟩
    constructor
    · intro place hplace
      exact absurd List.nil_prefix hplace.2
    · exact ⟨default?, fun place _ => ⟨rfl, rfl⟩⟩
  | cons part rest ih =>
    obtain ⟨default, item, opened, item', hdescent, hrest, htarget'⟩ := editBelow_cons h
    obtain ⟨parent, parent', hlast, hlookup, hframed⟩ := ih hrest
    have hitem : target'.item? part = some item' := by
      rw [htarget']
      exact Json.item?_setItem_self item' (by rw [hdescent.item]; rfl)
    have hothers (other : String) (hother : other ≠ part) :
        target'.item? other = target.item? other := by
      rw [htarget', Json.item?_setItem_of_ne opened item' hother, hdescent.others hother]
    have hunder (default? : Option Json) (other : String) :
        Json.underneath target' default? other = Json.underneath target default? other := by
      rw [htarget', Json.underneath_setItem, hdescent.underneath]
    refine ⟨parent, parent', hlast, ?_, ?_⟩
    · rw [Json.lookup, hitem, Option.bind_some, hlookup]
    intro default? hplaced
    obtain ⟨hplaced', hbefore⟩ := hdescent.placed hplaced
    have hframed' := hframed _ hplaced'
    have hafter (place : List String) : (Json.layered target' default?).lookup (part :: place) =
        (Json.layered item' (Json.underneath target default? part)).lookup place := by
      rw [Json.lookup, Json.item?_layered, hitem, hunder]
      rfl
    constructor
    · intro place hplace
      cases place with
      | nil => exact absurd List.nil_prefix hplace.1
      | cons other place =>
        by_cases hother : other = part
        · subst hother
          have hrest' : Incomparable place rest := by
            constructor
            · intro hpre
              exact hplace.1 (List.cons_prefix_cons.2 ⟨rfl, hpre⟩)
            · intro hpre
              exact hplace.2 (List.cons_prefix_cons.2 ⟨rfl, hpre⟩)
          have hne : place ≠ [] := by
            intro hnil
            rw [hnil] at hrest'
            exact hrest'.1 List.nil_prefix
          rw [hafter, hbefore place hne, hframed'.elsewhere place hrest']
        · rw [Json.lookup, Json.lookup, Json.item?_layered, Json.item?_layered, hothers other hother,
            hunder]
    · obtain ⟨below?, hinside⟩ := hframed'.inside
      refine ⟨below?, fun place hplace => ?_⟩
      have hne : rest ++ place ≠ [] := fun hnil => hplace (List.append_eq_nil_iff.1 hnil).2
      rw [List.cons_append, hbefore _ hne, hafter]
      exact hinside place hplace

/-! ## The last part -/

/-- The part that leads to a new value in its parent: the last index of an
array that it was appended to. -/
def landing (parent : Json) (key : String) : String :=
  match parent with
  | .array items => if key = "-" then .ofList (Text.decimal (items.length - 1)) else key
  | _ => key

/-- An edit of one part of a parent leaves the other ones and what lies below
them as they were. -/
structure OnlyAt (key : String) (parent parent' : Json) : Prop where
  others : ∀ other, other ≠ key → parent'.item? other = parent.item? other
  underneath : ∀ default? other,
    Json.underneath parent' default? other = Json.underneath parent default? other

theorem onlyAt_setItem (key : String) (value parent : Json) :
    OnlyAt key parent (parent.setItem key value) where
  others _ hother := Json.item?_setItem_of_ne parent value hother
  underneath default? other := Json.underneath_setItem parent key value default? other

theorem onlyAt_append (items : List Json) (value : Json) :
    OnlyAt (.ofList (Text.decimal items.length)) (.array items) (.array (items ++ [value])) where
  others other hother := by
    show (Json.index? other).bind _ = (Json.index? other).bind _
    cases hindex : Json.index? other with
    | none => rfl
    | some index =>
      show (items ++ [value])[index]? = items[index]?
      have hne : index ≠ items.length := by
        intro heq
        apply hother
        rw [← String.ofList_toList (s := other), Json.toList_of_index? hindex, heq]
      by_cases hlt : index < items.length
      · exact List.getElem?_append_left hlt
      · have hlength : (items ++ [value]).length = items.length + 1 := by
          rw [List.length_append, List.length_singleton]
        rw [List.getElem?_eq_none (by omega), List.getElem?_eq_none (by omega)]
  underneath _ _ := rfl

theorem onlyAt_removeField (key : String) (fields : List (String × Json)) :
    OnlyAt key (.object fields) (.object (Json.removeField key fields)) where
  others other hother := by
    show (Json.removeField key fields).lookup other = fields.lookup other
    rw [Json.lookup_removeField, if_neg hother]
  underneath default? other := Json.underneath_object _ fields default? other

theorem editLast_set {key : String} {value parent parent' : Json}
    (h : editLast parent key value false = .ok parent') :
    parent'.item? (landing parent' key) = some value ∧ OnlyAt (landing parent' key) parent parent' := by
  cases parent with
  | object fields =>
    cases h
    refine ⟨?_, onlyAt_setItem key value (.object fields)⟩
    show (Json.object (Json.insertField key value fields)).item? key = some value
    rw [Json.item?_insertField, if_pos rfl]
  | array items =>
    rw [editLast] at h
    by_cases hkey : key = "-"
    · rw [if_pos ⟨hkey, rfl⟩] at h
      cases h
      have hlanding : landing (.array (items ++ [value])) key =
          .ofList (Text.decimal items.length) := by
        rw [landing, if_pos hkey, List.length_append, List.length_singleton, Nat.add_sub_cancel]
      rw [hlanding]
      refine ⟨?_, onlyAt_append items value⟩
      show (Json.index? _).bind _ = some value
      rw [Json.index?_decimal]
      exact List.getElem?_concat_length
    · rw [if_neg fun h => hkey h.1, bind_eq_ok] at h
      obtain ⟨index, hindex, h⟩ := h
      cases h
      rw [pointerIndex_eq_ok] at hindex
      have hset : Json.array (items.set index value) = (Json.array items).setItem key value := by
        unfold Json.setItem
        rw [hindex.1]
      have hlanding : landing (.array (items.set index value)) key = key := if_neg hkey
      simp only [Bool.false_eq_true, if_false]
      rw [hlanding, hset]
      refine ⟨Json.item?_setItem_self value ?_, onlyAt_setItem key value _⟩
      show ((Json.index? key).bind (items[·]?)).isSome = true
      rw [hindex.1, Option.bind_some, List.getElem?_eq_getElem hindex.2]
      rfl
  | null => cases h
  | bool _ => cases h
  | number _ => cases h
  | string _ => cases h

/-- An unset field was there and is not any more; an unset array element was
there as well, and the later ones move down. -/
theorem editLast_unset {key : String} {value parent parent' : Json}
    (h : editLast parent key value true = .ok parent') :
    (∃ fields, parent' = .object fields ∧ fields.lookup key = none ∧ OnlyAt key parent parent') ∨
      ∃ items index, parent = .array items ∧ Json.index? key = some index ∧ index < items.length ∧
        parent' = .array (items.eraseIdx index) := by
  cases parent with
  | object fields =>
    rw [editLast, if_pos rfl, bind_eq_ok] at h
    obtain ⟨_, _, h⟩ := h
    cases h
    refine Or.inl ⟨_, rfl, ?_, onlyAt_removeField key fields⟩
    rw [Json.lookup_removeField, if_pos rfl]
  | array items =>
    rw [editLast, if_neg (by simp), bind_eq_ok] at h
    obtain ⟨index, hindex, h⟩ := h
    cases h
    rw [pointerIndex_eq_ok] at hindex
    exact Or.inr ⟨items, index, rfl, hindex.1, hindex.2, rfl⟩
  | null => cases h
  | bool _ => cases h
  | number _ => cases h
  | string _ => cases h

/-- What is incomparable with a field is outside of its parent or inside
another item of it. -/
theorem incomparable_field {place init : List String} {key : String}
    (h : Incomparable place (init ++ [key])) :
    Incomparable place init ∨ ∃ other rest, place = init ++ other :: rest ∧ other ≠ key := by
  by_cases hbelow : init <+: place
  · obtain ⟨rest, hrest⟩ := hbelow
    subst hrest
    cases rest with
    | nil =>
      apply absurd _ h.1
      rw [List.append_nil]
      exact List.prefix_append init [key]
    | cons other rest =>
      refine Or.inr ⟨other, rest, rfl, ?_⟩
      intro hother
      apply h.2
      rw [List.prefix_append_right_inj, hother]
      exact List.cons_prefix_cons.2 ⟨rfl, List.nil_prefix⟩
  · exact Or.inl ⟨fun habove => h.1 (habove.trans (List.prefix_append init [key])), hbelow⟩

/-- An edit of one part of the parent changes the effective configuration at
no place that is incomparable with it. -/
theorem Framed.unchanged {target target' parent parent' : Json} {default? : Option Json}
    {init : List String} {key : String}
    (h : Framed target target' default? init parent parent') (honly : OnlyAt key parent parent')
    {place : List String} (hplace : Incomparable place (init ++ [key])) :
    (Json.layered target' default?).lookup place = (Json.layered target default?).lookup place := by
  rcases incomparable_field hplace with hplace | hplace
  · exact h.elsewhere place hplace
  · obtain ⟨other, rest, hplace, hother⟩ := hplace
    obtain ⟨below?, hinside⟩ := h.inside
    subst hplace
    obtain ⟨hbefore, hafter⟩ := hinside (other :: rest) (List.cons_ne_nil other rest)
    rw [hbefore, hafter, Json.lookup, Json.lookup, Json.item?_layered, Json.item?_layered,
      honly.others other hother, honly.underneath]

/-! ## The law -/

/-- The place of a value that was set. -/
def landed (data : Json) (parts : List String) : List String :=
  parts.dropLast ++ [landing ((data.lookup parts.dropLast).getD .null) (parts.getLast?.getD "")]

/-- What setting a field does. -/
structure SetLaw (data defaults data' value : Json) (parts : List String) : Prop where
  found : data'.lookup (landed data' parts) = some value
  unchanged : Seen data defaults parts.dropLast → ∀ place, Incomparable place (landed data' parts) →
    (Json.overlay data' defaults).lookup place = (Json.overlay data defaults).lookup place

/-- What unsetting the field of an object or the element of an array does. -/
inductive UnsetLaw (data defaults data' : Json) (parts : List String) : Prop where
  | field (fields : List (String × Json))
      (parent : data'.lookup parts.dropLast = some (.object fields))
      (absent : data'.lookup parts = none)
      (unchanged : Seen data defaults parts.dropLast → ∀ place, Incomparable place parts →
        (Json.overlay data' defaults).lookup place = (Json.overlay data defaults).lookup place)
  | element (items : List Json) (index : Nat)
      (key : Json.index? (parts.getLast?.getD "") = some index) (present : index < items.length)
      (parent : data'.lookup parts.dropLast = some (.array (items.eraseIdx index)))
      (unchanged : Seen data defaults parts.dropLast → ∀ place, Incomparable place parts.dropLast →
        (Json.overlay data' defaults).lookup place = (Json.overlay data defaults).lookup place)
      (moved : Seen data defaults parts.dropLast → ∀ after rest,
        (Json.overlay data' defaults).lookup
            (parts.dropLast ++ .ofList (Text.decimal after) :: rest) =
          (Json.overlay data defaults).lookup (parts.dropLast ++
            .ofList (Text.decimal (if after < index then after else after + 1)) :: rest))

theorem editPointer_eq_ok {data defaults value data' : Json} {pointer : Text} {unset : Bool}
    (h : editPointer data defaults pointer value unset = .ok data') :
    ∃ parts, pointerParts pointer = .ok parts ∧ parts ≠ [] ∧
      editBelow (parts.getLast?.getD "") value unset parts.dropLast data defaults = .ok data' := by
  unfold editPointer at h
  simp only [bind_eq_ok, ensure_eq_ok] at h
  obtain ⟨parts, hparts, _, hnonempty, _, _, hbelow⟩ := h
  exact ⟨parts, hparts, hnonempty.1, hbelow⟩

theorem setLaw_of_ok {data defaults value data' : Json} {pointer : Text}
    (h : editPointer data defaults pointer value false = .ok data') :
    ∃ parts, pointerParts pointer = .ok parts ∧ SetLaw data defaults data' value parts := by
  obtain ⟨parts, hparts, _, hbelow⟩ := editPointer_eq_ok h
  obtain ⟨parent, parent', hlast, hlookup, hframed⟩ := editBelow_law hbelow
  obtain ⟨hfound, honly⟩ := editLast_set hlast
  have hlanded : landed data' parts =
      parts.dropLast ++ [landing parent' (parts.getLast?.getD "")] := by
    unfold landed
    rw [hlookup, Option.getD_some]
  refine ⟨parts, hparts, ?_, ?_⟩
  · rw [hlanded, Json.lookup_append, hlookup, Option.bind_some, Json.lookup, hfound]
    rfl
  · intro hseen place hplace
    rw [hlanded] at hplace
    exact (hframed (some defaults) (.layered rfl hseen)).unchanged honly hplace

theorem unsetLaw_of_ok {data defaults value data' : Json} {pointer : Text}
    (h : editPointer data defaults pointer value true = .ok data') :
    ∃ parts, pointerParts pointer = .ok parts ∧ UnsetLaw data defaults data' parts := by
  obtain ⟨parts, hparts, hnonempty, hbelow⟩ := editPointer_eq_ok h
  obtain ⟨parent, parent', hlast, hlookup, hframed⟩ := editBelow_law hbelow
  have hsplit : parts = parts.dropLast ++ [parts.getLast?.getD ""] := by
    conv_lhs => rw [← List.dropLast_append_getLast hnonempty]
    rw [List.getLast?_eq_getLast_of_ne_nil hnonempty]
    rfl
  refine ⟨parts, hparts, ?_⟩
  rcases editLast_unset hlast with hfield | helement
  · obtain ⟨fields, hparent', habsent, honly⟩ := hfield
    subst hparent'
    refine .field fields hlookup ?_ ?_
    · rw [hsplit, Json.lookup_append, hlookup, Option.bind_some]
      show (fields.lookup _).bind _ = none
      rw [habsent]
      rfl
    · intro hseen place hplace
      rw [hsplit] at hplace
      exact (hframed (some defaults) (.layered rfl hseen)).unchanged honly hplace
  · obtain ⟨items, index, hparent, hkey, hlt, hparent'⟩ := helement
    subst hparent hparent'
    refine .element items index hkey hlt hlookup ?_ ?_
    · intro hseen place hplace
      exact (hframed (some defaults) (.layered rfl hseen)).elsewhere place hplace
    · intro hseen after rest
      obtain ⟨below?, hinside⟩ := (hframed (some defaults) (.layered rfl hseen)).inside
      have hbefore := (hinside (.ofList (Text.decimal (if after < index then after else after + 1))
        :: rest) (List.cons_ne_nil _ rest)).1
      have hafter := (hinside (.ofList (Text.decimal after) :: rest) (List.cons_ne_nil _ rest)).2
      change (Json.overlay data' defaults).lookup _ = _ at hafter
      change (Json.overlay data defaults).lookup _ = _ at hbefore
      rw [hafter, hbefore, Json.layered_array, Json.layered_array, Json.lookup, Json.lookup]
      show ((Json.index? _).bind _).bind _ = ((Json.index? _).bind _).bind _
      rw [Json.index?_decimal, Json.index?_decimal, Option.bind_some, Option.bind_some,
        List.getElem?_eraseIdx]
      split_ifs <;> rfl

section Room

variable {Room : Type} (validate : Room → Outcome String Unit) (asValue resolved : Room → Json)
  (fromValue : Json → Outcome String Room)

/-- A caller whose edits fail at one of them keeps the room. -/
theorem editMany_failed {room : Room} {changes : List (Text × Json)} {unset : List Text}
    {before after : List Edit} {edit : Edit} {data : Json}
    (hedits : edits changes unset = before ++ edit :: after)
    (hbefore : before.foldlM (applyEdit (resolved room)) (asValue room) = .ok data)
    (hfailed : ¬(applyEdit (resolved room) data edit).Succeeds) :
    ¬(editMany validate asValue resolved fromValue room changes unset).Succeeds ∧
      roomAfter validate asValue resolved fromValue room changes unset = room := by
  have hnot : ¬(editMany validate asValue resolved fromValue room changes unset).Succeeds := by
    intro h
    obtain ⟨edited, h⟩ := h
    unfold editMany at h
    simp only [bind_eq_ok] at h
    obtain ⟨_, _, value, hvalue, _⟩ := h
    rw [hedits, List.foldlM_append, bind_eq_ok] at hvalue
    obtain ⟨data', hdata', hvalue⟩ := hvalue
    rw [hbefore] at hdata'
    cases hdata'
    rw [List.foldlM_cons, bind_eq_ok] at hvalue
    obtain ⟨next, hnext, _⟩ := hvalue
    exact hfailed ⟨next, hnext⟩
  refine ⟨hnot, ?_⟩
  unfold roomAfter
  split
  · rename_i edited hedited
    exact absurd ⟨edited, hedited⟩ hnot
  · rfl

end Room

/-- A field that was set is found at its place, and one that was unset is not;
the effective configuration stays as it was at all other places, as long as
it looks through to the default arrays that are created, which it does to
those of the data over anything.  The room is only replaced after all edits. -/
theorem edit_law (data defaults value : Json) (pointer : Text) :
    (∀ data', editPointer data defaults pointer value false = .ok data' →
      ∃ parts, pointerParts pointer = .ok parts ∧ SetLaw data defaults data' value parts) ∧
    (∀ data', editPointer data defaults pointer value true = .ok data' →
      ∃ parts, pointerParts pointer = .ok parts ∧ UnsetLaw data defaults data' parts) ∧
    (∀ base place, Seen data (Json.overlay data base) place) ∧
    ∀ {Room : Type} (validate : Room → Outcome String Unit) (asValue resolved : Room → Json)
      (fromValue : Json → Outcome String Room) (room : Room) (changes : List (Text × Json))
      (unset : List Text) (before after : List Edit) (edit : Edit) (edited : Json),
      edits changes unset = before ++ edit :: after →
      before.foldlM (applyEdit (resolved room)) (asValue room) = .ok edited →
      ¬(applyEdit (resolved room) edited edit).Succeeds →
        ¬(editMany validate asValue resolved fromValue room changes unset).Succeeds ∧
          roomAfter validate asValue resolved fromValue room changes unset = room := by
  refine ⟨fun _ h => setLaw_of_ok h, fun _ h => unsetLaw_of_ok h, seen_overlay data, ?_⟩
  intro Room validate asValue resolved fromValue room changes unset before after edit edited
    hedits hbefore hfailed
  exact editMany_failed validate asValue resolved fromValue hedits hbefore hfailed

/-- A value in a default object, an element that is unset, and two edits the
second of which has no field to remove. -/
theorem edit_law_sample :
    (∃ parts, pointerParts "/a/-".toList = .ok parts ∧
      SetLaw (.object []) (.object [("a", .array [.null]), ("b", .null)])
        (.object [("a", .array [.null, .bool true])]) (.bool true) parts) ∧
    (∃ parts, pointerParts "/a/0".toList = .ok parts ∧
      UnsetLaw (.object [("a", .array [.null, .bool true])]) (.object [])
        (.object [("a", .array [.bool true])]) parts) ∧
    Seen (.object []) (.object [("a", .array [.null]), ("b", .null)]) ["a"] ∧
    roomAfter (fun _ => .ok ()) id id .ok (.object []) [("/a".toList, .null)] ["/b".toList] =
      .object [] := by
  refine ⟨?_, ?_, ?_, ?_⟩
  · exact (edit_law _ _ _ _).1 _ rfl
  · exact (edit_law _ _ .null _).2.1 _ rfl
  · exact (edit_law (.object []) .null .null []).2.2.1
      (.object [("a", .array [.null]), ("b", .null)]) ["a"]
  · apply ((edit_law .null .null .null []).2.2.2 _ _ _ _ _ _ _ [⟨"/a".toList, some .null⟩] []
      ⟨"/b".toList, none⟩ (.object [("a", .null)]) rfl rfl _).2
    intro h
    obtain ⟨edited, h⟩ := h
    cases h

/-- The elements after one that is unset move down, and a default array that
is created below an array of the data becomes visible there. -/
theorem edit_disturbs_incomparable :
    (editPointer (.object [("a", .array [.null, .bool true])]) (.object []) "/a/0".toList .null true =
        .ok (.object [("a", .array [.bool true])]) ∧
      Incomparable ["a", "1"] ["a", "0"] ∧
      (Json.overlay (.object [("a", .array [.null, .bool true])]) (.object [])).lookup ["a", "1"] =
        some (.bool true) ∧
      (Json.overlay (.object [("a", .array [.bool true])]) (.object [])).lookup ["a", "1"] = none) ∧
    (editPointer (.object [("a", .array [.object []])])
        (.object [("a", .array [.object [("x", .array [.null, .null])]])]) "/a/0/x/0".toList
        (.bool true) false =
        .ok (.object [("a", .array [.object [("x", .array [.bool true, .null])]])]) ∧
      Incomparable ["a", "0", "x", "1"] ["a", "0", "x", "0"] ∧
      (Json.overlay (.object [("a", .array [.object []])])
        (.object [("a", .array [.object [("x", .array [.null, .null])]])])).lookup
          ["a", "0", "x", "1"] = none ∧
      (Json.overlay (.object [("a", .array [.object [("x", .array [.bool true, .null])]])])
        (.object [("a", .array [.object [("x", .array [.null, .null])]])])).lookup
          ["a", "0", "x", "1"] = some .null) := by
  refine ⟨⟨rfl, ?_, rfl, rfl⟩, rfl, ?_, rfl, rfl⟩
  · constructor <;> decide
  · constructor <;> decide

end DstServer.Rooms
