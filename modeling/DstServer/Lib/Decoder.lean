import DstServer.Lib.Fields
import DstServer.Lib.Outcome

/-!
# Decoders of JSON values

A `Decoder` is what a derived `Deserialize` followed by a derived
`Serialize` makes of a value: it accepts a value and returns its canonical
form, or it refuses the value.  That the form is canonical (`canonical`: to
read it again changes nothing) is part of the structure, so each combinator
proves it once.

`Record` is the decoder of an object: a struct with its declared fields, a
map, or a struct with a flattened map.  Its canonical values are given by
`Record.Holds`, field by field, and are therefore closed under the
insertion of fields and under `OrderedMap.extend`.
-/

namespace Lib

open Outcome

/-- A reader of values whose results it reads as themselves. -/
structure Decoder where
  read : Json → Outcome Unit Json
  canonical : ∀ {value form : Json}, read value = .ok form → read form = .ok form

namespace Decoder

variable {d : Decoder} {value form : Json}

/-- The value is in canonical form. -/
def Canonical (d : Decoder) (value : Json) : Prop := d.read value = .ok value

/-- The decoder refuses the value or leaves it as it is. -/
def Exact (d : Decoder) (value : Json) : Prop := ∀ form, d.read value = .ok form → form = value

theorem Canonical.exact (h : d.Canonical value) : d.Exact value := by
  intro form hform
  exact Except.ok.inj (hform.symm.trans h)

/-! ## Combinators -/

/-- The values that satisfy `p`, as they are. -/
def ofPred (p : Json → Bool) : Decoder where
  read value := do
    ensure (p value = true) ()
    pure value
  canonical := by
    intro value form h
    obtain ⟨_, hp, hform⟩ := bind_eq_ok.1 h
    cases hform
    exact h

/-- A constraint on the canonical forms. -/
def filter (d : Decoder) (p : Json → Bool) : Decoder where
  read value := do
    let form ← d.read value
    ensure (p form = true) ()
    pure form
  canonical := by
    intro value form h
    obtain ⟨form', hform', h⟩ := bind_eq_ok.1 h
    obtain ⟨_, hp, h⟩ := bind_eq_ok.1 h
    cases h
    rw [d.canonical hform', ok_bind, hp]
    rfl

theorem exact_ofPred (p : Json → Bool) (value : Json) : (ofPred p).Exact value := by
  intro form h
  obtain ⟨_, _, h⟩ := bind_eq_ok.1 h
  exact (Except.ok.inj h).symm

theorem Exact.filter (h : d.Exact value) (p : Json → Bool) : (d.filter p).Exact value := by
  intro form hform
  obtain ⟨form', hform', hform⟩ := bind_eq_ok.1 hform
  obtain ⟨_, _, hform⟩ := bind_eq_ok.1 hform
  cases hform
  exact h _ hform'

/-- `null`, or a value of the decoder. -/
def nullable (d : Decoder) : Decoder where
  read
    | .null => pure .null
    | value => d.read value
  canonical := by
    intro value form h
    by_cases hform : form = .null
    · rw [hform]
      rfl
    · have hread : d.read form = .ok form := by
        cases value with
        | null => exact absurd (Except.ok.inj h).symm hform
        | bool _ | number _ | string _ | array _ | object _ => exact d.canonical h
      cases form with
      | null => exact absurd rfl hform
      | bool _ | number _ | string _ | array _ | object _ => exact hread

/-- A decoder by a partial function that reads its results as themselves. -/
def ofOption (f : Json → Option Json) (h : ∀ value form, f value = some form → f form = some form) :
    Decoder where
  read value := orError (f value) ()
  canonical := by
    intro value form hread
    rw [orError_eq_ok] at hread ⊢
    exact h value form hread

def bool : Decoder := ofPred fun value => match value with
  | .bool _ => true
  | _ => false

/-- A string that satisfies `p`. -/
def text (p : Text → Bool) : Decoder := ofPred fun value => match value with
  | .string text => p text.toList
  | _ => false

/-- The canonical text of an integer. -/
def ofInt : Int → Json
  | .ofNat n => .ofNat n
  | .negSucc n => .number (.ofList ('-' :: Text.decimal (n + 1)))

theorem asI64?_ofInt {n : Int} (h : -(Json.i64Bound : Int) ≤ n ∧ n < Json.i64Bound) :
    (ofInt n).asI64? = some n := by
  cases n with
  | ofNat n =>
    have htext : (ofInt (.ofNat n) : Json) = .number (.ofList (Text.decimal n)) := rfl
    rw [htext, Json.asI64?]
    split
    · rename_i rest hrest
      rw [String.toList_ofList] at hrest
      have hminus : '-' ∈ Text.decimal n := hrest ▸ List.mem_cons_self
      exact absurd (Text.isDigit_of_mem_decimal hminus) (by decide)
    · have hbound : n < Json.i64Bound := by
        have hlimit := h.2
        simp only [Int.ofNat_eq_natCast] at hlimit
        omega
      rw [String.toList_ofList, Json.digits?_decimal]
      simp [hbound]
  | negSucc n =>
    have hbound : n + 1 ≤ Json.i64Bound := by
      have := h.1
      omega
    have hdigits :
        (Json.digits? (Text.decimal (n + 1))).filter (· ≤ Json.i64Bound) = some (n + 1) := by
      rw [Json.digits?_decimal, Option.filter_some, if_pos (decide_eq_true hbound)]
    have htext : (String.ofList ('-' :: Text.decimal (n + 1))).toList =
        '-' :: Text.decimal (n + 1) := String.toList_ofList
    simp only [ofInt, Json.asI64?, htext, hdigits]
    rfl

/-- A signed integer within bounds. -/
def integer (least greatest : Int)
    (h : -(Json.i64Bound : Int) ≤ least ∧ greatest < Json.i64Bound) : Decoder :=
  ofOption
    (fun value => (value.asI64?.filter fun n => least ≤ n ∧ n ≤ greatest).map ofInt)
    (by
      intro value form hform
      obtain ⟨n, hn, rfl⟩ := Option.map_eq_some_iff.1 hform
      obtain ⟨_, hbound⟩ := Option.filter_eq_some_iff.1 hn
      have hi64 : (ofInt n).asI64? = some n := by
        apply asI64?_ofInt
        simp only [decide_eq_true_eq] at hbound
        omega
      rw [hi64, Option.filter_some, if_pos hbound]
      rfl)

theorem lt_of_asU64? {value : Json} {n : Nat} (h : value.asU64? = some n) : n < Json.u64Bound := by
  unfold Json.asU64? at h
  split at h
  · obtain ⟨_, hbound⟩ := Option.filter_eq_some_iff.1 h
    simpa using hbound
  · cases h

/-- An unsigned integer within bounds. -/
def natural (least greatest : Nat) : Decoder :=
  ofOption
    (fun value => (value.asU64?.filter fun n => least ≤ n ∧ n ≤ greatest).map Json.ofNat)
    (by
      intro value form h
      obtain ⟨n, hn, rfl⟩ := Option.map_eq_some_iff.1 h
      obtain ⟨hvalue, hbound⟩ := Option.filter_eq_some_iff.1 hn
      have hu64 : n < Json.u64Bound := lt_of_asU64? hvalue
      rw [Json.asU64?_ofNat, if_pos hu64, Option.filter_some, if_pos hbound]
      rfl)

/-- The variant that a value names: a string, or an object with the name and
null. -/
def variant? : Json → Option String
  | .string name => some name
  | .object [(name, .null)] => some name
  | _ => none

/-- One of the names of an enumeration. -/
def choice (names : List String) : Decoder :=
  ofOption (fun value => ((variant? value).filter (· ∈ names)).map Json.string)
    (by
      intro value form h
      obtain ⟨name, hname, rfl⟩ := Option.map_eq_some_iff.1 h
      obtain ⟨_, hmem⟩ := Option.filter_eq_some_iff.1 hname
      rw [variant?, Option.filter_some, if_pos hmem]
      rfl)

/-- An array of values of the decoder. -/
def list (d : Decoder) : Decoder where
  read
    | .array items => do
      let forms ← items.mapM' d.read
      pure (.array forms)
    | _ => fail ()
  canonical := by
    intro value form h
    cases value with
    | array items =>
      obtain ⟨forms, hforms, h⟩ := bind_eq_ok.1 h
      cases h
      have hread : forms.mapM' d.read = .ok forms := by
        have h := mapM'_of_ok (l := forms) (f := d.read) (g := id) (by
          intro form hform
          obtain ⟨item, _, hitem⟩ := exists_mem_of_mapM' hforms hform
          exact d.canonical hitem)
        rwa [List.map_id] at h
      show (forms.mapM' d.read >>= fun forms => pure (Json.array forms)) = .ok (Json.array forms)
      rw [hread]
      rfl
    | null | bool _ | number _ | string _ | object _ => cases h

/-- The tag and the content of a tagged value. -/
def tagParts? (tag content : String) : Json → Option (Json × Json)
  | .object [(first, name), (second, inner)] =>
    if first = tag ∧ second = content then some (name, inner) else none
  | .array [name, inner] => some (name, inner)
  | _ => none

/-- An adjacently tagged enumeration: the tag names the decoder of the
content.  The tag comes before the content in key order. -/
def tagged (tag content : String) (kinds : List (String × Decoder)) : Decoder where
  read value := do
    let (name, inner) ← orError (tagParts? tag content value) ()
    let name ← orError (variant? name) ()
    let d ← orError (kinds.lookup name) ()
    let form ← d.read inner
    pure (.object [(tag, .string name), (content, form)])
  canonical := by
    intro value form h
    obtain ⟨⟨_, inner⟩, _, h⟩ := bind_eq_ok.1 h
    obtain ⟨name, _, h⟩ := bind_eq_ok.1 h
    obtain ⟨d, hd, h⟩ := bind_eq_ok.1 h
    obtain ⟨form', hform', h⟩ := bind_eq_ok.1 h
    cases h
    rw [tagParts?, if_pos ⟨rfl, rfl⟩]
    show (orError (kinds.lookup name) () >>= fun d => d.read form' >>= fun form =>
      pure (Json.object [(tag, .string name), (content, form)])) = _
    rw [hd, ok_bind, d.canonical hform', ok_bind]
    rfl

theorem canonical_tagged {tag content : String} {kinds : List (String × Decoder)} :
    (tagged tag content kinds).Canonical value ↔
      ∃ name d inner, kinds.lookup name = some d ∧ d.Canonical inner ∧
        value = .object [(tag, .string name), (content, inner)] := by
  constructor
  · intro h
    obtain ⟨⟨_, inner⟩, _, h⟩ := bind_eq_ok.1 h
    obtain ⟨name, _, h⟩ := bind_eq_ok.1 h
    obtain ⟨d, hd, h⟩ := bind_eq_ok.1 h
    obtain ⟨form, hform, h⟩ := bind_eq_ok.1 h
    cases h
    exact ⟨name, d, form, orError_eq_ok.1 hd, d.canonical hform, rfl⟩
  · intro ⟨name, d, inner, hd, hinner, hvalue⟩
    subst hvalue
    show (orError (tagParts? tag content _) () >>= fun _ => _) = _
    rw [tagParts?, if_pos ⟨rfl, rfl⟩]
    show (orError (kinds.lookup name) () >>= fun d => d.read inner >>= fun form =>
      pure (Json.object [(tag, .string name), (content, form)])) = _
    rw [hd]
    show (d.read inner >>= _) = _
    rw [hinner]
    rfl

end Decoder

/-! ## Any value -/

/-- How the numbers of a value are read: the text of a number becomes its
canonical text. -/
structure NumberReader where
  read : String → Option String
  canonical : ∀ {literal form : String}, read literal = some form → read form = some form

namespace NumberReader

variable (numbers : NumberReader)

mutual

/-- `Deserialize` of a `Value`, which reads its numbers again. -/
def renumber : Json → Option Json
  | .number literal => (numbers.read literal).map Json.number
  | .array items => (renumberItems items).map Json.array
  | .object fields => (renumberFields fields).map Json.object
  | value => some value

def renumberItems : List Json → Option (List Json)
  | [] => some []
  | item :: rest => do
    let form ← renumber item
    let forms ← renumberItems rest
    pure (form :: forms)

def renumberFields : List (String × Json) → Option (List (String × Json))
  | [] => some []
  | (key, value) :: rest => do
    let form ← renumber value
    let forms ← renumberFields rest
    pure ((key, form) :: forms)

end

mutual

theorem renumber_canonical : ∀ {value form : Json}, numbers.renumber value = some form →
    numbers.renumber form = some form
  | .null, _, h | .bool _, _, h | .string _, _, h => by
    cases h
    rfl
  | .number _, _, h => by
    obtain ⟨literal, hliteral, rfl⟩ := Option.map_eq_some_iff.1 h
    rw [renumber, numbers.canonical hliteral]
    rfl
  | .array _, _, h => by
    obtain ⟨items, hitems, rfl⟩ := Option.map_eq_some_iff.1 h
    rw [renumber, renumberItems_canonical hitems]
    rfl
  | .object _, _, h => by
    obtain ⟨fields, hfields, rfl⟩ := Option.map_eq_some_iff.1 h
    rw [renumber, renumberFields_canonical hfields]
    rfl

theorem renumberItems_canonical : ∀ {items forms : List Json},
    numbers.renumberItems items = some forms → numbers.renumberItems forms = some forms
  | [], _, h => by
    cases h
    rfl
  | item :: rest, _, h => by
    obtain ⟨form, hform, h⟩ := Option.bind_eq_some_iff.1 h
    obtain ⟨forms, hforms, h⟩ := Option.bind_eq_some_iff.1 h
    cases h
    simp [renumberItems, renumber_canonical hform, renumberItems_canonical hforms]

theorem renumberFields_canonical : ∀ {fields forms : List (String × Json)},
    numbers.renumberFields fields = some forms → numbers.renumberFields forms = some forms
  | [], _, h => by
    cases h
    rfl
  | (key, value) :: rest, _, h => by
    obtain ⟨form, hform, h⟩ := Option.bind_eq_some_iff.1 h
    obtain ⟨forms, hforms, h⟩ := Option.bind_eq_some_iff.1 h
    cases h
    simp [renumberFields, renumber_canonical hform, renumberFields_canonical hforms]

end

end NumberReader

/-- Any value. -/
def Decoder.any (numbers : NumberReader) : Decoder :=
  ofOption numbers.renumber fun _ _ h => numbers.renumber_canonical h

/-! ## Records -/

/-- A declared field of a struct. -/
structure Declared where
  name : String
  decoder : Decoder
  required : Bool := false

/-- A struct with its declared fields, in order; `rest` reads the other
fields, and without it there may be none. -/
structure Record where
  declared : List Declared := []
  rest : Option Decoder := none

namespace Record

variable {r : Record} {m p : Fields} {value form : Json} {k : String}

/-- The decoder of the field under a key. -/
def decoder? (r : Record) (k : String) : Option Decoder :=
  ((r.declared.find? fun field => field.name = k).map Declared.decoder).or r.rest

def readFields (r : Record) (fields : Fields) : Outcome Unit Fields := do
  ensure (∀ field ∈ r.declared, field.required = true → field.name ∈ fields.keys) ()
  fields.mapM fun k value => do
    let d ← orError (r.decoder? k) ()
    d.read value

/-- The derived `Deserialize`: an object by its keys, or an array in the
order of the fields. -/
def read (r : Record) : Json → Outcome Unit Json
  | .object fields => do
    let fields ← r.readFields (.ofList fields)
    pure (.ofFields fields)
  | .array items => do
    ensure (r.rest.isNone = true ∧ items.length ≤ r.declared.length) ()
    let fields ← r.readFields (.ofList ((r.declared.map Declared.name).zip items))
    pure (.ofFields fields)
  | _ => fail ()

/-- The canonical fields of a record. -/
structure Holds (r : Record) (m : Fields) : Prop where
  required : ∀ field ∈ r.declared, field.required = true → field.name ∈ m.keys
  field : ∀ k x, m.get? k = some x → ∃ d, r.decoder? k = some d ∧ d.Canonical x

theorem Holds.readFields (h : r.Holds m) : r.readFields m = .ok m := by
  have hone : ∀ k x, m.get? k = some x →
      (orError (r.decoder? k) () >>= fun d => d.read x) = .ok x := by
    intro k x hx
    obtain ⟨d, hd, hcanonical⟩ := h.field k x hx
    rw [hd]
    exact hcanonical
  obtain ⟨m', hm'⟩ := OrderedMap.exists_mapM_of_forall
    (f := fun k x => orError (r.decoder? k) () >>= fun d => d.read x)
    fun k x hx => ⟨x, hone k x hx⟩
  have hsame : m' = m := by
    apply OrderedMap.eq_of_mapM hm'
    intro k x y hx hy
    exact Except.ok.inj (hy.symm.trans (hone k x hx))
  show (ensure _ () >>= fun _ => m.mapM _) = _
  rw [ensure_of h.required, ok_bind, hm', hsame]

theorem holds_of_readFields (h : r.readFields m = .ok p) : r.Holds p := by
  obtain ⟨_, hrequired, h⟩ := bind_eq_ok.1 h
  constructor
  · intro field hfield hneeded
    rw [OrderedMap.keys_of_mapM h]
    exact ensure_eq_ok.1 hrequired field hfield hneeded
  · intro k x hx
    obtain ⟨v, _, hv⟩ := OrderedMap.exists_of_get?_mapM h hx
    obtain ⟨d, hd, hread⟩ := bind_eq_ok.1 hv
    exact ⟨d, orError_eq_ok.1 hd, d.canonical hread⟩

theorem holds_of_read (h : r.read value = .ok form) : ∃ m, form = .ofFields m ∧ r.Holds m := by
  cases value with
  | object fields =>
    obtain ⟨m, hm, h⟩ := bind_eq_ok.1 h
    exact ⟨m, (Except.ok.inj h).symm, holds_of_readFields hm⟩
  | array items =>
    obtain ⟨_, _, h⟩ := bind_eq_ok.1 h
    obtain ⟨m, hm, h⟩ := bind_eq_ok.1 h
    exact ⟨m, (Except.ok.inj h).symm, holds_of_readFields hm⟩
  | null | bool _ | number _ | string _ => cases h

theorem read_ofFields (m : Fields) :
    r.read (.ofFields m) = (r.readFields m).map .ofFields := by
  show (r.readFields (.ofList m.entries) >>= fun fields => pure (Json.ofFields fields)) = _
  rw [OrderedMap.ofList_entries]
  cases r.readFields m with
  | ok p => rfl
  | error e => rfl

theorem Holds.read (h : r.Holds m) : r.read (.ofFields m) = .ok (.ofFields m) := by
  rw [read_ofFields, h.readFields]
  rfl

def decoder (r : Record) : Decoder where
  read := r.read
  canonical := by
    intro value form h
    obtain ⟨m, rfl, hm⟩ := holds_of_read h
    exact hm.read

/-- The canonical values of a record are its canonical fields. -/
theorem canonical_iff : r.decoder.Canonical value ↔ ∃ m, value = .ofFields m ∧ r.Holds m := by
  constructor
  · exact holds_of_read
  · intro ⟨m, hvalue, hm⟩
    rw [hvalue]
    exact hm.read

/-! ### Closure -/

theorem Holds.extend (hm : r.Holds m) (hp : r.Holds p) : r.Holds (m.extend p) where
  required := by
    intro field hfield hneeded
    exact OrderedMap.mem_keys_extend.2 (Or.inl (hm.required field hfield hneeded))
  field := by
    intro k x hx
    rcases OrderedMap.get?_extend_eq_some hx with hx | hx
    · exact hp.field k x hx
    · exact hm.field k x hx

theorem Holds.insert (hm : r.Holds m) {d : Decoder} (hd : r.decoder? k = some d)
    (hvalue : d.Canonical value) : r.Holds (m.insert k value) where
  required := by
    intro field hfield hneeded
    exact OrderedMap.mem_keys_insert.2 (Or.inr (hm.required field hfield hneeded))
  field := by
    intro x y hy
    rw [OrderedMap.get?_insert] at hy
    split_ifs at hy with hx
    · cases hy
      exact ⟨d, hx ▸ hd, hvalue⟩
    · exact hm.field x y hy

theorem holds_empty (h : ∀ field ∈ r.declared, field.required = false) : r.Holds .empty where
  required := by
    intro field hfield hneeded
    rw [h field hfield] at hneeded
    cases hneeded
  field := by
    intro k x hx
    simp at hx

/-- A record leaves the fields as they are that its decoders leave as they
are. -/
theorem exact_ofFields
    (h : ∀ k x d, m.get? k = some x → r.decoder? k = some d → d.Exact x) :
    r.decoder.Exact (.ofFields m) := by
  intro form hform
  change r.read (.ofFields m) = .ok form at hform
  rw [read_ofFields] at hform
  cases hfields : r.readFields m with
  | error e =>
    rw [hfields] at hform
    cases hform
  | ok p =>
    rw [hfields] at hform
    cases hform
    obtain ⟨_, _, hmap⟩ := bind_eq_ok.1 hfields
    have hsame : p = m := by
      apply OrderedMap.eq_of_mapM hmap
      intro k x y hx hy
      obtain ⟨d, hd, hread⟩ := bind_eq_ok.1 hy
      exact h k x d hx (orError_eq_ok.1 hd) y hread
    rw [hsame]

end Record

end Lib
