import DstServer.Runtime.EncodeLaw

/-!
# Why the encoder fails

On its way through a Lua value the encoder comes upon texts, strings and what
is no JSON value, and it fails at the first of them that it cannot write.

* `walk` are these pieces, apart from the loops of the encoder: a table is
  looked at as the array or the object that it makes.
* `Stops` says at which piece the bytes that remain, the encoding of a string
  or the value itself give out.
* `encodeItem_walk`: the encoder writes one piece after the other.
* `encode_eq_error`: it fails with the defect at which it stops.  Every table
  that the walk is inside of takes a byte (`Far`), so the limit runs out
  before the levels of the walk do.
-/

namespace DstServer.Runtime

open Lib JsonText
open Outcome (bind_eq_ok ok_bind error_bind)

variable {ν : Type}

/-! ## The way through a value -/

/-- What the encoder comes upon. -/
inductive Piece where
  | text (bytes : Bytes)
  | string (value : Bytes)
  /-- What is no JSON value. -/
  | invalid
  /-- A table below the last level of the walk. -/
  | deep

/-- What a table makes. -/
inductive Shape (ν : Type) where
  | array (children : List (Item ν))
  | object (children : List (Bytes × Item ν))
  | neither

open Classical in
noncomputable def Table.shape (table : Table ν) : Shape ν :=
  if h : ∃ children, table.Sequence children then .array h.choose
  else if h : ∃ children, table.Record children then .object h.choose
  else .neither

/-- The pieces of the children, with commas between them. -/
def separated (first : Bool) : List (List Piece) → List Piece
  | [] => []
  | child :: children => .text (separator first) :: (child ++ separated false children)

def scalarPiece (numbers : Numbers ν) : Item ν → Piece
  | .nil => .text (latin "null".toList)
  | .null => .text (latin "null".toList)
  | .bool true => .text (latin "true".toList)
  | .bool false => .text (latin "false".toList)
  | .number value => if numbers.finite value = true then .text (numbers.format value) else .invalid
  | .string value => .string value
  | .table _ => .deep
  | .other => .invalid

/-- The pieces of an item inside of these tables, down to so many levels.  A
table inside itself is no value. -/
noncomputable def walk (numbers : Numbers ν) (heap : Heap ν) : Nat → List Nat → Item ν → List Piece
  | depth + 1, seen, .table reference =>
    if reference ∈ seen then [.invalid]
    else match (heap reference).shape with
      | .array children =>
        let inside := walk numbers heap depth (reference :: seen)
        .text [91] :: (separated true (children.map inside) ++ [.text [93]])
      | .object children =>
        let inside := walk numbers heap depth (reference :: seen)
        .text [123] :: (separated true (children.map fun child =>
          .string child.1 :: .text [58] :: inside child.2) ++ [.text [125]])
      | .neither => [.invalid]
  | _, _, item => [scalarPiece numbers item]

/-! ## Where it stops -/

/-- What is wrong with a value that is not written. -/
inductive Defect where
  /-- A string is not UTF-8. -/
  | notUtf8
  /-- A part of it is no JSON value. -/
  | noValue
  /-- Its text is too long. -/
  | tooLarge

/-- What the encoder raises. -/
def Defect.raised : Defect → Raised
  | .notUtf8 => .invalidUtf8
  | .noValue => .invalidJsonValue
  | .tooLarge => .responseTooLarge

/-- The bytes encode a text. -/
def IsUtf8 (value : Bytes) : Prop := ∃ text : Text, value = utf8 text

instance (value : Bytes) : Decidable (IsUtf8 value) :=
  decidable_of_iff _ (utf8Checked_iff value)

/-- The text of a piece that has one. -/
def Piece.text? : Piece → Option Bytes
  | .text bytes => some bytes
  | .string value => if IsUtf8 value then some (quoted value) else none
  | .invalid => none
  | .deep => none

/-- The piece is not written in the bytes that remain.  A string that is too
long without its escapes is not looked at. -/
def Piece.Meets (remaining : Nat) : Piece → Defect → Prop
  | .text bytes, .tooLarge => remaining < bytes.length
  | .string value, .notUtf8 => value.length + 2 ≤ remaining ∧ ¬IsUtf8 value
  | .string value, .tooLarge =>
    remaining < value.length + 2 ∨ IsUtf8 value ∧ remaining < (quoted value).length
  | .invalid, .noValue => True
  | _, _ => False

/-- The first pieces have texts that fit, and the next one meets a defect. -/
def Stops (limit : Nat) (pieces : List Piece) (defect : Defect) : Prop :=
  ∃ before piece after texts, pieces = before ++ piece :: after ∧
    before.mapM Piece.text? = some texts ∧ texts.flatten.length ≤ limit ∧
    piece.Meets (limit - texts.flatten.length) defect

/-! ## One piece after the other -/

def Piece.write (writer : Writer) : Piece → Except Raised Writer
  | .text bytes => writer.append bytes
  | .string value => writer.quote value
  | .invalid => .error .invalidJsonValue
  | .deep => .error .responseTooLarge

def writeAll (pieces : List Piece) (writer : Writer) : Except Raised Writer :=
  pieces.foldlM Piece.write writer

section Walk

variable {numbers : Numbers ν} {heap : Heap ν} {encode : Item ν → Writer → Except Raised Writer}
  {writer : Writer} {pieces : List Piece}

theorem writeAll_cons (piece : Piece) (pieces : List Piece) (writer : Writer) :
    writeAll (piece :: pieces) writer = piece.write writer >>= writeAll pieces := by
  rw [writeAll, List.foldlM_cons]
  rfl

theorem writeAll_append (first second : List Piece) (writer : Writer) :
    writeAll (first ++ second) writer = writeAll first writer >>= writeAll second := by
  rw [writeAll, List.foldlM_append]
  rfl

theorem writeAll_singleton (piece : Piece) (writer : Writer) :
    writeAll [piece] writer = piece.write writer := by
  rw [writeAll_cons]
  cases piece.write writer with
  | error raised => rfl
  | ok writer' => rfl

theorem elements_walk {pieces : Item ν → List Piece}
    (h : ∀ item writer, encode item writer = writeAll (pieces item) writer) (first : Bool)
    (children : List (Item ν)) (writer : Writer) :
    elements encode first children writer =
      writeAll (separated first (children.map pieces)) writer := by
  induction children generalizing first writer with
  | nil => rfl
  | cons child children ih =>
    rw [elements, List.map_cons, separated, writeAll_cons, separator_append]
    refine congrArg _ (funext fun writer => ?_)
    rw [writeAll_append, h]
    exact congrArg _ (funext fun writer => ih false writer)

theorem members_walk {pieces : Item ν → List Piece}
    (h : ∀ item writer, encode item writer = writeAll (pieces item) writer) (first : Bool)
    (children : List (Bytes × Item ν)) (writer : Writer) :
    members encode first (named children) writer = writeAll (separated first
      (children.map fun child => .string child.1 :: .text [58] :: pieces child.2)) writer := by
  induction children generalizing first writer with
  | nil => rfl
  | cons child children ih =>
    show members encode first ((.string child.1, child.2) :: named children) writer = _
    rw [members, List.map_cons, separated, writeAll_cons, separator_append]
    refine congrArg _ (funext fun writer => ?_)
    rw [List.cons_append, writeAll_cons]
    refine congrArg _ (funext fun writer => ?_)
    rw [List.cons_append, writeAll_cons]
    refine congrArg _ (funext fun writer => ?_)
    rw [writeAll_append, h]
    exact congrArg _ (funext fun writer => ih false writer)

theorem encodeScalar_piece (numbers : Numbers ν) {item : Item ν}
    (h : ∀ reference, item ≠ .table reference) (writer : Writer) :
    encodeScalar numbers item writer = (scalarPiece numbers item).write writer := by
  cases item with
  | nil => rfl
  | null => rfl
  | bool value => cases value <;> rfl
  | number value =>
    simp only [encodeScalar, scalarPiece]
    cases numbers.finite value with
    | false => rfl
    | true => rfl
  | string value => rfl
  | table reference => exact absurd rfl (h reference)
  | other => rfl

/-- The encoder writes the pieces of the way. -/
theorem encodeItem_walk (fuel : Nat) (seen : List Nat) (item : Item ν) (writer : Writer) :
    encodeItem numbers heap fuel seen item writer =
      writeAll (walk numbers heap fuel seen item) writer := by
  induction fuel generalizing seen item writer with
  | zero =>
    cases item with
    | table reference => rfl
    | _ =>
      rw [encodeItem_scalar (fun _ heq => by cases heq),
        encodeScalar_piece numbers (fun _ heq => by cases heq)]
      exact (writeAll_singleton _ writer).symm
  | succ fuel ih =>
    cases item with
    | table reference =>
      have hchild := fun item writer => ih (reference :: seen) item writer
      simp only [encodeItem, walk]
      by_cases hseen : reference ∈ seen
      · rw [if_pos hseen, if_pos hseen]
        rfl
      rw [if_neg hseen, if_neg hseen]
      by_cases hsequence : ∃ children, (heap reference).Sequence children
      · have htable := hsequence.choose_spec
        rw [if_neg htable.marker, htable.contents_eq, Table.shape, dif_pos hsequence]
        simp only
        rw [writeAll_cons]
        refine congrArg _ (funext fun writer => ?_)
        rw [writeAll_append, elements_walk hchild]
        exact congrArg _ (funext fun writer => (writeAll_singleton (.text [93]) writer).symm)
      by_cases hrecord : ∃ children, (heap reference).Record children
      · have htable := hrecord.choose_spec
        rw [if_neg htable.marker, htable.contents_eq, Table.shape, dif_neg hsequence,
          dif_pos hrecord]
        simp only
        rw [writeAll_cons]
        refine congrArg _ (funext fun writer => ?_)
        rw [writeAll_append, members_walk hchild]
        exact congrArg _ (funext fun writer => (writeAll_singleton (.text [125]) writer).symm)
      · rw [Table.shape, dif_neg hsequence, dif_neg hrecord]
        split_ifs with hmarker
        · rfl
        · rw [contents_neither (not_exists.mp hsequence) (not_exists.mp hrecord) hmarker]
          rfl
    | _ =>
      rw [encodeItem_scalar (fun _ heq => by cases heq),
        encodeScalar_piece numbers (fun _ heq => by cases heq)]
      exact (writeAll_singleton _ writer).symm

end Walk

/-! ## The last level -/

/-- Behind so many bytes is every table below the last level. -/
def Far : Nat → List Piece → Prop
  | _, [] => True
  | n, piece :: pieces =>
    (piece = .deep → n = 0) ∧ ∀ text, piece.text? = some text → Far (n - text.length) pieces

section Far

variable {n m : Nat} {pieces : List Piece}

theorem Far.mono (h : Far n pieces) (hle : m ≤ n) : Far m pieces := by
  induction pieces generalizing n m with
  | nil => trivial
  | cons piece pieces ih =>
    refine ⟨fun hdeep => ?_, fun text htext => ih (h.2 text htext) (by omega)⟩
    have hzero := h.1 hdeep
    omega

theorem Far.append {first second : List Piece} (hfirst : Far n first) (hsecond : Far n second) :
    Far n (first ++ second) := by
  induction first generalizing n with
  | nil => exact hsecond
  | cons piece first ih =>
    exact ⟨hfirst.1, fun text htext => ih (hfirst.2 text htext) (hsecond.mono (Nat.sub_le _ _))⟩

theorem far_zero (pieces : List Piece) : Far 0 pieces := by
  induction pieces with
  | nil => trivial
  | cons piece pieces ih => exact ⟨fun _ => rfl, fun text _ => by rw [Nat.zero_sub]; exact ih⟩

/-- A text takes its bytes. -/
theorem Far.text {bytes : Bytes} (h : Far (n - bytes.length) pieces) :
    Far n (.text bytes :: pieces) := by
  refine ⟨nofun, fun text htext => ?_⟩
  obtain rfl := Option.some.inj htext
  exact h

theorem Far.cons {piece : Piece} (hpiece : piece ≠ .deep) (h : Far n pieces) :
    Far n (piece :: pieces) :=
  ⟨fun heq => absurd heq hpiece, fun _ _ => h.mono (Nat.sub_le _ _)⟩

theorem far_separated {children : List (List Piece)} (h : ∀ child ∈ children, Far n child)
    (first : Bool) : Far n (separated first children) := by
  induction children generalizing first with
  | nil => trivial
  | cons child children ih =>
    have hrest := ih (fun other hother => h other (List.mem_cons_of_mem _ hother)) false
    exact .cons (fun heq => by cases heq) ((h child List.mem_cons_self).append hrest)

theorem far_scalar (numbers : Numbers ν) {item : Item ν} (h : ∀ reference, item ≠ .table reference)
    (n : Nat) : Far n [scalarPiece numbers item] := by
  refine .cons (fun heq => ?_) trivial
  cases item with
  | table reference => exact absurd rfl (h reference)
  | bool value => cases value <;> cases heq
  | number value =>
    simp only [scalarPiece] at heq
    split_ifs at heq
  | _ => cases heq

/-- Each table around the last level takes a byte. -/
theorem far_walk (numbers : Numbers ν) (heap : Heap ν) (depth : Nat) (seen : List Nat)
    (item : Item ν) : Far depth (walk numbers heap depth seen item) := by
  induction depth generalizing seen item with
  | zero => exact far_zero _
  | succ depth ih =>
    cases item with
    | table reference =>
      have hclose : ∀ close, Far depth [.text close] := fun _ =>
        .cons (fun heq => by cases heq) trivial
      simp only [walk]
      split_ifs with hseen
      · exact .cons (fun heq => by cases heq) trivial
      cases (heap reference).shape with
      | array children =>
        refine .text (Far.append (far_separated (fun child hchild => ?_) true) (hclose _))
        obtain ⟨item, _, rfl⟩ := List.mem_map.mp hchild
        exact ih _ item
      | object children =>
        refine .text (Far.append (far_separated (fun child hchild => ?_) true) (hclose _))
        obtain ⟨entry, _, rfl⟩ := List.mem_map.mp hchild
        exact .cons (fun heq => by cases heq) (.cons (fun heq => by cases heq) (ih _ entry.2))
      | neither => exact .cons (fun heq => by cases heq) trivial
    | _ => exact far_scalar numbers (fun _ heq => by cases heq) _

end Far

/-! ## Failures -/

section Failure

variable {piece : Piece} {pieces : List Piece} {writer : Writer} {raised : Raised} {defect : Defect}

theorem Piece.write_text {text : Bytes} (h : piece.text? = some text) (writer : Writer) :
    piece.write writer = writer.append text := by
  cases piece with
  | text bytes =>
    obtain rfl := Option.some.inj h
    rfl
  | string value =>
    simp only [Piece.text?] at h
    split_ifs at h with hutf8
    obtain rfl := Option.some.inj h
    exact quote_writer ((utf8Checked_iff value).mpr hutf8) writer
  | invalid => cases h
  | deep => cases h

/-- A piece with a text meets the limit only. -/
theorem Piece.meets_text {text : Bytes} (h : piece.text? = some text) {remaining : Nat} :
    piece.Meets remaining defect ↔ remaining < text.length ∧ defect = .tooLarge := by
  cases piece with
  | text bytes =>
    obtain rfl := Option.some.inj h
    cases defect with
    | tooLarge => exact (and_iff_left rfl).symm
    | _ => exact ⟨False.elim, fun hmeets => by cases hmeets.2⟩
  | string value =>
    simp only [Piece.text?] at h
    split_ifs at h with hutf8
    obtain rfl := Option.some.inj h
    have hlength := length_quoted value
    cases defect with
    | notUtf8 => exact ⟨fun hmeets => absurd hutf8 hmeets.2, fun hmeets => by cases hmeets.2⟩
    | noValue => exact ⟨False.elim, fun hmeets => by cases hmeets.2⟩
    | tooLarge =>
      show _ ∨ _ ↔ _
      simp only [hutf8, true_and, and_true]
      omega
  | invalid => cases h
  | deep => cases h

/-- A piece without a text meets one defect, which is raised. -/
theorem Piece.meets_none (h : piece.text? = none) (hdeep : piece ≠ .deep) (writer : Writer) :
    ∃ defect : Defect, piece.write writer = .error defect.raised ∧
      ∀ other, piece.Meets writer.remaining other ↔ other = defect := by
  cases piece with
  | text bytes => cases h
  | string value =>
    simp only [Piece.text?] at h
    split_ifs at h with hutf8
    have hunchecked : utf8Checked 0 value = false :=
      Bool.eq_false_iff.mpr fun hchecked => hutf8 ((utf8Checked_iff value).mp hchecked)
    have hwrite : Piece.write writer (.string value) = _ :=
      quote_writer_invalid hunchecked writer
    by_cases hlong : writer.remaining < value.length + 2
    · refine ⟨.tooLarge, by rw [hwrite, if_pos hlong]; rfl, fun other => ?_⟩
      cases other with
      | notUtf8 => exact ⟨fun hmeets => absurd hmeets.1 (Nat.not_le.mpr hlong), nofun⟩
      | noValue => exact ⟨False.elim, nofun⟩
      | tooLarge => exact ⟨fun _ => rfl, fun _ => .inl hlong⟩
    · refine ⟨.notUtf8, by rw [hwrite, if_neg hlong]; rfl, fun other => ?_⟩
      cases other with
      | notUtf8 => exact ⟨fun _ => rfl, fun _ => ⟨Nat.not_lt.mp hlong, hutf8⟩⟩
      | noValue => exact ⟨False.elim, nofun⟩
      | tooLarge =>
        refine ⟨fun hmeets => ?_, nofun⟩
        rcases hmeets with hshort | ⟨hvalid, _⟩
        · exact absurd hshort hlong
        · exact absurd hvalid hutf8
  | invalid =>
    refine ⟨.noValue, rfl, fun other => ?_⟩
    cases other with
    | noValue => exact ⟨fun _ => rfl, fun _ => trivial⟩
    | _ => exact ⟨False.elim, nofun⟩
  | deep => exact absurd rfl hdeep

theorem stops_cons {limit : Nat} : Stops limit (piece :: pieces) defect ↔
    piece.Meets limit defect ∨ ∃ text, piece.text? = some text ∧ text.length ≤ limit ∧
      Stops (limit - text.length) pieces defect := by
  constructor
  · rintro ⟨before, last, after, texts, hpieces, htexts, hlimit, hmeets⟩
    cases before with
    | nil =>
      obtain ⟨rfl, rfl⟩ := List.cons.inj hpieces
      obtain rfl := Option.some.inj htexts
      exact .inl hmeets
    | cons first before =>
      obtain ⟨rfl, rfl⟩ := List.cons.inj hpieces
      rw [List.mapM_cons] at htexts
      obtain ⟨text, htext, htexts⟩ := Option.bind_eq_some_iff.mp htexts
      obtain ⟨rest, hrest, htexts⟩ := Option.bind_eq_some_iff.mp htexts
      obtain rfl := Option.some.inj htexts
      rw [List.flatten_cons, List.length_append] at hlimit hmeets
      refine .inr ⟨text, htext, by omega, before, last, after, rest, rfl, hrest, by omega, ?_⟩
      rw [Nat.sub_sub]
      exact hmeets
  · rintro (hmeets | ⟨text, htext, hlength, hstops⟩)
    · exact ⟨[], piece, pieces, [], rfl, rfl, Nat.zero_le limit, hmeets⟩
    · obtain ⟨before, last, after, texts, rfl, htexts, hlimit, hmeets⟩ := hstops
      refine ⟨piece :: before, last, after, text :: texts, rfl, ?_, ?_, ?_⟩
      · rw [List.mapM_cons, htext, htexts]
        rfl
      · rw [List.flatten_cons, List.length_append]
        omega
      · rw [List.flatten_cons, List.length_append, ← Nat.sub_sub]
        exact hmeets

/-- The pieces are written until the first one that meets a defect. -/
theorem writeAll_eq_error {n : Nat} (hfar : Far n pieces) (hroom : writer.remaining < n) :
    writeAll pieces writer = .error raised ↔
      ∃ defect, Stops writer.remaining pieces defect ∧ raised = defect.raised := by
  induction pieces generalizing n writer with
  | nil =>
    refine ⟨nofun, ?_⟩
    rintro ⟨_, ⟨before, _, _, _, hpieces, _⟩, _⟩
    cases before <;> cases hpieces
  | cons piece pieces ih =>
    simp only [writeAll_cons, stops_cons]
    cases htext : piece.text? with
    | none =>
      have hdeep : piece ≠ .deep := fun heq => absurd (hfar.1 heq) (by omega)
      obtain ⟨defect, hwrite, hmeets⟩ := piece.meets_none htext hdeep writer
      simp only [hwrite, error_bind, hmeets, reduceCtorEq, false_and, exists_false, or_false,
        exists_eq_left, Except.error.injEq]
      exact eq_comm
    | some text =>
      rw [Piece.write_text htext]
      by_cases hlarge : writer.remaining < text.length
      · rw [append_eq_error.mpr ⟨hlarge, rfl⟩, error_bind]
        constructor
        · intro hraised
          exact ⟨.tooLarge, .inl ((Piece.meets_text htext).mpr ⟨hlarge, rfl⟩),
            (Except.error.inj hraised).symm⟩
        · rintro ⟨defect, hmeets | ⟨other, hother, hfits, _⟩, rfl⟩
          · obtain rfl := ((Piece.meets_text htext).mp hmeets).2
            rfl
          · obtain rfl := Option.some.inj hother
            omega
      · have hrest := @ih ⟨writer.remaining - text.length, writer.parts ++ text⟩ (n - text.length)
          (hfar.2 text htext) (by show writer.remaining - text.length < _; omega)
        rw [append_eq_ok.mpr ⟨Nat.not_lt.mp hlarge, rfl⟩, ok_bind, hrest]
        refine exists_congr fun defect => and_congr_left' ?_
        constructor
        · intro hstops
          exact .inr ⟨text, rfl, Nat.not_lt.mp hlarge, hstops⟩
        · rintro (hmeets | ⟨other, hother, _, hstops⟩)
          · exact absurd ((Piece.meets_text htext).mp hmeets).1 hlarge
          · obtain rfl := Option.some.inj hother
            exact hstops

/-- The encoder fails exactly with the defect at which the way stops. -/
theorem encode_eq_error {numbers : Numbers ν} {heap : Heap ν} {item : Item ν} {limit : Nat} :
    encode numbers heap item limit = .error raised ↔
      ∃ defect, Stops limit (walk numbers heap (limit + 1) [] item) defect ∧
        raised = defect.raised := by
  have hwritten := @writeAll_eq_error _ ⟨limit, []⟩ raised _
    (far_walk numbers heap (limit + 1) [] item) (Nat.lt_succ_self limit)
  rw [← encodeItem_walk] at hwritten
  rw [← hwritten]
  unfold encode
  cases encodeItem numbers heap (limit + 1) [] item ⟨limit, []⟩ with
  | error first => rw [error_bind, Except.error.injEq, Except.error.injEq]
  | ok writer => exact ⟨nofun, nofun⟩

/-- The way stops for one defect at most. -/
theorem Stops.unique {numbers : Numbers ν} {heap : Heap ν} {item : Item ν} {limit : Nat}
    {other : Defect} (h : Stops limit (walk numbers heap (limit + 1) [] item) defect)
    (h' : Stops limit (walk numbers heap (limit + 1) [] item) other) : defect = other := by
  have hraised := encode_eq_error.mpr ⟨defect, h, rfl⟩
  have hother := encode_eq_error.mpr ⟨other, h', rfl⟩
  rw [hraised] at hother
  have hsame : defect.raised = other.raised := Except.error.inj hother
  cases defect <;> cases other <;> first | rfl | cases hsame

end Failure

end DstServer.Runtime
