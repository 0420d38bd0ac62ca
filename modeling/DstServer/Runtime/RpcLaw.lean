import DstServer.Lib.Numeral
import DstServer.Runtime.Rpc

/-!
# What a request is answered

Every line with the prefix is answered by one result, after at most one
acceptance, whatever the method does and however the printer fails.

* `encode_header`: the header is always written, and short.
* `Requested` is the grammar of a request, and `Refuses` why one is refused.
* `Exchanged` are the events of a line, and `execute_exchanged` says that they
  are the events of the command.
* `rpc_exchange`: the method runs for a valid request and for nothing else.
-/

namespace DstServer.Runtime

open Lib JsonText

variable {ν : Type} {numbers : Integers ν}

/-- The whole numbers up to 9007199254740991 are written by their decimal
digits. -/
structure Integers.Lawful (numbers : Integers ν) : Prop where
  toLawful : numbers.toNumbers.Lawful
  finite : ∀ n ≤ maximumInteger, numbers.finite (numbers.ofNat n) = true
  format : ∀ n ≤ maximumInteger, numbers.format (numbers.ofNat n) = latin (Text.decimal n)
  natural : ∀ n ≤ maximumInteger, numbers.natural (numbers.ofNat n) = some n

/-! ## The lengths of texts -/

theorem length_written_le (byte : UInt8) : (written byte).length ≤ 6 := by
  unfold written escapes
  split_ifs <;> simp [latin]

theorem length_quoted_le (value : Bytes) : (quoted value).length ≤ 6 * value.length + 2 := by
  have hwritten : (value.flatMap written).length ≤ 6 * value.length := by
    induction value with
    | nil => exact Nat.le_refl 0
    | cons byte value ih =>
      have hbyte := length_written_le byte
      rw [List.flatMap_cons, List.length_append, List.length_cons]
      omega
  rw [quoted, List.cons_append, List.length_cons, List.length_append, List.length_singleton]
  omega

/-- The room that an entry of an object needs. -/
def room (numbers : Numbers ν) (entry : Bytes × Value ν) : Nat :=
  (quoted entry.1).length + (render numbers entry.2).length + 2

theorem length_renderEntries_le (numbers : Numbers ν) (first : Bool)
    (entries : List (Bytes × Value ν)) :
    (renderEntries numbers first entries).length ≤ (entries.map (room numbers)).sum := by
  induction entries generalizing first with
  | nil => exact Nat.le_refl 0
  | cons entry entries ih =>
    have hseparator : (separator first).length ≤ 1 := by cases first <;> decide
    have hrest := ih false
    rw [renderEntries, List.map_cons, List.sum_cons, room]
    simp only [List.length_append, List.length_cons]
    omega

theorem length_object_le {numbers : Numbers ν} {entries entries' : List (Bytes × Value ν)}
    (h : entries.Perm entries') :
    (render numbers (.object entries)).length ≤ (entries'.map (room numbers)).sum + 2 := by
  have hentries := length_renderEntries_le numbers true entries
  rw [(h.map (room numbers)).sum_eq] at hentries
  rw [render, List.length_cons, List.length_append, List.length_singleton]
  omega

theorem length_format (h : numbers.Lawful) {n : Nat} (hn : n ≤ maximumInteger) :
    (render numbers.toNumbers (.number (numbers.ofNat n))).length ≤ 16 := by
  have hmax : maximumInteger < 10 ^ 16 := by decide
  rw [render, h.format n hn, latin, List.length_map]
  exact (Nat.length_toDigits_le_iff (by omega) (by omega)).mpr (by omega)

/-! ## Identifiers -/

theorem utf8Checked_of_ascii {value : Bytes} (h : ∀ byte ∈ value, byte.toNat < 128) :
    utf8Checked 0 value = true := by
  induction value with
  | nil => rfl
  | cons byte value ih =>
    rw [utf8Checked_ascii (h byte List.mem_cons_self)]
    exact ih fun other hother => h other (List.mem_cons_of_mem _ hother)

theorem lt_of_isCrockford {byte : UInt8} (h : isCrockford byte = true) : byte.toNat < 128 := by
  simp only [isCrockford, Bool.or_eq_true, Bool.and_eq_true, decide_eq_true_eq, beq_iff_eq] at h
  rcases h with ((((((h | h) | rfl) | rfl) | rfl) | rfl) | h) | h
  · omega
  · omega
  · decide
  · decide
  · decide
  · decide
  · omega
  · omega

theorem identifier_cases {value : Bytes} (h : identifier value = true) :
    value.length = 26 ∧ utf8Checked 0 value = true := by
  simp only [identifier, Bool.and_eq_true, beq_iff_eq] at h
  exact ⟨h.1.1.1, utf8Checked_of_ascii fun byte hbyte =>
    lt_of_isCrockford (List.all_eq_true.mp h.1.1.2 byte hbyte)⟩

/-! ## The header -/

/-- The value of a field, where its table has this value. -/
def Item.plain (table : Value ν) : Item ν → Value ν
  | .bool b => .bool b
  | .number n => .number n
  | .string s => .string s
  | .table _ => table
  | _ => .null

/-- The fields with their values. -/
def plainly (table : Value ν) (entries : List (Bytes × Item ν)) : List (Bytes × Value ν) :=
  entries.map fun entry => (entry.1, entry.2.plain table)

theorem unfolds_tableOf {heap : Heap ν} {reference depth : Nat} {entries : List (Bytes × Item ν)}
    (h : (entries.map Prod.fst).Nodup)
    {walk : { walk : List (Bytes × Item ν) // walk.Perm entries }}
    (hheap : heap reference = tableOf entries h walk) (hnonempty : entries ≠ [])
    {table : Value ν}
    (hchildren : ∀ entry ∈ entries, Unfolds heap depth entry.2 (entry.2.plain table)) :
    Unfolds heap (depth + 1) (.table reference) (.object (plainly table walk.val)) := by
  refine .inr ⟨walk.val, plainly table walk.val, ?_, rfl, ?_⟩
  · rw [hheap]
    refine ⟨.inr ⟨rfl, ?_⟩, rfl⟩
    intro hempty
    exact hnonempty (List.nil_perm.mp (hempty ▸ walk.property))
  · have hwalk : ∀ entry ∈ walk.val, Unfolds heap depth entry.2 (entry.2.plain table) :=
      fun entry hentry => hchildren entry (walk.property.mem_iff.mp hentry)
    unfold plainly
    rw [List.forall₂_map_right_iff]
    exact List.forall₂_same.mpr fun entry hentry => ⟨rfl, hwalk entry hentry⟩

/-- The fields of every header. -/
def headerFields (numbers : Integers ν) (installed : Installed) (id : Option Bytes) :
    List (Bytes × Value ν) :=
  [(vKey, .number (numbers.ofNat 1)), (nonceKey, .string installed.nonce),
    (idKey, (id.map Value.string).getD .null),
    (generationKey, .number (numbers.ofNat installed.generation))]

/-- The fields of a header, where its result has this value. -/
def Header.values (numbers : Integers ν) (installed : Installed) (header : Header)
    (result : Value ν) : List (Bytes × Value ν) :=
  headerFields numbers installed header.id ++
    ((if header.accepted = true then [(acceptedKey, .bool true)] else []) ++
      (if header.result.isSome = true then [(resultKey, result)] else []))

variable {installed : Installed} {game : Game ν} {header : Header}

theorem plainly_entries (result : Value ν) :
    plainly result (header.entries numbers installed) = header.values numbers installed result := by
  obtain ⟨id, accepted, error⟩ := header
  cases id <;> cases accepted <;> cases error <;> rfl

/-- The names that the command gives to its own failures. -/
def reasons : List Bytes := [invalidRequest, staleGeneration, notReady, luaError]

theorem reasons_plain : ∀ reason ∈ reasons,
    utf8Checked 0 reason = true ∧ (quoted reason).length ≤ 20 := by
  decide +kernel

/-- The header is one that the command makes. -/
structure Header.Good (header : Header) : Prop where
  id : ∀ id, header.id = some id → identifier id = true
  result : ∀ reason, header.result = some reason → reason ∈ reasons

/-- A failure, in some order of its fields. -/
def Reply.Worded (reply : Reply ν) (value : Value ν) : Prop :=
  ∃ entries entries', reply.value = .object entries ∧ entries'.Perm entries ∧
    value = .object entries'

theorem sound_perm {numbers : Numbers ν} {entries entries' : List (Bytes × Value ν)}
    (h : entries'.Perm entries) (hsound : Sound numbers (.object entries)) :
    Sound numbers (.object entries') :=
  ⟨((h.map Prod.fst).nodup_iff).mpr hsound.1,
    soundEntries_iff.mpr fun entry hentry =>
      soundEntries_iff.mp hsound.2 entry (h.mem_iff.mp hentry)⟩

theorem sound_reason (numbers : Numbers ν) {reason : Bytes} (h : reason ∈ reasons) :
    Sound numbers (Reply.failure reason : Reply ν).value :=
  ⟨by show [okKey, errorKey].Nodup; decide, by decide +kernel, trivial, by decide +kernel,
    (reasons_plain reason h).1, trivial⟩

theorem sound_worded {numbers : Numbers ν} {reply : Reply ν} (h : Sound numbers reply.value)
    {value : Value ν} (hvalue : reply.Worded value) : Sound numbers value := by
  obtain ⟨entries, entries', hentries, hperm, rfl⟩ := hvalue
  exact sound_perm hperm (hentries ▸ h)

theorem Header.sound_values (hlawful : numbers.Lawful) (hgood : header.Good) {result : Value ν}
    (hresult : header.result.isSome = true → Sound numbers.toNumbers result) :
    Sound numbers.toNumbers (.object (header.values numbers installed result)) := by
  have hkeys := header.nodup_entries numbers installed
  have hsame : (header.values numbers installed result).map Prod.fst =
      (header.entries numbers installed).map Prod.fst := by
    rw [← plainly_entries, plainly, List.map_map]
    rfl
  refine ⟨hsame ▸ hkeys, soundEntries_iff.mpr ?_⟩
  have hid : Sound numbers.toNumbers ((header.id.map Value.string).getD .null : Value ν) := by
    cases hheader : header.id with
    | none => exact trivial
    | some id => exact (identifier_cases (hgood.id id hheader)).2
  intro entry hentry
  simp only [Header.values, headerFields, List.mem_append, List.mem_cons, List.not_mem_nil,
    or_false] at hentry
  rcases hentry with (rfl | rfl | rfl | rfl) | hentry | hentry
  · exact ⟨rfl, hlawful.finite 1 (by decide)⟩
  · exact ⟨rfl, (identifier_cases installed.named).2⟩
  · exact ⟨rfl, hid⟩
  · exact ⟨rfl, hlawful.finite _ installed.safe⟩
  · split_ifs at hentry
    · rw [List.mem_singleton] at hentry
      rw [hentry]
      exact ⟨rfl, trivial⟩
    · cases hentry
  · split_ifs at hentry with hsome
    · rw [List.mem_singleton] at hentry
      rw [hentry]
      exact ⟨rfl, hresult hsome⟩
    · cases hentry

theorem length_identifier {numbers : Numbers ν} {id : Option Bytes}
    (h : ∀ value, id = some value → identifier value = true) :
    (render numbers ((id.map Value.string).getD .null : Value ν)).length ≤ 158 := by
  cases id with
  | none =>
    show (render numbers (.null : Value ν)).length ≤ 158
    rw [render]
    decide
  | some value =>
    have hlength := length_quoted_le value
    rw [(identifier_cases (h value rfl)).1] at hlength
    show (render numbers (.string value : Value ν)).length ≤ 158
    rw [render]
    exact hlength

/-- A header fits into 1000 bytes. -/
theorem Header.length_values (hlawful : numbers.Lawful) (hgood : header.Good) {result : Value ν}
    (hresult : header.result.isSome = true → (render numbers.toNumbers result).length ≤ 50)
    {entries : List (Bytes × Value ν)} (h : entries.Perm (header.values numbers installed result)) :
    (render numbers.toNumbers (.object entries)).length ≤ 1000 := by
  refine (length_object_le h).trans ?_
  have hkeys : (quoted vKey).length = 3 ∧ (quoted nonceKey).length = 7 ∧
      (quoted idKey).length = 4 ∧ (quoted generationKey).length = 12 ∧
      (quoted acceptedKey).length = 10 ∧ (quoted resultKey).length = 8 := by decide +kernel
  obtain ⟨hv, hnonce, hid, hgeneration, haccepted, hresultKey⟩ := hkeys
  have hone := length_format hlawful (show 1 ≤ maximumInteger by decide)
  have hnumber := length_format hlawful installed.safe
  have hidentity := @length_identifier _ numbers.toNumbers header.id hgood.id
  have hinstalled : (render numbers.toNumbers (.string installed.nonce : Value ν)).length ≤ 158 :=
    @length_identifier _ numbers.toNumbers (some installed.nonce)
      (fun value hvalue => Option.some.inj hvalue ▸ installed.named)
  have htrue : (render numbers.toNumbers (.bool true : Value ν)).length = 4 := by
    rw [render]
    rfl
  have haccept : (((if header.accepted = true then [(acceptedKey, .bool true)] else [] :
      List (Bytes × Value ν)).map (room numbers.toNumbers)).sum) ≤ 16 := by
    split_ifs
    · simp only [List.map_cons, List.map_nil, List.sum_cons, List.sum_nil, room]
      omega
    · exact Nat.zero_le _
  have hfailure : ((if header.result.isSome = true then [(resultKey, result)] else []).map
      (room numbers.toNumbers)).sum ≤ 60 := by
    split_ifs with hsome
    · have hlength := hresult hsome
      simp only [List.map_cons, List.map_nil, List.sum_cons, List.sum_nil, room]
      omega
    · exact Nat.zero_le _
  unfold Header.values headerFields
  simp only [List.map_append, List.map_cons, List.map_nil, List.sum_append, List.sum_cons,
    List.sum_nil, room]
  omega

theorem length_worded {numbers : Numbers ν} {reason : Bytes} (h : reason ∈ reasons)
    {value : Value ν} (hvalue : (Reply.failure reason : Reply ν).Worded value) :
    (render numbers value).length ≤ 50 := by
  obtain ⟨entries, entries', hentries, hperm, rfl⟩ := hvalue
  obtain rfl := Value.object.inj hentries
  have hkeys : (quoted okKey).length = 4 ∧ (quoted errorKey).length = 7 := by decide +kernel
  have hreason := (reasons_plain reason h).2
  have hfalse : (render numbers (.bool false : Value ν)).length = 5 := by
    rw [render]
    rfl
  have hstring : (render numbers (.string reason : Value ν)).length ≤ 20 := by
    rw [render]
    exact hreason
  refine (length_object_le hperm).trans ?_
  simp only [List.map_cons, List.map_nil, List.sum_cons, List.sum_nil, room]
  omega

/-- The result of a header, as `next` walks it. -/
def Header.failure (game : Game ν) (step : Nat) (header : Header) : Value ν :=
  .object (plainly .null (game.order step (failureEntries (header.result.getD []))).val)

theorem Header.failure_worded (step : Nat) {reason : Bytes} (h : header.result = some reason) :
    (Reply.failure reason : Reply ν).Worded (header.failure game step) := by
  unfold failure
  rw [h, Option.getD_some]
  exact ⟨_, _, rfl, (game.order step (failureEntries reason)).property.map _, rfl⟩

theorem Header.unfolds_failure (step : Nat) :
    Unfolds (header.heap numbers installed game step) 2 (.table 1) (header.failure game step) := by
  refine unfolds_tableOf (nodup_failureEntries _) rfl (List.cons_ne_nil _ _) fun entry hentry => ?_
  simp only [failureEntries, List.mem_cons, List.not_mem_nil, or_false] at hentry
  rcases hentry with rfl | rfl <;> exact rfl

/-- The header unfolds into its fields, in the order of the walk. -/
theorem Header.unfolds (step : Nat) (header : Header) :
    Unfolds (header.heap numbers installed game step) 3 (.table 0)
      (.object (plainly (header.failure game step)
        (game.order step (header.entries numbers installed)).val)) := by
  refine unfolds_tableOf (header.nodup_entries numbers installed) rfl (List.cons_ne_nil _ _)
    fun entry hentry => ?_
  simp only [entries, List.mem_append, List.mem_cons, List.not_mem_nil, or_false] at hentry
  rcases hentry with (rfl | rfl | rfl | rfl) | hentry | hentry
  · exact rfl
  · exact rfl
  · cases header.id <;> exact rfl
  · exact rfl
  · split_ifs at hentry
    · rw [List.mem_singleton] at hentry
      rw [hentry]
      exact rfl
    · cases hentry
  · split_ifs at hentry
    · rw [List.mem_singleton] at hentry
      rw [hentry]
      exact header.unfolds_failure step
    · cases hentry

/-- The header is always written. -/
theorem encode_header (hlawful : numbers.Lawful) (hgood : header.Good) (step : Nat) {limit : Nat}
    (hlimit : 1000 ≤ limit) :
    ∃ entries, entries.Perm (header.values numbers installed (header.failure game step)) ∧
      Sound numbers.toNumbers (.object entries) ∧
      (render numbers.toNumbers (.object entries)).length ≤ 1000 ∧
      header.encode numbers installed game step limit =
        .ok (render numbers.toNumbers (.object entries)) := by
  have hperm : (plainly (header.failure game step)
      (game.order step (header.entries numbers installed)).val).Perm
        (header.values numbers installed (header.failure game step)) := by
    rw [← plainly_entries]
    exact (game.order step (header.entries numbers installed)).property.map _
  have hworded : header.result.isSome = true → ∃ reason ∈ reasons,
      (Reply.failure reason : Reply ν).Worded (header.failure game step) := by
    intro hsome
    obtain ⟨reason, hreason⟩ := Option.isSome_iff_exists.mp hsome
    exact ⟨reason, hgood.result reason hreason, Header.failure_worded step hreason⟩
  have hsound : header.result.isSome = true →
      Sound numbers.toNumbers (header.failure game step) := by
    intro hsome
    obtain ⟨reason, hreason, hvalue⟩ := hworded hsome
    exact sound_worded (sound_reason _ hreason) hvalue
  have hlength : (render numbers.toNumbers (.object (plainly (header.failure game step)
      (game.order step (header.entries numbers installed)).val))).length ≤ 1000 := by
    refine Header.length_values hlawful hgood (fun hsome => ?_) hperm
    obtain ⟨reason, hreason, hvalue⟩ := hworded hsome
    exact length_worded hreason hvalue
  have hentries := sound_perm hperm (Header.sound_values hlawful hgood hsound)
  refine ⟨_, hperm, hentries, hlength, ?_⟩
  unfold Header.encode
  rw [encode_eq (header.unfolds step) hentries, if_neg (by omega)]

/-! ## The frames -/

/-- The line is the header with one more field. -/
def Framed (numbers : Integers ν) (installed : Installed) (id : Option Bytes)
    (field : Bytes × Value ν) (line : Bytes) : Prop :=
  ∃ entries, entries.Perm (headerFields numbers installed id ++ [field]) ∧
    Sound numbers.toNumbers (.object entries) ∧
    line = rpcPrefix ++ (render numbers.toNumbers (.object entries) ++ [10])

/-- The line is the result of a request. -/
def Results (numbers : Integers ν) (installed : Installed) (id : Option Bytes) (reply : Reply ν)
    (line : Bytes) : Prop :=
  ∃ result, reply.Worded result ∧ Framed numbers installed id (resultKey, result) line

/-- The bytes are one line that is no longer than the reader allows. -/
def OneLine (line : Bytes) : Prop :=
  ∃ text, line = text ++ [10] ∧ Printable text ∧ line.length ≤ maximumLineBytes

theorem Framed.oneLine (hlawful : numbers.Lawful) {id : Option Bytes} {field : Bytes × Value ν}
    {line : Bytes} (h : Framed numbers installed id field line)
    (hlength : line.length ≤ maximumLineBytes) : OneLine line := by
  obtain ⟨entries, _, hsound, rfl⟩ := h
  refine ⟨rpcPrefix ++ render numbers.toNumbers (.object entries), by rw [List.append_assoc], ?_,
    hlength⟩
  exact printable_append.mpr ⟨rfl, printable_render hlawful.toLawful _ hsound⟩

/-- A header with one field more is sent. -/
theorem send_eq (hlawful : numbers.Lawful) (handler : Handler ν) (hgood : handler.header.Good)
    {field : Bytes × Value ν}
    (hvalues : handler.header.values numbers installed
        (handler.header.failure game handler.events.length) =
      headerFields numbers installed handler.header.id ++ [field]) :
    ∃ line, Framed numbers installed handler.header.id field line ∧ OneLine line ∧
      send numbers installed game handler = remotePrint game line handler := by
  obtain ⟨entries, hperm, hsound, hlength, hencode⟩ := encode_header hlawful hgood
    handler.events.length (show 1000 ≤ maximumLineBytes - rpcPrefix.length - 1 by decide)
  have hframed : Framed numbers installed handler.header.id field
      (rpcPrefix ++ (render numbers.toNumbers (.object entries) ++ [10])) :=
    ⟨entries, hvalues ▸ hperm, hsound, rfl⟩
  have hprefix : rpcPrefix.length = 8 := rfl
  have hshort : (rpcPrefix ++ (render numbers.toNumbers (.object entries) ++ [10])).length ≤
      maximumLineBytes := by
    rw [List.length_append, List.length_append, List.length_singleton, maximumLineBytes]
    omega
  refine ⟨_, hframed, hframed.oneLine hlawful hshort, ?_⟩
  unfold send
  rw [hencode]

theorem reject_eq (hlawful : numbers.Lawful) {handler : Handler ν} {id : Option Bytes}
    (hheader : handler.header = ⟨id, false, none⟩) (hcompleted : handler.completed = false)
    (hid : ∀ value, id = some value → identifier value = true) {reason : Bytes}
    (hreason : reason ∈ reasons) :
    ∃ line handler', Results numbers installed id (.failure reason) line ∧ OneLine line ∧
      handler'.completed = true ∧ handler'.print = handler.print ∧
      handler'.events = handler.events ++ [.printed line (game.print handler.events.length)] ∧
      (reject numbers installed game reason handler).2 = handler' := by
  have hgood : Header.Good ⟨id, false, some reason⟩ :=
    ⟨hid, fun other hother => Option.some.inj hother ▸ hreason⟩
  obtain ⟨line, hframed, honeLine, hsend⟩ := @send_eq ν numbers installed game hlawful
    { handler with completed := true, header := ⟨id, false, some reason⟩ } hgood
    (resultKey, Header.failure game handler.events.length ⟨id, false, some reason⟩) rfl
  refine ⟨line, _, ⟨_, Header.failure_worded _ rfl, hframed⟩, honeLine, ?_, ?_, ?_, rfl⟩
  all_goals
    unfold reject
    rw [hcompleted, if_neg Bool.false_ne_true, hheader, hsend]
    rfl

/-! ## The last frame -/

theorem renderEntries_append (numbers : Numbers ν) {entries : List (Bytes × Value ν)}
    (h : entries ≠ []) (first : Bool) (more : List (Bytes × Value ν)) :
    renderEntries numbers first (entries ++ more) =
      renderEntries numbers first entries ++ renderEntries numbers false more := by
  induction entries generalizing first with
  | nil => exact absurd rfl h
  | cons entry entries ih =>
    obtain ⟨key, value⟩ := entry
    rw [List.cons_append, renderEntries, renderEntries]
    cases entries with
    | nil => simp [renderEntries]
    | cons next entries =>
      rw [ih (List.cons_ne_nil _ _)]
      simp [List.append_assoc]

/-- The frame that `respond` puts together is the header with the result. -/
theorem render_result (numbers : Numbers ν) {entries : List (Bytes × Value ν)} (h : entries ≠ [])
    (result : Value ν) :
    (render numbers (.object entries)).dropLast ++
        (resultPrefix ++ (render numbers result ++ [125])) =
      render numbers (.object (entries ++ [(resultKey, result)])) := by
  have hprefix : resultPrefix = 44 :: (quoted resultKey ++ [58]) := by decide +kernel
  rw [render, render, renderEntries_append numbers h, renderEntries, renderEntries,
    ← List.cons_append, List.dropLast_concat, hprefix]
  simp [separator]

theorem Reply.worded (reply : Reply ν) : reply.Worded reply.value := by
  cases reply with
  | data value => exact ⟨_, _, rfl, .refl _, rfl⟩
  | failure name => exact ⟨_, _, rfl, .refl _, rfl⟩

theorem sound_result (hlawful : numbers.Lawful) {id : Option Bytes}
    (hid : ∀ value, id = some value → identifier value = true) {result : Value ν}
    (hresult : Sound numbers.toNumbers result) :
    Sound numbers.toNumbers
      (.object (headerFields numbers installed id ++ [(resultKey, result)])) :=
  @Header.sound_values ν numbers installed ⟨id, false, some luaError⟩ hlawful
    ⟨hid, fun _ hreason => Option.some.inj hreason ▸ by decide⟩ result (fun _ => hresult)

/-- The data or the failure of the method, in the room that the header leaves. -/
theorem respond_eq (hlawful : numbers.Lawful) {entries : List (Bytes × Value ν)} {id : Option Bytes}
    (hid : ∀ value, id = some value → identifier value = true)
    (hperm : entries.Perm (headerFields numbers installed id))
    (hlength : (render numbers.toNumbers (.object entries)).length ≤ 1000)
    (request : Request ν) {handler : Handler ν} (hcompleted : handler.completed = false) :
    ∃ reply line limit handler', Results numbers installed id reply line ∧ OneLine line ∧
      Answers numbers.toNumbers (game.call request.method request.arguments).1
        (game.call request.method request.arguments).2 limit reply ∧
      64000 ≤ limit ∧
      limit + line.length = maximumLineBytes + (render numbers.toNumbers reply.value).length ∧
      handler'.print = handler.print ∧
      handler'.events = handler.events ++
        [.called request.method request.arguments handler.print,
          .printed line (game.print (handler.events.length + 1))] ∧
      respond numbers game (rpcPrefix ++
        ((render numbers.toNumbers (.object entries)).dropLast ++ resultPrefix)) request handler =
          handler' := by
  have hnonempty : entries ≠ [] := fun hempty =>
    List.cons_ne_nil _ _ (List.nil_perm.mp (hempty ▸ hperm))
  have hprefix : rpcPrefix.length = 8 := rfl
  have hresultPrefix : resultPrefix.length = 10 := rfl
  have hbeginning : (rpcPrefix ++ ((render numbers.toNumbers (.object entries)).dropLast ++
      resultPrefix)).length ≤ 1018 := by
    rw [List.length_append, List.length_append, List.length_dropLast]
    omega
  have hmaximum : maximumLineBytes = 65536 := rfl
  generalize hbegun : rpcPrefix ++ ((render numbers.toNumbers (.object entries)).dropLast ++
    resultPrefix) = beginning at hbeginning
  obtain ⟨reply, hanswers, hreply, hresponse, hfits⟩ :=
    @response_render ν numbers.toNumbers (game.call request.method request.arguments).1
      (game.call request.method request.arguments).2 (maximumLineBytes - beginning.length - 2)
      (by omega)
  have hline : beginning ++ (render numbers.toNumbers reply.value ++ [125, 10]) =
      rpcPrefix ++ (render numbers.toNumbers (.object (entries ++ [(resultKey, reply.value)])) ++
        [10]) := by
    rw [← render_result numbers.toNumbers hnonempty, ← hbegun]
    simp [List.append_assoc]
  have happended := hperm.append_right [(resultKey, reply.value)]
  have hframed : Framed numbers installed id (resultKey, reply.value)
      (beginning ++ (render numbers.toNumbers reply.value ++ [125, 10])) :=
    ⟨_, happended, sound_perm happended (sound_result hlawful hid hreply), hline⟩
  have hshort : (beginning ++ (render numbers.toNumbers reply.value ++ [125, 10])).length ≤
      maximumLineBytes := by
    simp only [List.length_append, List.length_cons, List.length_nil]
    omega
  refine ⟨reply, _, _, _, ⟨_, reply.worded, hframed⟩, hframed.oneLine hlawful hshort, hanswers,
    by omega, ?_, ?_, ?_, rfl⟩
  · simp only [List.length_append, List.length_cons, List.length_nil]
    omega
  · unfold respond
    rw [hcompleted, if_neg Bool.false_ne_true]
    rfl
  · unfold respond
    rw [hcompleted, if_neg Bool.false_ne_true]
    simp [hresponse, remotePrint]

/-! ## The exchange -/

/-- The line is this request. -/
def Requested (numbers : Integers ν) (installed : Installed) (line : Bytes) (request : Request ν) :
    Prop :=
  ∃ entries, decodable (chomp line) = true ∧
    Document numbers.toNumbers.reads 65 ((chomp line).drop rpcPrefix.length) (.object entries) ∧
    readRequest numbers installed entries = some request

/-- The line is refused for this reason, under this identity. -/
inductive Refuses (numbers : Integers ν) (installed : Installed) (game : Game ν) (line : Bytes) :
    Option Bytes → Bytes → Prop
  | invalid (id : Option Bytes) (hid : ∀ value, id = some value → identifier value = true)
      (hrequest : ∀ request, ¬ Requested numbers installed line request) :
      Refuses numbers installed game line id invalidRequest
  | stale (request : Request ν) (hrequest : Requested numbers installed line request)
      (hgeneration : request.generation ≠ installed.generation) :
      Refuses numbers installed game line (some request.id) staleGeneration
  | unready (request : Request ν) (hrequest : Requested numbers installed line request)
      (hgeneration : request.generation = installed.generation)
      (hready : ready installed game = false) :
      Refuses numbers installed game line (some request.id) notReady

/-- The events of a line with the prefix. -/
inductive Exchanged (numbers : Integers ν) (installed : Installed) (game : Game ν) (line : Bytes) :
    List (Event ν) → Prop
  | refused (id : Option Bytes) (reason final : Bytes)
      (hrefused : Refuses numbers installed game line id reason)
      (hfinal : Results numbers installed id (.failure reason) final) :
      Exchanged numbers installed game line [.printed final (game.print 0)]
  /-- The printer raises at the acceptance. -/
  | unaccepted (request : Request ν) (acceptance final : Bytes)
      (hrequest : Requested numbers installed line request)
      (hgeneration : request.generation = installed.generation)
      (hready : ready installed game = true)
      (hacceptance :
        Framed numbers installed (some request.id) (acceptedKey, .bool true) acceptance)
      (hprinting : (game.print 0).returned = false)
      (hfinal : Results numbers installed (some request.id) (.failure luaError) final) :
      Exchanged numbers installed game line
        [.printed acceptance (game.print 0), .printed final (game.print 1)]
  | answered (request : Request ν) (acceptance final : Bytes) (reply : Reply ν) (limit : Nat)
      (hrequest : Requested numbers installed line request)
      (hgeneration : request.generation = installed.generation)
      (hready : ready installed game = true)
      (hacceptance :
        Framed numbers installed (some request.id) (acceptedKey, .bool true) acceptance)
      (hprinting : (game.print 0).returned = true)
      (hfinal : Results numbers installed (some request.id) reply final)
      (hanswers : Answers numbers.toNumbers (game.call request.method request.arguments).1
        (game.call request.method request.arguments).2 limit reply)
      (hroom : 64000 ≤ limit)
      (hlimit : limit + final.length =
        maximumLineBytes + (render numbers.toNumbers reply.value).length) :
      Exchanged numbers installed game line
        [.printed acceptance (game.print 0),
          .called request.method request.arguments game.ordinaryPrint,
          .printed final (game.print 2)]

/-- The lines that were given to the printer. -/
def printedLine : Event ν → Option Bytes
  | .printed line _ => some line
  | .called _ _ _ => none

theorem reject_completed {handler : Handler ν} (h : handler.completed = true) (reason : Bytes) :
    reject numbers installed game reason handler = (.ok (), handler) := by
  unfold reject
  rw [if_pos h]

/-- Once a result was printed the command prints nothing more. -/
theorem execute_of_completed {line : Bytes} {print : Nat}
    (hline : line.take rpcPrefix.length = rpcPrefix)
    (h : (body numbers installed game line { print := game.ordinaryPrint }).2.completed = true ∨
      (body numbers installed game line { print := game.ordinaryPrint }).1 = .ok ()) :
    ∃ handler, execute numbers installed game line print = some handler ∧ handler.print = print ∧
      handler.events =
        (body numbers installed game line { print := game.ordinaryPrint }).2.events := by
  unfold execute
  rw [if_neg (not_not.mpr hline)]
  generalize body numbers installed game line { print := game.ordinaryPrint } = ran at h
  obtain ⟨outcome, handler⟩ := ran
  cases outcome with
  | ok _ => exact ⟨_, rfl, rfl, rfl⟩
  | error raised =>
    rcases h with hcompleted | hok
    · refine ⟨_, rfl, ?_, ?_⟩
      · rw [reject_completed (by exact hcompleted)]
      · rw [reject_completed (by exact hcompleted)]
    · cases hok

theorem execute_of_reject (hlawful : numbers.Lawful) {line : Bytes} {print : Nat}
    (hline : line.take rpcPrefix.length = rpcPrefix) {id : Option Bytes} {reason : Bytes}
    (hid : ∀ value, id = some value → identifier value = true) (hreason : reason ∈ reasons)
    (hbody : body numbers installed game line { print := game.ordinaryPrint } =
      reject numbers installed game reason
        { header := ⟨id, false, none⟩, print := game.ordinaryPrint }) :
    ∃ final handler, execute numbers installed game line print = some handler ∧
      handler.print = print ∧ Results numbers installed id (.failure reason) final ∧
      OneLine final ∧ handler.events = [.printed final (game.print 0)] := by
  obtain ⟨final, handler, hresults, honeLine, hcompleted, _, hevents, hreject⟩ :=
    @reject_eq ν numbers installed game hlawful
      { header := ⟨id, false, none⟩, print := game.ordinaryPrint } id rfl rfl hid reason hreason
  obtain ⟨handler', hexecute, hprint, hsame⟩ := @execute_of_completed ν numbers installed game line
    print hline (.inl (by rw [hbody, hreject]; exact hcompleted))
  refine ⟨final, handler', hexecute, hprint, hresults, honeLine, ?_⟩
  rw [hsame, hbody, hreject, hevents]
  rfl

/-- An accepted request is answered, or the printer raised at its acceptance. -/
theorem execute_of_answer (hlawful : numbers.Lawful) {line : Bytes} {print : Nat}
    (hline : line.take rpcPrefix.length = rpcPrefix) {request : Request ν}
    (hid : identifier request.id = true) (hrequest : Requested numbers installed line request)
    (hgeneration : request.generation = installed.generation)
    (hready : ready installed game = true)
    (hbody : body numbers installed game line { print := game.ordinaryPrint } =
      answer numbers installed game request
        { header := ⟨some request.id, false, none⟩, print := game.ordinaryPrint }) :
    ∃ handler, execute numbers installed game line print = some handler ∧
      handler.print = print ∧ Exchanged numbers installed game line handler.events ∧
      ∀ out ∈ handler.events.filterMap printedLine, OneLine out := by
  have hids : ∀ value, some request.id = some value → identifier value = true :=
    fun value hvalue => Option.some.inj hvalue ▸ hid
  obtain ⟨acceptance, hacceptance, hfirst, hsend⟩ := @send_eq ν numbers installed game hlawful
    { header := ⟨some request.id, true, none⟩, print := game.ordinaryPrint }
    ⟨hids, fun _ hnone => by cases hnone⟩ (acceptedKey, .bool true) rfl
  by_cases hprinting : (game.print 0).returned = true
  · obtain ⟨entries, hperm, _, hlength, hencode⟩ := @encode_header ν numbers installed game
      ⟨some request.id, false, none⟩ hlawful ⟨hids, fun _ hnone => by cases hnone⟩ 1
      maximumLineBytes (by decide)
    obtain ⟨reply, final, limit, handler, hfinal, hlast, hanswers, hroom, hlimit, _, hevents,
        hrespond⟩ :=
      @respond_eq ν numbers installed game hlawful entries (some request.id) hids
        (by rw [← List.append_nil (headerFields _ _ _)]; exact hperm) hlength request
        { header := ⟨some request.id, false, none⟩, print := game.ordinaryPrint,
          events := [.printed acceptance (game.print 0)] } rfl
    have hanswer : answer numbers installed game request
        { header := ⟨some request.id, false, none⟩, print := game.ordinaryPrint } =
          (.ok (), handler) := by
      unfold answer
      simp only [hsend, remotePrint, List.length_nil, if_pos hprinting, List.nil_append,
        List.length_singleton, hencode, hrespond]
    obtain ⟨handler', hexecute, hprint, hsame⟩ := @execute_of_completed ν numbers installed game
      line print hline (.inr (by rw [hbody, hanswer]))
    refine ⟨handler', hexecute, hprint, ?_, ?_⟩
    · rw [hsame, hbody, hanswer, hevents]
      exact .answered request acceptance final reply limit hrequest hgeneration hready hacceptance
        hprinting hfinal hanswers hroom hlimit
    · rw [hsame, hbody, hanswer, hevents]
      exact List.forall_mem_cons.mpr ⟨hfirst, List.forall_mem_singleton.mpr hlast⟩
  · rw [Bool.not_eq_true] at hprinting
    have hanswer : answer numbers installed game request
        { header := ⟨some request.id, false, none⟩, print := game.ordinaryPrint } =
          (.error .other,
            { header := ⟨some request.id, true, none⟩, print := game.ordinaryPrint,
              events := [.printed acceptance (game.print 0)] }) := by
      unfold answer
      simp only [hsend, remotePrint, List.length_nil, hprinting, Bool.false_eq_true, if_false,
        List.nil_append]
    obtain ⟨final, handler, hfinal, hlast, _, hprint, hevents, hreject⟩ :=
      @reject_eq ν numbers installed game hlawful
        { header := ⟨some request.id, false, none⟩, print := print,
          events := [.printed acceptance (game.print 0)] } (some request.id) rfl rfl hids luaError
        (by decide)
    have hexecute : execute numbers installed game line print = some handler := by
      unfold execute
      rw [if_neg (not_not.mpr hline), hbody, hanswer]
      exact congrArg some hreject
    refine ⟨handler, hexecute, hprint, ?_, ?_⟩
    · rw [hevents]
      exact .unaccepted request acceptance final hrequest hgeneration hready hacceptance hprinting
        hfinal
    · rw [hevents]
      exact List.forall_mem_cons.mpr ⟨hfirst, List.forall_mem_singleton.mpr hlast⟩

theorem identifier_of_idOf {entries : List (Bytes × Value ν)} :
    ∀ value, idOf entries = some value → identifier value = true :=
  fun _ h => (Option.filter_eq_some_iff.mp h).2

theorem idOf_of_readRequest {entries : List (Bytes × Value ν)} {request : Request ν}
    (h : readRequest numbers installed entries = some request) :
    idOf entries = some request.id := by
  simp only [readRequest, Option.bind_eq_bind, Option.bind_eq_some_iff] at h
  obtain ⟨v, _, nonce, _, id, hid, generation, _, method, _, arguments, _, h⟩ := h
  split_ifs at h
  obtain rfl := Option.some.inj h
  exact hid

/-- A line has one request. -/
theorem Requested.unique {line : Bytes} {request request' : Request ν}
    (h : Requested numbers installed line request)
    (h' : Requested numbers installed line request') : request = request' := by
  obtain ⟨entries, _, hdocument, hread⟩ := h
  obtain ⟨entries', _, hdocument', hread'⟩ := h'
  obtain rfl := Value.object.inj (document_unique hdocument hdocument')
  exact Option.some.inj (hread.symm.trans hread')

/-- A decodable line is short enough for the decoder. -/
theorem decode_request {line : Bytes} (h : decodable (chomp line) = true) {value : Value ν} :
    decode numbers.toNumbers ((chomp line).drop rpcPrefix.length) maximumLineBytes = .ok value ↔
      Document numbers.toNumbers.reads 65 ((chomp line).drop rpcPrefix.length) value := by
  have hlength : ((chomp line).drop rpcPrefix.length).length ≤ maximumLineBytes := by
    simp only [decodable, Bool.and_eq_true, decide_eq_true_eq] at h
    have hshort := h.1
    rw [List.length_drop]
    unfold maximumRequestBytes at hshort
    unfold maximumLineBytes
    omega
  rw [decode_eq_ok]
  exact ⟨fun hboth => hboth.2, fun hdocument => ⟨hlength, hdocument⟩⟩

/-- What the command does first with a line: it refuses it, or answers the
request that it is. -/
theorem body_cases {line : Bytes} (handler : Handler ν)
    (hheader : handler.header = ⟨none, false, none⟩) :
    (∃ id reason, Refuses numbers installed game line id reason ∧
      body numbers installed game line handler =
        reject numbers installed game reason { handler with header := ⟨id, false, none⟩ }) ∨
    ∃ request, Requested numbers installed line request ∧ identifier request.id = true ∧
      request.generation = installed.generation ∧ ready installed game = true ∧
      body numbers installed game line handler =
        answer numbers installed game request
          { handler with header := ⟨some request.id, false, none⟩ } := by
  have hsame : { handler with header := ⟨none, false, none⟩ } = handler := by rw [← hheader]
  by_cases hdecodable : decodable (chomp line) = true
  · have hread : ∀ request, Requested numbers installed line request → ∃ entries,
        decode numbers.toNumbers ((chomp line).drop rpcPrefix.length) maximumLineBytes =
          .ok (.object entries) ∧ readRequest numbers installed entries = some request := by
      intro request hrequest
      obtain ⟨entries, _, hdocument, hread⟩ := hrequest
      exact ⟨entries, (decode_request hdecodable).mpr hdocument, hread⟩
    have htrue : ¬ decodable (chomp line) = false := by simp [hdecodable]
    by_cases hobject : ∃ entries, decode numbers.toNumbers ((chomp line).drop rpcPrefix.length)
        maximumLineBytes = .ok (.object entries)
    · obtain ⟨entries, hdecode⟩ := hobject
      have hdocument := (decode_request hdecodable).mp hdecode
      cases hrequest : readRequest numbers installed entries with
      | none =>
        refine .inl ⟨idOf entries, invalidRequest, .invalid _ identifier_of_idOf ?_, ?_⟩
        · intro request hrequested
          obtain ⟨entries', hdecode', hread'⟩ := hread request hrequested
          rw [hdecode] at hdecode'
          obtain rfl := Value.object.inj (Except.ok.inj hdecode')
          rw [hrequest] at hread'
          cases hread'
        · unfold body
          simp only [if_neg htrue, hdecode, hrequest, hheader]
      | some request =>
        have hid := idOf_of_readRequest hrequest
        have hrequested : Requested numbers installed line request :=
          ⟨entries, hdecodable, hdocument, hrequest⟩
        by_cases hgeneration : request.generation = installed.generation
        · by_cases hready : ready installed game = true
          · refine .inr ⟨request, hrequested, identifier_of_idOf _ hid, hgeneration, hready, ?_⟩
            unfold body
            simp only [if_neg htrue, hdecode, hrequest, hheader, hid, hgeneration, hready, ne_eq,
              not_true_eq_false, if_false, Bool.true_eq_false]
          · rw [Bool.not_eq_true] at hready
            refine .inl ⟨some request.id, notReady,
              .unready request hrequested hgeneration hready, ?_⟩
            unfold body
            simp only [if_neg htrue, hdecode, hrequest, hheader, hid, hgeneration, hready, ne_eq,
              not_true_eq_false, if_false, if_true]
        · refine .inl ⟨some request.id, staleGeneration, .stale request hrequested hgeneration, ?_⟩
          unfold body
          simp only [if_neg htrue, hdecode, hrequest, hheader, hid, ne_eq, hgeneration,
            not_false_eq_true, if_true]
    · refine .inl ⟨none, invalidRequest, .invalid none nofun ?_, ?_⟩
      · intro request hrequest
        obtain ⟨entries, hdecode, _⟩ := hread request hrequest
        exact hobject ⟨entries, hdecode⟩
      · unfold body
        rw [if_neg htrue, hsame]
        split
        · rename_i entries hdecode
          exact absurd ⟨entries, hdecode⟩ hobject
        · rfl
  · rw [Bool.not_eq_true] at hdecodable
    refine .inl ⟨none, invalidRequest, .invalid none nofun ?_, ?_⟩
    · intro request hrequest
      obtain ⟨_, htrue, _⟩ := hrequest
      rw [htrue] at hdecodable
      cases hdecodable
    · unfold body
      rw [if_pos hdecodable, hsame]

theorem reason_mem {line : Bytes} {id : Option Bytes} {reason : Bytes}
    (h : Refuses numbers installed game line id reason) :
    reason ∈ reasons ∧ ∀ value, id = some value → identifier value = true := by
  have hrequested : ∀ request : Request ν, Requested numbers installed line request →
      ∀ value, some request.id = some value → identifier value = true := by
    intro request hrequest value hvalue
    obtain ⟨entries, _, _, hread⟩ := hrequest
    obtain rfl := Option.some.inj hvalue
    exact identifier_of_idOf _ (idOf_of_readRequest hread)
  cases h with
  | invalid _ hid _ => exact ⟨by decide, hid⟩
  | stale request hrequest _ => exact ⟨by decide, hrequested request hrequest⟩
  | unready request hrequest _ _ => exact ⟨by decide, hrequested request hrequest⟩

/-- Every line with the prefix has exactly the events of an exchange: one
result in any case, at most one acceptance before it, and the method once
between the two, for a valid request only.  Every frame is one line within the
limit of the reader, and `print` is what it was before. -/
theorem execute_exchanged (hlawful : numbers.Lawful) (installed : Installed) (game : Game ν)
    {line : Bytes} (hline : line.take rpcPrefix.length = rpcPrefix) (print : Nat) :
    ∃ handler, execute numbers installed game line print = some handler ∧
      handler.print = print ∧ Exchanged numbers installed game line handler.events ∧
      ∀ out ∈ handler.events.filterMap printedLine, OneLine out := by
  rcases @body_cases ν numbers installed game line { print := game.ordinaryPrint } rfl with
    ⟨id, reason, hrefuses, hbody⟩ | ⟨request, hrequest, hid, hgeneration, hready, hbody⟩
  · obtain ⟨hreason, hid⟩ := reason_mem hrefuses
    obtain ⟨final, handler, hexecute, hprint, hresults, honeLine, hevents⟩ :=
      @execute_of_reject ν numbers installed game hlawful line print hline id reason hid hreason
        hbody
    refine ⟨handler, hexecute, hprint, ?_, ?_⟩
    · rw [hevents]
      exact .refused id reason final hrefuses hresults
    · rw [hevents]
      exact List.forall_mem_singleton.mpr honeLine
  · exact execute_of_answer hlawful hline hid hrequest hgeneration hready hbody

/-- The method runs exactly for a request of the generation that is ready and
whose acceptance the printer returned from, once, between its acceptance and
its result; whatever else the line is, it is answered by one result, on one
line within the limit of the reader. -/
theorem rpc_exchange (hlawful : numbers.Lawful) (installed : Installed) (game : Game ν)
    {line : Bytes} (hline : line.take rpcPrefix.length = rpcPrefix) (print : Nat) :
    ∃ handler, execute numbers installed game line print = some handler ∧
      handler.print = print ∧ Exchanged numbers installed game line handler.events ∧
      (∀ out ∈ handler.events.filterMap printedLine, OneLine out) ∧
      ∀ method arguments during, .called method arguments during ∈ handler.events ↔
        ∃ request, Requested numbers installed line request ∧
          request.generation = installed.generation ∧ ready installed game = true ∧
          (game.print 0).returned = true ∧ method = request.method ∧
          arguments = request.arguments ∧ during = game.ordinaryPrint := by
  obtain ⟨handler, hexecute, hprint, hexchanged, hlines⟩ :=
    execute_exchanged hlawful installed game hline print
  refine ⟨handler, hexecute, hprint, hexchanged, hlines, fun method arguments during => ?_⟩
  generalize handler.events = events at hexchanged ⊢
  constructor
  · intro hcalled
    cases hexchanged with
    | refused => simp at hcalled
    | unaccepted => simp at hcalled
    | answered request _ _ _ _ hrequest hgeneration hready _ hprinting =>
      simp only [List.mem_cons, List.not_mem_nil, reduceCtorEq, or_false, false_or,
        Event.called.injEq] at hcalled
      exact ⟨request, hrequest, hgeneration, hready, hprinting, hcalled⟩
  · intro hrequested
    obtain ⟨request, hrequest, hgeneration, hready, hprinting, rfl, rfl, rfl⟩ := hrequested
    cases hexchanged with
    | refused _ _ _ hrefused _ =>
      cases hrefused with
      | invalid _ _ hno => exact absurd hrequest (hno request)
      | stale other hother hstale =>
        obtain rfl := hother.unique hrequest
        exact absurd hgeneration hstale
      | unready _ _ _ hunready =>
        rw [hready] at hunready
        cases hunready
    | unaccepted _ _ _ _ _ _ _ hfailed _ =>
      rw [hprinting] at hfailed
      cases hfailed
    | answered other _ _ _ _ hother _ _ _ _ _ _ _ _ =>
      obtain rfl := hother.unique hrequest
      exact List.mem_cons_of_mem _ List.mem_cons_self

/-- The whole numbers. -/
def wholeNumbers : Integers Nat where
  tonumber text := Json.digits? (ascii text)
  format n := latin (Text.decimal n)
  finite _ := true
  ofNat n := n
  natural n := if n ≤ maximumInteger then some n else none

theorem ascii_latin {text : Text} (h : ∀ c ∈ text, c.toNat < 256) : ascii (latin text) = text := by
  unfold ascii latin
  rw [List.map_map]
  refine (List.map_congr_left fun c hc => ?_).trans (List.map_id text)
  show Char.ofNat (UInt8.ofNat c.toNat).toNat = c
  rw [toNat_byte (h c hc), Char.ofNat_toNat]

theorem numeral_decimal (n : Nat) : Numeral (latin (Text.decimal n)) := by
  have hdigits : Digits (latin (Text.decimal n)) := by
    refine ⟨fun hempty => Text.decimal_ne_nil n (List.map_eq_nil_iff.mp hempty), ?_⟩
    unfold latin
    rw [List.all_map, List.all_eq_true]
    intro c hc
    obtain ⟨hlow, hhigh⟩ := Text.toNat_of_mem_decimal hc
    show isDigit (.ofNat c.toNat) = true
    rw [isDigit, toNat_byte (by omega), decide_eq_true hlow, decide_eq_true hhigh]
    rfl
  refine ⟨[], _, [], [], .inl rfl, ?_, .inl rfl, .inl rfl, by simp; rfl⟩
  by_cases hzero : (latin (Text.decimal n)).head? = some 48
  · left
    unfold latin at hzero
    rw [List.head?_map, Option.map_eq_some_iff] at hzero
    obtain ⟨c, hhead, hc⟩ := hzero
    obtain ⟨hlow, hhigh⟩ := Text.toNat_of_mem_decimal (List.mem_of_head? hhead)
    have hnat : c.toNat = 48 := by
      rw [← toNat_byte (show c.toNat < 256 by omega), hc]
      rfl
    have hchar : c = '0' := by rw [← Char.ofNat_toNat c, hnat]
    rw [Numeral.head?_decimal n (hchar ▸ hhead)]
    rfl
  · exact .inr ⟨hdigits, hzero⟩

theorem wholeNumbers_lawful : wholeNumbers.Lawful where
  toLawful :=
    { numeral := fun n _ => numeral_decimal n
      tonumber := by
        intro n _
        show Json.digits? (ascii (latin (Text.decimal n))) = some n
        rw [ascii_latin, Json.digits?_decimal]
        intro c hc
        have hdigit := Text.toNat_of_mem_decimal hc
        omega }
  finite _ _ := rfl
  format _ _ := rfl
  natural _ h := if_pos h

def sampleInstalled : Installed where
  nonce := latin "01J00000000000000000000001".toList
  generation := 7
  named := by decide +kernel
  safe := by decide

/-- A game whose methods fail, and whose printer raises at the last frame,
after it was printed. -/
def sampleGame : Game Nat where
  state := { installed := true, nonce := some sampleInstalled.nonce, generation := some 7 }
  ordinaryPrint := 1
  print n := { delivered := true, returned := n == 0 }
  order _ entries := ⟨entries.reverse, entries.reverse_perm⟩
  call _ _ := (fun _ => ⟨.none, [], by decide⟩, .error .other)

/-- A request of the generation, on a line with a line feed. -/
def sampleLine : Bytes :=
  rpcPrefix ++ (render wholeNumbers.toNumbers (.object
    [(vKey, .number 1), (nonceKey, .string sampleInstalled.nonce),
      (idKey, .string sampleInstalled.nonce), (generationKey, .number 7),
      (methodKey, .string (latin "save".toList)), (argumentsKey, .object [])]) ++ [10])

theorem rpc_exchange_sample :
    ((execute wholeNumbers sampleInstalled sampleGame sampleLine 2).map fun handler =>
        handler.events.length) = some 3 ∧
      ∃ handler, execute wholeNumbers sampleInstalled sampleGame sampleLine 2 = some handler ∧
        handler.print = 2 ∧ Exchanged wholeNumbers sampleInstalled sampleGame sampleLine
          handler.events ∧
        (∀ out ∈ handler.events.filterMap printedLine, OneLine out) ∧
        ∀ method arguments during, .called method arguments during ∈ handler.events ↔
          ∃ request, Requested wholeNumbers sampleInstalled sampleLine request ∧
            request.generation = sampleInstalled.generation ∧
            ready sampleInstalled sampleGame = true ∧ (sampleGame.print 0).returned = true ∧
            method = request.method ∧ arguments = request.arguments ∧
            during = sampleGame.ordinaryPrint :=
  ⟨by decide +kernel,
    rpc_exchange wholeNumbers_lawful sampleInstalled sampleGame (by decide +kernel) 2⟩

end DstServer.Runtime
