import DstServer.Driver.Lines
import DstServer.Lib.Document
import DstServer.Runtime.Request

/-!
# A request from the driver to the game and back

The frames of `rpc` come back through the reply pipe to the driver, which
waits with one pending request for its marker.

* `toJson` is what `serde_json` reads from the text of a Lua value.
* `Waits`: the driver waits for a request.  `handle_acceptance` and
  `handle_result` are the steps of the frames, and `handle_done` that of the
  marker.
* `exchange_delivers` follows a request from its dispatch to the result that
  its caller receives.
-/

namespace DstServer.Runtime

open Lib JsonText

variable {ν : Type}

/-! ## The value of a text -/

/-- The text of bytes in UTF-8. -/
def textOf (bytes : Bytes) : String := (String.fromUTF8? bytes.toByteArray).getD ""

mutual

/-- The value that `serde_json` reads from the text of a Lua value. -/
def toJson (numbers : Numbers ν) : Value ν → Json
  | .null => .null
  | .bool b => .bool b
  | .number n => .number (textOf (numbers.format n))
  | .string text => .string (textOf text)
  | .array items => .array (toJsonItems numbers items)
  | .object entries => .object (toJsonEntries numbers entries)

def toJsonItems (numbers : Numbers ν) : List (Value ν) → List Json
  | [] => []
  | item :: items => toJson numbers item :: toJsonItems numbers items

def toJsonEntries (numbers : Numbers ν) : List (Bytes × Value ν) → List (String × Json)
  | [] => []
  | (key, value) :: entries =>
    Json.insertField (textOf key) (toJson numbers value) (toJsonEntries numbers entries)

end

/-- `serde_json` reads the text of a value that nests within its limit. -/
def Reads (numbers : Numbers ν) (parse : Bytes → Option Json) : Prop :=
  ∀ value, Sound numbers value → Within 127 value →
    parse (render numbers value) = some (toJson numbers value)

theorem textOf_utf8 (text : String) : textOf (utf8 text.toList) = text := by
  unfold textOf
  rw [fromUTF8?_utf8, Option.getD_some, String.ofList_toList]

section Fields

variable {numbers : Numbers ν} {entries : List (Bytes × Value ν)}

theorem lookup_none {name : String} (h : name ∉ entries.map fun entry => textOf entry.1) :
    (toJsonEntries numbers entries).lookup name = none := by
  induction entries with
  | nil => rfl
  | cons entry entries ih =>
    obtain ⟨key, value⟩ := entry
    rw [List.map_cons, List.mem_cons, not_or] at h
    rw [toJsonEntries, Json.lookup_insertField, if_neg h.1, ih h.2]

theorem lookup_entry {key : Bytes} {value : Value ν} (h : (key, value) ∈ entries)
    (hdistinct : (entries.map fun entry => textOf entry.1).Nodup) :
    (toJsonEntries numbers entries).lookup (textOf key) = some (toJson numbers value) := by
  induction entries with
  | nil => cases h
  | cons entry entries ih =>
    obtain ⟨other, found⟩ := entry
    rw [List.map_cons, List.nodup_cons] at hdistinct
    rw [toJsonEntries, Json.lookup_insertField]
    rcases List.mem_cons.mp h with heq | hlater
    · obtain ⟨rfl, rfl⟩ := Prod.mk.inj heq
      rw [if_pos rfl]
    · rw [if_neg, ih hlater hdistinct.2]
      intro hsame
      exact hdistinct.1 (hsame ▸ List.mem_map.mpr ⟨_, hlater, rfl⟩)

/-- A field of an object, in whatever order the object was written. -/
theorem get?_perm {entries' : List (Bytes × Value ν)} (h : entries'.Perm entries)
    (hdistinct : (entries.map fun entry => textOf entry.1).Nodup) {key : Bytes} {value : Value ν}
    (hentry : (key, value) ∈ entries) :
    (toJson numbers (.object entries')).get? (textOf key) = some (toJson numbers value) :=
  lookup_entry (h.mem_iff.mpr hentry) (((h.map _).nodup_iff).mpr hdistinct)

theorem get?_perm_none {entries' : List (Bytes × Value ν)} (h : entries'.Perm entries)
    {name : String} (hname : name ∉ entries.map fun entry => textOf entry.1) :
    (toJson numbers (.object entries')).get? name = none :=
  lookup_none fun hmem => hname ((h.map _).mem_iff.mp hmem)

end Fields

/-! ## The frames -/

section Frames

variable {numbers : Integers ν} {installed : Installed}

theorem key_texts : textOf vKey = "v" ∧ textOf nonceKey = "nonce" ∧ textOf idKey = "id" ∧
    textOf generationKey = "generation" ∧ textOf acceptedKey = "accepted" ∧
    textOf resultKey = "result" ∧ textOf okKey = "ok" ∧ textOf dataKey = "data" ∧
    textOf errorKey = "error" := by
  decide +kernel

theorem toJson_ofNat (hlawful : numbers.Lawful) {n : Nat} (h : n ≤ maximumInteger) :
    toJson numbers.toNumbers (.number (numbers.ofNat n)) = .ofNat n := by
  have hascii : ∀ c ∈ Text.decimal n, c.toNat < 128 := by
    intro c hc
    have hdigit := Text.toNat_of_mem_decimal hc
    omega
  have htext : textOf (latin (Text.decimal n)) = toString n := by
    rw [← utf8_ascii_chars hascii]
    have hlist : (toString n).toList = Text.decimal n := by simp [Text.decimal]
    rw [← hlist, textOf_utf8]
  rw [toJson, hlawful.format n h, htext]
  rfl

/-- What the driver reads in the header of a frame. -/
structure Headed (installed : Installed) (id : Bytes) (response : Json) : Prop where
  object : response.isObject = true
  v : (response.get "v").isInt 1 = true
  nonce : (response.get "nonce").asStr? = some (textOf installed.nonce)
  id : (response.get "id").asStr? = some (textOf id)
  generation : Driver.safeInteger (response.get "generation") = some installed.generation

theorem safeInteger_ofNat {n : Nat} (h : n ≤ maximumInteger) :
    Driver.safeInteger (.ofNat n) = some n := by
  have hmax : maximumInteger < Json.u64Bound := by decide
  unfold Driver.safeInteger
  rw [Json.asU64?_ofNat, if_pos (by omega), Option.filter_some]
  exact if_pos (decide_eq_true h)

theorem distinct_header (id : Bytes) {field : Bytes × Value ν}
    (hfield : field.1 = acceptedKey ∨ field.1 = resultKey) :
    ((headerFields numbers installed (some id) ++ [field]).map fun entry =>
      textOf entry.1).Nodup := by
  obtain ⟨key, value⟩ := field
  obtain ⟨hv, hnonce, hid, hgeneration, haccepted, hresult, _⟩ := key_texts
  rcases hfield with rfl | rfl
  · show [textOf vKey, textOf nonceKey, textOf idKey, textOf generationKey,
      textOf acceptedKey].Nodup
    rw [hv, hnonce, hid, hgeneration, haccepted]
    decide
  · show [textOf vKey, textOf nonceKey, textOf idKey, textOf generationKey, textOf resultKey].Nodup
    rw [hv, hnonce, hid, hgeneration, hresult]
    decide

theorem headed (hlawful : numbers.Lawful) (id : Bytes) {field : Bytes × Value ν}
    (hfield : field.1 = acceptedKey ∨ field.1 = resultKey) {entries : List (Bytes × Value ν)}
    (h : entries.Perm (headerFields numbers installed (some id) ++ [field])) :
    Headed installed id (toJson numbers.toNumbers (.object entries)) := by
  obtain ⟨hv, hnonce, hid, hgeneration, _⟩ := key_texts
  have hget : ∀ key value, (key, value) ∈ headerFields numbers installed (some id) →
      (toJson numbers.toNumbers (.object entries)).get (textOf key) =
        toJson numbers.toNumbers value := by
    intro key value hentry
    unfold Json.get
    rw [get?_perm h (distinct_header id hfield) (List.mem_append_left _ hentry), Option.getD_some]
  have hversion := hget vKey _ List.mem_cons_self
  have hinstalled := hget nonceKey _ (List.mem_cons_of_mem _ List.mem_cons_self)
  have hidentity := hget idKey (.string id)
    (List.mem_cons_of_mem _ (List.mem_cons_of_mem _ List.mem_cons_self))
  have hnumber := hget generationKey _ (List.mem_cons_of_mem _ (List.mem_cons_of_mem _
    (List.mem_cons_of_mem _ List.mem_cons_self)))
  rw [hv, toJson_ofNat hlawful (by decide)] at hversion
  rw [hnonce] at hinstalled
  rw [hid] at hidentity
  rw [hgeneration, toJson_ofNat hlawful installed.safe] at hnumber
  refine ⟨rfl, ?_, ?_, ?_, ?_⟩
  · rw [hversion]
    decide
  · rw [hinstalled]
    rfl
  · rw [hidentity]
    rfl
  · rw [hnumber]
    exact safeInteger_ofNat installed.safe

/-- What the driver reads in a result. -/
theorem get_data {value : Value ν} {result : Value ν} (h : (Reply.data value).Worded result) :
    ((toJson numbers.toNumbers result).get "ok").isBool true = true ∧
      (toJson numbers.toNumbers result).get? "data" = some (toJson numbers.toNumbers value) := by
  obtain ⟨entries, entries', hentries, hperm, rfl⟩ := h
  obtain rfl := Value.object.inj hentries
  obtain ⟨_, _, _, _, _, _, hok, hdata, _⟩ := key_texts
  have hdistinct : ([(okKey, Value.bool true), (dataKey, value)].map fun entry =>
      textOf entry.1).Nodup := by
    show [textOf okKey, textOf dataKey].Nodup
    rw [hok, hdata]
    decide
  have hflag := @get?_perm ν numbers.toNumbers _ _ hperm hdistinct okKey _ List.mem_cons_self
  have hvalue := @get?_perm ν numbers.toNumbers _ _ hperm hdistinct dataKey _
    (List.mem_cons_of_mem _ List.mem_cons_self)
  rw [hok] at hflag
  rw [hdata] at hvalue
  refine ⟨?_, hvalue⟩
  unfold Json.get
  rw [hflag]
  rfl

theorem get_failure {name : Bytes} {result : Value ν}
    (h : (Reply.failure name : Reply ν).Worded result) :
    ((toJson numbers.toNumbers result).get "ok").isBool false = true ∧
      ((toJson numbers.toNumbers result).get "error").asStr? = some (textOf name) := by
  obtain ⟨entries, entries', hentries, hperm, rfl⟩ := h
  obtain rfl := Value.object.inj hentries
  obtain ⟨_, _, _, _, _, _, hok, _, herror⟩ := key_texts
  have hdistinct : ([(okKey, (Value.bool false : Value ν)), (errorKey, Value.string name)].map
      fun entry => textOf entry.1).Nodup := by
    show [textOf okKey, textOf errorKey].Nodup
    rw [hok, herror]
    decide
  have hflag := @get?_perm ν numbers.toNumbers _ _ hperm hdistinct okKey _ List.mem_cons_self
  have hvalue := @get?_perm ν numbers.toNumbers _ _ hperm hdistinct errorKey _
    (List.mem_cons_of_mem _ List.mem_cons_self)
  rw [hok] at hflag
  rw [herror] at hvalue
  unfold Json.get
  rw [hflag, hvalue]
  exact ⟨rfl, rfl⟩

end Frames

/-! ## The driver -/

section Driver

variable {numbers : Integers ν} {installed : Installed}

open Driver (Shared Pending DriverResult DriverErrorCode)

/-- The driver has dispatched this request, and has no result for it. -/
structure Waits (installed : Installed) (request : Request ν) (shared : Shared) (active : Pending) :
    Prop where
  nonce : shared.state.nonce = textOf installed.nonce
  pending : shared.active = some active
  id : active.record.id = textOf request.id
  generation : active.record.generation = request.generation
  method : active.record.method ≠ "presence"
  result : active.result = none
  response : active.response = true

/-- The pending request after a frame for it, with what it has accepted and
its result. -/
def answered (active : Pending) (accepted : Bool) (result : Option DriverResult) : Pending :=
  { active with
    record := { active.record with written := true, accepted := accepted }
    result := result
    synchronized := true }

/-- A handler leaves this request pending, and neither fails nor answers its
caller. -/
structure Leaves (before after : Shared) (active : Pending) : Prop where
  pending : after.active = some active
  nonce : after.state.nonce = before.state.nonce
  failure : after.state.failure = before.state.failure
  channel : after.channel = before.channel

theorem handleReply_eq {request : Request ν} {shared after : Shared} {active : Pending}
    (hwaits : Waits installed request shared active) {response : Json}
    (hheaded : Headed installed request.id response) {fresh : String}
    (h : shared.rpc fresh response = (.ok (), after)) :
    shared.handleReply fresh response = after := by
  have hrecord : Driver.mandatoryRecord shared.state.nonce (some response) = .ok response := by
    simp only [Driver.mandatoryRecord, hheaded.object, hheaded.nonce, hwaits.nonce,
      Bool.true_eq_false, ne_eq, not_true_eq_false, or_self, if_false]
  unfold Shared.handleReply
  simp only [hrecord, h]

theorem filter_pending {request : Request ν} {shared : Shared} {active : Pending}
    (hwaits : Waits installed request shared active) {response : Json}
    (hheaded : Headed installed request.id response) :
    (shared.active.filter fun active => (response.get "id").isStr active.record.id) =
      some active := by
  rw [hwaits.pending, Option.filter_some, Json.isStr, hheaded.id, hwaits.id]
  exact if_pos (by simp)

/-- The acceptance of a request of the generation. -/
theorem handle_acceptance {request : Request ν} {shared : Shared} {active : Pending}
    (hwaits : Waits installed request shared active)
    (hgeneration : request.generation = installed.generation) {response : Json}
    (hheaded : Headed installed request.id response) (hresult : response.get? "result" = none)
    (haccepted : (response.get "accepted").isBool true = true) (fresh : String) :
    Leaves shared (shared.handleReply fresh response) (answered active true none) := by
  have hrejected : Driver.Shared.rejects active response = false := by
    unfold Driver.Shared.rejects Json.get
    rw [hresult]
    rfl
  have hsame : Driver.safeInteger (response.get "generation") = some active.record.generation := by
    rw [hheaded.generation, hwaits.generation, hgeneration]
  have hrpc : shared.rpc fresh response = (.ok (), shared.keep (answered active true none)) := by
    unfold Shared.rpc
    simp only [hheaded.v, hsame, hheaded.id, filter_pending hwaits hheaded, hrejected, hresult,
      haccepted, Bool.true_eq_false, reduceCtorEq, or_self, if_false, ne_eq, not_true_eq_false,
      false_and, if_true]
    rw [answered, ← hwaits.result]
  rw [handleReply_eq hwaits hheaded hrpc]
  exact ⟨rfl, rfl, rfl, rfl⟩

theorem learn_state (state : Driver.DriverState) (method : String) (data : Json) :
    (Driver.Shared.learn state method data).nonce = state.nonce ∧
      (Driver.Shared.learn state method data).failure = state.failure := by
  unfold Driver.Shared.learn
  split_ifs <;> exact ⟨rfl, rfl⟩

theorem isBool_false {value : Json} (h : value.isBool true = true) :
    value.isBool false = false := by
  cases value with
  | bool found =>
    cases found with
    | false => cases h
    | true => rfl
  | _ => cases h

theorem isBool_true {value : Json} (h : value.isBool false = true) :
    value.isBool true = false := by
  cases value with
  | bool found =>
    cases found with
    | false => rfl
    | true => cases h
  | _ => cases h

/-- The data of a request of the generation. -/
theorem handle_data {request : Request ν} {shared : Shared} {active : Pending}
    (hwaits : Waits installed request shared active)
    (hgeneration : request.generation = installed.generation) {response result data : Json}
    (hheaded : Headed installed request.id response)
    (hresult : response.get? "result" = some result)
    (hok : (result.get "ok").isBool true = true) (hdata : result.get? "data" = some data)
    (fresh : String) :
    Leaves shared (shared.handleReply fresh response) (answered active true (some (.ok data))) := by
  have hget : response.get "result" = result := by rw [Json.get, hresult, Option.getD_some]
  have hrejected : Driver.Shared.rejects active response = false := by
    unfold Driver.Shared.rejects
    rw [hget, isBool_false hok]
    rfl
  have hsame : Driver.safeInteger (response.get "generation") = some active.record.generation := by
    rw [hheaded.generation, hwaits.generation, hgeneration]
  have hvalue : result.get "data" = data := by rw [Json.get, hdata, Option.getD_some]
  have hrpc : ∃ state, state.nonce = shared.state.nonce ∧ state.failure = shared.state.failure ∧
      shared.rpc fresh response =
        (.ok (), { shared with state := state }.keep (answered active true (some (.ok data)))) := by
    unfold Shared.rpc Driver.Shared.rpcResult Driver.Shared.rpcData
    simp only [hheaded.v, hsame, hheaded.id, filter_pending hwaits hheaded, hrejected, hresult,
      hwaits.result, hok, hdata, hvalue, hwaits.method, Bool.true_eq_false, reduceCtorEq, or_self,
      if_false, ne_eq, not_true_eq_false, false_and, if_true, Option.isSome_none,
      Option.isSome_some, Bool.false_eq_true, and_self]
    refine ⟨_, ?_, ?_, rfl⟩
    · split_ifs
      · exact (learn_state _ _ _).1
      · rfl
    · split_ifs
      · exact (learn_state _ _ _).2
      · rfl
  obtain ⟨state, hnonce, hfailure, hrpc⟩ := hrpc
  rw [handleReply_eq hwaits hheaded hrpc]
  exact ⟨rfl, hnonce, hfailure, rfl⟩

/-- The names by which Lua refuses a request. -/
def refusals : List String := ["invalid_request", "not_ready", "stale_generation"]

/-- The error of a name, for a request that was accepted or not. -/
def errorOf (id : String) (accepted : Bool) (code : DriverErrorCode) (name : String) :
    DriverResult :=
  .error
    { code := code, message := name, requestId := some id, written := true, accepted := accepted }

/-- A failure for a request: a refusal may come from another generation. -/
theorem handle_failure {request : Request ν} {shared : Shared} {active : Pending}
    (hwaits : Waits installed request shared active) {response result : Json}
    (hheaded : Headed installed request.id response)
    (hresult : response.get? "result" = some result)
    (hok : (result.get "ok").isBool false = true) {name : String}
    (herror : (result.get "error").asStr? = some name) {code : DriverErrorCode}
    (hcode : Driver.Shared.errorCode? name = some code) {accepted : Bool}
    (haccepted : name ∉ refusals ∧ request.generation = installed.generation ∧ accepted = true ∨
      name ∈ refusals ∧ active.record.accepted = false ∧ accepted = false) (fresh : String) :
    Leaves shared (shared.handleReply fresh response)
      (answered active accepted (some (errorOf active.record.id accepted code name))) := by
  have hget : response.get "result" = result := by rw [Json.get, hresult, Option.getD_some]
  have hnames : (["invalid_request", "not_ready", "stale_generation"].any
      (result.get "error").isStr) = decide (name ∈ refusals) := by
    rw [Bool.eq_iff_iff, List.any_eq_true, decide_eq_true_iff]
    constructor
    · intro hany
      obtain ⟨text, hmember, htext⟩ := hany
      rw [Json.isStr, herror, decide_eq_true_eq] at htext
      exact Option.some.inj htext ▸ hmember
    · intro hmember
      exact ⟨name, hmember, by rw [Json.isStr, herror]; exact decide_eq_true rfl⟩
  have hrejected : Driver.Shared.rejects active response =
      (!active.record.accepted && decide (name ∈ refusals)) := by
    unfold Driver.Shared.rejects
    rw [hget, hok, hnames, Bool.true_and]
  have hrpc : shared.rpc fresh response =
      (.ok (), shared.keep
        (answered active accepted (some (errorOf active.record.id accepted code name)))) := by
    rcases haccepted with ⟨hname, hgeneration, rfl⟩ | ⟨hname, hpending, rfl⟩
    · rw [decide_eq_false hname, Bool.and_false] at hrejected
      have hsame : Driver.safeInteger (response.get "generation") =
          some active.record.generation := by
        rw [hheaded.generation, hwaits.generation, hgeneration]
      unfold Shared.rpc Driver.Shared.rpcResult Driver.Shared.rpcError
      simp only [hheaded.v, hsame, hheaded.id, filter_pending hwaits hheaded, hrejected, hresult,
        hwaits.result, hok, isBool_true hok, herror, hcode, Bool.true_eq_false, reduceCtorEq,
        or_self, if_false, ne_eq, not_true_eq_false, false_and, if_true, Option.isSome_none,
        Bool.false_eq_true]
      rfl
    · rw [decide_eq_true hname, hpending] at hrejected
      unfold Shared.rpc Driver.Shared.rpcResult Driver.Shared.rpcError
      simp only [hheaded.v, hheaded.generation, hheaded.id, filter_pending hwaits hheaded,
        hrejected, hresult, hwaits.result, hok, isBool_true hok, herror, hcode, Bool.true_eq_false,
        reduceCtorEq, or_self, if_false, and_false, false_and, if_true, Option.isSome_none,
        Bool.false_eq_true, Bool.not_false, Bool.and_self]
      rw [errorOf, answered, ← hpending]
      rfl
  rw [handleReply_eq hwaits hheaded hrpc]
  exact ⟨rfl, rfl, rfl, rfl⟩

/-- The marker after the frames tells the caller the result. -/
theorem handle_done {shared : Shared} {active : Pending} {accepted : Bool} {result : DriverResult}
    (hpending : shared.active = some (answered active accepted (some result)))
    (hresponse : active.response = true) :
    (shared.nativeBarrier .done).active = none ∧
      (shared.nativeBarrier .done).channel = some result ∧
      (shared.nativeBarrier .done).state.failure = shared.state.failure := by
  unfold Shared.nativeBarrier
  simp only [hpending, answered, Bool.true_eq_false, if_false, Option.getD_some, Shared.finish,
    Pending.send, hresponse, if_true, and_self]

/-! ## The pipe -/

/-- The marker after a command. -/
def doneLine : Bytes := Driver.remoteCommandDone ++ [10]

theorem handle_doneLine (parse : Bytes → Option Json) (fresh : String) (shared : Shared) :
    shared.handleReplyLine parse fresh doneLine = shared.nativeBarrier .done := by
  have hline : Driver.trimAsciiEnd (Process.nativeMessage doneLine) = Driver.remoteCommandDone := by
    decide +kernel
  unfold Shared.handleReplyLine
  simp only [hline, if_true]

theorem trimAsciiEnd_frame (body : Bytes) :
    Driver.trimAsciiEnd (body ++ [125] ++ [10]) = body ++ [125] := by
  have hreverse : (body ++ [125] ++ [10]).reverse = 10 :: 125 :: body.reverse := by simp
  unfold Driver.trimAsciiEnd
  rw [hreverse, List.dropWhile_cons_of_pos (by decide), List.dropWhile_cons_of_neg (by decide)]
  simp

/-- A frame of `rpc` reaches `rpc`. -/
theorem handle_frame {parse : Bytes → Option Json} {entries : List (Bytes × Value ν)} {value : Json}
    (hparse : parse (render numbers.toNumbers (.object entries)) = some value) (fresh : String)
    (shared : Shared) :
    shared.handleReplyLine parse fresh
      (rpcPrefix ++ (render numbers.toNumbers (.object entries) ++ [10])) =
        shared.handleReply fresh value := by
  have hnative : ∀ line, Process.nativeMessage (rpcPrefix ++ line) = rpcPrefix ++ line :=
    fun _ => rfl
  have htrim : Driver.trimAsciiEnd
      (rpcPrefix ++ (render numbers.toNumbers (.object entries) ++ [10])) =
        rpcPrefix ++ render numbers.toNumbers (.object entries) := by
    have hends : rpcPrefix ++ render numbers.toNumbers (.object entries) =
        rpcPrefix ++ 123 :: renderEntries numbers.toNumbers true entries ++ [125] := by
      rw [render]
      simp
    rw [← List.append_assoc, hends]
    exact trimAsciiEnd_frame _
  have hstart : ∀ line, rpcPrefix ++ line ≠ Driver.remoteCommandDone ∧
      rpcPrefix ++ line ≠ Driver.luaBusy := by
    intro line
    constructor
    · intro heq
      have htake := congrArg (List.take rpcPrefix.length) heq
      rw [List.take_left] at htake
      exact absurd htake (by decide +kernel)
    · intro heq
      have htake := congrArg (List.take rpcPrefix.length) heq
      rw [List.take_left] at htake
      exact absurd htake (by decide +kernel)
  have hstrip : ∀ line, Process.stripPrefix Driver.rpcStart (rpcPrefix ++ line) = some line := by
    intro line
    have hsame : Driver.rpcStart = rpcPrefix := by decide +kernel
    unfold Process.stripPrefix
    rw [hsame, if_pos (by simp), List.drop_left]
  unfold Shared.handleReplyLine
  simp only [hnative, htrim, (hstart _).1, (hstart _).2, if_false, hstrip, hparse]

theorem wholeLine_of_oneLine {line : Bytes} (h : OneLine line) : Driver.WholeLine line := by
  obtain ⟨text, rfl, hprintable, hlength⟩ := h
  refine ⟨⟨text, 10, rfl, rfl, fun byte hbyte => ?_⟩, hlength⟩
  rw [decide_eq_false_iff_not]
  rintro rfl
  exact absurd (printable_iff.mp hprintable _ hbyte) (by decide)

theorem wholeLine_done : Driver.WholeLine doneLine := by
  refine ⟨⟨Driver.remoteCommandDone, 10, rfl, rfl, ?_⟩, by decide +kernel⟩
  have hall : (Driver.remoteCommandDone.all fun byte =>
      !decide (byte = Process.newline)) = true := by decide +kernel
  intro byte hbyte
  have hne := List.all_eq_true.mp hall byte hbyte
  simpa using hne

/-! ## One frame -/

section Frame

variable {parse : Bytes → Option Json} {request : Request ν} {shared : Shared} {active : Pending}
  {line : Bytes}

theorem within_framed {id : Option Bytes} {field : Bytes × Value ν} {depth : Nat}
    (hfield : Within (depth + 1) field.2) {entries : List (Bytes × Value ν)}
    (h : entries.Perm (headerFields numbers installed id ++ [field])) :
    Within (depth + 2) (.object entries) := by
  intro entry hentry
  have hmember := h.mem_iff.mp hentry
  simp only [headerFields, List.mem_append, List.mem_cons, List.not_mem_nil, or_false] at hmember
  rcases hmember with (rfl | rfl | rfl | rfl) | rfl
  · exact trivial
  · exact trivial
  · cases id <;> exact trivial
  · exact trivial
  · exact hfield

/-- The value of a frame, and what `rpc` reads in it. -/
theorem frame_handled (hlawful : numbers.Lawful) (hreads : Reads numbers.toNumbers parse)
    {id : Bytes} {field : Bytes × Value ν} (hfield : field.1 = acceptedKey ∨ field.1 = resultKey)
    (hwithin : Within 126 field.2) (h : Framed numbers installed (some id) field line) :
    ∃ response, Headed installed id response ∧
      response.get? (textOf field.1) = some (toJson numbers.toNumbers field.2) ∧
      (∀ name, name ∉ ["v", "nonce", "id", "generation", textOf field.1] →
        response.get? name = none) ∧
      ∀ (fresh : String) (shared : Shared),
        shared.handleReplyLine parse fresh line = shared.handleReply fresh response := by
  obtain ⟨entries, hperm, hsound, rfl⟩ := h
  have hparse := hreads _ hsound
    (@within_framed ν numbers installed (some id) field 125 hwithin _ hperm)
  have hdistinct := @distinct_header ν numbers installed id field hfield
  refine ⟨_, headed hlawful id hfield hperm, ?_, ?_,
    fun fresh shared => handle_frame hparse fresh shared⟩
  · exact get?_perm hperm hdistinct (List.mem_append_right _ (List.mem_singleton_self _))
  · intro name hname
    refine get?_perm_none hperm ?_
    obtain ⟨hv, hnonce, hid, hgeneration, _⟩ := key_texts
    show name ∉ [textOf vKey, textOf nonceKey, textOf idKey, textOf generationKey, textOf field.1]
    rw [hv, hnonce, hid, hgeneration]
    exact hname

theorem within_succ {depth : Nat} {value : Value ν} (h : Within depth value) :
    Within (depth + 1) value := by
  induction depth generalizing value with
  | zero => exact absurd h id
  | succ depth ih =>
    cases value with
    | array items => exact fun item hitem => ih (h item hitem)
    | object entries => exact fun entry hentry => ih (h entry hentry)
    | _ => exact trivial

theorem within_failure_value (name : Bytes) : Within 126 (Reply.failure name : Reply ν).value := by
  intro entry hentry
  simp only [List.mem_cons, List.not_mem_nil, or_false] at hentry
  rcases hentry with rfl | rfl <;> exact trivial

theorem within_worded {depth : Nat} {reply : Reply ν} (h : Within (depth + 1) reply.value)
    {result : Value ν} (hresult : reply.Worded result) : Within (depth + 1) result := by
  obtain ⟨entries, entries', hentries, hperm, rfl⟩ := hresult
  rw [hentries] at h
  exact fun entry hentry => h entry (hperm.mem_iff.mp hentry)

theorem acceptance_line (hlawful : numbers.Lawful) (hreads : Reads numbers.toNumbers parse)
    (hwaits : Waits installed request shared active)
    (hgeneration : request.generation = installed.generation)
    (h : Framed numbers installed (some request.id) (acceptedKey, .bool true) line)
    (fresh : String) :
    Leaves shared (shared.handleReplyLine parse fresh line) (answered active true none) := by
  have hwithin : Within 126 (Value.bool true : Value ν) := trivial
  obtain ⟨response, hheaded, hfield, hother, hline⟩ :=
    frame_handled hlawful hreads (.inl rfl) hwithin h
  obtain ⟨_, _, _, _, haccepted, _⟩ := key_texts
  rw [haccepted] at hfield hother
  rw [hline]
  refine handle_acceptance hwaits hgeneration hheaded (hother _ (by decide)) ?_ fresh
  rw [Json.get, hfield, Option.getD_some, toJson]
  rfl

theorem data_line (hlawful : numbers.Lawful) (hreads : Reads numbers.toNumbers parse)
    (hwaits : Waits installed request shared active)
    (hgeneration : request.generation = installed.generation) {value : Value ν}
    (hwithin : Within 124 value)
    (h : Results numbers installed (some request.id) (.data value) line) (fresh : String) :
    Leaves shared (shared.handleReplyLine parse fresh line)
      (answered active true (some (.ok (toJson numbers.toNumbers value)))) := by
  obtain ⟨result, hworded, hframed⟩ := h
  have hresult : Within 126 result := within_worded (within_succ (within_data hwithin)) hworded
  obtain ⟨response, hheaded, hfield, _, hline⟩ :=
    frame_handled hlawful hreads (.inr rfl) hresult hframed
  obtain ⟨_, _, _, _, _, hkey, _⟩ := key_texts
  obtain ⟨hok, hdata⟩ := @get_data ν numbers value result hworded
  rw [hkey] at hfield
  rw [hline]
  exact handle_data hwaits hgeneration hheaded hfield hok hdata fresh

theorem failure_line (hlawful : numbers.Lawful) (hreads : Reads numbers.toNumbers parse)
    (hwaits : Waits installed request shared active) {name : Bytes}
    (h : Results numbers installed (some request.id) (.failure name) line) {code : DriverErrorCode}
    (hcode : Driver.Shared.errorCode? (textOf name) = some code) {accepted : Bool}
    (haccepted : textOf name ∉ refusals ∧ request.generation = installed.generation ∧
        accepted = true ∨
      textOf name ∈ refusals ∧ active.record.accepted = false ∧ accepted = false)
    (fresh : String) :
    Leaves shared (shared.handleReplyLine parse fresh line)
      (answered active accepted (some (errorOf active.record.id accepted code (textOf name)))) := by
  obtain ⟨result, hworded, hframed⟩ := h
  have hresult : Within 126 result := within_worded (within_failure_value name) hworded
  obtain ⟨response, hheaded, hfield, _, hline⟩ :=
    frame_handled hlawful hreads (.inr rfl) hresult hframed
  obtain ⟨_, _, _, _, _, hkey, _⟩ := key_texts
  obtain ⟨hok, herror⟩ := @get_failure ν numbers name result hworded
  rw [hkey] at hfield
  rw [hline]
  exact handle_failure hwaits hheaded hfield hok herror hcode haccepted fresh

end Frame

/-! ## The whole request -/

/-- The lines that went out. -/
def deliveredLine : Event ν → Option Bytes
  | .printed line printing => if printing.delivered = true then some line else none
  | .called _ _ _ => none

/-- The codes of the driver for the failures of a method. -/
def failureCodes : List (String × DriverErrorCode) :=
  [("indeterminate", .unknown), ("rejected", .invalidRequest),
    ("stale_reference", .staleReference), ("lua_error", .lua), ("invalid_utf8", .lua),
    ("invalid_json_value", .lua), ("response_too_large", .lua)]

/-- The reply is due to the method, in the bytes that its line leaves. -/
def Due (numbers : Integers ν) (installed : Installed) (game : Game ν) (request : Request ν)
    (reply : Reply ν) : Prop :=
  ∃ limit line, Results numbers installed (some request.id) reply line ∧
    limit + line.length = maximumLineBytes + (render numbers.toNumbers reply.value).length ∧
    Answers numbers.toNumbers (game.call request.method request.arguments).1
      (game.call request.method request.arguments).2 limit reply

/-- What the caller of a request receives. -/
inductive Outcome (numbers : Integers ν) (installed : Installed) (game : Game ν)
    (request : Request ν) (id : String) : DriverResult → Prop
  | stale (hgeneration : request.generation ≠ installed.generation) :
      Outcome numbers installed game request id
        (errorOf id false .notReady "stale_generation")
  | unready (hgeneration : request.generation = installed.generation)
      (hready : ready installed game = false) :
      Outcome numbers installed game request id (errorOf id false .notReady "not_ready")
  /-- The printer raised at the acceptance, and the method was not called. -/
  | unaccepted (hgeneration : request.generation = installed.generation)
      (hready : ready installed game = true) (hprinting : (game.print 0).returned = false) :
      Outcome numbers installed game request id (errorOf id true .lua "lua_error")
  | data (value : Value ν) (hgeneration : request.generation = installed.generation)
      (hready : ready installed game = true) (hprinting : (game.print 0).returned = true)
      (hdue : Due numbers installed game request (.data value)) :
      Outcome numbers installed game request id (.ok (toJson numbers.toNumbers value))
  | failure (name : Bytes) (code : DriverErrorCode)
      (hgeneration : request.generation = installed.generation)
      (hready : ready installed game = true) (hprinting : (game.print 0).returned = true)
      (hdue : Due numbers installed game request (.failure name))
      (hcode : (textOf name, code) ∈ failureCodes) :
      Outcome numbers installed game request id (errorOf id true code (textOf name))

section Exchange

variable {parse : Bytes → Option Json} {request : Request ν} {shared : Shared} {active : Pending}
  {game : Game ν} {line : Bytes}

theorem Waits.leaves (h : Waits installed request shared active) {after : Shared}
    (hleaves : Leaves shared after (answered active true none)) :
    Waits installed request after (answered active true none) :=
  ⟨hleaves.nonce.trans h.nonce, hleaves.pending, h.id, h.generation, h.method, rfl, h.response⟩

theorem failures_known : ∀ name ∈ failures,
    (∃ entry ∈ failureCodes, entry.1 = textOf name ∧
      Driver.Shared.errorCode? (textOf name) = some entry.2) ∧ textOf name ∉ refusals := by
  decide +kernel

/-- The lines of an exchange, in front of the marker. -/
def handled (parse : Bytes → Option Json) (fresh : String) (shared : Shared) (lines : List Bytes) :
    Shared :=
  lines.foldl (Shared.handleReplyLine parse fresh) shared

theorem deliveredLine_true (line : Bytes) {printing : Printing} (h : printing.delivered = true) :
    deliveredLine (.printed line printing : Event ν) = some line := if_pos h

theorem filterMap_delivered (event : Event ν) (events : List (Event ν)) :
    (event :: events).filterMap deliveredLine =
      (deliveredLine event).toList ++ events.filterMap deliveredLine := by
  cases h : deliveredLine event with
  | none => rw [List.filterMap_cons_none h]; rfl
  | some line => rw [List.filterMap_cons_some h]; rfl

/-- Whether the acceptance went out or not, the driver goes on waiting. -/
theorem acceptance_handled (hlawful : numbers.Lawful) (hreads : Reads numbers.toNumbers parse)
    (hwaits : Waits installed request shared active)
    (hgeneration : request.generation = installed.generation)
    (h : Framed numbers installed (some request.id) (acceptedKey, .bool true) line)
    (printing : Printing) (fresh : String) :
    ∃ middle pending, Waits installed request middle pending ∧
      (∀ accepted result, answered pending accepted result = answered active accepted result) ∧
      (∀ after last, Leaves middle after last → Leaves shared after last) ∧
      handled parse fresh shared (deliveredLine (.printed line printing : Event ν)).toList =
        middle := by
  by_cases hdelivered : printing.delivered = true
  · have hleaves := acceptance_line hlawful hreads hwaits hgeneration h fresh
    refine ⟨_, _, hwaits.leaves hleaves, fun _ _ => rfl, ?_, ?_⟩
    · intro after last hlast
      exact ⟨hlast.pending, hlast.nonce.trans hleaves.nonce, hlast.failure.trans hleaves.failure,
        hlast.channel.trans hleaves.channel⟩
    · rw [deliveredLine_true line hdelivered]
      rfl
  · refine ⟨shared, active, hwaits, fun _ _ => rfl, fun _ _ hlast => hlast, ?_⟩
    have hnone : deliveredLine (.printed line printing : Event ν) = none := if_neg hdelivered
    rw [hnone]
    rfl

theorem handled_append (fresh : String) (first second : List Bytes) :
    handled parse fresh shared (first ++ second) =
      handled parse fresh (handled parse fresh shared first) second :=
  List.foldl_append

/-- The result of a line after the acceptance. -/
theorem result_handled (hlawful : numbers.Lawful) (hreads : Reads numbers.toNumbers parse)
    (hwaits : Waits installed request shared active)
    (hgeneration : request.generation = installed.generation)
    {reply : Reply ν} (h : Results numbers installed (some request.id) reply line)
    (hdata : ∀ value, reply = .data value → Within 124 value)
    (hfailure : ∀ name, reply = .failure name → name ∈ failures) (fresh : String) :
    (∃ value, reply = .data value ∧ Leaves shared (handled parse fresh shared [line])
      (answered active true (some (.ok (toJson numbers.toNumbers value))))) ∨
    ∃ name code, reply = .failure name ∧ (textOf name, code) ∈ failureCodes ∧
      Leaves shared (handled parse fresh shared [line])
        (answered active true (some (errorOf active.record.id true code (textOf name)))) := by
  cases reply with
  | data value =>
    exact .inl ⟨value, rfl, data_line hlawful hreads hwaits hgeneration (hdata value rfl) h fresh⟩
  | failure name =>
    obtain ⟨⟨⟨_, code⟩, hentry, rfl, hcode⟩, hname⟩ := failures_known name (hfailure name rfl)
    exact .inr ⟨name, code, rfl, hentry,
      failure_line hlawful hreads hwaits h hcode (.inl ⟨hname, hgeneration, rfl⟩) fresh⟩

/-- A request that the game refuses before its acceptance. -/
theorem refusal_handled (hlawful : numbers.Lawful) (hreads : Reads numbers.toNumbers parse)
    (hwaits : Waits installed request shared active) {reason : Bytes} {name : String}
    (hname : textOf reason = name) (hrefusal : name ∈ refusals)
    (hcode : Driver.Shared.errorCode? name = some .notReady)
    (h : Results numbers installed (some request.id) (.failure reason) line)
    (haccepted : active.record.accepted = false) (fresh : String) :
    Leaves shared (handled parse fresh shared [line])
      (answered active false (some (errorOf active.record.id false .notReady name))) := by
  subst hname
  exact failure_line hlawful hreads hwaits h hcode (.inr ⟨hrefusal, haccepted, rfl⟩) fresh

/-- The frames of an exchange whose last one went out leave the driver with the
result. -/
theorem exchanged_leaves (hlawful : numbers.Lawful) (hreads : Reads numbers.toNumbers parse)
    (hrequest : Requested numbers installed line request)
    {events : List (Event ν)} (hexchanged : Exchanged numbers installed game line events)
    (hlast : ∀ out printing, events.getLast? = some (.printed out printing) →
      printing.delivered = true)
    (hshallow : ∀ item depth value, (game.call request.method request.arguments).2 = .ok item →
      Unfolds (game.call request.method request.arguments).1 depth item value → Within 124 value)
    (hwaits : Waits installed request shared active) (haccepted : active.record.accepted = false)
    (fresh : String) :
    ∃ accepted result, Outcome numbers installed game request active.record.id result ∧
      Leaves shared (handled parse fresh shared (events.filterMap deliveredLine))
        (answered active accepted (some result)) := by
  cases hexchanged with
  | refused id reason final hrefused hfinal =>
    have hdelivered := hlast final (game.print 0) rfl
    rw [List.filterMap_cons_some (deliveredLine_true final hdelivered), List.filterMap_nil]
    cases hrefused with
    | invalid _ _ hno => exact absurd hrequest (hno request)
    | stale other hother hgeneration =>
      obtain rfl := hother.unique hrequest
      exact ⟨false, _, .stale hgeneration, refusal_handled hlawful hreads hwaits
        (by decide +kernel) (by decide) (by decide +kernel) hfinal haccepted fresh⟩
    | unready other hother hgeneration hready =>
      obtain rfl := hother.unique hrequest
      exact ⟨false, _, .unready hgeneration hready, refusal_handled hlawful hreads hwaits
        (by decide +kernel) (by decide) (by decide +kernel) hfinal haccepted fresh⟩
  | unaccepted other acceptance final hother hgeneration hready hacceptance hprinting hfinal =>
    obtain rfl := hother.unique hrequest
    obtain ⟨middle, pending, hwaits', hsame, hleaves, hhandled⟩ :=
      acceptance_handled hlawful hreads hwaits hgeneration hacceptance (game.print 0) fresh
    have hid : pending.record.id = active.record.id := hwaits'.id.trans hwaits.id.symm
    have hdelivered := hlast final (game.print 1) rfl
    rw [filterMap_delivered, List.filterMap_cons_some (deliveredLine_true final hdelivered),
      List.filterMap_nil, handled_append, hhandled]
    rcases result_handled hlawful hreads hwaits' hgeneration hfinal (fun _ heq => by cases heq)
      (fun name heq => by cases heq; decide) fresh with
        ⟨_, heq, _⟩ | ⟨name, code, heq, hcode, hlater⟩
    · cases heq
    · obtain rfl := Reply.failure.inj heq
      have hname : textOf luaError = "lua_error" := by decide +kernel
      have hlua : code = .lua := by
        rw [hname] at hcode
        simpa [failureCodes] using hcode
      rw [hname, hsame, hid, hlua] at hlater
      exact ⟨true, _, .unaccepted hgeneration hready hprinting, hleaves _ _ hlater⟩
  | answered other acceptance final reply limit hother hgeneration hready hacceptance hprinting
      hfinal hanswers hroom hlimit =>
    obtain rfl := hother.unique hrequest
    obtain ⟨middle, pending, hwaits', hsame, hleaves, hhandled⟩ :=
      acceptance_handled hlawful hreads hwaits hgeneration hacceptance (game.print 0) fresh
    have hid : pending.record.id = active.record.id := hwaits'.id.trans hwaits.id.symm
    have hdelivered := hlast final (game.print 2) rfl
    rw [filterMap_delivered, List.filterMap_cons_none rfl,
      List.filterMap_cons_some (deliveredLine_true final hdelivered), List.filterMap_nil,
      handled_append, hhandled]
    have hdata : ∀ value, reply = .data value → Within 124 value := by
      rintro value rfl
      obtain ⟨item, depth, hitem, hunfolds, _⟩ := hanswers
      exact hshallow item depth value hitem hunfolds
    have hfailure : ∀ name, reply = .failure name → name ∈ failures := by
      rintro name rfl
      exact hanswers.name_mem
    rcases result_handled hlawful hreads hwaits' hgeneration hfinal hdata hfailure fresh with
      ⟨value, rfl, hlater⟩ | ⟨name, code, rfl, hcode, hlater⟩
    · rw [hsame] at hlater
      exact ⟨true, _, .data value hgeneration hready hprinting ⟨limit, _, hfinal, hlimit, hanswers⟩,
        hleaves _ _ hlater⟩
    · rw [hsame, hid] at hlater
      exact ⟨true, _, .failure name code hgeneration hready hprinting
        ⟨limit, _, hfinal, hlimit, hanswers⟩ hcode, hleaves _ _ hlater⟩

/-- The events of the reply pipe after an exchange, and the marker. -/
def received (parse : Bytes → Option Json) (fresh : String) (shared : Shared)
    (reads : List Process.Read) : Shared :=
  ((Process.readOutput .reply reads .eof).filterMap Driver.emitted).foldl
    (Shared.pumpReply parse fresh) shared

theorem received_eq {lines : List Bytes} (hlines : ∀ out ∈ lines, OneLine out)
    {reads : List Process.Read} (hpipe : Process.streamOf reads = lines.flatten ++ doneLine)
    (fresh : String) :
    received parse fresh shared reads = (handled parse fresh shared lines).nativeBarrier .done := by
  have hwhole : ∀ out ∈ lines ++ [doneLine], Driver.WholeLine out := by
    intro out hout
    rcases List.mem_append.mp hout with hout | hout
    · exact wholeLine_of_oneLine (hlines out hout)
    · rw [List.mem_singleton.mp hout]
      exact wholeLine_done
  have hstream : Process.streamOf reads = (lines ++ [doneLine]).flatten := by
    rw [hpipe, List.flatten_append, List.flatten_singleton]
  unfold received handled
  rw [Driver.readOutput_lines hwhole hstream, List.foldl_map, List.foldl_append]
  exact handle_doneLine parse fresh _

end Exchange

/-- The request that was dispatched, and whose frame was written, is waited
for. -/
theorem waits_of_dispatch {before dispatched : Shared} {record : Driver.RequestRecord}
    (hdispatch : before.dispatch record = .ok dispatched) (hpresence : record.method ≠ "presence")
    (hnonce : utf8 before.state.nonce.toList = installed.nonce) {request : Request ν}
    (hid : request.id = utf8 record.id.toList)
    (hgeneration : request.generation = record.generation) :
    ∃ active, Waits installed request dispatched.markWritten active ∧
      active.record.accepted = record.accepted ∧ active.record.id = record.id ∧
      dispatched.markWritten.state.failure = before.state.failure := by
  unfold Shared.dispatch at hdispatch
  split_ifs at hdispatch
  obtain rfl := Except.ok.inj hdispatch
  refine ⟨_, ⟨?_, rfl, ?_, hgeneration.symm, hpresence, rfl, rfl⟩, rfl, rfl, rfl⟩
  · show before.state.nonce = textOf installed.nonce
    rw [← hnonce, textOf_utf8]
  · show record.id = textOf request.id
    rw [hid, textOf_utf8]

/-- A request of the driver, from its dispatch to the result of its caller.
Lua reads the frame as this request, whatever its arguments are.  When its last
frame goes out and its data nests no deeper than `serde_json` reads, the driver
ends with the outcome of the call, and the control has not failed, however the
pipe is read. -/
theorem request_delivered (hlawful : numbers.Lawful) {parse : Bytes → Option Json}
    (hreads : Reads numbers.toNumbers parse) (installed : Installed) (game : Game ν)
    {before dispatched : Shared} {record : Driver.RequestRecord} {arguments : Json}
    {entries : List (Bytes × Value ν)} (hdispatch : before.dispatch record = .ok dispatched)
    (hnew : record.accepted = false) (hpresence : record.method ≠ "presence")
    (hmethod : Driver.validMethod record.method = true)
    (hgeneration : record.generation ≤ maximumInteger)
    (hid : identifier (utf8 record.id.toList) = true)
    (hnonce : utf8 before.state.nonce.toList = installed.nonce)
    (harguments : Carried numbers.toNumbers arguments (.object entries))
    (hdepth : arguments.depth ≤ 63)
    (hlength : (requestFrame before.state.nonce record.id record.generation record.method
      arguments).length ≤ maxRequestBytes) (print : Nat) :
    ∃ handler, execute numbers installed game (requestFrame before.state.nonce record.id
        record.generation record.method arguments) print = some handler ∧ handler.print = print ∧
      ((∀ out printing, handler.events.getLast? = some (.printed out printing) →
          printing.delivered = true) →
        (∀ item depth value, (game.call (utf8 record.method.toList) entries).2 = .ok item →
          Unfolds (game.call (utf8 record.method.toList) entries).1 depth item value →
            Within 124 value) →
        ∀ reads fresh, Process.streamOf reads =
            (handler.events.filterMap deliveredLine).flatten ++ doneLine →
          ∃ result, Outcome numbers installed game
              ⟨utf8 record.id.toList, record.generation, utf8 record.method.toList, entries⟩
              record.id result ∧
            (received parse fresh dispatched.markWritten reads).active = none ∧
            (received parse fresh dispatched.markWritten reads).channel = some result ∧
            (received parse fresh dispatched.markWritten reads).state.failure =
              before.state.failure) := by
  obtain ⟨hencode, hrequested⟩ := requested_frame hlawful installed hnonce hid hgeneration hmethod
    harguments hdepth hlength (.inl rfl)
  obtain ⟨handler, hexecute, hprint, hexchanged, hlines⟩ :=
    execute_exchanged hlawful installed game hencode print
  refine ⟨handler, hexecute, hprint, fun hlast hshallow reads fresh hpipe => ?_⟩
  obtain ⟨active, hwaits, haccepted, hidentity, hfailure⟩ :=
    @waits_of_dispatch ν installed before dispatched record hdispatch hpresence hnonce
      ⟨utf8 record.id.toList, record.generation, utf8 record.method.toList, entries⟩ rfl rfl
  obtain ⟨accepted, result, houtcome, hleaves⟩ := exchanged_leaves hlawful hreads hrequested
    hexchanged hlast hshallow hwaits (haccepted.trans hnew) fresh
  have hdelivered : ∀ out ∈ handler.events.filterMap deliveredLine, OneLine out := by
    intro out hout
    obtain ⟨event, hevent, hline⟩ := List.mem_filterMap.mp hout
    refine hlines out (List.mem_filterMap.mpr ⟨event, hevent, ?_⟩)
    cases event with
    | called _ _ _ => cases hline
    | printed line printing =>
      simp only [deliveredLine] at hline
      split_ifs at hline
      exact hline
  obtain ⟨hnone, hchannel, hsame⟩ := handle_done hleaves.pending hwaits.response
  rw [hidentity] at houtcome
  rw [received_eq hdelivered hpipe fresh]
  exact ⟨result, houtcome, hnone, hchannel, hsame.trans (hleaves.failure.trans hfailure)⟩

/-- A reader of the same grammar, with the limit of `serde_json`. -/
def readJson (numbers : Numbers ν) (text : Bytes) : Option Json :=
  ((parse numbers 127 text).map fun result => toJson numbers result.1).toOption

theorem readJson_reads {numbers : Numbers ν} (hlawful : numbers.Lawful) :
    Reads numbers (readJson numbers) := by
  intro value hsound hwithin
  have hspells := spells_render hlawful hwithin hsound
  have hread : parse numbers 127 (render numbers value) = .ok (value, []) := by
    have hblank : Blank [] := rfl
    have hends : Ends [] := nofun
    have hcomplete := parse_complete hblank hspells hends
    rw [List.append_nil, List.nil_append] at hcomplete
    exact hcomplete
  unfold readJson
  rw [hread]
  rfl

def sampleShared : Shared :=
  { state := { nonce := sampleIdentity, generation := some 7, ready := true } }

def sampleRequest : Driver.RequestRecord :=
  { id := sampleIdentity, method := "save", generation := 7 }

/-- The state after the dispatch of the request. -/
def sampleDispatched : Shared :=
  { sampleShared with
    active :=
      some { record := sampleRequest, result := none, response := true, synchronized := true }
    state := { sampleShared.state with recentRequest := some sampleRequest } }

def sampleFrame : Bytes :=
  requestFrame sampleIdentity sampleIdentity 7 "save" (.object [("slot", .ofNat 3)])

/-- The table of what the method returns. -/
def savedHeap : Heap Nat :=
  fun _ => ⟨.object, [(.string (latin "saved".toList), .bool true)], by decide⟩

/-- A game that answers, and walks its tables in the order of their fields. -/
def savingGame : Game Nat where
  state := { installed := true, nonce := some sampleInstalled.nonce, generation := some 7 }
  ordinaryPrint := 1
  print _ := { delivered := true, returned := true }
  order _ entries := ⟨entries, .refl _⟩
  call _ _ := (savedHeap, .ok (.table 0))

/-- What the game prints for the request. -/
def sampleLines : List Bytes :=
  let start := latin "DST_RPC|\x7b\"v\":1,\"nonce\":\"01J00000000000000000000001\",".toList
  let header := start ++ latin "\"id\":\"01J00000000000000000000001\",\"generation\":7,".toList
  [header ++ latin "\"accepted\":true\x7d\n".toList,
    header ++ latin "\"result\":\x7b\"ok\":true,\"data\":\x7b\"saved\":true\x7d\x7d\x7d\n".toList]

/-- The pipe, where a chunk ends inside each of the lines. -/
def sampleReads : List Process.Read :=
  let pipe := sampleLines.flatten ++ doneLine
  [.bytes (pipe.take 40) (by decide +kernel) (by decide +kernel), .interrupted,
    .bytes ((pipe.drop 40).take 150) (by decide +kernel) (by decide +kernel),
    .bytes (pipe.drop 190) (by decide +kernel) (by decide +kernel)]

theorem unfolds_saved :
    Unfolds savedHeap 2 (.table 0) (.object [(latin "saved".toList, .bool true)]) :=
  .inr ⟨[(latin "saved".toList, .bool true)], _, ⟨.inl rfl, rfl⟩, rfl, .cons ⟨rfl, rfl⟩ .nil⟩

/-- The whole exchange of a request whose method returns a table. -/
theorem request_delivered_sample :
    ∃ handler, execute wholeNumbers sampleInstalled savingGame sampleFrame 2 = some handler ∧
      handler.print = 2 ∧ handler.events.filterMap deliveredLine = sampleLines ∧
      ∃ result, Outcome wholeNumbers sampleInstalled savingGame
          ⟨utf8 sampleIdentity.toList, 7, utf8 "save".toList, [(utf8 "slot".toList, .number 3)]⟩
          sampleIdentity result ∧
        result.toOption.map Json.chars = some "\x7b\"saved\":true\x7d".toList ∧
        (received (readJson wholeNumbers.toNumbers) "" sampleDispatched.markWritten
          sampleReads).active = none ∧
        (received (readJson wholeNumbers.toNumbers) "" sampleDispatched.markWritten
          sampleReads).channel = some result ∧
        (received (readJson wholeNumbers.toNumbers) "" sampleDispatched.markWritten
          sampleReads).state.failure = none := by
  obtain ⟨handler, hexecute, hprint, hreceived⟩ := @request_delivered Nat wholeNumbers
    wholeNumbers_lawful _ (readJson_reads wholeNumbers_lawful.toLawful) sampleInstalled savingGame
    sampleShared sampleDispatched sampleRequest _ _ rfl rfl (by decide) (by decide +kernel)
    (by decide) (by decide +kernel) (by decide +kernel) carried_sample (by decide)
    (by decide +kernel) 2
  have hprinted : (execute wholeNumbers sampleInstalled savingGame sampleFrame 2).map
      (fun handler => (handler.events.filterMap deliveredLine,
        (handler.events.getLast?.bind deliveredLine).isSome)) = some (sampleLines, true) := by
    decide +kernel
  have hran : execute wholeNumbers sampleInstalled savingGame sampleFrame 2 = some handler :=
    hexecute
  rw [hran, Option.map_some] at hprinted
  obtain ⟨hlines, hlast⟩ := Prod.mk.inj (Option.some.inj hprinted)
  obtain ⟨result, houtcome, hactive, hchannel, hfailure⟩ := hreceived
    (by
      intro out printing heq
      rw [heq, Option.bind_some] at hlast
      by_contra hnot
      rw [deliveredLine, if_neg hnot] at hlast
      cases hlast)
    (by
      intro item depth value hitem hunfolds
      obtain rfl := Except.ok.inj hitem
      obtain rfl := unfolds_unique (unfolds_saved.mono (Nat.le_max_left 2 depth))
        (hunfolds.mono (Nat.le_max_right 2 depth))
      intro entry hentry
      rw [List.mem_singleton.mp hentry]
      exact trivial)
    sampleReads "" (by rw [hlines]; decide +kernel)
  have htext : (received (readJson wholeNumbers.toNumbers) "" sampleDispatched.markWritten
      sampleReads).channel.map (fun result => result.toOption.map Json.chars) =
        some (some "\x7b\"saved\":true\x7d".toList) := by
    decide +kernel
  rw [hchannel, Option.map_some] at htext
  exact ⟨handler, hexecute, hprint, hlines, result, houtcome, Option.some.inj htext, hactive,
    hchannel, hfailure⟩

end Driver

end DstServer.Runtime
