import DstServer.Runtime.EncodeFault
import DstServer.Runtime.RoundTrip

/-!
# The line that answers a request

`wire.response` runs a callback and always makes one line of JSON out of what
happens: its data, or the name of a failure.

* `Answers` says which of the two replies is due, as the callback ended, as
  its data unfolds and as the way through the data stops.
* `response_render`: the line is the text of the due reply, whenever the
  longest failure fits.
* `response_answers` reads the line back.
-/

namespace DstServer.Runtime

open Lib JsonText

variable {ν : Type}

def successPrefix : Bytes := latin "\x7b\"ok\":true,\"data\":".toList

/-- The names of the failures. -/
def responseTooLarge : Bytes := latin "response_too_large".toList

def invalidUtf8 : Bytes := latin "invalid_utf8".toList

def invalidJsonValue : Bytes := latin "invalid_json_value".toList

def luaError : Bytes := latin "lua_error".toList

/-- The name of a failure of the callback. -/
def callbackFailure : Raised → Bytes
  | .indeterminate => latin "indeterminate".toList
  | .rejected => latin "rejected".toList
  | .staleReference => latin "stale_reference".toList
  | _ => luaError

/-- The name of a failure of the encoder. -/
def encodeFailure : Raised → Bytes
  | .invalidUtf8 => invalidUtf8
  | .responseTooLarge => responseTooLarge
  | _ => invalidJsonValue

/-- The line of a failure. -/
def failureLine (failure : Bytes) : Bytes :=
  latin "\x7b\"ok\":false,\"error\":\"".toList ++ (failure ++ latin "\"\x7d".toList)

/-- `wire.response`, in the heap that the callback leaves. -/
def response (numbers : Numbers ν) (heap : Heap ν) (callback : Except Raised (Item ν))
    (limit : Nat) : Except Raised Bytes :=
  let payload :=
    match callback with
    | .ok data =>
      match encode numbers heap data (limit - successPrefix.length - 1) with
      | .ok text =>
        let payload := successPrefix ++ (text ++ [125])
        if limit < payload.length then failureLine responseTooLarge else payload
      | .error failure => failureLine (encodeFailure failure)
    | .error failure => failureLine (callbackFailure failure)
  if limit < payload.length then .error .responseTooLarge else .ok payload

/-! ## The reply that is due -/

/-- The value that a line stands for. -/
inductive Reply (ν : Type) where
  | data (value : Value ν)
  | failure (name : Bytes)

def okKey : Bytes := latin "ok".toList

def dataKey : Bytes := latin "data".toList

def errorKey : Bytes := latin "error".toList

def Reply.value : Reply ν → Value ν
  | .data value => .object [(okKey, .bool true), (dataKey, value)]
  | .failure name => .object [(okKey, .bool false), (errorKey, .string name)]

/-- The name for an error of the callback. -/
inductive Told : Raised → Bytes → Prop where
  | indeterminate : Told .indeterminate (latin "indeterminate".toList)
  | rejected : Told .rejected (latin "rejected".toList)
  | staleReference : Told .staleReference (latin "stale_reference".toList)
  | other (raised : Raised) (h : raised ∉ [.indeterminate, .rejected, .staleReference]) :
    Told raised (latin "lua_error".toList)

/-- The name for a defect of the data. -/
def Defect.name : Defect → Bytes
  | .notUtf8 => latin "invalid_utf8".toList
  | .noValue => latin "invalid_json_value".toList
  | .tooLarge => latin "response_too_large".toList

/-- The bytes that a line leaves to the text of the data. -/
def dataLimit (limit : Nat) : Nat := limit - successPrefix.length - 1

/-- The reply is due to the callback: its data when it unfolds into a sound
value and the line fits, and otherwise the name of what went wrong, which is
the error of the callback or the defect at which the way through its data
stops. -/
def Answers (numbers : Numbers ν) (heap : Heap ν) (callback : Except Raised (Item ν))
    (limit : Nat) : Reply ν → Prop
  | .data value =>
    ∃ item depth, callback = .ok item ∧ Unfolds heap depth item value ∧ Sound numbers value ∧
      (render numbers value).length + successPrefix.length + 1 ≤ limit
  | .failure name =>
    (∃ raised, callback = .error raised ∧ Told raised name) ∨
      ∃ item defect, callback = .ok item ∧
        Stops (dataLimit limit) (walk numbers heap (dataLimit limit + 1) [] item) defect ∧
        name = defect.name

variable {numbers : Numbers ν} {heap : Heap ν} {callback : Except Raised (Item ν)} {limit : Nat}

theorem length_successPrefix : successPrefix.length = 18 := rfl

/-- The names of all failures. -/
def failures : List Bytes :=
  [latin "indeterminate".toList, latin "rejected".toList, latin "stale_reference".toList, luaError,
    invalidUtf8, responseTooLarge, invalidJsonValue]

theorem told_callbackFailure (raised : Raised) : Told raised (callbackFailure raised) := by
  cases raised with
  | indeterminate => exact .indeterminate
  | rejected => exact .rejected
  | staleReference => exact .staleReference
  | _ => exact .other _ (by decide)

theorem Told.unique {raised : Raised} {name : Bytes} (h : Told raised name) :
    name = callbackFailure raised := by
  cases h with
  | other raised hraised => cases raised <;> first | rfl | exact absurd hraised (by decide)
  | _ => rfl

theorem Told.mem {raised : Raised} {name : Bytes} (h : Told raised name) : name ∈ failures := by
  cases h <;> decide

theorem encodeFailure_raised (defect : Defect) : encodeFailure defect.raised = defect.name := by
  cases defect <;> rfl

theorem Defect.name_mem (defect : Defect) : defect.name ∈ failures := by
  cases defect <;> decide

/-- The names need no escapes. -/
theorem failures_plain : ∀ name ∈ failures,
    name.flatMap written = name ∧ name.length ≤ 18 ∧ utf8Checked 0 name = true := by
  decide +kernel

/-- The text of a failure whose name needs no escapes. -/
theorem failureLine_eq {name : Bytes} (h : name.flatMap written = name) :
    render numbers (Reply.failure name : Reply ν).value = failureLine name := by
  have hname : quoted name = 34 :: name ++ [34] := by rw [quoted, h]
  have hok : quoted okKey = latin "\"ok\"".toList := by decide +kernel
  have herror : quoted errorKey = latin "\"error\"".toList := by decide +kernel
  simp only [Reply.value, render, renderEntries, separator, hname, hok, herror, failureLine, latin,
    List.cons_append, List.nil_append, List.append_assoc, if_true,
    Bool.false_eq_true, if_false, List.append_nil]
  rfl

theorem successLine_eq (value : Value ν) :
    render numbers (Reply.data value).value =
      successPrefix ++ (render numbers value ++ [125]) := by
  have hok : quoted okKey = latin "\"ok\"".toList := by decide +kernel
  have hdata : quoted dataKey = latin "\"data\"".toList := by decide +kernel
  simp only [Reply.value, render, renderEntries, separator, hok, hdata, successPrefix, latin,
    List.cons_append, List.nil_append, if_true,
    Bool.false_eq_true, if_false, List.append_nil]
  rfl

theorem length_failureLine {name : Bytes} (h : name ∈ failures) :
    (failureLine name).length ≤ 41 := by
  have hname := (failures_plain name h).2.1
  have hstart : (latin "\x7b\"ok\":false,\"error\":\"".toList).length = 21 := rfl
  have hend : (latin "\"\x7d".toList).length = 2 := rfl
  unfold failureLine
  rw [List.length_append, List.length_append, hstart, hend]
  omega

theorem sound_failure {name : Bytes} (h : name ∈ failures) :
    Sound numbers (Reply.failure name : Reply ν).value :=
  ⟨by show [okKey, errorKey].Nodup; decide, by decide +kernel, trivial, by decide +kernel,
    (failures_plain name h).2.2, trivial⟩

theorem sound_data {value : Value ν} (h : Sound numbers value) :
    Sound numbers (Reply.data value).value :=
  ⟨by show [okKey, dataKey].Nodup; decide, by decide +kernel, trivial, by decide +kernel, h,
    trivial⟩

theorem length_data (value : Value ν) :
    (render numbers (Reply.data value).value).length =
      (render numbers value).length + successPrefix.length + 1 := by
  rw [successLine_eq, List.length_append, List.length_append, List.length_singleton]
  omega

theorem Answers.name_mem {name : Bytes} (h : Answers numbers heap callback limit (.failure name)) :
    name ∈ failures := by
  rcases h with ⟨raised, _, htold⟩ | ⟨item, defect, _, _, rfl⟩
  · exact htold.mem
  · exact defect.name_mem

/-- Data that is due is written. -/
theorem encode_data {depth : Nat} {item : Item ν} {value : Value ν}
    (h : Unfolds heap depth item value) (hsound : Sound numbers value)
    (hfits : (render numbers value).length + successPrefix.length + 1 ≤ limit) :
    encode numbers heap item (dataLimit limit) = .ok (render numbers value) := by
  rw [encode_eq h hsound, if_neg]
  unfold dataLimit
  omega

/-- What the callback leaves is a failure that `response` names, or the data
with its text. -/
theorem response_cases (hlimit : 41 ≤ limit) :
    (∃ name, Answers numbers heap callback limit (.failure name) ∧
      response numbers heap callback limit = .ok (failureLine name)) ∨
    ∃ value, Answers numbers heap callback limit (.data value) ∧
      response numbers heap callback limit =
        .ok (successPrefix ++ (render numbers value ++ [125])) := by
  have hfailure : ∀ name ∈ failures, ¬ limit < (failureLine name).length := by
    intro name hname
    have := length_failureLine hname
    omega
  cases callback with
  | error raised =>
    have htold := told_callbackFailure raised
    exact .inl ⟨_, .inl ⟨raised, rfl, htold⟩, if_neg (hfailure _ htold.mem)⟩
  | ok item =>
    cases hencode : encode numbers heap item (limit - successPrefix.length - 1) with
    | ok text =>
      right
      obtain ⟨depth, value, hunfolds, hsound, rfl, hlength⟩ := encode_eq_ok.mp hencode
      have hprefix := length_successPrefix
      refine ⟨value, ⟨item, depth, rfl, hunfolds, hsound, by omega⟩, ?_⟩
      have hfits : ¬ limit < (successPrefix ++ (render numbers value ++ [125])).length := by
        simp only [List.length_append, List.length_singleton]
        omega
      simp only [response, hencode, if_neg hfits]
    | error raised =>
      left
      obtain ⟨defect, hstops, rfl⟩ := encode_eq_error.mp hencode
      refine ⟨defect.name, .inr ⟨item, defect, rfl, hstops, rfl⟩, ?_⟩
      simp only [response, hencode, encodeFailure_raised]
      exact if_neg (hfailure _ defect.name_mem)

/-- The line is the text of a reply that is due. -/
theorem response_render (hlimit : 41 ≤ limit) :
    ∃ reply : Reply ν, Answers numbers heap callback limit reply ∧ Sound numbers reply.value ∧
      response numbers heap callback limit = .ok (render numbers reply.value) ∧
      (render numbers reply.value).length ≤ limit := by
  rcases @response_cases ν numbers heap callback limit hlimit with
    ⟨name, hanswers, hline⟩ | ⟨value, hanswers, hline⟩
  · have hname := hanswers.name_mem
    have hrender := @failureLine_eq _ numbers _ (failures_plain name hname).1
    refine ⟨.failure name, hanswers, sound_failure hname, by rw [hline, hrender], ?_⟩
    rw [hrender]
    exact (length_failureLine hname).trans hlimit
  · have hdue := hanswers
    obtain ⟨_, _, _, _, hsound, hfits⟩ := hdue
    refine ⟨.data value, hanswers, sound_data hsound, by rw [hline, successLine_eq], ?_⟩
    rw [length_data]
    exact hfits

theorem within_failure (name : Bytes) : Within 2 (Reply.failure name : Reply ν).value := by
  intro entry hentry
  simp only [List.mem_cons, List.not_mem_nil, or_false] at hentry
  rcases hentry with rfl | rfl <;> exact trivial

theorem within_data {depth : Nat} {value : Value ν} (h : Within depth value) :
    Within (depth + 1) (Reply.data value).value := by
  have hdepth : ∃ n, depth = n + 1 := by
    cases depth with
    | zero => exact absurd h id
    | succ n => exact ⟨n, rfl⟩
  obtain ⟨n, rfl⟩ := hdepth
  intro entry hentry
  simp only [List.mem_cons, List.not_mem_nil, or_false] at hentry
  rcases hentry with rfl | rfl
  · exact trivial
  · exact h

theorem Answers.within {reply : Reply ν} (h : Answers numbers heap callback limit reply) :
    ∃ depth, Within depth reply.value := by
  cases reply with
  | failure name => exact ⟨2, within_failure name⟩
  | data value =>
    obtain ⟨_, depth, _, hunfolds, _⟩ := h
    exact ⟨depth + 1, within_data hunfolds.within⟩

/-- One reply is due. -/
theorem Answers.unique {reply other : Reply ν} (h : Answers numbers heap callback limit reply)
    (h' : Answers numbers heap callback limit other) : other = reply := by
  have hdata : ∀ {name value}, Answers numbers heap callback limit (.failure name) →
      ¬ Answers numbers heap callback limit (.data value) := by
    intro name value hname hvalue
    obtain ⟨item, depth, rfl, hunfolds, hsound, hfits⟩ := hvalue
    rcases hname with ⟨raised, hraised, _⟩ | ⟨_, defect, hitem, hstops, _⟩
    · cases hraised
    · obtain rfl := Except.ok.inj hitem
      have herror := encode_eq_error.mpr ⟨defect, hstops, rfl⟩
      rw [encode_data hunfolds hsound hfits] at herror
      cases herror
  cases reply with
  | data value =>
    cases other with
    | data value' =>
      obtain ⟨item, depth, rfl, hunfolds, _⟩ := h
      obtain ⟨_, depth', hitem, hunfolds', _⟩ := h'
      obtain rfl := Except.ok.inj hitem
      rw [unfolds_unique (hunfolds.mono (Nat.le_max_left depth depth'))
        (hunfolds'.mono (Nat.le_max_right depth depth'))]
    | failure name => exact absurd h (hdata h')
  | failure name =>
    cases other with
    | data value => exact absurd h' (hdata h)
    | failure name' =>
      rcases h with ⟨raised, rfl, htold⟩ | ⟨item, defect, rfl, hstops, rfl⟩
      · rcases h' with ⟨_, hraised, htold'⟩ | ⟨_, _, hitem, _⟩
        · obtain rfl := Except.error.inj hraised
          rw [htold.unique, htold'.unique]
        · cases hitem
      · rcases h' with ⟨_, hraised, _⟩ | ⟨_, defect', hitem, hstops', rfl⟩
        · cases hraised
        · obtain rfl := Except.ok.inj hitem
          rw [hstops.unique hstops']

/-- Where the longest failure fits, every callback is answered by one line
within the limit, and what is read back from it is the one reply that is due. -/
theorem response_answers (hlawful : numbers.Lawful) (heap : Heap ν)
    (callback : Except Raised (Item ν)) (hlimit : 41 ≤ limit) :
    ∃ reply line, response numbers heap callback limit = .ok line ∧ line.length ≤ limit ∧
      Printable line ∧ Answers numbers heap callback limit reply ∧
      (∀ value, (∃ depth, Document numbers.reads depth line value) ↔ value = reply.value) ∧
      ∀ other, Answers numbers heap callback limit other → other = reply := by
  obtain ⟨reply, hanswers, hsound, hline, hlength⟩ := response_render hlimit
  obtain ⟨depth, hwithin⟩ := hanswers.within
  have hdocument := document_of_spells (spells_render hlawful hwithin hsound)
  refine ⟨reply, _, hline, hlength, printable_render hlawful _ hsound, hanswers, fun value => ?_,
    fun _ => hanswers.unique⟩
  constructor
  · intro hread
    obtain ⟨depth', hvalue⟩ := hread
    exact document_unique hvalue hdocument
  · rintro rfl
    exact ⟨depth, hdocument⟩

/-- The data of a shared table, and a string that is not UTF-8. -/
theorem response_answers_shared :
    (response digitNumbers sharedHeap (.ok (.table 0)) 64 =
        .ok (latin "\x7b\"ok\":true,\"data\":\x7b\"a\":[7,true],\"b\":[7,true]\x7d\x7d".toList) ∧
      ∃ reply line, response digitNumbers sharedHeap (.ok (.table 0)) 64 = .ok line ∧
        line.length ≤ 64 ∧ Printable line ∧
        Answers digitNumbers sharedHeap (.ok (.table 0)) 64 reply ∧
        (∀ value, (∃ depth, Document digitNumbers.reads depth line value) ↔
          value = reply.value) ∧
        ∀ other, Answers digitNumbers sharedHeap (.ok (.table 0)) 64 other → other = reply) ∧
    response digitNumbers sharedHeap (.ok (.string [97, 255])) 41 =
        .ok (latin "\x7b\"ok\":false,\"error\":\"invalid_utf8\"\x7d".toList) ∧
      ∃ reply line, response digitNumbers sharedHeap (.ok (.string [97, 255])) 41 = .ok line ∧
        line.length ≤ 41 ∧ Printable line ∧
        Answers digitNumbers sharedHeap (.ok (.string [97, 255])) 41 reply ∧
        (∀ value, (∃ depth, Document digitNumbers.reads depth line value) ↔
          value = reply.value) ∧
        ∀ other, Answers digitNumbers sharedHeap (.ok (.string [97, 255])) 41 other →
          other = reply :=
  ⟨⟨by decide +kernel, response_answers digitNumbers_lawful sharedHeap _ (by decide)⟩,
    by decide +kernel, response_answers digitNumbers_lawful sharedHeap _ (by decide)⟩

end DstServer.Runtime
