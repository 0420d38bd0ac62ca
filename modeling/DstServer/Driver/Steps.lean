import DstServer.Driver.System

/-!
# What each change of the control state can do

Most changes tell the pending request at most an error and keep it: they
are `Kept`.  The others are the dispatch of a request, the expiry, a reply,
a marker and the end of the output; each has one lemma that says everything
a later proof needs.
-/

namespace DstServer.Driver

open Lib

/-! ## Invariants of the state -/

/-- The two records are of one request. -/
structure RequestRecord.Same (before after : RequestRecord) : Prop where
  id : after.id = before.id
  method : after.method = before.method
  generation : after.generation = before.generation

theorem RequestRecord.Same.refl (record : RequestRecord) : record.Same record := ⟨rfl, rfl, rfl⟩

theorem RequestRecord.Same.trans {a b c : RequestRecord} (h : a.Same b) (h' : b.Same c) :
    a.Same c :=
  ⟨h'.id.trans h.id, h'.method.trans h.method, h'.generation.trans h.generation⟩

namespace Pending

variable {active : Pending} {result : DriverResult}

theorem deliver_same : active.record.Same (active.deliver result).record := by
  cases result with
  | ok data => exact ⟨rfl, rfl, rfl⟩
  | error error => exact ⟨rfl, rfl, rfl⟩

/-- A result that the native side gave the pending request, or an error of
the driver. -/
def Gives (active : Pending) (result : DriverResult) : Prop :=
  active.result = some result ∨ ∃ error, result = .error error ∧ error.code ≠ .busy

theorem gives_getD {code : DriverErrorCode} (hcode : code ≠ .busy)
    (message : String) :
    active.Gives (active.result.getD (.error (active.error code message))) := by
  cases h : active.result with
  | none => exact .inr ⟨_, rfl, hcode⟩
  | some result => exact .inl h

end Pending

namespace Shared

/-- No request is dispatched any more. -/
def Closed (shared : Shared) : Prop :=
  shared.state.running = false ∨ shared.stopRequested = true

/-- A shard that is ready runs, and a stop that was requested is under
way. -/
structure Sound (shared : Shared) : Prop where
  running : shared.state.ready = true → shared.state.running = true
  stopping : shared.stopRequested = true → shared.state.stopping = true

/-- A change of the state that leaves its soundness and does not reopen
it. -/
structure Settles (before after : Shared) : Prop where
  closed : before.Closed → after.Closed
  stopRequested : before.stopRequested = true → after.stopRequested = true
  sound : before.Sound → after.Sound

/-- The pending request before and after a change: it is the same one, and as
long as it waits its channel is untouched. -/
inductive SameActive (before after : Shared) : Prop
  | none (hbefore : before.active = none) (hafter : after.active = none)
  | some (old new : Pending) (hbefore : before.active = some old) (hafter : after.active = some new)
      (hrecord : old.record.Same new.record)
      (hresponse : new.response = true → old.response = true ∧ after.channel = before.channel)

/-- The pending request before and after a change that is no reply to it. -/
inductive KeptActive (before after : Shared) : Prop
  | none (hbefore : before.active = none) (hafter : after.active = none)
  | some (old new : Pending) (hbefore : before.active = some old) (hafter : after.active = some new)
      (hrecord : old.record.Same new.record) (hsynchronized : new.synchronized = old.synchronized)
      (hresult : new.result = old.result)
      (hresponse : new.response = true → old.response = true ∧ after.channel = before.channel)

/-- A change that is no reply to the pending request, and tells it at most
that it failed. -/
structure Kept (before after : Shared) : Prop where
  settles : before.Settles after
  active : before.KeptActive after
  channel : after.channel = before.channel ∨
    ∃ error, after.channel = some (.error error) ∧ error.code ≠ .busy

variable {a b c shared : Shared}

theorem Settles.refl (shared : Shared) : shared.Settles shared := ⟨id, id, id⟩

theorem Settles.trans (h : a.Settles b) (h' : b.Settles c) : a.Settles c :=
  ⟨h'.closed ∘ h.closed, h'.stopRequested ∘ h.stopRequested, h'.sound ∘ h.sound⟩

theorem KeptActive.of_eq (hactive : b.active = a.active) (hchannel : b.channel = a.channel) :
    a.KeptActive b := by
  cases h : a.active with
  | none => exact .none h (hactive.trans h)
  | some active =>
    exact .some active active h (hactive.trans h) (.refl _) rfl rfl fun hlive => ⟨hlive, hchannel⟩

theorem KeptActive.same (h : a.KeptActive b) : a.SameActive b := by
  cases h with
  | none hbefore hafter => exact .none hbefore hafter
  | some old new hbefore hafter hrecord _ _ hresponse =>
    exact .some old new hbefore hafter hrecord hresponse

theorem KeptActive.trans (h : a.KeptActive b) (h' : b.KeptActive c) : a.KeptActive c := by
  cases h with
  | none ha hb =>
    cases h' with
    | none _ hc => exact .none ha hc
    | some _ _ hb' => rw [hb] at hb'; cases hb'
  | some old middle ha hb hrecord hsynchronized hresult hresponse =>
    cases h' with
    | none hb' => rw [hb] at hb'; cases hb'
    | some middle' new hb' hc hrecord' hsynchronized' hresult' hresponse' =>
      rw [hb] at hb'
      cases hb'
      refine .some old new ha hc (hrecord.trans hrecord') (hsynchronized'.trans hsynchronized)
        (hresult'.trans hresult) fun hlive => ?_
      obtain ⟨hmiddle, hchannel'⟩ := hresponse' hlive
      obtain ⟨hold, hchannel⟩ := hresponse hmiddle
      exact ⟨hold, hchannel'.trans hchannel⟩

theorem Kept.of_eq (hsettles : a.Settles b) (hactive : b.active = a.active)
    (hchannel : b.channel = a.channel) : a.Kept b :=
  ⟨hsettles, .of_eq hactive hchannel, .inl hchannel⟩

theorem Kept.refl (shared : Shared) : shared.Kept shared := .of_eq (.refl _) rfl rfl

theorem Kept.trans (h : a.Kept b) (h' : b.Kept c) : a.Kept c := by
  refine ⟨h.settles.trans h'.settles, h.active.trans h'.active, ?_⟩
  rcases h'.channel with hchannel | htold
  · rw [hchannel]
    exact h.channel
  · exact .inr htold

theorem Settles.deliver (active : Pending) (result : DriverResult) :
    shared.Settles (shared.deliver active result) :=
  ⟨id, id, fun h => ⟨h.running, h.stopping⟩⟩

/-- An error that is told to the pending request. -/
theorem Kept.tell {active : Pending} (hactive : shared.active = some active)
    {code : DriverErrorCode} (hcode : code ≠ .busy) (message : String) :
    shared.Kept (shared.deliver active (.error (active.error code message))) := by
  have hchannel : (shared.deliver active (.error (active.error code message))).channel =
      if active.response then some (.error (active.error code message)) else shared.channel := rfl
  refine ⟨.deliver _ _, .some active _ hactive rfl Pending.deliver_same rfl rfl ?_, ?_⟩
  · intro hlive
    cases hlive
  · rw [hchannel]
    split
    · exact .inr ⟨_, rfl, hcode⟩
    · exact .inl rfl

/-- The state was computed anew by `recompute_ready`. -/
theorem recomputeReady_running {state : DriverState}
    (h : (recomputeReady state).ready = true) : state.running = true := by
  simp only [recomputeReady, Bool.and_eq_true] at h
  exact h.1.1.1.1

/-- A change of fields that no request depends on, before `recompute_ready`. -/
theorem Kept.recompute {state : DriverState} (hrunning : state.running = shared.state.running)
    (hstopping : state.stopping = shared.state.stopping) :
    shared.Kept { shared with state := recomputeReady state } := by
  refine .of_eq ⟨?_, id, fun h => ⟨?_, ?_⟩⟩ rfl rfl
  · intro h
    rcases h with h | h
    · exact .inl (hrunning.trans h)
    · exact .inr h
  · exact recomputeReady_running
  · intro hstop
    exact hstopping.trans (h.stopping hstop)

/-! ## The changes that are kept -/

theorem fail_kept (message : String) : shared.Kept (shared.fail message) := by
  unfold fail
  have hnotReady : shared.Kept { shared with state :=
      { shared.state with
        failure := some (shared.state.failure.getD message)
        ready := false } } := by
    refine .of_eq ⟨id, id, fun h => ⟨?_, h.stopping⟩⟩ rfl rfl
    intro hready
    cases hready
  simp only
  split
  · rename_i active hactive
    refine hnotReady.trans (.tell ?_ ?_ _)
    · exact hactive
    · decide
  · exact hnotReady

theorem advanceGeneration_kept {generation : Nat} {after : Shared}
    (h : shared.advanceGeneration generation = some after) : shared.Kept after := by
  unfold advanceGeneration at h
  split at h
  · cases h
  split at h
  · cases h
    exact .refl _
  · simp only at h
    generalize hadvanced : ({ shared with observation := _, state := _ } : Shared) = advanced at h
    have hkept : shared.Kept advanced := by
      subst hadvanced
      refine .of_eq ⟨?_, id, fun h => ⟨?_, id⟩⟩ rfl rfl
      · intro h
        rcases h with h | h
        · left
          show DriverState.running (if _ then _ else _) = false
          split
          · exact h
          · exact h
        · exact .inr h
      · intro hready
        cases hready
    split at h
    · rename_i active hactive
      split at h
      · cases h
        refine hkept.trans (.tell ?_ ?_ _)
        · rw [← hadvanced]
          exact hactive
        · decide
      · cases h
        exact hkept
    · cases h
      exact hkept

theorem bootstrap_kept {record : Json} {after : Shared}
    (h : shared.bootstrap record = .ok after) : shared.Kept after := by
  unfold bootstrap at h
  split at h
  · split at h
    · split at h
      · cases h
        exact .refl _
      · cases h
    · cases h
  · simp only at h
    split at h
    · cases h
    · split at h
      · cases h
      · split at h
        · cases h
          exact .refl _
        · rename_i advanced hadvance
          cases h
          exact (advanceGeneration_kept hadvance).trans (.recompute rfl rfl)

theorem control_kept {record : Json} {after : Shared}
    (h : shared.control record = .ok after) : shared.Kept after := by
  unfold control at h
  split at h
  · cases h
  · split at h
    · cases h
    · split at h
      · cases h
        exact .refl _
      · rename_i advanced hadvance
        cases h
        exact (advanceGeneration_kept hadvance).trans
          (.of_eq ⟨id, id, fun h => ⟨h.running, h.stopping⟩⟩ rfl rfl)

theorem lifecycle_kept {text : String} {after : Shared}
    (h : shared.lifecycle text = .ok after) : shared.Kept after := by
  unfold lifecycle at h
  split at h
  · cases h
    exact .refl _
  split at h
  · cases h
    exact .recompute rfl rfl
  split at h
  · simp only at h
    split at h
    · cases h
    · cases h
      exact .recompute rfl rfl
  split at h
  · cases h
    exact .of_eq ⟨id, id, fun h => ⟨h.running, h.stopping⟩⟩ rfl rfl
  split at h
  · cases h
    refine .of_eq ⟨id, id, fun _ => ⟨?_, fun _ => rfl⟩⟩ rfl rfl
    intro hready
    cases hready
  · cases h
    exact .refl _

theorem markWritten_kept : shared.Kept shared.markWritten := by
  unfold markWritten
  split
  · rename_i active hactive
    exact ⟨⟨id, id, fun h => ⟨h.running, h.stopping⟩⟩,
      .some active _ hactive rfl ⟨rfl, rfl, rfl⟩ rfl rfl fun hlive => ⟨hlive, rfl⟩, .inl rfl⟩
  · exact .refl _

theorem requestStop_kept : shared.Kept shared.requestStop := by
  refine .of_eq ⟨fun _ => .inr rfl, fun _ => rfl, fun _ => ⟨?_, fun _ => rfl⟩⟩ rfl rfl
  intro hready
  cases hready

theorem unmatched_kept : shared.Kept shared.unmatched :=
  .of_eq ⟨id, id, fun h => ⟨h.running, h.stopping⟩⟩ rfl rfl

theorem handleRecord_kept {handler : Shared → Json → Except String Shared}
    (hhandler : ∀ record after, handler shared record = .ok after → shared.Kept after)
    (value : Option Json) : shared.Kept (shared.handleRecord handler value) := by
  unfold handleRecord
  split
  · exact fail_kept _
  · split
    · rename_i hrecord
      exact hhandler _ _ hrecord
    · exact fail_kept _

theorem handleLifecycle_kept (text : String) : shared.Kept (shared.handleLifecycle text) := by
  unfold handleLifecycle
  split
  · rename_i hrecord
    exact lifecycle_kept hrecord
  · exact fail_kept _

/-! ## Requests -/

theorem dispatch_cases {record : RequestRecord} {after : Shared}
    (h : shared.dispatch record = .ok after) :
    shared.state.ready = true ∧ shared.state.stopping = false ∧ shared.Settles after ∧
      after.channel = none ∧ after.active = some
        { record := record, result := none, response := true
          synchronized := shared.active.isNone } := by
  unfold dispatch at h
  split at h
  · cases h
  rename_i hready
  split at h
  · cases h
  simp only [not_or, Bool.not_eq_false, Bool.not_eq_true, not_not] at hready
  cases h
  exact ⟨hready.1, hready.2.1, ⟨id, id, fun h => ⟨h.running, h.stopping⟩⟩, rfl, rfl⟩

/-- The state is ready for a request, so it is not closed. -/
theorem not_closed (hsound : shared.Sound) (hready : shared.state.ready = true)
    (hstopping : shared.state.stopping = false) : ¬shared.Closed := by
  rintro (hrunning | hstop)
  · rw [hsound.running hready] at hrunning
    cases hrunning
  · rw [hsound.stopping hstop] at hstopping
    cases hstopping

/-- An expiry returns what the pending request was told, and keeps it. -/
inductive Expires (before after : Shared) (id : String) (result : DriverResult) : Prop
  | gone (hactive : ∀ active, before.active = some active → active.record.id ≠ id)
      (hafter : after = before) (hresult : ∀ data, result ≠ .ok data)
  | told (active : Pending) (hactive : before.active = some active) (hid : active.record.id = id)
      (hafter : after = before.deliver active result)
      (hresult : ∀ data, result = .ok data → active.result = some (.ok data))

theorem expire_cases (id message : String) :
    shared.Expires (shared.expire id message).2 id (shared.expire id message).1 := by
  unfold expire
  split
  · rename_i hactive
    refine .gone ?_ rfl (fun _ h => nomatch h)
    intro active hsome hid
    rw [hsome, Option.filter_some, if_pos (decide_eq_true hid)] at hactive
    cases hactive
  · rename_i active hactive
    rw [Option.filter_eq_some_iff] at hactive
    refine .told active hactive.1 (of_decide_eq_true hactive.2) rfl ?_
    intro data hdata
    cases hresult : active.result with
    | none =>
      rw [hresult] at hdata
      cases hdata
    | some result =>
      rw [hresult] at hdata
      exact congrArg some hdata

/-- What the channel holds after the pending request was told a result and
dropped. -/
structure Told (before after : Shared) (active : Pending) (result : DriverResult) : Prop where
  settles : before.Settles after
  pending : before.active = some active
  gone : after.active = none
  channel : after.channel = active.send result before.channel

theorem ended_closed (state : DriverState) (report : Except String ExitReport) :
    (ended state report).running = false ∧ (ended state report).ready = false ∧
      (ended state report).stopping = state.stopping := by
  cases report with
  | ok report => exact ⟨rfl, rfl, rfl⟩
  | error error => exact ⟨rfl, rfl, rfl⟩

theorem settles_ended (report : Except String ExitReport) :
    shared.Settles { shared with state := ended shared.state report } := by
  obtain ⟨hrunning, hready, hstopping⟩ := ended_closed shared.state report
  refine ⟨fun _ => .inl hrunning, id, fun h => ⟨?_, ?_⟩⟩
  · intro hstays
    rw [hready] at hstays
    cases hstays
  · intro hstop
    exact hstopping.trans (h.stopping hstop)

theorem Settles.finish (active : Pending) (result : DriverResult) :
    shared.Settles (shared.finish active result) :=
  ⟨id, id, fun h => ⟨h.running, h.stopping⟩⟩

theorem exited_cases (report : Except String ExitReport) :
    (shared.exited report).Closed ∧ ((shared.active = none ∧ (shared.exited report).active = none ∧
      shared.Settles (shared.exited report) ∧ (shared.exited report).channel = shared.channel) ∨
      ∃ active result, shared.Told (shared.exited report) active result ∧
        active.Gives result) := by
  have hrunning := (ended_closed shared.state report).1
  unfold exited
  simp only
  split
  · rename_i active hactive
    refine ⟨.inl hrunning, .inr ⟨active, _, ⟨?_, hactive, rfl, rfl⟩, Pending.gives_getD ?_ _⟩⟩
    · exact (settles_ended report).trans (.finish _ _)
    · decide
  · rename_i hactive
    exact ⟨.inl hrunning, .inl ⟨hactive, hactive, settles_ended report, rfl⟩⟩

/-! ## Replies -/

/-- The data that a caller gets for the data of a reply: the same, or with
the epoch of a presence observation replaced by its public identity. -/
def Carries (method : String) (emitted data : Json) : Prop :=
  data = emitted ∨ method = "presence" ∧ ∃ fields epoch identity,
    emitted = .object fields ∧ (fields.lookup "observation_epoch").bind safeInteger = some epoch ∧
      data = .object (Json.insertField "observation" (.string identity)
        (Json.removeField "observation_epoch" fields))

/-- The reply answers the request with this data. -/
structure Answers (record : RequestRecord) (response data : Json) : Prop where
  generation : safeInteger (response.get "generation") = some record.generation
  ok : ((response.get "result").get "ok").isBool true = true
  data : Carries record.method ((response.get "result").get "data") data

/-- The result of the pending request after a reply. -/
inductive Answered (old : Pending) (response : Json) (result : Option DriverResult) : Prop
  | same (hresult : result = old.result)
  | error (error : DriverError) (hresult : result = some (.error error)) (hcode : error.code ≠ .busy)
  | data (data : Json) (hresult : result = some (.ok data))
      (hanswers : Answers old.record response data)

/-- What the handling of a reply does: it is kept, or it is a reply to the
pending request, which is synchronized from then on. -/
inductive Heard (before after : Shared) (response : Json) : Prop
  | kept (hkept : before.Kept after)
  | reply (old new : Pending) (hsettles : before.Settles after) (hbefore : before.active = some old)
      (hafter : after.active = some new)
      (hid : (response.get "id").asStr? = some old.record.id) (hrecord : old.record.Same new.record)
      (hsynchronized : new.synchronized = true) (hresult : Answered old response new.result)
      (hresponse : new.response = true → old.response = true ∧ after.channel = before.channel)
      (hchannel : after.channel = before.channel ∨
        ∃ error, after.channel = some (.error error) ∧ error.code ≠ .busy)

theorem Heard.trans {response : Json} (h : a.Heard b response) (h' : b.Kept c) :
    a.Heard c response := by
  cases h with
  | kept hkept => exact .kept (hkept.trans h')
  | reply old middle hsettles hbefore hmiddle hid hrecord hsynchronized hresult hresponse hchannel =>
    cases h'.active with
    | none hnone => rw [hmiddle] at hnone; cases hnone
    | some middle' new hmiddle' hafter hrecord' hsynchronized' hresult' hresponse' =>
      rw [hmiddle] at hmiddle'
      cases hmiddle'
      refine .reply old new (hsettles.trans h'.settles) hbefore hafter hid
        (hrecord.trans hrecord') (hsynchronized'.trans hsynchronized) ?_ ?_ ?_
      · rw [hresult']
        exact hresult
      · intro hlive
        obtain ⟨hmiddle, hchannel'⟩ := hresponse' hlive
        obtain ⟨hold, hchannel⟩ := hresponse hmiddle
        exact ⟨hold, hchannel'.trans hchannel⟩
      · rcases h'.channel with hsame | htold
        · rw [hsame]
          exact hchannel
        · exact .inr htold

/-- The reply of `rpc` that leaves this pending request. -/
theorem Heard.of_active {old new : Pending} {response : Json} (hsettles : a.Settles b)
    (hbefore : a.active = some old) (hafter : b.active = some new) (hchannel : b.channel = a.channel)
    (hid : (response.get "id").asStr? = some old.record.id) (hrecord : old.record.Same new.record)
    (hsynchronized : new.synchronized = true) (hresponse : new.response = old.response)
    (hresult : Answered old response new.result) : a.Heard b response :=
  .reply old new hsettles hbefore hafter hid hrecord hsynchronized hresult
    (fun hlive => ⟨hresponse ▸ hlive, hchannel⟩) (.inl hchannel)

theorem errorCode?_ne_busy (error : String) : errorCode? error ≠ some .busy := by
  unfold errorCode?
  repeat' split
  all_goals decide

theorem presenceData_carries {fresh : String} {emitted data : Json} {observation : Nat × String}
    (h : shared.presenceData fresh emitted = .ok (data, observation)) :
    Carries "presence" emitted data := by
  unfold presenceData at h
  split at h
  · cases h
  rename_i fields hfields
  split at h
  · cases h
  rename_i epoch hepoch
  cases h
  refine .inr ⟨rfl, fields, epoch, _, ?_, hepoch, rfl⟩
  unfold Json.asObject? at hfields
  split at hfields
  · cases hfields
    rfl
  · cases hfields

theorem settles_hold (active : Pending) : shared.Settles (shared.hold active) :=
  ⟨id, id, fun h => ⟨h.running, h.stopping⟩⟩

theorem settles_keep (active : Pending) : shared.Settles (shared.keep active) :=
  ⟨id, id, fun h => ⟨h.running, h.stopping⟩⟩

theorem settles_learn (method : String) (data : Json) :
    shared.Settles { shared with state := learn shared.state method data } := by
  unfold learn
  split
  · exact ⟨id, id, fun h => ⟨h.running, h.stopping⟩⟩
  split
  · refine Kept.settles (.recompute ?_ ?_)
    · rfl
    · rfl
  · exact .refl _

section Rpc

variable {old active : Pending} {response : Json} {outcome : Except String Unit} {after : Shared}
  {fresh : String}

/-- The pending request as `rpc` holds it while it reads a reply: it differs
from the one before in its flags. -/
structure Reading (old active : Pending) : Prop where
  record : old.record.Same active.record
  synchronized : active.synchronized = true
  response : active.response = old.response
  result : active.result = old.result

theorem Reading.accept (h : Reading old active) :
    Reading old { active with record := { active.record with accepted := true } } :=
  ⟨⟨h.record.id, h.record.method, h.record.generation⟩, h.synchronized, h.response, h.result⟩

theorem Reading.hold (h : Reading old active) (hactive : shared.active = some old)
    (hid : (response.get "id").asStr? = some old.record.id) :
    shared.Heard (shared.hold active) response :=
  .of_active (settles_hold active) hactive rfl rfl hid h.record h.synchronized h.response
    (.same h.result)

theorem rpcData_heard (h : Reading old active) (hactive : shared.active = some old)
    (hid : (response.get "id").asStr? = some old.record.id)
    (hgeneration : safeInteger (response.get "generation") = some old.record.generation)
    (hok : ((response.get "result").get "ok").isBool true = true)
    (hrpc : shared.rpcData active fresh ((response.get "result").get "data") = (outcome, after)) :
    shared.Heard after response := by
  have haccepted := h.accept
  unfold rpcData at hrpc
  simp only at hrpc
  split at hrpc
  · rename_i hpresence
    split at hrpc
    · cases hrpc
      exact haccepted.hold hactive hid
    · rename_i data observation hdata
      cases hrpc
      refine .of_active ⟨id, id, fun h => ⟨h.running, h.stopping⟩⟩ hactive rfl rfl hid
        haccepted.record haccepted.synchronized haccepted.response (.data data rfl ?_)
      refine ⟨hgeneration, hok, ?_⟩
      rw [← haccepted.record.method, hpresence.1]
      exact presenceData_carries hdata
  · cases hrpc
    refine .of_active ?_ hactive rfl rfl hid haccepted.record haccepted.synchronized
      haccepted.response (.data _ rfl ⟨hgeneration, hok, .inl rfl⟩)
    split
    · exact (settles_learn _ _).trans (settles_keep _)
    · exact settles_keep _

theorem rpcError_heard {rejected : Bool} (h : Reading old active)
    (hactive : shared.active = some old) (hid : (response.get "id").asStr? = some old.record.id)
    {error : Json} (hrpc : shared.rpcError active rejected error = (outcome, after)) :
    shared.Heard after response := by
  unfold rpcError at hrpc
  split at hrpc
  · cases hrpc
    exact h.hold hactive hid
  · rename_i text _
    have hreading : Reading old (if rejected then active
        else { active with record := { active.record with accepted := true } }) := by
      split
      · exact h
      · exact h.accept
    simp only at hrpc
    generalize (if rejected = true then active else _) = reading at hrpc hreading
    split at hrpc
    · cases hrpc
      exact hreading.hold hactive hid
    · rename_i code hcode
      cases hrpc
      refine .of_active (settles_keep _) hactive rfl rfl hid hreading.record
        hreading.synchronized hreading.response (.error _ rfl ?_)
      rintro rfl
      exact errorCode?_ne_busy text hcode

theorem rpcResult_heard {rejected : Bool} (h : Reading old active)
    (hactive : shared.active = some old) (hid : (response.get "id").asStr? = some old.record.id)
    (hgeneration : ((response.get "result").get "ok").isBool true = true →
      safeInteger (response.get "generation") = some old.record.generation)
    (hrpc : shared.rpcResult active rejected fresh (response.get "result") = (outcome, after)) :
    shared.Heard after response := by
  unfold rpcResult at hrpc
  split at hrpc
  · cases hrpc
    exact h.hold hactive hid
  split at hrpc
  · rename_i hok
    exact rpcData_heard h hactive hid (hgeneration hok.1) hok.1 hrpc
  split at hrpc
  · exact rpcError_heard h hactive hid hrpc
  · cases hrpc
    exact h.hold hactive hid

theorem isBool_unique {value : Json} (htrue : value.isBool true = true) :
    value.isBool false = false := by
  unfold Json.isBool at htrue ⊢
  split at htrue
  · rw [of_decide_eq_true htrue]
    rfl
  · cases htrue

/-- A reply is kept, or it is a reply to the pending request. -/
theorem rpc_heard (hrpc : shared.rpc fresh response = (outcome, after)) :
    shared.Heard after response := by
  unfold rpc at hrpc
  split at hrpc
  · cases hrpc
    exact .kept (.refl _)
  split at hrpc
  · cases hrpc
    exact .kept unmatched_kept
  rename_i old hfilter
  obtain ⟨hactive, hid⟩ := Option.filter_eq_some_iff.1 hfilter
  replace hid := of_decide_eq_true hid
  simp only at hrpc
  split at hrpc
  · cases hrpc
    exact .kept (.refl _)
  rename_i hgeneration
  rw [not_and_or, not_not] at hgeneration
  have hreading : Reading old
      { old with record := { old.record with written := true }, synchronized := true } :=
    ⟨⟨rfl, rfl, rfl⟩, rfl, rfl, rfl⟩
  split at hrpc
  · rename_i result hresult
    have hget : response.get "result" = result := by rw [Json.get, hresult]; rfl
    rw [← hget] at hrpc
    refine rpcResult_heard hreading hactive hid ?_ hrpc
    intro hok
    rcases hgeneration with hsame | hrejected
    · exact hsame
    · rw [rejects, isBool_unique hok] at hrejected
      exact absurd rfl hrejected
  split at hrpc
  · cases hrpc
    have haccepted := hreading.accept
    exact .of_active (settles_keep _) hactive rfl rfl hid haccepted.record
      haccepted.synchronized haccepted.response (.same haccepted.result)
  · cases hrpc
    exact hreading.hold hactive hid

theorem handleReply_heard (fresh : String) (response : Json) :
    shared.Heard (shared.handleReply fresh response) response := by
  unfold handleReply
  split
  · exact .kept (fail_kept _)
  rename_i record hrecord
  have hsame : record = response := by
    unfold mandatoryRecord at hrecord
    simp only at hrecord
    split at hrecord
    · cases hrecord
    · cases hrecord
      rfl
  subst hsame
  split
  · rename_i after hrpc
    exact rpc_heard hrpc
  · rename_i after hrpc
    exact (rpc_heard hrpc).trans (fail_kept _)

end Rpc

/-- A marker settles the synchronized pending request, or it is kept. -/
inductive Barrier (before after : Shared) (marker : Marker) : Prop
  | kept (hkept : before.Kept after)
  | busy (active : Pending) (error : DriverError) (hmarker : marker = .busy)
      (hsynchronized : active.synchronized = true)
      (htold : before.Told after active (.error error))
  | done (active : Pending) (result : DriverResult) (hmarker : marker = .done)
      (hsynchronized : active.synchronized = true) (htold : before.Told after active result)
      (hgives : active.Gives result)

theorem nativeBarrier_cases (marker : Marker) :
    shared.Barrier (shared.nativeBarrier marker) marker := by
  unfold nativeBarrier
  split
  · exact .kept unmatched_kept
  rename_i active hactive
  split
  · exact .kept unmatched_kept
  rename_i hsynchronized
  rw [Bool.not_eq_false] at hsynchronized
  cases marker with
  | busy =>
    simp only
    split
    · exact .kept unmatched_kept
    · exact .busy active _ rfl hsynchronized ⟨.finish _ _, hactive, rfl, rfl⟩
  | done =>
    refine .done active _ rfl hsynchronized ⟨.finish _ _, hactive, rfl, rfl⟩ ?_
    exact Pending.gives_getD (by decide) _

end Shared

end DstServer.Driver
