import DstServer.Lib.Json

/-!
# The control state of a shard

What the driver keeps about a running game (`Shared`), and the functions
that change it under the state lock: the dispatch of a request and its
expiry, the handlers of the frames that the game writes, the failure of the
control, the request to stop and the end of the output.

Each request has a `oneshot` channel.  Its sender is the `response` of the
pending request; `channel` is what its receiver will find.

The records are JSON values that were already read.  A handler that returns
an error fails the driver; `rpc` may have changed the state before.
-/

namespace DstServer.Driver

open Lib

/-! ## The data -/

inductive DriverErrorCode where
  | invalidRequest
  | notReady
  | busy
  | unsupported
  | notFound
  | staleReference
  | lua
  | unknown
  | timeout
  | transport
  | protocol
  deriving DecidableEq, Repr

structure DriverError where
  code : DriverErrorCode
  message : String
  requestId : Option String := none
  written : Bool := false
  accepted : Bool := false
  deriving DecidableEq, Repr

abbrev DriverResult : Type := Except DriverError Json

structure RequestRecord where
  id : String
  method : String
  generation : Nat
  written : Bool := false
  accepted : Bool := false
  completed : Bool := false
  result : Option Json := none
  error : Option DriverError := none

/-- The one native command that may be awaiting its uncorrelated marker. -/
structure Pending where
  record : RequestRecord
  result : Option DriverResult
  /-- The sender has not been used. -/
  response : Bool
  synchronized : Bool

structure DriverState where
  nonce : String
  generation : Option Nat := none
  generationChanges : Nat := 0
  nativeReady : Bool := false
  ready : Bool := false
  running : Bool := true
  stopping : Bool := false
  returncode : Option Int := none
  forced : Bool := false
  outputDrained : Bool := false
  loadFailure : Option Json := none
  sessionId : Option String := none
  health : Option Json := none
  runtime : Option Json := none
  lastNativeSave : Option Json := none
  lastControl : Option Json := none
  controlRecords : List Json := []
  failure : Option String := none
  telemetrySequence : Nat := 0
  unmatchedReplies : Nat := 0
  recentRequest : Option RequestRecord := none

structure Shared where
  state : DriverState
  stopRequested : Bool := false
  /-- The local epoch that Lua reports, with its public identity. -/
  observation : Option (Nat × String) := none
  active : Option Pending := none
  channel : Option DriverResult := none

/-- The report of a process that has exited. -/
structure ExitReport where
  returncode : Option Int
  forced : Bool
  outputDrained : Bool
  protocolError : Option String

/-- The state that `attach` begins with. -/
def attach (nonce : String) : Shared := { state := { nonce := nonce } }

def maxSafeInteger : Nat := 9007199254740991

def controlHistory : Nat := 128

def safeInteger (value : Json) : Option Nat := value.asU64?.filter (· ≤ maxSafeInteger)

def validMethod (method : String) : Bool :=
  match method.toList with
  | [] => false
  | first :: rest =>
    decide (method.utf8ByteSize ≤ 128) && (first.isLower || first = '_') &&
      rest.all fun c => c.isLower || c = '_' || c.isDigit

namespace Pending

def error (active : Pending) (code : DriverErrorCode) (message : String) : DriverError where
  code := code
  message := message
  requestId := some active.record.id
  written := active.record.written
  accepted := active.record.accepted

/-- The pending request after it was told its result. -/
def deliver (active : Pending) (result : DriverResult) : Pending :=
  { active with
    response := false
    record := match result with
      | .ok data => { active.record with completed := true, result := some data, error := none }
      | .error error => { active.record with completed := true, error := some error } }

/-- What the channel holds after it was told its result: a sender that was
used before sends nothing. -/
def send (active : Pending) (result : DriverResult) (channel : Option DriverResult) :
    Option DriverResult :=
  if active.response then some result else channel

end Pending

namespace Shared

/-- Tell the pending request its result and keep it. -/
def deliver (shared : Shared) (active : Pending) (result : DriverResult) : Shared :=
  { shared with
    active := some (active.deliver result)
    channel := active.send result shared.channel
    state := { shared.state with recentRequest := some (active.deliver result).record } }

/-- Tell the pending request its result and drop it. -/
def finish (shared : Shared) (active : Pending) (result : DriverResult) : Shared :=
  { shared with
    active := none
    channel := active.send result shared.channel
    state := { shared.state with recentRequest := some (active.deliver result).record } }

/-- One more reply or marker that no request waits for. -/
def unmatched (shared : Shared) : Shared :=
  { shared with state :=
      { shared.state with unmatchedReplies := shared.state.unmatchedReplies + 1 } }

/-- `Inner::fail`. -/
def fail (shared : Shared) (message : String) : Shared :=
  let shared := { shared with state :=
      { shared.state with
        failure := some (shared.state.failure.getD message)
        ready := false } }
  match shared.active with
  | some active =>
    shared.deliver active
      (.error (active.error .unknown "control failed after command dispatch began"))
  | none => shared

/-! ## Requests -/

/-- The change that `execute` makes before it writes a frame. -/
def dispatch (shared : Shared) (record : RequestRecord) : Except DriverError Shared :=
  if shared.state.ready = false ∨ shared.state.stopping = true ∨
      shared.state.generation ≠ some record.generation then
    .error
      { code := .notReady
        message := "shard generation or readiness changed before dispatch" }
  else if shared.active.any fun active => !active.record.completed then
    .error { code := .notReady, message := "previous native command is still pending" }
  else
    -- a marker of an expired command may still come when there is one
    let active : Pending :=
      { record := record
        result := none
        response := true
        synchronized := shared.active.isNone }
    .ok { shared with
      active := some active
      channel := none
      state := { shared.state with recentRequest := some record } }

/-- The change that `execute` makes after it wrote the frame. -/
def markWritten (shared : Shared) : Shared :=
  match shared.active with
  | some active =>
    let active := { active with record := { active.record with written := true } }
    { shared with
      active := some active
      state := { shared.state with recentRequest := some active.record } }
  | none => shared

/-- `expire`: the result that the caller gets, and the state after it. -/
def expire (shared : Shared) (id message : String) : DriverResult × Shared :=
  match shared.active.filter fun active => active.record.id = id with
  | none => (.error { code := .unknown, message := message }, shared)
  | some active =>
    let result := active.result.getD (.error (active.error .unknown message))
    (result, shared.deliver active result)

/-- The change that `stop_native` begins with. -/
def requestStop (shared : Shared) : Shared :=
  { shared with
    stopRequested := true
    state := { shared.state with stopping := true, ready := false } }

/-- The state of a shard whose process has exited. -/
def ended (state : DriverState) (report : Except String ExitReport) : DriverState :=
  let state := { state with running := false, ready := false }
  match report with
  | .ok report =>
    let failure := state.failure.or report.protocolError
    { state with
      returncode := report.returncode
      forced := report.forced
      outputDrained := report.outputDrained
      failure :=
        if report.outputDrained then failure
        else some (failure.getD "game output did not drain") }
  | .error error => { state with failure := some (state.failure.getD error) }

/-- The change that `pump` ends with, once the output of the game is read. -/
def exited (shared : Shared) (report : Except String ExitReport) : Shared :=
  let shared := { shared with state := ended shared.state report }
  match shared.active with
  | some active =>
    let result :=
      active.result.getD (.error (active.error .unknown "game exited before command completion"))
    shared.finish { active with result := none } result
  | none => shared

/-! ## The frames of the game -/

/-- `advance_generation`: nothing for a generation that is over. -/
def advanceGeneration (shared : Shared) (generation : Nat) : Option Shared :=
  if shared.state.generation.any fun current => generation < current then none
  else if shared.state.generation = some generation then some shared
  else
    let state := if shared.state.generation.isSome then
        { shared.state with
          generationChanges := shared.state.generationChanges + 1
          sessionId := none }
      else shared.state
    let shared :=
      { shared with
        observation := none
        state :=
          { state with
            generation := some generation
            stopping := shared.stopRequested
            ready := false
            health := none
            runtime := none
            lastControl := none
            loadFailure := none
            controlRecords := []
            telemetrySequence := 0 } }
    match shared.active with
    | some active =>
      if active.record.generation ≠ generation then
        some (shared.deliver active (.error
          (active.error .unknown "world generation changed while the command was pending")))
      else some shared
    | none => some shared

end Shared

def healthReady (state : DriverState) (health : Json) : Bool :=
  safeInteger (health.get "generation") = state.generation && (health.get "protocol").isInt 3 &&
    ((health.get "capabilities").get "players").isStr "active"

def recomputeReady (state : DriverState) : DriverState :=
  { state with
    ready := state.running && !state.stopping && state.failure.isNone && state.nativeReady &&
      state.health.any (healthReady state) }

/-- `mandatory_record`, given what `serde_json` reads. -/
def mandatoryRecord (nonce : String) (value : Option Json) : Except String Json :=
  match value with
  | none => .error "malformed mandatory JSON frame"
  | some value =>
    if value.isObject = false ∨ (value.get "nonce").asStr? ≠ some nonce then
      .error "mandatory frame has an invalid nonce or envelope"
    else .ok value

def validHealth (health : Json) : Bool :=
  (health.get "protocol").isInt 3 && (health.get "capabilities").isObject &&
    ["disabled", "active", "degraded", "failed"].any (health.get "telemetry_status").isStr

namespace Shared

def bootstrap (shared : Shared) (record : Json) : Except String Shared :=
  match record.get? "error" with
  | some error =>
    match safeInteger (record.get "generation"), shared.state.generation with
    | some received, some current =>
      if received < current then .ok shared
      else .error s!"driver bootstrap failed: {error.render}"
    | _, _ => .error s!"driver bootstrap failed: {error.render}"
  | none =>
    let health := record.get? "health"
    match safeInteger ((health.getD record).get "generation") with
    | none => .error "invalid driver generation"
    | some generation =>
      if health.any fun health => !validHealth health then .error "invalid driver health"
      else match shared.advanceGeneration generation with
        | none => .ok shared
        | some shared =>
          let state := { shared.state with health := health.or shared.state.health }
          .ok { shared with state := recomputeReady state }

def control (shared : Shared) (record : Json) : Except String Shared :=
  match safeInteger (record.get "generation") with
  | none => .error "invalid control generation"
  | some generation =>
    if (record.get "v").isInt 1 = false ∨
        ((record.get "event").asStr?.any validMethod) = false then
      .error "invalid control record"
    else match shared.advanceGeneration generation with
      | none => .ok shared
      | some shared =>
        let loadFailure := if (record.get "event").isStr "world_load_failed" then some record
          else shared.state.loadFailure
        let kept := if shared.state.controlRecords.length = controlHistory then
            shared.state.controlRecords.tail
          else shared.state.controlRecords
        .ok { shared with state :=
            { shared.state with
              loadFailure := loadFailure
              lastControl := some record
              controlRecords := kept ++ [record] } }

/-- The detail of a native line after its first separator. -/
def detail (text : String) : String := .ofList ((text.toList.dropWhile (· ≠ '|')).drop 1)

/-- `str::parse::<u64>`, which admits a sign. -/
def parseU64? (text : List Char) : Option Nat :=
  let digits := match text with
    | '+' :: rest => rest
    | _ => text
  (Json.digits? digits).filter (· < Json.u64Bound)

/-- The snapshot that a native save names. -/
def savedSnapshot (path : String) : Option Nat :=
  parseU64? (path.toList.reverse.takeWhile (· ≠ '/')).reverse

/-- The text is this native line, bare or with a detail. -/
def isLine (name text : String) : Bool :=
  text = name || (name ++ "|").toList.isPrefixOf text.toList

def lifecycle (shared : Shared) (text : String) : Except String Shared :=
  if "DST_Stats|".toList.isPrefixOf text.toList then .ok shared
  else if isLine "DST_Master_Ready" text then
    .ok { shared with state := recomputeReady { shared.state with nativeReady := true } }
  else if "DST_SessionId|".toList.isPrefixOf text.toList then
    let session := detail text
    if session = "" ∨ 128 < session.utf8ByteSize then .error "invalid native session identity"
    else
      let state := { shared.state with sessionId := some session, nativeReady := true }
      .ok { shared with state := recomputeReady state }
  else if isLine "DST_Saved" text then
    let path := detail text
    let snapshot := match savedSnapshot path with
      | some snapshot => .ofNat snapshot
      | none => Json.null
    let record := Json.object
      [("event", .string "saved"), ("path", .string path), ("snapshot", snapshot)]
    .ok { shared with state := { shared.state with lastNativeSave := some record } }
  else if text = "DST_Stopping" ∨ text = "DST_Shutdown" then
    .ok { shared with state := { shared.state with stopping := true, ready := false } }
  else .ok shared

/-! ## Replies -/

/-- The replies by which Lua refuses a request before it accepts it. -/
def rejects (active : Pending) (response : Json) : Bool :=
  ((response.get "result").get "ok").isBool false && !active.record.accepted &&
    ["invalid_request", "not_ready", "stale_generation"].any
      ((response.get "result").get "error").isStr

/-- The data of a presence reply: its epoch is replaced by a public
identity, a fresh one for a new epoch. -/
def presenceData (shared : Shared) (fresh : String) (data : Json) :
    Except String (Json × Nat × String) :=
  match data.asObject? with
  | none => .error "invalid presence result"
  | some fields =>
    match (fields.lookup "observation_epoch").bind safeInteger with
    | none => .error "invalid presence observation epoch"
    | some epoch =>
      let observation := match shared.observation.filter fun observation => observation.1 = epoch with
        | some observation => observation
        | none => (epoch, fresh)
      let fields := Json.removeField "observation_epoch" fields
      .ok (.object (Json.insertField "observation" (.string observation.2) fields), observation)

/-- The code of an error that Lua names. -/
def errorCode? (error : String) : Option DriverErrorCode :=
  if error ∈ ["invalid_request", "rejected"] then some .invalidRequest
  else if error ∈ ["not_ready", "stale_generation"] then some .notReady
  else if error = "unsupported" then some .unsupported
  else if error = "not_found" then some .notFound
  else if error = "stale_reference" then some .staleReference
  else if error = "indeterminate" then some .unknown
  else if error ∈ ["lua_error", "invalid_json_value", "invalid_utf8", "response_too_large"] then
    some .lua
  else none

/-- What the state learns from the data of a reply in the current
generation. -/
def learn (state : DriverState) (method : String) (data : Json) : DriverState :=
  if method = "runtime" then
    { state with runtime := some data, sessionId := (data.get "session_id").asStr? }
  else if method = "health" then recomputeReady { state with health := some data }
  else state

/-- The state with this pending request, as a handler leaves it. -/
def hold (shared : Shared) (active : Pending) : Shared := { shared with active := some active }

/-- The state with this pending request, once the handler is done. -/
def keep (shared : Shared) (active : Pending) : Shared :=
  { shared with
    active := some active
    state := { shared.state with recentRequest := some active.record } }

/-- The branch of `rpc` for data. -/
def rpcData (shared : Shared) (active : Pending) (fresh : String) (data : Json) :
    Except String Unit × Shared :=
  let active := { active with record := { active.record with accepted := true } }
  let current := shared.state.generation = some active.record.generation
  if active.record.method = "presence" ∧ current then
    match shared.presenceData fresh data with
    | .error error => (.error error, shared.hold active)
    | .ok (data, observation) =>
      (.ok (), { shared with observation := some observation }.keep
        { active with result := some (.ok data) })
  else
    let state := if current then learn shared.state active.record.method data else shared.state
    (.ok (), { shared with state := state }.keep { active with result := some (.ok data) })

/-- The branch of `rpc` for an error. -/
def rpcError (shared : Shared) (active : Pending) (rejected : Bool) (error : Json) :
    Except String Unit × Shared :=
  match error.asStr? with
  | none => (.error "invalid RPC error", shared.hold active)
  | some error =>
    let active := if rejected then active
      else { active with record := { active.record with accepted := true } }
    match errorCode? error with
    | none => (.error "unknown RPC error code", shared.hold active)
    | some code =>
      (.ok (), shared.keep { active with result := some (.error (active.error code error)) })

/-- The branch of `rpc` for a result. -/
def rpcResult (shared : Shared) (active : Pending) (rejected : Bool) (fresh : String)
    (result : Json) : Except String Unit × Shared :=
  if active.result.isSome then (.error "duplicate RPC result", shared.hold active)
  else if (result.get "ok").isBool true ∧ (result.get? "data").isSome then
    shared.rpcData active fresh (result.get "data")
  else if (result.get "ok").isBool false then
    shared.rpcError active rejected (result.get "error")
  else (.error "invalid RPC result", shared.hold active)

/-- `rpc`, after the record was read.  `fresh` is the next identity that
`Ulid::generate` returns. -/
def rpc (shared : Shared) (fresh : String) (response : Json) : Except String Unit × Shared :=
  if (response.get "v").isInt 1 = false ∨ safeInteger (response.get "generation") = none ∨
      (response.get "id").asStr? = none then
    (.error "invalid RPC response header", shared)
  else match shared.active.filter fun active => (response.get "id").isStr active.record.id with
    | none => (.ok (), shared.unmatched)
    | some active =>
      let rejected := rejects active response
      if safeInteger (response.get "generation") ≠ some active.record.generation ∧
          rejected = false then
        (.error "RPC response generation does not match its request", shared)
      else
        let active :=
          { active with record := { active.record with written := true }, synchronized := true }
        match response.get? "result" with
        | some result => shared.rpcResult active rejected fresh result
        | none =>
          if (response.get "accepted").isBool true then
            (.ok (), shared.keep
              { active with record := { active.record with accepted := true } })
          else (.error "RPC response lacks an acceptance or result", shared.hold active)

/-- A terminal marker: `DST_LuaBusy` or `DST_RemoteCommandDone`. -/
inductive Marker where
  | busy
  | done
  deriving DecidableEq, Repr

def nativeBarrier (shared : Shared) (marker : Marker) : Shared :=
  match shared.active with
  | none => shared.unmatched
  | some active =>
    if active.synchronized = false then shared.unmatched
    else match marker with
      | .busy =>
        if active.record.accepted = true ∨ active.result.isSome then shared.unmatched
        else shared.finish active
          (.error (active.error .busy "native Lua rejected the request before acceptance"))
      | .done =>
        shared.finish { active with result := none } (active.result.getD (.error
          (active.error .unknown "native command completed without a structured result")))

end Shared

end DstServer.Driver
