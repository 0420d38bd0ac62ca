import DstServer.Lib.Run

/-!
# The room in one life of the Agent

The model of the parts of `agent.rs` and `room.rs` that decide how a life of
the Agent ends: the boot task with its one `Start` request, the requests, the
monitors of the shard processes, the forced faults, and the end of `run`.

The room has one permit for its mutations.  `holder` is the task that has
it, and `waiting` are the tasks that wait for it.  Every other task may act
between any two steps of the holder, and the order of all steps is free.

A request that passed the checks of the Agent may reach the room after the
Agent began to close, so only the checks of the room itself are made here.
The Agent never sends the requests of the room that start it again: its own
`Start` and `Restart` requests end the life.
-/

namespace DstServer.CleanStop

open Lib

/-! ## The data -/

/-- How a process ended, with its output: what `Driver::wait` returns.
Nothing is known of a process that could not be waited for. -/
inductive Exit where
  | lost
  | report (success forced drained protocolError : Bool)
  deriving DecidableEq, Repr

namespace Exit

def clean : Exit → Bool
  | .lost => false
  | .report success forced drained protocolError =>
    success && !forced && drained && !protocolError

def drained : Exit → Bool
  | .lost => false
  | .report _ _ drained _ => drained

def forced : Exit → Bool
  | .lost => false
  | .report _ forced _ _ => forced

/-- `stop_inner` returns the report of a driver and no error. -/
def accepted (force : Bool) : Exit → Bool
  | .lost => false
  | .report success forced drained protocolError =>
    drained && (force || (!protocolError && success && !forced))

end Exit

/-- A shard process; it runs until it has an exit. -/
structure Process where
  shard : String
  exit : Option Exit := none
  deriving DecidableEq, Repr

def Process.clean (process : Process) : Bool := process.exit.any Exit.clean

inductive Phase where
  | stopped
  | preparing
  | starting
  | running
  | stopping
  | failed
  deriving DecidableEq, Repr

/-- A mutation of the room, as far as the processes are concerned.  The last
kill is the one that `run` sends. -/
inductive Operation where
  | start
  | stop
  | kill (last : Bool)
  | configure
  | updateMods
  /-- A reset, a rollback or a regeneration: the game goes on with another world. -/
  | reload
  | other
  deriving DecidableEq, Repr

/-- A task that works with the permit.  An operation knows how often the
room was interrupted before it. -/
inductive Task where
  | operation (operation : Operation) (revision : Nat)
  | cleanup
  | fault
  | priority
  deriving DecidableEq, Repr

/-- `stop_inner`, which waits for the processes of the room. -/
structure Collect where
  force : Bool
  remaining : List Nat
  failed : Bool := false
  deriving DecidableEq, Repr

inductive Stage where
  | accepted
  | spawning (shards : List String)
  /-- `wait_ready` -/
  | waiting
  /-- `reload` up to the answer of the game. -/
  | requesting
  /-- `reload` until every shard is ready with its new world. -/
  | reloading
  | collecting (collect : Collect)
  /-- The dispatch of the operation is over, with an error or without. -/
  | returned (success : Bool)
  /-- The second `stop_inner`, after the error of an operation. -/
  | cleaning (failedStart : Bool) (collect : Collect)
  deriving DecidableEq, Repr

structure Job where
  task : Task
  stage : Stage := .accepted
  deriving DecidableEq, Repr

/-- The boot task. -/
inductive Boot where
  | preparing
  | starting
  /-- The room answered the start request. -/
  | answered (success : Bool)
  | faulting
  | failed
  | ended
  deriving DecidableEq, Repr

/-- How a life ends. -/
inductive Ending where
  /-- `record_stop` persisted the clean shutdown. -/
  | cleanStop
  /-- `persist_failure` -/
  | failure
  | nothing
  deriving DecidableEq, Repr

/-- `run`, with its exit code. -/
inductive Main where
  | serving
  /-- It has left its loop and waits for the permit of the Agent. -/
  | closing (code : Nat)
  | stopping (code : Nat)
  | mustKill (code : Nat)
  | killing (code : Nat)
  | deciding (code : Nat)
  | recording
  | ended (ending : Ending)
  deriving DecidableEq, Repr

structure State where
  phase : Phase := .stopped
  restartRequired : Bool := false
  shutdownPending : Nat := 0
  interrupted : Nat := 0
  /-- Every shard process of this life, in the order of their starts. -/
  processes : List Process := []
  /-- The processes that the room knows. -/
  drivers : List Nat := []
  /-- The processes whose monitor goes on. -/
  monitors : List Nat := []
  holder : Option Job := none
  waiting : List Task := []
  /-- How often the room began to start the game. -/
  starts : Nat := 0
  initialized : Bool := false
  closing : Bool := false
  exit : Option Nat := none
  boot : Boot := .preparing
  main : Main := .serving
  deriving DecidableEq, Repr

inductive Event where
  | exit (process : Nat) (exit : Exit)
  /-- The monitor of a process looks at it. -/
  | observe (process : Nat)
  -- the boot task
  | maintain
  | requestStart
  | refuseStart
  /-- `mark_ready` may fail. -/
  | bootAnswered (marked : Bool)
  | bootFails
  | bootCloses
  -- requests
  | request (operation : Operation)
  | requestExit (code : Nat)
  | fault
  /-- The task that waits for the permit of a fault is aborted. -/
  | dropFault
  -- the permit of the room
  | acquire (position : Nat)
  | beginStart (prepared saved : Bool) (shards : List String)
  | beginStop (announced : Bool)
  | beginConfigure (saved : Bool)
  /-- The checks of a reload before it asks the game. -/
  | beginReload (found : Bool)
  | beginOther (success : Bool)
  | spawn (success : Bool)
  | ready (success : Bool)
  /-- The game has the request of a reload, or it may have it. -/
  | requested (written : Bool)
  | reloaded (success : Bool)
  | report (process : Nat)
  | reportError (process : Nat)
  | collected (success : Bool)
  /-- The deadline of an operation, or an interruption of it. -/
  | abandon
  | conclude
  -- the end of the Agent
  | bootError
  | leave (code : Nat)
  | permit (acquired : Bool)
  | kill
  | killRefused
  | killTimedOut
  | decide
  | record
  deriving DecidableEq, Repr

/-! ## The room -/

namespace State

def interrupt (s : State) : State := { s with interrupted := s.interrupted + 1 }

/-- The exit of a process. -/
def exited (s : State) (process : Nat) : Option Exit := s.processes[process]?.bind Process.exit

/-- `require_stopped` -/
def stopped (s : State) : Bool := s.drivers.all fun process => (s.exited process).any Exit.drained

/-- `Controller::request_exit` -/
def requestExit (s : State) (code : Nat) : State :=
  { s with closing := true, exit := s.exit.or (some code) }

/-- The holder of the permit goes on with another stage. -/
def goOn (s : State) (job : Job) (stage : Stage) : State :=
  { s with holder := some { job with stage } }

/-- The permit is given back. -/
def release (s : State) : State := { s with holder := none }

/-- The beginning of `stop_inner`. -/
def collect (s : State) (job : Job) (force : Bool) : State :=
  { s with phase := .stopping }.goOn job (.collecting { force, remaining := s.drivers })

/-- The body of the monitor of a process. -/
def observe (s : State) (process : Nat) : State :=
  let s' := { s with monitors := s.monitors.erase process }
  if process ∉ s.drivers then s'
  else if (s.exited process).isNone then s
  else if s.phase = .starting ∨ s.phase = .running then
    { s' with restartRequired := true, phase := .failed, waiting := s.waiting ++ [Task.cleanup] }.interrupt
  else s'

/-- The processes that `stop_inner` has heard of. -/
def heard (s : State) (collect : Collect) (process : Nat) (exit : Option Exit) : State × Collect :=
  let success := exit.any (Exit.accepted collect.force)
  let forced := collect.force || exit.any Exit.forced
  ({ s with restartRequired := s.restartRequired || forced || !success },
    { collect with
      remaining := collect.remaining.erase process
      failed := collect.failed || !success })

/-- What `invoke_inner` does with the answer of the room. -/
def answer (s : State) (operation : Operation) (success : Bool) : State :=
  match operation with
  | .start => if s.boot = .starting then { s with boot := .answered success } else s
  | .kill true =>
    match s.main with
    | .killing code => { s with main := .deciding code }
    | _ => s
  | _ => s

end State

/-! ## The steps of the holder -/

section Holder

variable (s : State) (job : Job)

/-- `start_inner` up to its first process. -/
def beginStart (prepared saved : Bool) (shards : List String) : State :=
  if s.phase = .running then s.goOn job (.returned true)
  else if s.stopped = false ∨ s.restartRequired = true then s.goOn job (.returned false)
  else if prepared = false then { s with phase := .preparing }.goOn job (.returned false)
  else if saved = false then { s with phase := .failed, drivers := [] }.goOn job (.returned false)
  else { s with phase := .starting, drivers := [], starts := s.starts + 1 }.goOn job
    (.spawning shards)

/-- The first `stop_inner` of a task, after the countdown of an operation. -/
def beginStop (announced : Bool) : Option State :=
  match job.task with
  | .operation .stop _ | .operation .updateMods _ =>
    if announced then some (s.collect job false) else some (s.goOn job (.returned false))
  | .operation (.kill _) _ => some (s.collect job true)
  | .cleanup | .priority => some (s.collect job false)
  | .fault => some ({ s with restartRequired := true }.collect job false)
  | _ => none

def beginConfigure (saved : Bool) : State :=
  if s.stopped = true ∧ saved = true then { s with drivers := [] }.goOn job (.returned true)
  else s.goOn job (.returned false)

/-- `reload` before it asks the game: the room is running, the target exists and nobody is disturbed. -/
def beginReload (found : Bool) : State :=
  if s.phase = .running ∧ found = true then s.goOn job .requesting else s.goOn job (.returned false)

/-- The answer of the game to a reload. -/
def requested (written : Bool) : State :=
  if written then { s with phase := .starting }.goOn job .reloading else s.goOn job (.returned false)

/-- The end of `reload`: a shard exits, a world is not ready in time or not the one that was asked for,
or the room runs again.  `conclude` cleans up after a failure. -/
def reloaded (success : Bool) : State :=
  if success then { s with phase := .running }.goOn job (.returned true)
  else s.goOn job (.returned false)

/-- The loop over the shards. -/
def spawn (success : Bool) (shard : String) (rest : List String) : State :=
  if success then
    let process := s.processes.length
    { s with
      processes := s.processes ++ [{ shard : Process }]
      drivers := s.drivers ++ [process]
      monitors := s.monitors ++ [process] }.goOn job (.spawning rest)
  else s.collect job false

/-- The result of `wait_ready`. -/
def ready (success : Bool) : State :=
  if success then { s with phase := .running }.goOn job (.returned true)
  else { s with restartRequired := true }.collect job false

/-- The end of `stop_inner` and of the task that called it. -/
def collected (failed success : Bool) : State :=
  let s := { s with phase := if failed then .failed else .stopped }
  match job.task with
  | .operation .start _ => { s with phase := .failed }.goOn job (.returned false)
  | .operation .updateMods _ => s.goOn job (.returned (!failed && success))
  | .operation _ _ => s.goOn job (.returned !failed)
  | .cleanup => { s with phase := .failed }.release
  | .fault =>
    { s with
      phase := .failed
      boot := if s.boot = Boot.faulting then Boot.failed else s.boot }.release
  | .priority =>
    { s with
      shutdownPending := s.shutdownPending - 1
      main := match s.main with
        | .stopping code => if failed then .mustKill code else .deciding code
        | main => main }.release

/-- What `invoke_inner` does after the dispatch. -/
def conclude (operation : Operation) (revision : Nat) (success : Bool) : State :=
  if success = false ∧ (s.phase = .starting ∨ s.phase = .stopping) then
    let failedStart := s.phase = .starting && s.interrupted = revision
    { s with restartRequired := s.restartRequired || failedStart, phase := .stopping }.goOn job
      (.cleaning failedStart { force := false, remaining := s.drivers })
  else s.release.answer operation success

/-- The end of the cleanup of an operation. -/
def cleaned (operation : Operation) (failedStart failed : Bool) : State :=
  { s with phase := if failedStart || failed then .failed else .stopped }.release.answer operation
    false

/-- A deadline or an interruption drops the dispatch of this operation.  The
update of mods is not dropped, and a kill is not before it began. -/
def abandons : Bool :=
  match job.task, job.stage with
  | .operation .updateMods _, _ => false
  | .operation (.kill _) _, .accepted => false
  | .operation _ _, .accepted | .operation _ _, .waiting | .operation _ _, .collecting _ => true
  | .operation .reload _, .requesting | .operation .reload _, .reloading => true
  | _, _ => false

/-- A step of the holder of the permit. -/
def holderStep (event : Event) : Option State :=
  match event, job.task, job.stage with
  | .beginStart prepared saved shards, .operation .start _, .accepted =>
    some (beginStart s job prepared saved shards)
  | .beginStop announced, _, .accepted => beginStop s job announced
  | .beginConfigure saved, .operation .configure _, .accepted => some (beginConfigure s job saved)
  | .beginReload found, .operation .reload _, .accepted => some (beginReload s job found)
  | .requested written, .operation .reload _, .requesting => some (requested s job written)
  | .reloaded success, .operation .reload _, .reloading => some (reloaded s job success)
  | .beginOther success, .operation .other _, .accepted => some (s.goOn job (.returned success))
  | .spawn success, _, .spawning (shard :: rest) => some (spawn s job success shard rest)
  | .spawn _, _, .spawning [] => some (s.goOn job .waiting)
  | .ready success, _, .waiting => some (ready s job success)
  | .report process, _, .collecting collect =>
    if process ∈ collect.remaining ∧ (s.exited process).isSome = true then
      let (s, collect) := s.heard collect process (s.exited process)
      some (s.goOn job (.collecting collect))
    else none
  | .reportError process, _, .collecting collect =>
    if process ∈ collect.remaining then
      let (s, collect) := s.heard collect process none
      some (s.goOn job (.collecting collect))
    else none
  | .report process, _, .cleaning failedStart collect =>
    if process ∈ collect.remaining ∧ (s.exited process).isSome = true then
      let (s, collect) := s.heard collect process (s.exited process)
      some (s.goOn job (.cleaning failedStart collect))
    else none
  | .reportError process, _, .cleaning failedStart collect =>
    if process ∈ collect.remaining then
      let (s, collect) := s.heard collect process none
      some (s.goOn job (.cleaning failedStart collect))
    else none
  | .collected success, _, .collecting ⟨_, [], failed⟩ => some (collected s job failed success)
  | .collected _, .operation operation _, .cleaning failedStart ⟨_, [], failed⟩ =>
    some (cleaned s operation failedStart failed)
  | .conclude, .operation operation revision, .returned success =>
    some (conclude s job operation revision success)
  | .abandon, _, _ => if abandons job then some (s.goOn job (.returned false)) else none
  | _, _, _ => none

end Holder

/-! ## All steps -/

/-- A request that takes the permit at once. -/
def accept (s : State) (operation : Operation) : Option State :=
  if s.holder = none ∧ s.shutdownPending = 0 then
    some { s with holder := some { task := .operation operation s.interrupted } }
  else none

/-- A kill interrupts the room and waits for the permit. -/
def sendKill (s : State) (last : Bool) : State :=
  let s := s.interrupt
  { s with waiting := s.waiting ++ [Task.operation (.kill last) s.interrupted] }

def bootStep (s : State) : Event → Option State
  | .maintain => if s.boot = .preparing then accept s .updateMods else none
  | .requestStart =>
    if s.boot = .preparing then accept { s with boot := .starting } .start else none
  | .refuseStart => if s.boot = .preparing then some { s with boot := .answered false } else none
  | .bootAnswered marked =>
    match s.boot with
    | .answered true =>
      if marked then some { s with boot := .ended, initialized := true }
      else some { s with boot := .failed }
    | .answered false =>
      if s.restartRequired then some { s with boot := .failed }
      else some { s with boot := .faulting, waiting := s.waiting ++ [Task.fault] }.interrupt
    | _ => none
  | .bootFails => if s.boot = .preparing then some { s with boot := .failed } else none
  | .bootCloses =>
    if s.boot = .preparing then some ({ s with boot := .ended }.requestExit 0) else none
  | _ => none

/-- A request that the initialized Agent sends to the room. -/
def requestStep (s : State) : Operation → Option State
  | .start | .kill true => none
  | .kill false => some (sendKill s false)
  | operation => accept s operation

/-- The end of `run`. -/
def mainStep (s : State) (event : Event) : Option State :=
  match event, s.main with
  | .bootError, .serving =>
    if s.boot = .failed then
      some ({ s with boot := .ended }.requestExit (if s.restartRequired then 1 else 0))
    else none
  -- a signal, the exit that was asked for, or a failure
  | .leave code, .serving =>
    if code = 0 ∨ s.exit = some code ∨ code = 1 then
      some { s with closing := true, boot := .ended, main := .closing code }
    else none
  | .permit acquired, .closing code =>
    if acquired then
      some { s with
        shutdownPending := s.shutdownPending + 1
        phase := .stopping
        waiting := s.waiting ++ [Task.priority]
        main := .stopping code }.interrupt
    else some { s with main := .mustKill code }
  | .kill, .mustKill code => some (sendKill { s with main := .killing code } true)
  | .killRefused, .mustKill code => some { s with main := .deciding code }
  | .killTimedOut, .killing code => some { s with main := .deciding code }
  | .decide, .deciding code =>
    if s.restartRequired = true ∨ code = 1 then some { s with main := .ended .failure }
    else if s.drivers ≠ [] then some { s with main := .recording }
    else some { s with main := .ended .nothing }
  | .record, .recording =>
    some { s with main := .ended (if s.restartRequired then .nothing else .cleanStop) }
  | _, _ => none

/-- A step of a life that goes on. -/
def act (s : State) : Event → Option State
  | .exit process exit =>
    match s.processes[process]? with
    | some ⟨shard, none⟩ =>
      some { s with processes := s.processes.set process ⟨shard, some exit⟩ }
    | _ => none
  | .observe process => if process ∈ s.monitors then some (s.observe process) else none
  | .request operation => if s.initialized then requestStep s operation else none
  | .requestExit code => some (s.requestExit code)
  | .fault =>
    if s.initialized then some { s with waiting := s.waiting ++ [Task.fault] }.interrupt else none
  | .dropFault => some { s with waiting := s.waiting.erase Task.fault }
  | .acquire position =>
    match s.holder, s.waiting[position]? with
    | none, some task =>
      some { s with holder := some { task }, waiting := s.waiting.eraseIdx position }
    | _, _ => none
  | event =>
    (bootStep s event).or ((mainStep s event).or (s.holder.bind fun job => holderStep s job event))

def step (s : State) (event : Event) : Option State :=
  match s.main with
  | .ended _ => none
  | _ => act s event

end DstServer.CleanStop
