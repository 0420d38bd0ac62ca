import DstServer.Lib.Run
import DstServer.Recovery.Native

/-!
# The bootstrap of a shard

`recovery.gate` wraps `ShardIndex.Load` and `StartDedicatedServer`, and
`bootstrap.start` resolves it with what the configuration file asks for.
Until then the completions of the loads and the starts are kept.

Lua runs on one stack.  `Lua` has the frames of the calls that have not
returned: code outside the gate, which may call it again at any depth, the
configuration that is being read, and the loop that goes over the calls that
were kept.  A step is taken by the frame on top.  An original callback
returns; `recovery.run` may also raise, which unwinds the stack as far as
some caller protects itself.

`Gated` is the invariant.  It accounts for every call by its serial number:
it was run, or it is still in a loop, or it is dropped because there is a
request.
-/

namespace DstServer.Bootstrap

open Lib
open DstServer.Recovery (Request)

/-! ## The gate -/

section Gate

variable {Index Value : Type}

/-- A call that the gate holds back.  A load completes with the arguments
of its callback; `index` is the receiver of the load. -/
inductive Call (Index Value : Type) where
  | start (arguments : List Value)
  | loaded (index : Index) (callback : Option Value) (arguments : List Value)
  deriving DecidableEq

/-- A call of an original function. -/
inductive Original (Value : Type) where
  | startServer (arguments : List Value)
  | callback (function : Value) (arguments : List Value)
  deriving DecidableEq

/-- The original that a call stands for.  A load without a callback has
none. -/
def Call.original : Call Index Value → Option (Original Value)
  | .start arguments => some (.startServer arguments)
  | .loaded _ callback arguments => callback.map fun function => .callback function arguments

/-- The value that resolves the gate, when it is not nil. -/
inductive Wanted where
  /-- `{ mode = "invalid" }` -/
  | invalid
  | recover (request : Request)
  deriving DecidableEq

/-- A call with its number. -/
structure Deferred (Index Value : Type) where
  serial : Nat
  call : Call Index Value
  deriving DecidableEq

/-- The variables that the closures of `recovery.gate` share. -/
structure Gate (Index Value : Type) where
  resolved : Bool := false
  request : Option Wanted := none
  pending : List (Deferred Index Value) := []
  finished : Bool := false

/-- What a call leads to. -/
inductive Effect (Index Value : Type) where
  | original (function : Original Value)
  /-- `recovery.run` -/
  | run (index : Index) (wanted : Wanted)

namespace Gate

/-- `resume` of a call. -/
def resume (gate : Gate Index Value) :
    Call Index Value → Gate Index Value × Option (Effect Index Value)
  | .start arguments =>
    if gate.request.isNone then (gate, some (.original (.startServer arguments))) else (gate, none)
  | .loaded index callback arguments =>
    match gate.request with
    | some wanted =>
      if gate.finished then (gate, none)
      else ({ gate with finished := true }, some (.run index wanted))
    | none => (gate, callback.map fun function => .original (.callback function arguments))

/-- A call of `StartDedicatedServer`, or of the callback of a load. -/
def enter (gate : Gate Index Value) (deferred : Deferred Index Value) :
    Gate Index Value × Option (Effect Index Value) :=
  if gate.resolved then gate.resume deferred.call
  else ({ gate with pending := gate.pending ++ [deferred] }, none)

/-- The function that `recovery.gate` returns: the gate, and the calls that
its loop goes over. -/
def resolve (gate : Gate Index Value) (value : Option Wanted) :
    Gate Index Value × List (Deferred Index Value) :=
  if gate.resolved then (gate, [])
  else ({ gate with resolved := true, request := value, pending := [] }, gate.pending)

end Gate

/-! ## The configuration -/

/-- `options.control` -/
structure Control where
  observeLoads : Bool
  recovery : Option Request

/-- How the configuration goes. -/
inductive Attempt where
  /-- There is no document, or `configure` raises; it may have seen a control
  field before. -/
  | refused (controlRequested : Bool)
  /-- The options, and whether the load observer and the RPC can be
  installed. -/
  | read (control : Option Control) (observer rpc : Bool)

/-- The value that `configured` resolves the gate with.  It shuts the game
down instead when the load observer cannot be installed. -/
def Attempt.resolution : Attempt → Option (Option Wanted)
  | .refused controlRequested => some (if controlRequested then some .invalid else none)
  | .read control observer rpc =>
    if control.any (fun control => control.observeLoads && !observer) = true then none
    else if rpc then some (control.bind fun control => control.recovery.map .recover)
    else some (if control.isSome then some .invalid else none)

/-! ## The stack -/

inductive Frame (Index Value : Type) where
  /-- Code outside the gate: the engine, and the originals that it calls. -/
  | outside
  | running
  /-- `configured` before it resolves the gate. -/
  | configuring (attempt : Attempt)
  | draining (waiting : List (Deferred Index Value))

structure Lua (Index Value : Type) where
  gate : Gate Index Value := {}
  /-- `received` of `bootstrap.start`. -/
  received : Bool := false
  /-- The loads that were begun, with their callbacks. -/
  loads : List (Index × Option Value) := []
  stack : List (Frame Index Value) := []
  calls : Nat := 0

/-- The frame on top can call other code. -/
def Lua.outside (s : Lua Index Value) : Bool :=
  match s.stack with
  | .outside :: _ | .running :: _ | .configuring _ :: _ => true
  | _ => false

/-- What happens in a run. -/
inductive Entry (Index Value : Type) where
  | asked (deferred : Deferred Index Value)
  | ran (serial : Nat) (original : Original Value)
  | recovered (index : Index) (wanted : Wanted)
  | resolved (value : Option Wanted)

/-- The entry and the frame of an effect. -/
def Effect.entry (serial : Nat) : Effect Index Value → Entry Index Value
  | .original function => .ran serial function
  | .run index wanted => .recovered index wanted

def Effect.frame : Effect Index Value → Frame Index Value
  | .original _ => .outside
  | .run _ _ => .running

/-- The loads of a call were begun. -/
def Call.Begun (loads : List (Index × Option Value)) : Call Index Value → Prop
  | .start _ => True
  | .loaded index callback _ => (index, callback) ∈ loads

inductive Step : Lua Index Value → List (Entry Index Value) → Lua Index Value → Prop
  /-- The engine calls Lua. -/
  | begins (s : Lua Index Value) (hidle : s.stack = []) :
      Step s [] { s with stack := [.outside] }
  /-- `ShardIndex.Load`, which calls the original at once. -/
  | loads (s : Lua Index Value) (index : Index) (callback : Option Value)
      (houtside : s.outside = true) :
      Step s [] { s with
        loads := (index, callback) :: s.loads
        stack := .outside :: s.stack }
  | asks (s : Lua Index Value) (call : Call Index Value) (houtside : s.outside = true)
      (hbegun : call.Begun s.loads) :
      Step s
        (.asked ⟨s.calls, call⟩ ::
          (s.gate.enter ⟨s.calls, call⟩).2.toList.map (Effect.entry s.calls))
        { s with
          gate := (s.gate.enter ⟨s.calls, call⟩).1
          stack := (s.gate.enter ⟨s.calls, call⟩).2.toList.map Effect.frame ++ s.stack
          calls := s.calls + 1 }
  | configures (s : Lua Index Value) (attempt : Attempt) (houtside : s.outside = true)
      (hreceived : s.received = false) :
      Step s [] { s with received := true, stack := .configuring attempt :: s.stack }
  /-- `configured` after it has received a document returns. -/
  | ignores (s : Lua Index Value) (houtside : s.outside = true) (hreceived : s.received = true) :
      Step s [] s
  | resolves (s : Lua Index Value) (attempt : Attempt) (value : Option Wanted)
      (rest : List (Frame Index Value)) (hstack : s.stack = .configuring attempt :: rest)
      (hvalue : attempt.resolution = some value) :
      Step s [.resolved value]
        { s with
          gate := (s.gate.resolve value).1
          stack := .draining (s.gate.resolve value).2 :: .outside :: rest }
  /-- `Shutdown` without a resolution. -/
  | abandons (s : Lua Index Value) (attempt : Attempt) (rest : List (Frame Index Value))
      (hstack : s.stack = .configuring attempt :: rest) (hvalue : attempt.resolution = none) :
      Step s [] { s with stack := rest }
  | resumes (s : Lua Index Value) (deferred : Deferred Index Value)
      (waiting : List (Deferred Index Value)) (rest : List (Frame Index Value))
      (hstack : s.stack = .draining (deferred :: waiting) :: rest) :
      Step s ((s.gate.resume deferred.call).2.toList.map (Effect.entry deferred.serial))
        { s with
          gate := (s.gate.resume deferred.call).1
          stack := (s.gate.resume deferred.call).2.toList.map Effect.frame ++
            .draining waiting :: rest }
  | drained (s : Lua Index Value) (rest : List (Frame Index Value))
      (hstack : s.stack = .draining [] :: rest) : Step s [] { s with stack := rest }
  | returns (s : Lua Index Value) (frame : Frame Index Value) (rest : List (Frame Index Value))
      (hstack : s.stack = frame :: rest) (hframe : frame = .outside ∨ frame = .running) :
      Step s [] { s with stack := rest }
  /-- `recovery.run` raises. -/
  | raises (s : Lua Index Value) (below rest : List (Frame Index Value))
      (hstack : s.stack = .running :: below ++ rest) : Step s [] { s with stack := rest }

/-- A run from the installation of the gate. -/
def GateRun : List (List (Entry Index Value)) → Lua Index Value → Prop := Run Step {}

/-! ## The gate without arguments -/

def Call.kind : Call Index Value → Recovery.GateCall
  | .start _ => .start
  | .loaded _ _ _ => .load

def Effect.output : Effect Index Value → Option Recovery.GateOutput
  | .original (.startServer _) => some .start
  | .original (.callback _ _) => some .proceed
  | .run _ (.recover request) => some (.run request)
  | .run _ .invalid => none

/-- The gate of the native model, which knows no arguments and no invalid
request. -/
structure Forgets (gate : Gate Index Value) (coarse : Recovery.Gate) : Prop where
  resolved : coarse.resolved = gate.resolved
  request : gate.request = coarse.request.map .recover
  pending : coarse.pending = gate.pending.map fun deferred => deferred.call.kind
  finished : coarse.finished = gate.finished

variable {gate : Gate Index Value} {coarse : Recovery.Gate}

theorem Forgets.resume (h : Forgets gate coarse) {call : Call Index Value}
    (horiginal : call.original.isSome = true) :
    Forgets (gate.resume call).1 (coarse.resume call.kind).1 ∧
      (gate.resume call).2.toList.filterMap Effect.output = (coarse.resume call.kind).2 := by
  have hrequest := h.request
  cases call with
  | start arguments =>
    cases hcoarse : coarse.request with
    | none =>
      rw [hcoarse] at hrequest
      simp [Gate.resume, Recovery.Gate.resume, Call.kind, Effect.output, hrequest, hcoarse, h]
    | some request =>
      rw [hcoarse] at hrequest
      simp [Gate.resume, Recovery.Gate.resume, Call.kind, hrequest, hcoarse, h]
  | loaded index callback arguments =>
    obtain ⟨function, rfl⟩ : ∃ function, callback = some function := by
      rw [Call.original, Option.isSome_map] at horiginal
      exact Option.isSome_iff_exists.1 horiginal
    cases hcoarse : coarse.request with
    | none =>
      rw [hcoarse] at hrequest
      simp [Gate.resume, Recovery.Gate.resume, Call.kind, Effect.output, hrequest, hcoarse, h]
    | some request =>
      rw [hcoarse] at hrequest
      cases hfinished : gate.finished with
      | true =>
        simp [Gate.resume, Recovery.Gate.resume, Call.kind, hrequest, hcoarse, h, h.finished,
          hfinished]
      | false =>
        have hfresh : coarse.finished = false := h.finished.trans hfinished
        have hfine : gate.resume (.loaded index (some function) arguments) =
            ({ gate with finished := true }, some (.run index (.recover request))) := by
          simp [Gate.resume, hrequest, hfinished]
        have hcoarse' : coarse.resume .load =
            ({ coarse with finished := true }, [.run request]) := by
          simp [Recovery.Gate.resume, hcoarse, hfresh]
        rw [Call.kind, hfine, hcoarse']
        exact ⟨⟨h.resolved, h.request, h.pending, rfl⟩, rfl⟩

/-- The native gate takes the same step at a call. -/
theorem Forgets.enter (h : Forgets gate coarse) {deferred : Deferred Index Value}
    (horiginal : deferred.call.original.isSome = true) :
    Forgets (gate.enter deferred).1 (coarse.step (.call deferred.call.kind)).1 ∧
      (gate.enter deferred).2.toList.filterMap Effect.output =
        (coarse.step (.call deferred.call.kind)).2 := by
  rw [Gate.enter, Recovery.Gate.step, h.resolved]
  split
  · exact h.resume horiginal
  · refine ⟨⟨rfl, h.request, ?_, h.finished⟩, rfl⟩
    simp [h.pending]

/-! ## What a run has done -/

def asked (entries : List (Entry Index Value)) : List (Deferred Index Value) :=
  entries.filterMap fun
    | .asked deferred => some deferred
    | _ => none

def ran (entries : List (Entry Index Value)) : List (Nat × Original Value) :=
  entries.filterMap fun
    | .ran serial original => some (serial, original)
    | _ => none

def recovered (entries : List (Entry Index Value)) : List (Index × Wanted) :=
  entries.filterMap fun
    | .recovered index wanted => some (index, wanted)
    | _ => none

def resolutions (entries : List (Entry Index Value)) : List (Option Wanted) :=
  entries.filterMap fun
    | .resolved value => some value
    | _ => none

/-- The original that is due for a call, with its number. -/
def Deferred.due (deferred : Deferred Index Value) : Option (Nat × Original Value) :=
  deferred.call.original.map fun original => (deferred.serial, original)

/-- The originals that are due for these calls. -/
def due (calls : List (Deferred Index Value)) : List (Nat × Original Value) :=
  calls.filterMap Deferred.due

/-- The calls that the loops on the stack have still to go over. -/
def waiting (stack : List (Frame Index Value)) : List (Deferred Index Value) :=
  stack.flatMap fun
    | .draining calls => calls
    | _ => []

section Histories

variable (entries more : List (Entry Index Value))

@[simp] theorem asked_append : asked (entries ++ more) = asked entries ++ asked more :=
  List.filterMap_append

@[simp] theorem ran_append : ran (entries ++ more) = ran entries ++ ran more :=
  List.filterMap_append

@[simp] theorem recovered_append :
    recovered (entries ++ more) = recovered entries ++ recovered more := List.filterMap_append

@[simp] theorem resolutions_append :
    resolutions (entries ++ more) = resolutions entries ++ resolutions more :=
  List.filterMap_append

@[simp] theorem due_append (calls later : List (Deferred Index Value)) :
    due (calls ++ later) = due calls ++ due later := List.filterMap_append

@[simp] theorem waiting_append (stack below : List (Frame Index Value)) :
    waiting (stack ++ below) = waiting stack ++ waiting below := List.flatMap_append

@[simp] theorem waiting_draining (calls : List (Deferred Index Value))
    (below : List (Frame Index Value)) :
    waiting (.draining calls :: below) = calls ++ waiting below := rfl

theorem waiting_other {frame : Frame Index Value} (h : ∀ calls, frame ≠ .draining calls)
    (below : List (Frame Index Value)) : waiting (frame :: below) = waiting below := by
  cases frame with
  | draining calls => exact absurd rfl (h calls)
  | _ => rfl

@[simp] theorem waiting_frames (effect : Option (Effect Index Value)) :
    waiting (effect.toList.map Effect.frame) = [] := by
  cases effect with
  | none => rfl
  | some effect => cases effect <;> rfl

end Histories

/-! ## What a call does -/

section Calls

variable {gate : Gate Index Value} {call : Call Index Value}

/-- Without a request a call runs its original. -/
theorem resume_plain (h : gate.request = none) :
    gate.resume call = (gate, call.original.map .original) := by
  cases call with
  | start arguments => simp [Gate.resume, Call.original, h]
  | loaded index callback arguments =>
    cases callback <;> simp [Gate.resume, Call.original, h]

/-- With a request a call does nothing, or it is the one that runs the
recovery. -/
theorem resume_wanted (call : Call Index Value) {wanted : Wanted}
    (h : gate.request = some wanted) :
    gate.resume call = (gate, none) ∨ gate.finished = false ∧
      ∃ index, gate.resume call = ({ gate with finished := true }, some (.run index wanted)) := by
  cases call with
  | start arguments => simp [Gate.resume, h]
  | loaded index callback arguments =>
    cases hfinished : gate.finished with
    | true => simp [Gate.resume, h, hfinished]
    | false => exact .inr ⟨rfl, index, by simp [Gate.resume, h, hfinished]⟩

/-- A call of a gate that is open for good, or closed for good. -/
structure Resumed (gate after : Gate Index Value) (effect : Option (Effect Index Value))
    (deferred : Deferred Index Value) : Prop where
  resolved : after.resolved = gate.resolved
  request : after.request = gate.request
  plain : gate.request = none →
    after = gate ∧ ran (effect.toList.map (Effect.entry deferred.serial)) = due [deferred] ∧
      recovered (effect.toList.map (Effect.entry deferred.serial)) = []
  wanted : ∀ wanted, gate.request = some wanted →
    ran (effect.toList.map (Effect.entry deferred.serial)) = [] ∧
      ((after = gate ∧ recovered (effect.toList.map (Effect.entry deferred.serial)) = []) ∨
        gate.finished = false ∧ after.finished = true ∧
          ∃ index, recovered (effect.toList.map (Effect.entry deferred.serial)) = [(index, wanted)])
  silent : asked (effect.toList.map (Effect.entry deferred.serial)) = [] ∧
    resolutions (effect.toList.map (Effect.entry deferred.serial)) = []
  running : .running ∈ effect.toList.map Effect.frame → gate.request.isSome = true

theorem resumed_resume (gate : Gate Index Value) (deferred : Deferred Index Value) :
    Resumed gate (gate.resume deferred.call).1 (gate.resume deferred.call).2 deferred := by
  cases hrequest : gate.request with
  | none =>
    rw [resume_plain hrequest]
    constructor
    case running => cases deferred.call.original <;> simp [Effect.frame]
    case silent =>
      cases deferred.call.original <;> simp [asked, resolutions, Effect.entry]
    case plain =>
      intro _
      refine ⟨rfl, ?_, ?_⟩
      · cases horiginal : deferred.call.original <;>
          simp [ran, due, Deferred.due, horiginal, Effect.entry]
      · cases deferred.call.original <;> simp [recovered, Effect.entry]
    all_goals simp [hrequest]
  | some wanted =>
    rcases resume_wanted deferred.call hrequest with hnone | ⟨hfresh, index, hrun⟩
    · rw [hnone]
      exact ⟨rfl, rfl, fun h => by simp [hrequest] at h, fun _ _ => ⟨rfl, .inl ⟨rfl, rfl⟩⟩,
        ⟨rfl, rfl⟩, by simp⟩
    · rw [hrun]
      refine ⟨rfl, rfl, fun h => by simp [hrequest] at h, fun other hother => ⟨rfl, .inr ?_⟩,
        ⟨rfl, rfl⟩, fun _ => by rw [hrequest]; rfl⟩
      rw [hrequest] at hother
      cases hother
      exact ⟨hfresh, rfl, index, rfl⟩

end Calls

/-! ## The invariant -/

/-- What the gate is after a run. -/
structure Gated (s : Lua Index Value) (entries : List (Entry Index Value)) : Prop where
  numbered : (asked entries).map Deferred.serial = List.range s.calls
  unresolved : s.gate.resolved = false → s.gate.request = none ∧ s.gate.finished = false ∧
    s.gate.pending = asked entries ∧ waiting s.stack = [] ∧ ran entries = [] ∧
    recovered entries = [] ∧ resolutions entries = []
  resolved : s.gate.resolved = true → resolutions entries = [s.gate.request]
  plain : s.gate.resolved = true → s.gate.request = none → recovered entries = [] ∧
    (ran entries ++ due (waiting s.stack)).Perm (due (asked entries))
  wanted : ∀ wanted, s.gate.request = some wanted → s.gate.resolved = true ∧ ran entries = [] ∧
    (recovered entries).length = (if s.gate.finished then 1 else 0) ∧
    ∀ run ∈ recovered entries, run.2 = wanted
  running : .running ∈ s.stack → s.gate.request.isSome = true

variable {s t : Lua Index Value} {entries : List (Entry Index Value)}

theorem gated_start : Gated ({} : Lua Index Value) [] := by
  constructor
  · rfl
  · exact fun _ => ⟨rfl, rfl, rfl, rfl, rfl, rfl, rfl⟩
  · exact (nomatch ·)
  · exact (nomatch ·)
  · exact fun _ h => nomatch h
  · exact (nomatch ·)

/-- The stack changes, and no call is dropped from a loop while it is open. -/
theorem Gated.move (h : Gated s entries) (hgate : t.gate = s.gate) (hcalls : t.calls = s.calls)
    (hwaiting : waiting t.stack = waiting s.stack ∨ s.gate.request.isSome = true ∧
      ∃ above, s.stack = above ++ t.stack)
    (hrunning : ∀ frame ∈ t.stack, frame = .running → frame ∈ s.stack) :
    Gated t (entries ++ []) := by
  rw [List.append_nil]
  refine ⟨hcalls ▸ h.numbered, fun hfalse => ?_, fun htrue => hgate ▸ h.resolved (hgate ▸ htrue),
    fun htrue hnone => ?_, fun wanted hsome => hgate ▸ h.wanted wanted (hgate ▸ hsome),
    fun hmem => hgate ▸ h.running (hrunning _ hmem rfl)⟩
  · rw [hgate] at hfalse ⊢
    obtain ⟨hrequest, hfinished, hpending, hempty, hrest⟩ := h.unresolved hfalse
    rcases hwaiting with hsame | ⟨hsome, _⟩
    · exact ⟨hrequest, hfinished, hpending, hsame.trans hempty, hrest⟩
    · rw [hrequest] at hsome
      cases hsome
  · rw [hgate] at htrue hnone
    rcases hwaiting with hsame | ⟨hsome, _⟩
    · rw [hsame]
      exact h.plain htrue hnone
    · rw [hnone] at hsome
      cases hsome

/-- A call that is not kept: the gate was resolved before. -/
theorem Gated.resume (h : Gated s entries) (hresolved : s.gate.resolved = true)
    (deferred : Deferred Index Value) (added : List (Deferred Index Value))
    (stack : List (Frame Index Value))
    (hnumbered : (asked entries ++ added).map Deferred.serial = List.range t.calls)
    (hwaiting : (due (waiting s.stack) ++ due added).Perm (due [deferred] ++ due (waiting stack)))
    (hrunning : ∀ frame ∈ stack, frame = .running → frame ∈ s.stack)
    (hgate : t.gate = (s.gate.resume deferred.call).1)
    (hstack : t.stack = (s.gate.resume deferred.call).2.toList.map Effect.frame ++ stack) :
    Gated t (entries ++ (added.map .asked ++
      (s.gate.resume deferred.call).2.toList.map (Effect.entry deferred.serial))) := by
  have hresume := resumed_resume s.gate deferred
  generalize (s.gate.resume deferred.call).1 = after at hresume hgate
  generalize (s.gate.resume deferred.call).2 = effect at hresume hstack ⊢
  obtain ⟨hasked, hresolutions⟩ := hresume.silent
  have hadded : asked (added.map Entry.asked) = added ∧ ran (added.map Entry.asked) = [] ∧
      recovered (added.map Entry.asked) = [] ∧ resolutions (added.map Entry.asked) = [] := by
    simp [asked, ran, recovered, resolutions, List.filterMap_map]
  obtain ⟨hadded, haddedRan, haddedRecovered, haddedResolutions⟩ := hadded
  have htrue : t.gate.resolved = true := by rw [hgate, hresume.resolved, hresolved]
  have hrequest : t.gate.request = s.gate.request := by rw [hgate, hresume.request]
  refine ⟨?_, fun hfalse => ?_, fun _ => ?_, fun _ hnone => ?_, fun wanted hsome => ?_,
    fun hmem => ?_⟩
  · rw [asked_append, asked_append, hadded, hasked, List.append_nil]
    exact hnumbered
  · rw [htrue] at hfalse
    cases hfalse
  · rw [resolutions_append, resolutions_append, haddedResolutions, hresolutions, hrequest]
    simpa using h.resolved hresolved
  · rw [hrequest] at hnone
    obtain ⟨hrecovered, hperm⟩ := h.plain hresolved hnone
    obtain ⟨_, hran, hquiet⟩ := hresume.plain hnone
    refine ⟨by simp [hrecovered, haddedRecovered, hquiet], ?_⟩
    rw [ran_append, ran_append, haddedRan, hran, asked_append, asked_append, hadded, hasked,
      hstack, waiting_append, waiting_frames, List.nil_append, List.nil_append, List.append_nil,
      due_append, List.append_assoc]
    refine (hwaiting.symm.append_left _).trans ?_
    rw [← List.append_assoc]
    exact hperm.append_right _
  · rw [hrequest] at hsome
    obtain ⟨_, hran, hcount, hall⟩ := h.wanted wanted hsome
    obtain ⟨hquiet, hrecovery⟩ := hresume.wanted wanted hsome
    refine ⟨htrue, by simp [hran, haddedRan, hquiet], ?_⟩
    rw [recovered_append, recovered_append, haddedRecovered, List.nil_append, hgate]
    rcases hrecovery with ⟨rfl, hnone⟩ | ⟨hfresh, hfinished, index, hrun⟩
    · rw [hnone, List.append_nil]
      exact ⟨hcount, hall⟩
    · rw [hfresh] at hcount
      have hempty : recovered entries = [] := List.eq_nil_of_length_eq_zero hcount
      rw [hrun, hempty, hfinished]
      refine ⟨rfl, fun run hrun => ?_⟩
      rw [List.mem_singleton.1 hrun]
  · rw [hrequest]
    rw [hstack] at hmem
    rcases List.mem_append.1 hmem with hmem | hmem
    · exact hresume.running hmem
    · exact h.running (hrunning _ hmem rfl)

/-- The gate is resolved: the calls that were kept are all of them. -/
theorem Gated.resolve (h : Gated s entries) (hfalse : s.gate.resolved = false)
    {value : Option Wanted} {rest : List (Frame Index Value)}
    (hrest : ∀ frame ∈ rest, frame = .running → frame ∈ s.stack) (hwaiting : waiting rest = []) :
    Gated
      { s with
        gate := (s.gate.resolve value).1
        stack := .draining (s.gate.resolve value).2 :: .outside :: rest }
      (entries ++ [.resolved value]) := by
  obtain ⟨hrequest, hfinished, hpending, _, hran, hrecovered, hresolutions⟩ := h.unresolved hfalse
  have hresolve : s.gate.resolve value =
      ({ s.gate with resolved := true, request := value, pending := [] }, s.gate.pending) := by
    rw [Gate.resolve, hfalse]
    rfl
  rw [hresolve]
  have hasked : asked (entries ++ [.resolved value]) = asked entries := by
    rw [asked_append]
    exact List.append_nil _
  have hran' : ran (entries ++ [.resolved value]) = [] := by
    rw [ran_append, hran]
    rfl
  have hrecovered' : recovered (entries ++ [.resolved value]) = [] := by
    rw [recovered_append, hrecovered]
    rfl
  refine ⟨hasked ▸ h.numbered, (nomatch ·), fun _ => ?_, fun _ _ => ⟨hrecovered', ?_⟩,
    fun wanted _ => ⟨rfl, hran', ?_, ?_⟩, fun hmem => ?_⟩
  · rw [resolutions_append, hresolutions]
    rfl
  · rw [hran', hasked, hpending, waiting_draining, waiting_other (by simp), hwaiting]
    simp
  · rw [hrecovered', hfinished]
    rfl
  · rw [hrecovered']
    simp
  · have hrunning := h.running (hrest .running (by simpa using hmem) rfl)
    rw [hrequest] at hrunning
    cases hrunning

/-- `configured` goes on after its first call only. -/
def Frame.isConfiguring : Frame Index Value → Bool
  | .configuring _ => true
  | _ => false

/-- The gate is resolved once, by the one configuration that is received. -/
def Once (s : Lua Index Value) : Prop :=
  s.stack.countP Frame.isConfiguring + s.gate.resolved.toNat ≤ s.received.toNat

theorem resolved_resume (gate : Gate Index Value) (call : Call Index Value) :
    (gate.resume call).1.resolved = gate.resolved :=
  (resumed_resume gate ⟨0, call⟩).resolved

theorem resolved_enter (gate : Gate Index Value) (deferred : Deferred Index Value) :
    (gate.enter deferred).1.resolved = gate.resolved := by
  unfold Gate.enter
  split
  · exact resolved_resume gate deferred.call
  · rfl

theorem countP_frames (effect : Option (Effect Index Value)) :
    (effect.toList.map Effect.frame).countP Frame.isConfiguring = 0 := by
  cases effect with
  | none => rfl
  | some effect => cases effect <;> rfl

theorem Once.step {more : List (Entry Index Value)} (h : Once s) (hstep : Step s more t) :
    Once t := by
  unfold Once at h ⊢
  cases hstep with
  | begins hidle =>
    rw [hidle] at h
    exact h
  | loads => exact h
  | asks call =>
    simp only [List.countP_append, countP_frames, resolved_enter]
    omega
  | configures attempt houtside hreceived =>
    rw [hreceived] at h
    rw [List.countP_cons_of_pos rfl]
    simp only [Bool.toNat_false, Bool.toNat_true] at h ⊢
    omega
  | ignores => exact h
  | resolves attempt value rest hstack =>
    rw [hstack, List.countP_cons_of_pos rfl] at h
    have hone := Bool.toNat_le (s.gate.resolve value).1.resolved
    have hcount : (Frame.draining (s.gate.resolve value).2 :: Frame.outside :: rest).countP
        Frame.isConfiguring = rest.countP Frame.isConfiguring := rfl
    simp only [hcount]
    omega
  | abandons attempt rest hstack =>
    rw [hstack, List.countP_cons_of_pos rfl] at h
    simp only
    omega
  | resumes deferred waiting rest hstack =>
    rw [hstack] at h
    have hcount : (Frame.draining waiting :: rest).countP Frame.isConfiguring =
        (Frame.draining (deferred :: waiting) :: rest).countP Frame.isConfiguring := rfl
    simp only [List.countP_append, countP_frames, resolved_resume, hcount]
    omega
  | drained rest hstack =>
    rw [hstack] at h
    exact h
  | returns frame rest hstack hframe =>
    rw [hstack] at h
    rcases hframe with rfl | rfl
    · exact h
    · exact h
  | raises below rest hstack =>
    rw [hstack, List.cons_append, List.countP_cons, List.countP_append] at h
    simp only
    omega

theorem Gated.step {more : List (Entry Index Value)} (h : Gated s entries) (honce : Once s)
    (hstep : Step s more t) : Gated t (entries ++ more) := by
  cases hstep with
  | begins hidle =>
    refine h.move rfl rfl (.inl ?_) fun frame hframe hrunning => ?_
    · rw [hidle]
      rfl
    · rw [hrunning] at hframe
      simp at hframe
  | loads index callback =>
    refine h.move rfl rfl (.inl (waiting_other (by simp) _)) fun frame hframe hrunning => ?_
    rw [hrunning] at hframe ⊢
    simpa using hframe
  | asks call houtside hbegun =>
    have hserial : (asked entries ++ [(⟨s.calls, call⟩ : Deferred Index Value)]).map
        Deferred.serial = List.range (s.calls + 1) := by
      rw [List.map_append, h.numbered, List.range_succ]
      rfl
    cases hresolved : s.gate.resolved with
    | true =>
      have henter : s.gate.enter ⟨s.calls, call⟩ = s.gate.resume call := by
        rw [Gate.enter, if_pos hresolved]
      rw [henter]
      exact h.resume hresolved ⟨s.calls, call⟩ [⟨s.calls, call⟩] s.stack hserial
        List.perm_append_comm (fun _ hframe _ => hframe) rfl rfl
    | false =>
      have henter : s.gate.enter ⟨s.calls, call⟩ =
          ({ s.gate with pending := s.gate.pending ++ [⟨s.calls, call⟩] }, none) := by
        rw [Gate.enter, if_neg (ne_true_of_eq_false hresolved)]
      rw [henter]
      obtain ⟨hrequest, hfinished, hpending, hwaiting, hran, hrecovered, hresolutions⟩ :=
        h.unresolved hresolved
      have hasked : asked (entries ++ [.asked ⟨s.calls, call⟩]) =
          asked entries ++ [⟨s.calls, call⟩] := asked_append _ _
      refine ⟨?_, fun _ => ⟨hrequest, hfinished, ?_, hwaiting, ?_, ?_, ?_⟩, fun htrue => ?_,
        fun htrue => ?_, fun wanted hsome => ?_, h.running⟩
      · exact hasked ▸ hserial
      · simp [hpending, hasked]
      · rw [ran_append, hran]
        rfl
      · rw [recovered_append, hrecovered]
        rfl
      · rw [resolutions_append, hresolutions]
        rfl
      · exact absurd htrue (ne_true_of_eq_false hresolved)
      · exact absurd htrue (ne_true_of_eq_false hresolved)
      · rw [hrequest] at hsome
        cases hsome
  | configures attempt =>
    refine h.move rfl rfl (.inl (waiting_other (by simp) _)) fun frame hframe hrunning => ?_
    rw [hrunning] at hframe ⊢
    simpa using hframe
  | ignores => exact h.move rfl rfl (.inl rfl) fun frame hframe _ => hframe
  | resolves attempt value rest hstack =>
    have hfalse : s.gate.resolved = false := by
      rw [Once, hstack, List.countP_cons_of_pos rfl] at honce
      have := Bool.toNat_le s.received
      exact Bool.toNat_eq_zero.1 (by omega)
    obtain ⟨_, _, _, hwaiting, _⟩ := h.unresolved hfalse
    rw [hstack, waiting_other (by simp)] at hwaiting
    refine h.resolve hfalse (fun frame hframe _ => ?_) hwaiting
    rw [hstack]
    exact List.mem_cons_of_mem _ hframe
  | abandons attempt rest hstack =>
    refine h.move rfl rfl (.inl ?_) fun frame hframe _ => ?_
    · rw [hstack, waiting_other (by simp)]
    · rw [hstack]
      exact List.mem_cons_of_mem _ hframe
  | resumes deferred waiting' rest hstack =>
    have hresolved : s.gate.resolved = true := by
      refine Bool.of_not_eq_false fun hfalse => ?_
      obtain ⟨_, _, _, hwaiting, _⟩ := h.unresolved hfalse
      rw [hstack] at hwaiting
      cases hwaiting
    refine h.resume hresolved deferred [] (.draining waiting' :: rest) ?_ ?_ ?_ rfl rfl
    · rw [List.append_nil]
      exact h.numbered
    · rw [hstack, waiting_draining, waiting_draining, List.cons_append]
      have hdue : due (deferred :: (waiting' ++ waiting rest)) =
          due [deferred] ++ due (waiting' ++ waiting rest) := due_append [deferred] _
      rw [hdue]
      exact .of_eq (List.append_nil _)
    · rintro frame hframe rfl
      rw [hstack]
      simpa using hframe
  | drained rest hstack =>
    refine h.move rfl rfl (.inl ?_) fun frame hframe _ => ?_
    · rw [hstack]
      rfl
    · rw [hstack]
      exact List.mem_cons_of_mem _ hframe
  | returns frame rest hstack hframe =>
    refine h.move rfl rfl (.inl ?_) fun frame hframe _ => ?_
    · rw [hstack]
      rcases hframe with rfl | rfl
      · rfl
      · rfl
    · rw [hstack]
      exact List.mem_cons_of_mem _ hframe
  | raises below rest hstack =>
    refine h.move rfl rfl (.inr ⟨h.running ?_, .running :: below, hstack⟩) fun frame hframe _ => ?_
    · rw [hstack]
      exact List.mem_cons_self
    · rw [hstack]
      exact List.mem_append_right _ hframe

theorem GateRun.gated {steps : List (List (Entry Index Value))} (h : GateRun steps s) :
    Gated s steps.flatten ∧ Once s := by
  induction h with
  | nil => exact ⟨gated_start, Nat.le_refl 0⟩
  | snoc _ hstep ih =>
    obtain ⟨hgated, honce⟩ := ih
    rw [List.flatten_append, List.flatten_singleton]
    exact ⟨hgated.step honce hstep, honce.step hstep⟩

/-! ## Lua returns -/

/-- A loop goes over its calls when the originals return. -/
theorem drain_returns (calls : List (Deferred Index Value)) {rest : List (Frame Index Value)}
    (hstack : s.stack = .draining calls :: rest) :
    ∃ steps t, Run Step s steps t ∧ t.stack = rest ∧ asked steps.flatten = [] := by
  induction calls generalizing s with
  | nil => exact ⟨_, _, Run.nil.snoc (.drained s rest hstack), rfl, rfl⟩
  | cons deferred calls ih =>
    have hresume := Step.resumes s deferred calls rest hstack
    have hsilent := (resumed_resume s.gate deferred).silent.1
    generalize (s.gate.resume deferred.call).1 = after at hresume
    generalize (s.gate.resume deferred.call).2 = effect at hresume hsilent
    cases effect with
    | none =>
      obtain ⟨steps, t, hrun, ht, hasked⟩ := ih (s := { s with gate := after, stack := _ }) rfl
      refine ⟨[] :: steps, t, ?_, ht, hasked⟩
      exact Run.append (Run.nil.snoc hresume) hrun
    | some effect =>
      have hreturns := Step.returns
        { s with gate := after, stack := effect.frame :: .draining calls :: rest } effect.frame
        (.draining calls :: rest) rfl (by cases effect <;> simp [Effect.frame])
      obtain ⟨steps, t, hrun, ht, hasked⟩ :=
        ih (s := { s with gate := after, stack := .draining calls :: rest }) rfl
      refine ⟨[effect.entry deferred.serial] :: [] :: steps, t, ?_, ht, ?_⟩
      · exact Run.append ((Run.nil.snoc hresume).snoc hreturns) hrun
      · rw [List.flatten_cons, List.flatten_cons, List.nil_append, asked_append, hasked]
        simpa using hsilent

/-- The frame on top returns when the code outside does. -/
theorem frame_returns {frame : Frame Index Value} {rest : List (Frame Index Value)}
    (hstack : s.stack = frame :: rest) :
    ∃ steps t, Run Step s steps t ∧ t.stack = rest ∧ asked steps.flatten = [] := by
  cases frame with
  | outside => exact ⟨_, _, Run.nil.snoc (.returns s _ rest hstack (.inl rfl)), rfl, rfl⟩
  | running => exact ⟨_, _, Run.nil.snoc (.returns s _ rest hstack (.inr rfl)), rfl, rfl⟩
  | draining calls => exact drain_returns calls hstack
  | configuring attempt =>
    cases hvalue : attempt.resolution with
    | none => exact ⟨_, _, Run.nil.snoc (.abandons s attempt rest hstack hvalue), rfl, rfl⟩
    | some value =>
      have hresolves := Step.resolves s attempt value rest hstack hvalue
      obtain ⟨steps, t, hrun, ht, hasked⟩ := drain_returns (s := { s with
        gate := (s.gate.resolve value).1
        stack := .draining (s.gate.resolve value).2 :: .outside :: rest }) _ rfl
      have hreturns := Step.returns t _ rest ht (.inl rfl)
      refine ⟨[.resolved value] :: (steps ++ [[]]), _,
        Run.append (Run.nil.snoc hresolves) (hrun.snoc hreturns), rfl, ?_⟩
      rw [List.flatten_cons, List.flatten_append, asked_append, asked_append, hasked]
      rfl

/-- From every state Lua can return to the engine without another call. -/
theorem stack_returns (s : Lua Index Value) :
    ∃ steps t, Run Step s steps t ∧ t.stack = [] ∧ asked steps.flatten = [] := by
  generalize hstack : s.stack = stack
  induction stack generalizing s with
  | nil => exact ⟨[], s, .nil, hstack, rfl⟩
  | cons frame rest ih =>
    obtain ⟨steps, t, hrun, ht, hasked⟩ := frame_returns hstack
    obtain ⟨steps', t', hrun', ht', hasked'⟩ := ih t ht
    refine ⟨steps ++ steps', t', hrun.append hrun', ht', ?_⟩
    rw [List.flatten_append, asked_append, hasked, hasked']
    rfl

/-! ## Main results -/

/-- The gate of a shard over a whole run.  While it is not resolved nothing
is let through.  With a request the recovery runs at most once, and no
original ever does; without one the originals that ran, and those of the
calls that a loop has still to go over, are the ones of all calls, each with
its own number.  Lua can always return, and then no call is left. -/
theorem gate_law {steps : List (List (Entry Index Value))} (h : GateRun steps s) :
    (resolutions steps.flatten).length ≤ 1 ∧
    (resolutions steps.flatten = [] → ran steps.flatten = [] ∧ recovered steps.flatten = []) ∧
    (∀ wanted, some wanted ∈ resolutions steps.flatten →
      ran steps.flatten = [] ∧ (recovered steps.flatten).length ≤ 1 ∧
      ∀ run ∈ recovered steps.flatten, run.2 = wanted) ∧
    (none ∈ resolutions steps.flatten → recovered steps.flatten = [] ∧
      (ran steps.flatten ++ due (waiting s.stack)).Perm (due (asked steps.flatten)) ∧
      (s.stack = [] → (ran steps.flatten).Perm (due (asked steps.flatten)))) ∧
    ((asked steps.flatten).map Deferred.serial).Nodup ∧
    ∃ later t, GateRun (steps ++ later) t ∧ t.stack = [] ∧ asked later.flatten = [] := by
  obtain ⟨hgated, _⟩ := h.gated
  have hcount : (resolutions steps.flatten).length ≤ 1 := by
    cases hresolved : s.gate.resolved with
    | true => simp [hgated.resolved hresolved]
    | false =>
      obtain ⟨_, _, _, _, _, _, hnone⟩ := hgated.unresolved hresolved
      simp [hnone]
  have hvalue : ∀ value, value ∈ resolutions steps.flatten →
      s.gate.resolved = true ∧ s.gate.request = value := by
    intro value hmem
    cases hresolved : s.gate.resolved with
    | true =>
      rw [hgated.resolved hresolved, List.mem_singleton] at hmem
      exact ⟨rfl, hmem.symm⟩
    | false =>
      obtain ⟨_, _, _, _, _, _, hnone⟩ := hgated.unresolved hresolved
      rw [hnone] at hmem
      cases hmem
  refine ⟨hcount, fun hnone => ?_, fun wanted hmem => ?_, fun hmem => ?_, ?_, ?_⟩
  · cases hresolved : s.gate.resolved with
    | true =>
      rw [hgated.resolved hresolved] at hnone
      cases hnone
    | false =>
      obtain ⟨_, _, _, _, hran, hrecovered, _⟩ := hgated.unresolved hresolved
      exact ⟨hran, hrecovered⟩
  · obtain ⟨_, hrequest⟩ := hvalue _ hmem
    obtain ⟨_, hran, hlength, hall⟩ := hgated.wanted wanted hrequest
    refine ⟨hran, ?_, hall⟩
    rw [hlength]
    split
    · exact Nat.le_refl 1
    · exact Nat.zero_le 1
  · obtain ⟨hresolved, hrequest⟩ := hvalue _ hmem
    obtain ⟨hrecovered, hperm⟩ := hgated.plain hresolved hrequest
    refine ⟨hrecovered, hperm, fun hidle => ?_⟩
    rw [hidle] at hperm
    simpa [waiting, due] using hperm
  · rw [hgated.numbered]
    exact List.nodup_range
  · obtain ⟨later, t, hrun, hidle, hasked⟩ := stack_returns s
    exact ⟨later, t, h.append hrun, hidle, hasked⟩

/-- A load that completes and a start before the configuration, which asks
for no recovery, and another start from the callback of the load. -/
def sampleEntries : List (List (Entry Unit String)) :=
  [[], [], [.asked ⟨0, .loaded () (some "callback") ["argument"]⟩], [.asked ⟨1, .start []⟩], [],
    [.resolved none], [.ran 0 (.callback "callback" ["argument"])],
    [.asked ⟨2, .start ["again"]⟩, .ran 2 (.startServer ["again"])], [], [],
    [.ran 1 (.startServer [])], [], [], [], [], []]

theorem sampleEntries_run : ∃ s, GateRun sampleEntries s ∧ s.stack = [] := by
  have hkept := (((Run.nil.snoc (Step.begins ({} : Lua Unit String) rfl)).snoc
    (.loads _ () (some "callback") rfl)).snoc
    (.asks _ (.loaded () (some "callback") ["argument"]) rfl (List.mem_singleton_self _))).snoc
    (.asks _ (.start []) rfl trivial)
  have hopen := (hkept.snoc (.configures _ (.read none true true) rfl rfl)).snoc
    (.resolves _ _ none _ rfl rfl)
  have hcallback := ((((hopen.snoc (.resumes _ _ _ _ rfl)).snoc
    (.asks _ (.start ["again"]) rfl trivial)).snoc (.returns _ _ _ rfl (.inl rfl))).snoc
    (.returns _ _ _ rfl (.inl rfl))).snoc (.resumes _ _ _ _ rfl)
  have hend := ((((hcallback.snoc (.returns _ _ _ rfl (.inl rfl))).snoc (.drained _ _ rfl)).snoc
    (.returns _ _ _ rfl (.inl rfl))).snoc (.returns _ _ _ rfl (.inl rfl))).snoc
    (.returns _ _ _ rfl (.inl rfl))
  exact ⟨_, hend, rfl⟩

/-- In the sample run every call has run its original. -/
theorem gate_law_sample :
    recovered sampleEntries.flatten = [] ∧
      (ran sampleEntries.flatten).Perm (due (asked sampleEntries.flatten)) := by
  obtain ⟨s, hrun, hidle⟩ := sampleEntries_run
  obtain ⟨_, _, _, hopen, _⟩ := gate_law hrun
  obtain ⟨hrecovered, _, hperm⟩ := hopen (by simp [resolutions, sampleEntries])
  exact ⟨hrecovered, hperm hidle⟩

end Gate

end DstServer.Bootstrap
