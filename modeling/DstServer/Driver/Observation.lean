import DstServer.Driver.Readiness

/-!
# The observation of the driver

The driver replaces the epoch of a presence answer by a public identity.
`mapped` is what it made of a line, and the generation and the observation
of the last answer are the part of its state that this depends on.

Every change but a presence answer leaves the two, or begins a later
generation without an observation (`Scope`).  `Observes` is the spec of a
reply: it changes nothing here, or it is mapped.
-/

namespace DstServer.Driver

open Lib

/-! ## Lines -/

/-- The generation and the epoch that a presence answer carries, in the
order of their making. -/
def reported : Content → Option (ℕ ×ₗ ℕ)
  | .reply value =>
    match safeInteger (value.get "generation"),
        safeInteger (((value.get "result").get "data").get "observation_epoch") with
    | some generation, some epoch => some (toLex (generation, epoch))
    | _, _ => none
  | .marker _ => none

/-- A presence answer of the current generation as the driver hands it on. -/
structure Mapping where
  generation : Nat
  epoch : Nat
  identity : String
  data : Json

/-- What the driver made of a line, by its states before and after it. -/
def mapped (before after : Shared) (content : Content) : Option Mapping :=
  match reported content, before.active, after.active with
  | some position, some old, some new =>
    if old.record.method = "presence" ∧ before.state.generation = some old.record.generation ∧
        old.result.isNone = true then
      match new.result with
      | some (.ok data) =>
        (data.get "observation").asStr?.map fun identity =>
          ⟨old.record.generation, (ofLex position).2, identity, data⟩
      | _ => none
    else none
  | _, _, _ => none

/-- The data of a presence answer with an identity in place of its epoch. -/
def identified (identity : String) (fields : List (String × Json)) : Json :=
  .object (Json.insertField "observation" (.string identity)
    (Json.removeField "observation_epoch" fields))

theorem lookup_insertField (key : String) (value : Json) (fields : List (String × Json)) :
    (Json.insertField key value fields).lookup key = some value := by
  induction fields with
  | nil => simp [Json.insertField]
  | cons field rest ih =>
    obtain ⟨other, found⟩ := field
    simp only [Json.insertField]
    split
    · exact List.lookup_cons_self
    split
    · exact List.lookup_cons_self
    · rename_i _ hne
      rw [List.lookup_cons, beq_false_of_ne hne]
      exact ih

theorem get_identified (identity : String) (fields : List (String × Json)) :
    ((identified identity fields).get "observation").asStr? = some identity := by
  rw [identified, Json.get, Json.get?, lookup_insertField]
  rfl

/-! ## The generation and the observation -/

namespace Shared

variable {shared after : Shared}

/-- The generation and the observation are as they were. -/
structure SameScope (before after : Shared) : Prop where
  generation : after.state.generation = before.state.generation
  observation : after.observation = before.observation

theorem SameScope.refl (shared : Shared) : shared.SameScope shared := ⟨rfl, rfl⟩

theorem SameScope.trans {a b c : Shared} (h : a.SameScope b) (h' : b.SameScope c) :
    a.SameScope c :=
  ⟨h'.generation.trans h.generation, h'.observation.trans h.observation⟩

/-- What every change but an answer does with them: nothing, or a later
generation begins without an observation. -/
inductive Scope (before after : Shared) : Prop
  | same (h : before.SameScope after)
  | later (generation : Nat) (hlater : ∀ current, before.state.generation = some current →
      current < generation) (hgeneration : after.state.generation = some generation)
      (hobservation : after.observation = none)

theorem Scope.trans_same {a b c : Shared} (h : a.Scope b) (h' : b.SameScope c) : a.Scope c := by
  cases h with
  | same hsame => exact .same (hsame.trans h')
  | later generation hlater hgeneration hobservation =>
    exact .later generation hlater (h'.generation.trans hgeneration)
      (h'.observation.trans hobservation)

theorem fail_scope (message : String) : shared.SameScope (shared.fail message) := by
  unfold fail
  simp only
  split
  · exact ⟨rfl, rfl⟩
  · exact ⟨rfl, rfl⟩

theorem advanceGeneration_scope {generation : Nat}
    (h : shared.advanceGeneration generation = some after) : shared.Scope after := by
  unfold advanceGeneration at h
  split at h
  · cases h
  rename_i hover
  split at h
  · cases h
    exact .same (.refl _)
  rename_i hnew
  have hlater : ∀ current, shared.state.generation = some current → current < generation := by
    intro current hcurrent
    rw [hcurrent, Option.any_some, decide_eq_true_eq] at hover
    rw [hcurrent, Option.some.injEq] at hnew
    omega
  simp only at h
  split at h
  · split at h
    · cases h
      exact .later generation hlater rfl rfl
    · cases h
      exact .later generation hlater rfl rfl
  · cases h
    exact .later generation hlater rfl rfl

theorem bootstrap_scope {record : Json} (h : shared.bootstrap record = .ok after) :
    shared.Scope after := by
  unfold bootstrap at h
  split at h
  · split at h
    · split at h
      · cases h
        exact .same (.refl _)
      · cases h
    · cases h
  simp only at h
  split at h
  · cases h
  split at h
  · cases h
  split at h
  · cases h
    exact .same (.refl _)
  · rename_i hadvance
    cases h
    exact (advanceGeneration_scope hadvance).trans_same ⟨rfl, rfl⟩

theorem control_scope {record : Json} (h : shared.control record = .ok after) :
    shared.Scope after := by
  unfold control at h
  split at h
  · cases h
  split at h
  · cases h
  split at h
  · cases h
    exact .same (.refl _)
  · rename_i hadvance
    cases h
    exact (advanceGeneration_scope hadvance).trans_same ⟨rfl, rfl⟩

theorem handleRecord_scope {handler : Shared → Json → Except String Shared}
    (hhandler : ∀ record after, handler shared record = .ok after → shared.Scope after)
    (value : Option Json) : shared.Scope (shared.handleRecord handler value) := by
  unfold handleRecord
  split
  · exact .same (fail_scope _)
  split
  · rename_i hok
    exact hhandler _ _ hok
  · exact .same (fail_scope _)

theorem lifecycle_scope {text : String} (h : shared.lifecycle text = .ok after) :
    shared.SameScope after := by
  unfold lifecycle at h
  split at h
  · cases h
    exact .refl _
  split at h
  · cases h
    exact ⟨rfl, rfl⟩
  split at h
  · simp only at h
    split at h
    · cases h
    · cases h
      exact ⟨rfl, rfl⟩
  split at h
  · cases h
    exact ⟨rfl, rfl⟩
  split at h
  · cases h
    exact ⟨rfl, rfl⟩
  · cases h
    exact .refl _

theorem handleLifecycle_scope (text : String) : shared.SameScope (shared.handleLifecycle text) := by
  unfold handleLifecycle
  split
  · rename_i hok
    exact lifecycle_scope hok
  · exact fail_scope _

theorem dispatch_scope {record : RequestRecord} (h : shared.dispatch record = .ok after) :
    shared.SameScope after := by
  unfold dispatch at h
  split at h
  · cases h
  split at h
  · cases h
  · cases h
    exact ⟨rfl, rfl⟩

theorem markWritten_scope : shared.SameScope shared.markWritten := by
  unfold markWritten
  split
  · exact ⟨rfl, rfl⟩
  · exact .refl _

theorem expire_scope (id message : String) : shared.SameScope (shared.expire id message).2 := by
  unfold expire
  split
  · exact .refl _
  · exact ⟨rfl, rfl⟩

theorem exited_scope (report : Except String ExitReport) :
    shared.SameScope (shared.exited report) := by
  have hended : (ended shared.state report).generation = shared.state.generation := by
    unfold ended
    cases report <;> rfl
  unfold exited
  simp only
  split
  · exact ⟨hended, rfl⟩
  · exact ⟨hended, rfl⟩

theorem nativeBarrier_scope (marker : Marker) : shared.SameScope (shared.nativeBarrier marker) := by
  unfold nativeBarrier
  split
  · exact ⟨rfl, rfl⟩
  split
  · exact ⟨rfl, rfl⟩
  cases marker with
  | busy =>
    simp only
    split
    · exact ⟨rfl, rfl⟩
    · exact ⟨rfl, rfl⟩
  | done => exact ⟨rfl, rfl⟩

/-! ## Presence replies -/

/-- No pending presence request of the current generation got data. -/
def Unmapped (before after : Shared) : Prop :=
  ∀ old new data, before.active = some old → after.active = some new →
    old.record.method = "presence" → before.state.generation = some old.record.generation →
    old.result = none → new.result ≠ some (.ok data)

theorem Unmapped.mapped {content : Content} (h : shared.Unmapped after) :
    mapped shared after content = none := by
  unfold Driver.mapped
  split
  · rename_i _ old new _ hold hnew
    split
    · rename_i hguard
      obtain ⟨hmethod, hgeneration, hresult⟩ := hguard
      split
      · rename_i data hdata
        exact absurd hdata
          (h old new data hold hnew hmethod hgeneration (Option.isNone_iff_eq_none.1 hresult))
      · rfl
    · rfl
  · rfl

/-- The result of the pending request is as it was. -/
theorem Unmapped.of_same
    (h : ∀ old new, shared.active = some old → after.active = some new → new.result = old.result) :
    shared.Unmapped after := by
  intro old new data hold hnew _ _ hnone hdata
  rw [h old new hold hnew, hnone] at hdata
  cases hdata

theorem Unmapped.of_active {old new : Pending} (hold : shared.active = some old)
    (hnew : after.active = some new) (hresult : new.result = old.result) :
    shared.Unmapped after := by
  refine .of_same fun old' new' hold' hnew' => ?_
  rw [hold] at hold'
  rw [hnew] at hnew'
  cases hold'
  cases hnew'
  exact hresult

theorem Unmapped.fail (message : String) (h : shared.Unmapped after) :
    shared.Unmapped (after.fail message) := by
  intro old new data hold hnew hmethod hgeneration hnone hdata
  unfold Shared.fail at hnew
  simp only at hnew
  split at hnew
  · rename_i active hactive
    cases hnew
    exact h old active data hold hactive hmethod hgeneration hnone hdata
  · rename_i hactive
    rw [hactive] at hnew
    cases hnew

/-- What a reply does with the observation: nothing, or it is a presence
answer whose epoch has an identity from then on, the one of the observation
that it continues or a new one. -/
inductive Observes (before after : Shared) (fresh : String) (response : Json)
    (outcome : Except String Unit) : Prop
  | nothing (h : before.SameScope after) (hunmapped : before.Unmapped after)
  | answer (generation epoch : Nat) (identity : String) (fields : List (String × Json))
      (houtcome : outcome = .ok ()) (hgeneration : before.state.generation = some generation)
      (hafter : after.state.generation = some generation)
      (hobservation : after.observation = some (epoch, identity))
      (hidentity : before.observation = some (epoch, identity) ∨
        identity = fresh ∧ ∀ other, before.observation = some other → other.1 ≠ epoch)
      (hreported : reported (.reply response) = some (toLex (generation, epoch)))
      (hfields : (response.get "result").get "data" = .object fields)
      (hmapped : mapped before after (.reply response) =
        some ⟨generation, epoch, identity, identified identity fields⟩)

section Rpc

variable {old active : Pending} {response : Json} {outcome : Except String Unit} {fresh : String}

theorem observes_hold (h : Reading old active) (hactive : shared.active = some old) :
    shared.Observes (shared.hold active) fresh response outcome :=
  .nothing ⟨rfl, rfl⟩ (.of_active hactive rfl h.result)

/-- The data of a presence answer: the epoch that it carries, and the
identity that the driver puts in its place. -/
theorem presenceData_cases {data given : Json} {observation : Nat × String}
    (h : shared.presenceData fresh data = .ok (given, observation)) :
    ∃ fields, data = .object fields ∧
      safeInteger (data.get "observation_epoch") = some observation.1 ∧
      given = identified observation.2 fields ∧
      (shared.observation = some observation ∨
        observation.2 = fresh ∧ ∀ other, shared.observation = some other → other.1 ≠ observation.1) := by
  unfold presenceData at h
  split at h
  · cases h
  rename_i fields hfields
  have hdata : data = .object fields := by
    unfold Json.asObject? at hfields
    split at hfields
    · cases hfields
      rfl
    · cases hfields
  split at h
  · cases h
  rename_i epoch hepoch
  have hget : safeInteger (data.get "observation_epoch") = some epoch := by
    obtain ⟨value, hvalue, hsafe⟩ := Option.bind_eq_some_iff.1 hepoch
    rw [hdata, Json.get, Json.get?, hvalue]
    exact hsafe
  simp only at h
  split at h
  · rename_i previous hprevious
    obtain ⟨hsame, hepoch⟩ := Option.filter_eq_some_iff.1 hprevious
    cases h
    refine ⟨fields, hdata, ?_, rfl, .inl hsame⟩
    rw [of_decide_eq_true hepoch]
    exact hget
  · rename_i hprevious
    cases h
    refine ⟨fields, hdata, hget, rfl, .inr ⟨rfl, fun other hother hsame => ?_⟩⟩
    rw [hother, Option.filter_some, if_pos (decide_eq_true hsame)] at hprevious
    cases hprevious

theorem rpcData_observes (h : Reading old active) (hactive : shared.active = some old)
    (hgeneration : safeInteger (response.get "generation") = some old.record.generation)
    (hnone : old.result = none)
    (hrpc : shared.rpcData active fresh ((response.get "result").get "data") = (outcome, after)) :
    shared.Observes after fresh response outcome := by
  unfold rpcData at hrpc
  simp only at hrpc
  split at hrpc
  · rename_i hpresence
    rw [h.record.method, h.record.generation] at hpresence
    split at hrpc
    · cases hrpc
      exact observes_hold h.accept hactive
    rename_i data observation hdata
    cases hrpc
    obtain ⟨fields, hobject, hepoch, rfl, hidentity⟩ := presenceData_cases hdata
    have hreported : reported (.reply response) =
        some (toLex (old.record.generation, observation.1)) := by
      simp only [reported, hgeneration, hepoch]
    refine .answer old.record.generation observation.1 observation.2 fields rfl hpresence.2
      hpresence.2 rfl hidentity hreported hobject ?_
    rw [mapped, hreported, hactive]
    simp only [keep]
    rw [if_pos ⟨hpresence.1, hpresence.2, by rw [hnone]; rfl⟩, get_identified]
    rfl
  · rename_i hother
    rw [h.record.method, h.record.generation] at hother
    cases hrpc
    refine .nothing ?_ fun before new data hbefore _ hmethod hcurrent _ => ?_
    · split
      · constructor
        · show (learn _ _ _).generation = _
          unfold learn
          split
          · rfl
          split <;> rfl
        · rfl
      · exact ⟨rfl, rfl⟩
    · rw [hactive] at hbefore
      cases hbefore
      exact absurd ⟨hmethod, hcurrent⟩ hother

theorem rpcError_observes {rejected : Bool} {error : Json} (h : Reading old active)
    (hactive : shared.active = some old)
    (hrpc : shared.rpcError active rejected error = (outcome, after)) :
    shared.Observes after fresh response outcome := by
  unfold rpcError at hrpc
  split at hrpc
  · cases hrpc
    exact observes_hold h hactive
  have hreading : Reading old (if rejected then active
      else { active with record := { active.record with accepted := true } }) := by
    split
    · exact h
    · exact h.accept
  simp only at hrpc
  generalize (if rejected = true then active else _) = reading at hrpc hreading
  split at hrpc
  · cases hrpc
    exact observes_hold hreading hactive
  · cases hrpc
    refine .nothing ⟨rfl, rfl⟩ fun before new data _ hnew _ _ _ hdata => ?_
    cases hnew
    cases hdata

theorem rpcResult_observes {rejected : Bool} (h : Reading old active)
    (hactive : shared.active = some old)
    (hgeneration : ((response.get "result").get "ok").isBool true = true →
      safeInteger (response.get "generation") = some old.record.generation)
    (hrpc : shared.rpcResult active rejected fresh (response.get "result") = (outcome, after)) :
    shared.Observes after fresh response outcome := by
  unfold rpcResult at hrpc
  split at hrpc
  · cases hrpc
    exact observes_hold h hactive
  rename_i hresult
  have hnone : old.result = none := by
    rw [← h.result]
    simpa using hresult
  split at hrpc
  · rename_i hok
    exact rpcData_observes h hactive (hgeneration hok.1) hnone hrpc
  split at hrpc
  · exact rpcError_observes h hactive hrpc
  · cases hrpc
    exact observes_hold h hactive

theorem rpc_observes (hrpc : shared.rpc fresh response = (outcome, after)) :
    shared.Observes after fresh response outcome := by
  have hsame : ∀ {old new}, shared.active = some old → shared.active = some new →
      new.result = old.result := by
    intro old new hold hnew
    rw [hold] at hnew
    cases hnew
    rfl
  unfold rpc at hrpc
  split at hrpc
  · cases hrpc
    exact .nothing (.refl _) (.of_same fun _ _ => hsame)
  split at hrpc
  · cases hrpc
    exact .nothing ⟨rfl, rfl⟩ (.of_same fun _ _ => hsame)
  rename_i old hfilter
  obtain ⟨hactive, _⟩ := Option.filter_eq_some_iff.1 hfilter
  simp only at hrpc
  split at hrpc
  · cases hrpc
    exact .nothing (.refl _) (.of_same fun _ _ => hsame)
  rename_i hgeneration
  rw [not_and_or, not_not] at hgeneration
  have hreading : Reading old
      { old with record := { old.record with written := true }, synchronized := true } :=
    ⟨⟨rfl, rfl, rfl⟩, rfl, rfl, rfl⟩
  split at hrpc
  · rename_i result hresult
    have hget : response.get "result" = result := by rw [Json.get, hresult]; rfl
    rw [← hget] at hrpc
    refine rpcResult_observes hreading hactive ?_ hrpc
    intro hok
    rcases hgeneration with hsame | hrejected
    · exact hsame
    · rw [rejects, isBool_unique hok] at hrejected
      exact absurd rfl hrejected
  split at hrpc
  · cases hrpc
    exact .nothing ⟨rfl, rfl⟩ (.of_active hactive rfl hreading.accept.result)
  · cases hrpc
    exact observes_hold hreading hactive

theorem handleReply_observes (shared : Shared) (fresh : String) (response : Json) :
    shared.Observes (shared.handleReply fresh response) fresh response (.ok ()) := by
  have hrefl : shared.Unmapped shared := by
    refine .of_same fun old new hold hnew => ?_
    rw [hold] at hnew
    cases hnew
    rfl
  unfold handleReply
  split
  · exact .nothing (fail_scope _) (hrefl.fail _)
  rename_i record hrecord
  have hsame : record = response := by
    simp only [mandatoryRecord] at hrecord
    split at hrecord
    · cases hrecord
    · cases hrecord
      rfl
  subst hsame
  split
  · rename_i hrpc
    exact rpc_observes hrpc
  · rename_i hrpc
    cases rpc_observes hrpc with
    | nothing h hunmapped => exact .nothing (h.trans (fail_scope _)) (hunmapped.fail _)
    | answer _ _ _ _ houtcome => cases houtcome

end Rpc

end Shared

end DstServer.Driver
