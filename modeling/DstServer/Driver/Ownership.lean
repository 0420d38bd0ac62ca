import DstServer.Driver.Framing

/-!
# Whose marker comes next

The terminal markers carry no identifier.  What makes up for it is `Owned`:
when no request is pending nothing is in flight, and a synchronized one has
nothing but its own frame in flight, so that the next marker is its own.  A
request becomes synchronized by a dispatch while nothing is pending, or by a
reply to it: what is in flight behind the reply is not older.

An earlier frame of a request is out of the way before the next one is
written (`Settled`): the native side refused it, and its marker was handled.
-/

namespace DstServer.Driver

open Lib

/-- The native side refused the frame, and nothing of it is in flight. -/
def Settled (events : List Event) (s : System) (frame : Frame) : Prop :=
  Rejected events frame ∧ frame ∉ s.inFlight

/-- The channel tells the worker that native rejected its frame. -/
def Shared.ToldBusy (shared : Shared) : Prop :=
  ∃ result, shared.channel = some result ∧ isBusy result = true

/-- The worker knows that its last frame was rejected, or it wrote none. -/
def Retries (phase : Phase) (shared : Shared) : Prop :=
  phase.unsent = true ∨ phase.awaiting = true ∧ shared.ToldBusy

structure Owned (events : List Event) (s : System) : Prop where
  holds : ∀ record phase, s.worker = some (record, phase) → phase.dispatched = true →
    (s.shared.active = none ∧ (phase = .sending → s.shared.Closed)) ∨
      ∃ active, s.shared.active = some active ∧ record.Same active.record
  quiet : s.shared.active = none → s.inFlight = [] ∨ s.shared.Closed
  last : ∀ active, s.shared.active = some active → ∀ frame ∈ s.inFlight,
    frame.request = some active.record.id → ∀ other ∈ written events,
      frame.serial < other.serial → other.request = none
  synchronized : ∀ active, s.shared.active = some active → active.synchronized = true →
    ∀ frame ∈ s.inFlight, frame.request = some active.record.id ∨ frame.request = none
  superseded : ∀ frame ∈ written events, ∀ other ∈ written events,
    frame.request = other.request → frame.request ≠ none → frame.serial < other.serial →
      Settled events s frame
  settled : ∀ record phase, s.worker = some (record, phase) → Retries phase s.shared →
    ∀ frame ∈ written events, frame.request = some record.id → Settled events s frame
  sending : ∀ record, s.worker = some (record, .sending) → ¬s.shared.ToldBusy
  live : ∀ active, s.shared.active = some active → active.response = true →
    s.shared.channel = none ∧ ∃ record phase, s.worker = some (record, phase) ∧
      phase.dispatched = true ∧ record.id = active.record.id
  result : ∀ active, s.shared.active = some active → ∀ result, active.result = some result →
    isBusy result = false

namespace Owned

variable {events : List Event} {s t : System} {e : Event} {frame other : Frame}

theorem not_busy {error : DriverError} (h : error.code ≠ .busy) :
    isBusy (.error error) = false := by
  simp [isBusy, h]

theorem toldBusy_of_kept {shared after : Shared}
    (hchannel : after.channel = shared.channel ∨
      ∃ error, after.channel = some (.error error) ∧ error.code ≠ .busy)
    (h : after.ToldBusy) : shared.ToldBusy := by
  obtain ⟨result, hresult, hbusy⟩ := h
  rcases hchannel with hsame | ⟨error, htold, hcode⟩
  · exact ⟨result, hsame ▸ hresult, hbusy⟩
  · rw [htold] at hresult
    cases hresult
    rw [not_busy hcode] at hbusy
    cases hbusy

theorem settled_of_subset (h : Settled events s frame) (later : List Event)
    (hsubset : ∀ other ∈ t.inFlight, other ∈ s.inFlight) : Settled (events ++ later) t frame :=
  ⟨h.1.append later, fun hmem => h.2 (hsubset frame hmem)⟩

/-- A step that writes no frame, under which the pending request stays the
same and at most less is in flight. -/
theorem same (h : Owned events s) (hwritten : written (events ++ [e]) = written events)
    (hactive : s.shared.SameActive t.shared) (hsettles : s.shared.Settles t.shared)
    (hsubset : ∀ frame ∈ t.inFlight, frame ∈ s.inFlight)
    (hsynchronized : ∀ active, t.shared.active = some active → active.synchronized = true →
      ∀ frame ∈ t.inFlight, frame.request = some active.record.id ∨ frame.request = none)
    (hresult : ∀ active, t.shared.active = some active → ∀ result,
      active.result = some result → isBusy result = false)
    (hholds : ∀ record phase, t.worker = some (record, phase) → phase.dispatched = true →
      ∃ earlier, s.worker = some (record, earlier) ∧ earlier.dispatched = true ∧
        (phase = .sending → earlier = .sending))
    (hsettled : ∀ record phase, t.worker = some (record, phase) → Retries phase t.shared →
      ∀ frame ∈ written events, frame.request = some record.id → Settled events s frame)
    (hsending : ∀ record, t.worker = some (record, .sending) → ¬t.shared.ToldBusy)
    (hlive : ∀ active record phase, t.shared.active = some active → active.response = true →
      s.shared.channel = none → s.worker = some (record, phase) → phase.dispatched = true →
      record.id = active.record.id →
      ∃ later, t.worker = some (record, later) ∧ later.dispatched = true) :
    Owned (events ++ [e]) t := by
  have hempty : s.inFlight = [] → t.inFlight = [] := by
    intro hnil
    rw [List.eq_nil_iff_forall_not_mem] at hnil ⊢
    exact fun frame hmem => hnil frame (hsubset frame hmem)
  constructor
  case holds =>
    intro record phase hphase hdispatched
    obtain ⟨earlier, hearlier, hwas, hsame⟩ := hholds record phase hphase hdispatched
    have hbefore := h.holds record earlier hearlier hwas
    cases hactive with
    | none hnone hgone =>
      rcases hbefore with ⟨_, hclosed⟩ | ⟨active, hsome, _⟩
      · exact .inl ⟨hgone, fun hphase => hsettles.closed (hclosed (hsame hphase))⟩
      · rw [hnone] at hsome
        cases hsome
    | some old new hold hnew hrecord =>
      rcases hbefore with ⟨hnone, _⟩ | ⟨active, hsome, hrequest⟩
      · rw [hold] at hnone
        cases hnone
      · rw [hold] at hsome
        cases hsome
        exact .inr ⟨new, hnew, hrequest.trans hrecord⟩
  case quiet =>
    intro hgone
    cases hactive with
    | none hnone =>
      rcases h.quiet hnone with hnil | hclosed
      · exact .inl (hempty hnil)
      · exact .inr (hsettles.closed hclosed)
    | some _ _ _ hnew =>
      rw [hnew] at hgone
      cases hgone
  case last =>
    intro active hsome frame hframe hrequest other hother hlt
    rw [hwritten] at hother
    cases hactive with
    | none _ hgone => rw [hgone] at hsome; cases hsome
    | some old new hold hnew hrecord =>
      rw [hnew] at hsome
      cases hsome
      rw [hrecord.id] at hrequest
      exact h.last old hold frame (hsubset frame hframe) hrequest other hother hlt
  case synchronized => exact hsynchronized
  case superseded =>
    rw [hwritten]
    intro frame hframe other hother hrequest hsome hlt
    exact settled_of_subset (h.superseded frame hframe other hother hrequest hsome hlt) _ hsubset
  case settled =>
    rw [hwritten]
    intro record phase hphase hretries frame hframe hrequest
    exact settled_of_subset (hsettled record phase hphase hretries frame hframe hrequest) _ hsubset
  case sending => exact hsending
  case live =>
    intro active hsome hresponse
    cases hactive with
    | none _ hgone => rw [hgone] at hsome; cases hsome
    | some old new hold hnew hrecord hlives =>
      rw [hnew] at hsome
      cases hsome
      obtain ⟨hwas, hchannel⟩ := hlives hresponse
      obtain ⟨hnone, record, phase, hphase, hdispatched, hid⟩ := h.live old hold hwas
      have hsame : record.id = active.record.id := hid.trans hrecord.id.symm
      obtain ⟨later, hlater, hnow⟩ :=
        hlive active record phase hnew hresponse hnone hphase hdispatched hsame
      exact ⟨hchannel.trans hnone, record, later, hlater, hnow, hsame⟩
  case result => exact hresult

/-- A kept request is as synchronized as it was, and has the same result. -/
theorem kept_active (h : Owned events s) (hactive : s.shared.KeptActive t.shared)
    (hsubset : ∀ frame ∈ t.inFlight, frame ∈ s.inFlight) {active : Pending}
    (hsome : t.shared.active = some active) :
    (active.synchronized = true →
      ∀ frame ∈ t.inFlight, frame.request = some active.record.id ∨ frame.request = none) ∧
      ∀ result, active.result = some result → isBusy result = false := by
  cases hactive with
  | none _ hgone => rw [hgone] at hsome; cases hsome
  | some old new hold hnew hrecord hsame hresult =>
    rw [hnew] at hsome
    cases hsome
    rw [hrecord.id, hresult]
    exact ⟨fun hsynchronized frame hframe =>
      h.synchronized old hold (hsame ▸ hsynchronized) frame (hsubset frame hframe),
      h.result old hold⟩

theorem kept (h : Owned events s) (hwritten : written (events ++ [e]) = written events)
    (hactive : s.shared.KeptActive t.shared) (hsettles : s.shared.Settles t.shared)
    (hsubset : ∀ frame ∈ t.inFlight, frame ∈ s.inFlight)
    (hholds : ∀ record phase, t.worker = some (record, phase) → phase.dispatched = true →
      ∃ earlier, s.worker = some (record, earlier) ∧ earlier.dispatched = true ∧
        (phase = .sending → earlier = .sending))
    (hsettled : ∀ record phase, t.worker = some (record, phase) → Retries phase t.shared →
      ∀ frame ∈ written events, frame.request = some record.id → Settled events s frame)
    (hsending : ∀ record, t.worker = some (record, .sending) → ¬t.shared.ToldBusy)
    (hlive : ∀ active record phase, t.shared.active = some active → active.response = true →
      s.shared.channel = none → s.worker = some (record, phase) → phase.dispatched = true →
      record.id = active.record.id →
      ∃ later, t.worker = some (record, later) ∧ later.dispatched = true) :
    Owned (events ++ [e]) t :=
  h.same hwritten hactive.same hsettles hsubset
    (fun _ hsome => (h.kept_active hactive hsubset hsome).1)
    (fun _ hsome => (h.kept_active hactive hsubset hsome).2) hholds hsettled hsending hlive

/-- The worker stays as it is. -/
theorem still (h : Owned events s) (hwritten : written (events ++ [e]) = written events)
    (hactive : s.shared.SameActive t.shared) (hsettles : s.shared.Settles t.shared)
    (hbusy : t.shared.ToldBusy → s.shared.ToldBusy) (hworker : t.worker = s.worker)
    (hsubset : ∀ frame ∈ t.inFlight, frame ∈ s.inFlight)
    (hsynchronized : ∀ active, t.shared.active = some active → active.synchronized = true →
      ∀ frame ∈ t.inFlight, frame.request = some active.record.id ∨ frame.request = none)
    (hresult : ∀ active, t.shared.active = some active → ∀ result,
      active.result = some result → isBusy result = false) : Owned (events ++ [e]) t := by
  refine h.same hwritten hactive hsettles hsubset hsynchronized hresult ?_ ?_ ?_ ?_
  · intro record phase hphase hdispatched
    rw [hworker] at hphase
    exact ⟨phase, hphase, hdispatched, id⟩
  · intro record phase hphase hretries
    rw [hworker] at hphase
    refine h.settled record phase hphase ?_
    rcases hretries with hunsent | ⟨hawaiting, htold⟩
    · exact .inl hunsent
    · exact .inr ⟨hawaiting, hbusy htold⟩
  · intro record hphase htold
    rw [hworker] at hphase
    exact h.sending record hphase (hbusy htold)
  · intro active record phase _ _ _ hphase hdispatched _
    exact ⟨phase, hworker.trans hphase, hdispatched⟩

/-! ## Steps that leave the pending request -/

/-- The worker stays as it is, and the pending request is kept. -/
theorem rest (h : Owned events s) (hwritten : written (events ++ [e]) = written events)
    (hkept : s.shared.Kept t.shared) (hworker : t.worker = s.worker)
    (hsubset : ∀ frame ∈ t.inFlight, frame ∈ s.inFlight) : Owned (events ++ [e]) t :=
  h.still hwritten hkept.active.same hkept.settles (toldBusy_of_kept hkept.channel) hworker hsubset
    (fun _ hsome => (h.kept_active hkept.active hsubset hsome).1)
    (fun _ hsome => (h.kept_active hkept.active hsubset hsome).2)

/-- The worker moves on, and nothing else changes. -/
theorem moves (h : Owned events s) (he : Silent e) {record : RequestRecord}
    {earlier later : Phase} (hworker : s.worker = some (record, earlier))
    (hkept : s.shared.Kept t.shared) (hin : t.inFlight = s.inFlight)
    (hlater : t.worker = some (record, later)) (hsending : later ≠ .sending)
    (hdispatched : later.dispatched = true → earlier.dispatched = true)
    (hretries : Retries later t.shared → Retries earlier s.shared)
    (hlive : earlier.dispatched = true → s.shared.channel = none → later.dispatched = true) :
    Owned (events ++ [e]) t := by
  refine h.kept he.written_append hkept.active hkept.settles (hin ▸ fun _ => id) ?_ ?_ ?_ ?_
  · intro other phase hphase hnow
    rw [hlater] at hphase
    cases hphase
    exact ⟨earlier, hworker, hdispatched hnow, fun hphase => absurd hphase hsending⟩
  · intro other phase hphase hnow
    rw [hlater] at hphase
    cases hphase
    exact h.settled record earlier hworker (hretries hnow)
  · intro other hphase
    rw [hlater, Option.some.injEq, Prod.mk.injEq] at hphase
    exact absurd hphase.2 hsending
  · intro active other phase _ _ hnone hphase hwas _
    rw [hworker] at hphase
    cases hphase
    exact ⟨later, hlater, hlive hwas hnone⟩

/-- The worker returns, and its request is not live. -/
theorem release (h : Owned events s) (he : Silent e) (hkept : s.shared.Kept t.shared)
    (hin : t.inFlight = s.inFlight) (hlater : t.worker = none)
    (hlive : ∀ record phase, s.worker = some (record, phase) → phase.dispatched = true →
      s.shared.channel ≠ none) : Owned (events ++ [e]) t := by
  have hgone : ∀ record phase, t.worker ≠ some (record, phase) := by
    intro record phase hphase
    rw [hlater] at hphase
    cases hphase
  refine h.kept he.written_append hkept.active hkept.settles (hin ▸ fun _ => id) ?_ ?_ ?_ ?_
  · exact fun record phase hphase => absurd hphase (hgone record phase)
  · exact fun record phase hphase => absurd hphase (hgone record phase)
  · exact fun record hphase => absurd hphase (hgone record _)
  · intro active record phase _ _ hnone hphase hdispatched _
    exact absurd hnone (hlive record phase hphase hdispatched)

theorem acquire (h : Owned events s) {record : RequestRecord}
    (hnone : s.worker = none) (hunsent : ∀ frame ∈ written events, frame.request ≠ some record.id)
    (hshared : t.shared = s.shared) (hin : t.inFlight = s.inFlight)
    (hworker : t.worker = some (record, .looping)) : Owned (events ++ [.internal]) t := by
  refine h.kept Silent.internal.written_append (hshared ▸ (Shared.Kept.refl _).active)
    (hshared ▸ .refl _) (hin ▸ fun _ => id) ?_ ?_ ?_ ?_
  · intro other phase hphase hdispatched
    rw [hworker] at hphase
    cases hphase
    cases hdispatched
  · intro other phase hphase _ frame hframe hrequest
    rw [hworker] at hphase
    cases hphase
    exact absurd hrequest (hunsent frame hframe)
  · intro other hphase
    rw [hworker] at hphase
    cases hphase
  · intro active other phase _ _ _ hphase
    rw [hnone] at hphase
    cases hphase

theorem dispatch (h : Owned events s) (hpiped : Piped events s) (hsound : s.shared.Sound)
    {record : RequestRecord} {shared : Shared} (hworker : s.worker = some (record, .looping))
    (hdispatch : s.shared.dispatch record = .ok shared) :
    Owned (events ++ [.internal])
      { s with shared := shared, worker := some (record, .sending) } := by
  obtain ⟨hready, hstopping, hsettles, hchannel, hactive⟩ := Shared.dispatch_cases hdispatch
  have hopen := Shared.not_closed hsound hready hstopping
  have hsettled := h.settled record .looping hworker (.inl rfl)
  have hwritten : written (events ++ [.internal]) = written events :=
    Silent.internal.written_append
  have hnotBusy : ¬shared.ToldBusy := by
    rintro ⟨result, hresult, _⟩
    rw [hchannel] at hresult
    cases hresult
  constructor
  case holds =>
    intro other phase hphase _
    cases hphase
    exact .inr ⟨_, hactive, .refl _⟩
  case quiet =>
    intro hnone
    rw [hactive] at hnone
    cases hnone
  case last =>
    -- nothing of this request is in flight yet
    intro active hsome frame hframe hrequest
    rw [hactive] at hsome
    cases hsome
    exact absurd hframe (hsettled frame (hpiped.mem_of_inFlight hframe) hrequest).2
  case synchronized =>
    intro active hsome hsynchronized frame hframe
    rw [hactive] at hsome
    cases hsome
    rcases h.quiet (Option.isNone_iff_eq_none.1 hsynchronized) with hnil | hclosed
    · have hframe : frame ∈ s.inFlight := hframe
      rw [hnil] at hframe
      cases hframe
    · exact absurd hclosed hopen
  case superseded =>
    rw [hwritten]
    intro frame hframe other hother hrequest hsome hlt
    exact settled_of_subset (h.superseded frame hframe other hother hrequest hsome hlt) _
      fun _ => id
  case settled =>
    rw [hwritten]
    intro other phase hphase _ frame hframe hrequest
    cases hphase
    exact settled_of_subset (hsettled frame hframe hrequest) _ fun _ => id
  case sending => exact fun _ _ => hnotBusy
  case live =>
    intro active hsome _
    rw [hactive] at hsome
    cases hsome
    exact ⟨hchannel, record, .sending, rfl, rfl, rfl⟩
  case result =>
    intro active hsome result hresult
    rw [hactive] at hsome
    cases hsome
    cases hresult

theorem expire (h : Owned events s) {record : RequestRecord} {message : String}
    (hworker : s.worker = some (record, .expiring message)) :
    Owned (events ++ [.returns record (s.shared.expire record.id message).1])
      { s with shared := (s.shared.expire record.id message).2, worker := none } := by
  have hsilent := Silent.returns record (s.shared.expire record.id message).1
  have hexpires := @Shared.expire_cases s.shared record.id message
  generalize s.shared.expire record.id message = expired at hsilent hexpires ⊢
  have hactive : s.shared.KeptActive expired.2 ∧
      ∀ active, expired.2.active = some active → active.response = false := by
    cases hexpires with
    | gone hgone hafter _ =>
      rw [hafter]
      refine ⟨.of_eq rfl rfl, fun active hsome => ?_⟩
      by_contra hlive
      rw [Bool.not_eq_false] at hlive
      obtain ⟨_, other, phase, hphase, _, hid⟩ := h.live active hsome hlive
      rw [hworker] at hphase
      cases hphase
      exact hgone active hsome hid.symm
    | told active hsome _ hafter _ =>
      rw [hafter]
      refine ⟨.some active _ hsome rfl Pending.deliver_same rfl rfl ?_, ?_⟩
      · intro hlive
        cases hlive
      intro other hother
      cases hother
      rfl
  refine h.kept hsilent.written_append hactive.1 hexpires.settles (fun _ => id) ?_ ?_ ?_ ?_
  · exact fun _ _ hphase => nomatch hphase
  · exact fun _ _ hphase => nomatch hphase
  · exact fun _ hphase => nomatch hphase
  · intro active _ _ hsome hlive
    rw [hactive.2 active hsome] at hlive
    cases hlive

/-! ## Frames -/

/-- A frame that is written while no older frame of its request is in
flight. -/
theorem write (h : Owned events s) (hpiped : Piped events s) {request : Option String}
    (hshared : t.shared = s.shared) (hin : t.inFlight = s.inFlight ++ [⟨s.frames, request⟩])
    (hclosed : s.shared.active = none → s.shared.Closed)
    (hrequest : ∀ active, s.shared.active = some active →
      request = some active.record.id ∨ request = none)
    (hsettled : ∀ frame ∈ written events, frame.request = request → request ≠ none →
      Settled events s frame)
    (hbefore : ∀ record phase, t.worker = some (record, phase) →
      phase = .written ∧ s.worker = some (record, .sending))
    (hafter : ∀ record phase, s.worker = some (record, phase) →
      t.worker = some (record, .written)) :
    Owned (events ++ [.writes ⟨s.frames, request⟩]) t := by
  have hwritten : written (events ++ [.writes ⟨s.frames, request⟩]) =
      written events ++ [⟨s.frames, request⟩] := written_append _ _
  have hsame : ∀ frame ∈ written events, Settled events s frame →
      Settled (events ++ [.writes ⟨s.frames, request⟩]) t frame := by
    intro frame hframe hold
    refine ⟨hold.1.append _, fun hmem => ?_⟩
    rw [hin] at hmem
    rcases List.mem_append.1 hmem with hmem | hlast
    · exact hold.2 hmem
    · have hlt := hpiped.serial_lt hframe
      rw [List.mem_singleton.1 hlast] at hlt
      exact lt_irrefl _ hlt
  constructor
  case holds =>
    intro record phase hphase _
    obtain ⟨rfl, hsending⟩ := hbefore record phase hphase
    rw [hshared]
    rcases h.holds record .sending hsending rfl with ⟨hnone, _⟩ | hsome
    · exact .inl ⟨hnone, fun hphase => nomatch hphase⟩
    · exact .inr hsome
  case quiet =>
    rw [hshared]
    exact fun hnone => .inr (hclosed hnone)
  case last =>
    rw [hshared, hin, hwritten]
    intro active hsome frame hframe hid other hother hlt
    have hnew : frame ∈ s.inFlight → request = none := by
      intro hmem
      rcases hrequest active hsome with hown | hnone
      · have hold := hsettled frame (hpiped.mem_of_inFlight hmem) (hid.trans hown.symm)
          (by rw [hown]; exact fun hnone => nomatch hnone)
        exact absurd hmem hold.2
      · exact hnone
    rcases List.mem_append.1 hframe with hmem | hlast
    · rcases List.mem_append.1 hother with hold | hotherLast
      · exact h.last active hsome frame hmem hid other hold hlt
      · rw [List.mem_singleton.1 hotherLast]
        exact hnew hmem
    · rw [List.mem_singleton.1 hlast] at hlt
      rcases List.mem_append.1 hother with hold | hotherLast
      · exact absurd (hpiped.serial_lt hold) (lt_asymm hlt)
      · rw [List.mem_singleton.1 hotherLast] at hlt
        exact absurd hlt (lt_irrefl _)
  case synchronized =>
    rw [hshared, hin]
    intro active hsome hsynchronized frame hframe
    rcases List.mem_append.1 hframe with hmem | hlast
    · exact h.synchronized active hsome hsynchronized frame hmem
    · rw [List.mem_singleton.1 hlast]
      exact hrequest active hsome
  case superseded =>
    rw [hwritten]
    intro frame hframe other hother hid hsome hlt
    rcases List.mem_append.1 hframe with hold | hlast
    · refine hsame frame hold ?_
      rcases List.mem_append.1 hother with hotherOld | hotherLast
      · exact h.superseded frame hold other hotherOld hid hsome hlt
      · rw [List.mem_singleton.1 hotherLast] at hid
        exact hsettled frame hold hid fun hnone => hsome (hid.trans hnone)
    · rw [List.mem_singleton.1 hlast] at hlt
      rcases List.mem_append.1 hother with hotherOld | hotherLast
      · exact absurd (hpiped.serial_lt hotherOld) (lt_asymm hlt)
      · rw [List.mem_singleton.1 hotherLast] at hlt
        exact absurd hlt (lt_irrefl _)
  case settled =>
    intro record phase hphase hretries
    obtain ⟨rfl, hsending⟩ := hbefore record phase hphase
    rw [hshared] at hretries
    rcases hretries with hunsent | ⟨_, htold⟩
    · cases hunsent
    · exact absurd htold (h.sending record hsending)
  case sending =>
    intro record hphase
    cases (hbefore record _ hphase).1
  case live =>
    rw [hshared]
    intro active hsome hresponse
    obtain ⟨hnone, record, phase, hphase, _, hid⟩ := h.live active hsome hresponse
    exact ⟨hnone, record, .written, hafter record phase hphase, rfl, hid⟩
  case result =>
    rw [hshared]
    exact h.result

theorem writeRequest (h : Owned events s) (hpiped : Piped events s) {record : RequestRecord}
    (hworker : s.worker = some (record, .sending)) (hstdin : s.stdin = []) :
    Owned (events ++ [.writes ⟨s.frames, some record.id⟩])
      { s with
        worker := some (record, .written)
        stdin := [⟨s.frames, some record.id⟩]
        frames := s.frames + 1 } := by
  have hholds := h.holds record .sending hworker rfl
  refine h.write hpiped rfl ?_ ?_ ?_ ?_ ?_ ?_
  · simp [System.inFlight, hstdin]
  · intro hnone
    rcases hholds with ⟨_, hclosed⟩ | ⟨active, hsome, _⟩
    · exact hclosed rfl
    · rw [hnone] at hsome
      cases hsome
  · intro active hsome
    rcases hholds with ⟨hnone, _⟩ | ⟨other, hother, hsame⟩
    · rw [hnone] at hsome
      cases hsome
    · rw [hsome] at hother
      cases hother
      exact .inl (congrArg some hsame.id.symm)
  · intro frame hframe hrequest _
    exact h.settled record .sending hworker (.inl rfl) frame hframe hrequest
  · intro other phase hphase
    cases hphase
    exact ⟨rfl, hworker⟩
  · intro other phase hphase
    rw [hworker] at hphase
    cases hphase
    rfl

theorem writeShutdown (h : Owned events s) (hpiped : Piped events s)
    (hstopping : Stopping events s) (hstop : s.stop = .locked) (hstdin : s.stdin = []) :
    Owned (events ++ [.writes ⟨s.frames, none⟩])
      { s with stop := .finished, stdin := [⟨s.frames, none⟩], frames := s.frames + 1 } := by
  have hnone := hstopping.locked hstop
  refine h.write hpiped rfl ?_ ?_ ?_ ?_ ?_ ?_
  · simp [System.inFlight, hstdin]
  · exact fun _ => .inr (hstopping.requested (by rw [hstop]; decide))
  · exact fun _ _ => .inr rfl
  · exact fun _ _ _ hsome => absurd rfl hsome
  · intro record phase hphase
    have hphase : s.worker = some (record, phase) := hphase
    rw [hnone] at hphase
    cases hphase
  · intro record phase hphase
    rw [hnone] at hphase
    cases hphase

theorem consume (h : Owned events s) {later : List Frame} {reaction : Reaction}
    (hstdin : s.stdin = frame :: later) :
    Owned (events ++ [.consumes frame reaction])
      { s with stdin := later, output := s.output ++ reaction.lines frame } := by
  refine h.rest ?_ (Shared.Kept.refl _) rfl ?_
  · rw [written_append]
    exact List.append_nil _
  · intro other hother
    have hhead : frame ∈ s.inFlight := by
      refine List.mem_append_right _ ?_
      rw [hstdin]
      exact List.mem_cons_self
    rcases List.mem_append.1 hother with hout | hin
    · obtain ⟨line, hline, rfl⟩ := List.mem_map.1 hout
      rcases List.mem_append.1 hline with hold | hnew
      · exact List.mem_append_left _ (List.mem_map_of_mem hold)
      · rw [Piped.frame_of_mem_lines hnew]
        exact hhead
    · refine List.mem_append_right _ ?_
      rw [hstdin]
      exact List.mem_cons_of_mem _ hin

/-! ## Lines -/

section Handle

variable {line : Line} {later : List Line}

theorem mem_inFlight_of_output (houtput : s.output = line :: later) : line.frame ∈ s.inFlight := by
  refine List.mem_append_left _ (List.mem_map_of_mem ?_)
  rw [houtput]
  exact List.mem_cons_self

theorem inFlight_subset (houtput : s.output = line :: later) (shared : Shared) :
    ∀ frame ∈ ({ s with shared := shared, output := later } : System).inFlight,
      frame ∈ s.inFlight := by
  intro frame hframe
  rcases List.mem_append.1 hframe with hout | hin
  · refine List.mem_append_left _ ?_
    rw [houtput]
    exact List.mem_cons_of_mem _ hout
  · exact List.mem_append_right _ hin

/-- What is in flight behind a line is of a later frame, or of the same one
behind a reply. -/
theorem behind (hpiped : Piped events s) (houtput : s.output = line :: later) {shared : Shared} :
    ∀ frame ∈ ({ s with shared := shared, output := later } : System).inFlight,
      line.frame.serial < frame.serial ∨
        line.frame = frame ∧ ∃ reply, line.content = .reply reply := by
  intro frame hframe
  have hline : line ∈ s.output := by rw [houtput]; exact List.mem_cons_self
  rcases List.mem_append.1 hframe with hout | hin
  · obtain ⟨other, hother, rfl⟩ := List.mem_map.1 hout
    have horder := hpiped.order
    rw [houtput, List.pairwise_cons] at horder
    exact horder.1 other hother
  · exact .inl (hpiped.consumed_lt (hpiped.consumed_of_output hline) hin)

theorem reply_emitted (hpiped : Piped events s) (houtput : s.output = line :: later)
    {reply : Json} (hcontent : line.content = .reply reply) :
    ∃ reaction, Event.consumes line.frame reaction ∈ events ∧ reply ∈ reaction.replies := by
  obtain ⟨reaction, hmem, hline⟩ := hpiped.emitted line (by rw [houtput]; exact List.mem_cons_self)
  refine ⟨reaction, hmem, ?_⟩
  rcases List.mem_append.1 hline with hreply | hmarker
  · obtain ⟨other, hother, heq⟩ := List.mem_map.1 hreply
    rw [← heq] at hcontent
    cases hcontent
    exact hother
  · obtain ⟨_, _, heq⟩ := List.mem_map.1 hmarker
    rw [← heq] at hcontent
    cases hcontent

/-- The identifier of a reply is that of its frame. -/
theorem reply_correlated (hpiped : Piped events s) (houtput : s.output = line :: later)
    {reply : Json} (hcontent : line.content = .reply reply) {id : String}
    (hid : (reply.get "id").asStr? = some id) : line.frame.request = some id := by
  obtain ⟨reaction, hmem, hreply⟩ := reply_emitted hpiped houtput hcontent
  obtain ⟨other, hrequest, hother⟩ := (hpiped.fits _ _ hmem).correlated reply hreply
  rw [hid, Option.some.injEq] at hother
  rw [hrequest, hother]

theorem marker_emitted (hpiped : Piped events s) (houtput : s.output = line :: later)
    {marker : Shared.Marker} (hcontent : line.content = .marker marker) :
    ∃ reaction, Event.consumes line.frame reaction ∈ events ∧ reaction.marker = some marker := by
  obtain ⟨reaction, hmem, hline⟩ := hpiped.emitted line (by rw [houtput]; exact List.mem_cons_self)
  refine ⟨reaction, hmem, ?_⟩
  rcases List.mem_append.1 hline with hreply | hmarker
  · obtain ⟨_, _, heq⟩ := List.mem_map.1 hreply
    rw [← heq] at hcontent
    cases hcontent
  · obtain ⟨other, hother, heq⟩ := List.mem_map.1 hmarker
    rw [← heq] at hcontent
    cases hcontent
    exact Option.mem_toList.1 hother

/-- A reply to the pending request makes it synchronized: nothing older is in
flight behind the reply. -/
theorem reply (h : Owned events s) (hpiped : Piped events s) {response : Json} {shared : Shared}
    (houtput : s.output = line :: later) (hcontent : line.content = .reply response)
    (hheard : s.shared.Heard shared response) :
    Owned (events ++ [.handles line]) { s with shared := shared, output := later } := by
  have hsilent := Silent.handles line
  have hwritten : written (events ++ [.handles line]) = written events := hsilent.written_append
  have hsubset := inFlight_subset houtput shared
  cases hheard with
  | kept hkept => exact h.rest hwritten hkept rfl hsubset
  | reply old new hsettles hbefore hafter hid hrecord hsynchronized hresult hresponse hchannel =>
    have hrequest := reply_correlated hpiped houtput hcontent hid
    refine h.still hwritten (.some old new hbefore hafter hrecord hresponse) hsettles
      (toldBusy_of_kept hchannel) rfl hsubset ?_ ?_
    · intro active hsome _ frame hframe
      rw [show shared.active = some active from hsome] at hafter
      cases hafter
      rw [hrecord.id]
      rcases behind hpiped houtput frame hframe with hlt | ⟨hsame, _⟩
      · right
        exact h.last old hbefore line.frame (mem_inFlight_of_output houtput) hrequest frame
          (hpiped.mem_of_inFlight (hsubset frame hframe)) hlt
      · exact .inl (hsame ▸ hrequest)
    · intro active hsome result hsomeResult
      rw [show shared.active = some active from hsome] at hafter
      cases hafter
      cases hresult with
      | same hsame => exact h.result old hbefore result (hsame ▸ hsomeResult)
      | error error herror hcode =>
        rw [herror] at hsomeResult
        cases hsomeResult
        exact not_busy hcode
      | data data hdata _ =>
        rw [hdata] at hsomeResult
        cases hsomeResult
        rfl

/-- The frame of a marker that a synchronized request hears is its own, or
the shutdown command. -/
theorem marker_request (h : Owned events s) {active : Pending}
    (hactive : s.shared.active = some active) (hsynchronized : active.synchronized = true)
    (houtput : s.output = line :: later) :
    line.frame.request = some active.record.id ∨ line.frame.request = none :=
  h.synchronized active hactive hsynchronized line.frame (mem_inFlight_of_output houtput)

/-- Behind the marker of a synchronized request there is at most the shutdown
command. -/
theorem quiet_behind (h : Owned events s) (hpiped : Piped events s)
    (hstopping : Stopping events s) {active : Pending}
    (hactive : s.shared.active = some active) (hsynchronized : active.synchronized = true)
    (houtput : s.output = line :: later) {marker : Shared.Marker}
    (hcontent : line.content = .marker marker) {shared : Shared}
    (hsettles : s.shared.Settles shared) :
    ({ s with shared := shared, output := later } : System).inFlight = [] ∨ shared.Closed := by
  have hmem := mem_inFlight_of_output houtput
  rcases h.marker_request hactive hsynchronized houtput with hown | hshutdown
  · by_cases hnil : ({ s with shared := shared, output := later } : System).inFlight = []
    · exact .inl hnil
    · obtain ⟨frame, hframe⟩ := List.exists_mem_of_ne_nil _ hnil
      have hwritten := hpiped.mem_of_inFlight (inFlight_subset houtput shared frame hframe)
      rcases behind hpiped houtput frame hframe with hlt | ⟨_, reply, hreply⟩
      · have hnone := h.last active hactive line.frame hmem hown frame hwritten hlt
        exact .inr (hsettles.closed (.inr (hstopping.shutdown frame hwritten hnone)))
      · rw [hcontent] at hreply
        cases hreply
  · have hrequested := hstopping.shutdown _ (hpiped.mem_of_inFlight hmem) hshutdown
    exact .inr (hsettles.closed (.inr hrequested))

/-- A marker that a synchronized request hears while its call holds the lock
is that of its own frame, which was written. -/
theorem marker_own (h : Owned events s) (hpiped : Piped events s) (hstopping : Stopping events s)
    {active : Pending} (hactive : s.shared.active = some active)
    (hsynchronized : active.synchronized = true) (houtput : s.output = line :: later)
    {record : RequestRecord} {phase : Phase} (hworker : s.worker = some (record, phase))
    (hdispatched : phase.dispatched = true) :
    line.frame.request = some record.id ∧ record.id = active.record.id ∧ phase ≠ .sending := by
  have hmem := mem_inFlight_of_output houtput
  have hwritten := hpiped.mem_of_inFlight hmem
  have hid : record.id = active.record.id := by
    rcases h.holds record phase hworker hdispatched with ⟨hnone, _⟩ | ⟨other, hother, hsame⟩
    · rw [hactive] at hnone
      cases hnone
    · rw [hactive] at hother
      cases hother
      exact hsame.id.symm
  have hrequest : line.frame.request = some record.id := by
    rcases h.marker_request hactive hsynchronized houtput with hown | hshutdown
    · rw [hid]
      exact hown
    · exact absurd hshutdown (hstopping.dispatched record phase hworker hdispatched _ hwritten)
  refine ⟨hrequest, hid, ?_⟩
  rintro rfl
  exact (h.settled record .sending hworker (.inl rfl) _ hwritten hrequest).2 hmem

/-- Once the marker of a busy native side was handled, every frame of the
request is settled. -/
theorem settled_of_busy (h : Owned events s) (hpiped : Piped events s)
    (houtput : s.output = line :: later) (hcontent : line.content = .marker .busy)
    {active : Pending} (hactive : s.shared.active = some active)
    (hrequest : line.frame.request = some active.record.id) {shared : Shared}
    (hframe : frame ∈ written events) (hid : frame.request = some active.record.id) :
    Settled (events ++ [.handles line]) { s with shared := shared, output := later } frame := by
  have hmem := mem_inFlight_of_output houtput
  have hline := hpiped.mem_of_inFlight hmem
  have hsubset := inFlight_subset houtput shared
  rcases lt_trichotomy frame.serial line.frame.serial with hlt | heq | hgt
  · exact settled_of_subset (h.superseded frame hframe _ hline (hid.trans hrequest.symm)
      (by rw [hid]; exact fun hnone => nomatch hnone) hlt) _ hsubset
  · obtain rfl := hpiped.eq_of_serial hframe hline heq
    refine ⟨Rejected.append (marker_emitted hpiped houtput hcontent) _, fun hbehind => ?_⟩
    rcases behind hpiped houtput line.frame hbehind with hlt | ⟨_, reply, hreply⟩
    · exact lt_irrefl _ hlt
    · rw [hcontent] at hreply
      cases hreply
  · have hnone := h.last active hactive line.frame hmem hrequest frame hframe hgt
    rw [hid] at hnone
    cases hnone

end Handle

/-- The pending request is dropped. -/
theorem dropped (h : Owned events s) (he : Silent e)
    (hgone : t.shared.active = none) (hworker : t.worker = s.worker)
    (hsubset : ∀ frame ∈ t.inFlight, frame ∈ s.inFlight)
    (hquiet : t.inFlight = [] ∨ t.shared.Closed)
    (hsending : ∀ record, s.worker = some (record, .sending) →
      t.shared.Closed ∧ ¬t.shared.ToldBusy)
    (hsettled : ∀ record phase, s.worker = some (record, phase) → phase.awaiting = true →
      t.shared.ToldBusy → ∀ frame ∈ written events, frame.request = some record.id →
        Settled (events ++ [e]) t frame) : Owned (events ++ [e]) t := by
  have hnone : ∀ active, t.shared.active ≠ some active := by
    intro active hsome
    rw [hgone] at hsome
    cases hsome
  constructor
  case holds =>
    rw [hworker]
    intro record phase hphase _
    refine .inl ⟨hgone, ?_⟩
    rintro rfl
    exact (hsending record hphase).1
  case quiet => exact fun _ => hquiet
  case last => exact fun active hsome => absurd hsome (hnone active)
  case synchronized => exact fun active hsome => absurd hsome (hnone active)
  case superseded =>
    rw [he.written_append]
    intro frame hframe other hother hid hsome hlt
    exact settled_of_subset (h.superseded frame hframe other hother hid hsome hlt) _ hsubset
  case settled =>
    rw [he.written_append, hworker]
    intro record phase hphase hretries frame hframe hid
    rcases hretries with hunsent | ⟨hawaiting, htold⟩
    · exact settled_of_subset (h.settled record phase hphase (.inl hunsent) frame hframe hid) _
        hsubset
    · exact hsettled record phase hphase hawaiting htold frame hframe hid
  case sending =>
    rw [hworker]
    exact fun record hphase => (hsending record hphase).2
  case live => exact fun active hsome => absurd hsome (hnone active)
  case result => exact fun active hsome => absurd hsome (hnone active)

/-- What the channel says after the pending request was dropped. -/
theorem toldBusy_of_told {shared after : Shared} {active : Pending} {result : DriverResult}
    (h : shared.Told after active result) (hbusy : after.ToldBusy) :
    shared.ToldBusy ∨ isBusy result = true := by
  obtain ⟨told, htold, hisBusy⟩ := hbusy
  rw [h.channel, Pending.send] at htold
  split at htold
  · cases htold
    exact .inr hisBusy
  · exact .inl ⟨told, htold, hisBusy⟩

theorem gives_not_busy (h : Owned events s) {active : Pending}
    (hactive : s.shared.active = some active) {result : DriverResult}
    (hgives : active.Gives result) : isBusy result = false := by
  rcases hgives with hsome | ⟨error, rfl, hcode⟩
  · exact h.result active hactive result hsome
  · exact not_busy hcode

/-- The pending request is dropped with a result that is no refusal. -/
theorem told (h : Owned events s) (he : Silent e) (hworker : t.worker = s.worker)
    (hsubset : ∀ frame ∈ t.inFlight, frame ∈ s.inFlight) {active : Pending}
    {result : DriverResult} (htold : s.shared.Told t.shared active result)
    (hgives : active.Gives result) (hquiet : t.inFlight = [] ∨ t.shared.Closed)
    (hsending : ∀ record, s.worker = some (record, .sending) → t.shared.Closed) :
    Owned (events ++ [e]) t := by
  have hbusy : t.shared.ToldBusy → s.shared.ToldBusy := by
    intro hafter
    rcases toldBusy_of_told htold hafter with hbefore | hresult
    · exact hbefore
    · rw [h.gives_not_busy htold.pending hgives] at hresult
      cases hresult
  refine h.dropped he htold.gone hworker hsubset hquiet ?_ ?_
  · exact fun record hphase =>
      ⟨hsending record hphase, fun hafter => h.sending record hphase (hbusy hafter)⟩
  · intro record phase hphase hawaiting hafter frame hframe hid
    exact settled_of_subset (h.settled record phase hphase (.inr ⟨hawaiting, hbusy hafter⟩) frame
      hframe hid) _ hsubset

theorem awaiting_dispatched {phase : Phase} (h : phase.awaiting = true) :
    phase.dispatched = true := by
  cases phase with
  | written => rfl
  | receiving => rfl
  | looping => cases h
  | sending => cases h
  | backoff => cases h
  | expiring message => cases h

theorem marker (h : Owned events s) (hpiped : Piped events s) (hstopping : Stopping events s)
    {line : Line} {later : List Line} {marker : Shared.Marker} {shared : Shared}
    (houtput : s.output = line :: later) (hcontent : line.content = .marker marker)
    (hbarrier : s.shared.Barrier shared marker) :
    Owned (events ++ [.handles line]) { s with shared := shared, output := later } := by
  have hsilent := Silent.handles line
  have hsubset := inFlight_subset houtput shared
  cases hbarrier with
  | kept hkept => exact h.rest hsilent.written_append hkept rfl hsubset
  | done active result _ hsynchronized htold hgives =>
    have hquiet := h.quiet_behind hpiped hstopping htold.pending hsynchronized houtput hcontent
      htold.settles
    refine h.told hsilent rfl hsubset htold hgives hquiet ?_
    intro record hphase
    obtain ⟨_, _, hnot⟩ :=
      h.marker_own hpiped hstopping htold.pending hsynchronized houtput hphase rfl
    exact absurd rfl hnot
  | busy active error hmarker hsynchronized htold =>
    subst hmarker
    obtain ⟨hsettles, hactive, hgone, _⟩ := htold
    refine h.dropped hsilent hgone rfl hsubset
      (h.quiet_behind hpiped hstopping hactive hsynchronized houtput hcontent hsettles) ?_ ?_
    · intro record hphase
      obtain ⟨_, _, hnot⟩ :=
        h.marker_own hpiped hstopping hactive hsynchronized houtput hphase rfl
      exact absurd rfl hnot
    · intro record phase hphase hawaiting _ frame hframe hid
      obtain ⟨hrequest, hsame, _⟩ := h.marker_own hpiped hstopping hactive hsynchronized houtput
        hphase (awaiting_dispatched hawaiting)
      rw [hsame] at hrequest hid
      exact h.settled_of_busy hpiped houtput hcontent hactive hrequest hframe hid

theorem exit (h : Owned events s) (report : Except String ExitReport) :
    Owned (events ++ [.internal])
      { s with shared := s.shared.exited report, pumping := false } := by
  obtain ⟨hclosed, hcases⟩ := @Shared.exited_cases s.shared report
  rcases hcases with ⟨hnone, hgone, hsettles, hchannel⟩ | ⟨active, result, htold, hgives⟩
  · exact h.rest Silent.internal.written_append (.of_eq hsettles (hgone.trans hnone.symm) hchannel)
      rfl fun _ => id
  · exact h.told .internal rfl (fun _ => id) htold hgives (.inr hclosed) fun _ _ => hclosed

theorem step (h : Owned events s) (hpiped : Piped events s) (hnamed : Named events s)
    (hstopping : Stopping events s) (hstep : Step s e t) : Owned (events ++ [e]) t := by
  cases hstep with
  | submit => exact h.rest Silent.internal.written_append (.refl _) rfl fun _ => id
  | expireWaiting record =>
    exact h.rest (Silent.returns _ _).written_append (.refl _) rfl fun _ => id
  | acquire record earlier later hwaiting hworker _ =>
    have hrecord := (hnamed.waiting record (by rw [hwaiting]; simp)).2
    refine h.acquire hworker hrecord ?_ ?_ ?_
    · rfl
    · rfl
    · rfl
  | dispatch record shared hworker hdispatch =>
    exact h.dispatch hpiped hstopping.sound hworker hdispatch
  | refuse record error hworker _ =>
    refine h.release (.returns _ _) (.refl _) rfl rfl ?_
    intro other phase hphase hdispatched
    rw [hworker] at hphase
    cases hphase
    cases hdispatched
  | write record hworker hstdin => exact h.writeRequest hpiped hworker hstdin
  | writeFails record message hworker =>
    refine h.moves .internal hworker (.refl _) rfl rfl ?_ ?_ ?_ ?_
    · exact fun hphase => nomatch hphase
    · exact fun _ => rfl
    · rintro (hunsent | ⟨hawaiting, _⟩)
      · cases hunsent
      · cases hawaiting
    · exact fun _ _ => rfl
  | markWritten record hworker =>
    have hkept : s.shared.Kept s.shared.markWritten := Shared.markWritten_kept
    refine h.moves .internal hworker hkept rfl rfl ?_ ?_ ?_ ?_
    · exact fun hphase => nomatch hphase
    · exact fun _ => rfl
    · rintro (hunsent | ⟨_, htold⟩)
      · cases hunsent
      · exact .inr ⟨rfl, toldBusy_of_kept hkept.channel htold⟩
    · exact fun _ _ => rfl
  | receiveBusy record result hworker hchannel hbusy =>
    refine h.moves .internal hworker (.refl _) rfl rfl ?_ ?_ ?_ ?_
    · exact fun hphase => nomatch hphase
    · exact fun hdispatched => nomatch hdispatched
    · exact fun _ => .inr ⟨rfl, result, hchannel, hbusy⟩
    · intro _ hnone
      rw [hchannel] at hnone
      cases hnone
  | receive record result hworker hchannel _ =>
    refine h.release (.returns _ _) (.refl _) rfl rfl ?_
    intro _ _ _ _ hnone
    rw [hchannel] at hnone
    cases hnone
  | timeout record hworker _ =>
    refine h.moves .internal hworker (.refl _) rfl rfl ?_ ?_ ?_ ?_
    · exact fun hphase => nomatch hphase
    · exact fun _ => rfl
    · rintro (hunsent | ⟨hawaiting, _⟩)
      · cases hunsent
      · cases hawaiting
    · exact fun _ _ => rfl
  | retry record hworker =>
    refine h.moves .internal hworker (.refl _) rfl rfl ?_ ?_ ?_ ?_
    · exact fun hphase => nomatch hphase
    · exact fun hdispatched => nomatch hdispatched
    · exact fun _ => .inl rfl
    · exact fun hdispatched => nomatch hdispatched
  | giveUp record hworker =>
    refine h.release (.returns _ _) (.refl _) rfl rfl ?_
    intro other phase hphase hdispatched
    rw [hworker] at hphase
    cases hphase
    cases hdispatched
  | expire record message hworker => exact h.expire hworker
  | requestStop =>
    exact h.rest Silent.internal.written_append Shared.requestStop_kept rfl fun _ => id
  | lockStop | leaveStop =>
    exact h.rest Silent.internal.written_append (.refl _) rfl fun _ => id
  | writeShutdown hstop hstdin => exact h.writeShutdown hpiped hstopping hstop hstdin
  | consume frame later reaction hstdin _ => exact h.consume hstdin
  | handle line later fresh houtput _ =>
    cases hcontent : line.content with
    | reply response =>
      exact h.reply hpiped houtput hcontent (Shared.handleReply_heard fresh response)
    | marker marker =>
      exact h.marker hpiped hstopping houtput hcontent (Shared.nativeBarrier_cases marker)
  | bootstrap value =>
    exact h.rest Silent.internal.written_append
      (Shared.handleRecord_kept (fun _ _ => Shared.bootstrap_kept) value) rfl fun _ => id
  | control value =>
    exact h.rest Silent.internal.written_append
      (Shared.handleRecord_kept (fun _ _ => Shared.control_kept) value) rfl fun _ => id
  | lifecycle text =>
    exact h.rest Silent.internal.written_append (Shared.handleLifecycle_kept text) rfl fun _ => id
  | fault message =>
    exact h.rest Silent.internal.written_append (Shared.fail_kept message) rfl fun _ => id
  | exit report => exact h.exit report

end Owned

end DstServer.Driver
