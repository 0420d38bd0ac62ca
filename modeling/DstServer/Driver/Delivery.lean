import DstServer.Driver.Ownership

/-!
# What a caller is told

`driver_delivery` is about every run of the driver and the game.  A frame is
written again only after the native side refused that very frame, so a
request runs at most once; the data that a caller gets was emitted for its
own identifier, in the generation of its request; and a marker settles no
other request than the one whose frame it ends.

The data of a presence request is not what the native side emitted: its
epoch is replaced.  A caller can also get the data of a generation that has
ended, when the generation changes while the call expires.  `late_presence`
is a run in which both happen.
-/

namespace DstServer.Driver

open Lib Shared

/-- The native side emitted this data for the request, in its generation. -/
def Emitted (events : List Event) (record : RequestRecord) (data : Json) : Prop :=
  ∃ frame reaction reply, Event.consumes frame reaction ∈ events ∧
    frame.request = some record.id ∧ reply ∈ reaction.replies ∧ Answers record reply data

theorem Emitted.append {events : List Event} {record : RequestRecord} {data : Json}
    (h : Emitted events record data) (later : List Event) :
    Emitted (events ++ later) record data := by
  obtain ⟨frame, reaction, reply, hmem, hemitted⟩ := h
  exact ⟨frame, reaction, reply, List.mem_append_left _ hmem, hemitted⟩

theorem Emitted.same {events : List Event} {before after : RequestRecord} {data : Json}
    (h : Emitted events before data) (hsame : before.Same after ∨ after.Same before) :
    Emitted events after data := by
  have heq : after.id = before.id ∧ after.method = before.method ∧
      after.generation = before.generation := by
    rcases hsame with hsame | hsame
    · exact ⟨hsame.id, hsame.method, hsame.generation⟩
    · exact ⟨hsame.id.symm, hsame.method.symm, hsame.generation.symm⟩
  obtain ⟨hid, hmethod, hgeneration⟩ := heq
  obtain ⟨frame, reaction, reply, hmem, hrequest, hreply, hanswers⟩ := h
  refine ⟨frame, reaction, reply, hmem, hid ▸ hrequest, hreply, ?_, hanswers.ok, ?_⟩
  · rw [hgeneration]
    exact hanswers.generation
  · rw [hmethod]
    exact hanswers.data

/-- The data on its way to a caller was emitted for it. -/
structure Faithful (events : List Event) (s : System) : Prop where
  pending : ∀ active, s.shared.active = some active → ∀ data,
    active.result = some (.ok data) → Emitted events active.record data
  channel : ∀ record phase, s.worker = some (record, phase) → phase.dispatched = true →
    ∀ data, s.shared.channel = some (.ok data) → Emitted events record data

namespace Faithful

variable {events : List Event} {s t : System} {e : Event}

theorem kept (h : Faithful events s) (hkept : s.shared.Kept t.shared)
    (hworker : ∀ record phase, t.worker = some (record, phase) → phase.dispatched = true →
      ∃ earlier, s.worker = some (record, earlier) ∧ earlier.dispatched = true) :
    Faithful (events ++ [e]) t := by
  constructor
  case pending =>
    intro active hactive data hdata
    cases hkept.active with
    | none _ hgone => rw [hgone] at hactive; cases hactive
    | some old new hold hnew hrecord _ hresult =>
      rw [hnew] at hactive
      cases hactive
      rw [hresult] at hdata
      exact ((h.pending old hold data hdata).same (.inl hrecord)).append _
  case channel =>
    intro record phase hphase hdispatched data hdata
    obtain ⟨earlier, hearlier, hwas⟩ := hworker record phase hphase hdispatched
    rcases hkept.channel with hsame | ⟨error, htold, _⟩
    · rw [hsame] at hdata
      exact (h.channel record earlier hearlier hwas data hdata).append _
    · rw [htold] at hdata
      cases hdata

/-- The worker stays as it is. -/
theorem rest (h : Faithful events s) (hkept : s.shared.Kept t.shared)
    (hworker : t.worker = s.worker) : Faithful (events ++ [e]) t :=
  h.kept hkept fun _ phase hphase hdispatched => ⟨phase, hworker ▸ hphase, hdispatched⟩

/-- The worker moves on, and nothing else changes. -/
theorem moves (h : Faithful events s) {record : RequestRecord} {earlier later : Phase}
    (hworker : s.worker = some (record, earlier)) (hkept : s.shared.Kept t.shared)
    (hlater : t.worker = some (record, later))
    (hdispatched : later.dispatched = true → earlier.dispatched = true) :
    Faithful (events ++ [e]) t := by
  refine h.kept hkept ?_
  intro other phase hphase hnow
  rw [hlater] at hphase
  cases hphase
  exact ⟨earlier, hworker, hdispatched hnow⟩

theorem release (h : Faithful events s) (hkept : s.shared.Kept t.shared) (hlater : t.worker = none) :
    Faithful (events ++ [e]) t := by
  refine h.kept hkept ?_
  intro record phase hphase
  rw [hlater] at hphase
  cases hphase

theorem of_dispatch {record : RequestRecord} {shared : Shared}
    (hdispatch : s.shared.dispatch record = .ok shared) :
    Faithful (events ++ [.internal])
      { s with shared := shared, worker := some (record, .sending) } := by
  obtain ⟨_, _, _, hchannel, hactive⟩ := dispatch_cases hdispatch
  constructor
  case pending =>
    intro active hsome data hdata
    rw [hactive] at hsome
    cases hsome
    cases hdata
  case channel =>
    intro _ _ _ _ data hdata
    rw [hchannel] at hdata
    cases hdata

/-- The pending request is that of the worker. -/
theorem emitted_of_pending (h : Faithful events s) (howned : Owned events s) {active : Pending}
    (hactive : s.shared.active = some active) {record : RequestRecord} {phase : Phase}
    (hworker : s.worker = some (record, phase)) (hdispatched : phase.dispatched = true)
    {data : Json} (hdata : active.result = some (.ok data)) : Emitted events record data := by
  rcases howned.holds record phase hworker hdispatched with ⟨hnone, _⟩ | ⟨other, hother, hsame⟩
  · rw [hactive] at hnone
    cases hnone
  · rw [hactive] at hother
    cases hother
    exact (h.pending active hactive data hdata).same (.inr hsame)

theorem emitted_of_expire (h : Faithful events s) (howned : Owned events s)
    {record : RequestRecord} {message : String}
    (hworker : s.worker = some (record, .expiring message)) {data : Json}
    (hdata : (s.shared.expire record.id message).1 = .ok data) : Emitted events record data := by
  cases @expire_cases s.shared record.id message with
  | gone _ _ hresult => exact absurd hdata (hresult data)
  | told active hactive _ _ hresult =>
    exact h.emitted_of_pending howned hactive hworker rfl (hresult data hdata)

theorem expire (h : Faithful events s) {record : RequestRecord} {message : String} :
    Faithful (events ++ [e])
      { s with shared := (s.shared.expire record.id message).2, worker := none } := by
  constructor
  case pending =>
    intro active hactive data hdata
    cases @expire_cases s.shared record.id message with
    | gone _ hafter _ =>
      rw [hafter] at hactive
      exact (h.pending active hactive data hdata).append _
    | told old hold _ hafter _ =>
      rw [hafter] at hactive
      cases hactive
      exact ((h.pending old hold data hdata).same (.inl Pending.deliver_same)).append _
  case channel => exact fun _ _ hphase => nomatch hphase

/-- The pending request is dropped, and its caller told what the native side
gave it. -/
theorem told (h : Faithful events s) (howned : Owned events s) {active : Pending}
    {result : DriverResult} (htold : s.shared.Told t.shared active result)
    (hresult : ∀ data, result = .ok data → active.result = some (.ok data))
    (hworker : t.worker = s.worker) : Faithful (events ++ [e]) t := by
  constructor
  case pending =>
    intro other hother
    rw [htold.gone] at hother
    cases hother
  case channel =>
    intro record phase hphase hdispatched data hdata
    rw [hworker] at hphase
    rw [htold.channel, Pending.send] at hdata
    split at hdata
    · rw [Option.some.injEq] at hdata
      exact (h.emitted_of_pending howned htold.pending hphase hdispatched
        (hresult data hdata)).append _
    · exact (h.channel record phase hphase hdispatched data hdata).append _

theorem data_of_gives {active : Pending} {result : DriverResult} (hgives : active.Gives result)
    (data : Json) (hdata : result = .ok data) : active.result = some (.ok data) := by
  rcases hgives with hsome | ⟨error, herror, _⟩
  · rw [hsome, hdata]
  · rw [hdata] at herror
    cases herror

theorem reply (h : Faithful events s) (hpiped : Piped events s) {line : Line} {later : List Line}
    {response : Json} {shared : Shared} (houtput : s.output = line :: later)
    (hcontent : line.content = .reply response) (hheard : s.shared.Heard shared response) :
    Faithful (events ++ [e]) { s with shared := shared, output := later } := by
  cases hheard with
  | kept hkept => exact h.rest hkept rfl
  | reply old new _ hbefore hafter hid hrecord _ hresult _ hchannel =>
    constructor
    case pending =>
      intro active hactive data hdata
      rw [show shared.active = some active from hactive] at hafter
      cases hafter
      refine Emitted.append (Emitted.same ?_ (.inl hrecord)) _
      cases hresult with
      | same hsame => exact h.pending old hbefore data (hsame ▸ hdata)
      | error error herror _ => rw [herror] at hdata; cases hdata
      | data found hfound hanswers =>
        rw [hfound] at hdata
        cases hdata
        obtain ⟨reaction, hmem, hreply⟩ := Owned.reply_emitted hpiped houtput hcontent
        exact ⟨line.frame, reaction, response, hmem,
          Owned.reply_correlated hpiped houtput hcontent hid, hreply, hanswers⟩
    case channel =>
      intro record phase hphase hdispatched data hdata
      rcases hchannel with hsame | ⟨error, htold, _⟩
      · exact (h.channel record phase hphase hdispatched data (hsame ▸ hdata)).append _
      · rw [show shared.channel = _ from hdata] at htold
        cases htold

theorem step (h : Faithful events s) (hpiped : Piped events s) (howned : Owned events s)
    (hstep : Step s e t) : Faithful (events ++ [e]) t := by
  cases hstep with
  | submit | expireWaiting | lockStop | leaveStop | writeShutdown | consume =>
    exact h.rest (.refl _) rfl
  | requestStop => exact h.rest requestStop_kept rfl
  | bootstrap value => exact h.rest (handleRecord_kept (fun _ _ => bootstrap_kept) value) rfl
  | control value => exact h.rest (handleRecord_kept (fun _ _ => control_kept) value) rfl
  | lifecycle text => exact h.rest (handleLifecycle_kept text) rfl
  | fault message => exact h.rest (fail_kept message) rfl
  | acquire record earlier later _ _ _ =>
    refine h.kept (.refl _) ?_
    intro other phase hphase hdispatched
    cases hphase
    cases hdispatched
  | dispatch record shared _ hdispatch => exact of_dispatch hdispatch
  | refuse | receive | giveUp => exact h.release (.refl _) rfl
  | write record hworker _ | writeFails record _ hworker | timeout record hworker _ =>
    exact h.moves hworker (.refl _) rfl fun _ => rfl
  | markWritten record hworker => exact h.moves hworker markWritten_kept rfl fun _ => rfl
  | receiveBusy record _ hworker _ _ | retry record hworker =>
    exact h.moves hworker (.refl _) rfl fun hdispatched => nomatch hdispatched
  | expire record message _ => exact h.expire
  | handle line later fresh houtput _ =>
    cases hcontent : line.content with
    | reply response => exact h.reply hpiped houtput hcontent (handleReply_heard fresh response)
    | marker marker =>
      have hbarrier : s.shared.Barrier (s.shared.nativeBarrier marker) marker :=
        nativeBarrier_cases marker
      cases hbarrier with
      | kept hkept => exact h.rest hkept rfl
      | busy active error _ _ htold =>
        exact h.told howned htold (fun _ hdata => nomatch hdata) rfl
      | done active result _ _ htold hgives =>
        exact h.told howned htold (data_of_gives hgives) rfl
  | exit report =>
    rcases (@exited_cases s.shared report).2 with
      ⟨hnone, hgone, hsettles, hchannel⟩ | ⟨active, result, htold, hgives⟩
    · exact h.rest (.of_eq hsettles (hgone.trans hnone.symm) hchannel) rfl
    · exact h.told howned htold (data_of_gives hgives) rfl

end Faithful

/-! ## Runs -/

/-- Everything that holds after a run. -/
structure Reached (events : List Event) (s : System) : Prop where
  piped : Piped events s
  named : Named events s
  stopping : Stopping events s
  owned : Owned events s
  faithful : Faithful events s

theorem reached_attach (nonce : String) : Reached [] { shared := attach nonce } := by
  constructor
  case piped =>
    constructor
    case fifo | numbered => rfl
    case order => exact List.Pairwise.nil
    all_goals intros; contradiction
  case named =>
    constructor
    case distinct => exact List.nodup_nil
    all_goals intros; contradiction
  case stopping =>
    constructor
    case sound => constructor <;> intros <;> contradiction
    all_goals intros; contradiction
  case owned =>
    constructor
    case quiet => exact fun _ => .inl rfl
    all_goals intros; contradiction
  case faithful =>
    constructor
    all_goals intros; contradiction

theorem DriverRun.reached {nonce : String} {events : List Event} {s : System}
    (h : DriverRun nonce events s) : Reached events s := by
  induction h with
  | nil => exact reached_attach nonce
  | snoc _ hstep ih =>
    exact ⟨ih.piped.step hstep, ih.named.step hstep, ih.stopping.step hstep,
      ih.owned.step ih.piped ih.named ih.stopping hstep, ih.faithful.step ih.piped ih.owned hstep⟩

/-- A frame is consumed at most once. -/
theorem consumes_unique {nonce : String} {events : List Event} {s : System}
    (h : DriverRun nonce events s) {frame : Frame} {first second : Reaction}
    (hfirst : Event.consumes frame first ∈ events)
    (hsecond : Event.consumes frame second ∈ events) : first = second := by
  induction h with
  | nil => cases hfirst
  | @snoc ls t u l hrun hstep ih =>
    have hnew : ∀ reaction other, Event.consumes frame reaction ∈ ls →
        l = .consumes frame other → False := by
      rintro reaction other hold rfl
      cases hstep with
      | consume _ later _ hstdin _ =>
        have hhead : frame ∈ t.stdin := by rw [hstdin]; exact List.mem_cons_self
        exact (DriverRun.reached hrun).piped.stdin_not_consumed hhead
          (mem_consumed.2 ⟨reaction, hold⟩)
    rcases List.mem_append.1 hfirst with hfirst | hfirst
    · rcases List.mem_append.1 hsecond with hsecond | hsecond
      · exact ih hfirst hsecond
      · exact absurd (List.mem_singleton.1 hsecond).symm (hnew first second hfirst)
    · rw [List.mem_singleton] at hfirst
      rcases List.mem_append.1 hsecond with hsecond | hsecond
      · exact absurd hfirst.symm (hnew second first hsecond)
      · rw [List.mem_singleton, ← hfirst] at hsecond
        cases hsecond
        rfl

/-- A frame of a request is written again only after the native side refused
the frame before. -/
theorem rejected_of_rewrite {nonce : String} {s : System} {earlier middle later : List Event}
    {frame again : Frame}
    (h : DriverRun nonce (earlier ++ .writes frame :: (middle ++ .writes again :: later)) s)
    (hrequest : frame.request = again.request) (hsome : frame.request ≠ none) :
    ∃ reaction, Event.consumes frame reaction ∈ middle ∧ reaction.marker = some .busy := by
  have hsplit : earlier ++ .writes frame :: (middle ++ .writes again :: later) =
      (earlier ++ (.writes frame :: (middle ++ [.writes again]))) ++ later := by simp
  rw [hsplit] at h
  obtain ⟨t, hrun, _⟩ := h.split
  have hreached := DriverRun.reached hrun
  have hwritten : written (earlier ++ (.writes frame :: (middle ++ [.writes again]))) =
      written earlier ++ (frame :: (written middle ++ [again])) := by
    simp [written, writtenFrame]
  have horder := hreached.piped.pairwise
  rw [hwritten, List.pairwise_append, List.pairwise_cons] at horder
  have hlt : frame.serial < again.serial := horder.2.1.1 again (by simp)
  obtain ⟨⟨reaction, hmem, hmarker⟩, _⟩ := hreached.owned.superseded frame
    (by rw [hwritten]; simp) again (by rw [hwritten]; simp) hrequest hsome hlt
  refine ⟨reaction, ?_, hmarker⟩
  rcases List.mem_append.1 hmem with hearlier | hrest
  · -- the frame was not written yet
    obtain ⟨before, hbefore, _⟩ := hrun.split
    have hold := (DriverRun.reached hbefore).piped.mem_of_consumed
      (mem_consumed.2 ⟨reaction, hearlier⟩)
    exact absurd (horder.2.2 frame hold frame List.mem_cons_self) (lt_irrefl _)
  · simpa using hrest

/-- The frames of a request that the game ran. -/
def runsOf (id : String) (events : List Event) : List Frame :=
  events.filterMap fun e => match e with
    | .consumes frame reaction =>
      if reaction.ran = true ∧ frame.request = some id then some frame else none
    | _ => none

theorem mem_runsOf {id : String} {events : List Event} {frame : Frame} :
    frame ∈ runsOf id events ↔ frame.request = some id ∧
      ∃ reaction, Event.consumes frame reaction ∈ events ∧ reaction.ran = true := by
  unfold runsOf
  rw [List.mem_filterMap]
  constructor
  · rintro ⟨e, he, heq⟩
    split at heq
    · rename_i other reaction
      split at heq
      · rename_i hran
        cases heq
        exact ⟨hran.2, reaction, he, hran.1⟩
      · cases heq
    · cases heq
  · rintro ⟨hrequest, reaction, hmem, hran⟩
    exact ⟨_, hmem, if_pos ⟨hran, hrequest⟩⟩

theorem runsOf_sublist (id : String) (events : List Event) :
    (runsOf id events).Sublist (consumed events) := by
  unfold runsOf consumed
  induction events with
  | nil => exact List.Sublist.slnil
  | cons e events ih =>
    cases e with
    | consumes frame reaction =>
      rw [List.filterMap_cons, List.filterMap_cons]
      simp only [consumedFrame]
      split
      · exact ih.cons _
      · rename_i found hfound
        split at hfound
        · cases hfound
          exact ih.cons_cons _
        · cases hfound
    | writes | handles | returns | internal => exact ih

/-- A request runs at most once. -/
theorem runsOf_length_le {nonce : String} {events : List Event} {s : System}
    (h : DriverRun nonce events s) (id : String) : (runsOf id events).length ≤ 1 := by
  have hreached := DriverRun.reached h
  have hwritten : (consumed events).Sublist (written events) := by
    rw [← hreached.piped.fifo]
    exact List.sublist_append_left _ _
  have hpairwise : (runsOf id events).Pairwise fun first second => first.serial < second.serial :=
    hreached.piped.pairwise.sublist ((runsOf_sublist id events).trans hwritten)
  -- the first of two frames was refused, and not run
  match hruns : runsOf id events with
  | [] => exact Nat.zero_le _
  | [_] => exact le_rfl
  | first :: second :: rest =>
    rw [hruns, List.pairwise_cons] at hpairwise
    have hmem : ∀ frame ∈ runsOf id events, frame ∈ written events := fun frame hframe =>
      (hwritten.subset ((runsOf_sublist id events).subset hframe))
    have hfirst : first ∈ runsOf id events := by rw [hruns]; simp
    have hsecond : second ∈ runsOf id events := by rw [hruns]; simp
    obtain ⟨hrequest, reaction, hconsumed, hran⟩ := mem_runsOf.1 hfirst
    obtain ⟨hagain, _⟩ := mem_runsOf.1 hsecond
    obtain ⟨⟨refusal, hrefused, hbusy⟩, _⟩ := hreached.owned.superseded first (hmem first hfirst)
      second (hmem second hsecond) (hrequest.trans hagain.symm)
      (by rw [hrequest]; exact fun hnone => nomatch hnone) (hpairwise.1 second (by simp))
    have hsame := consumes_unique h hconsumed hrefused
    have hrefusedRan := (hreached.piped.fits first refusal hrefused).busy hbusy
    rw [← hsame, hran] at hrefusedRan
    cases hrefusedRan

/-- The data that a call returns was emitted for its request. -/
theorem emitted_of_returns {nonce : String} {s : System} {earlier later : List Event}
    {record : RequestRecord} {data : Json}
    (h : DriverRun nonce (earlier ++ .returns record (.ok data) :: later) s) :
    Emitted earlier record data := by
  obtain ⟨before, after, hbefore, hstep, _⟩ := Run.split_at h
  have hreached := DriverRun.reached hbefore
  generalize he : Event.returns record (.ok data) = e at hstep
  cases hstep with
  | receive _ result hworker hchannel _ =>
    cases he
    exact hreached.faithful.channel record _ hworker rfl data hchannel
  | expire _ message hworker =>
    rw [Event.returns.injEq] at he
    obtain ⟨rfl, hdata⟩ := he
    exact hreached.faithful.emitted_of_expire hreached.owned hworker hdata.symm
  | _ => cases he

/-- The marker that settles a request whose caller waits ends the last frame
of that request. -/
theorem marker_settles_own {nonce : String} {events : List Event} {s : System}
    (h : DriverRun nonce events s) {line : Line} {later : List Line} {marker : Marker}
    {active : Pending} (houtput : s.output = line :: later)
    (hactive : s.shared.active = some active) (hwaits : active.response = true)
    (hsettles : (s.shared.nativeBarrier marker).active = none) :
    line.frame.request = some active.record.id ∧
      ∀ frame ∈ written events, frame.request = some active.record.id →
        frame.serial ≤ line.frame.serial := by
  have hreached := DriverRun.reached h
  have hsynchronized : active.synchronized = true := by
    by_contra hnot
    rw [Bool.not_eq_true] at hnot
    rw [nativeBarrier, hactive] at hsettles
    simp [hnot, unmatched, hactive] at hsettles
  obtain ⟨_, record, phase, hworker, hdispatched, hid⟩ :=
    hreached.owned.live active hactive hwaits
  obtain ⟨hrequest, _, _⟩ := hreached.owned.marker_own hreached.piped hreached.stopping hactive
    hsynchronized houtput hworker hdispatched
  rw [hid] at hrequest
  refine ⟨hrequest, fun frame hframe hsame => ?_⟩
  by_contra hlt
  rw [not_le] at hlt
  have hnone := hreached.owned.last active hactive line.frame
    (Owned.mem_inFlight_of_output houtput) hrequest frame hframe hlt
  rw [hsame] at hnone
  cases hnone

/-- Requests run at most once, and replies never cross. -/
theorem driver_delivery {nonce : String} {events : List Event} {s : System}
    (h : DriverRun nonce events s) :
    (∀ earlier frame middle again later,
      events = earlier ++ .writes frame :: (middle ++ .writes again :: later) →
      frame.request = again.request → frame.request ≠ none →
        ∃ reaction, Event.consumes frame reaction ∈ middle ∧ reaction.marker = some .busy) ∧
    (∀ id, (runsOf id events).length ≤ 1) ∧
    (∀ earlier record data later, events = earlier ++ .returns record (.ok data) :: later →
      Emitted earlier record data) ∧
    (∀ line later marker active, s.output = line :: later →
      line.content = .marker marker → s.shared.active = some active → active.response = true →
      (s.shared.nativeBarrier marker).active = none →
        line.frame.request = some active.record.id ∧
          ∀ frame ∈ written events, frame.request = some active.record.id →
            frame.serial ≤ line.frame.serial) := by
  refine ⟨?_, runsOf_length_le h, ?_, ?_⟩
  · rintro earlier frame middle again later rfl hrequest hsome
    exact rejected_of_rewrite h hrequest hsome
  · rintro earlier record data later rfl
    exact emitted_of_returns h
  · intro line later marker active houtput _ hactive hwaits hsettles
    exact marker_settles_own h houtput hactive hwaits hsettles

/-! ## A presence request that expires -/

/-- The health of this generation. -/
def sampleHealth (generation : String) : Json :=
  .object [("health", .object [
      ("capabilities", .object [("players", .string "active")]),
      ("generation", .number generation),
      ("protocol", .number "3"),
      ("telemetry_status", .string "active")]),
    ("nonce", .string "nonce")]

def sampleRecord : RequestRecord := { id := "request", method := "presence", generation := 1 }

def sampleReply : Json :=
  .object [
    ("generation", .number "1"),
    ("id", .string "request"),
    ("nonce", .string "nonce"),
    ("result", .object [
      ("data", .object [("observation_epoch", .number "5")]),
      ("ok", .bool true)]),
    ("v", .number "1")]

/-- The data that the caller gets for the reply. -/
def sampleData : Json := .object [("observation", .string "observation")]

def sampleNative : Shared := (attach "nonce").handleLifecycle "DST_Master_Ready"

def sampleReady : Shared := sampleNative.handleRecord bootstrap (some (sampleHealth "1"))

def sampleDispatched : Shared :=
  { sampleReady with
    active := some { record := sampleRecord, result := none, response := true, synchronized := true }
    state := { sampleReady.state with recentRequest := some sampleRecord } }

def sampleHeard : Shared := sampleDispatched.markWritten.handleReply "observation" sampleReply

def sampleLater : Shared := sampleHeard.handleRecord bootstrap (some (sampleHealth "2"))

def sampleFrame : Frame := ⟨0, some "request"⟩

/-- The game runs the frame and emits no marker. -/
def sampleReaction : Reaction := { ran := true, replies := [sampleReply], marker := none }

def sampleBefore : List Event :=
  [.internal, .internal, .internal, .internal, .internal, .writes sampleFrame, .internal,
    .consumes sampleFrame sampleReaction, .handles ⟨sampleFrame, .reply sampleReply⟩, .internal,
    .internal]

/-- The worker of the sample in this phase, with these frames and lines under
way. -/
def sampleWorking (shared : Shared) (phase : Phase) (stdin : List Frame) (output : List Line)
    (frames : Nat) : System where
  shared := shared
  worker := some (sampleRecord, phase)
  stdin := stdin
  output := output
  frames := frames
  ids := ["request"]

def sampleFinal : System :=
  { shared := (sampleLater.expire "request" unconfirmed).2, frames := 1, ids := ["request"] }

/-- The run of the sample up to the expiry, over the states that its changes
lead to. -/
theorem expiring_run {native ready dispatched heard later : Shared}
    (hnative : native = (attach "nonce").handleLifecycle "DST_Master_Ready")
    (hready : ready = native.handleRecord bootstrap (some (sampleHealth "1")))
    (hdispatched : ready.dispatch sampleRecord = .ok dispatched)
    (hheard : heard = dispatched.markWritten.handleReply "observation" sampleReply)
    (hchannel : heard.channel = none)
    (hlater : later = heard.handleRecord bootstrap (some (sampleHealth "2"))) :
    DriverRun "nonce" sampleBefore (sampleWorking later (.expiring unconfirmed) [] [] 1) := by
  have h₁ : Step { shared := attach "nonce" } .internal { shared := native } := by
    rw [hnative]
    exact .lifecycle _ _ rfl
  have h₂ : Step { shared := native } .internal { shared := ready } := by
    rw [hready]
    exact .bootstrap _ _ rfl
  have h₃ : Step { shared := ready } .internal
      { shared := ready, waiting := [sampleRecord], ids := ["request"] } :=
    .submit _ "request" "presence" 1 (by simp)
  have h₄ : Step { shared := ready, waiting := [sampleRecord], ids := ["request"] } .internal
      (sampleWorking ready .looping [] [] 0) :=
    .acquire _ sampleRecord [] [] rfl rfl (by simp)
  have h₅ : Step (sampleWorking ready .looping [] [] 0) .internal
      (sampleWorking dispatched .sending [] [] 0) :=
    .dispatch _ sampleRecord dispatched rfl hdispatched
  have h₆ : Step (sampleWorking dispatched .sending [] [] 0) (.writes sampleFrame)
      (sampleWorking dispatched .written [sampleFrame] [] 1) :=
    .write _ sampleRecord rfl rfl
  have h₇ : Step (sampleWorking dispatched .written [sampleFrame] [] 1) .internal
      (sampleWorking dispatched.markWritten .receiving [sampleFrame] [] 1) :=
    .markWritten _ sampleRecord rfl
  have hfits : sampleReaction.Fits sampleFrame := by
    refine ⟨?_, (fun hbusy => nomatch hbusy), (fun hdone => nomatch hdone)⟩
    intro reply hreply
    rw [List.mem_singleton.1 hreply]
    exact ⟨"request", rfl, rfl⟩
  have h₈ : Step (sampleWorking dispatched.markWritten .receiving [sampleFrame] [] 1)
      (.consumes sampleFrame sampleReaction)
      (sampleWorking dispatched.markWritten .receiving []
        [⟨sampleFrame, .reply sampleReply⟩] 1) :=
    .consume _ sampleFrame [] sampleReaction rfl hfits
  have h₉ : Step (sampleWorking dispatched.markWritten .receiving []
        [⟨sampleFrame, .reply sampleReply⟩] 1) (.handles ⟨sampleFrame, .reply sampleReply⟩)
      (sampleWorking heard .receiving [] [] 1) := by
    rw [hheard]
    exact .handle _ _ [] "observation" rfl rfl
  have h₁₀ : Step (sampleWorking heard .receiving [] [] 1) .internal
      (sampleWorking heard (.expiring unconfirmed) [] [] 1) :=
    .timeout _ sampleRecord rfl hchannel
  have h₁₁ : Step (sampleWorking heard (.expiring unconfirmed) [] [] 1) .internal
      (sampleWorking later (.expiring unconfirmed) [] [] 1) := by
    rw [hlater]
    exact .bootstrap _ _ rfl
  have hwritten := (((((Run.nil.snoc h₁).snoc h₂).snoc h₃).snoc h₄).snoc h₅).snoc h₆
  exact ((((hwritten.snoc h₇).snoc h₈).snoc h₉).snoc h₁₀).snoc h₁₁

theorem samplePresence_run :
    DriverRun "nonce" (sampleBefore ++ [.returns sampleRecord (.ok sampleData)]) sampleFinal := by
  have hbefore : DriverRun "nonce" sampleBefore
      (sampleWorking sampleLater (.expiring unconfirmed) [] [] 1) :=
    expiring_run (Eq.refl sampleNative) (Eq.refl sampleReady) rfl (Eq.refl sampleHeard) rfl
      (Eq.refl sampleLater)
  have hdata : (sampleLater.expire "request" unconfirmed).1 = .ok sampleData := rfl
  have hlast : ∀ shared, Step (sampleWorking shared (.expiring unconfirmed) [] [] 1)
      (.returns sampleRecord (shared.expire "request" unconfirmed).1)
      { shared := (shared.expire "request" unconfirmed).2, frames := 1, ids := ["request"] } :=
    fun shared => .expire _ sampleRecord unconfirmed rfl
  have hreturned := hlast sampleLater
  rw [hdata] at hreturned
  exact hbefore.snoc hreturned

/-- In the sample run the data was emitted for the request. -/
theorem driver_delivery_sample : Emitted sampleBefore sampleRecord sampleData :=
  (driver_delivery samplePresence_run).2.2.1 sampleBefore sampleRecord sampleData [] rfl

/-- The data of the sample is not what the native side emitted, and its
generation has ended when the caller gets it. -/
theorem late_presence :
    (¬∀ nonce events s, DriverRun nonce events s →
      ∀ earlier record data later, events = earlier ++ .returns record (.ok data) :: later →
        ∃ frame reaction reply, Event.consumes frame reaction ∈ earlier ∧
          frame.request = some record.id ∧ reply ∈ reaction.replies ∧
          (reply.get "result").get "data" = data) ∧
    ¬∀ nonce events record data s,
      DriverRun nonce (events ++ [.returns record (.ok data)]) s →
        s.shared.state.generation = some record.generation := by
  constructor
  · intro h
    obtain ⟨frame, reaction, reply, hmem, _, hreply, hdata⟩ :=
      h "nonce" _ _ samplePresence_run sampleBefore sampleRecord sampleData [] rfl
    have hreaction : reaction = sampleReaction := by
      simp only [sampleBefore, List.mem_cons, reduceCtorEq, false_or, List.not_mem_nil, or_false,
        Event.consumes.injEq] at hmem
      exact hmem.2
    subst hreaction
    rw [List.mem_singleton.1 hreply] at hdata
    have hemitted : (sampleReply.get "result").get "data" =
        .object [("observation_epoch", .number "5")] := rfl
    rw [hemitted, sampleData] at hdata
    simp at hdata
  · intro h
    have hgeneration := h "nonce" sampleBefore sampleRecord sampleData _ samplePresence_run
    revert hgeneration
    decide

end DstServer.Driver
