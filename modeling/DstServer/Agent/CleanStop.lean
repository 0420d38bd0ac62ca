import DstServer.Agent.Room

/-!
# What a recorded clean stop proves

`record_stop` trusts one flag.  The proof that it may does not go through
the monitors: the last `stop_inner` of the life asks every process that the
room knows, and either all of them ended cleanly or it sets the flag.

Two steps break this.  A `Configure` request forgets the processes of a room
that has stopped, whatever their exits were, and the last kill can be refused
or given up before it asked anyone.  `Careful` says what has to hold when
these steps are taken.  `Inv` is the invariant of a careful run, and
`Frame` the part of a state that most steps leave alone.
-/

namespace DstServer.CleanStop

open Lib

/-! ## Notions -/

def Task.isStart : Task → Bool
  | .operation .start _ => true
  | _ => false

def Task.isKill : Task → Bool
  | .operation (.kill _) _ => true
  | _ => false

namespace State

/-- The process ended cleanly. -/
def Clean (s : State) (process : Nat) : Prop := (s.exited process).any Exit.clean = true

/-- The flag is set, or every process that the room knows ended cleanly. -/
def Settled (s : State) : Prop :=
  s.restartRequired = true ∨ ∀ process ∈ s.drivers, s.Clean process

/-- An operation that starts the game has the permit. -/
def Starting (s : State) : Prop := ∃ job, s.holder = some job ∧ job.task.isStart = true

/-- What `stop_inner` has heard of, it has judged. -/
def Heard (s : State) (collect : Collect) : Prop :=
  s.restartRequired = true ∨
    ∀ process ∈ s.drivers, process ∈ collect.remaining ∨ s.Clean process

end State

/-- The two steps that lose processes are taken when nothing is lost. -/
def Careful (s : State) : Event → Prop
  | .beginConfigure saved => saved = true → s.stopped = true → s.Settled
  | .killRefused | .killTimedOut => s.restartRequired = true ∨ (s.Settled ∧ ¬s.Starting)
  | _ => True

/-- What the holder of the permit knows. -/
structure JobInv (s : State) (job : Job) : Prop where
  unstarted : job.stage = .accepted → job.task.isStart = true → s.processes = []
  spawning : ∀ shards, job.stage = .spawning shards → job.task.isStart = true
  waiting : job.stage = .waiting → job.task.isStart = true
  collecting : ∀ collect, job.stage = .collecting collect →
    s.Heard collect ∧ s.phase = .stopping
  cleaning : ∀ failedStart collect, job.stage = .cleaning failedStart collect → s.Heard collect
  returned : ∀ success, job.stage = .returned success → job.task.isKill = true →
    s.Settled ∨ (success = false ∧ s.phase = .stopping)

/-- What `run` knows at the end. -/
def MainInv (s : State) : Prop :=
  match s.main with
  | .deciding _ => s.restartRequired = true ∨ (s.Settled ∧ ¬s.Starting)
  | .recording => ¬s.Starting ∧ ∀ process < s.processes.length, s.Clean process
  | .ended .cleanStop | .ended .nothing => ∀ process < s.processes.length, s.Clean process
  | _ => True

structure Inv (s : State) : Prop where
  /-- No process is forgotten. -/
  known : s.restartRequired = true ∨
    ∀ process < s.processes.length, process ∈ s.drivers ∨ s.Clean process
  /-- The boot task is the only one that starts the game. -/
  unbooted : s.boot = .preparing → s.processes = [] ∧ ¬s.Starting
  queue : ∀ task ∈ s.waiting, task.isStart = false
  job : ∀ job, s.holder = some job → JobInv s job
  main : MainInv s
  closed : s.main ≠ .serving → s.boot = .ended

/-! ## Steps that keep the processes -/

/-- The room knows the same processes, and what was clean stays so. -/
structure Frame (s t : State) : Prop where
  length : t.processes.length = s.processes.length
  clean : ∀ process, s.Clean process → t.Clean process
  drivers : t.drivers = s.drivers
  flag : s.restartRequired = true → t.restartRequired = true
  queue : ∀ task ∈ t.waiting, task ∈ s.waiting ∨ task.isStart = false
  starting : t.Starting → s.Starting

section Frame

variable {s t : State} (hframe : Frame s t)

include hframe

theorem Frame.settled (h : s.Settled) : t.Settled := by
  rcases h with h | h
  · exact Or.inl (hframe.flag h)
  · right
    rw [hframe.drivers]
    intro process hprocess
    exact hframe.clean process (h process hprocess)

theorem Frame.heard {collect : Collect} (h : s.Heard collect) : t.Heard collect := by
  rcases h with h | h
  · exact Or.inl (hframe.flag h)
  · right
    rw [hframe.drivers]
    intro process hprocess
    exact (h process hprocess).imp_right (hframe.clean process)

theorem Frame.processes_nil (h : s.processes = []) : t.processes = [] := by
  apply List.eq_nil_of_length_eq_zero
  rw [hframe.length, h]
  rfl

theorem JobInv.frame {job : Job} (h : JobInv s job)
    (hphase : s.phase = .stopping → t.phase = .stopping) : JobInv t job where
  unstarted hstage hstart := hframe.processes_nil (h.unstarted hstage hstart)
  spawning := h.spawning
  waiting := h.waiting
  collecting collect hstage := by
    obtain ⟨hheard, hstopping⟩ := h.collecting collect hstage
    exact ⟨hframe.heard hheard, hphase hstopping⟩
  cleaning failedStart collect hstage := hframe.heard (h.cleaning failedStart collect hstage)
  returned success hstage hkill := by
    rcases h.returned success hstage hkill with hsettled | ⟨hsuccess, hstopping⟩
    · exact Or.inl (hframe.settled hsettled)
    · exact Or.inr ⟨hsuccess, hphase hstopping⟩

theorem MainInv.frame (h : MainInv s) (hmain : t.main = s.main) : MainInv t := by
  have hclean : (∀ process < s.processes.length, s.Clean process) →
      ∀ process < t.processes.length, t.Clean process := by
    intro hall process hprocess
    rw [hframe.length] at hprocess
    exact hframe.clean process (hall process hprocess)
  unfold MainInv at h ⊢
  rw [hmain]
  split at h
  · exact h.imp hframe.flag fun h => ⟨hframe.settled h.1, fun hstart => h.2 (hframe.starting hstart)⟩
  · exact ⟨fun hstart => h.1 (hframe.starting hstart), hclean h.2⟩
  · exact hclean h
  · exact hclean h
  · trivial

/-- A step that keeps the processes keeps the invariant, up to what it does
to the holder of the permit and to `run`. -/
theorem Inv.frame (h : Inv s) (hboot : t.boot = .preparing → s.boot = .preparing)
    (hjob : ∀ job, t.holder = some job → JobInv t job) (hmain : MainInv t)
    (hclosed : t.main ≠ .serving → t.boot = .ended) : Inv t where
  known := by
    rcases h.known with hflag | hknown
    · exact Or.inl (hframe.flag hflag)
    · right
      rw [hframe.length, hframe.drivers]
      intro process hprocess
      exact (hknown process hprocess).imp_right (hframe.clean process)
  unbooted hpreparing := by
    obtain ⟨hprocesses, hstarting⟩ := h.unbooted (hboot hpreparing)
    exact ⟨hframe.processes_nil hprocesses, fun hstart => hstarting (hframe.starting hstart)⟩
  queue task htask := by
    rcases hframe.queue task htask with hold | hnew
    · exact h.queue task hold
    · exact hnew
  job := hjob
  main := hmain
  closed := hclosed

end Frame

/-! ## Steps that keep the drivers -/

/-- The processes stay as they are, and nothing that waits starts the game. -/
structure Same (s t : State) : Prop where
  processes : t.processes = s.processes
  drivers : t.drivers = s.drivers
  flag : s.restartRequired = true → t.restartRequired = true
  queue : ∀ task ∈ t.waiting, task ∈ s.waiting ∨ task.isStart = false

/-- Besides, `run` stays where it is, and the boot task has no new start
before it. -/
structure Kept (s t : State) : Prop extends Same s t where
  main : t.main = s.main
  boot : t.boot = s.boot ∨ (s.boot ≠ .ended ∧ t.boot ≠ .preparing)

theorem kept_phase (s : State) (phase : Phase) {flag : Bool}
    (hflag : s.restartRequired = true → flag = true) :
    Kept s { s with phase, restartRequired := flag } :=
  ⟨⟨rfl, rfl, hflag, fun _ htask => .inl htask⟩, rfl, .inl rfl⟩

theorem queue_append {task : Task} (h : task.isStart = false) (waiting : List Task) :
    ∀ other ∈ waiting ++ [task], other ∈ waiting ∨ other.isStart = false := by
  intro other hother
  rw [List.mem_append, List.mem_singleton] at hother
  rcases hother with hold | hnew
  · exact .inl hold
  · right
    rw [hnew]
    exact h

theorem not_starting {s : State} {job : Job} (hholder : s.holder = some job)
    (h : job.task.isStart = false) : ¬s.Starting := by
  intro ⟨other, hother, hstart⟩
  rw [hholder, Option.some.injEq] at hother
  rw [← hother, h] at hstart
  cases hstart

section Kept

variable {s t : State}

theorem Same.frame (hsame : Same s t) (hstarting : t.Starting → s.Starting) : Frame s t where
  length := by rw [hsame.processes]
  clean process hclean := by
    unfold State.Clean State.exited at *
    rw [hsame.processes]
    exact hclean
  drivers := hsame.drivers
  flag := hsame.flag
  queue := hsame.queue
  starting := hstarting

/-- What the boot task and `run` know of each other. -/
theorem Inv.closed_of (h : Inv s) (hboot : t.boot = s.boot ∨ s.boot ≠ .ended)
    (hmain : s.main = .serving → t.main = .serving) : t.main ≠ .serving → t.boot = .ended := by
  intro hne
  have hended := h.closed fun hserving => hne (hmain hserving)
  rcases hboot with hboot | hboot
  · rw [hboot, hended]
  · exact absurd hended hboot

theorem Inv.kept (h : Inv s) (hkept : Kept s t) (hstarting : t.Starting → s.Starting)
    (hjob : ∀ job, t.holder = some job → JobInv t job) : Inv t := by
  have hframe := hkept.toSame.frame hstarting
  apply h.frame hframe
  · intro hpreparing
    rcases hkept.boot with hboot | hboot
    · rw [← hboot, hpreparing]
    · exact absurd hpreparing hboot.2
  · exact hjob
  · exact h.main.frame hframe hkept.main
  · exact h.closed_of (hkept.boot.imp_right And.left) fun hserving => hkept.main.trans hserving

/-- A step besides the holder of the permit. -/
theorem Inv.outside (h : Inv s) (hkept : Kept s t) (hholder : t.holder = s.holder)
    (hphase : s.phase = .stopping → t.phase = .stopping) : Inv t := by
  have hstarting : t.Starting → s.Starting := by
    intro ⟨job, hjob, hstart⟩
    rw [hholder] at hjob
    exact ⟨job, hjob, hstart⟩
  apply h.kept hkept hstarting
  intro job hjob
  rw [hholder] at hjob
  exact (h.job job hjob).frame (hkept.toSame.frame hstarting) hphase

variable {job : Job}

/-- A step of the holder, with what it knows then. -/
theorem Inv.goOn (h : Inv s) (hholder : s.holder = some job) (hkept : Kept s t) {stage : Stage}
    (hjob : JobInv (t.goOn job stage) { job with stage }) : Inv (t.goOn job stage) := by
  have hkept' : Kept s (t.goOn job stage) :=
    ⟨⟨hkept.processes, hkept.drivers, hkept.flag, hkept.queue⟩, hkept.main, hkept.boot⟩
  apply h.kept hkept'
  · intro ⟨other, hother, hstart⟩
    cases hother
    exact ⟨job, hholder, hstart⟩
  · intro other hother
    cases hother
    exact hjob

/-- The last step of the holder. -/
theorem Inv.release (h : Inv s) (hkept : Kept s t) : Inv t.release := by
  have hkept' : Kept s t.release :=
    ⟨⟨hkept.processes, hkept.drivers, hkept.flag, hkept.queue⟩, hkept.main, hkept.boot⟩
  apply h.kept hkept'
  · intro ⟨other, hother, _⟩
    cases hother
  · intro other hother
    cases hother

end Kept

/-! ## What the holder knows at a stage -/

section Stage

variable {t : State} {job : Job}

theorem jobInv_accepted {task : Task} (h : task.isStart = true → t.processes = []) :
    JobInv t { task } where
  unstarted _ := h
  spawning _ hstage := by cases hstage
  waiting hstage := by cases hstage
  collecting _ hstage := by cases hstage
  cleaning _ _ hstage := by cases hstage
  returned _ hstage := by cases hstage

theorem jobInv_starting {stage : Stage} (h : job.task.isStart = true)
    (hstage : stage = .waiting ∨ ∃ shards, stage = .spawning shards) :
    JobInv t { job with stage } where
  unstarted haccepted := by
    rcases hstage with rfl | ⟨_, rfl⟩ <;> cases haccepted
  spawning _ _ := h
  waiting _ := h
  collecting _ hcollecting := by
    rcases hstage with rfl | ⟨_, rfl⟩ <;> cases hcollecting
  cleaning _ _ hcleaning := by
    rcases hstage with rfl | ⟨_, rfl⟩ <;> cases hcleaning
  returned _ hreturned := by
    rcases hstage with rfl | ⟨_, rfl⟩ <;> cases hreturned

theorem jobInv_collecting {collect : Collect} (h : t.Heard collect) (hphase : t.phase = .stopping) :
    JobInv t { job with stage := .collecting collect } where
  unstarted hstage := by cases hstage
  spawning _ hstage := by cases hstage
  waiting hstage := by cases hstage
  collecting other hstage := by
    cases hstage
    exact ⟨h, hphase⟩
  cleaning _ _ hstage := by cases hstage
  returned _ hstage := by cases hstage

theorem jobInv_cleaning {collect : Collect} {failedStart : Bool} (h : t.Heard collect) :
    JobInv t { job with stage := .cleaning failedStart collect } where
  unstarted hstage := by cases hstage
  spawning _ hstage := by cases hstage
  waiting hstage := by cases hstage
  collecting _ hstage := by cases hstage
  cleaning _ other hstage := by
    cases hstage
    exact h
  returned _ hstage := by cases hstage

theorem jobInv_reloading {stage : Stage} (hstage : stage = .requesting ∨ stage = .reloading) :
    JobInv t { job with stage } where
  unstarted haccepted := by
    rcases hstage with rfl | rfl <;> cases haccepted
  spawning _ hspawning := by
    rcases hstage with rfl | rfl <;> cases hspawning
  waiting hwaiting := by
    rcases hstage with rfl | rfl <;> cases hwaiting
  collecting _ hcollecting := by
    rcases hstage with rfl | rfl <;> cases hcollecting
  cleaning _ _ hcleaning := by
    rcases hstage with rfl | rfl <;> cases hcleaning
  returned _ hreturned := by
    rcases hstage with rfl | rfl <;> cases hreturned

theorem jobInv_returned {success : Bool}
    (h : job.task.isKill = true → t.Settled ∨ (success = false ∧ t.phase = .stopping)) :
    JobInv t { job with stage := .returned success } where
  unstarted hstage := by cases hstage
  spawning _ hstage := by cases hstage
  waiting hstage := by cases hstage
  collecting _ hstage := by cases hstage
  cleaning _ _ hstage := by cases hstage
  returned other hstage := by
    cases hstage
    exact h

/-- No process has been heard of yet. -/
theorem heard_drivers (force failed : Bool) :
    t.Heard { force, remaining := t.drivers, failed } := .inr fun _ hprocess => .inl hprocess

/-- When nothing remains, all is judged. -/
theorem settled_of_heard {force failed : Bool} (h : t.Heard ⟨force, [], failed⟩) : t.Settled := by
  rcases h with hflag | hheard
  · exact .inl hflag
  · right
    intro process hprocess
    rcases hheard process hprocess with hmem | hclean
    · cases hmem
    · exact hclean

end Stage

/-! ## Steps besides the holder of the permit -/

section Outside

variable {s t : State} (h : Inv s)

include h

theorem Inv.exit {process : Nat} {shard : String}
    (hrunning : s.processes[process]? = some ⟨shard, none⟩) (exit : Exit) :
    Inv { s with processes := s.processes.set process ⟨shard, some exit⟩ } := by
  have hframe : Frame s { s with processes := s.processes.set process ⟨shard, some exit⟩ } := {
    length := List.length_set
    drivers := rfl
    flag := id
    queue := fun _ htask => .inl htask
    starting := id
    clean := by
      intro other hclean
      have hne : process ≠ other := by
        intro heq
        rw [State.Clean, State.exited, ← heq, hrunning] at hclean
        cases hclean
      unfold State.Clean State.exited at *
      rw [List.getElem?_set_ne hne]
      exact hclean }
  exact h.frame hframe id (fun job hjob => (h.job job hjob).frame hframe id)
    (h.main.frame hframe rfl) h.closed

theorem Inv.observe (process : Nat) : Inv (s.observe process) := by
  have herased : Kept s { s with monitors := s.monitors.erase process } :=
    ⟨⟨rfl, rfl, id, fun _ htask => .inl htask⟩, rfl, .inl rfl⟩
  unfold State.observe
  simp only
  split
  · exact h.outside herased rfl id
  split
  · exact h
  split
  · rename_i hphase
    refine h.outside ⟨⟨rfl, rfl, fun _ => rfl, queue_append rfl _⟩, rfl, .inl rfl⟩ rfl ?_
    intro hstopping
    rw [hstopping] at hphase
    rcases hphase with hphase | hphase <;> cases hphase
  · exact h.outside herased rfl id

/-- A task that does not start the game takes the permit. -/
theorem Inv.take {task : Task} (htask : task.isStart = false) (hkept : Kept s t) :
    Inv { t with holder := some { task } } := by
  have hkept' : Kept s { t with holder := some { task } } :=
    ⟨⟨hkept.processes, hkept.drivers, hkept.flag, hkept.queue⟩, hkept.main, hkept.boot⟩
  apply h.kept hkept'
  · intro hstarting
    exact absurd hstarting (not_starting rfl htask)
  · intro job hjob
    cases hjob
    apply jobInv_accepted
    intro hstart
    rw [htask] at hstart
    cases hstart

theorem Inv.accept {operation : Operation} (haccept : accept s operation = some t)
    (hstart : operation ≠ .start) : Inv t := by
  unfold CleanStop.accept at haccept
  split at haccept
  · cases haccept
    apply h.take _ ⟨⟨rfl, rfl, id, fun _ htask => .inl htask⟩, rfl, .inl rfl⟩
    cases operation with
    | start => exact absurd rfl hstart
    | _ => rfl
  · cases haccept

theorem Inv.sendKill (last : Bool) : Inv (sendKill s last) :=
  h.outside ⟨⟨rfl, rfl, id, queue_append rfl _⟩, rfl, .inl rfl⟩ rfl id

theorem Inv.acquire {task : Task} {position : Nat} (hwaiting : s.waiting[position]? = some task) :
    Inv { s with holder := some { task }, waiting := s.waiting.eraseIdx position } := by
  have hkept : Kept s { s with waiting := s.waiting.eraseIdx position } :=
    ⟨⟨rfl, rfl, id, fun _ htask => .inl (List.mem_of_mem_eraseIdx htask)⟩, rfl, .inl rfl⟩
  exact h.take (h.queue task (List.mem_of_getElem? hwaiting)) hkept

theorem Inv.serving (hboot : s.boot ≠ .ended) : s.main = .serving := by
  by_contra hmain
  exact hboot (h.closed hmain)

/-- The one start request of the boot task. -/
theorem Inv.requestStart (hboot : s.boot = .preparing)
    (haccept : CleanStop.accept { s with boot := .starting } .start = some t) : Inv t := by
  have hserving := h.serving (by rw [hboot]; decide)
  obtain ⟨hprocesses, _⟩ := h.unbooted hboot
  unfold CleanStop.accept at haccept
  split at haccept
  · cases haccept
    exact {
      known := h.known
      unbooted := fun hpreparing => by cases hpreparing
      queue := h.queue
      job := by
        intro job hjob
        cases hjob
        exact jobInv_accepted fun _ => hprocesses
      main := by
        unfold MainInv
        simp only [hserving]
      closed := fun hne => absurd hserving hne }
  · cases haccept

/-- A step of the boot task that leaves the processes alone. -/
theorem Inv.bootTurn (hsame : Same s t) (hholder : t.holder = s.holder) (hphase : t.phase = s.phase)
    (hmain : t.main = s.main) (hopen : s.boot ≠ .ended) (hboot : t.boot ≠ .preparing) : Inv t :=
  h.outside ⟨hsame, hmain, .inr ⟨hopen, hboot⟩⟩ hholder fun hstopping => hphase.trans hstopping

theorem Inv.bootStep {event : Event} (hstep : bootStep s event = some t) : Inv t := by
  have hopen : ∀ boot, boot ≠ Boot.ended → s.boot = boot → s.boot ≠ .ended := by
    intro boot hne hboot
    rw [hboot]
    exact hne
  have hsame : Same s s := ⟨rfl, rfl, id, fun _ htask => .inl htask⟩
  unfold CleanStop.bootStep at hstep
  split at hstep
  · split at hstep
    · exact h.accept hstep (by decide)
    · cases hstep
  · split at hstep
    · rename_i hboot
      exact h.requestStart hboot hstep
    · cases hstep
  · split at hstep
    · rename_i hboot
      cases hstep
      exact h.bootTurn ⟨rfl, rfl, id, hsame.queue⟩ rfl rfl rfl (hopen _ (by decide) hboot) nofun
    · cases hstep
  · split at hstep
    · rename_i hboot
      split at hstep
      · cases hstep
        exact h.bootTurn ⟨rfl, rfl, id, hsame.queue⟩ rfl rfl rfl (hopen _ (by decide) hboot)
          nofun
      · cases hstep
        exact h.bootTurn ⟨rfl, rfl, id, hsame.queue⟩ rfl rfl rfl (hopen _ (by decide) hboot)
          nofun
    · rename_i hboot
      split at hstep
      · cases hstep
        exact h.bootTurn ⟨rfl, rfl, id, hsame.queue⟩ rfl rfl rfl (hopen _ (by decide) hboot)
          nofun
      · cases hstep
        refine h.bootTurn ⟨rfl, rfl, id, queue_append rfl _⟩ rfl rfl rfl
          (hopen _ (by decide) hboot) ?_
        show Boot.faulting ≠ .preparing
        decide
    · cases hstep
  · split at hstep
    · rename_i hboot
      cases hstep
      exact h.bootTurn ⟨rfl, rfl, id, hsame.queue⟩ rfl rfl rfl (hopen _ (by decide) hboot) nofun
    · cases hstep
  · split at hstep
    · rename_i hboot
      cases hstep
      refine h.bootTurn ⟨rfl, rfl, id, hsame.queue⟩ rfl rfl rfl (hopen _ (by decide) hboot) ?_
      show Boot.ended ≠ .preparing
      decide
    · cases hstep
  · cases hstep

theorem Inv.requestStep {operation : Operation} (hstep : requestStep s operation = some t) :
    Inv t := by
  unfold CleanStop.requestStep at hstep
  split at hstep
  · cases hstep
  · cases hstep
  · cases hstep
    exact h.sendKill false
  · rename_i hstart _ _
    exact h.accept hstep hstart

/-- A step of `run`, with what it knows then. -/
theorem Inv.turn (hsame : Same s t) (hholder : t.holder = s.holder)
    (hphase : s.phase = .stopping → t.phase = .stopping) (hboot : t.boot = .ended)
    (hmain : MainInv t) : Inv t := by
  have hstarting : t.Starting → s.Starting := by
    intro ⟨job, hjob, hstart⟩
    rw [hholder] at hjob
    exact ⟨job, hjob, hstart⟩
  have hframe := hsame.frame hstarting
  apply h.frame hframe _ _ hmain fun _ => hboot
  · intro hpreparing
    rw [hboot] at hpreparing
    cases hpreparing
  · intro job hjob
    rw [hholder] at hjob
    exact (h.job job hjob).frame hframe hphase

/-- The end of `run`, when its verdict is due. -/
theorem Inv.decide {code : Nat} (hdeciding : s.main = .deciding code)
    (hflag : s.restartRequired = false) :
    ¬s.Starting ∧ ∀ process < s.processes.length, s.Clean process := by
  have hmain := h.main
  unfold MainInv at hmain
  rw [hdeciding] at hmain
  simp only [hflag, Bool.false_eq_true, false_or] at hmain
  refine ⟨hmain.2, ?_⟩
  intro process hprocess
  have hsettled := hmain.1
  unfold State.Settled at hsettled
  rw [hflag, or_iff_right (by decide)] at hsettled
  have hknown := h.known
  rw [hflag, or_iff_right (by decide)] at hknown
  rcases hknown process hprocess with hdriver | hclean
  · exact hsettled process hdriver
  · exact hclean

theorem Inv.mainStep {event : Event} (hcareful : Careful s event)
    (hstep : mainStep s event = some t) : Inv t := by
  unfold CleanStop.mainStep at hstep
  split at hstep
  · -- the error of the boot task
    split at hstep
    · rename_i hboot
      cases hstep
      exact h.outside ⟨⟨rfl, rfl, id, fun _ htask => .inl htask⟩, rfl,
        .inr ⟨by rw [hboot]; decide, nofun⟩⟩ rfl id
    · cases hstep
  · split at hstep
    · cases hstep
      exact h.turn ⟨rfl, rfl, id, fun _ htask => .inl htask⟩ rfl id rfl trivial
    · cases hstep
  · rename_i hmain
    have hboot := h.closed (by rw [hmain]; simp)
    split at hstep
    · cases hstep
      exact h.turn ⟨rfl, rfl, id, queue_append rfl _⟩ rfl (fun _ => rfl) hboot trivial
    · cases hstep
      exact h.turn ⟨rfl, rfl, id, fun _ htask => .inl htask⟩ rfl id hboot trivial
  · rename_i hmain
    have hboot := h.closed (by rw [hmain]; simp)
    cases hstep
    exact h.turn ⟨rfl, rfl, id, queue_append rfl _⟩ rfl id hboot trivial
  · rename_i hmain
    have hboot := h.closed (by rw [hmain]; simp)
    cases hstep
    exact h.turn ⟨rfl, rfl, id, fun _ htask => .inl htask⟩ rfl id hboot hcareful
  · rename_i hmain
    have hboot := h.closed (by rw [hmain]; simp)
    cases hstep
    exact h.turn ⟨rfl, rfl, id, fun _ htask => .inl htask⟩ rfl id hboot hcareful
  · rename_i hmain
    have hboot := h.closed (by rw [hmain]; simp)
    split at hstep
    · cases hstep
      exact h.turn ⟨rfl, rfl, id, fun _ htask => .inl htask⟩ rfl id hboot trivial
    · rename_i hverdict
      rw [not_or, Bool.not_eq_true] at hverdict
      have hdecided := h.decide hmain hverdict.1
      split at hstep
      · cases hstep
        exact h.turn ⟨rfl, rfl, id, fun _ htask => .inl htask⟩ rfl id hboot hdecided
      · cases hstep
        exact h.turn ⟨rfl, rfl, id, fun _ htask => .inl htask⟩ rfl id hboot hdecided.2
  · rename_i hmain
    have hboot := h.closed (by rw [hmain]; simp)
    have hclean : ∀ process < s.processes.length, s.Clean process := by
      have hrecording := h.main
      unfold MainInv at hrecording
      rw [hmain] at hrecording
      exact hrecording.2
    cases hstep
    refine h.turn ⟨rfl, rfl, id, fun _ htask => .inl htask⟩ rfl id hboot ?_
    unfold MainInv
    split
    all_goals first | exact hclean | (rename_i hended; split at hended <;> cases hended) | trivial
  · cases hstep

end Outside

/-! ## Steps of the holder -/

/-- A start does not kill. -/
theorem isKill_of_isStart {task : Task} (h : task.isStart = true) : task.isKill = false := by
  unfold Task.isStart at h
  split at h
  · rfl
  · cases h

/-- What was heard of a process is judged: an exit that was accepted without
force was clean. -/
theorem heard_step {s : State} {collect : Collect} (h : s.Heard collect) {process : Nat}
    {exit : Option Exit} (hexit : exit = s.exited process ∨ exit = none) :
    Kept s (s.heard collect process exit).1 ∧
      (s.heard collect process exit).1.Heard (s.heard collect process exit).2 := by
  have hkept : Kept s (s.heard collect process exit).1 :=
    kept_phase s s.phase fun hflag => by rw [hflag]; rfl
  refine ⟨hkept, ?_⟩
  rw [State.Heard]
  by_cases hflag : (s.heard collect process exit).1.restartRequired = true
  · exact .inl hflag
  · right
    simp only [State.heard, Bool.not_eq_true, Bool.or_eq_false_iff, Bool.not_eq_false'] at hflag
    obtain ⟨⟨hbefore, hforce, hforced⟩, haccepted⟩ := hflag
    have hall := h.resolve_left (by rw [hbefore]; decide)
    have hclean : s.Clean process := by
      rcases hexit with rfl | rfl
      · unfold State.Clean
        cases hreport : s.exited process with
        | none =>
          rw [hreport] at haccepted
          cases haccepted
        | some exit =>
          rw [hreport, Option.any_some, hforce] at haccepted
          cases exit with
          | lost => cases haccepted
          | report success forced drained protocolError =>
            simp only [Exit.accepted, Bool.false_or, Bool.and_eq_true, Bool.not_eq_true'] at haccepted
            simp [Exit.clean, haccepted]
      · cases haccepted
    intro other hother
    by_cases hsame : other = process
    · right
      rw [hsame]
      exact hclean
    · rcases hall other hother with hremains | hdone
      · left
        exact (List.mem_erase_of_ne hsame).2 hremains
      · exact .inr hdone

section Holder

variable {s t : State} {job : Job} (h : Inv s) (hholder : s.holder = some job)

include h hholder

/-- The holder begins `stop_inner`. -/
theorem Inv.collect (hkept : Kept s t) (force : Bool) : Inv (t.collect job force) := by
  have hstopping : Kept s { t with phase := .stopping } :=
    ⟨⟨hkept.processes, hkept.drivers, hkept.flag, hkept.queue⟩, hkept.main, hkept.boot⟩
  exact h.goOn hholder hstopping (jobInv_collecting (heard_drivers force false) rfl)

/-- The dispatch of an operation that is no kill is over. -/
theorem Inv.returned (hkept : Kept s t) (hkill : job.task.isKill = false) (success : Bool) :
    Inv (t.goOn job (.returned success)) := by
  apply h.goOn hholder hkept
  apply jobInv_returned
  intro hkills
  rw [hkill] at hkills
  cases hkills

/-- The room forgets its processes when all of them ended cleanly. -/
theorem Inv.forget (hclean : s.restartRequired = true ∨ ∀ process < s.processes.length, s.Clean process)
    (hprocesses : t.processes = s.processes) (hdrivers : t.drivers = [])
    (hflag : t.restartRequired = s.restartRequired) (hqueue : t.waiting = s.waiting)
    (hmain : t.main = s.main) (hboot : t.boot = s.boot) {stage : Stage}
    (hjob : JobInv (t.goOn job stage) { job with stage }) : Inv (t.goOn job stage) := by
  have hcleans : ∀ process, s.Clean process → (t.goOn job stage).Clean process := by
    intro process hprocess
    unfold State.Clean State.exited at *
    show (t.processes[process]?.bind Process.exit).any Exit.clean = true
    rw [hprocesses]
    exact hprocess
  have hstarting : (t.goOn job stage).Starting → s.Starting := by
    intro ⟨other, hother, hstart⟩
    cases hother
    exact ⟨job, hholder, hstart⟩
  have hall : (∀ process < s.processes.length, s.Clean process) →
      ∀ process < (t.goOn job stage).processes.length, (t.goOn job stage).Clean process := by
    intro hall process hprocess
    have hlt : process < t.processes.length := hprocess
    rw [hprocesses] at hlt
    exact hcleans process (hall process hlt)
  exact {
    known := by
      rcases hclean with hset | hclean
      · exact .inl (hflag.trans hset)
      · exact .inr fun process hprocess => .inr (hall hclean process hprocess)
    unbooted := by
      intro hpreparing
      obtain ⟨hnil, hnot⟩ := h.unbooted (hboot.symm.trans hpreparing)
      exact ⟨hprocesses.trans hnil, fun hstart => hnot (hstarting hstart)⟩
    queue := by
      intro task htask
      have hold : task ∈ t.waiting := htask
      rw [hqueue] at hold
      exact h.queue task hold
    job := by
      intro other hother
      cases hother
      exact hjob
    main := by
      have hverdict := h.main
      unfold MainInv at hverdict ⊢
      have hmain' : (t.goOn job stage).main = s.main := hmain
      rw [hmain']
      split at hverdict
      · refine hverdict.imp (fun hset => hflag.trans hset) ?_
        intro hverdict
        refine ⟨.inr ?_, fun hstart => hverdict.2 (hstarting hstart)⟩
        intro process hprocess
        have hdriver : process ∈ t.drivers := hprocess
        rw [hdrivers] at hdriver
        cases hdriver
      · exact ⟨fun hstart => hverdict.1 (hstarting hstart), hall hverdict.2⟩
      · exact hall hverdict
      · exact hall hverdict
      · trivial
    closed := by
      intro hne
      have hne' : s.main ≠ .serving := fun hserving => hne (hmain.trans hserving)
      exact hboot.trans (h.closed hne') }

theorem Inv.beginStart (hstart : job.task.isStart = true) (hstage : job.stage = .accepted)
    (prepared saved : Bool) (shards : List String) :
    Inv (beginStart s job prepared saved shards) := by
  have hkill := isKill_of_isStart hstart
  have hprocesses := (h.job job hholder).unstarted hstage hstart
  have hclean : s.restartRequired = true ∨ ∀ process < s.processes.length, s.Clean process := by
    right
    intro process hprocess
    rw [hprocesses] at hprocess
    cases hprocess
  unfold CleanStop.beginStart
  split_ifs
  · exact h.returned hholder (kept_phase s s.phase id) hkill true
  · exact h.returned hholder (kept_phase s s.phase id) hkill false
  · exact h.returned hholder (kept_phase s .preparing id) hkill false
  · refine h.forget (t := { s with phase := .failed, drivers := [] }) hholder hclean
      rfl rfl rfl rfl rfl rfl ?_
    apply jobInv_returned
    intro hkills
    rw [hkill] at hkills
    cases hkills
  · refine h.forget (t := { s with phase := .starting, drivers := [], starts := s.starts + 1 })
      hholder hclean rfl rfl rfl rfl rfl rfl ?_
    exact jobInv_starting hstart (.inr ⟨shards, rfl⟩)

theorem Inv.beginStop {announced : Bool} (hstep : beginStop s job announced = some t) : Inv t := by
  unfold CleanStop.beginStop at hstep
  split at hstep
  · rename_i htask
    split at hstep
    · cases hstep
      exact h.collect hholder (kept_phase s s.phase id) false
    · cases hstep
      exact h.returned hholder (kept_phase s s.phase id) (by rw [htask]; rfl) false
  · rename_i htask
    split at hstep
    · cases hstep
      exact h.collect hholder (kept_phase s s.phase id) false
    · cases hstep
      exact h.returned hholder (kept_phase s s.phase id) (by rw [htask]; rfl) false
  · cases hstep
    exact h.collect hholder (kept_phase s s.phase id) true
  · cases hstep
    exact h.collect hholder (kept_phase s s.phase id) false
  · cases hstep
    exact h.collect hholder (kept_phase s s.phase id) false
  · cases hstep
    exact h.collect hholder (kept_phase s s.phase fun _ => rfl) false
  · cases hstep

theorem Inv.beginConfigure (hkill : job.task.isKill = false) {saved : Bool}
    (hcareful : saved = true → s.stopped = true → s.Settled) :
    Inv (beginConfigure s job saved) := by
  unfold CleanStop.beginConfigure
  split_ifs with hsaved
  · have hclean : s.restartRequired = true ∨ ∀ process < s.processes.length, s.Clean process := by
      rcases hcareful hsaved.2 hsaved.1 with hflag | hsettled
      · exact .inl hflag
      · refine h.known.imp_right fun hknown process hprocess => ?_
        rcases hknown process hprocess with hdriver | hclean
        · exact hsettled process hdriver
        · exact hclean
    refine h.forget (t := { s with drivers := [] }) hholder hclean rfl rfl rfl rfl rfl rfl ?_
    apply jobInv_returned
    intro hkills
    rw [hkill] at hkills
    cases hkills
  · exact h.returned hholder (kept_phase s s.phase id) hkill false

/-- A reload changes the phase and nothing else that the flag is judged by. -/
theorem Inv.beginReload (hkill : job.task.isKill = false) (found : Bool) :
    Inv (beginReload s job found) := by
  unfold CleanStop.beginReload
  split
  · exact h.goOn hholder (kept_phase s s.phase id) (jobInv_reloading (.inl rfl))
  · exact h.returned hholder (kept_phase s s.phase id) hkill false

theorem Inv.requested (hkill : job.task.isKill = false) (written : Bool) :
    Inv (requested s job written) := by
  unfold CleanStop.requested
  split
  · exact h.goOn hholder (kept_phase s .starting id) (jobInv_reloading (.inr rfl))
  · exact h.returned hholder (kept_phase s s.phase id) hkill false

theorem Inv.reloaded (hkill : job.task.isKill = false) (success : Bool) :
    Inv (reloaded s job success) := by
  unfold CleanStop.reloaded
  split
  · exact h.returned hholder (kept_phase s .running id) hkill true
  · exact h.returned hholder (kept_phase s s.phase id) hkill false

theorem Inv.spawn (hlive : ∀ ending, s.main ≠ .ended ending) {shard : String} {rest : List String}
    (hstage : job.stage = .spawning (shard :: rest)) (success : Bool) :
    Inv (spawn s job success shard rest) := by
  have hstart := (h.job job hholder).spawning _ hstage
  have hstarting : s.Starting := ⟨job, hholder, hstart⟩
  unfold CleanStop.spawn
  split
  · have hclean : ∀ process, s.Clean process → ((s.processes ++ [{ shard : Process }])[process]?.bind
        Process.exit).any Exit.clean = true := by
      intro process hprocess
      unfold State.Clean State.exited at hprocess
      have hlt : process < s.processes.length := by
        by_contra hge
        rw [List.getElem?_eq_none (Nat.le_of_not_lt hge)] at hprocess
        cases hprocess
      rw [List.getElem?_append_left hlt]
      exact hprocess
    exact {
      known := by
        refine h.known.imp_right fun hknown process hprocess => ?_
        have hlt : process < (s.processes ++ [{ shard : Process }]).length := hprocess
        rw [List.length_append, List.length_singleton] at hlt
        by_cases hnew : process = s.processes.length
        · left
          rw [hnew]
          exact List.mem_append_right _ (List.mem_singleton_self _)
        · rcases hknown process (by omega) with hdriver | hprocess
          · exact .inl (List.mem_append_left _ hdriver)
          · exact .inr (hclean process hprocess)
      unbooted := fun hpreparing => absurd hstarting (h.unbooted hpreparing).2
      queue := h.queue
      job := by
        intro other hother
        cases hother
        exact jobInv_starting hstart (.inr ⟨rest, rfl⟩)
      main := by
        have hverdict := h.main
        unfold MainInv at hverdict ⊢
        show match s.main with
          | .deciding _ => _
          | .recording => _
          | .ended .cleanStop | .ended .nothing => _
          | _ => _
        split at hverdict
        · left
          exact hverdict.resolve_right fun hverdict => hverdict.2 hstarting
        · exact absurd hstarting hverdict.1
        · rename_i hended
          exact absurd hended (hlive _)
        · rename_i hended
          exact absurd hended (hlive _)
        · trivial
      closed := h.closed }
  · exact h.collect hholder (kept_phase s s.phase id) false

theorem Inv.ready (hstage : job.stage = .waiting) (success : Bool) : Inv (ready s job success) := by
  have hkill := isKill_of_isStart ((h.job job hholder).waiting hstage)
  unfold CleanStop.ready
  split
  · exact h.returned hholder (kept_phase s .running id) hkill true
  · exact h.collect hholder (kept_phase s s.phase fun _ => rfl) false

/-- The room heard of a process, in the first `stop_inner`. -/
theorem Inv.heard {collect : Collect} (hstage : job.stage = .collecting collect) {process : Nat}
    {exit : Option Exit} (hexit : exit = s.exited process ∨ exit = none) :
    Inv ((s.heard collect process exit).1.goOn job (.collecting (s.heard collect process exit).2)) := by
  obtain ⟨hheard, hphase⟩ := (h.job job hholder).collecting collect hstage
  obtain ⟨hkept, hjudged⟩ := heard_step hheard hexit
  exact h.goOn hholder hkept (jobInv_collecting hjudged hphase)

/-- The room heard of a process, in the cleanup of an operation. -/
theorem Inv.heardCleaning {failedStart : Bool} {collect : Collect}
    (hstage : job.stage = .cleaning failedStart collect) {process : Nat}
    {exit : Option Exit} (hexit : exit = s.exited process ∨ exit = none) :
    Inv ((s.heard collect process exit).1.goOn job
      (.cleaning failedStart (s.heard collect process exit).2)) := by
  have hheard := (h.job job hholder).cleaning failedStart collect hstage
  obtain ⟨hkept, hjudged⟩ := heard_step hheard hexit
  exact h.goOn hholder hkept (jobInv_cleaning hjudged)

omit hholder in
/-- The last `stop_inner` of a life is over. -/
theorem Inv.stoppedLast (hsettled : s.Settled) (hsame : Same s t) (failed : Bool)
    (hboot : t.boot = s.boot) (hmain : t.main = match s.main with
      | .stopping code => if failed then .mustKill code else .deciding code
      | main => main) : Inv t.release := by
  have hsame' : Same s t.release := ⟨hsame.processes, hsame.drivers, hsame.flag, hsame.queue⟩
  have hnot : ¬t.release.Starting := by
    intro ⟨other, hother, _⟩
    cases hother
  have hframe : Frame s t.release := hsame'.frame fun hstart => absurd hstart hnot
  have hmain' : t.release.main = match s.main with
      | .stopping code => if failed then .mustKill code else .deciding code
      | main => main := hmain
  apply h.frame hframe
  · intro hpreparing
    exact hboot.symm.trans hpreparing
  · intro other hother
    cases hother
  · split at hmain'
    · split at hmain'
      · unfold MainInv
        rw [hmain']
        trivial
      · unfold MainInv
        rw [hmain']
        exact .inr ⟨hframe.settled hsettled, hnot⟩
    · exact h.main.frame hframe hmain'
  · apply h.closed_of (.inl hboot)
    intro hserving
    refine hmain.trans ?_
    rw [hserving]

theorem Inv.collected {force failed : Bool} (hstage : job.stage = .collecting ⟨force, [], failed⟩)
    (success : Bool) : Inv (collected s job failed success) := by
  have hsettled : s.Settled := settled_of_heard ((h.job job hholder).collecting _ hstage).1
  have hphase := fun phase => kept_phase s phase id
  unfold CleanStop.collected
  simp only
  split
  · rename_i htask
    exact h.returned hholder (hphase .failed) (by rw [htask]; rfl) false
  · rename_i htask
    exact h.returned hholder (hphase _) (by rw [htask]; rfl) _
  · exact h.goOn hholder (hphase _) (jobInv_returned fun _ => .inl hsettled)
  · exact h.release (hphase .failed)
  · apply h.release
    refine ⟨⟨rfl, rfl, id, fun _ htask => .inl htask⟩, rfl, ?_⟩
    simp only
    split
    · rename_i hfaulting
      right
      rw [hfaulting]
      exact ⟨by decide, by decide⟩
    · exact .inl rfl
  · exact h.stoppedLast hsettled ⟨rfl, rfl, id, fun _ htask => .inl htask⟩ failed rfl rfl

end Holder

/-- The answer of the room to a request. -/
theorem Inv.answer {s : State} (h : Inv s) (hfree : s.holder = none) {operation : Operation}
    (hsettled : operation = .kill true → s.Settled) (success : Bool) :
    Inv (s.answer operation success) := by
  unfold State.answer
  split
  · split
    · rename_i hboot
      exact h.outside ⟨⟨rfl, rfl, id, fun _ htask => .inl htask⟩, rfl,
        .inr ⟨by rw [hboot]; decide, nofun⟩⟩ rfl id
    · exact h
  · split
    · rename_i hmain
      have hboot := h.closed (by rw [hmain]; simp)
      refine h.turn ⟨rfl, rfl, id, fun _ htask => .inl htask⟩ rfl id hboot (.inr ⟨hsettled rfl, ?_⟩)
      intro ⟨other, hother, _⟩
      have hnone : s.holder = some other := hother
      rw [hfree] at hnone
      cases hnone
    · exact h
  · exact h

section Holder

variable {s t : State} {job : Job} (h : Inv s) (hholder : s.holder = some job)

include h hholder

theorem Inv.conclude {operation : Operation} {revision : Nat} {success : Bool}
    (htask : job.task = .operation operation revision) (hstage : job.stage = .returned success) :
    Inv (conclude s job operation revision success) := by
  unfold CleanStop.conclude
  simp only
  split
  · apply h.goOn hholder (kept_phase s .stopping fun hflag => by rw [hflag]; rfl)
    exact jobInv_cleaning (heard_drivers false false)
  · rename_i hover
    have hreleased : Inv s.release := h.release (kept_phase s s.phase id)
    apply hreleased.answer rfl
    intro hkill
    have hknown := (h.job job hholder).returned success hstage (by rw [htask, hkill]; rfl)
    exact hknown.resolve_right fun hfailed => hover ⟨hfailed.1, .inr hfailed.2⟩

theorem Inv.cleaned {operation : Operation} {failedStart force failed : Bool}
    (hstage : job.stage = .cleaning failedStart ⟨force, [], failed⟩) :
    Inv (cleaned s operation failedStart failed) := by
  have hsettled : s.Settled := settled_of_heard ((h.job job hholder).cleaning _ _ hstage)
  unfold CleanStop.cleaned
  have hreleased := h.release (kept_phase s (if failedStart || failed then .failed else .stopped) id)
  exact hreleased.answer rfl (fun _ => hsettled) false

theorem Inv.abandon (habandons : abandons job = true) : Inv (s.goOn job (.returned false)) := by
  apply h.goOn hholder (kept_phase s s.phase id)
  apply jobInv_returned
  intro hkill
  right
  refine ⟨rfl, ?_⟩
  unfold abandons at habandons
  split at habandons
  · cases habandons
  · cases habandons
  · rename_i operation _ _ hkills htask hstage
    rw [htask] at hkill
    cases operation with
    | kill last => exact absurd rfl (hkills last)
    | _ => cases hkill
  · rename_i hstage
    rw [isKill_of_isStart ((h.job job hholder).waiting hstage)] at hkill
    cases hkill
  · rename_i hstage
    exact ((h.job job hholder).collecting _ hstage).2
  · rename_i htask _
    rw [htask] at hkill
    cases hkill
  · rename_i htask _
    rw [htask] at hkill
    cases hkill
  · cases habandons

theorem Inv.holderStep (hlive : ∀ ending, s.main ≠ .ended ending) {event : Event}
    (hcareful : Careful s event) (hstep : holderStep s job event = some t) : Inv t := by
  unfold CleanStop.holderStep at hstep
  split at hstep
  · rename_i htask hstage
    cases hstep
    exact h.beginStart hholder (by rw [htask]; rfl) hstage _ _ _
  · exact h.beginStop hholder hstep
  · rename_i htask _
    cases hstep
    exact h.beginConfigure hholder (by rw [htask]; rfl) hcareful
  · rename_i htask _
    cases hstep
    exact h.beginReload hholder (by rw [htask]; rfl) _
  · rename_i htask _
    cases hstep
    exact h.requested hholder (by rw [htask]; rfl) _
  · rename_i htask _
    cases hstep
    exact h.reloaded hholder (by rw [htask]; rfl) _
  · rename_i htask _
    cases hstep
    exact h.returned hholder (kept_phase s s.phase id) (by rw [htask]; rfl) _
  · rename_i hstage
    cases hstep
    exact h.spawn hholder hlive hstage _
  · rename_i hstage
    cases hstep
    exact h.goOn hholder (kept_phase s s.phase id)
      (jobInv_starting ((h.job job hholder).spawning _ hstage) (.inl rfl))
  · rename_i hstage
    cases hstep
    exact h.ready hholder hstage _
  · rename_i hstage
    split at hstep
    · cases hstep
      exact h.heard hholder hstage (.inl rfl)
    · cases hstep
  · rename_i hstage
    split at hstep
    · cases hstep
      exact h.heard hholder hstage (.inr rfl)
    · cases hstep
  · rename_i hstage
    split at hstep
    · cases hstep
      exact h.heardCleaning hholder hstage (.inl rfl)
    · cases hstep
  · rename_i hstage
    split at hstep
    · cases hstep
      exact h.heardCleaning hholder hstage (.inr rfl)
    · cases hstep
  · rename_i hstage
    cases hstep
    exact h.collected hholder hstage _
  · rename_i hstage
    cases hstep
    exact h.cleaned hholder hstage
  · rename_i htask hstage
    cases hstep
    exact h.conclude hholder htask hstage
  · split at hstep
    · rename_i habandons
      cases hstep
      exact h.abandon hholder habandons
    · cases hstep
  · cases hstep

end Holder

/-! ## Every step of a life -/

theorem Inv.act {s t : State} (h : Inv s) (hlive : ∀ ending, s.main ≠ .ended ending) {event : Event}
    (hcareful : Careful s event) (hstep : act s event = some t) : Inv t := by
  unfold CleanStop.act at hstep
  split at hstep
  · split at hstep
    · rename_i hrunning
      cases hstep
      exact h.exit hrunning _
    · cases hstep
  · split at hstep
    · cases hstep
      exact h.observe _
    · cases hstep
  · split at hstep
    · exact h.requestStep hstep
    · cases hstep
  · cases hstep
    exact h.outside ⟨⟨rfl, rfl, id, fun _ htask => .inl htask⟩, rfl, .inl rfl⟩ rfl id
  · split at hstep
    · cases hstep
      exact h.outside ⟨⟨rfl, rfl, id, queue_append rfl _⟩, rfl, .inl rfl⟩ rfl id
    · cases hstep
  · cases hstep
    exact h.outside ⟨⟨rfl, rfl, id, fun _ htask => .inl (List.mem_of_mem_erase htask)⟩, rfl, .inl rfl⟩
      rfl id
  · split at hstep
    · rename_i hwaiting
      cases hstep
      exact h.acquire hwaiting
    · cases hstep
  · rw [Option.or_eq_some_iff, Option.or_eq_some_iff] at hstep
    rcases hstep with hstep | ⟨_, hstep | ⟨_, hstep⟩⟩
    · exact h.bootStep hstep
    · exact h.mainStep hcareful hstep
    · obtain ⟨job, hholder, hstep⟩ := Option.bind_eq_some_iff.1 hstep
      exact h.holderStep hholder hlive hcareful hstep

theorem Inv.step {s t : State} (h : Inv s) {event : Event} (hcareful : Careful s event)
    (hstep : step s event = some t) : Inv t := by
  unfold CleanStop.step at hstep
  split at hstep
  · cases hstep
  · rename_i hlive
    exact h.act hlive hcareful hstep

/-! ## Starts -/

/-- The boot task, `run` and the tasks that wait neither start the game nor
change a process. -/
theorem bootStep_starts {s t : State} {event : Event} (hstep : bootStep s event = some t) :
    t.starts = s.starts ∧ t.processes = s.processes := by
  unfold bootStep accept at hstep
  split at hstep
  all_goals (repeat' split at hstep) <;> cases hstep <;> exact ⟨rfl, rfl⟩

theorem mainStep_starts {s t : State} {event : Event} (hstep : mainStep s event = some t) :
    t.starts = s.starts ∧ t.processes = s.processes := by
  unfold mainStep at hstep
  split at hstep
  all_goals (repeat' split at hstep) <;> cases hstep <;> exact ⟨rfl, rfl⟩

theorem requestStep_starts {s t : State} {operation : Operation}
    (hstep : requestStep s operation = some t) :
    t.starts = s.starts ∧ t.processes = s.processes := by
  unfold requestStep accept at hstep
  split at hstep
  all_goals (repeat' split at hstep) <;> cases hstep <;> exact ⟨rfl, rfl⟩

theorem observe_starts (s : State) (process : Nat) :
    (s.observe process).starts = s.starts ∧ (s.observe process).processes = s.processes := by
  unfold State.observe
  simp only
  split_ifs <;> exact ⟨rfl, rfl⟩

theorem answer_starts (s : State) (operation : Operation) (success : Bool) :
    (s.answer operation success).starts = s.starts ∧
      (s.answer operation success).processes = s.processes := by
  unfold State.answer
  split
  · split <;> exact ⟨rfl, rfl⟩
  · split <;> exact ⟨rfl, rfl⟩
  · exact ⟨rfl, rfl⟩

theorem collected_starts (s : State) (job : Job) (failed success : Bool) :
    (collected s job failed success).starts = s.starts ∧
      (collected s job failed success).processes = s.processes := by
  unfold collected
  simp only
  split <;> exact ⟨rfl, rfl⟩

/-- A step after the first process of a life: the game is not started again,
and there still was a process. -/
def Onward (s t : State) : Prop := t.starts = s.starts ∧ t.processes ≠ []

theorem Onward.of_same {s t : State} (hprocesses : s.processes ≠ [])
    (h : t.starts = s.starts ∧ t.processes = s.processes) : Onward s t :=
  ⟨h.1, by rw [h.2]; exact hprocesses⟩

theorem holderStep_onward {s t : State} (h : Inv s) {job : Job} (hholder : s.holder = some job)
    {event : Event} (hprocesses : s.processes ≠ []) (hstep : holderStep s job event = some t) :
    Onward s t := by
  unfold holderStep at hstep
  split at hstep
  · -- the start request of the boot task comes before every process
    rename_i htask hstage
    exact absurd ((h.job job hholder).unstarted hstage (by rw [htask]; rfl)) hprocesses
  · unfold beginStop at hstep
    refine Onward.of_same hprocesses ?_
    split at hstep
    all_goals (repeat' split at hstep) <;> cases hstep <;> exact ⟨rfl, rfl⟩
  · cases hstep
    refine Onward.of_same hprocesses ?_
    unfold beginConfigure
    split <;> exact ⟨rfl, rfl⟩
  · cases hstep
    refine Onward.of_same hprocesses ?_
    unfold beginReload
    split <;> exact ⟨rfl, rfl⟩
  · cases hstep
    refine Onward.of_same hprocesses ?_
    unfold requested
    split <;> exact ⟨rfl, rfl⟩
  · cases hstep
    refine Onward.of_same hprocesses ?_
    unfold reloaded
    split <;> exact ⟨rfl, rfl⟩
  · cases hstep
    exact ⟨rfl, hprocesses⟩
  · cases hstep
    unfold spawn
    split
    · refine ⟨rfl, ?_⟩
      show s.processes ++ [_] ≠ []
      simp
    · exact ⟨rfl, hprocesses⟩
  · cases hstep
    exact ⟨rfl, hprocesses⟩
  · cases hstep
    refine Onward.of_same hprocesses ?_
    unfold ready
    split <;> exact ⟨rfl, rfl⟩
  · split at hstep
    · cases hstep
      exact ⟨rfl, hprocesses⟩
    · cases hstep
  · split at hstep
    · cases hstep
      exact ⟨rfl, hprocesses⟩
    · cases hstep
  · split at hstep
    · cases hstep
      exact ⟨rfl, hprocesses⟩
    · cases hstep
  · split at hstep
    · cases hstep
      exact ⟨rfl, hprocesses⟩
    · cases hstep
  · cases hstep
    exact Onward.of_same hprocesses (collected_starts s job _ _)
  · cases hstep
    exact Onward.of_same hprocesses (answer_starts _ _ _)
  · cases hstep
    refine Onward.of_same hprocesses ?_
    unfold conclude
    simp only
    split
    · exact ⟨rfl, rfl⟩
    · exact answer_starts _ _ _
  · split at hstep
    · cases hstep
      exact ⟨rfl, hprocesses⟩
    · cases hstep
  · cases hstep

theorem act_onward {s t : State} (h : Inv s) {event : Event} (hprocesses : s.processes ≠ [])
    (hstep : act s event = some t) : Onward s t := by
  unfold act at hstep
  split at hstep
  · split at hstep
    · cases hstep
      refine ⟨rfl, ?_⟩
      show s.processes.set _ _ ≠ []
      rw [Ne, List.set_eq_nil_iff]
      exact hprocesses
    · cases hstep
  · split at hstep
    · cases hstep
      exact Onward.of_same hprocesses (observe_starts s _)
    · cases hstep
  · split at hstep
    · exact Onward.of_same hprocesses (requestStep_starts hstep)
    · cases hstep
  · cases hstep
    exact ⟨rfl, hprocesses⟩
  · split at hstep
    · cases hstep
      exact ⟨rfl, hprocesses⟩
    · cases hstep
  · cases hstep
    exact ⟨rfl, hprocesses⟩
  · split at hstep
    · cases hstep
      exact ⟨rfl, hprocesses⟩
    · cases hstep
  · rw [Option.or_eq_some_iff, Option.or_eq_some_iff] at hstep
    rcases hstep with hstep | ⟨_, hstep | ⟨_, hstep⟩⟩
    · exact Onward.of_same hprocesses (bootStep_starts hstep)
    · exact Onward.of_same hprocesses (mainStep_starts hstep)
    · obtain ⟨job, hholder, hstep⟩ := Option.bind_eq_some_iff.1 hstep
      exact holderStep_onward h hholder hprocesses hstep

theorem step_onward {s t : State} (h : Inv s) {event : Event} (hprocesses : s.processes ≠ [])
    (hstep : step s event = some t) : Onward s t := by
  unfold step at hstep
  split at hstep
  · cases hstep
  · exact act_onward h hprocesses hstep

/-! ## Careful runs -/

/-- A step that loses no process. -/
def CarefulStep (s : State) (event : Event) (t : State) : Prop :=
  Careful s event ∧ step s event = some t

theorem inv_initial : Inv {} where
  known := .inr fun _ hprocess => by cases hprocess
  unbooted _ := ⟨rfl, fun ⟨_, hholder, _⟩ => by cases hholder⟩
  queue _ htask := by cases htask
  job _ hholder := by cases hholder
  main := trivial
  closed hne := absurd rfl hne

theorem inv_of_run {events : List Event} {s : State} (h : Run CarefulStep {} events s) : Inv s :=
  h.invariant (fun _ _ _ hinv hstep => hinv.step hstep.1 hstep.2) inv_initial

theorem starts_of_run {events : List Event} {s t : State} (hinv : Inv s)
    (hprocesses : s.processes ≠ []) (h : Run CarefulStep s events t) :
    Inv t ∧ t.starts = s.starts ∧ t.processes ≠ [] := by
  induction h with
  | nil => exact ⟨hinv, rfl, hprocesses⟩
  | snoc _ hstep ih =>
    obtain ⟨hinv, hstarts, hne⟩ := ih
    obtain ⟨hsame, hne⟩ := step_onward hinv hne hstep.2
    exact ⟨hinv.step hstep.1 hstep.2, hsame.trans hstarts, hne⟩

theorem clean_of_forall {s : State} (h : ∀ process < s.processes.length, s.Clean process) :
    ∀ process ∈ s.processes, process.clean = true := by
  intro process hprocess
  obtain ⟨position, hposition⟩ := List.mem_iff_getElem?.1 hprocess
  have hclean := h position (List.getElem?_eq_some_iff.1 hposition).1
  rw [State.Clean, State.exited, hposition] at hclean
  exact hclean

/-- In a life whose steps lose no process, the clean stop is recorded only
when every process ended cleanly.  When one did not, the game is not started
again, and the life ends in a failure. -/
theorem clean_stop_sound {events : List Event} {s : State} (hrun : Run CarefulStep {} events s) :
    (s.main = .ended .cleanStop → ∀ process ∈ s.processes, process.clean = true) ∧
      (∀ ending, s.main = .ended ending → (∃ process ∈ s.processes, process.clean = false) →
        ending = .failure) ∧
      ((∃ process ∈ s.processes, process.exit ≠ none ∧ process.clean = false) →
        ∀ later t, Run CarefulStep s later t → t.starts = s.starts) := by
  have hinv := inv_of_run hrun
  have hverdict := hinv.main
  unfold MainInv at hverdict
  refine ⟨?_, ?_, ?_⟩
  · intro hended
    rw [hended] at hverdict
    exact clean_of_forall hverdict
  · intro ending hended ⟨process, hprocess, hunclean⟩
    rw [hended] at hverdict
    have hnot : ¬∀ process < s.processes.length, s.Clean process := by
      intro hall
      rw [clean_of_forall hall process hprocess] at hunclean
      cases hunclean
    cases ending with
    | cleanStop => exact absurd hverdict hnot
    | nothing => exact absurd hverdict hnot
    | failure => rfl
  · intro ⟨process, hprocess, _⟩ later t hlater
    exact (starts_of_run hinv (List.ne_nil_of_mem hprocess) hlater).2.1

/-! ## Two lives -/

/-- The boot task starts the one shard of a room. -/
def bootEvents : List Event :=
  [.requestStart, .beginStart true true ["Master"], .spawn true, .spawn true, .ready true,
    .conclude, .bootAnswered true]

/-- The world is reset, a signal ends the life, and the process ends cleanly. -/
def cleanLife : List Event :=
  bootEvents ++ [.request .reload, .beginReload true, .requested true, .reloaded true, .conclude,
    .leave 0, .permit true, .acquire 0, .beginStop true,
    .exit 0 (.report true false true false), .observe 0, .report 0, .collected true, .decide, .record]

/-- A world that is not loaded again: the cleanup stops the process, which ends cleanly. -/
def failedReload : List Event :=
  bootEvents ++ [.request .reload, .beginReload true, .requested true, .reloaded false, .conclude,
    .exit 0 (.report true false true false), .report 0, .collected true, .leave 0, .permit true,
    .acquire 0, .beginStop true, .report 0, .collected true, .decide]

/-- The shard crashes, and a request forgets it before its monitor looks. -/
def forgottenLife : List Event :=
  bootEvents ++ [.request .configure, .exit 0 (.report false false true false),
    .beginConfigure true, .conclude, .observe 0, .leave 0, .permit true, .acquire 0,
    .beginStop true, .collected true, .decide]

/-- An event that loses no process in any state. -/
def Event.harmless : Event → Bool
  | .beginConfigure _ | .killRefused | .killTimedOut => false
  | _ => true

theorem careful_of_harmless {s : State} {event : Event} (h : event.harmless = true) :
    Careful s event := by
  cases event with
  | beginConfigure saved => cases h
  | killRefused => cases h
  | killTimedOut => cases h
  | _ => trivial

theorem careful_run {events : List Event} {s t : State} (hevents : events.all Event.harmless = true)
    (h : events.foldlM step s = some t) : Run CarefulStep s events t := by
  rw [List.all_eq_true] at hevents
  exact Run.of_foldlM (fun _ event hevent _ hstep =>
    ⟨careful_of_harmless (hevents event hevent), hstep⟩) h

/-- The end of the life that a signal ends. -/
def cleanEnd : State := (cleanLife.foldlM step {}).getD {}

theorem clean_stop_sound_cleanEnd :
    cleanEnd.main = .ended .cleanStop ∧ cleanEnd.processes.length = 1 ∧
      ∀ process ∈ cleanEnd.processes, process.clean = true :=
  have hrun : Run CarefulStep {} cleanLife cleanEnd := careful_run (by decide) (by decide)
  ⟨by decide, by decide, (clean_stop_sound hrun).1 (by decide)⟩

example : (failedReload.foldlM step {}).map State.main = some (.ended .failure) := by decide

/-- The room forgot a crash, and the life ends in silence. -/
theorem forgotten_crash :
    ∃ s, Run (fun s event t => step s event = some t) {} forgottenLife s ∧
      s.main = .ended .nothing ∧
      ∃ process ∈ s.processes, process.exit ≠ none ∧ process.clean = false := by
  have hrun : forgottenLife.foldlM step {} = some ((forgottenLife.foldlM step {}).getD {}) := by
    decide
  refine ⟨_, Run.of_foldlM (fun _ _ _ _ hstep => hstep) hrun, by decide, ?_⟩
  exact ⟨⟨"Master", some (.report false false true false)⟩, by decide, by decide, by decide⟩

end DstServer.CleanStop
