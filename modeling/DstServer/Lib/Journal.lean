import Mathlib

/-!
# Programs that can be cut off between two effects

A `Journal σ ε α` is a program over a persisted state `σ`.  It appends its
effects to a log, each with the persisted state after it, and then returns
a value of type `α` or ends early.  A crash is a prefix of the log: what
the program did after the last effect of the prefix never happened.

`Wp mark safe m post w` is the weakest precondition of a program for such
crashes.  The world `w` is the persisted state together with a ghost value
that `mark` updates at every effect.  It says that `safe` holds in the
world at every point of the log, the first and the last one included, and
that `post` holds of the returned value and the world after the log.

* `wp_done`, `wp_stop`, `wp_stopIf`, `wp_read` and `wp_emit` are the rules of the single
  steps, `wp_bind` that of a sequence.
* `wp_attempt` is the rule of a part whose early end is not the end of the
  program, and `wp_forM` that of a loop.
* `Wp.safe_take` is how a proof is used: every cut of the log is safe.
-/

namespace Lib

/-- A program with a log of effects and an early end. -/
def Journal (σ ε α : Type) : Type := σ → List (ε × σ) × Option (α × σ)

namespace Journal

variable {σ ε α β γ : Type}

/-- Return a value. -/
def done (a : α) : Journal σ ε α := fun s => ([], some (a, s))

/-- Run one program after another. -/
def andThen (m : Journal σ ε α) (f : α → Journal σ ε β) : Journal σ ε β := fun s =>
  match m s with
  | (log, none) => (log, none)
  | (log, some (a, t)) => (log ++ (f a t).1, (f a t).2)

instance : Monad (Journal σ ε) where
  pure := done
  bind := andThen

/-- The persisted state. -/
def read : Journal σ ε σ := fun s => ([], some (s, s))

/-- End early. -/
def stop : Journal σ ε α := fun _ => ([], none)

/-- End early when the condition holds. -/
def stopIf (condition : Prop) [Decidable condition] : Journal σ ε Unit :=
  if condition then stop else done ()

/-- Log an effect and persist a state. -/
def emit (e : ε) (t : σ) : Journal σ ε Unit := fun _ => ([(e, t)], some ((), t))

theorem read_bind (f : σ → Journal σ ε β) (s : σ) : (read >>= f) s = f s s := rfl

theorem emit_bind (e : ε) (t : σ) (f : Unit → Journal σ ε β) (s : σ) :
    (emit e t >>= f) s = ((e, t) :: (f () t).1, (f () t).2) := rfl

/-- The persisted state after a log. -/
def after (s : σ) (log : List (ε × σ)) : σ := (log.getLast?.map Prod.snd).getD s

/-- Run a program and go on, also when it ended early. -/
def attempt (m : Journal σ ε α) : Journal σ ε Unit := fun s =>
  ((m s).1, some ((), match (m s).2 with
    | some (_, t) => t
    | none => after s (m s).1))

/-- The world after a log. -/
def replay (mark : γ → ε → γ) (w : σ × γ) (log : List (ε × σ)) : σ × γ :=
  log.foldl (fun w entry => (entry.2, mark w.2 entry.1)) w

@[simp] theorem replay_append (mark : γ → ε → γ) (w : σ × γ) (log log' : List (ε × σ)) :
    replay mark w (log ++ log') = replay mark (replay mark w log) log' :=
  List.foldl_append

/-- The persisted state of the world is the last one that was logged. -/
theorem replay_fst (mark : γ → ε → γ) (w : σ × γ) (log : List (ε × σ)) :
    (replay mark w log).1 = after w.1 log := by
  induction log using List.reverseRecOn with
  | nil => rfl
  | append_singleton log entry =>
    rw [replay_append, after, List.getLast?_concat]
    rfl

/-! ## The weakest precondition -/

section Wp

variable {mark : γ → ε → γ} {safe : σ × γ → Prop} {m : Journal σ ε α} {f : α → Journal σ ε β}
  {post post' : α → σ × γ → Prop} {w : σ × γ}

/-- Every point of the log is safe, and the result meets the
postcondition. -/
structure Wp (mark : γ → ε → γ) (safe : σ × γ → Prop) (m : Journal σ ε α)
    (post : α → σ × γ → Prop) (w : σ × γ) : Prop where
  crash : ∀ log, log <+: (m w.1).1 → safe (replay mark w log)
  returns : ∀ a t, (m w.1).2 = some (a, t) →
    (replay mark w (m w.1).1).1 = t ∧ post a (replay mark w (m w.1).1)

theorem wp_done {a : α} (hsafe : safe w) (hpost : post a w) : Wp mark safe (pure a) post w := by
  refine ⟨?_, ?_⟩
  · intro log hlog
    rw [List.prefix_nil.1 hlog]
    exact hsafe
  · rintro _ _ ⟨⟩
    exact ⟨rfl, hpost⟩

theorem wp_stop (hsafe : safe w) : Wp mark safe (stop : Journal σ ε α) post w := by
  refine ⟨?_, ?_⟩
  · intro log hlog
    rw [List.prefix_nil.1 hlog]
    exact hsafe
  · rintro _ _ ⟨⟩

theorem wp_stopIf {condition : Prop} [Decidable condition] {post : Unit → σ × γ → Prop}
    (hsafe : safe w) (hpost : ¬condition → post () w) :
    Wp mark safe (stopIf condition) post w := by
  unfold stopIf
  split
  · exact wp_stop hsafe
  · rename_i hcondition
    exact wp_done hsafe (hpost hcondition)

theorem wp_read {post : σ → σ × γ → Prop} (hsafe : safe w) (hpost : post w.1 w) :
    Wp mark safe (read : Journal σ ε σ) post w := by
  refine ⟨?_, ?_⟩
  · intro log hlog
    rw [List.prefix_nil.1 hlog]
    exact hsafe
  · rintro _ _ ⟨⟩
    exact ⟨rfl, hpost⟩

theorem wp_emit {e : ε} {t : σ} {post : Unit → σ × γ → Prop} (hbefore : safe w)
    (hafter : safe (t, mark w.2 e)) (hpost : post () (t, mark w.2 e)) :
    Wp mark safe (emit e t) post w := by
  refine ⟨?_, ?_⟩
  · intro log hlog
    rcases List.prefix_cons_iff.1 hlog with rfl | ⟨rest, rfl, hrest⟩
    · exact hbefore
    · rw [List.prefix_nil.1 hrest]
      exact hafter
  · rintro _ _ ⟨⟩
    exact ⟨rfl, hpost⟩

theorem Wp.mono (h : Wp mark safe m post w) (hpost : ∀ a w, post a w → post' a w) :
    Wp mark safe m post' w := by
  refine ⟨h.crash, ?_⟩
  intro a t hresult
  obtain ⟨hstate, hp⟩ := h.returns a t hresult
  exact ⟨hstate, hpost _ _ hp⟩

/-- The rule of a sequence: a cut of the log lies in the first part or
reaches into the second. -/
theorem wp_bind {post : β → σ × γ → Prop}
    (h : Wp mark safe m (fun a w => Wp mark safe (f a) post w) w) :
    Wp mark safe (m >>= f) post w := by
  have hbind : (m >>= f) w.1 = andThen m f w.1 := rfl
  cases hm : m w.1 with
  | mk log result =>
    cases result with
    | none =>
      have hrun : andThen m f w.1 = (log, none) := by
        unfold andThen
        rw [hm]
      refine ⟨?_, ?_⟩
      · intro cut hcut
        rw [hbind, hrun] at hcut
        exact h.crash cut (by rw [hm]; exact hcut)
      · intro a t hresult
        rw [hbind, hrun] at hresult
        cases hresult
    | some value =>
      obtain ⟨a, t⟩ := value
      have hrun : andThen m f w.1 = (log ++ (f a t).1, (f a t).2) := by
        unfold andThen
        rw [hm]
      obtain ⟨hstate, hnext⟩ := h.returns a t (by rw [hm])
      rw [hm] at hstate hnext
      simp only at hstate hnext
      refine ⟨?_, ?_⟩
      · intro cut hcut
        rw [hbind, hrun] at hcut
        rcases List.prefix_or_prefix_of_prefix hcut (List.prefix_append log (f a t).1) with
          hfirst | ⟨rest, rfl⟩
        · exact h.crash cut (by rw [hm]; exact hfirst)
        · rw [replay_append]
          refine hnext.crash rest ?_
          rw [hstate]
          exact (List.prefix_append_right_inj log).1 hcut
      · intro b u hresult
        rw [hbind, hrun] at hresult ⊢
        simp only at hresult ⊢
        rw [replay_append]
        have hlast := hnext.returns b u
        rw [hstate] at hlast
        exact hlast hresult

/-- The rule of a part that may end early: the safe worlds must be enough
for what follows. -/
theorem wp_attempt {post' : Unit → σ × γ → Prop} (h : Wp mark safe m post w)
    (hpost : ∀ w, safe w → post' () w) : Wp mark safe (attempt m) post' w := by
  refine ⟨h.crash, ?_⟩
  rintro u t hresult
  have hsafe := h.crash (m w.1).1 (List.prefix_refl _)
  refine ⟨?_, hpost _ hsafe⟩
  unfold attempt at hresult ⊢
  simp only [Option.some.injEq, Prod.mk.injEq, true_and] at hresult ⊢
  cases hm : (m w.1).2 with
  | none =>
    rw [hm] at hresult
    rw [← hresult, replay_fst]
  | some value =>
    obtain ⟨a, s⟩ := value
    rw [hm] at hresult
    rw [← hresult]
    exact (h.returns a s hm).1

/-- The rule of a loop whose body keeps an invariant. -/
theorem wp_forM {δ : Type} {items : List δ} {body : δ → Journal σ ε Unit} {inv : σ × γ → Prop}
    (hsafe : ∀ w, inv w → safe w)
    (hbody : ∀ item ∈ items, ∀ w, inv w → Wp mark safe (body item) (fun _ => inv) w)
    (h : inv w) : Wp mark safe (items.forM body) (fun _ => inv) w := by
  induction items generalizing w with
  | nil => exact wp_done (hsafe w h) h
  | cons item items ih =>
    show Wp mark safe (body item >>= fun _ => items.forM body) _ w
    refine wp_bind ((hbody item List.mem_cons_self w h).mono ?_)
    intro _ w' hw'
    exact ih (fun other hother => hbody other (List.mem_cons_of_mem item hother)) hw'

/-- Every cut of the log of a proved program is safe. -/
theorem Wp.safe_take (h : Wp mark safe m post w) (cut : Nat) :
    safe (replay mark w ((m w.1).1.take cut)) :=
  h.crash _ (List.take_prefix cut _)

end Wp

end Journal

end Lib
