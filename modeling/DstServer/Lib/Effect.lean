import Mathlib

/-!
# Programs whose calls can fail

An `Effect σ κ ε α` is a program over an outside state `σ`.  It changes the
state by named calls only, and the world keeps the list of the calls so far
with the outcome of each.  Any call may fail, whatever it asks for: the
argument `fails` of `call` says which ones do, by their position in that
list.  A program that fails keeps the state it has reached, as code without
transactions does.

* `bind_eq_ok` and `ensure_eq_ok` invert a program that went through.
* `Within R m` says that every run of `m`, finished or failed, relates the
  world before it to the world after it by `R`.  The rules `within_…`
  follow the program, so a preorder that every call respects is respected
  by the whole.
* `Replays m m'` says that `m` only looks at the state and that whatever it
  returned, `m'` returns in every other world.  It carries a check from the
  run that passed it to a later run without failing calls.
-/

namespace Lib

/-- An outside state, and the calls that were made on it. -/
structure World (σ κ : Type) where
  state : σ
  calls : List (κ × Bool)

/-- A program that calls on the outside and can fail. -/
def Effect (σ κ ε α : Type) : Type := World σ κ → Except ε α × World σ κ

namespace Effect

variable {σ κ ε α β γ : Type}

/-- Return a value. -/
def done (a : α) : Effect σ κ ε α := fun w => (.ok a, w)

/-- Run one program after another. -/
def andThen (m : Effect σ κ ε α) (f : α → Effect σ κ ε β) : Effect σ κ ε β := fun w =>
  match m w with
  | (.ok a, v) => f a v
  | (.error e, v) => (.error e, v)

instance : Monad (Effect σ κ ε) where
  pure := done
  bind := andThen

/-- Return an error. -/
def fail (e : ε) : Effect σ κ ε α := fun w => (.error e, w)

/-- Go on when the condition holds, else return the error. -/
def ensure (condition : Prop) [Decidable condition] (e : ε) : Effect σ κ ε Unit :=
  if condition then done () else fail e

/-- An absent value is an error. -/
def orError (value : Option α) (e : ε) : Effect σ κ ε α :=
  match value with
  | some a => done a
  | none => fail e

/-- One call on the outside.  It fails where `fails` says so, and where the
outside refuses it. -/
def call (fails : Nat → Bool) (name : κ) (e : ε) (act : σ → Option (α × σ)) : Effect σ κ ε α :=
  fun w =>
    match fails w.calls.length, act w.state with
    | false, some (a, s) => (.ok a, ⟨s, w.calls ++ [(name, true)]⟩)
    | _, _ => (.error e, ⟨w.state, w.calls ++ [(name, false)]⟩)

/-- A call that reads the state and leaves it as it is. -/
def look (fails : Nat → Bool) (name : κ) (e : ε) (read : σ → Option α) : Effect σ κ ε α :=
  call fails name e fun s => (read s).map (·, s)

/-- Run a program, and when it fails change the state on the way out. -/
def cleanup (m : Effect σ κ ε α) (undo : σ → σ) : Effect σ κ ε α := fun w =>
  match m w with
  | (.ok a, v) => (.ok a, v)
  | (.error e, v) => (.error e, { v with state := undo v.state })

/-! ## Programs that went through -/

section Ok

variable {m : Effect σ κ ε α} {f : α → Effect σ κ ε β} {u v w : World σ κ}

theorem bind_eq_ok {b : β} :
    (m >>= f) w = (.ok b, v) ↔ ∃ a u, m w = (.ok a, u) ∧ f a u = (.ok b, v) := by
  show andThen m f w = (.ok b, v) ↔ _
  unfold andThen
  split
  · rename_i a u hm
    simp [hm]
  · rename_i e u hm
    simp [hm]

theorem orError_some_bind (a : α) (e : ε) (f : α → Effect σ κ ε β) :
    (orError (some a) e >>= f) = f a := rfl

@[simp] theorem pure_eq_ok {a b : α} :
    (pure a : Effect σ κ ε α) w = (.ok b, v) ↔ a = b ∧ w = v := by
  show (Except.ok a, w) = (Except.ok b, v) ↔ _
  rw [Prod.mk.injEq, Except.ok.injEq]

@[simp] theorem fail_ne_ok {e : ε} {a : α} : (fail e : Effect σ κ ε α) w ≠ (.ok a, v) := by
  unfold fail
  simp

@[simp] theorem ensure_eq_ok {condition : Prop} [Decidable condition] {e : ε} {a : Unit} :
    (ensure condition e : Effect σ κ ε Unit) w = (.ok a, v) ↔ condition ∧ w = v := by
  unfold ensure
  split
  · rename_i h
    simp [h, done]
  · rename_i h
    simp [h]

@[simp] theorem orError_eq_ok {value : Option α} {e : ε} {a : α} :
    (orError value e : Effect σ κ ε α) w = (.ok a, v) ↔ value = some a ∧ w = v := by
  unfold orError
  split
  · simp [done]
  · simp

theorem call_eq_ok {fails : Nat → Bool} {name : κ} {e : ε} {act : σ → Option (α × σ)} {a : α} :
    call fails name e act w = (.ok a, v) ↔
      fails w.calls.length = false ∧ act w.state = some (a, v.state) ∧
        v.calls = w.calls ++ [(name, true)] := by
  obtain ⟨state, calls⟩ := v
  unfold call
  split
  · rename_i b s hfails hact
    simp [hfails, hact, and_assoc, eq_comm]
  · rename_i hnot
    constructor
    · intro h
      simp at h
    · rintro ⟨hfails, hact, _⟩
      exact absurd hact (hnot _ _ hfails)

theorem look_eq_ok {fails : Nat → Bool} {name : κ} {e : ε} {read : σ → Option α} {a : α} :
    look fails name e read w = (.ok a, v) ↔
      fails w.calls.length = false ∧ read w.state = some a ∧ v.state = w.state ∧
        v.calls = w.calls ++ [(name, true)] := by
  unfold look
  rw [call_eq_ok]
  constructor
  · rintro ⟨hfails, hact, hcalls⟩
    simp only [Option.map_eq_some_iff, Prod.mk.injEq] at hact
    obtain ⟨b, hread, rfl, hstate⟩ := hact
    exact ⟨hfails, hread, hstate.symm, hcalls⟩
  · rintro ⟨hfails, hread, hstate, hcalls⟩
    exact ⟨hfails, by rw [hread, hstate]; rfl, hcalls⟩

theorem cleanup_eq_ok {undo : σ → σ} {a : α} :
    cleanup m undo w = (.ok a, v) ↔ m w = (.ok a, v) := by
  unfold cleanup
  split
  · rename_i hm
    rw [hm]
  · rename_i hm
    rw [hm]
    simp

end Ok

/-! ## What every run does to the world -/

section Within

variable {R : World σ κ → World σ κ → Prop} {m : Effect σ κ ε α} {f : α → Effect σ κ ε β}

/-- Every run of the program, failed ones included, stays within `R`. -/
def Within (R : World σ κ → World σ κ → Prop) (m : Effect σ κ ε α) : Prop := ∀ w, R w (m w).2

theorem within_pure (hrefl : ∀ w, R w w) (a : α) : Within R (pure a : Effect σ κ ε α) := hrefl

theorem within_fail (hrefl : ∀ w, R w w) (e : ε) : Within R (fail e : Effect σ κ ε α) := hrefl

theorem within_ensure (hrefl : ∀ w, R w w) (condition : Prop) [Decidable condition] (e : ε) :
    Within R (ensure condition e : Effect σ κ ε Unit) := by
  unfold ensure
  split
  · exact hrefl
  · exact hrefl

theorem within_orError (hrefl : ∀ w, R w w) (value : Option α) (e : ε) :
    Within R (orError value e : Effect σ κ ε α) := by
  unfold orError
  split
  · exact hrefl
  · exact hrefl

theorem within_bind (htrans : ∀ u v w, R u v → R v w → R u w) (hm : Within R m)
    (hf : ∀ a, Within R (f a)) : Within R (m >>= f) := by
  intro w
  show R w (andThen m f w).2
  have hfirst := hm w
  unfold andThen
  split
  · rename_i a v h
    rw [h] at hfirst
    exact htrans _ _ _ hfirst (hf a v)
  · rename_i e v h
    rw [h] at hfirst
    exact hfirst

/-- A call either leaves the state alone or does what it is asked for. -/
theorem within_call {fails : Nat → Bool} {name : κ} {e : ε} {act : σ → Option (α × σ)}
    (hfailed : ∀ w, R w ⟨w.state, w.calls ++ [(name, false)]⟩)
    (hdone : ∀ w a s, act w.state = some (a, s) → R w ⟨s, w.calls ++ [(name, true)]⟩) :
    Within R (call fails name e act) := by
  intro w
  unfold call
  split
  · rename_i a s _ hact
    exact hdone w a s hact
  · exact hfailed w

theorem within_look {fails : Nat → Bool} {name : κ} {e : ε} {read : σ → Option α}
    (hcalled : ∀ w b, R w ⟨w.state, w.calls ++ [(name, b)]⟩) : Within R (look fails name e read) := by
  refine within_call (fun w => hcalled w false) ?_
  intro w a s hact
  simp only [Option.map_eq_some_iff, Prod.mk.injEq] at hact
  obtain ⟨_, _, _, rfl⟩ := hact
  exact hcalled w true

theorem within_cleanup (htrans : ∀ u v w, R u v → R v w → R u w) (hm : Within R m) {undo : σ → σ}
    (hundo : ∀ w, R w { w with state := undo w.state }) : Within R (cleanup m undo) := by
  intro w
  have hrun := hm w
  unfold cleanup
  split
  · rename_i h
    rw [h] at hrun
    exact hrun
  · rename_i e v h
    rw [h] at hrun
    exact htrans _ _ _ hrun (hundo v)

end Within

/-! ## Checks that can be repeated -/

section Replays

variable {m m' : Effect σ κ ε α} {f f' : α → Effect σ κ ε β}

/-- The state is as it was; calls may have been made. -/
def Looks (w v : World σ κ) : Prop := v.state = w.state ∧ w.calls <+: v.calls

theorem looks_refl (w : World σ κ) : Looks w w := ⟨rfl, List.prefix_refl _⟩

theorem looks_trans (u v w : World σ κ) (h : Looks u v) (h' : Looks v w) : Looks u w :=
  ⟨h'.1.trans h.1, h.2.trans h'.2⟩

/-- The first program only looks at the state, and what it returns in one
world the second returns in every world. -/
structure Replays (m m' : Effect σ κ ε α) : Prop where
  looks : Within Looks m
  repeats : ∀ w a v, m w = (.ok a, v) → ∀ w', ∃ v', m' w' = (.ok a, v') ∧ v'.state = w'.state

theorem Replays.state_eq (h : Replays m m') {w v : World σ κ} {a : α} (hm : m w = (.ok a, v)) :
    v.state = w.state := by
  have hlooks := h.looks w
  rw [hm] at hlooks
  exact hlooks.1

theorem replays_pure (a : α) : Replays (pure a : Effect σ κ ε α) (pure a) where
  looks := within_pure looks_refl a
  repeats := by
    intro w b v h w'
    obtain ⟨rfl, rfl⟩ := pure_eq_ok.1 h
    exact ⟨w', rfl, rfl⟩

theorem replays_ensure (condition : Prop) [Decidable condition] (e : ε) :
    Replays (ensure condition e : Effect σ κ ε Unit) (ensure condition e) where
  looks := within_ensure looks_refl condition e
  repeats := by
    intro w a v h w'
    obtain ⟨hcondition, rfl⟩ := ensure_eq_ok.1 h
    exact ⟨w', ensure_eq_ok.2 ⟨hcondition, rfl⟩, rfl⟩

theorem replays_orError (value : Option α) (e : ε) :
    Replays (orError value e : Effect σ κ ε α) (orError value e) where
  looks := within_orError looks_refl value e
  repeats := by
    intro w a v h w'
    obtain ⟨hvalue, rfl⟩ := orError_eq_ok.1 h
    exact ⟨w', orError_eq_ok.2 ⟨hvalue, rfl⟩, rfl⟩

theorem replays_bind (hm : Replays m m') (hf : ∀ a, Replays (f a) (f' a)) :
    Replays (m >>= f) (m' >>= f') where
  looks := within_bind looks_trans hm.looks fun a => (hf a).looks
  repeats := by
    intro w b v h w'
    obtain ⟨a, u, hfirst, hrest⟩ := bind_eq_ok.1 h
    obtain ⟨u', hfirst', hu'⟩ := hm.repeats w a u hfirst w'
    obtain ⟨v', hrest', hv'⟩ := (hf a).repeats u b v hrest u'
    exact ⟨v', bind_eq_ok.2 ⟨a, u', hfirst', hrest'⟩, hv'.trans hu'⟩

theorem within_looks_look (fails : Nat → Bool) (name : κ) (e : ε) (read : σ → Option α) :
    Within Looks (look fails name e read : Effect σ κ ε α) :=
  within_look fun w b => ⟨rfl, List.prefix_append w.calls [(name, b)]⟩

/-- A look that does not depend on the state can be repeated where no call
fails. -/
theorem replays_look (fails : Nat → Bool) (name : κ) (e : ε) (value : Option α) :
    Replays (look fails name e (fun _ => value) : Effect σ κ ε α)
      (look (fun _ => false) name e fun _ => value) where
  looks := within_looks_look fails name e fun _ => value
  repeats := by
    intro w a v h w'
    obtain ⟨_, hread, _⟩ := look_eq_ok.1 h
    exact ⟨⟨w'.state, w'.calls ++ [(name, true)]⟩, look_eq_ok.2 ⟨rfl, hread, rfl, rfl⟩, rfl⟩

end Replays

end Effect

end Lib
