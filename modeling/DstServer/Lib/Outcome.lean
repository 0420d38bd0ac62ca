import Mathlib

/-!
# Outcomes of fallible code that can also panic

A Rust function of type `Result<T, E>` has three ways to end: it returns a
value, it returns an error of type `E`, or it panics (an arithmetic
overflow, an `unwrap` of nothing, a missing map entry).  `Outcome E T`
keeps the three apart, so that "this never panics" is a statement about
the model and not a convention.

The lemmas below are the inversion rules that the step lemmas of a
development use: what it means for a bind, an `ensure` or an `orElse` to
end in a value.  The rules for a bind and a map hold for every `Except`.
-/

namespace Lib

section Related

variable {α β : Type} {R : α → β → Prop} {l : List α} {l' : List β}

/-- A member of the second of two related lists has a partner in the first. -/
theorem exists_mem_left (h : List.Forall₂ R l l') {b : β} (hb : b ∈ l') : ∃ a ∈ l, R a b := by
  induction h with
  | nil => simp at hb
  | cons hab _ ih =>
    rcases List.mem_cons.1 hb with rfl | hb
    · exact ⟨_, List.mem_cons_self, hab⟩
    · obtain ⟨a, ha, hR⟩ := ih hb
      exact ⟨a, List.mem_cons_of_mem _ ha, hR⟩

theorem exists_mem_right (h : List.Forall₂ R l l') {a : α} (ha : a ∈ l) : ∃ b ∈ l', R a b :=
  exists_mem_left h.flip ha

end Related

/-- How a function fails: with an error value or with a panic. -/
inductive Fault (ε : Type) where
  | error (error : ε)
  | panic (message : String)
  deriving DecidableEq, Repr

/-- The result of a fallible function that can also panic. -/
abbrev Outcome (ε α : Type) : Type := Except (Fault ε) α

namespace Outcome

variable {ε α β : Type}

/-- Return the error value `e`. -/
def fail (e : ε) : Outcome ε α := .error (.error e)

/-- Panic with a message. -/
def panics (message : String) : Outcome ε α := .error (.panic message)

/-- `ensure!`: go on when the condition holds, else return the error. -/
def ensure (condition : Prop) [Decidable condition] (e : ε) : Outcome ε Unit :=
  if condition then .ok () else fail e

/-- `assert`: go on when the condition holds, else panic. -/
def assert (condition : Prop) [Decidable condition] : Outcome ε Unit :=
  if condition then .ok () else panics "assertion failed"

/-- `Option::context` and `Option::ok_or`: an absent value is an error. -/
def orError (value : Option α) (e : ε) : Outcome ε α :=
  match value with
  | some a => .ok a
  | none => fail e

/-- `Option::unwrap` and map indexing: an absent value is a panic. -/
def unwrap (value : Option α) : Outcome ε α :=
  match value with
  | some a => .ok a
  | none => panics "called unwrap on a None value"

/-- Subtraction of unsigned integers, which panics below zero. -/
def checkedSub (a b : Nat) : Outcome ε Nat :=
  if b ≤ a then .ok (a - b) else panics "attempt to subtract with overflow"

/-- The function came to an end without a panic. -/
def Quiet (outcome : Outcome ε α) : Prop := ∀ message, outcome ≠ .error (.panic message)

/-- The function returned a value. -/
def Succeeds (outcome : Outcome ε α) : Prop := ∃ a, outcome = .ok a

/-! ## Inversion of the operations -/

theorem bind_eq_ok {x : Except ε α} {f : α → Except ε β} {b : β} :
    (x >>= f) = .ok b ↔ ∃ a, x = .ok a ∧ f a = .ok b := by
  cases x with
  | error e => simp [bind, Except.bind]
  | ok a => simp [bind, Except.bind]

theorem map_eq_ok {x : Except ε α} {f : α → β} {b : β} :
    x.map f = .ok b ↔ ∃ a, x = .ok a ∧ f a = b := by
  cases x with
  | error e => simp [Except.map]
  | ok a => simp [Except.map]

theorem isSome_toOption {x : Outcome ε α} : x.toOption.isSome = true ↔ x.Succeeds := by
  cases x with
  | error e => simp [Except.toOption, Succeeds]
  | ok a => simp [Except.toOption, Succeeds]

@[simp] theorem ok_bind (a : α) (f : α → Except ε β) : (Except.ok a >>= f) = f a := rfl

@[simp] theorem error_bind (e : ε) (f : α → Except ε β) : (Except.error e >>= f) = .error e := rfl

@[simp] theorem fail_bind (e : ε) (f : α → Outcome ε β) :
    ((fail e : Outcome ε α) >>= f) = fail e := rfl

@[simp] theorem pure_eq_ok (a : α) : (pure a : Outcome ε α) = .ok a := rfl

@[simp] theorem fail_ne_ok {e : ε} {a : α} : (fail e : Outcome ε α) ≠ .ok a := by
  simp [fail]

@[simp] theorem ensure_eq_ok {condition : Prop} [Decidable condition] {e : ε} {u : Unit} :
    ensure condition e = .ok u ↔ condition := by
  unfold ensure
  split <;> simp_all [fail]

@[simp] theorem assert_eq_ok {condition : Prop} [Decidable condition] {u : Unit} :
    (assert condition : Outcome ε Unit) = .ok u ↔ condition := by
  unfold assert
  split <;> simp_all [panics]

theorem ensure_of {condition : Prop} [Decidable condition] (h : condition) (e : ε) :
    ensure condition e = .ok () := if_pos h

theorem ensure_of_not {condition : Prop} [Decidable condition] (h : ¬condition) (e : ε) :
    ensure condition e = fail e := if_neg h

@[simp] theorem orError_eq_ok {value : Option α} {e : ε} {a : α} :
    orError value e = .ok a ↔ value = some a := by
  cases value <;> simp [orError, fail]

@[simp] theorem unwrap_eq_ok {value : Option α} {a : α} :
    (unwrap value : Outcome ε α) = .ok a ↔ value = some a := by
  cases value <;> simp [unwrap, panics]

@[simp] theorem checkedSub_eq_ok {a b c : Nat} :
    (checkedSub a b : Outcome ε Nat) = .ok c ↔ b ≤ a ∧ c = a - b := by
  unfold checkedSub
  split
  · constructor
    · intro h
      exact ⟨by assumption, (Except.ok.inj h).symm⟩
    · rintro ⟨_, rfl⟩
      rfl
  · simp [panics, *]

/-- A loop ends without a failure when its body does at every element. -/
theorem forM_eq_ok {l : List α} {f : α → Outcome ε Unit} {u : Unit} :
    l.forM f = .ok u ↔ ∀ a ∈ l, f a = .ok () := by
  induction l with
  | nil => simp [List.forM]
  | cons a l ih =>
    show (f a >>= fun _ => l.forM f) = .ok u ↔ _
    rw [bind_eq_ok]
    simp only [List.forall_mem_cons, ih]
    constructor
    · rintro ⟨_, ha, hl⟩
      exact ⟨ha, hl⟩
    · rintro ⟨ha, hl⟩
      exact ⟨(), ha, hl⟩

/-- A traversal ends in a list when its body ends in a value at every
element. -/
theorem mapM'_eq_ok {l : List α} {f : α → Outcome ε β} {result : List β} :
    l.mapM' f = .ok result ↔ List.Forall₂ (fun a b => f a = .ok b) l result := by
  induction l generalizing result with
  | nil =>
    rw [List.mapM'_nil, pure_eq_ok, List.forall₂_nil_left_iff, Except.ok.injEq]
    exact eq_comm
  | cons a l ih =>
    rw [List.mapM'_cons, bind_eq_ok, List.forall₂_cons_left_iff]
    constructor
    · rintro ⟨b, hb, h⟩
      rw [bind_eq_ok] at h
      obtain ⟨rest, hrest, h⟩ := h
      cases h
      exact ⟨b, rest, hb, ih.1 hrest, rfl⟩
    · rintro ⟨b, rest, hb, hrest, rfl⟩
      refine ⟨b, hb, ?_⟩
      rw [ih.2 hrest]
      rfl

/-- A member of the result comes from a member of the list. -/
theorem exists_mem_of_mapM' {l : List α} {f : α → Outcome ε β} {result : List β}
    (h : l.mapM' f = .ok result) {b : β} (hb : b ∈ result) : ∃ a ∈ l, f a = .ok b :=
  exists_mem_left (mapM'_eq_ok.1 h) hb

/-- A traversal with a body that always ends in a value is a map. -/
theorem mapM'_of_ok {l : List α} {f : α → Outcome ε β} {g : α → β}
    (h : ∀ a ∈ l, f a = .ok (g a)) : l.mapM' f = .ok (l.map g) := by
  rw [mapM'_eq_ok, List.forall₂_map_right_iff, List.forall₂_same]
  exact h

/-! ## Absence of panics -/

@[simp] theorem quiet_ok (a : α) : Quiet (.ok a : Outcome ε α) := by
  intro message
  simp

@[simp] theorem quiet_fail (e : ε) : Quiet (fail e : Outcome ε α) := by
  intro message
  simp [fail]

@[simp] theorem quiet_ensure (condition : Prop) [Decidable condition] (e : ε) :
    Quiet (ensure condition e) := by
  unfold ensure
  split <;> simp

@[simp] theorem quiet_orError (value : Option α) (e : ε) : Quiet (orError value e) := by
  cases value <;> simp [orError]

/-- A bind is quiet when both parts are. -/
theorem Quiet.bind {x : Outcome ε α} {f : α → Outcome ε β} (hx : Quiet x)
    (hf : ∀ a, x = .ok a → Quiet (f a)) : Quiet (x >>= f) := by
  cases x with
  | error e =>
    intro message h
    rw [error_bind] at h
    injection h with h
    exact hx message (congrArg Except.error h)
  | ok a => exact hf a rfl

/-- A loop is quiet when its body is. -/
theorem quiet_forM {l : List α} {f : α → Outcome ε Unit} (h : ∀ a ∈ l, (f a).Quiet) :
    Quiet (l.forM f) := by
  induction l with
  | nil => exact quiet_ok ()
  | cons a l ih =>
    show Quiet (f a >>= fun _ => l.forM f)
    refine (h a List.mem_cons_self).bind ?_
    intro _ _
    exact ih fun b hb => h b (List.mem_cons_of_mem a hb)

/-! ## Absence of one error -/

/-- The function does not return the error `e`. -/
def Avoids (e : ε) (outcome : Outcome ε α) : Prop := outcome ≠ .error (.error e)

section Avoids

variable {e : ε}

@[simp] theorem avoids_ok (a : α) : Avoids e (.ok a : Outcome ε α) := by simp [Avoids]

@[simp] theorem avoids_panics (message : String) : Avoids e (panics message : Outcome ε α) := by
  simp [Avoids, panics]

theorem avoids_fail {other : ε} (h : other ≠ e) : Avoids e (fail other : Outcome ε α) := by
  simpa [Avoids, fail] using h

theorem avoids_ensure {condition : Prop} [Decidable condition] {other : ε} (h : other ≠ e) :
    Avoids e (ensure condition other) := by
  unfold ensure
  split
  · exact avoids_ok ()
  · exact avoids_fail h

theorem avoids_orError {value : Option α} {other : ε} (h : other ≠ e) :
    Avoids e (orError value other) := by
  cases value with
  | none => exact avoids_fail h
  | some a => exact avoids_ok a

theorem Avoids.bind {x : Outcome ε α} {f : α → Outcome ε β} (hx : Avoids e x)
    (hf : ∀ a, x = .ok a → Avoids e (f a)) : Avoids e (x >>= f) := by
  cases x with
  | error fault =>
    intro h
    rw [error_bind] at h
    injection h with h
    exact hx (congrArg Except.error h)
  | ok a => exact hf a rfl

theorem Avoids.map {x : Outcome ε α} {f : α → β} (hx : Avoids e x) : Avoids e (x.map f) := by
  cases x with
  | error fault =>
    intro h
    injection h with h
    exact hx (congrArg Except.error h)
  | ok a => exact avoids_ok (f a)

theorem avoids_forM {l : List α} {f : α → Outcome ε Unit} (h : ∀ a ∈ l, Avoids e (f a)) :
    Avoids e (l.forM f) := by
  induction l with
  | nil => exact avoids_ok ()
  | cons a l ih =>
    show Avoids e (f a >>= fun _ => l.forM f)
    refine (h a List.mem_cons_self).bind ?_
    intro _ _
    exact ih fun b hb => h b (List.mem_cons_of_mem a hb)

theorem avoids_mapM' {l : List α} {f : α → Outcome ε β} (h : ∀ a ∈ l, Avoids e (f a)) :
    Avoids e (l.mapM' f) := by
  induction l with
  | nil => exact avoids_ok []
  | cons a l ih =>
    rw [List.mapM'_cons]
    refine (h a List.mem_cons_self).bind fun b _ => ?_
    refine (ih fun b hb => h b (List.mem_cons_of_mem a hb)).bind fun bs _ => ?_
    exact avoids_ok (b :: bs)

theorem avoids_foldlM {l : List α} {f : β → α → Outcome ε β} (h : ∀ b, ∀ a ∈ l, Avoids e (f b a))
    (b : β) : Avoids e (l.foldlM f b) := by
  induction l generalizing b with
  | nil => exact avoids_ok b
  | cons a l ih =>
    rw [List.foldlM_cons]
    refine (h b a List.mem_cons_self).bind fun b' _ => ?_
    exact ih (fun b a ha => h b a (List.mem_cons_of_mem _ ha)) b'

end Avoids

/-! ## Postconditions -/

/-- The function ends without a panic, and what it returns satisfies the
postcondition. -/
structure Yields (x : Outcome ε α) (post : α → Prop) : Prop where
  quiet : x.Quiet
  post : ∀ a, x = .ok a → post a

variable {post : α → Prop}

theorem yields_ok {a : α} (h : post a) : Yields (.ok a : Outcome ε α) post where
  quiet := quiet_ok a
  post := by
    intro b hb
    rw [← Except.ok.inj hb]
    exact h

theorem yields_ensure (condition : Prop) [Decidable condition] (e : ε) :
    Yields (ensure condition e) fun _ => condition where
  quiet := quiet_ensure condition e
  post := fun _ => ensure_eq_ok.1

theorem yields_orError (value : Option α) (e : ε) :
    Yields (orError value e) fun a => value = some a where
  quiet := quiet_orError value e
  post := fun _ => orError_eq_ok.1

theorem yields_checkedSub {a b : Nat} (h : b ≤ a) :
    Yields (checkedSub a b : Outcome ε Nat) fun c => c = a - b := by
  unfold checkedSub
  rw [if_pos h]
  exact yields_ok rfl

/-- The rule of a sequence: the second part may rely on what the first one
yields. -/
theorem Yields.bind {x : Outcome ε α} {f : α → Outcome ε β} {post' : β → Prop}
    (hx : Yields x post) (hf : ∀ a, post a → Yields (f a) post') : Yields (x >>= f) post' where
  quiet := hx.quiet.bind fun a ha => (hf a (hx.post a ha)).quiet
  post := by
    intro b hb
    obtain ⟨a, ha, hb⟩ := bind_eq_ok.1 hb
    exact (hf a (hx.post a ha)).post b hb

theorem Yields.mono {x : Outcome ε α} {post' : α → Prop} (hx : Yields x post)
    (h : ∀ a, post a → post' a) : Yields x post' where
  quiet := hx.quiet
  post := fun a ha => h a (hx.post a ha)

end Outcome

end Lib
