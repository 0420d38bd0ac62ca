import Mathlib

/-!
# Allotment in one pass

A list of requests is served in its order.  A request for a certain value
gets that value or the pass fails; a request for any value gets the next
one of a pool, and the pool is never searched twice.

* `allot_sound` says what a pass that succeeds gives.
* `Feasible` is the condition under which some allotment exists that
  serves every request: the wanted values are distinct and free, and the
  pool has enough others.
* `Starved` says that a request comes too late: the requests for any value
  before it take the value that it wants.  `allot_isSome_iff` says that of
  the feasible requests just these fail.
-/

namespace Lib

section Allot

variable {ν : Type}

/-- The values that are asked for. -/
def wanted (requests : List (Option ν)) : List ν := requests.filterMap id

@[simp] theorem wanted_nil : wanted ([] : List (Option ν)) = [] := rfl

@[simp] theorem wanted_some (d : ν) (requests : List (Option ν)) :
    wanted (some d :: requests) = d :: wanted requests := rfl

@[simp] theorem wanted_none (requests : List (Option ν)) :
    wanted (none :: requests) = wanted requests := rfl

@[simp] theorem wanted_append (first second : List (Option ν)) :
    wanted (first ++ second) = wanted first ++ wanted second := List.filterMap_append

variable [DecidableEq ν]

/-- The first value of the pool that is free, with the rest of the pool. -/
def nextFree (free : ν → Bool) (taken : List ν) : List ν → Option (ν × List ν)
  | [] => none
  | c :: pool => if free c = true ∧ c ∉ taken then some (c, pool) else nextFree free taken pool

/-- Serve the requests in their order. -/
def allot (free : ν → Bool) (taken pool : List ν) : List (Option ν) → Option (List ν)
  | [] => some []
  | some d :: requests =>
    if free d = true ∧ d ∉ taken then (allot free (d :: taken) pool requests).map (d :: ·)
    else none
  | none :: requests =>
    (nextFree free taken pool).bind fun next =>
      (allot free (next.1 :: taken) next.2 requests).map (next.1 :: ·)

/-- The values of a pool that no request has and none of these asks for. -/
def spare (free : ν → Bool) (taken pool : List ν) (requests : List (Option ν)) : List ν :=
  pool.filter fun c => free c = true ∧ c ∉ taken ∧ c ∉ wanted requests

structure Feasible (free : ν → Bool) (taken pool : List ν) (requests : List (Option ν)) :
    Prop where
  distinct : (wanted requests).Nodup
  available : ∀ d ∈ wanted requests, free d = true ∧ d ∉ taken
  enough : requests.count none ≤ (spare free taken pool requests).length

/-- Some request wants a value of the pool that the requests before it
have reached. -/
def Starved (free : ν → Bool) (taken pool : List ν) (requests : List (Option ν)) : Prop :=
  ∃ before d after, requests = before ++ some d :: after ∧ d ∈ pool ∧
    (spare free taken (pool.takeWhile (· ≠ d)) before).length < before.count none

variable {free : ν → Bool} {taken pool : List ν} {requests : List (Option ν)}

/-! ## The next free value -/

/-- The search passes over values that are not free. -/
theorem nextFree_eq_some {c : ν} {rest : List ν} (h : nextFree free taken pool = some (c, rest)) :
    ∃ skipped, pool = skipped ++ c :: rest ∧ (∀ x ∈ skipped, free x = false ∨ x ∈ taken) ∧
      free c = true ∧ c ∉ taken := by
  induction pool with
  | nil => simp [nextFree] at h
  | cons x pool ih =>
    rw [nextFree] at h
    split_ifs at h with hx
    · cases h
      exact ⟨[], rfl, by simp, hx⟩
    · obtain ⟨skipped, rfl, hskipped, hc⟩ := ih h
      refine ⟨x :: skipped, rfl, ?_, hc⟩
      intro y hy
      rcases List.mem_cons.1 hy with rfl | hy
      · by_cases hfree : free y = true
        · exact Or.inr (by simpa [hfree] using hx)
        · exact Or.inl (by simpa using hfree)
      · exact hskipped y hy

theorem nextFree_eq_none (h : nextFree free taken pool = none) :
    ∀ x ∈ pool, free x = false ∨ x ∈ taken := by
  induction pool with
  | nil => simp
  | cons x pool ih =>
    rw [nextFree] at h
    split_ifs at h with hx
    intro y hy
    rcases List.mem_cons.1 hy with rfl | hy
    · by_cases hfree : free y = true
      · exact Or.inr (by simpa [hfree] using hx)
      · exact Or.inl (by simpa using hfree)
    · exact ih h y hy

/-! ## What an allotment gives -/

/-- The values are distinct, free and the ones that were asked for. -/
theorem allot_sound {values : List ν} (h : allot free taken pool requests = some values) :
    values.Nodup ∧ (∀ v ∈ values, free v = true ∧ v ∉ taken) ∧
      List.Forall₂ (fun request v => ∀ d, request = some d → v = d) requests values := by
  induction requests generalizing taken pool values with
  | nil =>
    cases h
    simp
  | cons request requests ih =>
    -- a value that is added to the taken ones stays apart from the later ones
    have hcons : ∀ {v : ν} {pool' values' : List ν}, free v = true ∧ v ∉ taken →
        allot free (v :: taken) pool' requests = some values' → (∀ d, request = some d → v = d) →
        (v :: values').Nodup ∧ (∀ x ∈ v :: values', free x = true ∧ x ∉ taken) ∧
          List.Forall₂ (fun request v => ∀ d, request = some d → v = d) (request :: requests)
            (v :: values') := by
      intro v pool' values' hv hrest hrequest
      obtain ⟨hnodup, hfree, hserved⟩ := ih hrest
      have hnot : v ∉ values' := fun hmem => (hfree v hmem).2 List.mem_cons_self
      refine ⟨List.nodup_cons.2 ⟨hnot, hnodup⟩, ?_, List.Forall₂.cons hrequest hserved⟩
      intro x hx
      rcases List.mem_cons.1 hx with rfl | hx
      · exact hv
      · exact ⟨(hfree x hx).1, fun hmem => (hfree x hx).2 (List.mem_cons_of_mem _ hmem)⟩
    cases request with
    | some d =>
      rw [allot] at h
      split_ifs at h with hd
      obtain ⟨values', hrest, rfl⟩ := Option.map_eq_some_iff.1 h
      exact hcons hd hrest fun e he => Option.some.inj he
    | none =>
      rw [allot] at h
      obtain ⟨⟨c, rest⟩, hnext, h⟩ := Option.bind_eq_some_iff.1 h
      obtain ⟨values', hrest, rfl⟩ := Option.map_eq_some_iff.1 h
      obtain ⟨_, _, _, hc⟩ := nextFree_eq_some hnext
      exact hcons hc hrest (by simp)

/-- A request for a taken value fails the pass. -/
theorem allot_eq_none_of_taken {d : ν} (hd : d ∈ taken) (hw : d ∈ wanted requests) :
    allot free taken pool requests = none := by
  cases h : allot free taken pool requests with
  | none => rfl
  | some values =>
    obtain ⟨_, hfree, hserved⟩ := allot_sound h
    have hmem : some d ∈ requests := by
      simpa [wanted] using hw
    obtain ⟨i, hi, heq⟩ := List.getElem_of_mem hmem
    have hlen := hserved.length_eq
    have hv : values[i] = d := hserved.get hi (hlen ▸ hi) d heq
    exact absurd hd (hfree d (hv ▸ List.getElem_mem _)).2

/-! ## When a pass succeeds -/

/-- A value that is not free, or that an earlier request has. -/
private theorem spare_eq_nil (h : ∀ x ∈ pool, free x = false ∨ x ∈ taken) :
    spare free taken pool requests = [] := by
  refine List.filter_eq_nil_iff.2 fun x hx => ?_
  rcases h x hx with hfree | htaken
  · simp [hfree]
  · simp [htaken]

private theorem spare_some (d : ν) :
    spare free taken pool (some d :: requests) = spare free (d :: taken) pool requests := by
  refine List.filter_congr fun x _ => decide_eq_decide.2 ?_
  by_cases hx : x = d <;> simp [hx]

private theorem spare_next {skipped : List ν} {c : ν}
    (hskipped : ∀ x ∈ skipped, free x = false ∨ x ∈ taken) (hc : free c = true ∧ c ∉ taken)
    (hw : c ∉ wanted requests) (hpool : c ∉ pool) :
    spare free taken (skipped ++ c :: pool) (none :: requests) =
      c :: spare free (c :: taken) pool requests := by
  have hrest : spare free taken pool (none :: requests) = spare free (c :: taken) pool requests := by
    refine List.filter_congr fun x hx => decide_eq_decide.2 ?_
    have hne : x ≠ c := fun heq => hpool (heq ▸ hx)
    simp [hne]
  have hnil : spare free taken skipped (none :: requests) = [] := spare_eq_nil hskipped
  rw [spare, List.filter_append, ← spare, hnil, List.nil_append,
    List.filter_cons_of_pos (by simp [hc, hw]), ← spare, hrest]

private theorem starved_some {d : ν} :
    Starved free taken pool (some d :: requests) ↔ Starved free (d :: taken) pool requests := by
  constructor
  · rintro ⟨before, e, after, heq, hmem, hlt⟩
    cases before with
    | nil => simp at hlt
    | cons x before =>
      cases heq
      rw [spare_some] at hlt
      exact ⟨before, e, after, rfl, hmem, by simpa using hlt⟩
  · rintro ⟨before, e, after, rfl, hmem, hlt⟩
    exact ⟨some d :: before, e, after, rfl, hmem, by rw [spare_some]; simpa using hlt⟩

private theorem takeWhile_next {skipped : List ν} {c d : ν} (hd : d ∉ skipped) (hne : c ≠ d) :
    (skipped ++ c :: pool).takeWhile (· ≠ d) = skipped ++ c :: pool.takeWhile (· ≠ d) := by
  have hskipped : ∀ x ∈ skipped, decide (x ≠ d) = true := by
    intro x hx
    simpa using fun heq : x = d => hd (heq ▸ hx)
  rw [List.takeWhile_append_of_pos hskipped, List.takeWhile_cons_of_pos (by simpa using hne)]

private theorem starved_next {skipped : List ν} {c : ν}
    (hskipped : ∀ x ∈ skipped, free x = false ∨ x ∈ taken) (hc : free c = true ∧ c ∉ taken)
    (hw : c ∉ wanted requests) (hpool : c ∉ pool)
    (havailable : ∀ d ∈ wanted requests, free d = true ∧ d ∉ taken) :
    Starved free taken (skipped ++ c :: pool) (none :: requests) ↔
      Starved free (c :: taken) pool requests := by
  have hmiss : ∀ d ∈ wanted requests, d ∉ skipped ∧ c ≠ d := by
    refine fun d hd => ⟨fun hmem => ?_, fun heq => hw (heq ▸ hd)⟩
    rcases hskipped d hmem with hfree | htaken
    · rw [(havailable d hd).1] at hfree
      exact absurd hfree (by decide)
    · exact (havailable d hd).2 htaken
  have hspare : ∀ before d after, requests = before ++ some d :: after →
      (spare free taken ((skipped ++ c :: pool).takeWhile (· ≠ d)) (none :: before)).length =
        (spare free (c :: taken) (pool.takeWhile (· ≠ d)) before).length + 1 := by
    rintro before d after rfl
    obtain ⟨hd, hne⟩ := hmiss d (by simp)
    have hbefore : c ∉ wanted before := fun hmem => hw (by simp [hmem])
    have hstart : c ∉ pool.takeWhile (· ≠ d) := fun hmem =>
      hpool ((List.takeWhile_prefix _).subset hmem)
    rw [takeWhile_next hd hne, spare_next hskipped hc hbefore hstart, List.length_cons]
  constructor
  · rintro ⟨before, d, after, heq, hmem, hlt⟩
    cases before with
    | nil => simp at hlt
    | cons x before =>
      cases heq
      rw [hspare before d after rfl] at hlt
      obtain ⟨hd, hne⟩ := hmiss d (by simp)
      refine ⟨before, d, after, rfl, ?_, by simpa using hlt⟩
      simpa [hd, Ne.symm hne] using hmem
  · rintro ⟨before, d, after, rfl, hmem, hlt⟩
    refine ⟨none :: before, d, after, rfl, by simp [hmem], ?_⟩
    rw [hspare before d after rfl]
    simpa using hlt

/-- Of the feasible requests, the pass fails those that are starved. -/
theorem allot_isSome_iff (hpool : pool.Nodup) (h : Feasible free taken pool requests) :
    (allot free taken pool requests).isSome = true ↔ ¬Starved free taken pool requests := by
  induction requests generalizing taken pool with
  | nil => simp [allot, Starved]
  | cons request requests ih =>
    cases request with
    | some d =>
      have hdistinct := List.nodup_cons.1 h.distinct
      have hd := h.available d List.mem_cons_self
      have hrest : Feasible free (d :: taken) pool requests := {
        distinct := hdistinct.2
        available := fun e he => by
          obtain ⟨hfree, htaken⟩ := h.available e (List.mem_cons_of_mem _ he)
          have hne : e ≠ d := fun heq => hdistinct.1 (heq ▸ he)
          exact ⟨hfree, by simp [hne, htaken]⟩
        enough := by simpa [spare_some] using h.enough }
      rw [allot, if_pos hd, Option.isSome_map, ih hpool hrest, starved_some]
    | none =>
      rw [allot]
      cases hnext : nextFree free taken pool with
      | none =>
        have henough := h.enough
        rw [spare_eq_nil (nextFree_eq_none hnext)] at henough
        simp at henough
      | some next =>
        obtain ⟨c, rest⟩ := next
        obtain ⟨skipped, rfl, hskipped, hc⟩ := nextFree_eq_some hnext
        have hdistinct := List.nodup_append.1 hpool
        have hcrest := List.nodup_cons.1 hdistinct.2.1
        rw [Option.bind_some, Option.isSome_map]
        by_cases hw : c ∈ wanted requests
        · -- the next value is wanted later on
          have hstarved : Starved free taken (skipped ++ c :: rest) (none :: requests) := by
            obtain ⟨before, after, rfl⟩ := List.append_of_mem (show some c ∈ requests by
              simpa [wanted] using hw)
            refine ⟨none :: before, c, after, rfl, by simp, ?_⟩
            have hstart : (skipped ++ c :: rest).takeWhile (· ≠ c) = skipped := by
              have hne : ∀ x ∈ skipped, decide (x ≠ c) = true := fun x hx => by
                simpa using hdistinct.2.2 x hx c List.mem_cons_self
              rw [List.takeWhile_append_of_pos hne, List.takeWhile_cons_of_neg (by simp),
                List.append_nil]
            rw [hstart, spare_eq_nil hskipped]
            simp
          rw [allot_eq_none_of_taken List.mem_cons_self hw]
          simp [hstarved]
        · have hrest : Feasible free (c :: taken) rest requests := {
            distinct := h.distinct
            available := fun e he => by
              obtain ⟨hfree, htaken⟩ := h.available e he
              have hne : e ≠ c := fun heq => hw (heq ▸ he)
              exact ⟨hfree, by simp [hne, htaken]⟩
            enough := by
              have henough := h.enough
              rw [spare_next hskipped hc hw hcrest.1] at henough
              simpa using henough }
          rw [ih hcrest.2 hrest, starved_next hskipped hc hw hcrest.1 h.available]

end Allot

end Lib
