import Mathlib

/-!
# Lists of half-open ranges

A range is a pair of its first point and of the first point after it.
`mergeSorted` sorts a list of ranges and joins those that overlap or touch,
and `locate` finds the range around a point or the next one after it.

`Cover f g l` is the set covered by the images of the ranges: the first
point is mapped by `f` and the end by `g`.  With the identity for both it is
the union of the ranges.  With two monotone maps it is what the ranges
become when their two ends are moved in different ways, for example when
local times are resolved to instants.

* `cover_mergeSorted`: joining does not change the cover, for every such
  pair of maps.
* `separated_mergeSorted`: the joined ranges are apart and in order.
* `Separated.eq_of_covers`: separated ranges are determined by their union.
* `locate_spec`: what `locate` finds in separated ranges, compared with a
  larger set that agrees with the ranges around the point.
-/

namespace Lib

namespace Ranges

variable {α β : Type} [LinearOrder α] [LinearOrder β]

/-- The order in which ranges are sorted: by their start, then by their
end. -/
def before (a b : α × α) : Prop := a.1 < b.1 ∨ a.1 = b.1 ∧ a.2 ≤ b.2

instance (a b : α × α) : Decidable (before a b) := inferInstanceAs (Decidable (_ ∨ _))

/-- Join the ranges of a sorted list to the current one while they overlap
or touch it. -/
def mergeInto : α × α → List (α × α) → List (α × α)
  | current, [] => [current]
  | current, next :: rest =>
    if next.1 ≤ current.2 then mergeInto (current.1, max current.2 next.2) rest
    else current :: mergeInto next rest

/-- Join the ranges of a sorted list. -/
def merge : List (α × α) → List (α × α)
  | [] => []
  | first :: rest => mergeInto first rest

/-- Sort and join. -/
def mergeSorted (l : List (α × α)) : List (α × α) := merge (l.insertionSort before)

/-- The point lies in the image of a range. -/
def Cover (f g : α → β) (l : List (α × α)) (x : β) : Prop := ∃ r ∈ l, f r.1 ≤ x ∧ x < g r.2

/-- The point lies in a range. -/
abbrev Covers (l : List (α × α)) (x : α) : Prop := Cover id id l x

/-- Every range is in front of the next one and does not touch it. -/
def Separated (l : List (α × α)) : Prop := l.Pairwise fun a b => a.2 < b.1

/-- No range is empty. -/
def Proper (l : List (α × α)) : Prop := ∀ r ∈ l, r.1 < r.2

/-! ## Sorting -/

instance : Std.Total (before : α × α → α × α → Prop) where
  total a b := by
    rcases lt_trichotomy a.1 b.1 with h | h | h
    · exact .inl (.inl h)
    · rcases le_total a.2 b.2 with h' | h'
      · exact .inl (.inr ⟨h, h'⟩)
      · exact .inr (.inr ⟨h.symm, h'⟩)
    · exact .inr (.inl h)

instance : IsTrans (α × α) before where
  trans a b c := by
    rintro (hab | ⟨hab, hab'⟩) (hbc | ⟨hbc, hbc'⟩)
    · exact .inl (hab.trans hbc)
    · exact .inl (hbc ▸ hab)
    · exact .inl (hab ▸ hbc)
    · exact .inr ⟨hab.trans hbc, hab'.trans hbc'⟩

theorem before_fst_le {a b : α × α} (h : before a b) : a.1 ≤ b.1 := by
  rcases h with h | h
  · exact le_of_lt h
  · exact le_of_eq h.1

theorem sorted_insertionSort (l : List (α × α)) :
    (l.insertionSort before).Pairwise fun a b => a.1 ≤ b.1 :=
  (List.pairwise_insertionSort before l).imp before_fst_le

theorem mem_insertionSort {l : List (α × α)} {r : α × α} :
    r ∈ l.insertionSort before ↔ r ∈ l :=
  (List.perm_insertionSort before l).mem_iff

/-! ## The cover of a joined list -/

section Cover

variable {f g : α → β}

omit [LinearOrder α] in
theorem cover_cons {r : α × α} {l : List (α × α)} {x : β} :
    Cover f g (r :: l) x ↔ (f r.1 ≤ x ∧ x < g r.2) ∨ Cover f g l x := by
  simp [Cover]

/-- Two ranges that overlap or touch cover what their join covers. -/
theorem cover_join (hf : Monotone f) (hg : Monotone g) (hfg : ∀ a, f a ≤ g a) {a b c d : α}
    (hac : a ≤ c) (hcb : c ≤ b) {x : β} :
    (f a ≤ x ∧ x < g (max b d)) ↔ (f a ≤ x ∧ x < g b) ∨ (f c ≤ x ∧ x < g d) := by
  constructor
  · rintro ⟨hax, hx⟩
    by_cases hb : x < g b
    · exact .inl ⟨hax, hb⟩
    · rw [hg.map_max, lt_max_iff] at hx
      have hcx : f c ≤ x := (hfg c).trans ((hg hcb).trans (not_lt.1 hb))
      rcases hx with hx | hx
      · exact absurd hx hb
      · exact .inr ⟨hcx, hx⟩
  · rintro (⟨hax, hx⟩ | ⟨hcx, hx⟩)
    · exact ⟨hax, hx.trans_le (hg (le_max_left b d))⟩
    · exact ⟨(hf hac).trans hcx, hx.trans_le (hg (le_max_right b d))⟩

theorem cover_mergeInto (hf : Monotone f) (hg : Monotone g) (hfg : ∀ a, f a ≤ g a)
    (current : α × α) (rest : List (α × α)) (hcurrent : ∀ r ∈ rest, current.1 ≤ r.1)
    (hrest : rest.Pairwise fun a b => a.1 ≤ b.1) (x : β) :
    Cover f g (mergeInto current rest) x ↔ Cover f g (current :: rest) x := by
  induction rest generalizing current with
  | nil => rfl
  | cons next rest ih =>
    rw [List.pairwise_cons] at hrest
    unfold mergeInto
    by_cases h : next.1 ≤ current.2
    · rw [if_pos h, ih (current.1, max current.2 next.2)
        (fun r hr => hcurrent r (List.mem_cons_of_mem next hr)) hrest.2]
      rw [cover_cons, cover_cons, cover_cons, ← or_assoc,
        cover_join hf hg hfg (hcurrent next List.mem_cons_self) h]
    · rw [if_neg h, cover_cons, ih next hrest.1 hrest.2]
      rw [cover_cons (r := current)]

/-- Sorting and joining keep the cover. -/
theorem cover_mergeSorted (hf : Monotone f) (hg : Monotone g) (hfg : ∀ a, f a ≤ g a)
    (l : List (α × α)) (x : β) : Cover f g (mergeSorted l) x ↔ Cover f g l x := by
  have hsort : Cover f g (l.insertionSort before) x ↔ Cover f g l x := by
    unfold Cover
    simp only [mem_insertionSort]
  rw [← hsort]
  have hsorted := sorted_insertionSort l
  unfold mergeSorted
  cases hl : l.insertionSort before with
  | nil => rfl
  | cons first rest =>
    rw [hl, List.pairwise_cons] at hsorted
    exact cover_mergeInto hf hg hfg first rest hsorted.1 hsorted.2 x

end Cover

/-- The union of the joined ranges is the union of the ranges. -/
theorem covers_mergeSorted (l : List (α × α)) (x : α) :
    Covers (mergeSorted l) x ↔ Covers l x :=
  cover_mergeSorted monotone_id monotone_id (fun _ => le_rfl) l x

/-! ## The shape of a joined list -/

/-- A property of the starts and of the ends is kept by joining. -/
theorem forall_mergeInto {p q : α → Prop} (current : α × α) (rest : List (α × α))
    (hp : ∀ r ∈ current :: rest, p r.1) (hq : ∀ r ∈ current :: rest, q r.2) :
    ∀ r ∈ mergeInto current rest, p r.1 ∧ q r.2 := by
  induction rest generalizing current with
  | nil =>
    intro r hr
    exact ⟨hp r hr, hq r hr⟩
  | cons next rest ih =>
    rw [List.forall_mem_cons, List.forall_mem_cons] at hp hq
    unfold mergeInto
    by_cases h : next.1 ≤ current.2
    · rw [if_pos h]
      refine ih _ ?_ ?_
      · rw [List.forall_mem_cons]
        exact ⟨hp.1, hp.2.2⟩
      · rw [List.forall_mem_cons]
        refine ⟨?_, hq.2.2⟩
        show q (max current.2 next.2)
        rcases max_choice current.2 next.2 with hmax | hmax
        · rw [hmax]
          exact hq.1
        · rw [hmax]
          exact hq.2.1
    · rw [if_neg h, List.forall_mem_cons]
      refine ⟨⟨hp.1, hq.1⟩, ih next ?_ ?_⟩
      · rw [List.forall_mem_cons]
        exact hp.2
      · rw [List.forall_mem_cons]
        exact hq.2

theorem forall_mergeSorted {p q : α → Prop} {l : List (α × α)} (hp : ∀ r ∈ l, p r.1)
    (hq : ∀ r ∈ l, q r.2) : ∀ r ∈ mergeSorted l, p r.1 ∧ q r.2 := by
  unfold mergeSorted
  cases hl : l.insertionSort before with
  | nil =>
    intro r hr
    cases hr
  | cons first rest =>
    refine forall_mergeInto first rest ?_ ?_
    · intro r hr
      rw [← hl, mem_insertionSort] at hr
      exact hp r hr
    · intro r hr
      rw [← hl, mem_insertionSort] at hr
      exact hq r hr

theorem separated_mergeInto (current : α × α) (rest : List (α × α))
    (hproper : Proper (current :: rest)) (hcurrent : ∀ r ∈ rest, current.1 ≤ r.1)
    (hrest : rest.Pairwise fun a b => a.1 ≤ b.1) :
    Separated (mergeInto current rest) ∧ Proper (mergeInto current rest) ∧
      ∀ r ∈ mergeInto current rest, current.1 ≤ r.1 := by
  induction rest generalizing current with
  | nil =>
    refine ⟨List.pairwise_singleton _ _, hproper, ?_⟩
    intro r hr
    rw [mergeInto, List.mem_singleton] at hr
    rw [hr]
  | cons next rest ih =>
    rw [List.pairwise_cons] at hrest
    unfold Proper at hproper
    rw [List.forall_mem_cons, List.forall_mem_cons] at hproper
    rw [List.forall_mem_cons] at hcurrent
    unfold mergeInto
    by_cases h : next.1 ≤ current.2
    · rw [if_pos h]
      refine ih (current.1, max current.2 next.2) ?_ hcurrent.2 hrest.2
      unfold Proper
      rw [List.forall_mem_cons]
      exact ⟨lt_max_of_lt_left hproper.1, hproper.2.2⟩
    · rw [if_neg h]
      obtain ⟨hseparated, hmerged, hstart⟩ :=
        ih next (List.forall_mem_cons.2 hproper.2) hrest.1 hrest.2
      refine ⟨?_, ?_, ?_⟩
      · refine List.pairwise_cons.2 ⟨?_, hseparated⟩
        intro r hr
        exact (not_le.1 h).trans_le (hstart r hr)
      · unfold Proper
        rw [List.forall_mem_cons]
        exact ⟨hproper.1, hmerged⟩
      · rw [List.forall_mem_cons]
        exact ⟨le_rfl, fun r hr => hcurrent.1.trans (hstart r hr)⟩

/-- Joining nonempty ranges leaves nonempty ranges that are apart. -/
theorem separated_mergeSorted {l : List (α × α)} (h : Proper l) :
    Separated (mergeSorted l) ∧ Proper (mergeSorted l) := by
  have hsorted := sorted_insertionSort l
  unfold mergeSorted
  cases hl : l.insertionSort before with
  | nil =>
    refine ⟨List.Pairwise.nil, ?_⟩
    intro r hr
    cases hr
  | cons first rest =>
    rw [hl, List.pairwise_cons] at hsorted
    have hproper : Proper (first :: rest) := by
      intro r hr
      rw [← hl, mem_insertionSort] at hr
      exact h r hr
    obtain ⟨hseparated, hmerged, _⟩ :=
      separated_mergeInto first rest hproper hsorted.1 hsorted.2
    exact ⟨hseparated, hmerged⟩

/-! ## Searching -/

/-- Where a point is: in a range, before the next range, or after all. -/
inductive Located (α : Type) where
  | inside (range : α × α)
  | before (start : α)
  | after
  deriving DecidableEq, Repr

/-- The first range that contains the point or starts after it. -/
def locate (x : α) : List (α × α) → Located α
  | [] => .after
  | r :: rest =>
    if r.1 ≤ x ∧ x < r.2 then .inside r
    else if x < r.1 then .before r.1
    else locate x rest

/-- Two ranges of a separated list are equal or apart. -/
theorem Separated.apart {l : List (α × α)} (h : Separated l) {a b : α × α} (ha : a ∈ l)
    (hb : b ∈ l) : a = b ∨ a.2 < b.1 ∨ b.2 < a.1 := by
  by_cases hab : a = b
  · exact .inl hab
  · have hpairwise : l.Pairwise fun a b => a.2 < b.1 ∨ b.2 < a.1 := h.imp .inl
    have : Std.Symm fun a b : α × α => a.2 < b.1 ∨ b.2 < a.1 := ⟨fun _ _ => Or.symm⟩
    exact .inr (hpairwise.forall ha hb hab)

/-- The end of a range is not covered. -/
theorem Separated.not_covers_end {l : List (α × α)} (h : Separated l) (hproper : Proper l)
    {r : α × α} (hr : r ∈ l) : ¬Covers l r.2 := by
  rintro ⟨other, hother, hle, hlt⟩
  simp only [id] at hle hlt
  rcases h.apart hother hr with rfl | hapart | hapart
  · exact lt_irrefl _ hlt
  · have hpos := hproper r hr
    exact lt_irrefl _ (hlt.trans (hapart.trans hpos))
  · exact lt_irrefl _ (hapart.trans_le hle)

/-- In front of a range there is a point that is not covered. -/
theorem Separated.exists_not_covers {l : List (α × α)} (h : Separated l) (hproper : Proper l)
    {r : α × α} (hr : r ∈ l) {y : α} (hy : y < r.1) : ∃ z, y ≤ z ∧ z < r.1 ∧ ¬Covers l z := by
  by_cases hcover : Covers l y
  · obtain ⟨other, hother, hle, hlt⟩ := hcover
    simp only [id] at hle hlt
    refine ⟨other.2, le_of_lt hlt, ?_, h.not_covers_end hproper hother⟩
    rcases h.apart hother hr with rfl | hapart | hapart
    · exact absurd (hle.trans_lt hy) (lt_irrefl _)
    · exact hapart
    · exact absurd ((hproper r hr).trans (hapart.trans_le (hle.trans (le_of_lt hy)))) (lt_irrefl _)
  · exact ⟨y, le_rfl, hy, hcover⟩

/-! ## Ranges by what they cover -/

/-- A nonempty list of separated ranges begins at its least point. -/
theorem Separated.le_of_covers {r : α × α} {rest : List (α × α)} (h : Separated (r :: rest))
    (hproper : Proper (r :: rest)) {x : α} (hx : Covers (r :: rest) x) : r.1 ≤ x := by
  obtain ⟨other, hother, hle, _⟩ := hx
  simp only [id] at hle
  rcases List.mem_cons.1 hother with rfl | hother
  · exact hle
  · have hapart := (List.pairwise_cons.1 h).1 other hother
    exact (le_of_lt ((hproper r List.mem_cons_self).trans hapart)).trans hle

/-- What the ranges after the first one cover. -/
theorem Separated.covers_tail {r : α × α} {rest : List (α × α)} (h : Separated (r :: rest))
    {x : α} : Covers rest x ↔ Covers (r :: rest) x ∧ r.2 ≤ x := by
  constructor
  · intro hx
    obtain ⟨other, hother, hle, hlt⟩ := hx
    exact ⟨⟨other, List.mem_cons_of_mem r hother, hle, hlt⟩,
      (le_of_lt ((List.pairwise_cons.1 h).1 other hother)).trans hle⟩
  · intro hx
    obtain ⟨⟨other, hother, hle, hlt⟩, hend⟩ := hx
    cases hother with
    | head => exact absurd (hlt.trans_le hend) (lt_irrefl _)
    | tail _ hother => exact ⟨other, hother, hle, hlt⟩

/-- The first ranges of two lists with the same points end together. -/
theorem Separated.end_le_of_covers {r r' : α × α} {rest rest' : List (α × α)}
    (h : Separated (r :: rest)) (hproper : Proper (r :: rest))
    (hstart : r.1 = r'.1) (hcovers : ∀ x, Covers (r' :: rest') x → Covers (r :: rest) x) :
    r'.2 ≤ r.2 := by
  by_contra hlt
  apply h.not_covers_end hproper List.mem_cons_self
  apply hcovers
  refine ⟨r', List.mem_cons_self, ?_, not_le.1 hlt⟩
  show r'.1 ≤ r.2
  rw [← hstart]
  exact le_of_lt (hproper r List.mem_cons_self)

/-- Separated ranges are determined by the points that they cover. -/
theorem Separated.eq_of_covers {l l' : List (α × α)} (h : Separated l) (h' : Separated l')
    (hproper : Proper l) (hproper' : Proper l') (hcovers : ∀ x, Covers l x ↔ Covers l' x) :
    l = l' := by
  induction l generalizing l' with
  | nil =>
    cases l' with
    | nil => rfl
    | cons r' rest' =>
      have hr' := (hcovers r'.1).2 ⟨r', List.mem_cons_self, le_rfl, hproper' r' List.mem_cons_self⟩
      obtain ⟨other, hother, _⟩ := hr'
      cases hother
  | cons r rest ih =>
    have hr : Covers (r :: rest) r.1 :=
      ⟨r, List.mem_cons_self, le_rfl, hproper r List.mem_cons_self⟩
    cases l' with
    | nil =>
      obtain ⟨other, hother, _⟩ := (hcovers r.1).1 hr
      cases hother
    | cons r' rest' =>
      have hr' : Covers (r' :: rest') r'.1 :=
        ⟨r', List.mem_cons_self, le_rfl, hproper' r' List.mem_cons_self⟩
      have hstart : r.1 = r'.1 :=
        le_antisymm (h.le_of_covers hproper ((hcovers r'.1).2 hr'))
          (h'.le_of_covers hproper' ((hcovers r.1).1 hr))
      have hend : r.2 = r'.2 :=
        le_antisymm
          (h'.end_le_of_covers hproper' hstart.symm fun x => (hcovers x).1)
          (h.end_le_of_covers hproper hstart fun x => (hcovers x).2)
      have hrest : rest = rest' := by
        refine ih (List.Pairwise.of_cons h) (List.Pairwise.of_cons h') ?_ ?_ ?_
        · exact fun other hother => hproper other (List.mem_cons_of_mem r hother)
        · exact fun other hother => hproper' other (List.mem_cons_of_mem r' hother)
        · intro x
          rw [h.covers_tail, h'.covers_tail, hcovers, hend]
      rw [hrest, Prod.ext hstart hend]

/-! ## What a search finds -/

/-- The maximal run of points of `U` around a point `x` of `U`: it starts at
the first component and ends at the second. -/
structure Around (U : α → Prop) (x : α) (r : α × α) : Prop where
  start : IsLeast { s | s ≤ x ∧ ∀ z, s ≤ z → z ≤ x → U z } r.1
  finish : IsLeast { e | x < e ∧ ¬U e } r.2

/-- What it means to have located a point with respect to a set. -/
def Locates (U : α → Prop) (x : α) : Located α → Prop
  | .inside r => U x ∧ Around U x r
  | .before start => ¬U x ∧ IsLeast { s | x < s ∧ U s } start
  | .after => False

theorem locate_cases {x : α} {l : List (α × α)} (h : Separated l) (hproper : Proper l) :
    (∃ r ∈ l, r.1 ≤ x ∧ x < r.2 ∧ locate x l = .inside r) ∨
      (∃ r ∈ l, x < r.1 ∧ locate x l = .before r.1 ∧ ¬Covers l x ∧
        ∀ other ∈ l, x < other.2 → r.1 ≤ other.1) ∨
      locate x l = .after ∧ ∀ r ∈ l, r.2 ≤ x := by
  induction l with
  | nil => exact .inr (.inr ⟨rfl, by simp⟩)
  | cons r rest ih =>
    have hrest : Separated rest := List.Pairwise.of_cons h
    have hfirst : ∀ other ∈ rest, r.2 < other.1 := (List.pairwise_cons.1 h).1
    unfold Proper at hproper
    rw [List.forall_mem_cons] at hproper
    unfold locate
    by_cases hin : r.1 ≤ x ∧ x < r.2
    · rw [if_pos hin]
      exact .inl ⟨r, List.mem_cons_self, hin.1, hin.2, rfl⟩
    rw [if_neg hin]
    by_cases hbefore : x < r.1
    · rw [if_pos hbefore]
      refine .inr (.inl ⟨r, List.mem_cons_self, hbefore, rfl, ?_, ?_⟩)
      · rintro ⟨other, hother, hle, _⟩
        simp only [id] at hle
        rcases List.mem_cons.1 hother with rfl | hother
        · exact absurd (hbefore.trans_le hle) (lt_irrefl _)
        · have hpos := hproper.1.trans (hfirst other hother)
          exact absurd (hbefore.trans (hpos.trans_le hle)) (lt_irrefl _)
      · intro other hother _
        rcases List.mem_cons.1 hother with rfl | hother
        · exact le_rfl
        · exact le_of_lt (hproper.1.trans (hfirst other hother))
    rw [if_neg hbefore]
    have hend : r.2 ≤ x := by
      by_contra hlt
      exact hin ⟨not_lt.1 hbefore, not_le.1 hlt⟩
    rcases ih hrest hproper.2 with ⟨found, hfound, hle, hlt, heq⟩ |
      ⟨found, hfound, hlt, heq, hnot, hleast⟩ | ⟨heq, hall⟩
    · exact .inl ⟨found, List.mem_cons_of_mem r hfound, hle, hlt, heq⟩
    · refine .inr (.inl ⟨found, List.mem_cons_of_mem r hfound, hlt, heq, ?_, ?_⟩)
      · intro hcovers
        rcases cover_cons.1 hcovers with ⟨_, hx⟩ | hcover
        · exact absurd (hend.trans_lt hx) (lt_irrefl _)
        · exact hnot hcover
      · intro other hother hx
        rcases List.mem_cons.1 hother with rfl | hother
        · exact absurd (hend.trans_lt hx) (lt_irrefl _)
        · exact hleast other hother hx
    · refine .inr (.inr ⟨heq, ?_⟩)
      rw [List.forall_mem_cons]
      exact ⟨hend, hall⟩

/-- Searching in separated ranges finds the place of a point in a larger
set `U`, when the two agree between a point before it and a point after it
that are not in `U`, and the ranges reach a point after it that comes before
everything that they miss. -/
theorem locate_spec {x : α} {l : List (α × α)} (h : Separated l) (hproper : Proper l)
    {U : α → Prop} (hsub : ∀ z, Covers l z → U z) {p q : α} (hpx : p ≤ x) (hp : ¬U p)
    (hxq : x < q) (hq : ¬U q) (hagree : ∀ z, p ≤ z → z ≤ q → U z → Covers l z) {next : α}
    (hxnext : x < next) (hnext : Covers l next)
    (hmissed : ∀ z, x < z → U z → ¬Covers l z → next ≤ z) : Locates U x (locate x l) := by
  rcases locate_cases h hproper with ⟨r, hr, hle, hlt, heq⟩ |
    ⟨r, hr, hlt, heq, hnot, hleast⟩ | ⟨heq, hall⟩
  · rw [heq]
    refine ⟨hsub x ⟨r, hr, hle, hlt⟩, ⟨⟨hle, ?_⟩, ?_⟩, ⟨hlt, ?_⟩, ?_⟩
    · intro z hz hzx
      exact hsub z ⟨r, hr, hz, hzx.trans_lt hlt⟩
    · rintro s ⟨hsx, hall⟩
      by_contra hs
      obtain ⟨z, hsz, hzr, hz⟩ := h.exists_not_covers hproper hr (not_le.1 hs)
      have hzx : z ≤ x := (le_of_lt hzr).trans hle
      have hps : p < s := by
        by_contra hsp
        exact hp (hall p (not_lt.1 hsp) hpx)
      exact hz (hagree z ((le_of_lt hps).trans hsz) (hzx.trans (le_of_lt hxq)) (hall z hsz hzx))
    · have hrq : r.2 ≤ q := by
        by_contra hqr
        exact hq (hsub q ⟨r, hr, hle.trans (le_of_lt hxq), not_le.1 hqr⟩)
      intro hU
      exact h.not_covers_end hproper hr
        (hagree r.2 (hpx.trans (le_of_lt hlt)) hrq hU)
    · rintro e ⟨hxe, he⟩
      by_contra her
      exact he (hsub e ⟨r, hr, hle.trans (le_of_lt hxe), not_le.1 her⟩)
  · rw [heq]
    refine ⟨fun hU => hnot (hagree x hpx (le_of_lt hxq) hU), ⟨hlt, ?_⟩, ?_⟩
    · exact hsub r.1 ⟨r, hr, le_rfl, hproper r hr⟩
    · rintro s ⟨hxs, hs⟩
      by_cases hcover : Covers l s
      · obtain ⟨other, hother, hle, hslt⟩ := hcover
        exact (hleast other hother (hxs.trans hslt)).trans hle
      · obtain ⟨other, hother, hle, hother_lt⟩ := hnext
        have hstart := hleast other hother (hxnext.trans hother_lt)
        exact hstart.trans (hle.trans (hmissed s hxs hs hcover))
  · obtain ⟨other, hother, _, hother_lt⟩ := hnext
    exact absurd (hxnext.trans (hother_lt.trans_le (hall other hother))) (lt_irrefl _)

end Ranges

end Lib
