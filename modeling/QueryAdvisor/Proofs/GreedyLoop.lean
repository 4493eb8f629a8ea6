import QueryAdvisor.Proofs.FloatOrder
import QueryAdvisor.Proofs.GreedyRound
/-!
# The greedy loop takes each step once

The greedy order is built by a loop. It starts with the first step of fewest rows joined and
every other step remaining, in written order (`CostModel.greedyStart`). While steps remain, a
pass of its body moves one of them to the order (`CostModel.greedyPass`); it would stop early
if a pass found none to take.

A pass always finds one (`CostModel.pick_isSome_iff`). Of the remaining steps it weighs the
linked ones when there are any and all of them otherwise, and the first step it weighs is held
with no comparison; from then on it holds a step. This holds whatever the rows and the join
factors are, NaN included. Each pass takes one step out, so the loop makes one pass per
remaining step (`CostModel.greedyPasses_length`), and the model's loop, which counts its passes
down from the number of remaining steps, ends where the passes end
(`CostModel.greedyFrom_add_of_greedyPasses`). Taking a step out of a strictly increasing list
leaves it strictly increasing (`CostModel.greedyPasses_sorted`).

The search for the start keeps the first step of fewest rows among those it has seen
(`CostModel.FirstFewest.step`). That needs rows that compare: row counts are never NaN.

* `CostModel.greedy_loop_contract`: **over `k ≥ 1` steps the loop makes exactly `k - 1` passes,
  never stops early, keeps the remaining steps strictly increasing and ends with each step
  once, starting at the first step of fewest rows.**
-/

namespace QueryAdvisor

/-- The state of the greedy loop: the steps still to join, the order so far and the rows it
leaves. -/
structure GreedyState where
  remaining : List Nat
  order : List Nat
  card : Float

namespace CostModel

variable {m : CostModel} {useIndexes : Bool}

/-- The state the greedy loop starts from: the first step of fewest rows joined, every other
step remaining in written order. -/
def greedyStart (m : CostModel) : GreedyState :=
  ⟨(List.range m.rows.size).filter (· != m.smallest), [m.smallest], m.rowsOf m.smallest⟩

/-- One pass of the loop body: the step the round takes moves from the remaining steps to the
order. `none` is the loop's early exit, when the round takes no step. -/
def greedyPass (m : CostModel) (useIndexes : Bool) (s : GreedyState) : Option GreedyState :=
  (m.pick useIndexes s.order s.remaining s.card).map fun taken =>
    ⟨s.remaining.erase taken.1, s.order ++ [taken.1], taken.2⟩

/-- The state after `t` passes of the loop body, `none` once a pass has found no step. -/
def greedyPasses (m : CostModel) (useIndexes : Bool) : Nat → GreedyState → Option GreedyState
  | 0, s => some s
  | t + 1, s => (m.greedyPass useIndexes s).bind (m.greedyPasses useIndexes t)

theorem greedyPasses_succ_eq_some {t : Nat} {s s' : GreedyState} :
    m.greedyPasses useIndexes (t + 1) s = some s' ↔
      ∃ s₁, m.greedyPass useIndexes s = some s₁ ∧ m.greedyPasses useIndexes t s₁ = some s' :=
  Option.bind_eq_some_iff

theorem greedy_eq_greedyFrom_start :
    m.greedy useIndexes = m.greedyFrom useIndexes m.greedyStart.remaining.length m.greedyStart.remaining
      m.greedyStart.order m.greedyStart.card :=
  rfl

/-! ## One pass -/

theorem weigh_isSome {card : Float} {linkedOnly : Bool} {best : Option (Nat × Float)}
    {cf : Nat × Option Float} (h : best.isSome ∨ ¬(linkedOnly && cf.2.isNone) = true) :
    (m.weigh card linkedOnly best cf).isSome := by
  obtain ⟨c, f⟩ := cf
  dsimp only [weigh]
  split
  · next hskip => exact h.resolve_right (not_not.mpr hskip)
  · split
    · rfl
    · split <;> rfl

/-- **A greedy round takes a step exactly when steps remain.** The first step it weighs is
held with no comparison, so neither a NaN row nor a NaN factor can leave it empty-handed. -/
theorem pick_isSome_iff {order remaining : List Nat} {card : Float} :
    (m.pick useIndexes order remaining card).isSome ↔ remaining ≠ [] := by
  constructor
  · rintro h rfl
    exact Bool.false_ne_true h
  · intro hne
    have hcs : m.candidates useIndexes order remaining ≠ [] := by simpa [candidates] using hne
    obtain ⟨cf, hmem, hweighed⟩ := exists_unskipped _ hcs
    exact Option.ne_none_iff_isSome.mp (foldl_pick_ne_none (fun _ _ hbest => weigh_isSome (.inl hbest)) _ none
      (.inr ⟨cf, hmem, fun _ => weigh_isSome (.inr hweighed)⟩))

/-- **A pass moves a step it may take from the remaining steps to the order.** -/
theorem greedyPass_eq_some {s s' : GreedyState} (h : m.greedyPass useIndexes s = some s') :
    ∃ c ∈ s.remaining, m.MayTake s.order s.remaining c ∧
      s' = ⟨s.remaining.erase c, s.order ++ [c], m.rowsAfter useIndexes s.order s.card c⟩ := by
  obtain ⟨⟨c, v⟩, hpick, rfl⟩ := Option.map_eq_some_iff.mp h
  obtain ⟨hc, hmay, rfl⟩ := pick_eq_some hpick
  exact ⟨c, hc, hmay, rfl⟩

theorem greedyPass_isSome_iff {s : GreedyState} : (m.greedyPass useIndexes s).isSome ↔ s.remaining ≠ [] := by
  rw [greedyPass, Option.isSome_map, pick_isSome_iff]

theorem greedyFrom_succ_of_greedyPass {s s' : GreedyState} (h : m.greedyPass useIndexes s = some s')
    (fuel : Nat) :
    m.greedyFrom useIndexes (fuel + 1) s.remaining s.order s.card =
      m.greedyFrom useIndexes fuel s'.remaining s'.order s'.card := by
  obtain ⟨⟨c, v⟩, hpick, rfl⟩ := Option.map_eq_some_iff.mp h
  have hne : s.remaining ≠ [] := pick_isSome_iff.mp (Option.isSome_of_eq_some hpick)
  rw [greedyFrom_succ, if_neg (by simpa using hne), hpick]

/-! ## The passes -/

theorem greedyPasses_length : ∀ (t : Nat) (s : GreedyState), t ≤ s.remaining.length →
    ∃ s', m.greedyPasses useIndexes t s = some s' ∧ s'.remaining.length = s.remaining.length - t
  | 0, s, _ => ⟨s, rfl, rfl⟩
  | t + 1, s, ht => by
    have hne : s.remaining ≠ [] := List.ne_nil_of_length_pos (by omega)
    obtain ⟨s₁, hs₁⟩ := Option.isSome_iff_exists.mp (greedyPass_isSome_iff.mpr hne)
    obtain ⟨c, hc, -, rfl⟩ := greedyPass_eq_some hs₁
    have hlen : (s.remaining.erase c).length = s.remaining.length - 1 := List.length_erase_of_mem hc
    obtain ⟨s', hs', hlen'⟩ := greedyPasses_length t
      ⟨s.remaining.erase c, s.order ++ [c], m.rowsAfter useIndexes s.order s.card c⟩
      (show t ≤ (s.remaining.erase c).length by omega)
    refine ⟨s', greedyPasses_succ_eq_some.mpr ⟨_, hs₁, hs'⟩, ?_⟩
    dsimp only at hlen'
    omega

/-- **What one pass keeps, the passes keep: the remaining steps stay strictly increasing.** -/
theorem greedyPasses_sorted : ∀ (t : Nat) {s s' : GreedyState}, s.remaining.Pairwise (· < ·) →
    m.greedyPasses useIndexes t s = some s' → s'.remaining.Pairwise (· < ·)
  | 0, s, s', hs, h => by
    obtain rfl : s = s' := Option.some.inj h
    exact hs
  | t + 1, s, s', hs, h => by
    obtain ⟨s₁, hs₁, h⟩ := greedyPasses_succ_eq_some.mp h
    obtain ⟨c, -, -, rfl⟩ := greedyPass_eq_some hs₁
    exact greedyPasses_sorted t (hs.erase c) h

/-- **The model's loop makes the passes of the loop body**: after `t` passes it goes on as from
the state they reach. -/
theorem greedyFrom_add_of_greedyPasses : ∀ (t fuel : Nat) {s s' : GreedyState},
    m.greedyPasses useIndexes t s = some s' →
      m.greedyFrom useIndexes (t + fuel) s.remaining s.order s.card =
        m.greedyFrom useIndexes fuel s'.remaining s'.order s'.card
  | 0, fuel, s, s', h => by
    obtain rfl : s = s' := Option.some.inj h
    rw [Nat.zero_add]
  | t + 1, fuel, s, s', h => by
    obtain ⟨s₁, hs₁, h⟩ := greedyPasses_succ_eq_some.mp h
    rw [show t + 1 + fuel = t + fuel + 1 by omega, greedyFrom_succ_of_greedyPass hs₁]
    exact greedyFrom_add_of_greedyPasses t fuel h

/-! ## From the start -/

theorem greedyStart_length (h : 0 < m.rows.size) : m.greedyStart.remaining.length = m.rows.size - 1 := by
  have hlen := (smallest_cons_perm h).length_eq
  simp only [List.length_append, List.length_singleton, List.length_range] at hlen
  simp only [greedyStart]
  omega

theorem greedyStart_sorted : m.greedyStart.remaining.Pairwise (· < ·) :=
  List.pairwise_lt_range.filter _

/-- **Before each of the first `k - 1` passes steps remain, and the pass takes one.** -/
theorem greedy_passes (h : 0 < m.rows.size) {t : Nat} (ht : t < m.rows.size - 1) :
    ∃ s, m.greedyPasses useIndexes t m.greedyStart = some s ∧ s.remaining ≠ [] ∧
      (m.greedyPass useIndexes s).isSome := by
  obtain ⟨s, hs, hlen⟩ := greedyPasses_length t m.greedyStart (by rw [greedyStart_length h]; omega)
  have hne : s.remaining ≠ [] := List.ne_nil_of_length_pos (by rw [hlen, greedyStart_length h]; omega)
  exact ⟨s, hs, hne, greedyPass_isSome_iff.mpr hne⟩

/-- **After `k - 1` passes no step remains, and the loop ends with the greedy order.** -/
theorem greedy_exits (h : 0 < m.rows.size) :
    ∃ s, m.greedyPasses useIndexes (m.rows.size - 1) m.greedyStart = some s ∧ s.remaining = [] ∧
      m.greedy useIndexes = s.order := by
  obtain ⟨s, hs, hlen⟩ := greedyPasses_length (m.rows.size - 1) m.greedyStart (by rw [greedyStart_length h])
  have hnil : s.remaining = [] := List.eq_nil_of_length_eq_zero (by rw [hlen, greedyStart_length h, Nat.sub_self])
  refine ⟨s, hs, hnil, ?_⟩
  calc m.greedy useIndexes
      = m.greedyFrom useIndexes (m.rows.size - 1 + 0) m.greedyStart.remaining m.greedyStart.order
          m.greedyStart.card := by rw [Nat.add_zero, ← greedyStart_length h, greedy_eq_greedyFrom_start]
    _ = m.greedyFrom useIndexes 0 s.remaining s.order s.card := greedyFrom_add_of_greedyPasses _ 0 hs
    _ = s.order := rfl

theorem greedy_head : (m.greedy useIndexes).head? = some m.smallest := by
  obtain ⟨rest, hrest⟩ := @greedyFrom_extends m useIndexes m.greedyStart.remaining.length
    m.greedyStart.remaining [m.smallest] (m.rowsOf m.smallest)
  rw [greedy_eq_greedyFrom_start]
  exact hrest ▸ rfl

/-! ## The first step of fewest rows -/

/-- Step `b` is the first of the steps below `n` with the fewest rows: no step below `n` has
fewer, and each step before `b` has more. -/
def FirstFewest (m : CostModel) (n b : Nat) : Prop :=
  b < n ∧ (∀ j < n, m.rowsOf b ≤ m.rowsOf j) ∧ ∀ j < b, m.rowsOf b < m.rowsOf j

theorem firstFewest_one (h0 : (m.rowsOf 0).isNaN = false) : m.FirstFewest 1 0 := by
  refine ⟨Nat.one_pos, fun j hj => ?_, fun j hj => absurd hj (Nat.not_lt_zero j)⟩
  obtain rfl : j = 0 := by omega
  exact Float.le_refl_of_isNaN h0

/-- **One step of the search keeps the first step of fewest rows**, when the rows compare. -/
theorem FirstFewest.step {n b : Nat} (h : m.FirstFewest n b) (hb : (m.rowsOf b).isNaN = false)
    (hn : (m.rowsOf n).isNaN = false) :
    m.FirstFewest (n + 1) (if m.rowsOf n < m.rowsOf b then n else b) := by
  obtain ⟨hlt, hle, hbefore⟩ := h
  by_cases hless : m.rowsOf n < m.rowsOf b
  · rw [if_pos hless]
    refine ⟨Nat.lt_succ_self n, fun j hj => ?_, fun j hj => Float.lt_of_lt_of_le hless (hle j hj)⟩
    rcases Nat.lt_succ_iff_lt_or_eq.mp hj with hj | rfl
    · exact Float.le_of_lt (Float.lt_of_lt_of_le hless (hle j hj))
    · exact Float.le_refl_of_isNaN hn
  · rw [if_neg hless]
    refine ⟨Nat.lt_succ_of_lt hlt, fun j hj => ?_, hbefore⟩
    rcases Nat.lt_succ_iff_lt_or_eq.mp hj with hj | rfl
    · exact hle j hj
    · exact Float.le_of_not_lt hb hn hless

theorem foldl_range_firstFewest {n : Nat} (hn : 0 < n) (hnan : ∀ j < n, (m.rowsOf j).isNaN = false) :
    m.FirstFewest n ((List.range n).foldl (fun best i => if m.rowsOf i < m.rowsOf best then i else best) 0) := by
  induction n, hn using Nat.le_induction with
  | base =>
    rw [List.range_one, List.foldl_cons, List.foldl_nil, if_neg (Float.lt_irrefl _)]
    exact firstFewest_one (hnan 0 Nat.one_pos)
  | succ n hn ih =>
    rw [List.range_succ, List.foldl_append, List.foldl_cons, List.foldl_nil]
    have hsearch := ih (fun j hj => hnan j (Nat.lt_succ_of_lt hj))
    exact hsearch.step (hnan _ (Nat.lt_succ_of_lt hsearch.1)) (hnan n (Nat.lt_succ_self n))

/-- **The loop starts at the first step of fewest rows**, when no row is NaN. -/
theorem smallest_firstFewest (h : 0 < m.rows.size) (hnan : ∀ j < m.rows.size, (m.rowsOf j).isNaN = false) :
    m.FirstFewest m.rows.size m.smallest :=
  foldl_range_firstFewest h hnan

/-! ## The loop -/

/-- What the greedy loop does over the `k` steps of a cost model. -/
structure LoopContract (m : CostModel) (useIndexes : Bool) : Prop where
  /-- Before each of the first `k - 1` passes steps remain, and the pass takes one. -/
  passes : ∀ t < m.rows.size - 1, ∃ s, m.greedyPasses useIndexes t m.greedyStart = some s ∧
    s.remaining ≠ [] ∧ (m.greedyPass useIndexes s).isSome
  /-- After `k - 1` passes no step remains: the loop ends, with the greedy order. -/
  exits : ∃ s, m.greedyPasses useIndexes (m.rows.size - 1) m.greedyStart = some s ∧ s.remaining = [] ∧
    m.greedy useIndexes = s.order
  /-- The remaining steps are strictly increasing before every pass. -/
  sorted : ∀ t s, m.greedyPasses useIndexes t m.greedyStart = some s → s.remaining.Pairwise (· < ·)
  perm : (m.greedy useIndexes).Perm (List.range m.rows.size)
  head : (m.greedy useIndexes).head? = some m.smallest
  /-- Where rows compare, the start is the first step of fewest rows. -/
  fewest : (∀ j < m.rows.size, (m.rowsOf j).isNaN = false) → m.FirstFewest m.rows.size m.smallest

/-- **The greedy loop is total.** Over `k ≥ 1` steps, whatever their rows and the selectivities
of the edges, NaN included, and with indexes or without, the loop makes exactly `k - 1` passes
and no pass stops it early; the remaining steps stay strictly increasing; and the order it
returns is each step once, starting at the step the search for the start found, which is the
first step of fewest rows when the rows compare. -/
theorem greedy_loop_contract (m : CostModel) (useIndexes : Bool) (h : 0 < m.rows.size) :
    m.LoopContract useIndexes where
  passes _ ht := greedy_passes h ht
  exits := greedy_exits h
  sorted t _ hs := greedyPasses_sorted t greedyStart_sorted hs
  perm := m.greedy_perm useIndexes h
  head := greedy_head
  fewest := smallest_firstFewest h

/-- Three steps, the middle one smallest, the first two joined by an edge of NaN selectivity. -/
theorem greedy_loop_contract_on_nan_edge :
    let m : CostModel := ⟨#[3, 1, 2], [⟨0, 1, 0 / 0, false, true⟩]⟩
    0 < m.rows.size ∧ (∀ j < m.rows.size, (m.rowsOf j).isNaN = false) ∧ m.LoopContract true ∧
      m.FirstFewest m.rows.size 1 := by
  intro m
  have hpos : 0 < m.rows.size := by decide
  have hnan : ∀ j < m.rows.size, (m.rowsOf j).isNaN = false := by decide
  have hloop := greedy_loop_contract m true hpos
  have hstart : m.smallest = 1 := by decide
  exact ⟨hpos, hnan, hloop, hstart ▸ hloop.fewest hnan⟩

end CostModel

end QueryAdvisor
