import QueryAdvisor.Proofs.JoinOrder
/-!
# One round of the greedy join order

An edge offers, for joining a step onto the joined steps, its selectivity when it links them,
halved when indexes are used and the key it probes on the step is indexed. The join factor is
the least offer in the total order of doubles (`CostModel.joinFactor_eq`). So a step has a
factor exactly when an edge links it to a joined step (`CostModel.joinFactor_isSome_iff`), and
the factor is what one such edge offers (`CostModel.joinFactor_eq_some`).

A greedy round weighs the remaining steps in order. When some remaining step is linked to the
order so far, it weighs only linked steps (`CostModel.MayTake`); of those it weighs, it takes a
step when it holds none yet or when the step leaves fewer rows than the one held.

* `CostModel.pick_eq_some`: the step taken is a remaining step the round may take.
* `CostModel.pick_first_iff`: **the first remaining step is taken exactly when the round may
  take it and no later step it may take leaves fewer rows**, so ties go to the earlier step.
-/

namespace QueryAdvisor

namespace EdgeEstimate

/-- The edge links `next` to the joined steps: one end is `next` and the other is joined. -/
def Links (e : EdgeEstimate) (joined : List Nat) (next : Nat) : Prop :=
  (e.child = next ∧ e.parent ∈ joined) ∨ (e.parent = next ∧ e.child ∈ joined)

/-- What the edge offers for joining `next` onto the joined steps: its selectivity, halved when
indexes are used and the key it probes on `next` is indexed; nothing when it does not link
them. -/
def offer (e : EdgeEstimate) (joined : List Nat) (next : Nat) (useIndexes : Bool) : Option Float :=
  let probed : Option Bool :=
    if e.child == next && joined.contains e.parent then some e.childIndexed
    else if e.parent == next && joined.contains e.child then some e.parentIndexed
    else none
  probed.map (fun indexed => if useIndexes && indexed then e.selectivity * 0.5 else e.selectivity)

variable {e : EdgeEstimate} {joined : List Nat} {next : Nat} {useIndexes : Bool}

theorem offer_isSome_iff : (e.offer joined next useIndexes).isSome ↔ e.Links joined next := by
  unfold offer Links
  simp only [Bool.and_eq_true, beq_iff_eq, List.contains_iff_mem]
  split
  · next hchild => exact iff_of_true rfl (.inl hchild)
  · split
    · next hparent => exact iff_of_true rfl (.inr hparent)
    · next hchild hparent => exact iff_of_false (by simp) (fun h => h.elim hchild hparent)

theorem offer_eq_some {f : Float} (h : e.offer joined next useIndexes = some f) :
    f = e.selectivity ∨ f = e.selectivity * 0.5 := by
  unfold offer at h
  obtain ⟨indexed, -, rfl⟩ := Option.map_eq_some_iff.mp h
  by_cases hi : (useIndexes && indexed) = true
  · exact .inr (if_pos hi)
  · exact .inl (if_neg hi)

end EdgeEstimate

/-- One step of taking the least double in the total order: the first of equals stays. -/
def leastStep (best : Option Float) (f : Float) : Option Float :=
  match best with
  | none => some f
  | some b => if Decimal.totalLt f b then some f else some b

/-- The least of some doubles in their total order, the first of equals. -/
def leastTotal (xs : List Float) : Option Float := xs.foldl leastStep none

theorem leastStep_some (b x : Float) : leastStep (some b) x = some (if Decimal.totalLt x b then x else b) :=
  (apply_ite some _ x b).symm

theorem foldl_leastStep_some (b : Float) : ∀ xs : List Float, (xs.foldl leastStep (some b)).isSome
  | [] => rfl
  | x :: xs => by
    rw [List.foldl_cons, leastStep_some]
    exact foldl_leastStep_some _ xs

theorem leastTotal_isSome_iff {xs : List Float} : (leastTotal xs).isSome ↔ xs ≠ [] := by
  cases xs with
  | nil => simp [leastTotal]
  | cons x xs => exact iff_of_true (foldl_leastStep_some x xs) (List.cons_ne_nil x xs)

theorem foldl_leastStep_mem : ∀ (xs : List Float) (init : Option Float) {f : Float},
    xs.foldl leastStep init = some f → init = some f ∨ f ∈ xs
  | [], _, _, h => .inl h
  | x :: xs, init, f, h => by
    rw [List.foldl_cons] at h
    rcases foldl_leastStep_mem xs _ h with hstep | hmem
    · unfold leastStep at hstep
      split at hstep
      · exact .inr (Option.some.inj hstep ▸ List.mem_cons_self)
      · split at hstep
        · exact .inr (Option.some.inj hstep ▸ List.mem_cons_self)
        · exact .inl hstep
    · exact .inr (List.mem_cons_of_mem x hmem)

theorem leastTotal_mem {xs : List Float} {f : Float} (h : leastTotal xs = some f) : f ∈ xs :=
  (foldl_leastStep_mem xs none h).resolve_left (fun h' => by cases h')

theorem leastTotal_of_forall_eq {xs : List Float} {s : Float} (hne : xs ≠ []) (hall : ∀ x ∈ xs, x = s) :
    leastTotal xs = some s := by
  have hkeep : ∀ ys : List Float, (∀ y ∈ ys, y = s) → ys.foldl leastStep (some s) = some s := by
    intro ys
    induction ys with
    | nil => exact fun _ => rfl
    | cons y ys ih =>
      intro hys
      rw [List.foldl_cons, hys y List.mem_cons_self]
      rw [leastStep_some, ite_self]
      exact ih (fun z hz => hys z (List.mem_cons_of_mem y hz))
  obtain ⟨x, xs, rfl⟩ := List.exists_cons_of_ne_nil hne
  rw [leastTotal, List.foldl_cons, hall x List.mem_cons_self]
  exact hkeep xs (fun y hy => hall y (List.mem_cons_of_mem x hy))

namespace CostModel

/-! ## The join factor -/

/-- **The join factor of a step is the least offer of the edges.** -/
theorem joinFactor_eq (m : CostModel) (joined : List Nat) (next : Nat) (useIndexes : Bool) :
    m.joinFactor joined next useIndexes = leastTotal (m.edges.filterMap (·.offer joined next useIndexes)) := by
  rw [joinFactor, leastTotal, List.foldl_filterMap]
  congr 1
  funext best e
  dsimp only [EdgeEstimate.offer]
  split
  · next hnone => rw [hnone]; rfl
  · next indexed hsome => rw [hsome]; rfl

/-- The edges that link a step to the joined steps. -/
def Linked (m : CostModel) (joined : List Nat) (next : Nat) : Prop := ∃ e ∈ m.edges, e.Links joined next

variable {m : CostModel} {joined : List Nat} {next : Nat} {useIndexes : Bool}

/-- **A step has a join factor onto the joined steps exactly when an edge links them.** -/
theorem joinFactor_isSome_iff : (m.joinFactor joined next useIndexes).isSome ↔ m.Linked joined next := by
  rw [joinFactor_eq, leastTotal_isSome_iff, Ne, List.filterMap_eq_nil_iff]
  constructor
  · intro h
    obtain ⟨e, he, hoffer⟩ : ∃ e ∈ m.edges, e.offer joined next useIndexes ≠ none := by
      simpa only [Classical.not_forall, exists_prop] using h
    exact ⟨e, he, EdgeEstimate.offer_isSome_iff.mp (Option.ne_none_iff_isSome.mp hoffer)⟩
  · rintro ⟨e, he, hlinks⟩ hnone
    have hsome : (e.offer joined next useIndexes).isSome := EdgeEstimate.offer_isSome_iff.mpr hlinks
    rw [hnone e he] at hsome
    cases hsome

/-- **A join factor is what a linking edge offers: its selectivity, perhaps halved.** -/
theorem joinFactor_eq_some {f : Float} (h : m.joinFactor joined next useIndexes = some f) :
    ∃ e ∈ m.edges, e.Links joined next ∧ (f = e.selectivity ∨ f = e.selectivity * 0.5) := by
  rw [joinFactor_eq] at h
  obtain ⟨e, he, hoffer⟩ := List.mem_filterMap.mp (leastTotal_mem h)
  exact ⟨e, he, EdgeEstimate.offer_isSome_iff.mp (Option.isSome_of_eq_some hoffer), EdgeEstimate.offer_eq_some hoffer⟩

/-! ## A greedy round -/

/-- The candidates of a greedy round: each remaining step with its join factor onto the order
so far. -/
def candidates (m : CostModel) (useIndexes : Bool) (order remaining : List Nat) : List (Nat × Option Float) :=
  remaining.map (fun c => (c, m.joinFactor order c useIndexes))

/-- A greedy round with `card` rows so far weighs one candidate: it is passed over when only
linked steps are weighed and it has no factor, and otherwise taken when nothing is held or it
leaves fewer rows than the step held. -/
def weigh (m : CostModel) (card : Float) (linkedOnly : Bool) (best : Option (Nat × Float))
    (cf : Nat × Option Float) : Option (Nat × Float) :=
  let (c, factor) := cf
  if linkedOnly && factor.isNone then best
  else
    let next := card * m.rowsOf c * factor.getD 1
    match best with
    | none => some (c, next)
    | some (_, b) => if next < b then some (c, next) else best

/-- The step a greedy round takes, with the rows it leaves. -/
def pick (m : CostModel) (useIndexes : Bool) (order remaining : List Nat) (card : Float) : Option (Nat × Float) :=
  let cs := m.candidates useIndexes order remaining
  cs.foldl (m.weigh card (cs.any (·.2.isSome))) none

theorem greedyFrom_succ (fuel : Nat) (remaining order : List Nat) (card : Float) :
    m.greedyFrom useIndexes (fuel + 1) remaining order card =
      if remaining.isEmpty then order
      else
        match m.pick useIndexes order remaining card with
        | none => order
        | some (c, next) => m.greedyFrom useIndexes fuel (remaining.erase c) (order ++ [c]) next :=
  rfl

/-- The rows a greedy round with `card` rows so far leaves when it takes step `c`. -/
def rowsAfter (m : CostModel) (useIndexes : Bool) (order : List Nat) (card : Float) (c : Nat) : Float :=
  card * m.rowsOf c * (m.joinFactor order c useIndexes).getD 1

/-- A greedy round over the remaining steps may take step `c`: when some remaining step is
linked to the order so far, `c` is. -/
def MayTake (m : CostModel) (order remaining : List Nat) (c : Nat) : Prop :=
  (∃ c' ∈ remaining, m.Linked order c') → m.Linked order c

variable {card : Float} {linkedOnly : Bool}

theorem weigh_eq_some {best : Option (Nat × Float)} {c c' : Nat} {factor : Option Float} {v : Float}
    (h : m.weigh card linkedOnly best (c, factor) = some (c', v)) :
    best = some (c', v) ∨ (c' = c ∧ ¬(linkedOnly && factor.isNone) = true ∧ v = card * m.rowsOf c * factor.getD 1) := by
  dsimp only [weigh] at h
  split at h
  · exact .inl h
  · next hweighed =>
    split at h
    · cases h
      exact .inr ⟨rfl, hweighed, rfl⟩
    · split at h
      · cases h
        exact .inr ⟨rfl, hweighed, rfl⟩
      · exact .inl h

theorem foldl_weigh_eq_some {c : Nat} {v : Float} : ∀ (l : List (Nat × Option Float)) (init : Option (Nat × Float)),
    l.foldl (m.weigh card linkedOnly) init = some (c, v) →
      init = some (c, v) ∨ ∃ factor, (c, factor) ∈ l ∧ ¬(linkedOnly && factor.isNone) = true ∧
        v = card * m.rowsOf c * factor.getD 1
  | [], _, h => .inl h
  | (c₀, f₀) :: l, init, h => by
    rw [List.foldl_cons] at h
    rcases foldl_weigh_eq_some l _ h with hstep | ⟨factor, hmem, hweighed, hv⟩
    · rcases weigh_eq_some hstep with hinit | ⟨rfl, hweighed, hv⟩
      · exact .inl hinit
      · exact .inr ⟨f₀, List.mem_cons_self, hweighed, hv⟩
    · exact .inr ⟨factor, List.mem_cons_of_mem _ hmem, hweighed, hv⟩

theorem candidates_any_iff {order remaining : List Nat} :
    (m.candidates useIndexes order remaining).any (·.2.isSome) = true ↔ ∃ c ∈ remaining, m.Linked order c := by
  simp [candidates, List.any_map, joinFactor_isSome_iff]

theorem weighed_iff {order remaining : List Nat} {c : Nat} :
    ¬((m.candidates useIndexes order remaining).any (·.2.isSome) && (m.joinFactor order c useIndexes).isNone) = true ↔
      m.MayTake order remaining c := by
  rw [MayTake, ← candidates_any_iff, ← joinFactor_isSome_iff]
  cases (m.candidates useIndexes order remaining).any (·.2.isSome) <;>
    cases (m.joinFactor order c useIndexes) <;> simp

/-- **The step a greedy round takes is a remaining step it may take, and leaves the rows of
that step.** -/
theorem pick_eq_some {order remaining : List Nat} {c : Nat} {v : Float}
    (h : m.pick useIndexes order remaining card = some (c, v)) :
    c ∈ remaining ∧ m.MayTake order remaining c ∧ v = m.rowsAfter useIndexes order card c := by
  rcases foldl_weigh_eq_some _ none h with hnone | ⟨factor, hmem, hweighed, hv⟩
  · cases hnone
  · obtain ⟨c', hc', hpair⟩ := List.mem_map.mp hmem
    obtain ⟨rfl, rfl⟩ := Prod.mk.inj hpair
    exact ⟨hc', weighed_iff.mp hweighed, hv⟩

theorem foldl_weigh_keep {i : Nat} {v : Float} : ∀ l : List (Nat × Option Float),
    (∀ cf ∈ l, ¬(linkedOnly && cf.2.isNone) = true → ¬card * m.rowsOf cf.1 * cf.2.getD 1 < v) →
      l.foldl (m.weigh card linkedOnly) (some (i, v)) = some (i, v)
  | [], _ => rfl
  | (c, f) :: l, h => by
    rw [List.foldl_cons]
    have hstep : m.weigh card linkedOnly (some (i, v)) (c, f) = some (i, v) := by
      dsimp only [weigh]
      split
      · rfl
      · next hweighed => exact if_neg (h (c, f) List.mem_cons_self hweighed)
    rw [hstep]
    exact foldl_weigh_keep l (fun cf hcf => h cf (List.mem_cons_of_mem _ hcf))

theorem foldl_weigh_ne_of_ne {i c : Nat} {x w : Float} {l : List (Nat × Option Float)}
    (hi : i ∉ l.map (·.1)) (hc : c ≠ i) : l.foldl (m.weigh card linkedOnly) (some (c, x)) ≠ some (i, w) := by
  intro h
  rcases foldl_weigh_eq_some l _ h with hinit | ⟨factor, hmem, -, -⟩
  · exact hc (Prod.mk.inj (Option.some.inj hinit)).1
  · exact hi (List.mem_map.mpr ⟨_, hmem, rfl⟩)

theorem foldl_weigh_ne {i : Nat} {v w : Float} : ∀ l : List (Nat × Option Float), i ∉ l.map (·.1) →
    (∃ cf ∈ l, ¬(linkedOnly && cf.2.isNone) = true ∧ card * m.rowsOf cf.1 * cf.2.getD 1 < v) →
      l.foldl (m.weigh card linkedOnly) (some (i, v)) ≠ some (i, w)
  | [], _, ⟨_, hmem, _⟩ => absurd hmem List.not_mem_nil
  | (c, f) :: l, hi, ⟨cf, hmem, hweighed, hlt⟩ => by
    rw [List.foldl_cons]
    have hci : c ≠ i := fun h => hi (h ▸ List.mem_cons_self)
    have hi' : i ∉ l.map (·.1) := fun h => hi (List.mem_cons_of_mem _ h)
    by_cases htake : ¬(linkedOnly && f.isNone) = true ∧ card * m.rowsOf c * f.getD 1 < v
    · have hstep : m.weigh card linkedOnly (some (i, v)) (c, f) = some (c, card * m.rowsOf c * f.getD 1) := by
        dsimp only [weigh]
        rw [if_neg htake.1, if_pos htake.2]
      rw [hstep]
      exact foldl_weigh_ne_of_ne hi' hci
    · have hstep : m.weigh card linkedOnly (some (i, v)) (c, f) = some (i, v) := by
        dsimp only [weigh]
        split
        · rfl
        · next hweighed' => exact if_neg (fun hlt' => htake ⟨hweighed', hlt'⟩)
      rw [hstep]
      refine foldl_weigh_ne l hi' ?_
      rcases List.mem_cons.mp hmem with rfl | hmem'
      · exact absurd ⟨hweighed, hlt⟩ htake
      · exact ⟨cf, hmem', hweighed, hlt⟩

/-- **A greedy round takes its first remaining step exactly when it may take it and no later
step it may take leaves fewer rows.** -/
theorem pick_first_iff {order rest : List Nat} {i : Nat} (hi : i ∉ rest) :
    m.pick useIndexes order (i :: rest) card = some (i, m.rowsAfter useIndexes order card i) ↔
      m.MayTake order (i :: rest) i ∧ ∀ j ∈ rest, m.MayTake order (i :: rest) j →
        ¬m.rowsAfter useIndexes order card j < m.rowsAfter useIndexes order card i := by
  have hi' : i ∉ (m.candidates useIndexes order rest).map (·.1) := by simpa [candidates] using hi
  unfold pick
  dsimp only
  generalize hlinked : (m.candidates useIndexes order (i :: rest)).any (·.2.isSome) = linked
  have hweighed : ∀ c, ¬(linked && (m.joinFactor order c useIndexes).isNone) = true ↔ m.MayTake order (i :: rest) c := by
    intro c
    rw [← hlinked]
    exact weighed_iff
  rw [show m.candidates useIndexes order (i :: rest) =
    (i, m.joinFactor order i useIndexes) :: m.candidates useIndexes order rest from rfl, List.foldl_cons]
  by_cases hmay : m.MayTake order (i :: rest) i
  · have hfirst : m.weigh card linked none (i, m.joinFactor order i useIndexes) =
        some (i, m.rowsAfter useIndexes order card i) := by
      dsimp only [weigh]
      rw [if_neg ((hweighed i).mpr hmay)]
      rfl
    rw [hfirst]
    by_cases hbest : ∀ j ∈ rest, m.MayTake order (i :: rest) j →
        ¬m.rowsAfter useIndexes order card j < m.rowsAfter useIndexes order card i
    · refine iff_of_true (foldl_weigh_keep _ (fun cf hcf hw => ?_)) ⟨hmay, hbest⟩
      obtain ⟨j, hj, rfl⟩ := List.mem_map.mp hcf
      exact hbest j hj ((hweighed j).mp hw)
    · refine iff_of_false (foldl_weigh_ne _ hi' ?_) (fun h => hbest h.2)
      obtain ⟨j, hj, hmayj, hlt⟩ : ∃ j ∈ rest, m.MayTake order (i :: rest) j ∧
          m.rowsAfter useIndexes order card j < m.rowsAfter useIndexes order card i :=
        Classical.byContradiction (fun hnone => hbest (fun j hj hmayj hlt => hnone ⟨j, hj, hmayj, hlt⟩))
      exact ⟨(j, m.joinFactor order j useIndexes), List.mem_map.mpr ⟨j, hj, rfl⟩, (hweighed j).mpr hmayj, hlt⟩
  · have hfirst : m.weigh card linked none (i, m.joinFactor order i useIndexes) = none := by
      dsimp only [weigh]
      rw [if_pos (Classical.not_not.mp (mt (hweighed i).mp hmay))]
    rw [hfirst]
    refine iff_of_false (fun h => ?_) (fun h => hmay h.1)
    rcases foldl_weigh_eq_some _ none h with hnone | ⟨factor, hmem, -, -⟩
    · cases hnone
    · exact hi' (List.mem_map.mpr ⟨_, hmem, rfl⟩)

theorem smallest_cons_perm (h : 0 < m.rows.size) :
    ([m.smallest] ++ (List.range m.rows.size).filter (· != m.smallest)).Perm (List.range m.rows.size) := by
  rw [List.singleton_append, ← List.nodup_range.erase_eq_filter]
  exact (List.perm_cons_erase (List.mem_range.mpr (m.smallest_lt h))).symm

theorem greedyFrom_extends : ∀ (fuel : Nat) (remaining order : List Nat) (card : Float),
    ∃ rest, m.greedyFrom useIndexes fuel remaining order card = order ++ rest
  | 0, _, order, _ => ⟨[], (List.append_nil order).symm⟩
  | fuel + 1, remaining, order, card => by
    rw [greedyFrom_succ]
    split
    · exact ⟨[], (List.append_nil order).symm⟩
    · split
      · exact ⟨[], (List.append_nil order).symm⟩
      · next c next _ =>
        obtain ⟨rest, hrest⟩ := greedyFrom_extends fuel (remaining.erase c) (order ++ [c]) next
        exact ⟨c :: rest, by rw [hrest, List.append_assoc, List.singleton_append]⟩

end CostModel

end QueryAdvisor
