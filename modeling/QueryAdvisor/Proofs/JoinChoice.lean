import Mathlib.Data.List.Nodup
import QueryAdvisor.Proofs.JoinOrder
import QueryAdvisor.Proofs.FloatSign
import QueryAdvisor.Proofs.Success
/-!
# The join order suggested

The advisor weighs two greedy orders of the steps of a query: the one by selectivity and, when
some join key is indexed, the one through indexes. An order passes when it differs from the
written order of the steps and its improvement is not at most the threshold (`Passes`). Of the
orders that pass, the one through indexes is taken when it improves strictly more than the one
by selectivity, and the one by selectivity otherwise (`Chooses`).

A suggestion is made only for a query of inner and cross joins. It names the written tables and
the tables of the order taken, its kind, and its improvement: the share of the written order's
cost that the order saves, clamped to `[0, 1]` (`JoinOrderAdvisor.analyze_eq_ok`).

The two tests are made on what the shown suggestion no longer has:
* "differs" compares orders of steps. A table joined twice makes two orders of steps read the
  same as tables, so the suggested tables can be the written ones. They differ when no table
  repeats (`join_suggestion_reorders`).
* "not at most the threshold" holds of NaN, which a cost that overflows to infinity produces.
  The improvement lies above the threshold and at most one when it is not NaN
  (`join_suggestion_choice`).
-/

namespace QueryAdvisor

/-! ## Orders read as tables -/

theorem CostModel.tableOf_eq_getD (steps : List JoinStep) (i : Nat) :
    CostModel.tableOf steps i = (steps.map (·.table)).getD i "" := by
  simp [CostModel.tableOf, List.getElem?_map]

/-- An order of the positions of a list without repeats that reads as the list is the written
order. -/
theorem eq_range_of_map_getD {js : List String} (hnodup : js.Nodup) {order : List Nat}
    (hperm : order.Perm (List.range js.length)) (h : order.map (js.getD · "") = js) :
    order = List.range js.length := by
  have hlen : order.length = js.length := by rw [hperm.length_eq, List.length_range]
  refine List.ext_getElem (by rw [hlen, List.length_range]) (fun k hk _ => ?_)
  have hpos : order[k] < js.length := List.mem_range.mp (hperm.subset (List.getElem_mem hk))
  have hk' : k < js.length := hlen ▸ hk
  have hread : js[order[k]] = js[k] := by
    have hget := congrArg (·[k]?) h
    simp only [List.getElem?_map, List.getElem?_eq_getElem hk, List.getElem?_eq_getElem hk',
      Option.map_some, Option.some.injEq, List.getD_eq_getElem?_getD, List.getElem?_eq_getElem hpos,
      Option.getD_some] at hget
    exact hget
  rw [List.getElem_range]
  exact (List.Nodup.getElem_inj_iff hnodup).mp hread

/-! ## Which candidate passes, and which is taken -/

namespace CostModel

theorem clampUnit_improvement (m : CostModel) (original order : List Nat) (useIndexes : Bool) :
    clampUnit (m.improvement original order useIndexes) = m.improvement original order useIndexes := by
  unfold improvement
  dsimp only
  split
  · rfl
  · exact clampUnit_clampUnit _

/-- **An order whose improvement is above zero costs strictly less than the original.** The
improvement is then the clamp of the share saved, which is above zero by a cost not at most
zero, so the saving is above zero. -/
theorem cost_lt_of_improvement_pos {m : CostModel} {original order : List Nat} {useIndexes : Bool}
    (h : 0 < m.improvement original order useIndexes) :
    m.cost order useIndexes < m.cost original useIndexes := by
  unfold improvement at h
  dsimp only at h
  split at h
  · exact absurd h (Float.lt_irrefl 0)
  · next hbefore => exact Float.lt_of_sub_pos (Float.pos_of_div_pos (pos_of_clampUnit_pos h) hbefore)

end CostModel

namespace JoinOrderAdvisor

variable (a : JoinOrderAdvisor) (m : CostModel) (original : List Nat)

/-- A candidate passes when its order of steps differs from the written one and its improvement
is not at most the threshold. -/
def Passes (c : JoinCandidate) : Prop :=
  c.order ≠ original ∧ ¬c.improvement ≤ a.threshold

/-- The kind of order taken, by what the two greedy candidates do: the order through indexes
when some key is indexed, it passes, and it improves strictly more than the order by
selectivity if that passes too; else the order by selectivity, which then passes. -/
def Chooses : JoinOrderKind → Prop
  | .selectivityBased =>
    a.Passes original (candidate m original .selectivityBased false) ∧
      ¬(m.hasIndexedEdge = true ∧ a.Passes original (candidate m original .indexDriven true) ∧
        (candidate m original .selectivityBased false).improvement <
          (candidate m original .indexDriven true).improvement)
  | .indexDriven =>
    m.hasIndexedEdge = true ∧ a.Passes original (candidate m original .indexDriven true) ∧
      (a.Passes original (candidate m original .selectivityBased false) →
        (candidate m original .selectivityBased false).improvement <
          (candidate m original .indexDriven true).improvement)

variable {a m original}

theorem Chooses.passes {kind : JoinOrderKind} (h : a.Chooses m original kind) :
    a.Passes original (candidate m original kind (kind == .indexDriven)) := by
  cases kind with
  | selectivityBased => exact h.1
  | indexDriven => exact h.2.1

theorem consider_skips_iff {c : JoinCandidate} :
    (c.order == original || decide (c.improvement ≤ a.threshold)) = true ↔ ¬a.Passes original c := by
  simp only [Passes, Bool.or_eq_true, beq_iff_eq, decide_eq_true_eq, not_and_or, not_not]

theorem consider_none_eq_some {c k : JoinCandidate} :
    a.consider original none c = some k ↔ a.Passes original c ∧ k = c := by
  unfold consider
  by_cases hc : a.Passes original c
  · rw [if_neg (mt consider_skips_iff.mp (not_not.mpr hc))]
    simp [hc, eq_comm]
  · rw [if_pos (consider_skips_iff.mpr hc)]
    simp [hc]

theorem consider_some_eq_some {c k₀ k : JoinCandidate} :
    a.consider original (some k₀) c = some k ↔
      (a.Passes original c ∧ k₀.improvement < c.improvement ∧ k = c) ∨
        (¬(a.Passes original c ∧ k₀.improvement < c.improvement) ∧ k = k₀) := by
  unfold consider
  by_cases hc : a.Passes original c
  · rw [if_neg (mt consider_skips_iff.mp (not_not.mpr hc))]
    by_cases hlt : k₀.improvement < c.improvement
    · simp [hc, hlt, GT.gt, eq_comm]
    · simp [hc, hlt, GT.gt, eq_comm]
  · rw [if_pos (consider_skips_iff.mpr hc)]
    simp [hc, eq_comm]

/-- **The candidate the advisor settles on is the greedy candidate of its kind, and its kind is
the one `Chooses` names.** -/
theorem choose_eq_some {c : JoinCandidate} (h : a.choose m original = some c) :
    a.Chooses m original c.kind ∧ c = candidate m original c.kind (c.kind == .indexDriven) := by
  unfold choose at h
  dsimp only at h
  split at h
  · next hindexed =>
    cases hkept : a.consider original none (candidate m original .selectivityBased false) with
    | none =>
      rw [hkept] at h
      obtain ⟨hidx, rfl⟩ := consider_none_eq_some.mp h
      have hsel : ¬a.Passes original (candidate m original .selectivityBased false) := by
        intro hsel
        have hsome := consider_none_eq_some.mpr ⟨hsel, rfl⟩
        rw [hkept] at hsome
        cases hsome
      exact ⟨⟨hindexed, hidx, fun hs => absurd hs hsel⟩, rfl⟩
    | some k =>
      obtain ⟨hsel, rfl⟩ := consider_none_eq_some.mp hkept
      rw [hkept] at h
      rcases consider_some_eq_some.mp h with ⟨hidx, hlt, rfl⟩ | ⟨hnot, rfl⟩
      · exact ⟨⟨hindexed, hidx, fun _ => hlt⟩, rfl⟩
      · exact ⟨⟨hsel, fun ⟨_, hidx, hlt⟩ => hnot ⟨hidx, hlt⟩⟩, rfl⟩
  · next hindexed =>
    obtain ⟨hsel, rfl⟩ := consider_none_eq_some.mp h
    exact ⟨⟨hsel, fun ⟨hi, _⟩ => hindexed hi⟩, rfl⟩

theorem choose_passes {c : JoinCandidate} (h : a.choose m original = some c) : a.Passes original c := by
  obtain ⟨hchooses, hcand⟩ := choose_eq_some h
  rw [hcand]
  exact hchooses.passes

/-! ## What a suggestion says -/

/-- **What the join order advisor returns:** nothing, or one suggestion for a query of inner and
cross joins, naming the written tables and the tables of the order taken, with its kind and its
improvement clamped. -/
theorem analyze_eq_ok {q : Query} {l : List JoinOrderSuggestion} (h : a.analyze q = .ok l) :
    l = [] ∨ ∃ steps edges c s, l = [s] ∧ joinSteps q = .ok (steps, edges) ∧
      (∀ j ∈ q.joins, j.kind = .inner ∨ j.kind = .cross) ∧
      a.choose (CostModel.collect steps edges a.stats) (List.range steps.length) = some c ∧
      s.original = q.joinSequence ∧ s.suggested = c.order.map (CostModel.tableOf steps) ∧
      s.kind = c.kind ∧ s.improvement = clampUnit c.improvement := by
  simp only [JoinOrderAdvisor.analyze] at h
  split at h
  · cases h
  · split at h
    · cases h
      exact .inl rfl
    · cases hj : joinSteps q with
      | error e =>
        rw [hj] at h
        cases h
      | ok se =>
        obtain ⟨steps, edges⟩ := se
        rw [hj] at h
        simp only [bind, Except.bind] at h
        split at h
        · cases h
          exact .inl rfl
        · next houter =>
          split at h
          · cases h
            exact .inl rfl
          · next c hc =>
            obtain ⟨useIndexes, horder⟩ := chosen_greedy hc
            have hperm : q.joinSequence.isPerm (c.order.map (CostModel.tableOf steps)) = true := by
              rw [List.isPerm_iff, horder]
              exact (greedy_tables_perm hj a.stats useIndexes).symm
            simp only [JoinOrderSuggestion.make, hperm, ↓reduceIte] at h
            cases h
            refine .inr ⟨steps, edges, c, _, rfl, rfl, fun j hj' => ?_, hc, rfl, rfl, rfl, rfl⟩
            simp only [List.any_eq_true, Bool.and_eq_true, bne_iff_ne, ne_eq, not_exists, not_and] at houter
            by_cases hinner : j.kind = .inner
            · exact .inl hinner
            · exact .inr (Classical.not_not.mp (houter j hj' hinner))

end JoinOrderAdvisor

/-- **A join order suggestion names the written tables and a reordering of them, read off an
order of the steps that differs from the written order of the steps. When no table is joined
twice, the suggested tables differ from the written ones.** -/
theorem join_suggestion_reorders (a : JoinOrderAdvisor) (q : Query) {l : List JoinOrderSuggestion}
    (h : a.analyze q = .ok l) :
    l.length ≤ 1 ∧ ∀ s ∈ l, s.original = q.joinSequence ∧ s.suggested.Perm q.joinSequence ∧
      (∃ order : List Nat, order.Perm (List.range q.joinSequence.length) ∧
        order ≠ List.range q.joinSequence.length ∧ s.suggested = order.map (q.joinSequence.getD · "")) ∧
      (q.joinSequence.Nodup → s.suggested ≠ s.original) := by
  rcases a.analyze_eq_ok h with rfl | ⟨steps, edges, c, s, rfl, hsteps, -, hc, horig, hsugg, -, -⟩
  · exact ⟨Nat.zero_le 1, fun _ hs => absurd hs List.not_mem_nil⟩
  · refine ⟨Nat.le_refl 1, fun s' hs' => ?_⟩
    rw [List.mem_singleton.mp hs']
    have htables := joinSteps_tables hsteps
    have hlen : steps.length = q.joinSequence.length := by rw [← htables, List.length_map]
    have hdiffers : c.order ≠ List.range q.joinSequence.length := by
      rw [← hlen]
      exact (JoinOrderAdvisor.choose_passes hc).1
    obtain ⟨useIndexes, hgreedy⟩ := JoinOrderAdvisor.chosen_greedy hc
    have hperm : c.order.Perm (List.range q.joinSequence.length) := by
      rw [hgreedy, ← hlen]
      exact greedy_steps_perm hsteps a.stats useIndexes
    have hread : s.suggested = c.order.map (q.joinSequence.getD · "") := by
      rw [hsugg, ← htables]
      exact List.map_congr_left (fun i _ => CostModel.tableOf_eq_getD steps i)
    refine ⟨horig, ?_, ⟨c.order, hperm, hdiffers, hread⟩, fun hnodup hsame => ?_⟩
    · rw [hsugg, hgreedy]
      exact greedy_tables_perm hsteps a.stats useIndexes
    · rw [hread, horig] at hsame
      exact hdiffers (eq_range_of_map_getD hnodup hperm hsame)

/-- A table joined twice, under two aliases and on two keys: the order of steps taken differs
from the written one, and reads as the same tables. -/
theorem join_suggestion_reorders_on_self_join :
    let a : JoinOrderAdvisor :=
      ⟨0.1, ({ rows := [("a", 10), ("b", 1000)], joins := [(("a", "b", "x"), 0.5), (("a", "b", "y"), 0.001)] } :
        Statistics)⟩
    let q : Query :=
      { table := "a"
        joins := [⟨"b", some "b1", .inner, "a.id", "b1.x"⟩, ⟨"b", some "b2", .inner, "a.id", "b2.y"⟩] }
    ∃ l, a.analyze q = .ok l ∧
      (l.length ≤ 1 ∧ ∀ s ∈ l, s.original = q.joinSequence ∧ s.suggested.Perm q.joinSequence ∧
        (∃ order : List Nat, order.Perm (List.range q.joinSequence.length) ∧
          order ≠ List.range q.joinSequence.length ∧ s.suggested = order.map (q.joinSequence.getD · "")) ∧
        (q.joinSequence.Nodup → s.suggested ≠ s.original)) := by
  intro a q
  obtain ⟨l, h⟩ := Except.exists_ok_of_isOk (x := a.analyze q) (by decide +kernel)
  exact ⟨l, h, join_suggestion_reorders a q h⟩

/-- **A join order suggestion is made for a query of inner and cross joins. Its kind is the one
`Chooses` names; its tables are those of the greedy order of that kind, and its improvement is
the share of the written order's cost that this order saves, clamped. When neither the
threshold nor the improvement is NaN, the improvement lies above the threshold and at most
one; when besides the threshold is at least zero, the order costs strictly less than the
written one.** -/
theorem join_suggestion_choice (a : JoinOrderAdvisor) (q : Query) {l : List JoinOrderSuggestion}
    (h : a.analyze q = .ok l) :
    ∀ s ∈ l, (∀ j ∈ q.joins, j.kind = .inner ∨ j.kind = .cross) ∧
      ∃ steps edges, joinSteps q = .ok (steps, edges) ∧
        let m := CostModel.collect steps edges a.stats
        let original := List.range steps.length
        let useIndexes := s.kind == .indexDriven
        a.Chooses m original s.kind ∧ s.suggested = (m.greedy useIndexes).map (CostModel.tableOf steps) ∧
          s.improvement = m.improvement original (m.greedy useIndexes) useIndexes ∧
          (a.threshold.isNaN = false → s.improvement.isNaN = false →
            a.threshold < s.improvement ∧ s.improvement ≤ 1) ∧
          (0 ≤ a.threshold → s.improvement.isNaN = false →
            m.cost (m.greedy useIndexes) useIndexes < m.cost original useIndexes) := by
  intro s hs
  rcases a.analyze_eq_ok h with rfl | ⟨steps, edges, c, s', rfl, hsteps, hjoins, hc, -, hsugg, hkind, himp⟩
  · exact absurd hs List.not_mem_nil
  · rw [List.mem_singleton.mp hs]
    obtain ⟨hchooses, hcand⟩ := JoinOrderAdvisor.choose_eq_some hc
    have hclamped : clampUnit c.improvement = c.improvement := by
      rw [hcand]
      exact CostModel.clampUnit_improvement _ _ _ _
    have himp' : s'.improvement = c.improvement := himp.trans hclamped
    refine ⟨hjoins, steps, edges, hsteps, ?_⟩
    dsimp only
    rw [hkind]
    have hgreedy : s'.improvement = (CostModel.collect steps edges a.stats).improvement (List.range steps.length)
        ((CostModel.collect steps edges a.stats).greedy (c.kind == .indexDriven)) (c.kind == .indexDriven) := by
      rw [himp']
      exact congrArg JoinCandidate.improvement hcand
    have hbound (hthreshold : a.threshold.isNaN = false) (hnan : s'.improvement.isNaN = false) :
        a.threshold < s'.improvement ∧ s'.improvement ≤ 1 := by
      rw [himp'] at hnan ⊢
      refine ⟨Float.lt_of_not_le hnan hthreshold (JoinOrderAdvisor.choose_passes hc).2, ?_⟩
      rw [← hclamped] at hnan ⊢
      exact clampUnit_le_one hnan
    refine ⟨hchooses, ?_, hgreedy, hbound, fun hzero hnan => ?_⟩
    · rw [hsugg]
      exact congrArg (List.map _) (congrArg JoinCandidate.order hcand)
    · have hthreshold := (UnpackedFloat.isNaN_of_isLE (Float.le_iff_compare.mp hzero)).2
      have hpos := Float.lt_of_le_of_lt hzero (hbound hthreshold hnan).1
      rw [hgreedy] at hpos
      exact CostModel.cost_lt_of_improvement_pos hpos

/-- Three tables written from the largest: the smallest is joined first. -/
theorem join_suggestion_choice_on_orders :
    let a : JoinOrderAdvisor :=
      ⟨0.1, ({ rows := [("orders", 1000000), ("users", 100), ("regions", 10)], indexes := [("users", "id")] } :
        Statistics)⟩
    let q : Query :=
      { table := "orders"
        joins := [⟨"users", some "u", .inner, "orders.user_id", "u.id"⟩,
          ⟨"regions", some "r", .inner, "u.region_id", "r.id"⟩] }
    ∃ l, a.analyze q = .ok l ∧
      ∀ s ∈ l, (∀ j ∈ q.joins, j.kind = .inner ∨ j.kind = .cross) ∧
        ∃ steps edges, joinSteps q = .ok (steps, edges) ∧
          let m := CostModel.collect steps edges a.stats
          let original := List.range steps.length
          let useIndexes := s.kind == .indexDriven
          a.Chooses m original s.kind ∧ s.suggested = (m.greedy useIndexes).map (CostModel.tableOf steps) ∧
            s.improvement = m.improvement original (m.greedy useIndexes) useIndexes ∧
            (a.threshold.isNaN = false → s.improvement.isNaN = false →
              a.threshold < s.improvement ∧ s.improvement ≤ 1) ∧
            (0 ≤ a.threshold → s.improvement.isNaN = false →
              m.cost (m.greedy useIndexes) useIndexes < m.cost original useIndexes) := by
  intro a q
  obtain ⟨l, h⟩ := Except.exists_ok_of_isOk (x := a.analyze q) (by decide +kernel)
  exact ⟨l, h, join_suggestion_choice a q h⟩

end QueryAdvisor
