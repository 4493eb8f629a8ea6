import QueryAdvisor.Proofs.JoinLinks
import QueryAdvisor.Proofs.JoinChoice
/-!
# When the greedy order is the written order

The greedy order starts at the first step with the fewest rows and, in each round, takes the
first remaining step that it may take and that no later one beats on the rows it leaves
(`CostModel.pick_first_iff`). Both comparisons are strict, and the remaining steps keep their
written order as steps are taken out of them. So ties go to the earlier step, and the greedy
order is the written one exactly when the written order wins every round: no step has fewer
rows than the first, and in round `i` step `i` may be taken and no later step that may be taken
leaves fewer rows (`CostModel.ClauseOrderWins`, `CostModel.greedy_eq_range_iff`).

Then the advisor suggests nothing, as the only orders it weighs are the written one
(`JoinOrderAdvisor.analyze_of_clauseOrderWins`). This is so when all steps have the same rows,
all edges the same selectivity and no indexed key, and each step is joined back to an earlier
one (`CostModel.clauseOrderWins_of_uniform`).
-/

namespace QueryAdvisor

namespace CostModel

variable {m : CostModel} {useIndexes : Bool}

/-! ## The first step -/

section Smallest

theorem foldl_smallest_eq (l : List Nat) (best : Nat) :
    l.foldl (fun best i => if m.rowsOf i < m.rowsOf best then i else best) best = best ∨
      l.foldl (fun best i => if m.rowsOf i < m.rowsOf best then i else best) best ∈ l := by
  induction l generalizing best with
  | nil => exact .inl rfl
  | cons i l ih =>
    rw [List.foldl_cons]
    split
    · rcases ih i with h | h
      · rw [h]
        exact .inr List.mem_cons_self
      · exact .inr (List.mem_cons_of_mem i h)
    · rcases ih best with h | h
      · exact .inl h
      · exact .inr (List.mem_cons_of_mem i h)

theorem foldl_smallest_eq_self_iff (best : Nat) :
    ∀ l : List Nat, best ∉ l →
      (l.foldl (fun best i => if m.rowsOf i < m.rowsOf best then i else best) best = best ↔
        ∀ j ∈ l, ¬m.rowsOf j < m.rowsOf best)
  | [], _ => iff_of_true rfl (fun _ h => absurd h List.not_mem_nil)
  | i :: l, hbest => by
    have hi : i ≠ best := fun h => hbest (h ▸ List.mem_cons_self)
    have hl : best ∉ l := fun h => hbest (List.mem_cons_of_mem i h)
    rw [List.foldl_cons]
    by_cases hlt : m.rowsOf i < m.rowsOf best
    · rw [if_pos hlt]
      refine iff_of_false (fun h => ?_) (fun h => h i List.mem_cons_self hlt)
      rcases foldl_smallest_eq l i with h' | h'
      · exact hi (h'.symm.trans h)
      · exact hl (h ▸ h')
    · rw [if_neg hlt, foldl_smallest_eq_self_iff best l hl]
      exact ⟨fun h j hj => (List.mem_cons.mp hj).elim (fun hji => hji ▸ hlt) (h j),
        fun h j hj => h j (List.mem_cons_of_mem i hj)⟩

theorem range_eq_zero_cons {n : Nat} (h : 0 < n) : List.range n = 0 :: List.range' 1 (n - 1) := by
  obtain ⟨k, rfl⟩ := Nat.exists_eq_succ_of_ne_zero (Nat.pos_iff_ne_zero.mp h)
  rw [List.range_eq_range', List.range'_succ, Nat.succ_sub_one]

/-- **The greedy order starts at the first step exactly when no step has fewer rows.** -/
theorem smallest_eq_zero_iff (h : 0 < m.rows.size) :
    m.smallest = 0 ↔ ∀ j < m.rows.size, ¬m.rowsOf j < m.rowsOf 0 := by
  unfold smallest
  rw [range_eq_zero_cons h, List.foldl_cons, if_neg (Float.lt_irrefl _),
    foldl_smallest_eq_self_iff 0 _ (by simp [List.mem_range'_1])]
  constructor
  · intro hall j hj
    rcases Nat.eq_zero_or_pos j with rfl | hpos
    · exact Float.lt_irrefl _
    · exact hall j (List.mem_range'_1.mpr ⟨hpos, by omega⟩)
  · intro hall j hj
    exact hall j (by have := List.mem_range'_1.mp hj; omega)

end Smallest

/-! ## The rounds of the written order -/

/-- The rows after joining steps `0, …, i` in the written order, as greedy rounds count them. -/
def clauseCard (m : CostModel) (useIndexes : Bool) : Nat → Float
  | 0 => m.rowsOf 0
  | i + 1 => m.rowsAfter useIndexes (List.range (i + 1)) (m.clauseCard useIndexes i) (i + 1)

/-- Step `i` wins round `i` of the written order: of the steps `i, …, n - 1` left, it may be
taken, and no later one that may be taken leaves fewer rows. -/
def WinsRound (m : CostModel) (useIndexes : Bool) (i : Nat) : Prop :=
  m.MayTake (List.range i) (List.range' i (m.rows.size - i)) i ∧
    ∀ j, i < j → j < m.rows.size → m.MayTake (List.range i) (List.range' i (m.rows.size - i)) j →
      ¬m.rowsAfter useIndexes (List.range i) (m.clauseCard useIndexes (i - 1)) j <
        m.rowsAfter useIndexes (List.range i) (m.clauseCard useIndexes (i - 1)) i

/-- The written order wins every greedy round: no step has fewer rows than the first, and each
later step wins its round. -/
def ClauseOrderWins (m : CostModel) (useIndexes : Bool) : Prop :=
  (∀ j < m.rows.size, ¬m.rowsOf j < m.rowsOf 0) ∧ ∀ i, 0 < i → i < m.rows.size → m.WinsRound useIndexes i

theorem pick_range_iff {i d : Nat} (hd : m.rows.size = i + (d + 1)) :
    m.pick useIndexes (List.range i) (List.range' i (d + 1)) (m.clauseCard useIndexes (i - 1)) =
        some (i, m.rowsAfter useIndexes (List.range i) (m.clauseCard useIndexes (i - 1)) i) ↔
      m.WinsRound useIndexes i := by
  have hleft : m.rows.size - i = d + 1 := by omega
  rw [WinsRound, hleft, List.range'_succ, pick_first_iff (by rw [List.mem_range'_1]; omega)]
  refine and_congr_right (fun _ => ⟨fun h j hij hjn hmay => ?_, fun h j hj hmay => ?_⟩)
  · exact h j (List.mem_range'_1.mpr ⟨hij, by omega⟩) hmay
  · have hj' := List.mem_range'_1.mp hj
    exact h j (by omega) (by omega) hmay

/-- An order that extends the first `i` steps by another step than `i` is not the written
order. -/
theorem range_append_ne_range {i c n : Nat} (hc : c ≠ i) (hi : i < n) (rest : List Nat) :
    List.range i ++ [c] ++ rest ≠ List.range n := by
  intro h
  have hat := congrArg (·[i]?) h
  simp only [List.append_assoc, List.singleton_append, List.getElem?_append_right (by simp : (List.range i).length ≤ i),
    List.length_range, Nat.sub_self, List.getElem?_cons_zero, List.getElem?_range hi, Option.some.injEq] at hat
  exact hc hat

/-- **From round `i` on, a greedy run keeps the written order exactly when each step wins its
round.** -/
theorem greedyFrom_range_iff : ∀ (d i : Nat), 0 < i → m.rows.size = i + d →
    (m.greedyFrom useIndexes d (List.range' i d) (List.range i) (m.clauseCard useIndexes (i - 1)) =
        List.range m.rows.size ↔ ∀ i', i ≤ i' → i' < m.rows.size → m.WinsRound useIndexes i')
  | 0, i, _, hd => by
    rw [hd, Nat.add_zero]
    exact iff_of_true rfl (fun i' h h' => absurd h' (by omega))
  | d + 1, i, hi, hd => by
    obtain ⟨k, rfl⟩ : ∃ k, i = k + 1 := ⟨i - 1, by omega⟩
    rw [greedyFrom_succ, if_neg (by simp [List.range'_succ])]
    by_cases hwin : m.WinsRound useIndexes (k + 1)
    · rw [(pick_range_iff hd).mpr hwin]
      dsimp only
      rw [List.range'_succ, List.erase_cons_head, ← List.range_succ]
      have hcard : m.rowsAfter useIndexes (List.range (k + 1)) (m.clauseCard useIndexes (k + 1 - 1)) (k + 1) =
          m.clauseCard useIndexes (k + 2 - 1) := rfl
      rw [hcard, greedyFrom_range_iff d (k + 2) (by omega) (by omega)]
      refine ⟨fun h i' h1 h2 => ?_, fun h i' h1 h2 => h i' (by omega) h2⟩
      rcases Nat.lt_or_eq_of_le h1 with h1 | rfl
      · exact h i' h1 h2
      · exact hwin
    · refine iff_of_false ?_ (fun h => hwin (h (k + 1) (Nat.le_refl _) (by omega)))
      split
      · next hnone =>
        intro h
        have hlen := congrArg List.length h
        simp only [List.length_range] at hlen
        omega
      · next c v hpick =>
        have hc : c ≠ k + 1 := by
          rintro rfl
          obtain ⟨-, -, rfl⟩ := pick_eq_some hpick
          exact hwin ((pick_range_iff hd).mp hpick)
        obtain ⟨rest, hrest⟩ := @greedyFrom_extends m useIndexes d _ (List.range (k + 1) ++ [c]) v
        rw [hrest]
        exact range_append_ne_range hc (by omega) rest

theorem range_filter_ne_zero {n : Nat} (h : 0 < n) : (List.range n).filter (· != 0) = List.range' 1 (n - 1) := by
  rw [range_eq_zero_cons h, List.filter_cons_of_neg (by simp), List.filter_eq_self]
  intro j hj
  have := List.mem_range'_1.mp hj
  simp only [bne_iff_ne, ne_eq]
  omega

/-- **The greedy order is the written order exactly when the written order wins every round.** -/
theorem greedy_eq_range_iff (h : 0 < m.rows.size) :
    m.greedy useIndexes = List.range m.rows.size ↔ m.ClauseOrderWins useIndexes := by
  unfold greedy ClauseOrderWins
  dsimp only
  rw [← smallest_eq_zero_iff h]
  by_cases hstart : m.smallest = 0
  · rw [hstart, range_filter_ne_zero h, List.length_range']
    rw [show [0] = List.range 1 from rfl, show m.rowsOf 0 = m.clauseCard useIndexes (1 - 1) from rfl,
      greedyFrom_range_iff (m.rows.size - 1) 1 Nat.one_pos (by omega)]
    exact ⟨fun hwin => ⟨rfl, fun i hi hin => hwin i hi hin⟩, fun hwin i hi hin => hwin.2 i hi hin⟩
  · refine iff_of_false (fun heq => hstart ?_) (fun hwin => hstart hwin.1)
    obtain ⟨rest, hrest⟩ := @greedyFrom_extends m useIndexes _ _ [m.smallest] (m.rowsOf m.smallest)
    rw [hrest, range_eq_zero_cons h] at heq
    exact (List.cons.inj heq).1

/-! ## Uniform statistics -/

/-- With every edge of one selectivity and no indexed key, a linked step's factor is that
selectivity. -/
theorem joinFactor_of_uniform {s : Float}
    (hedges : ∀ e ∈ m.edges, e.selectivity = s ∧ e.parentIndexed = false ∧ e.childIndexed = false)
    {joined : List Nat} {next : Nat} (hlinked : m.Linked joined next) :
    m.joinFactor joined next useIndexes = some s := by
  rw [joinFactor_eq]
  refine leastTotal_of_forall_eq ?_ (fun f hf => ?_)
  · obtain ⟨e, he, hlinks⟩ := hlinked
    obtain ⟨f, hf⟩ := Option.isSome_iff_exists.mp
      (EdgeEstimate.offer_isSome_iff.mpr hlinks : (e.offer joined next useIndexes).isSome)
    exact List.ne_nil_of_mem (List.mem_filterMap.mpr ⟨e, he, hf⟩)
  · obtain ⟨e, he, hoffer⟩ := List.mem_filterMap.mp hf
    obtain ⟨hsel, hparent, hchild⟩ := hedges e he
    unfold EdgeEstimate.offer at hoffer
    obtain ⟨indexed, hprobed, rfl⟩ := Option.map_eq_some_iff.mp hoffer
    have hunindexed : indexed = false := by
      split at hprobed
      · exact (Option.some.inj hprobed).symm.trans hchild
      · split at hprobed
        · exact (Option.some.inj hprobed).symm.trans hparent
        · cases hprobed
    rw [hunindexed, Bool.and_false, if_neg Bool.false_ne_true, hsel]

/-- **When all steps have the same rows, all edges the same selectivity and no indexed key, and
each step is joined back to an earlier one, the written order wins every round.** -/
theorem clauseOrderWins_of_uniform {s : Float} (hrows : ∀ j < m.rows.size, m.rowsOf j = m.rowsOf 0)
    (hedges : ∀ e ∈ m.edges, e.selectivity = s ∧ e.parentIndexed = false ∧ e.childIndexed = false)
    (hback : m.JoinsBack) (useIndexes : Bool) : m.ClauseOrderWins useIndexes := by
  refine ⟨fun j hj => hrows j hj ▸ Float.lt_irrefl _, fun i hi hin => ?_⟩
  have hlinked : m.Linked (List.range i) i := by
    obtain ⟨e, he, hchild, hparent⟩ := hback i hi hin
    exact ⟨e, he, .inl ⟨hchild, List.mem_range.mpr hparent⟩⟩
  refine ⟨fun _ => hlinked, fun j hij hjn hmay => ?_⟩
  have hlinkedj : m.Linked (List.range i) j :=
    hmay ⟨i, List.mem_range'_1.mpr ⟨Nat.le_refl i, by omega⟩, hlinked⟩
  have hsame : m.rowsAfter useIndexes (List.range i) (m.clauseCard useIndexes (i - 1)) j =
      m.rowsAfter useIndexes (List.range i) (m.clauseCard useIndexes (i - 1)) i := by
    rw [rowsAfter, rowsAfter, joinFactor_of_uniform hedges hlinkedj, joinFactor_of_uniform hedges hlinked,
      hrows j hjn, hrows i hin]
  rw [hsame]
  exact Float.lt_irrefl _

end CostModel

/-! ## No suggestion -/

namespace JoinOrderAdvisor

variable {a : JoinOrderAdvisor}

theorem choose_eq_none_of_greedy {m : CostModel} {original : List Nat} (hsel : m.greedy false = original)
    (hidx : m.hasIndexedEdge = true → m.greedy true = original) : a.choose m original = none := by
  have hskip : ∀ chosen kind useIndexes, m.greedy useIndexes = original →
      a.consider original chosen (candidate m original kind useIndexes) = chosen := by
    intro chosen kind useIndexes h
    unfold consider
    rw [if_pos (by simp [candidate, h])]
  unfold choose
  dsimp only
  rw [hskip none _ false hsel]
  split
  · next h => exact hskip none _ true (hidx h)
  · rfl

theorem analyze_of_choose_eq_none {q : Query} {steps : List JoinStep} {edges : List JoinEdge}
    (hsteps : joinSteps q = .ok (steps, edges))
    (hnone : a.choose (CostModel.collect steps edges a.stats) (List.range steps.length) = none) :
    a.analyze q = if isBlankText q.table then .error (.invalidArgument "query model has no base table") else .ok [] := by
  unfold analyze
  split
  · rfl
  · split
    · rfl
    · rw [hsteps]
      simp only [bind, Except.bind]
      split
      · rfl
      · rw [hnone]

/-- **A query whose written order wins every round of each greedy order the advisor weighs gets
no join order suggestion.** -/
theorem analyze_of_clauseOrderWins {q : Query} {steps : List JoinStep} {edges : List JoinEdge}
    (hsteps : joinSteps q = .ok (steps, edges))
    (hsel : (CostModel.collect steps edges a.stats).ClauseOrderWins false)
    (hidx : (CostModel.collect steps edges a.stats).hasIndexedEdge = true →
      (CostModel.collect steps edges a.stats).ClauseOrderWins true) :
    a.analyze q = if isBlankText q.table then .error (.invalidArgument "query model has no base table") else .ok [] := by
  have hsize : (CostModel.collect steps edges a.stats).rows.size = steps.length := by
    simp [CostModel.collect]
  have hpos : 0 < (CostModel.collect steps edges a.stats).rows.size := by
    have hlen := congrArg List.length (joinSteps_tables hsteps)
    simp only [List.length_map, Query.joinSequence, List.length_cons] at hlen
    omega
  refine analyze_of_choose_eq_none hsteps (choose_eq_none_of_greedy ?_ (fun h => ?_))
  · rw [← hsize]
    exact (CostModel.greedy_eq_range_iff hpos).mpr hsel
  · rw [← hsize]
    exact (CostModel.greedy_eq_range_iff hpos).mpr (hidx h)

end JoinOrderAdvisor

/-- **Greedy ties keep the written order.** With at least one step, a greedy order is the
written order exactly when the written order wins every round. Then, under each greedy order
the advisor weighs, it suggests nothing. So it is when all steps have the same rows, all edges
the same selectivity and no indexed key, and each step is joined back to an earlier one. -/
theorem greedy_keeps_clause_order :
    (∀ (m : CostModel) (useIndexes : Bool), 0 < m.rows.size →
      (m.greedy useIndexes = List.range m.rows.size ↔ m.ClauseOrderWins useIndexes)) ∧
    (∀ (a : JoinOrderAdvisor) (q : Query) (steps : List JoinStep) (edges : List JoinEdge),
      joinSteps q = .ok (steps, edges) →
      (CostModel.collect steps edges a.stats).ClauseOrderWins false →
      ((CostModel.collect steps edges a.stats).hasIndexedEdge = true →
        (CostModel.collect steps edges a.stats).ClauseOrderWins true) →
      a.analyze q = if isBlankText q.table then .error (.invalidArgument "query model has no base table") else .ok []) ∧
    (∀ (m : CostModel) (s : Float), (∀ j < m.rows.size, m.rowsOf j = m.rowsOf 0) →
      (∀ e ∈ m.edges, e.selectivity = s ∧ e.parentIndexed = false ∧ e.childIndexed = false) → m.JoinsBack →
      ∀ useIndexes, m.ClauseOrderWins useIndexes) :=
  ⟨fun _ _ h => CostModel.greedy_eq_range_iff h,
    fun _ _ _ _ hsteps hsel hidx => JoinOrderAdvisor.analyze_of_clauseOrderWins hsteps hsel hidx,
    fun _ _ hrows hedges hback => CostModel.clauseOrderWins_of_uniform hrows hedges hback⟩

/-- Three tables chained by inner joins, under statistics that know nothing: a thousand rows a
table and a tenth for every join. Both greedy orders are the written one, and nothing is
suggested. -/
theorem greedy_keeps_clause_order_on_chain :
    let a : JoinOrderAdvisor := ⟨0.1, {}⟩
    let q : Query :=
      { table := "a", joins := [⟨"b", none, .inner, "a.id", "b.a_id"⟩, ⟨"c", none, .inner, "b.id", "c.b_id"⟩] }
    ∃ steps edges, joinSteps q = .ok (steps, edges) ∧
      (∀ useIndexes, (CostModel.collect steps edges a.stats).greedy useIndexes = List.range steps.length) ∧
      a.analyze q = .ok [] := by
  intro a q
  obtain ⟨steps, edges, hsteps, hback⟩ := joinSteps_joinsBack q (by decide +kernel)
  have hsize : (CostModel.collect steps edges a.stats).rows.size = steps.length := by
    simp [CostModel.collect]
  have hpos : 0 < (CostModel.collect steps edges a.stats).rows.size := by
    have hlen := congrArg List.length (joinSteps_tables hsteps)
    simp only [List.length_map, Query.joinSequence, List.length_cons] at hlen
    omega
  have hrow : ∀ i < (CostModel.collect steps edges a.stats).rows.size,
      (CostModel.collect steps edges a.stats).rowsOf i = (1000 : Nat).toFloat := by
    intro i hi
    rw [hsize] at hi
    simp [CostModel.rowsOf, CostModel.collect, hi]
    rfl
  have hrows : ∀ j < (CostModel.collect steps edges a.stats).rows.size,
      (CostModel.collect steps edges a.stats).rowsOf j = (CostModel.collect steps edges a.stats).rowsOf 0 :=
    fun j hj => (hrow j hj).trans (hrow 0 hpos).symm
  have hedges : ∀ e ∈ (CostModel.collect steps edges a.stats).edges,
      e.selectivity = clampUnit 0.1 ∧ e.parentIndexed = false ∧ e.childIndexed = false := by
    intro e he
    obtain ⟨e', -, rfl⟩ := List.mem_map.mp he
    refine ⟨?_, ?_, ?_⟩ <;> simp [a]
  have hwins := greedy_keeps_clause_order.2.2 _ _ hrows hedges (collect_joinsBack a.stats hback)
  refine ⟨steps, edges, hsteps, fun useIndexes => ?_, ?_⟩
  · rw [← hsize]
    exact (greedy_keeps_clause_order.1 _ useIndexes hpos).mpr (hwins useIndexes)
  · rw [greedy_keeps_clause_order.2.1 a q steps edges hsteps (hwins false) (fun _ => hwins true)]
    rw [if_neg (by decide +kernel)]

end QueryAdvisor
