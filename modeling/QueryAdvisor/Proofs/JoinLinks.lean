import Mathlib.Data.Nat.Find
import QueryAdvisor.Proofs.GreedyRound
/-!
# Greedy orders join along the query's joins

When every join of a query has a condition, a table and key columns (`Join.Keyed`), each joined
step gets an edge back to an earlier step: the step its left field names, or the base table
(`joinSteps_joinsBack`). So the steps and edges make a tree rooted at the base table, and
whatever steps are joined, some remaining step is linked to them: the least remaining step when
the base table is joined, and else the step that the least joined step's edge leads back to
(`CostModel.exists_linked`).

Hence every greedy round weighs only linked steps, and the step it takes is linked to the order
so far (`CostModel.greedyFrom_linkedOrder`). A greedy order never joins a step without a join
condition: its join factor is what an edge of the query offers, never the factor 1 of a cross
product (`greedy_joins_along_clauses`).
-/

namespace QueryAdvisor

/-! ## The edges of a query's joins -/

/-- The step that a join's left field names among the steps so far: the first whose table or
alias is the qualifier, else the base table. -/
def parentStep (steps : List JoinStep) (leftField : String) : Nat :=
  match splitLastDot? leftField with
  | some (q, _) => (steps.findIdx? (·.matches q)).getD 0
  | none => 0

theorem parentStep_lt {steps : List JoinStep} (h : 0 < steps.length) (leftField : String) :
    parentStep steps leftField < steps.length := by
  unfold parentStep
  split
  · next q _ _ =>
    cases hfind : steps.findIdx? (·.matches q) with
    | none => exact h
    | some i => exact (List.findIdx?_eq_some_iff_getElem.mp hfind).1
  · exact h

/-- A join with a condition, a table and key columns on both sides: it adds a step and an edge. -/
def Join.Keyed (j : Join) : Prop :=
  j.kind ≠ .cross ∧ isBlankText j.table = false ∧ j.column ≠ "" ∧ unqualified j.leftField ≠ ""

instance : DecidablePred Join.Keyed := fun j =>
  inferInstanceAs (Decidable (j.kind ≠ .cross ∧ isBlankText j.table = false ∧ j.column ≠ "" ∧ unqualified j.leftField ≠ ""))

theorem addJoinSteps_cons_of_keyed {j : Join} (hj : j.Keyed) (steps : List JoinStep) (edges : List JoinEdge)
    (rest : List Join) :
    addJoinSteps steps edges (j :: rest) = addJoinSteps (steps ++ [⟨j.table, j.aliasName⟩])
      (edges ++ [⟨parentStep steps j.leftField, steps.length, unqualified j.leftField, j.column⟩]) rest := by
  obtain ⟨hkind, htable, hcol, hleft⟩ := hj
  simp [addJoinSteps, htable, hkind, hcol, hleft]
  rfl

/-- Adding keyed joins succeeds, keeps the edges so far, and joins each new step back to an
earlier one. -/
theorem addJoinSteps_joinsBack : ∀ (js : List Join) (steps : List JoinStep) (edges : List JoinEdge),
    0 < steps.length → (∀ j ∈ js, j.Keyed) →
    ∃ steps' edges', addJoinSteps steps edges js = .ok (steps', edges') ∧
      steps'.length = steps.length + js.length ∧ (∀ e ∈ edges, e ∈ edges') ∧
      ∀ c, steps.length ≤ c → c < steps'.length → ∃ e ∈ edges', e.child = c ∧ e.parent < c
  | [], steps, edges, _, _ => ⟨steps, edges, rfl, rfl, fun _ h => h, fun c h1 h2 => absurd h2 (by omega)⟩
  | j :: rest, steps, edges, hpos, hjoins => by
    have hj := hjoins j List.mem_cons_self
    obtain ⟨steps', edges', hrun, hlen, hkeep, hback⟩ :=
      addJoinSteps_joinsBack rest (steps ++ [⟨j.table, j.aliasName⟩])
        (edges ++ [⟨parentStep steps j.leftField, steps.length, unqualified j.leftField, j.column⟩])
        (by simp) (fun j' hj' => hjoins j' (List.mem_cons_of_mem _ hj'))
    simp only [List.length_append, List.length_singleton] at hlen hback
    have hnew : ⟨parentStep steps j.leftField, steps.length, unqualified j.leftField, j.column⟩ ∈ edges' :=
      hkeep _ (List.mem_append_right _ List.mem_cons_self)
    refine ⟨steps', edges', by rw [addJoinSteps_cons_of_keyed hj, hrun], by simp [hlen]; omega,
      fun e he => hkeep e (List.mem_append_left _ he), fun c hc hc' => ?_⟩
    rcases Nat.lt_or_eq_of_le hc with hc | rfl
    · exact hback c hc hc'
    · exact ⟨_, hnew, rfl, parentStep_lt hpos _⟩

/-- The steps and edges of a query whose joins are keyed: every step after the base table has
an edge back to an earlier step. -/
theorem joinSteps_joinsBack (q : Query) (h : ∀ j ∈ q.joins, j.Keyed) :
    ∃ steps edges, joinSteps q = .ok (steps, edges) ∧
      ∀ c, 0 < c → c < steps.length → ∃ e ∈ edges, e.child = c ∧ e.parent < c := by
  obtain ⟨steps, edges, hrun, -, -, hback⟩ := addJoinSteps_joinsBack q.joins [⟨q.table, q.aliasName⟩] [] (by simp) h
  exact ⟨steps, edges, hrun, fun c hc hc' => hback c hc hc'⟩

/-! ## Linked steps -/

namespace EdgeEstimate

theorem Links.congr {e : EdgeEstimate} {joined joined' : List Nat} {next : Nat}
    (h : ∀ x, x ∈ joined ↔ x ∈ joined') (hl : e.Links joined next) : e.Links joined' next := by
  rcases hl with ⟨hchild, hparent⟩ | ⟨hparent, hchild⟩
  · exact .inl ⟨hchild, (h _).mp hparent⟩
  · exact .inr ⟨hparent, (h _).mp hchild⟩

end EdgeEstimate

namespace CostModel

variable {m : CostModel} {useIndexes : Bool}

/-- Every step after the first is joined back to an earlier step by an edge. -/
def JoinsBack (m : CostModel) : Prop :=
  ∀ c, 0 < c → c < m.rows.size → ∃ e ∈ m.edges, e.child = c ∧ e.parent < c

/-- Each step of an order after the first is linked to the steps before it. -/
def LinkedOrder (m : CostModel) (order : List Nat) : Prop :=
  ∀ k (hk : k < order.length), 0 < k → m.Linked (order.take k) order[k]

theorem LinkedOrder.singleton (c : Nat) : m.LinkedOrder [c] := fun k hk hpos => by
  simp only [List.length_singleton] at hk
  omega

theorem LinkedOrder.append {order : List Nat} {c : Nat} (h : m.LinkedOrder order) (hc : m.Linked order c) :
    m.LinkedOrder (order ++ [c]) := by
  intro k hk hpos
  rw [List.length_append, List.length_singleton] at hk
  rcases Nat.lt_succ_iff_lt_or_eq.mp hk with hk' | rfl
  · rw [List.take_append_of_le_length (Nat.le_of_lt hk'), List.getElem_append_left hk']
    exact h k hk' hpos
  · rw [List.take_left, List.getElem_concat_length rfl]
    exact hc

/-- **In a tree of edges rooted at the first step, whatever steps are joined, some remaining
step is linked to them.** -/
theorem exists_linked (hback : m.JoinsBack) {order remaining : List Nat}
    (hperm : (order ++ remaining).Perm (List.range m.rows.size)) (horder : order ≠ []) (hrem : remaining ≠ []) :
    ∃ c ∈ remaining, m.Linked order c := by
  have hnodup : (order ++ remaining).Nodup := hperm.nodup_iff.mpr List.nodup_range
  have hsteps : ∀ x, x ∈ order ∨ x ∈ remaining ↔ x < m.rows.size := fun x => by
    rw [← List.mem_append, hperm.mem_iff, List.mem_range]
  have hdisjoint : ∀ x ∈ order, x ∉ remaining := fun x hx hx' =>
    (List.nodup_append.mp hnodup).2.2 x hx x hx' rfl
  by_cases h0 : 0 ∈ order
  · have hex : ∃ r, r ∈ remaining := List.exists_mem_of_ne_nil remaining hrem
    have hr : Nat.find hex ∈ remaining := Nat.find_spec hex
    have hrsize : Nat.find hex < m.rows.size := (hsteps _).mp (.inr hr)
    have hrpos : 0 < Nat.find hex := Nat.pos_of_ne_zero (fun h => hdisjoint 0 h0 (h ▸ hr))
    obtain ⟨e, he, hchild, hparent⟩ := hback _ hrpos hrsize
    have hjoined : e.parent ∈ order := by
      rcases (hsteps e.parent).mpr (by omega) with hp | hp
      · exact hp
      · exact absurd (Nat.find_min' hex hp) (by omega)
    exact ⟨_, hr, e, he, .inl ⟨hchild, hjoined⟩⟩
  · have hex : ∃ o, o ∈ order := List.exists_mem_of_ne_nil order horder
    have ho : Nat.find hex ∈ order := Nat.find_spec hex
    have hosize : Nat.find hex < m.rows.size := (hsteps _).mp (.inl ho)
    have hopos : 0 < Nat.find hex := Nat.pos_of_ne_zero (fun h => h0 (h ▸ ho))
    obtain ⟨e, he, hchild, hparent⟩ := hback _ hopos hosize
    have hleft : e.parent ∈ remaining := by
      rcases (hsteps e.parent).mpr (by omega) with hp | hp
      · exact absurd (Nat.find_min' hex hp) (by omega)
      · exact hp
    exact ⟨e.parent, hleft, e, he, .inr ⟨rfl, hchild ▸ ho⟩⟩

/-- **Every step a greedy run joins is linked to the order before it.** The run keeps its order
and remaining steps a reordering of all steps, and in a tree some remaining step is then linked,
so each round takes a linked step. -/
theorem greedyFrom_linkedOrder (hback : m.JoinsBack) : ∀ (fuel : Nat) (remaining order : List Nat) (card : Float),
    (order ++ remaining).Perm (List.range m.rows.size) → order ≠ [] → m.LinkedOrder order →
      m.LinkedOrder (m.greedyFrom useIndexes fuel remaining order card)
  | 0, _, _, _, _, _, hlinked => hlinked
  | fuel + 1, remaining, order, card, hperm, horder, hlinked => by
    rw [greedyFrom_succ]
    split
    · exact hlinked
    · next hne =>
      split
      · exact hlinked
      · next c next hpick =>
        obtain ⟨hc, hmay, -⟩ := pick_eq_some hpick
        have hlinkedc : m.Linked order c := hmay (exists_linked hback hperm horder (by simpa using hne))
        refine greedyFrom_linkedOrder hback fuel _ _ next ?_ (by simp) (hlinked.append hlinkedc)
        rw [List.append_assoc, List.singleton_append]
        exact ((List.perm_cons_erase hc).symm.append_left order).trans hperm

theorem greedy_linkedOrder (hback : m.JoinsBack) (hpos : 0 < m.rows.size) : m.LinkedOrder (m.greedy useIndexes) :=
  m.greedyFrom_linkedOrder hback _ _ _ _ (m.smallest_cons_perm hpos) (List.cons_ne_nil _ _) (LinkedOrder.singleton _)

end CostModel

/-! ## The greedy orders of a query -/

theorem collect_joinsBack {steps : List JoinStep} {edges : List JoinEdge} (stats : TableStatistics)
    (hback : ∀ c, 0 < c → c < steps.length → ∃ e ∈ edges, e.child = c ∧ e.parent < c) :
    (CostModel.collect steps edges stats).JoinsBack := by
  intro c hc hc'
  simp only [CostModel.collect, List.size_toArray, List.length_map] at hc'
  obtain ⟨e, he, hchild, hparent⟩ := hback c hc hc'
  exact ⟨_, List.mem_map_of_mem he, hchild, hparent⟩

/-- **A greedy order of a query whose joins are keyed joins every step, and each step after the
first along a join of the query to a step before it.** So its join factor onto the steps before it, in any
order they are held (the cost holds them newest first), is the selectivity of such a join,
halved at most for an indexed key: never the factor 1 of a cross product. -/
theorem greedy_joins_along_clauses (q : Query) (hjoins : ∀ j ∈ q.joins, j.Keyed) :
    ∃ steps edges, joinSteps q = .ok (steps, edges) ∧
      ∀ (stats : TableStatistics) (useIndexes : Bool),
        let m := CostModel.collect steps edges stats
        let order := m.greedy useIndexes
        order.Perm (List.range steps.length) ∧
        ∀ k (hk : k < order.length), 0 < k →
          (∃ e ∈ edges, (e.child = order[k] ∧ e.parent ∈ order.take k) ∨
            (e.parent = order[k] ∧ e.child ∈ order.take k)) ∧
          ∀ joined : List Nat, joined.Perm (order.take k) →
            ∃ f, m.joinFactor joined order[k] useIndexes = some f ∧
              ∃ e ∈ m.edges, e.Links joined order[k] ∧ (f = e.selectivity ∨ f = e.selectivity * 0.5) := by
  obtain ⟨steps, edges, hsteps, hback⟩ := joinSteps_joinsBack q hjoins
  refine ⟨steps, edges, hsteps, ?_⟩
  intro stats useIndexes m order
  refine ⟨greedy_steps_perm hsteps stats useIndexes, ?_⟩
  intro k hk hpos
  have hsize : 0 < m.rows.size := by
    have hlen := congrArg List.length (joinSteps_tables hsteps)
    simp only [List.length_map, Query.joinSequence, List.length_cons] at hlen
    show 0 < (CostModel.collect steps edges stats).rows.size
    simp [CostModel.collect, hlen]
  obtain ⟨e, he, hlinks⟩ :=
    CostModel.greedy_linkedOrder (collect_joinsBack stats hback) hsize k hk hpos
  refine ⟨?_, fun joined hjoined => ?_⟩
  · obtain ⟨e', he', rfl⟩ := List.mem_map.mp he
    exact ⟨e', he', hlinks⟩
  · have hsome : (m.joinFactor joined order[k] useIndexes).isSome :=
      CostModel.joinFactor_isSome_iff.mpr ⟨e, he, hlinks.congr (fun x => hjoined.mem_iff.symm)⟩
    obtain ⟨f, hf⟩ := Option.isSome_iff_exists.mp hsome
    exact ⟨f, hf, CostModel.joinFactor_eq_some hf⟩

/-- A chain of inner joins, orders to users to regions. -/
theorem greedy_joins_along_clauses_on_chain :
    let q : Query :=
      { table := "orders"
        joins := [⟨"users", some "u", .inner, "orders.user_id", "u.id"⟩,
          ⟨"regions", some "r", .inner, "u.region_id", "r.id"⟩] }
    (∀ j ∈ q.joins, j.Keyed) ∧
      ∃ steps edges, joinSteps q = .ok (steps, edges) ∧
        ∀ (stats : TableStatistics) (useIndexes : Bool),
          let m := CostModel.collect steps edges stats
          let order := m.greedy useIndexes
          order.Perm (List.range steps.length) ∧
          ∀ k (hk : k < order.length), 0 < k →
            (∃ e ∈ edges, (e.child = order[k] ∧ e.parent ∈ order.take k) ∨
              (e.parent = order[k] ∧ e.child ∈ order.take k)) ∧
            ∀ joined : List Nat, joined.Perm (order.take k) →
              ∃ f, m.joinFactor joined order[k] useIndexes = some f ∧
                ∃ e ∈ m.edges, e.Links joined order[k] ∧ (f = e.selectivity ∨ f = e.selectivity * 0.5) := by
  intro q
  have hkeyed : ∀ j ∈ q.joins, j.Keyed := by decide +kernel
  exact ⟨hkeyed, greedy_joins_along_clauses q hkeyed⟩

end QueryAdvisor
