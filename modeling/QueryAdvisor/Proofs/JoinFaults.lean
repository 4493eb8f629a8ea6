import QueryAdvisor.Proofs.JoinLinks
import QueryAdvisor.Proofs.Success
/-!
# The join order advisor fails exactly on malformed clauses

Reading a query's joins into steps and edges goes through the clauses in order. A clause is
malformed when its table name is blank, or when it is not a cross join and a key column is
empty on either side (`Join.readFault?`). The reading stops at the first malformed clause with
its fault, and reads the whole list otherwise (`addJoinSteps_eq_error_iff`).

The advisor checks the base table first, returns nothing for a query without joins, and reads
the joins before it looks for outer joins. So it fails with an invalid argument exactly when the
base table is blank, and otherwise exactly at the first malformed clause, also when the query
has an outer join. Every other query gets a list of at most one suggestion, empty when the
query has no joins or an outer join. The order suggested rearranges the written tables, so
making the suggestion never fails.

Along the way every index the advisor uses stays in range: an edge joins an earlier step to a
later one, both steps of the query (`addJoinSteps_edges_lt`), and each greedy order is a
permutation of the steps' positions.

* `addJoinSteps_cons_of_fault`, `addJoinSteps_cons_of_sound`: reading one clause.
* `addJoinSteps_eq_error_iff`: **reading fails exactly at the first malformed clause.**
* `JoinOrderAdvisor.analyze_eq_error_iff`, `JoinOrderAdvisor.analyze_of_sound`: when the
  advisor fails, and what it returns otherwise.
* `JoinOrderAdvisor.faults_are_malformed_clauses`: **the failures and the results of the
  join order advisor.**
-/

namespace QueryAdvisor

namespace Join

/-- What the join order advisor cannot read in a join clause, if anything: a blank table name,
or, in a join other than a cross join, an empty key column on either side. The failure names the
clause by its right field or by its table. -/
def readFault? (j : Join) : Option AdviceError :=
  if isBlankText j.table then some (.extraction ("join on '" ++ j.rightField ++ "' has no table name"))
  else if j.kind ≠ .cross ∧ (j.column = "" ∨ unqualified j.leftField = "") then
    some (.extraction ("join with '" ++ j.table ++ "' has no key column"))
  else none

end Join

/-! ## Reading the clauses -/

theorem addJoinSteps_cons_of_fault {j : Join} {e : AdviceError} (h : j.readFault? = some e)
    (steps : List JoinStep) (edges : List JoinEdge) (rest : List Join) :
    addJoinSteps steps edges (j :: rest) = .error e := by
  unfold Join.readFault? at h
  simp only [addJoinSteps]
  split
  · next htable =>
    simp only [htable, ↓reduceIte, Option.some.injEq] at h
    rw [h]
  · next htable =>
    simp only [htable, Bool.false_eq_true, ↓reduceIte] at h
    split at h
    · next hkey =>
      obtain ⟨hcross, hcol⟩ := hkey
      cases h
      have hnot : (j.kind == .cross) = false := by simpa using hcross
      simp [hnot, String.isEmpty_iff, hcol]
    · cases h

/-- A clause without fault adds its table as the next step and, unless it is a cross join, an
edge from the step its left field names to the new step. -/
theorem addJoinSteps_cons_of_sound {j : Join} (h : j.readFault? = none)
    (steps : List JoinStep) (edges : List JoinEdge) (rest : List Join) :
    addJoinSteps steps edges (j :: rest) =
      addJoinSteps (steps ++ [⟨j.table, j.aliasName⟩])
        (if j.kind = .cross then edges
          else edges ++ [⟨parentStep steps j.leftField, steps.length, unqualified j.leftField, j.column⟩]) rest := by
  unfold Join.readFault? at h
  split at h
  · cases h
  · next htable =>
    by_cases hcross : j.kind = .cross
    · simp [addJoinSteps, htable, hcross]
    · have hkeys : ¬(j.column = "" ∨ unqualified j.leftField = "") := by
        intro hkey
        simp [hcross, hkey] at h
      have hcol : j.column.isEmpty = false := by simpa [String.isEmpty_iff] using fun h' => hkeys (.inl h')
      have hleft : (unqualified j.leftField).isEmpty = false := by
        simpa [String.isEmpty_iff] using fun h' => hkeys (.inr h')
      simp only [Bool.not_eq_true] at htable
      simp [addJoinSteps, htable, hcross, hcol, hleft]
      rfl

/-- **Reading the clauses fails exactly at the first malformed one, with its fault.** -/
theorem addJoinSteps_eq_error_iff :
    ∀ (js : List Join) (steps : List JoinStep) (edges : List JoinEdge) (e : AdviceError),
      addJoinSteps steps edges js = .error e ↔ js.findSome? Join.readFault? = some e
  | [], steps, edges, e => by simp [addJoinSteps]
  | j :: rest, steps, edges, e => by
    rw [List.findSome?_cons]
    cases hj : j.readFault? with
    | some f =>
      rw [addJoinSteps_cons_of_fault hj]
      simp
    | none =>
      rw [addJoinSteps_cons_of_sound hj]
      exact addJoinSteps_eq_error_iff rest _ _ e

theorem addJoinSteps_edges_lt : ∀ (js : List Join) (steps : List JoinStep) (edges : List JoinEdge),
    0 < steps.length → (∀ e ∈ edges, e.parent < e.child ∧ e.child < steps.length) →
    OkOnly (fun r : List JoinStep × List JoinEdge => ∀ e ∈ r.2, e.parent < e.child ∧ e.child < r.1.length)
      (addJoinSteps steps edges js)
  | [], steps, edges, _, hedges => OkOnly.ok hedges
  | j :: rest, steps, edges, hpos, hedges => by
    cases hj : j.readFault? with
    | some f =>
      rw [addJoinSteps_cons_of_fault hj]
      exact OkOnly.error f
    | none =>
      rw [addJoinSteps_cons_of_sound hj]
      refine addJoinSteps_edges_lt rest _ _ (by simp) (fun e he => ?_)
      have hold : ∀ e ∈ edges, e.parent < e.child ∧ e.child < (steps ++ [(⟨j.table, j.aliasName⟩ : JoinStep)]).length := by
        intro e he
        have := hedges e he
        simp only [List.length_append, List.length_singleton]
        omega
      split at he
      · exact hold e he
      · rcases List.mem_append.mp he with he | he
        · exact hold e he
        · rw [List.mem_singleton] at he
          subst he
          simp only [List.length_append, List.length_singleton]
          exact ⟨parentStep_lt hpos _, Nat.lt_succ_self _⟩

theorem joinSteps_eq_error_iff (q : Query) (e : AdviceError) :
    joinSteps q = .error e ↔ q.joins.findSome? Join.readFault? = some e :=
  addJoinSteps_eq_error_iff q.joins _ _ e

theorem joinSteps_ok_of_sound {q : Query} (hsound : q.joins.findSome? Join.readFault? = none) :
    ∃ r, joinSteps q = .ok r := by
  cases hr : joinSteps q with
  | error e =>
    have hfault := (joinSteps_eq_error_iff q e).mp hr
    rw [hsound] at hfault
    cases hfault
  | ok r => exact ⟨r, rfl⟩

theorem joinSteps_edges_lt (q : Query) :
    OkOnly (fun r : List JoinStep × List JoinEdge => ∀ e ∈ r.2, e.parent < e.child ∧ e.child < r.1.length)
      (joinSteps q) :=
  addJoinSteps_edges_lt q.joins _ _ (by simp) (by simp)

/-! ## The advisor -/

namespace JoinOrderAdvisor

variable (a : JoinOrderAdvisor) {q : Query}

theorem make_chosen {steps : List JoinStep} {edges : List JoinEdge} (h : joinSteps q = .ok (steps, edges))
    {c : JoinCandidate} (hc : a.choose (CostModel.collect steps edges a.stats) (List.range steps.length) = some c) :
    JoinOrderSuggestion.make q.joinSequence (c.order.map (CostModel.tableOf steps)) c.kind c.improvement =
      .ok ⟨q.joinSequence, c.order.map (CostModel.tableOf steps), c.kind, clampUnit c.improvement, "", ""⟩ := by
  obtain ⟨useIndexes, horder⟩ := chosen_greedy hc
  have hperm : q.joinSequence.isPerm (c.order.map (CostModel.tableOf steps)) = true := by
    rw [List.isPerm_iff, horder]
    exact (greedy_tables_perm h a.stats useIndexes).symm
  simp only [JoinOrderSuggestion.make, hperm, ↓reduceIte]

/-- Once the clauses are read, the advisor returns at most one suggestion, none for a query
with an outer join, and the suggested order rearranges the written tables. -/
theorem analyze_of_joinSteps (hq : isBlankText q.table = false) (hjoins : q.hasJoins = true)
    {steps : List JoinStep} {edges : List JoinEdge} (h : joinSteps q = .ok (steps, edges)) :
    ∃ l, a.analyze q = .ok l ∧ l.length ≤ 1 ∧
      ((∃ j ∈ q.joins, j.kind ≠ .inner ∧ j.kind ≠ .cross) → l = []) ∧
      ∀ s ∈ l, s.suggested.Perm q.joinSequence := by
  simp only [analyze, hq, hjoins, Bool.false_eq_true, ↓reduceIte, Bool.not_true, h]
  simp only [bind, Except.bind]
  split
  · exact ⟨[], rfl, by simp, fun _ => rfl, by simp⟩
  · next houter =>
    have hinner : ¬∃ j ∈ q.joins, j.kind ≠ .inner ∧ j.kind ≠ .cross := by
      rintro ⟨j, hj, hi, hc⟩
      exact houter (List.any_eq_true.mpr ⟨j, hj, by simp [hi, hc]⟩)
    split
    · exact ⟨[], rfl, by simp, fun _ => rfl, by simp⟩
    · next c hc =>
      rw [a.make_chosen h hc]
      refine ⟨_, rfl, by simp, fun hout => absurd hout hinner, ?_⟩
      intro s hs
      rw [List.mem_singleton] at hs
      subst hs
      obtain ⟨useIndexes, horder⟩ := chosen_greedy hc
      rw [horder]
      exact greedy_tables_perm h a.stats useIndexes

theorem analyze_of_blank (hq : isBlankText q.table = true) :
    a.analyze q = .error (.invalidArgument "query model has no base table") := by
  simp [analyze, hq]

theorem analyze_of_no_joins (hq : isBlankText q.table = false) (hj : q.hasJoins = false) : a.analyze q = .ok [] := by
  simp [analyze, hq, hj]

theorem analyze_of_joinSteps_error (hq : isBlankText q.table = false) (hj : q.hasJoins = true) {e : AdviceError}
    (h : joinSteps q = .error e) : a.analyze q = .error e := by
  simp [analyze, hq, hj, h, bind, Except.bind]

/-- The advisor fails exactly when the base table is blank, or else at the first malformed
clause: without joins it returns nothing, and once the clauses are read it never fails. -/
theorem analyze_eq_error_iff (q : Query) (e : AdviceError) :
    a.analyze q = .error e ↔
      (isBlankText q.table = true ∧ e = .invalidArgument "query model has no base table") ∨
        (isBlankText q.table = false ∧ q.joins.findSome? Join.readFault? = some e) := by
  cases hq : isBlankText q.table
  · cases hj : q.hasJoins
    · have hnil : q.joins = [] := by simpa [Query.hasJoins] using hj
      simp [a.analyze_of_no_joins hq hj, hnil]
    · rw [← joinSteps_eq_error_iff]
      cases hr : joinSteps q with
      | error e' => simp [a.analyze_of_joinSteps_error hq hj hr]
      | ok r =>
        obtain ⟨l, hl, -⟩ := a.analyze_of_joinSteps hq hj hr
        simp [hl]
  · simp [a.analyze_of_blank hq, eq_comm]

/-- With a base table and no malformed clause, the advisor returns at most one suggestion, none
for a query without joins or with an outer join, and the order suggested rearranges the written
tables. -/
theorem analyze_of_sound (hq : isBlankText q.table = false) (hsound : q.joins.findSome? Join.readFault? = none) :
    ∃ l, a.analyze q = .ok l ∧ l.length ≤ 1 ∧
      ((q.joins = [] ∨ ∃ j ∈ q.joins, j.kind ≠ .inner ∧ j.kind ≠ .cross) → l = []) ∧
      ∀ s ∈ l, s.suggested.Perm q.joinSequence := by
  cases hj : q.hasJoins
  · exact ⟨[], a.analyze_of_no_joins hq hj, by simp, fun _ => rfl, by simp⟩
  · have hnil : q.joins ≠ [] := by simpa [Query.hasJoins] using hj
    obtain ⟨⟨steps, edges⟩, hr⟩ := joinSteps_ok_of_sound hsound
    obtain ⟨l, hl, hlen, hout, hperm⟩ := a.analyze_of_joinSteps hq hj hr
    exact ⟨l, hl, hlen, fun h => h.elim (fun h' => absurd h' hnil) hout, hperm⟩

/-- **The failures and the results of the join order advisor.** For every query and whatever
the statistics and the threshold, the advisor fails exactly when the base table is blank, with
an invalid argument, or else exactly at the first join clause that has a blank table or, not
being a cross join, an empty key column, with that clause's fault. Otherwise it returns at most
one suggestion, none when the query has no joins or has an outer join, and the order suggested
rearranges the written tables, so the refusal of an order that does not is never raised. Every
edge read joins an earlier step to a later one among the steps, and each greedy order is a
permutation of the steps' positions, so no position the advisor looks up is out of range. -/
theorem faults_are_malformed_clauses (q : Query) :
    (∀ e, a.analyze q = .error e ↔
      (isBlankText q.table = true ∧ e = .invalidArgument "query model has no base table") ∨
        (isBlankText q.table = false ∧ q.joins.findSome? Join.readFault? = some e)) ∧
    (isBlankText q.table = false → q.joins.findSome? Join.readFault? = none →
      ∃ l, a.analyze q = .ok l ∧ l.length ≤ 1 ∧
        ((q.joins = [] ∨ ∃ j ∈ q.joins, j.kind ≠ .inner ∧ j.kind ≠ .cross) → l = []) ∧
        ∀ s ∈ l, s.suggested.Perm q.joinSequence) ∧
    (∀ steps edges, joinSteps q = .ok (steps, edges) →
      (∀ e ∈ edges, e.parent < e.child ∧ e.child < steps.length) ∧
        ∀ useIndexes, ((CostModel.collect steps edges a.stats).greedy useIndexes).Perm (List.range steps.length)) :=
  ⟨a.analyze_eq_error_iff q, fun hq hsound => a.analyze_of_sound hq hsound,
    fun _ _ h => ⟨joinSteps_edges_lt q _ h, greedy_steps_perm h a.stats⟩⟩

theorem faults_are_malformed_clauses_on_orders :
    let a : JoinOrderAdvisor := ⟨0.1, ({ rows := [("orders", 1000000), ("users", 100), ("regions", 10)] } : Statistics)⟩
    let q : Query :=
      { table := "orders"
        joins := [⟨"users", some "u", .inner, "orders.user_id", "u.id"⟩,
          ⟨"regions", some "r", .inner, "u.region_id", "r.id"⟩] }
    isBlankText q.table = false ∧ q.joins.findSome? Join.readFault? = none ∧
      (∃ l, a.analyze q = .ok l ∧ l.length ≤ 1 ∧
        ((q.joins = [] ∨ ∃ j ∈ q.joins, j.kind ≠ .inner ∧ j.kind ≠ .cross) → l = []) ∧
        ∀ s ∈ l, s.suggested.Perm q.joinSequence) ∧
      ∃ steps edges, joinSteps q = .ok (steps, edges) ∧
        (∀ e ∈ edges, e.parent < e.child ∧ e.child < steps.length) ∧
        ∀ useIndexes, ((CostModel.collect steps edges a.stats).greedy useIndexes).Perm (List.range steps.length) := by
  intro a q
  have hq : isBlankText q.table = false := by decide
  have hsound : q.joins.findSome? Join.readFault? = none := by decide
  obtain ⟨r, hr⟩ := Except.exists_ok_of_isOk (x := joinSteps q) (by decide +kernel)
  exact ⟨hq, hsound, (a.faults_are_malformed_clauses q).2.1 hq hsound, r.1, r.2, hr,
    (a.faults_are_malformed_clauses q).2.2 r.1 r.2 hr⟩

end JoinOrderAdvisor

end QueryAdvisor
