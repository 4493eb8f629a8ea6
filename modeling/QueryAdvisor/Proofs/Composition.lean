import QueryAdvisor.Analysis
/-!
# Without a budget, an analysis composes its advisors

An analysis is a fold of phases over the parts gathered so far (`analyzeWith`). Without a
budget its checks do nothing, so what remains is the turn of each enabled advisor, one after
another. `advisorParts` says what that gives in the words of the advisors themselves: the
index advisor's outcome as it is, the placement and join order outcomes through their failure
policies (`applyPolicy`), the first failure ending the run, and otherwise each advisor's list
with the notes in the order index, placement, join order.

* `Phase.run_check`: without a budget a check returns the parts it is given.
* `foldlM_phases_eq_filter`: so a fold over phases is the fold over its advisor phases.
* `foldlM_phases`: the fold over the phases of a configuration is `advisorParts`.
* `analysis_composes_advisors`: **without a budget, an analysis of a query with a base table
  is the composition of the enabled advisors**, whatever the clock reads.
-/

namespace QueryAdvisor

/-! ## Failure policies -/

/-- A failure passes through a policy unless it is one of extraction under the policy to
degrade. -/
theorem applyPolicy_eq_error_iff {α : Type} {k : AdvisorKind} {pol : FailurePolicy}
    {o : Except AdviceError (List α)} {e : AdviceError} :
    applyPolicy k pol o = .error e ↔ o = .error e ∧ ¬(pol = .degrade ∧ e.isRecoverable = true) := by
  cases o with
  | ok xs => simp [applyPolicy]
  | error e' =>
    by_cases hd : pol = .degrade ∧ e'.isRecoverable = true
    · simp [applyPolicy, hd]
      rintro rfl
      exact hd.2
    · simp only [applyPolicy]
      rw [if_neg (by simpa using hd)]
      constructor
      · rintro ⟨⟩
        exact ⟨rfl, hd⟩
      · rintro ⟨⟨⟩, -⟩
        rfl

/-- A list passes through a policy with no note. -/
@[simp] theorem applyPolicy_ok {α : Type} (k : AdvisorKind) (pol : FailurePolicy) (xs : List α) :
    applyPolicy k pol (.ok xs) = .ok (xs, []) := rfl

/-! ## Advice up to its time -/

/-- Two pieces of advice have the same findings when they agree in everything but the time they
report and the summary that may show it: the same suggestions, notes and database. -/
def Advice.SameFindings (a b : Advice) : Prop :=
  a.indexes = b.indexes ∧ a.moves = b.moves ∧ a.joinOrders = b.joinOrders ∧ a.degraded = b.degraded ∧
    a.target = b.target

/-- Advice made of the same parts has the same findings however long it took, and the same
summary unless the summary is detailed. -/
theorem Advice.ofParts_sameFindings (indexes : List IndexSuggestion) (moves : List PushdownSuggestion)
    (joinOrders : List JoinOrderSuggestion) (t t' : Nat) (notes : List DegradedNote) (target : TargetDatabase)
    (verbose : Bool) :
    (Advice.ofParts indexes moves joinOrders t notes target verbose).SameFindings
        (Advice.ofParts indexes moves joinOrders t' notes target verbose) ∧
      (verbose = false → (Advice.ofParts indexes moves joinOrders t notes target verbose).summary =
        (Advice.ofParts indexes moves joinOrders t' notes target verbose).summary) := by
  refine ⟨⟨rfl, rfl, rfl, rfl, rfl⟩, ?_⟩
  rintro rfl
  simp only [Advice.ofParts, Advice.summarize, Bool.false_eq_true, ↓reduceIte]
  rfl

/-! ## Checks without a budget -/

theorem Config.budgetMs_eq_none {c : Config} (h : c.maxAnalysisTimeMs ≤ 0) : c.budgetMs = none := by
  simp only [Config.budgetMs]
  rw [if_neg (by omega)]

theorem analyzeWith_eq_map (clock : Checkpoint → Nat) (c : Config) (stats : TableStatistics) (q : Query)
    (hq : isBlankText q.table = false) :
    analyzeWith clock c stats q =
      (c.phases.foldlM (fun (p : Parts) (ph : Phase) => ph.run c stats q clock p) {}).map (fun p =>
        Advice.ofParts p.indexes p.moves p.joinOrders (clock .report) p.notes c.target c.verbose) := by
  simp only [analyzeWith, hq, Bool.false_eq_true, ↓reduceIte]
  cases c.phases.foldlM (fun (p : Parts) (ph : Phase) => ph.run c stats q clock p) {} <;> rfl

/-- Whether a phase is a check of the budget. -/
def Phase.isCheck : Phase → Bool
  | .check _ => true
  | _ => false

section Run

variable {c : Config} {stats : TableStatistics} {q : Query} {clock : Checkpoint → Nat}

theorem Phase.run_check (h : c.budgetMs = none) (pt : Checkpoint) (p : Parts) :
    (Phase.check pt).run c stats q clock p = .ok p := by
  simp only [Phase.run, h]
  rfl

theorem foldlM_phases_eq_filter (h : c.budgetMs = none) :
    ∀ (phs : List Phase) (p : Parts),
      phs.foldlM (fun p ph => ph.run c stats q clock p) p =
        (phs.filter (!·.isCheck)).foldlM (fun p ph => ph.run c stats q clock p) p
  | [], _ => rfl
  | ph :: rest, p => by
    cases ph with
    | check pt =>
      simp only [List.foldlM_cons, Phase.run_check h, List.filter_cons, Phase.isCheck]
      exact foldlM_phases_eq_filter h rest p
    | index | pushdown | joinOrder =>
      simp only [List.foldlM_cons, List.filter_cons, Phase.isCheck, Bool.not_false, ↓reduceIte]
      congr 1
      funext p'
      exact foldlM_phases_eq_filter h rest p'

end Run

/-! ## The composition of the advisors -/

/-- What the enabled advisors give when each runs once, in order: the index advisor's outcome
as it is, the placement and join order outcomes through their failure policies. The first
failure ends the run; otherwise each advisor gives its list, and the notes are the index
advisor's, then the placement advisor's, then the join order advisor's. -/
def advisorParts (c : Config) (stats : TableStatistics) (q : Query) : Except AdviceError Parts := do
  let idx ← if c.indexSuggestions then (IndexAdvisor.ofConfig c).analyze q else pure ⟨[], []⟩
  let moves ← if c.predicatePushdown then
      applyPolicy .pushdown c.policies.pushdown ((PushdownAdvisor.ofConfig c stats).analyze q)
    else pure ([], [])
  let orders ← if c.joinReordering then
      applyPolicy .joinReorder c.policies.joinReorder ((JoinOrderAdvisor.ofConfig c stats).analyze q)
    else pure ([], [])
  pure ⟨idx.suggestions, moves.1, orders.1, idx.notes.map (⟨.index, ·⟩) ++ moves.2 ++ orders.2⟩

theorem Config.phases_filter (c : Config) :
    c.phases.filter (!·.isCheck) =
      (if c.indexSuggestions then [.index] else []) ++ (if c.predicatePushdown then [.pushdown] else []) ++
        (if c.joinReordering then [.joinOrder] else []) := by
  simp only [Config.phases]
  split <;> split <;> split <;> rfl

section Compose

variable {c : Config} {stats : TableStatistics} {q : Query} {clock : Checkpoint → Nat}

theorem foldlM_phases (h : c.budgetMs = none) :
    c.phases.foldlM (fun p ph => ph.run c stats q clock p) {} = advisorParts c stats q := by
  rw [foldlM_phases_eq_filter h, Config.phases_filter]
  cases hi : c.indexSuggestions <;> cases hp : c.predicatePushdown <;> cases hj : c.joinReordering <;>
    simp [advisorParts, Phase.run, hi, hp, hj]

end Compose

/-- **Without a budget, an analysis composes its advisors.** For a query with a base table,
whatever the clock reads, the analysis ends with the first failure that the advisors'
outcomes and policies let through, and otherwise reports the parts of `advisorParts`, timed by
the clock's last reading. -/
theorem analysis_composes_advisors (clock : Checkpoint → Nat) (c : Config) (stats : TableStatistics)
    (q : Query) (hbudget : c.maxAnalysisTimeMs ≤ 0) (hq : isBlankText q.table = false) :
    analyzeWith clock c stats q = (advisorParts c stats q).map (fun p =>
      Advice.ofParts p.indexes p.moves p.joinOrders (clock .report) p.notes c.target c.verbose) := by
  rw [analyzeWith_eq_map clock c stats q hq, foldlM_phases (Config.budgetMs_eq_none hbudget)]

/-- Three tables and a filter on a joined one, with a join clause that has no right key, whose
fault the join order advisor degrades: the index advisor skips that clause with a note, the
placement advisor moves the filter to its table, and the join order advisor leaves a note. -/
theorem analysis_composes_advisors_on_orders :
    let c : Config := { maxAnalysisTimeMs := 0, policies := { joinReorder := .degrade } }
    let stats : TableStatistics :=
      ({ rows := [("orders", 1000000), ("users", 100), ("regions", 10)], indexes := [("users", "id")] } :
        Statistics)
    let q : Query :=
      { table := "orders"
        predicates := [.comparison "u.status" .eq (.string "active")]
        joins := [⟨"users", some "u", .inner, "orders.user_id", "u.id"⟩, ⟨"regions", some "r", .inner, "u.region_id", ""⟩] }
    c.maxAnalysisTimeMs ≤ 0 ∧ isBlankText q.table = false ∧
      analyzeWith (workClock c q) c stats q = (advisorParts c stats q).map (fun p =>
        Advice.ofParts p.indexes p.moves p.joinOrders (workClock c q .report) p.notes c.target c.verbose) ∧
      (advisorParts c stats q).toOption.map
        (fun p => (p.indexes.length, p.moves.length, p.joinOrders.length, p.notes.length)) = some (2, 1, 0, 2) :=
  ⟨by decide, by decide, analysis_composes_advisors _ _ _ _ (by decide) (by decide), by decide +kernel⟩

end QueryAdvisor
