import QueryAdvisor.Proofs.Faults
/-!
# Degrading on every fault

With every policy set to degrade, no budget and a base table, the placement and join order
advisors never end an analysis: past the base table their only faults are faults of
extraction, which the policy turns into notes. The index advisor steps over its faults of
extraction too, but not over an index target it refuses. A filter qualified by the alias of a
join without a table resolves to a blank table, and a column whose name is blank is refused as
well; the join loop checks for a blank table first, the filters do not. Those refusals, and a
threshold that a valid configuration never has, are the only ways such an analysis fails.

* `applyPolicy_degrade_ok`: a policy to degrade turns faults of extraction into notes.
* `IndexAdvisor.analyze_degrade_failsOnly`: degrading, the index advisor fails only by refusing
  a target or by its threshold.
* `advisorParts_degradeAll_eq_error`: degrading on every fault, the advisors fail exactly when
  the index advisor does.
* `degrade_all_fails_only_on_refused_targets`: **degrading on every fault, an analysis fails
  exactly when the index advisor does, and then only by a refused target or an invalid
  threshold.**
-/

namespace QueryAdvisor

/-- A policy to degrade turns an outcome that fails only by faults of extraction into a list and
its notes. -/
theorem applyPolicy_degrade_ok {α : Type} (k : AdvisorKind) {o : Except AdviceError (List α)}
    (h : FailsOnly (·.isRecoverable = true) o) : ∃ r, applyPolicy k .degrade o = .ok r := by
  cases happ : applyPolicy k .degrade o with
  | ok r => exact ⟨r, rfl⟩
  | error e =>
    obtain ⟨ho, hkept⟩ := applyPolicy_eq_error_iff.mp happ
    exact (hkept ⟨rfl, h e ho⟩).elim

/-- A threshold fails its check under any name, so a configuration whose index threshold fails
the composite index's check does not pass validation. -/
theorem Config.validate_ne_ok_of_threshold {c : Config} {e : AdviceError}
    (h : checkFraction "threshold" c.indexSelectivityThreshold = .error e) : c.validate ≠ .ok () := by
  have hbad : ¬(c.indexSelectivityThreshold.isFinite && 0 ≤ c.indexSelectivityThreshold &&
      c.indexSelectivityThreshold ≤ 1) = true := by
    intro hok
    simp only [checkFraction, hok, ↓reduceIte] at h
    cases h
  intro hvalid
  simp only [Config.validate, checkFraction, hbad] at hvalid
  cases hvalid

namespace IndexAdvisor

variable (a : IndexAdvisor) (q : Query)

/-- **Degrading, the index advisor fails only by refusing a target or by its threshold.** -/
theorem analyze_degrade_failsOnly (ha : a.policy = .degrade) (hq : isBlankText q.table = false) :
    FailsOnly (fun e => e.IsIndexTargetRefusal ∨ checkFraction "threshold" a.threshold = .error e)
      (a.analyze q) := by
  refine a.analyze_failsOnly_of q (fun e he => ?_) (fun hblank => ?_) (fun e he => .inr he)
  · rcases he with hrec | hrefused
    · exact .inl ⟨ha, hrec⟩
    · exact .inr (.inl hrefused)
  · rw [hq] at hblank
    cases hblank

end IndexAdvisor

section DegradeAll

variable {c : Config} {stats : TableStatistics} {q : Query}

theorem advisorParts_eq_bind :
    advisorParts c stats q =
      (if c.indexSuggestions then (IndexAdvisor.ofConfig c).analyze q else pure ⟨[], []⟩) >>= fun idx =>
        (if c.predicatePushdown then
          applyPolicy .pushdown c.policies.pushdown ((PushdownAdvisor.ofConfig c stats).analyze q)
        else pure ([], [])) >>= fun moves =>
          (if c.joinReordering then
            applyPolicy .joinReorder c.policies.joinReorder ((JoinOrderAdvisor.ofConfig c stats).analyze q)
          else pure ([], [])) >>= fun orders =>
            pure ⟨idx.suggestions, moves.1, orders.1, idx.notes.map (⟨.index, ·⟩) ++ moves.2 ++ orders.2⟩ := by
  unfold advisorParts
  cases c.indexSuggestions <;> cases c.predicatePushdown <;> cases c.joinReordering <;> rfl

/-- Degrading on every fault, the placement and join order advisors never fail on a query with
a base table. -/
theorem advisorParts_degradeAll_eq_error (hpol : c.policies = .degradeAll) (hq : isBlankText q.table = false)
    (e : AdviceError) :
    advisorParts c stats q = .error e ↔
      c.indexSuggestions = true ∧ (IndexAdvisor.ofConfig c).analyze q = .error e := by
  have hbase : isBlankText q.table = true → (AdviceError.invalidArgument "query model has no base table").isRecoverable = true := by
    rw [hq]
    intro h
    cases h
  obtain ⟨moves, hmoves⟩ : ∃ moves, (if c.predicatePushdown then
      applyPolicy .pushdown c.policies.pushdown ((PushdownAdvisor.ofConfig c stats).analyze q)
    else pure ([], [])) = .ok moves := by
    split
    · rw [hpol]
      exact applyPolicy_degrade_ok _ ((PushdownAdvisor.ofConfig c stats).analyze_failsOnly_of q hbase (fun _ h => h))
    · exact ⟨_, rfl⟩
  obtain ⟨orders, horders⟩ : ∃ orders, (if c.joinReordering then
      applyPolicy .joinReorder c.policies.joinReorder ((JoinOrderAdvisor.ofConfig c stats).analyze q)
    else pure ([], [])) = .ok orders := by
    split
    · rw [hpol]
      exact applyPolicy_degrade_ok _ ((JoinOrderAdvisor.ofConfig c stats).analyze_failsOnly_of q hbase (fun _ h => h))
    · exact ⟨_, rfl⟩
  rw [advisorParts_eq_bind, hmoves, horders]
  cases hi : c.indexSuggestions with
  | false =>
    constructor
    · intro h
      cases h
    · rintro ⟨⟨⟩, -⟩
  | true =>
    simp only [↓reduceIte]
    cases (IndexAdvisor.ofConfig c).analyze q with
    | error e' =>
      constructor
      · intro h
        cases h
        exact ⟨trivial, rfl⟩
      · rintro ⟨-, ⟨⟩⟩
        rfl
    | ok idx =>
      constructor
      · intro h
        cases h
      · rintro ⟨-, ⟨⟩⟩

end DegradeAll

/-- **Degrading on every fault, an analysis fails exactly when the index advisor does, and then
only by a refused index target or by an index threshold that no valid configuration has.**
With every policy set to degrade, no budget and a query with a base table, the placement and
join order advisors never end the analysis, whatever the statistics and the clock read. The
index advisor steps over its faults of extraction but not over a target it refuses: a filter
through the alias of a join without a table, or a column whose name is blank. -/
theorem degrade_all_fails_only_on_refused_targets (clock : Checkpoint → Nat) (c : Config)
    (stats : TableStatistics) (q : Query) (hpol : c.policies = .degradeAll) (hbudget : c.maxAnalysisTimeMs ≤ 0)
    (hq : isBlankText q.table = false) :
    (∀ e, analyzeWith clock c stats q = .error e ↔
        c.indexSuggestions = true ∧ (IndexAdvisor.ofConfig c).analyze q = .error e) ∧
      ∀ e, (IndexAdvisor.ofConfig c).analyze q = .error e →
        e.IsIndexTargetRefusal ∨
          (checkFraction "threshold" c.indexSelectivityThreshold = .error e ∧ c.validate ≠ .ok ()) := by
  refine ⟨fun e => ?_, fun e he => ?_⟩
  · rw [analyzeWith_eq_map clock c stats q hq, foldlM_phases (Config.budgetMs_eq_none hbudget),
      Except.map_eq_error_iff]
    exact advisorParts_degradeAll_eq_error hpol hq e
  · have hdeg : (IndexAdvisor.ofConfig c).policy = .degrade := by
      show c.policies.index = .degrade
      rw [hpol]
      rfl
    rcases IndexAdvisor.analyze_degrade_failsOnly _ q hdeg hq e he with hrefused | hthreshold
    · exact .inl hrefused
    · exact .inr ⟨hthreshold, Config.validate_ne_ok_of_threshold hthreshold⟩

theorem degrade_all_fails_only_on_refused_targets_at_unnamed_join :
    let c : Config := { maxAnalysisTimeMs := 0, policies := .degradeAll }
    let q : Query :=
      { table := "users"
        predicates := [.comparison "o.total" .gt (.string "x")]
        joins := [⟨"", some "o", .inner, "users.id", "o.user_id"⟩] }
    c.policies = .degradeAll ∧ c.maxAnalysisTimeMs ≤ 0 ∧ isBlankText q.table = false ∧
      (∀ e, analyzeWith (workClock c q) c {} q = .error e ↔
          c.indexSuggestions = true ∧ (IndexAdvisor.ofConfig c).analyze q = .error e) ∧
        ∀ e, (IndexAdvisor.ofConfig c).analyze q = .error e →
          e.IsIndexTargetRefusal ∨
            (checkFraction "threshold" c.indexSelectivityThreshold = .error e ∧ c.validate ≠ .ok ()) :=
  ⟨rfl, by decide, by decide, degrade_all_fails_only_on_refused_targets _ _ _ _ rfl (by decide) (by decide)⟩

end QueryAdvisor
