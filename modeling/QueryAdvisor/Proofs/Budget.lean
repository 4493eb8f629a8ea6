import Mathlib.Control.Monad.Basic
import QueryAdvisor.Proofs.Faults
/-!
# The budget only discards

With a budget, each check of an analysis either lets it go on unchanged or stops it with a
run over the budget; the advisors never read the budget. So whatever the clock reads, an
analysis with a budget either reports a run over the budget, found by the first check that
read more than the budget after every earlier phase succeeded, or ends as the same analysis
without a budget ends: the same failure, or advice with the same findings.

* `Phase.run_budget_cases`: a phase runs as without a budget, or it is a check that overran.
* `foldlM_phases_budget`: so a fold of phases runs as without a budget, or it stops at the
  first check that overran.
* `budget_only_discards`: **the budget only discards, never alters.**
-/

namespace QueryAdvisor

/-- Two outcomes of an analysis agree: the same failure, or advice with the same findings. -/
def SameOutcome : Except AdviceError Advice → Except AdviceError Advice → Prop
  | .ok a, .ok b => a.SameFindings b
  | .error e, .error e' => e = e'
  | _, _ => False

theorem sameOutcome_map (x : Except AdviceError Parts) (t t' : Nat) (target : TargetDatabase) (verbose : Bool) :
    SameOutcome (x.map (fun p => Advice.ofParts p.indexes p.moves p.joinOrders t p.notes target verbose))
      (x.map (fun p => Advice.ofParts p.indexes p.moves p.joinOrders t' p.notes target verbose)) := by
  cases x with
  | error e => rfl
  | ok p => exact (Advice.ofParts_sameFindings p.indexes p.moves p.joinOrders t t' p.notes target verbose).1

section Budget

variable {c : Config} (stats : TableStatistics) (q : Query) (clock clock' : Checkpoint → Nat) {b : Nat}

theorem Phase.run_check_of_budget (hb : c.budgetMs = some b) (pt : Checkpoint) (p : Parts) :
    (Phase.check pt).run c stats q clock p =
      if b * 1000000 < clock pt then .error (.timeoutExceeded (clock pt / 1000000) b) else .ok p := by
  simp only [Phase.run, hb, checkBudget, gt_iff_lt]
  split <;> rfl

/-- **What a phase can do under a budget**: run as it runs without one, or be a check whose
reading overran the budget. -/
theorem Phase.run_budget_cases (hb : c.budgetMs = some b) (ph : Phase) (p : Parts) :
    ph.run c stats q clock p = ph.run { c with maxAnalysisTimeMs := 0 } stats q clock' p ∨
      ∃ pt, ph = .check pt ∧ b * 1000000 < clock pt ∧
        ph.run c stats q clock p = .error (.timeoutExceeded (clock pt / 1000000) b) := by
  cases ph with
  | index | pushdown | joinOrder => exact .inl rfl
  | check pt =>
    by_cases hover : b * 1000000 < clock pt
    · exact .inr ⟨pt, rfl, hover, by rw [Phase.run_check_of_budget stats q clock hb, if_pos hover]⟩
    · left
      rw [Phase.run_check_of_budget stats q clock hb, if_neg hover,
        Phase.run_check (c := { c with maxAnalysisTimeMs := 0 }) (Config.budgetMs_eq_none (Int.le_refl 0))]

/-- **A run under a budget** is the run without it, or it stops at a check that overran after
every earlier phase succeeded. -/
theorem foldlM_phases_budget (hb : c.budgetMs = some b) :
    ∀ (phs : List Phase) (p : Parts),
      phs.foldlM (fun p ph => ph.run c stats q clock p) p =
          phs.foldlM (fun p ph => ph.run { c with maxAnalysisTimeMs := 0 } stats q clock' p) p ∨
        ∃ pre pt post p', phs = pre ++ .check pt :: post ∧
          pre.foldlM (fun p ph => ph.run c stats q clock p) p = .ok p' ∧ b * 1000000 < clock pt ∧
          phs.foldlM (fun p ph => ph.run c stats q clock p) p = .error (.timeoutExceeded (clock pt / 1000000) b)
  | [], p => .inl rfl
  | ph :: rest, p => by
    rcases Phase.run_budget_cases stats q clock clock' hb ph p with hsame | ⟨pt, rfl, hover, hrun⟩
    · cases hr : ph.run c stats q clock p with
      | error e =>
        left
        simp only [List.foldlM_cons, ← hsame, hr]
        rfl
      | ok p₁ =>
        rcases foldlM_phases_budget hb rest p₁ with heq | ⟨pre, pt, post, p', hsplit, hpre, hover, hrun⟩
        · left
          simp only [List.foldlM_cons, ← hsame, hr]
          exact heq
        · right
          refine ⟨ph :: pre, pt, post, p', by rw [hsplit]; rfl, ?_, hover, ?_⟩
          · simp only [List.foldlM_cons, hr]
            exact hpre
          · simp only [List.foldlM_cons, hr]
            exact hrun
    · right
      refine ⟨[], pt, rest, p, rfl, rfl, hover, ?_⟩
      simp only [List.foldlM_cons, hrun]
      rfl

end Budget

theorem foldlM_phases_failsOnly {c : Config} (stats : TableStatistics) (q : Query) (clock : Checkpoint → Nat)
    (h : c.budgetMs = none) :
    FailsOnly AdviceError.IsAdvisorFault (c.phases.foldlM (fun p ph => ph.run c stats q clock p) {}) :=
  FailsOnly.foldlM (fun p ph => Phase.run_failsOnly stats q clock h ph p) _ _

/-- **The budget only discards, never alters.** With a budget of `b` milliseconds, whatever the
clock reads at each check, an analysis either fails with a run over the budget of `b`
milliseconds taking at least `b`, or ends as the same analysis without a budget does, whatever
that one's clock reads: the same failure, or advice with the same findings. A run over the
budget comes only from a check that read more than the budget, the first check to do so, and
only once every earlier phase has succeeded, so an advisor's failure before it stands. -/
theorem budget_only_discards (clock clock' : Checkpoint → Nat) (c : Config) (stats : TableStatistics) (q : Query)
    (hpos : 0 < c.maxAnalysisTimeMs) :
    let b := c.maxAnalysisTimeMs.toNat
    let budgeted := analyzeWith clock c stats q
    ((∃ e, budgeted = .error (.timeoutExceeded e b) ∧ b ≤ e) ∨
        SameOutcome budgeted (analyzeWith clock' { c with maxAnalysisTimeMs := 0 } stats q)) ∧
      ∀ e b', budgeted = .error (.timeoutExceeded e b') →
        b' = b ∧ ∃ pre pt post p, c.phases = pre ++ .check pt :: post ∧
          pre.foldlM (fun (p : Parts) (ph : Phase) => ph.run c stats q clock p) {} = .ok p ∧
          b * 1000000 < clock pt ∧ e = clock pt / 1000000 := by
  intro b budgeted
  have hb : c.budgetMs = some b := by simp [Config.budgetMs, hpos, b]
  have h₀ : ({ c with maxAnalysisTimeMs := 0 } : Config).budgetMs = none :=
    Config.budgetMs_eq_none (Int.le_refl 0)
  cases hq : isBlankText q.table
  · have hphases : ({ c with maxAnalysisTimeMs := 0 } : Config).phases = c.phases := rfl
    simp only [budgeted]
    rw [analyzeWith_eq_map clock c stats q hq, analyzeWith_eq_map clock' _ stats q hq, hphases]
    rcases foldlM_phases_budget stats q clock clock' hb c.phases {} with
      heq | ⟨pre, pt, post, p, hsplit, hpre, hover, hrun⟩
    · refine ⟨.inr ?_, ?_⟩
      · rw [heq]
        exact sameOutcome_map _ _ _ _ _
      · intro e b' h
        rw [heq] at h
        have hfails := foldlM_phases_failsOnly stats q clock' h₀
        rw [hphases] at hfails
        exact (hfails _ (Except.map_eq_error_iff.mp h)).elim
    · rw [hrun]
      refine ⟨.inl ⟨_, rfl, by omega⟩, ?_⟩
      rintro e b' ⟨⟩
      exact ⟨rfl, pre, pt, post, p, hsplit, hpre, hover, rfl⟩
  · simp only [budgeted, analyzeWith, hq, ↓reduceIte]
    exact ⟨.inr rfl, by rintro e b' ⟨⟩⟩

/-- A clock that reads two milliseconds at every check, against a budget of one: the run stops
at the first check, after the index advisor. -/
theorem budget_only_discards_on_slow_clock :
    let c : Config := { maxAnalysisTimeMs := 1, policies := { joinReorder := .degrade } }
    let stats : TableStatistics :=
      ({ rows := [("orders", 1000000), ("users", 100), ("regions", 10)], indexes := [("users", "id")] } :
        Statistics)
    let q : Query :=
      { table := "orders"
        predicates := [.comparison "u.status" .eq (.string "active")]
        joins := [⟨"users", some "u", .inner, "orders.user_id", "u.id"⟩, ⟨"regions", some "r", .inner, "u.region_id", ""⟩] }
    let clock : Checkpoint → Nat := fun _ => 2000000
    let b := c.maxAnalysisTimeMs.toNat
    let budgeted := analyzeWith clock c stats q
    0 < c.maxAnalysisTimeMs ∧ budgeted.map (fun _ => ()) = .error (.timeoutExceeded 2 1) ∧
      ((∃ e, budgeted = .error (.timeoutExceeded e b) ∧ b ≤ e) ∨
          SameOutcome budgeted (analyzeWith (workClock c q) { c with maxAnalysisTimeMs := 0 } stats q)) ∧
        ∀ e b', budgeted = .error (.timeoutExceeded e b') →
          b' = b ∧ ∃ pre pt post p, c.phases = pre ++ .check pt :: post ∧
            pre.foldlM (fun (p : Parts) (ph : Phase) => ph.run c stats q clock p) {} = .ok p ∧
            b * 1000000 < clock pt ∧ e = clock pt / 1000000 :=
  ⟨by decide, by decide +kernel, budget_only_discards _ _ _ _ _ (by decide)⟩

theorem budget_only_discards_on_work_clock :
    let c : Config := { maxAnalysisTimeMs := 1, policies := { joinReorder := .degrade } }
    let stats : TableStatistics :=
      ({ rows := [("orders", 1000000), ("users", 100), ("regions", 10)], indexes := [("users", "id")] } :
        Statistics)
    let q : Query :=
      { table := "orders"
        predicates := [.comparison "u.status" .eq (.string "active")]
        joins := [⟨"users", some "u", .inner, "orders.user_id", "u.id"⟩, ⟨"regions", some "r", .inner, "u.region_id", ""⟩] }
    let b := c.maxAnalysisTimeMs.toNat
    let budgeted := analyzeWith (workClock c q) c stats q
    0 < c.maxAnalysisTimeMs ∧ budgeted.isOk = true ∧
      ((∃ e, budgeted = .error (.timeoutExceeded e b) ∧ b ≤ e) ∨
          SameOutcome budgeted (analyzeWith (workClock c q) { c with maxAnalysisTimeMs := 0 } stats q)) ∧
        ∀ e b', budgeted = .error (.timeoutExceeded e b') →
          b' = b ∧ ∃ pre pt post p, c.phases = pre ++ .check pt :: post ∧
            pre.foldlM (fun (p : Parts) (ph : Phase) => ph.run c stats q (workClock c q) p) {} = .ok p ∧
            b * 1000000 < workClock c q pt ∧ e = workClock c q pt / 1000000 :=
  ⟨by decide, by decide +kernel, budget_only_discards _ _ _ _ _ (by decide)⟩

end QueryAdvisor
