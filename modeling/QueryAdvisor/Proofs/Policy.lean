import QueryAdvisor.Proofs.Composition
/-!
# Degrading and propagating agree up to the first note

Run an analysis twice, once with every advisor degrading and once with every advisor
propagating. Until the degrading run takes its first note the two runs do the same steps; the
fault that the degrading run notes first is one of extraction, and it is where the propagating
run stops. `Degrades` states this of two outcomes, and it is closed under `pure` and bind, so
under folds: the index advisor's walk over filters and joins, and the phases of an analysis.

* `Degrades.bind`, `Degrades.foldlM`: the relation passes through binds and folds.
* `Degrades.of_fault`: a fault is noted by the degrading run where the propagating one stops.
* `IndexAdvisor.analyze_degrades`: the index advisor degrading and propagating.
* `foldlM_phases_degrades`: the phases of an analysis degrading and propagating.
* `degrade_and_propagate_agree`: **without a budget, an analysis that propagates succeeds exactly
  when the one that degrades takes no note, with the same findings; and when the degrading one
  takes notes, the propagating one fails on a fault of extraction whose message is the first
  note.**
-/

namespace QueryAdvisor

/-! ## The relation -/

section Degrades

variable {σ τ : Type}

/-- The outcome `d` of a run that degrades and the outcome `p` of the same run propagating,
both from a state with notes `n`: either the degrading run noted nothing and both end alike, or
its first new note is the message of a fault of extraction on which the propagating run
stopped. When the degrading run fails, so does the propagating one. -/
def Degrades (notes : σ → List String) (n : List String) : Except AdviceError σ → Except AdviceError σ → Prop
  | .ok s, p =>
    (notes s = n ∧ p = .ok s) ∨
      ∃ x rest, notes s = n ++ (AdviceError.extraction x).message :: rest ∧ p = .error (.extraction x)
  | .error _, p => ∃ e, p = .error e

theorem Degrades.ok_of_notes {notes : σ → List String} {n : List String} {s : σ} (h : notes s = n) :
    Degrades notes n (.ok s) (.ok s) :=
  .inl ⟨h, rfl⟩

theorem Degrades.prefix {notes : σ → List String} {n : List String} {s : σ} {p : Except AdviceError σ}
    (h : Degrades notes n (.ok s) p) : ∃ more, notes s = n ++ more := by
  rcases h with ⟨hs, -⟩ | ⟨x, rest, hs, -⟩
  · exact ⟨[], by simp [hs]⟩
  · exact ⟨_, hs⟩

/-- Binding two related runs to related continuations, which may add the notes `pre` in
front, gives related runs. -/
theorem Degrades.bind_append {nσ : σ → List String} {nτ : τ → List String} (pre : List String) {n : List String}
    {d p : Except AdviceError σ} {f g : σ → Except AdviceError τ} (h : Degrades nσ n d p)
    (hf : ∀ s, Degrades nτ (pre ++ nσ s) (f s) (g s)) : Degrades nτ (pre ++ n) (d >>= f) (p >>= g) := by
  cases d with
  | error e =>
    obtain ⟨e', rfl⟩ := h
    exact ⟨e', rfl⟩
  | ok s =>
    rcases h with ⟨hs, rfl⟩ | ⟨x, rest, hs, rfl⟩
    · rw [← hs]
      exact hf s
    · show Degrades nτ (pre ++ n) (f s) (.error (.extraction x))
      cases hfs : f s with
      | error e => exact ⟨_, rfl⟩
      | ok t =>
        have hft := hf s
        rw [hfs] at hft
        obtain ⟨more, ht⟩ := hft.prefix
        exact .inr ⟨x, rest ++ more, by simp [ht, hs], rfl⟩

theorem Degrades.bind {nσ : σ → List String} {nτ : τ → List String} {n : List String}
    {d p : Except AdviceError σ} {f g : σ → Except AdviceError τ} (h : Degrades nσ n d p)
    (hf : ∀ s, Degrades nτ (nσ s) (f s) (g s)) : Degrades nτ n (d >>= f) (p >>= g) := by
  simpa using Degrades.bind_append [] h (by simpa using hf)

theorem Degrades.of_fault {notes : σ → List String} {n : List String} (e : AdviceError) {s : σ}
    (hs : notes s = n ++ [e.message]) :
    Degrades notes n (if e.isRecoverable = true then .ok s else .error e) (.error e) := by
  cases e with
  | extraction x => exact .inr ⟨x, [], hs, rfl⟩
  | invalidArgument _ | timeoutExceeded _ _ | configuration _ => exact ⟨_, rfl⟩

theorem Degrades.foldlM {α : Type} {notes : σ → List String} {fD fP : σ → α → Except AdviceError σ}
    (hstep : ∀ s x, Degrades notes (notes s) (fD s x) (fP s x)) :
    ∀ (xs : List α) (s : σ), Degrades notes (notes s) (xs.foldlM fD s) (xs.foldlM fP s)
  | [], s => .ok_of_notes rfl
  | x :: xs, s => by
    simp only [List.foldlM_cons]
    exact (hstep s x).bind (fun s' => Degrades.foldlM hstep xs s')

end Degrades

/-! ## The index advisor -/

namespace IndexAdvisor

variable (a : IndexAdvisor) (q : Query)

theorem absorb_degrades (r : Run) (e : AdviceError) :
    Degrades Run.notes r.notes ({ a with policy := .degrade }.absorb r e)
      ({ a with policy := .propagate }.absorb r e) :=
  Degrades.of_fault e rfl

theorem leafStep_degrades (r : Run) (leaf : Predicate) :
    Degrades Run.notes r.notes ({ a with policy := .degrade }.leafStep q r leaf)
      ({ a with policy := .propagate }.leafStep q r leaf) := by
  simp only [leafStep]
  cases forLeaf leaf (q.tableOf leaf.qualifier?) with
  | ok found =>
    cases found with
    | some s => exact .ok_of_notes rfl
    | none => exact .ok_of_notes rfl
  | error e => exact absorb_degrades a r e

theorem joinStep_degrades (r : Run) (j : Join) :
    Degrades Run.notes r.notes ({ a with policy := .degrade }.joinStep q r j)
      ({ a with policy := .propagate }.joinStep q r j) := by
  simp only [joinStep]
  split
  · exact absorb_degrades a r _
  · cases forJoinKeys [j.rightField] j.table with
    | ok ss => exact .ok_of_notes (by simp only [apply_ite Run.notes, ite_self])
    | error e =>
      refine (absorb_degrades a r e).bind (fun r' => .ok_of_notes ?_)
      simp only [apply_ite Run.notes, ite_self]

/-- **The index advisor degrading and propagating.** -/
theorem analyze_degrades :
    Degrades IndexAdvice.notes [] ({ a with policy := .degrade }.analyze q)
      ({ a with policy := .propagate }.analyze q) := by
  simp only [analyze]
  split
  · exact ⟨_, rfl⟩
  · refine (Degrades.foldlM (leafStep_degrades a q) _ {}).bind (fun r => ?_)
    refine (Degrades.foldlM (joinStep_degrades a q) _ r).bind (fun r => ?_)
    have hc : ∀ pol : FailurePolicy,
        ({ maxComposite := a.maxComposite, threshold := a.threshold, policy := pol } : IndexAdvisor).composite =
          a.composite := fun _ => rfl
    simp only [hc]
    split
    · exact .ok_of_notes rfl
    · exact (absorb_degrades a _ _).bind (fun r => .ok_of_notes rfl)

end IndexAdvisor

/-! ## The phases of an analysis -/

/-- A policy to degrade turns a fault of extraction into a note where a policy to propagate
fails. -/
theorem applyPolicy_degrades {α : Type} (k : AdvisorKind) (o : Except AdviceError (List α)) :
    Degrades (fun r => r.2.map (·.reason)) [] (applyPolicy k .degrade o) (applyPolicy k .propagate o) := by
  cases o with
  | ok xs => exact .ok_of_notes rfl
  | error e => exact Degrades.of_fault e rfl

/-- The reasons of the notes gathered so far. -/
def Parts.reasons (p : Parts) : List String := p.notes.map (·.reason)

/-- A phase that runs an advisor and appends the advisor's notes to the parts it is given,
degrading and propagating. -/
theorem Degrades.append_notes {α : Type} {nα : α → List String} (p : Parts) {d r : Except AdviceError α}
    {k : α → Except AdviceError Parts} (h : Degrades nα [] d r)
    (hk : ∀ x, ∃ p', k x = .ok p' ∧ p'.reasons = p.reasons ++ nα x) :
    Degrades Parts.reasons p.reasons (d >>= k) (r >>= k) := by
  rw [← List.append_nil p.reasons]
  refine Degrades.bind_append p.reasons h (fun x => ?_)
  obtain ⟨p', hkx, hp'⟩ := hk x
  rw [hkx]
  exact .ok_of_notes hp'

section Phases

variable (c : Config) (stats : TableStatistics) (q : Query) (clockD clockP : Checkpoint → Nat)

theorem Phase.run_degrades (h : c.budgetMs = none) (ph : Phase) (p : Parts) :
    Degrades Parts.reasons p.reasons (ph.run { c with policies := .degradeAll } stats q clockD p)
      (ph.run { c with policies := .propagateAll } stats q clockP p) := by
  cases ph with
  | index =>
    simp only [Phase.run]
    refine Degrades.append_notes p (IndexAdvisor.analyze_degrades (IndexAdvisor.ofConfig c) q)
      (fun adv => ⟨_, rfl, ?_⟩)
    simp [Parts.reasons, Function.comp_def]
  | pushdown =>
    simp only [Phase.run]
    refine Degrades.append_notes p (applyPolicy_degrades .pushdown ((PushdownAdvisor.ofConfig c stats).analyze q))
      (fun moves => ⟨_, rfl, ?_⟩)
    simp [Parts.reasons]
  | joinOrder =>
    simp only [Phase.run]
    refine Degrades.append_notes p
      (applyPolicy_degrades .joinReorder ((JoinOrderAdvisor.ofConfig c stats).analyze q))
      (fun orders => ⟨_, rfl, ?_⟩)
    simp [Parts.reasons]
  | check pt =>
    rw [Phase.run_check (c := { c with policies := .degradeAll }) h,
      Phase.run_check (c := { c with policies := .propagateAll }) h]
    exact .ok_of_notes rfl

/-- **The phases of an analysis without a budget, degrading and propagating.** -/
theorem foldlM_phases_degrades (h : c.budgetMs = none) :
    Degrades Parts.reasons []
      ({ c with policies := .degradeAll }.phases.foldlM
        (fun (p : Parts) (ph : Phase) => ph.run { c with policies := .degradeAll } stats q clockD p) {})
      ({ c with policies := .propagateAll }.phases.foldlM
        (fun (p : Parts) (ph : Phase) => ph.run { c with policies := .propagateAll } stats q clockP p) {}) :=
  Degrades.foldlM (fun p ph => Phase.run_degrades c stats q clockD clockP h ph p) c.phases {}

end Phases

/-- Related parts give advice that agrees as the policies promise, however long each run
took. -/
theorem Degrades.advice {fD fP : Except AdviceError Parts} (h : Degrades Parts.reasons [] fD fP)
    (tD tP : Nat) (target : TargetDatabase) (verbose : Bool) :
    let degrading := fD.map (fun p => Advice.ofParts p.indexes p.moves p.joinOrders tD p.notes target verbose)
    let propagating := fP.map (fun p => Advice.ofParts p.indexes p.moves p.joinOrders tP p.notes target verbose)
    ((∃ r, propagating = .ok r) ↔ ∃ r', degrading = .ok r' ∧ r'.degraded = []) ∧
      (∀ r r', propagating = .ok r → degrading = .ok r' →
        r.SameFindings r' ∧ (verbose = false → r.summary = r'.summary)) ∧
      (∀ r' note rest, degrading = .ok r' → r'.degraded = note :: rest →
        ∃ x, propagating = .error (.extraction x) ∧ (AdviceError.extraction x).message = note.reason) := by
  intro degrading propagating
  cases fD with
  | error e =>
    obtain ⟨e', rfl⟩ := h
    simp [degrading, propagating, Except.map]
  | ok pD =>
    rcases h with ⟨hn, rfl⟩ | ⟨x, rest, hn, rfl⟩
    · have hnil : pD.notes = [] := by simpa [Parts.reasons] using hn
      have hsame := Advice.ofParts_sameFindings pD.indexes pD.moves pD.joinOrders tP tD pD.notes target verbose
      refine ⟨?_, ?_, ?_⟩
      · simp [degrading, propagating, Except.map, Advice.ofParts, hnil]
      · simp only [degrading, propagating, Except.map, Except.ok.injEq]
        rintro r r' rfl rfl
        exact hsame
      · simp only [degrading, Except.map, Except.ok.injEq]
        rintro r' note more rfl hnotes
        simp [Advice.ofParts, hnil] at hnotes
    · refine ⟨?_, ?_, ?_⟩
      · simp [degrading, propagating, Except.map, Advice.ofParts, Parts.reasons] at hn ⊢
        intro hnil
        simp [hnil] at hn
      · simp [propagating, Except.map]
      · simp only [degrading, propagating, Except.map, Except.ok.injEq]
        rintro r' note more rfl hnotes
        refine ⟨x, rfl, ?_⟩
        simp only [Advice.ofParts, Parts.reasons] at hnotes hn
        rw [hnotes] at hn
        simp at hn
        exact hn.1.symm

/-- **Degrading and propagating agree up to the first note.** Without a budget, the analysis of
a query with every advisor propagating succeeds exactly when the analysis with every advisor
degrading succeeds without notes, and the two then have the same findings, and the same summary
unless it is detailed. When the degrading analysis takes notes, the propagating one fails on a
fault of extraction whose message is the first note. Each analysis reads its own clock. -/
theorem degrade_and_propagate_agree (clockD clockP : Checkpoint → Nat) (c : Config) (stats : TableStatistics)
    (q : Query) (hbudget : c.maxAnalysisTimeMs ≤ 0) :
    let degrading := analyzeWith clockD { c with policies := .degradeAll } stats q
    let propagating := analyzeWith clockP { c with policies := .propagateAll } stats q
    ((∃ r, propagating = .ok r) ↔ ∃ r', degrading = .ok r' ∧ r'.degraded = []) ∧
      (∀ r r', propagating = .ok r → degrading = .ok r' →
        r.SameFindings r' ∧ (c.verbose = false → r.summary = r'.summary)) ∧
      (∀ r' note rest, degrading = .ok r' → r'.degraded = note :: rest →
        ∃ x, propagating = .error (.extraction x) ∧ (AdviceError.extraction x).message = note.reason) := by
  cases hq : isBlankText q.table
  · rw [analyzeWith_eq_map clockD _ stats q hq, analyzeWith_eq_map clockP _ stats q hq]
    exact Degrades.advice (foldlM_phases_degrades c stats q clockD clockP (Config.budgetMs_eq_none hbudget))
      (clockD .report) (clockP .report) c.target c.verbose
  · simp [analyzeWith, hq]

theorem degrade_and_propagate_agree_on_unnamed_filter :
    let c : Config := { maxAnalysisTimeMs := 0 }
    let q : Query := { table := "users", predicates := [.comparison "" .eq .null] }
    let degrading := analyzeWith (workClock c q) { c with policies := .degradeAll } {} q
    let propagating := analyzeWith (workClock c q) { c with policies := .propagateAll } {} q
    c.maxAnalysisTimeMs ≤ 0 ∧
      ((∃ r, propagating = .ok r) ↔ ∃ r', degrading = .ok r' ∧ r'.degraded = []) ∧
      (∀ r r', propagating = .ok r → degrading = .ok r' →
        r.SameFindings r' ∧ (c.verbose = false → r.summary = r'.summary)) ∧
      (∀ r' note rest, degrading = .ok r' → r'.degraded = note :: rest →
        ∃ x, propagating = .error (.extraction x) ∧ (AdviceError.extraction x).message = note.reason) :=
  ⟨by decide, degrade_and_propagate_agree _ _ _ _ _ (by decide)⟩

end QueryAdvisor
