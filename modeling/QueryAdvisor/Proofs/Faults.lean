import QueryAdvisor.Proofs.Composition
import QueryAdvisor.Proofs.JoinOrder
/-!
# What the advisors fail with

`FailsOnly P x` says that every failure of `x` satisfies `P`. It passes through `pure`, binds,
folds and maps over lists, so the failures of a function are gathered from those of the steps
it takes.

Each advisor's lemma is stated once, for any predicate `P` that holds of what the advisor
raises itself and of what it lets through from the constructors and checks it calls. The index
advisor meets faults of extraction and refused targets on its way (`AdviceError.IsIndexFault`)
and lets out only those its policy does not step over (`IndexAdvisor.Tolerates`). The placement
advisor fails only on a blank base table or by a fault of extraction, and so does the join order
advisor, whose suggested order always reorders the query's tables.

So the advisors fail for two causes only: an argument they cannot work with, or a fault of
extraction (`AdviceError.IsAdvisorFault`). No advisor reports a run over its budget or a
configuration error; a run over the budget is reported by the analysis around them.

* `FailsOnly.bind`, `FailsOnly.foldlM`, `FailsOnly.mapM`: failures through binds and loops.
* `IndexAdvisor.analyze_failsOnly_of`, `PushdownAdvisor.analyze_failsOnly_of`,
  `JoinOrderAdvisor.analyze_failsOnly_of`: what each advisor can fail with.
* `IndexAdvisor.analyze_failsOnly`, `PushdownAdvisor.analyze_failsOnly`,
  `JoinOrderAdvisor.analyze_failsOnly`: **each advisor fails only with advisor faults.**
* `Phase.run_failsOnly`: so does every phase of an analysis without a budget.
-/

namespace QueryAdvisor

theorem Except.map_eq_error_iff {ε α β : Type} {f : α → β} {x : Except ε α} {e : ε} :
    x.map f = .error e ↔ x = .error e := by
  cases x <;> simp [Except.map]

/-- Every failure of `x` satisfies `P`. -/
def FailsOnly {ε α : Type} (P : ε → Prop) (x : Except ε α) : Prop := ∀ e, x = .error e → P e

namespace FailsOnly

variable {ε α β : Type} {P Q : ε → Prop}

theorem ok (a : α) : FailsOnly P (.ok a : Except ε α) := fun _ h => by cases h

theorem error {e : ε} (h : P e) : FailsOnly P (.error e : Except ε α) := by
  rintro e' ⟨⟩
  exact h

theorem mono (hPQ : ∀ e, P e → Q e) {x : Except ε α} (h : FailsOnly P x) : FailsOnly Q x :=
  fun e he => hPQ e (h e he)

theorem bind {x : Except ε α} {f : α → Except ε β} (hx : FailsOnly P x)
    (hf : ∀ a, x = .ok a → FailsOnly P (f a)) : FailsOnly P (x >>= f) := by
  intro e he
  cases hxa : x with
  | error e' =>
    rw [hxa] at he
    cases he
    exact hx e hxa
  | ok a =>
    rw [hxa] at he
    exact hf a hxa e he

theorem foldlM {f : β → α → Except ε β} (hf : ∀ s y, FailsOnly P (f s y)) :
    ∀ (xs : List α) (s : β), FailsOnly P (xs.foldlM f s)
  | [], s => ok s
  | y :: ys, s => by
    simp only [List.foldlM_cons]
    exact (hf s y).bind (fun s' _ => foldlM hf ys s')

theorem mapM {f : α → Except ε β} (hf : ∀ y, FailsOnly P (f y)) : ∀ xs : List α, FailsOnly P (xs.mapM f)
  | [] => ok []
  | y :: ys => by
    simp only [List.mapM_cons]
    exact (hf y).bind (fun _ _ => (mapM hf ys).bind (fun _ _ => ok _))

end FailsOnly

/-- A failure an advisor raises: an argument it cannot work with, or a fault of extraction. -/
def AdviceError.IsAdvisorFault : AdviceError → Prop
  | .invalidArgument _ | .extraction _ => True
  | .timeoutExceeded _ _ | .configuration _ => False

/-- A refusal to suggest an index: on a blank table, or without a named column. -/
def AdviceError.IsIndexTargetRefusal : AdviceError → Prop
  | .invalidArgument m =>
    m = "index suggestion requires a table name" ∨
      ∃ t, m = "index suggestion on '" ++ t ++ "' requires at least one named column"
  | _ => False

/-- A failure the index advisor meets on its way: a fault of extraction or a refused target. -/
def AdviceError.IsIndexFault (e : AdviceError) : Prop :=
  e.isRecoverable = true ∨ e.IsIndexTargetRefusal

namespace AdviceError

variable {e : AdviceError}

theorem isAdvisorFault_of_isRecoverable (h : e.isRecoverable = true) : e.IsAdvisorFault := by
  cases e with
  | extraction _ => trivial
  | invalidArgument _ | timeoutExceeded _ _ | configuration _ => cases h

theorem IsIndexTargetRefusal.isAdvisorFault (h : e.IsIndexTargetRefusal) : e.IsAdvisorFault := by
  cases e with
  | invalidArgument _ => trivial
  | extraction _ | timeoutExceeded _ _ | configuration _ => exact h.elim

theorem IsIndexFault.isAdvisorFault (h : e.IsIndexFault) : e.IsAdvisorFault :=
  h.elim isAdvisorFault_of_isRecoverable IsIndexTargetRefusal.isAdvisorFault

end AdviceError

/-! ## Checks and constructors -/

theorem checkFraction_failsOnly (name : String) (value : Float) :
    FailsOnly AdviceError.IsAdvisorFault (checkFraction name value) := by
  unfold checkFraction
  split
  · exact .ok _
  · exact .error trivial

theorem requireTable_failsOnly {P : AdviceError → Prop} {table : String} (h : isBlankText table = false) :
    FailsOnly P (requireTable table) := by
  simp only [requireTable, h, Bool.false_eq_true, ↓reduceIte]
  exact .ok _

theorem IndexSuggestion.make_failsOnly (table : String) (columns : List String) (kind : IndexKind) (s : Float) :
    FailsOnly AdviceError.IsIndexTargetRefusal (IndexSuggestion.make table columns kind s) := by
  unfold IndexSuggestion.make
  split
  · exact .error (Or.inl rfl)
  · split
    · exact .error (Or.inr ⟨table, rfl⟩)
    · exact .ok _

/-! ## The index advisor -/

namespace IndexAdvisor

theorem forLeaf_failsOnly (leaf : Predicate) (table : String) :
    FailsOnly AdviceError.IsIndexFault (forLeaf leaf table) := by
  unfold forLeaf
  split
  · exact .ok _
  · split
    · exact .error (Or.inl rfl)
    · dsimp only
      split
      · exact .ok _
      · exact (FailsOnly.mono (fun _ => Or.inr) (IndexSuggestion.make_failsOnly _ _ _ _)).bind (fun _ _ => .ok _)

theorem forJoinKeys_failsOnly (fields : List String) {table : String} (h : isBlankText table = false) :
    FailsOnly AdviceError.IsIndexFault (forJoinKeys fields table) := by
  unfold forJoinKeys
  refine (requireTable_failsOnly h).bind (fun _ _ => FailsOnly.mapM (fun field => ?_) fields)
  dsimp only
  split
  · exact .error (Or.inl rfl)
  · exact (FailsOnly.mono (fun _ => Or.inr) (IndexSuggestion.make_failsOnly _ _ _ _)).bind (fun _ _ => .ok _)

theorem composite_failsOnly {Q : AdviceError → Prop} (a : IndexAdvisor) (usage : List (String × Nat))
    {table : String} {threshold : Float} (hcheck : FailsOnly Q (checkFraction "threshold" threshold))
    (ht : isBlankText table = false) (hrefuse : ∀ e, e.IsIndexTargetRefusal → Q e) :
    FailsOnly Q (a.composite usage table threshold) := by
  unfold composite
  refine hcheck.bind (fun _ _ => (requireTable_failsOnly ht).bind (fun _ _ => ?_))
  dsimp only
  split
  · exact .ok _
  · exact (FailsOnly.mono hrefuse (IndexSuggestion.make_failsOnly _ _ _ _)).bind (fun _ _ => .ok _)

/-- The advisor steps over `e` under its policy, or `e` satisfies `P`. -/
def Tolerates (a : IndexAdvisor) (P : AdviceError → Prop) (e : AdviceError) : Prop :=
  (a.policy = .degrade ∧ e.isRecoverable = true) ∨ P e

variable (a : IndexAdvisor) (q : Query) {P : AdviceError → Prop}

theorem absorb_failsOnly (r : Run) {e : AdviceError} (h : a.Tolerates P e) : FailsOnly P (a.absorb r e) := by
  unfold absorb
  split
  · exact .ok _
  · next hkept =>
    refine .error (h.resolve_left ?_)
    rintro ⟨hd, hr⟩
    exact hkept (by simp [hd, hr])

section Tolerated

-- every fault the advisor meets on its way is stepped over or satisfies `P`
variable (hfault : ∀ e, e.IsIndexFault → a.Tolerates P e)
include hfault

theorem leafStep_failsOnly (r : Run) (leaf : Predicate) : FailsOnly P (a.leafStep q r leaf) := by
  simp only [leafStep]
  cases h : forLeaf leaf (q.tableOf leaf.qualifier?) with
  | ok found => cases found <;> exact .ok _
  | error e => exact a.absorb_failsOnly r (hfault e (forLeaf_failsOnly _ _ e h))

theorem joinStep_failsOnly (r : Run) (j : Join) : FailsOnly P (a.joinStep q r j) := by
  unfold joinStep
  split
  · exact a.absorb_failsOnly r (hfault _ (Or.inl rfl))
  · next hj =>
    cases h : forJoinKeys [j.rightField] j.table with
    | ok ss => exact .ok _
    | error e =>
      have hkeys := forJoinKeys_failsOnly [j.rightField] (by simpa using hj) e h
      exact (a.absorb_failsOnly r (hfault e hkeys)).bind (fun _ _ => .ok _)

/-- **The index advisor fails only with what its base table, its threshold and its policy let
through.** -/
theorem analyze_failsOnly_of (hbase : isBlankText q.table = true → P (.invalidArgument "query model has no base table"))
    (hcheck : FailsOnly P (checkFraction "threshold" a.threshold)) : FailsOnly P (a.analyze q) := by
  simp only [analyze]
  split
  · exact .error (hbase ‹_›)
  · next hq =>
    refine (FailsOnly.foldlM (a.leafStep_failsOnly q hfault) _ _).bind (fun r _ => ?_)
    refine (FailsOnly.foldlM (a.joinStep_failsOnly q hfault) _ _).bind (fun r _ => ?_)
    have hcomposite : ∀ usage, FailsOnly (a.Tolerates P) (a.composite usage q.table a.threshold) :=
      fun usage => a.composite_failsOnly usage (hcheck.mono (fun _ => Or.inr)) (by simpa using hq)
        (fun e he => hfault e (Or.inr he))
    split
    · exact .ok _
    · next e h => exact (a.absorb_failsOnly _ (hcomposite _ e h)).bind (fun _ _ => .ok _)

end Tolerated

/-- **The index advisor fails only with advisor faults.** -/
theorem analyze_failsOnly : FailsOnly AdviceError.IsAdvisorFault (a.analyze q) :=
  a.analyze_failsOnly_of q (fun _ he => Or.inr he.isAdvisorFault) (fun _ => trivial) (checkFraction_failsOnly _ _)

end IndexAdvisor

/-! ## The placement and join order advisors -/

namespace PushdownAdvisor

theorem forIndexes_failsOnly (preds : List Predicate) (indexed : List String) :
    FailsOnly (·.isRecoverable = true) (forIndexes preds indexed) := by
  unfold forIndexes
  refine (FailsOnly.mapM (fun pi => ?_) _).bind (fun _ _ => .ok _)
  obtain ⟨p, i⟩ := pi
  simp only [indexMove]
  split
  · exact .ok _
  · split
    · exact .error rfl
    · split <;> exact .ok _

variable {P : AdviceError → Prop} (a : PushdownAdvisor) (q : Query)

/-- **The placement advisor fails only on a blank base table or by a fault of extraction.** -/
theorem analyze_failsOnly_of (hbase : isBlankText q.table = true → P (.invalidArgument "query model has no base table"))
    (hrec : ∀ e, e.isRecoverable = true → P e) : FailsOnly P (a.analyze q) := by
  unfold analyze
  split
  · exact .error (hbase ‹_›)
  · exact (FailsOnly.mono hrec (forIndexes_failsOnly _ _)).bind (fun _ _ => .ok _)

theorem analyze_failsOnly : FailsOnly AdviceError.IsAdvisorFault (a.analyze q) :=
  a.analyze_failsOnly_of q (fun _ => trivial) (fun _ => AdviceError.isAdvisorFault_of_isRecoverable)

end PushdownAdvisor

theorem addJoinSteps_failsOnly (steps : List JoinStep) (edges : List JoinEdge) (joins : List Join) :
    FailsOnly (·.isRecoverable = true) (addJoinSteps steps edges joins) := by
  induction joins generalizing steps edges with
  | nil => exact .ok _
  | cons j rest ih =>
    simp only [addJoinSteps]
    split
    · exact .error rfl
    · split
      · exact ih _ _
      · split
        · exact .error rfl
        · exact ih _ _

namespace JoinOrderAdvisor

variable {P : AdviceError → Prop} (a : JoinOrderAdvisor) (q : Query)

/-- **The join order advisor fails only on a blank base table or by a fault of extraction.** -/
theorem analyze_failsOnly_of (hbase : isBlankText q.table = true → P (.invalidArgument "query model has no base table"))
    (hrec : ∀ e, e.isRecoverable = true → P e) : FailsOnly P (a.analyze q) := by
  intro e he
  rcases analyze_eq_error he with ⟨hblank, rfl⟩ | hjoins
  · exact hbase hblank
  · exact hrec e (addJoinSteps_failsOnly _ _ _ e hjoins)

theorem analyze_failsOnly : FailsOnly AdviceError.IsAdvisorFault (a.analyze q) :=
  a.analyze_failsOnly_of q (fun _ => trivial) (fun _ => AdviceError.isAdvisorFault_of_isRecoverable)

end JoinOrderAdvisor

/-! ## The phases of an analysis -/

theorem applyPolicy_failsOnly {α : Type} {P : AdviceError → Prop} (k : AdvisorKind) (pol : FailurePolicy)
    {o : Except AdviceError (List α)} (h : FailsOnly P o) : FailsOnly P (applyPolicy k pol o) := by
  intro e he
  exact h e (applyPolicy_eq_error_iff.mp he).1

theorem Phase.run_failsOnly {c : Config} (stats : TableStatistics) (q : Query) (clock : Checkpoint → Nat)
    (h : c.budgetMs = none) (ph : Phase) (p : Parts) :
    FailsOnly AdviceError.IsAdvisorFault (ph.run c stats q clock p) := by
  cases ph with
  | index => exact (IndexAdvisor.analyze_failsOnly _ q).bind (fun _ _ => .ok _)
  | pushdown =>
    exact (applyPolicy_failsOnly _ _ (PushdownAdvisor.analyze_failsOnly _ q)).bind (fun _ _ => .ok _)
  | joinOrder =>
    exact (applyPolicy_failsOnly _ _ (JoinOrderAdvisor.analyze_failsOnly _ q)).bind (fun _ _ => .ok _)
  | check pt =>
    rw [Phase.run_check h]
    exact .ok _

end QueryAdvisor
