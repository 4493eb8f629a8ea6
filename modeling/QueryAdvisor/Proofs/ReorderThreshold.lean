import QueryAdvisor.Proofs.Placement
import QueryAdvisor.Proofs.Degrade
import QueryAdvisor.Proofs.FloatOrder
/-!
# A lower reordering threshold keeps every move

The reordering threshold is read by one step of the placement advisor only: a predicate is
moved to its place in the order by selectivity when its share of positions moved is not at most
the threshold. The order of floats is transitive (`Float.le_trans`), so a share that is not at
most a higher threshold is not at most a lower one either, and the reorderings under the higher
threshold are among those under the lower one, unchanged (`reorder_subset`). The other kinds of
moves, and the only failure of the advisor, do not read the threshold.

The advisor keeps, at each position a candidate names, the first candidate of the highest
priority (`PlacementSpec`). Fewer candidates name no more positions, and at each of them the
best is no better. So under the higher threshold there are no more moves, and each has a move
under the lower threshold at its position, of at least its priority. An analysis without a
budget reports the moves of the placement advisor, or none when the fault is stepped over, and
otherwise does not read the threshold, so it too reports no more moves.

* `reorder_subset`, `candidates_subset`: a higher threshold keeps only some of the candidates.
* `PlacementSpec.covers`: the moves kept from fewer candidates are covered by those kept from
  more.
* `Fewer`: two outcomes that fail alike, or succeed with no more in the second; it goes through
  binds (`Fewer.bind`, `Fewer.bind_left`).
* `lower_threshold_keeps_moves`: **under a lower reordering threshold the placement advisor
  fails alike, or keeps a move at every position it keeps one under a higher threshold, of at
  least the same priority; and an analysis without a budget reports no fewer moves.**
-/

namespace QueryAdvisor

namespace PushdownAdvisor

variable {stats : TableStatistics} {t₁ t₂ : Float}

theorem reorder_subset (h : t₁ ≤ t₂) (preds : List Predicate) :
    ∀ s ∈ (⟨t₂, stats⟩ : PushdownAdvisor).reorder preds, s ∈ (⟨t₁, stats⟩ : PushdownAdvisor).reorder preds := by
  unfold reorder
  dsimp only
  split
  · exact fun _ hs => hs
  · intro s hs
    obtain ⟨⟨p, i⟩, hmem, hfs⟩ := List.mem_filterMap.mp hs
    refine List.mem_filterMap.mpr ⟨(p, i), hmem, ?_⟩
    dsimp only at hfs ⊢
    split at hfs
    · cases hfs
    · next hfar => rwa [if_neg (fun hle => hfar (Float.le_trans hle h))]

theorem candidates_subset (h : t₁ ≤ t₂) (q : Query) (toIndexes : List PushdownSuggestion) :
    ∀ s ∈ (⟨t₂, stats⟩ : PushdownAdvisor).candidates q toIndexes,
      s ∈ (⟨t₁, stats⟩ : PushdownAdvisor).candidates q toIndexes := by
  intro s hs
  simp only [candidates, List.mem_append] at hs ⊢
  rcases hs with ((hs | hs) | hs) | hs
  · exact .inl (.inl (.inl (reorder_subset h _ s hs)))
  · exact .inl (.inl (.inr hs))
  · exact .inl (.inr hs)
  · exact .inr hs

end PushdownAdvisor

/-- **The moves kept from fewer candidates are covered by those kept from more:** each stands at
a position where one of at least its priority is kept from more, and there are no more of
them. -/
theorem PlacementSpec.covers {preds : List Predicate} {c₁ c₂ m₁ m₂ : List PushdownSuggestion}
    (h₁ : PlacementSpec preds c₁ m₁) (h₂ : PlacementSpec preds c₂ m₂) (hsub : ∀ s ∈ c₂, s ∈ c₁) :
    (∀ s₂ ∈ m₂, ∃ s₁ ∈ m₁, s₁.fromPos = s₂.fromPos ∧ s₂.priority.rank ≤ s₁.priority.rank) ∧
      m₂.length ≤ m₁.length := by
  have hcover : ∀ s₂ ∈ m₂, ∃ s₁ ∈ m₁, s₁.fromPos = s₂.fromPos ∧ s₂.priority.rank ≤ s₁.priority.rank := by
    intro s₂ hs₂
    have hc₁ : s₂ ∈ c₁ := hsub s₂ (h₂.best s₂ hs₂).mem
    obtain ⟨s₁, hs₁, hpos⟩ :=
      List.mem_map.mp ((h₁.positions s₂.fromPos).mpr (List.mem_map_of_mem hc₁))
    exact ⟨s₁, hs₁, hpos, (h₁.best s₁ hs₁).rank_le hc₁ hpos.symm⟩
  refine ⟨hcover, ?_⟩
  have hnodup : (m₂.map (·.fromPos)).Nodup := h₂.increasing.imp (fun hlt => Nat.ne_of_lt hlt)
  have hsubset : m₂.map (·.fromPos) ⊆ m₁.map (·.fromPos) := by
    intro i hi
    obtain ⟨s₂, hs₂, rfl⟩ := List.mem_map.mp hi
    obtain ⟨s₁, hs₁, hpos, -⟩ := hcover s₂ hs₂
    exact List.mem_map.mpr ⟨s₁, hs₁, hpos⟩
  simpa using (List.Nodup.subperm hnodup hsubset).length_le

/-! ## Outcomes with fewer moves -/

/-- Two outcomes that fail alike, or succeed with no more in the second than in the first. -/
def Fewer {ε α : Type} (size : α → Nat) (x₁ x₂ : Except ε α) : Prop :=
  (∃ e, x₁ = .error e ∧ x₂ = .error e) ∨ ∃ v₁ v₂, x₁ = .ok v₁ ∧ x₂ = .ok v₂ ∧ size v₂ ≤ size v₁

namespace Fewer

variable {ε α β : Type} {size : α → Nat}

theorem refl (x : Except ε α) : Fewer size x x := by
  cases x with
  | error e => exact .inl ⟨e, rfl, rfl⟩
  | ok v => exact .inr ⟨v, v, rfl, rfl, Nat.le_refl _⟩

theorem bind_left (x : Except ε β) {f₁ f₂ : β → Except ε α} (h : ∀ b, Fewer size (f₁ b) (f₂ b)) :
    Fewer size (x >>= f₁) (x >>= f₂) := by
  cases x with
  | error e => exact .inl ⟨e, rfl, rfl⟩
  | ok b => exact h b

theorem bind (sizeβ : β → Nat) {y₁ y₂ : Except ε β} {f : β → Except ε α} (hy : Fewer sizeβ y₁ y₂)
    (hf : ∀ v₁ v₂, sizeβ v₂ ≤ sizeβ v₁ → Fewer size (f v₁) (f v₂)) : Fewer size (y₁ >>= f) (y₂ >>= f) := by
  rcases hy with ⟨e, rfl, rfl⟩ | ⟨v₁, v₂, rfl, rfl, hle⟩
  · exact .inl ⟨e, rfl, rfl⟩
  · exact hf v₁ v₂ hle

theorem map {γ : Type} {sizeγ : γ → Nat} {x₁ x₂ : Except ε α} (h : Fewer size x₁ x₂) {g₁ g₂ : α → γ}
    (hg : ∀ v₁ v₂, size v₂ ≤ size v₁ → sizeγ (g₂ v₂) ≤ sizeγ (g₁ v₁)) :
    Fewer sizeγ (x₁.map g₁) (x₂.map g₂) := by
  rcases h with ⟨e, rfl, rfl⟩ | ⟨v₁, v₂, rfl, rfl, hle⟩
  · exact .inl ⟨e, rfl, rfl⟩
  · exact .inr ⟨g₁ v₁, g₂ v₂, rfl, rfl, hg v₁ v₂ hle⟩

end Fewer

theorem applyPolicy_fewer {α : Type} {k : AdvisorKind} {pol : FailurePolicy} {o₁ o₂ : Except AdviceError (List α)}
    (h : Fewer List.length o₁ o₂) : Fewer (·.1.length) (applyPolicy k pol o₁) (applyPolicy k pol o₂) := by
  rcases h with ⟨e, rfl, rfl⟩ | ⟨v₁, v₂, rfl, rfl, hle⟩
  · exact Fewer.refl _
  · exact .inr ⟨(v₁, []), (v₂, []), rfl, rfl, hle⟩

/-! ## The advisor and the analysis -/

namespace PushdownAdvisor

variable (stats : TableStatistics) {t₁ t₂ : Float}

/-- Under a lower threshold the advisor fails alike, or keeps a move at every position it
keeps one under the higher threshold, of at least the same priority, and no fewer moves. -/
theorem analyze_threshold (h : t₁ ≤ t₂) (q : Query) :
    let a₁ : PushdownAdvisor := ⟨t₁, stats⟩
    let a₂ : PushdownAdvisor := ⟨t₂, stats⟩
    (∃ e, a₁.analyze q = .error e ∧ a₂.analyze q = .error e) ∨
      ∃ m₁ m₂, a₁.analyze q = .ok m₁ ∧ a₂.analyze q = .ok m₂ ∧
        (∀ s₂ ∈ m₂, ∃ s₁ ∈ m₁, s₁.fromPos = s₂.fromPos ∧ s₂.priority.rank ≤ s₁.priority.rank) ∧
        m₂.length ≤ m₁.length := by
  intro a₁ a₂
  cases hq : isBlankText q.table
  · rw [a₁.analyze_eq q hq, a₂.analyze_eq q hq]
    have hcols : a₂.indexedColumns q = a₁.indexedColumns q := rfl
    rw [hcols]
    cases hf : forIndexes q.predicates (a₁.indexedColumns q) with
    | error e => exact .inl ⟨e, rfl, rfl⟩
    | ok toIndexes =>
      have hwithin := forIndexes_movesWithin q.predicates (a₁.indexedColumns q) toIndexes hf
      exact .inr ⟨_, _, rfl, rfl, PlacementSpec.covers (placementSpec_keepBest (a₁.candidates_movesWithin q hwithin))
        (placementSpec_keepBest (a₂.candidates_movesWithin q hwithin)) (candidates_subset h q toIndexes)⟩
  · exact .inl ⟨.invalidArgument "query model has no base table", by simp [analyze, hq], by simp [analyze, hq]⟩

end PushdownAdvisor

/-- Without a budget, the parts an analysis gathers under a lower reordering threshold fail
alike, or hold no fewer moves. -/
theorem advisorParts_threshold {t₁ t₂ : Float} (h : t₁ ≤ t₂) (c : Config) (stats : TableStatistics) (q : Query) :
    Fewer (·.moves.length) (advisorParts { c with predicateReorderingThreshold := t₁ } stats q)
      (advisorParts { c with predicateReorderingThreshold := t₂ } stats q) := by
  have hmoves : Fewer List.length ((PushdownAdvisor.ofConfig { c with predicateReorderingThreshold := t₁ } stats).analyze q)
      ((PushdownAdvisor.ofConfig { c with predicateReorderingThreshold := t₂ } stats).analyze q) := by
    rcases PushdownAdvisor.analyze_threshold stats h q with ⟨e, h₁, h₂⟩ | ⟨m₁, m₂, h₁, h₂, -, hle⟩
    · exact .inl ⟨e, h₁, h₂⟩
    · exact .inr ⟨m₁, m₂, h₁, h₂, hle⟩
  rw [advisorParts_eq_bind, advisorParts_eq_bind]
  refine Fewer.bind_left _ (fun idx => ?_)
  refine Fewer.bind (·.1.length) ?_ (fun v₁ v₂ hle => ?_)
  · dsimp only
    split
    · exact applyPolicy_fewer hmoves
    · exact Fewer.refl _
  · refine Fewer.bind_left _ (fun orders => .inr ⟨_, _, rfl, rfl, ?_⟩)
    exact hle

/-- **A lower reordering threshold keeps every move.** Whatever the statistics and the query, under
thresholds `t₁ ≤ t₂` the placement advisor fails alike under both, or keeps a move under `t₁`
at every position where it keeps one under `t₂`, of at least the same priority, and so no fewer
moves. An analysis without a budget, whatever its clocks, likewise fails alike under both
thresholds or reports no fewer moves under `t₁`. -/
theorem lower_threshold_keeps_moves (stats : TableStatistics) (q : Query) {t₁ t₂ : Float} (h : t₁ ≤ t₂) :
    (let a₁ : PushdownAdvisor := ⟨t₁, stats⟩
      let a₂ : PushdownAdvisor := ⟨t₂, stats⟩
      (∃ e, a₁.analyze q = .error e ∧ a₂.analyze q = .error e) ∨
        ∃ m₁ m₂, a₁.analyze q = .ok m₁ ∧ a₂.analyze q = .ok m₂ ∧
          (∀ s₂ ∈ m₂, ∃ s₁ ∈ m₁, s₁.fromPos = s₂.fromPos ∧ s₂.priority.rank ≤ s₁.priority.rank) ∧
          m₂.length ≤ m₁.length) ∧
      ∀ (c : Config) (clock₁ clock₂ : Checkpoint → Nat), c.maxAnalysisTimeMs ≤ 0 →
        let r₁ := analyzeWith clock₁ { c with predicateReorderingThreshold := t₁ } stats q
        let r₂ := analyzeWith clock₂ { c with predicateReorderingThreshold := t₂ } stats q
        (∃ e, r₁ = .error e ∧ r₂ = .error e) ∨
          ∃ v₁ v₂, r₁ = .ok v₁ ∧ r₂ = .ok v₂ ∧ v₂.moves.length ≤ v₁.moves.length := by
  refine ⟨PushdownAdvisor.analyze_threshold stats h q, fun c clock₁ clock₂ hbudget => ?_⟩
  dsimp only
  cases hq : isBlankText q.table
  · rw [analyzeWith_eq_map clock₁ _ stats q hq, analyzeWith_eq_map clock₂ _ stats q hq,
      foldlM_phases (Config.budgetMs_eq_none (c := { c with predicateReorderingThreshold := t₁ }) hbudget),
      foldlM_phases (Config.budgetMs_eq_none (c := { c with predicateReorderingThreshold := t₂ }) hbudget)]
    exact (advisorParts_threshold h c stats q).map (fun _ _ hle => hle)
  · exact .inl ⟨.invalidArgument "query model has no base table", by simp [analyzeWith, hq],
      by simp [analyzeWith, hq]⟩

theorem lower_threshold_keeps_moves_on_orders :
    let q : Query :=
      { table := "orders"
        predicates := [.comparison "status" .notEq (.string "open"), .comparison "id" .eq (.int 7)] }
    let t₁ : Float := 0.1
    let t₂ : Float := 0.6
    t₁ ≤ t₂ ∧
      (let a₁ : PushdownAdvisor := ⟨t₁, {}⟩
        let a₂ : PushdownAdvisor := ⟨t₂, {}⟩
        (∃ e, a₁.analyze q = .error e ∧ a₂.analyze q = .error e) ∨
          ∃ m₁ m₂, a₁.analyze q = .ok m₁ ∧ a₂.analyze q = .ok m₂ ∧
            (∀ s₂ ∈ m₂, ∃ s₁ ∈ m₁, s₁.fromPos = s₂.fromPos ∧ s₂.priority.rank ≤ s₁.priority.rank) ∧
            m₂.length ≤ m₁.length) ∧
        ∀ (c : Config) (clock₁ clock₂ : Checkpoint → Nat), c.maxAnalysisTimeMs ≤ 0 →
          let r₁ := analyzeWith clock₁ { c with predicateReorderingThreshold := t₁ } {} q
          let r₂ := analyzeWith clock₂ { c with predicateReorderingThreshold := t₂ } {} q
          (∃ e, r₁ = .error e ∧ r₂ = .error e) ∨
            ∃ v₁ v₂, r₁ = .ok v₁ ∧ r₂ = .ok v₂ ∧ v₂.moves.length ≤ v₁.moves.length :=
  ⟨by decide, lower_threshold_keeps_moves {} _ (by decide)⟩

end QueryAdvisor
