import QueryAdvisor.Analysis
/-!
# Greedy join orders reorder the tables

The greedy order starts at the smallest step and then, while steps remain, picks one of the
remaining steps and joins it. A pick keeps the best candidate so far or takes the one at hand,
and a step that the pick may not skip is always taken, so while steps remain one of them is
joined. Hence a greedy order holds each step once: it is a permutation of the steps.

* `foldl_pick_mem`, `foldl_pick_ne_none`: what a pick over candidates returns.
* `CostModel.greedyFrom_perm`, `CostModel.greedy_perm`: **a greedy order is a permutation of
  the steps.**
-/

namespace QueryAdvisor

/-! ## Picking a candidate -/

section Pick

variable {γ β : Type} {f : Option (Nat × β) → Nat × γ → Option (Nat × β)}

/-- A pick that keeps the best so far or takes the candidate at hand returns a candidate of the
list, or what it started with. -/
theorem foldl_pick_mem (hf : ∀ best cf, f best cf = best ∨ ∃ x, f best cf = some (cf.1, x)) :
    ∀ (l : List (Nat × γ)) (init : Option (Nat × β)) (c : Nat) (x : β), l.foldl f init = some (c, x) →
      (∃ y, init = some (c, y)) ∨ ∃ cf ∈ l, cf.1 = c
  | [], init, c, x, h => .inl ⟨x, h⟩
  | cf :: l, init, c, x, h => by
    rw [List.foldl_cons] at h
    rcases foldl_pick_mem hf l (f init cf) c x h with ⟨y, hy⟩ | ⟨cf', hmem, hc⟩
    · rcases hf init cf with heq | ⟨x', heq⟩
      · exact .inl ⟨y, heq ▸ hy⟩
      · rw [heq] at hy
        cases hy
        exact .inr ⟨cf, List.mem_cons_self, rfl⟩
    · exact .inr ⟨cf', List.mem_cons_of_mem _ hmem, hc⟩

/-- A pick that never drops what it holds, over a list with a candidate it always takes,
returns something. -/
theorem foldl_pick_ne_none (hkeep : ∀ best cf, best.isSome → (f best cf).isSome) :
    ∀ (l : List (Nat × γ)) (init : Option (Nat × β)),
      (init.isSome ∨ ∃ cf ∈ l, ∀ best, (f best cf).isSome) → l.foldl f init ≠ none
  | [], init, h => by simpa [Option.ne_none_iff_isSome] using h
  | cf :: l, init, h => by
    rw [List.foldl_cons]
    apply foldl_pick_ne_none hkeep l
    rcases h with h | ⟨cf', hmem, hcf'⟩
    · exact .inl (hkeep init cf h)
    · rcases List.mem_cons.mp hmem with rfl | hmem
      · exact .inl (hcf' init)
      · exact .inr ⟨cf', hmem, hcf'⟩

end Pick

/-- Some candidate of a nonempty list is never skipped: a connected one if any is connected,
otherwise any. -/
theorem exists_unskipped {α β : Type} (l : List (α × Option β)) (hl : l ≠ []) :
    ∃ cf ∈ l, ¬((l.any fun x => x.snd.isSome) && cf.snd.isNone) = true := by
  cases hany : l.any fun x => x.snd.isSome
  · obtain ⟨cf, hmem⟩ := List.exists_mem_of_ne_nil l hl
    exact ⟨cf, hmem, by simp⟩
  · obtain ⟨cf, hmem, hsome⟩ := List.any_eq_true.mp hany
    obtain ⟨v, hv⟩ := Option.isSome_iff_exists.mp hsome
    exact ⟨cf, hmem, by simp [hv]⟩

/-! ## Greedy orders -/

namespace CostModel

variable (m : CostModel) (useIndexes : Bool)

/-- **Each greedy step joins one of the remaining steps**, so with fuel for all of them the
order grows into a reordering of the order so far and the remaining steps. -/
theorem greedyFrom_perm : ∀ (fuel : Nat) (remaining order : List Nat) (card : Float),
    remaining.length ≤ fuel → (m.greedyFrom useIndexes fuel remaining order card).Perm (order ++ remaining)
  | 0, remaining, order, card, h => by
    obtain rfl : remaining = [] := List.eq_nil_of_length_eq_zero (by omega)
    simp only [greedyFrom, List.append_nil]
    exact .refl _
  | fuel + 1, remaining, order, card, h => by
    simp only [greedyFrom]
    split
    · next hempty =>
      rw [List.isEmpty_iff.mp hempty, List.append_nil]
    · next hne =>
      split
      · next heq =>
        refine absurd heq (foldl_pick_ne_none ?_ _ _ ?_)
        · intro best cf hbest
          split
          · exact hbest
          · split
            · rfl
            · split <;> rfl
        · obtain ⟨cf, hmem, hkept⟩ :=
            exists_unskipped (remaining.map fun c => (c, m.joinFactor order c useIndexes)) (by simpa using hne)
          refine .inr ⟨cf, hmem, fun best => ?_⟩
          rw [if_neg hkept]
          split
          · rfl
          · split <;> rfl
      · next c next heq =>
        have hpick := foldl_pick_mem ?_ _ _ _ _ heq
        · obtain ⟨-, ⟨⟩⟩ | ⟨cf, hmem, rfl⟩ := hpick
          obtain ⟨c', hc', rfl⟩ := List.mem_map.mp hmem
          have ih := greedyFrom_perm fuel (remaining.erase c') (order ++ [c']) next
            (by rw [List.length_erase_of_mem hc']; omega)
          refine ih.trans ?_
          rw [List.append_assoc, List.singleton_append]
          exact ((List.perm_cons_erase hc').append_left order).symm
        · intro best cf
          split
          · exact .inl rfl
          · split
            · exact .inr ⟨_, rfl⟩
            · split
              · exact .inr ⟨_, rfl⟩
              · exact .inl rfl

theorem foldl_smallest_lt {n : Nat} : ∀ (l : List Nat) (best : Nat), best < n → (∀ i ∈ l, i < n) →
    l.foldl (fun best i => if m.rowsOf i < m.rowsOf best then i else best) best < n
  | [], _, h, _ => h
  | i :: l, best, h, hl => by
    rw [List.foldl_cons]
    refine foldl_smallest_lt l _ ?_ (fun j hj => hl j (List.mem_cons_of_mem _ hj))
    split
    · exact hl i List.mem_cons_self
    · exact h

theorem smallest_lt (h : 0 < m.rows.size) : m.smallest < m.rows.size :=
  m.foldl_smallest_lt _ _ h (fun _ => List.mem_range.mp)

/-- **A greedy order is a permutation of the steps.** -/
theorem greedy_perm (h : 0 < m.rows.size) : (m.greedy useIndexes).Perm (List.range m.rows.size) := by
  have hstart := List.mem_range.mpr (m.smallest_lt h)
  simp only [greedy]
  refine (m.greedyFrom_perm useIndexes _ _ _ _ (Nat.le_refl _)).trans ?_
  rw [List.singleton_append, ← List.nodup_range.erase_eq_filter]
  exact (List.perm_cons_erase hstart).symm

end CostModel

/-! ## The join order suggested -/

theorem addJoinSteps_tables : ∀ (js : List Join) (steps : List JoinStep) (edges : List JoinEdge)
    {steps' : List JoinStep} {edges' : List JoinEdge}, addJoinSteps steps edges js = .ok (steps', edges') →
      steps'.map (·.table) = steps.map (·.table) ++ js.map (·.table)
  | [], steps, edges, steps', edges', h => by
    simp only [addJoinSteps, Except.ok.injEq, Prod.mk.injEq] at h
    obtain ⟨rfl, -⟩ := h
    simp
  | j :: rest, steps, edges, steps', edges', h => by
    have hnext : ∀ edges'', addJoinSteps (steps ++ [⟨j.table, j.aliasName⟩]) edges'' rest = .ok (steps', edges') →
        steps'.map (·.table) = steps.map (·.table) ++ (j :: rest).map (·.table) := by
      intro edges'' h'
      rw [addJoinSteps_tables rest _ _ h']
      simp
    simp only [addJoinSteps] at h
    split at h
    · cases h
    · split at h
      · exact hnext _ h
      · split at h
        · cases h
        · exact hnext _ h

theorem joinSteps_tables {q : Query} {steps : List JoinStep} {edges : List JoinEdge}
    (h : joinSteps q = .ok (steps, edges)) : steps.map (·.table) = q.joinSequence := by
  rw [addJoinSteps_tables q.joins _ _ h]
  rfl

theorem range_map_tableOf (steps : List JoinStep) :
    (List.range steps.length).map (CostModel.tableOf steps) = steps.map (·.table) :=
  List.ext_getElem (by simp) (fun i _ hi => by
    rw [List.length_map] at hi
    simp [CostModel.tableOf, List.getElem?_eq_getElem hi])

theorem greedy_steps_perm {q : Query} {steps : List JoinStep} {edges : List JoinEdge}
    (h : joinSteps q = .ok (steps, edges)) (stats : TableStatistics) (useIndexes : Bool) :
    ((CostModel.collect steps edges stats).greedy useIndexes).Perm (List.range steps.length) := by
  have hsize : (CostModel.collect steps edges stats).rows.size = steps.length := by
    simp [CostModel.collect]
  have hpos : 0 < steps.length := by
    have hlen := congrArg List.length (joinSteps_tables h)
    simp only [List.length_map, Query.joinSequence, List.length_cons] at hlen
    omega
  have hperm := (CostModel.collect steps edges stats).greedy_perm useIndexes (by rw [hsize]; exact hpos)
  rwa [hsize] at hperm

/-- **A greedy order over the steps of a query's joins, read as tables, reorders the query's
join sequence.** -/
theorem greedy_tables_perm {q : Query} {steps : List JoinStep} {edges : List JoinEdge}
    (h : joinSteps q = .ok (steps, edges)) (stats : TableStatistics) (useIndexes : Bool) :
    (((CostModel.collect steps edges stats).greedy useIndexes).map (CostModel.tableOf steps)).Perm
      q.joinSequence := by
  refine ((greedy_steps_perm h stats useIndexes).map _).trans ?_
  rw [range_map_tableOf, joinSteps_tables h]

namespace JoinOrderAdvisor

variable {a : JoinOrderAdvisor}

theorem consider_eq_some {original : List Nat} {chosen : Option JoinCandidate} {c k : JoinCandidate}
    (h : a.consider original chosen c = some k) : chosen = some k ∨ k = c := by
  unfold consider at h
  split at h
  · exact .inl h
  · split at h
    · cases h
      exact .inr rfl
    · split at h
      · cases h
        exact .inr rfl
      · exact .inl h

theorem chosen_greedy {m : CostModel} {original : List Nat} {c : JoinCandidate}
    (h : a.choose m original = some c) : ∃ useIndexes, c.order = m.greedy useIndexes := by
  have hfirst : ∀ k, a.consider original none (candidate m original .selectivityBased false) = some k →
      k.order = m.greedy false := by
    intro k hk
    rcases consider_eq_some hk with hnone | rfl
    · cases hnone
    · rfl
  unfold choose at h
  split at h
  · rcases consider_eq_some h with hkept | rfl
    · exact ⟨false, hfirst c hkept⟩
    · exact ⟨true, rfl⟩
  · exact ⟨false, hfirst c h⟩

/-- **The join order advisor fails only on a query without a base table or with joins it cannot
read.** The order it suggests always reorders the query's tables, so its suggestion is always
made. -/
theorem analyze_eq_error {q : Query} {e : AdviceError} (h : a.analyze q = .error e) :
    (isBlankText q.table = true ∧ e = .invalidArgument "query model has no base table") ∨
      joinSteps q = .error e := by
  simp only [JoinOrderAdvisor.analyze] at h
  split at h
  · exact .inl ⟨‹_›, by cases h; rfl⟩
  · split at h
    · cases h
    · cases hj : joinSteps q with
      | error e' =>
        rw [hj] at h
        cases h
        exact .inr rfl
      | ok se =>
        obtain ⟨steps, edges⟩ := se
        rw [hj] at h
        simp only [bind, Except.bind] at h
        split at h
        · cases h
        · split at h
          · cases h
          · next c hc =>
            obtain ⟨useIndexes, horder⟩ := chosen_greedy hc
            have hperm : q.joinSequence.isPerm (c.order.map (CostModel.tableOf steps)) = true := by
              rw [List.isPerm_iff, horder]
              exact (greedy_tables_perm hj a.stats useIndexes).symm
            simp only [JoinOrderSuggestion.make, hperm, ↓reduceIte] at h
            cases h

end JoinOrderAdvisor

end QueryAdvisor
