import QueryAdvisor.Proofs.IndexShape
/-!
# Merging index suggestions

The index advisor merges its suggestions by target, the table and columns of the index: of the
suggestions for one target the first stays in place, replaced by a later one of strictly higher
priority (`IndexAdvisor.merge`, a fold of `keepBestBy`). So the merge keeps one suggestion per
target, at the place where the target first occurs, and that suggestion is the first of the
highest priority among those for the target (`Proofs/KeepBest`).

The key of a join gets an index of high priority, the highest there is. A filter on the same
column of the joined table may have suggested a lower one before it; the merge then keeps the
join's. So every join that names a table and a key column leaves a high priority index on that
column in the advice.

* `IndexSuggestion.make_error`: the constructor of a suggestion fails only on a fault that no
  policy steps over.
* `forJoinKeys_keyIndex`, `joinStep_keyIndexed`: a join that names a table and a key column
  adds a high priority index on the key, or fails the analysis.
* `foldlM_joinStep_keysIndexed`: after the joins, every such join has its index.
* `merge_keeps_high`: the merge keeps a high priority suggestion for every target that has one.
* `merge_keeps_first_best_target`: **the merge keeps the first suggestion of the highest
  priority of each target, in the order of first occurrence, and the advice for a query keeps a
  high priority index on the key column of every join that names a table and a key column.**
-/

namespace QueryAdvisor

/-- A join that names a table and a key column. -/
def Join.HasKey (j : Join) : Prop := isBlankText j.table = false ∧ unqualified j.rightField ≠ ""

/-- A high priority index on the key column of `j`, on the joined table. -/
def IndexSuggestion.IndexesKey (j : Join) (s : IndexSuggestion) : Prop :=
  s.table = j.table ∧ s.columns = [unqualified j.rightField] ∧ s.priority = .high

theorem Priority.eq_high_of_rank {p : Priority} (h : Priority.high.rank ≤ p.rank) : p = .high := by
  cases p with
  | high => rfl
  | low | medium => simp [Priority.rank] at h

theorem IndexSuggestion.make_error {table : String} {columns : List String} {kind : IndexKind} {selectivity : Float}
    {e : AdviceError} (h : IndexSuggestion.make table columns kind selectivity = .error e) :
    e.isRecoverable = false := by
  unfold IndexSuggestion.make at h
  split at h
  · cases h
    rfl
  · split at h
    · cases h
      rfl
    · cases h

namespace IndexAdvisor

variable (a : IndexAdvisor) (q : Query)

/-! ## The index of a join key -/

/-- The key of a join that names a table and a key column gets a high priority index on the
joined table, unless the constructor refuses it. -/
theorem forJoinKeys_keyIndex {field table : String} (ht : isBlankText table = false) (hc : unqualified field ≠ "") :
    (∃ s, forJoinKeys [field] table = .ok [s] ∧ s.table = table ∧ s.columns = [unqualified field] ∧
        s.priority = .high) ∨
      ∃ e, forJoinKeys [field] table = .error e ∧ e.isRecoverable = false := by
  have hne : (unqualified field).isEmpty = false := by simpa [String.isEmpty_iff] using hc
  have hreq : requireTable table = .ok () := by simp [requireTable, ht]
  unfold forJoinKeys
  rw [hreq, List.mapM_cons, List.mapM_nil]
  simp only [hne]
  cases hm : IndexSuggestion.make table [unqualified field] .btree 0.3 with
  | error e => exact .inr ⟨e, rfl, IndexSuggestion.make_error hm⟩
  | ok s =>
    obtain ⟨htable, hcols, -⟩ := IndexSuggestion.make_okOnly _ _ _ _ s hm
    exact .inl ⟨_, rfl, htable, hcols, rfl⟩

variable {a}

theorem absorb_of_not_recoverable (run : Run) {e : AdviceError} (h : e.isRecoverable = false) :
    a.absorb run e = .error e := by
  simp [absorb, h]

theorem absorb_suggestions (run : Run) (e : AdviceError) :
    OkOnly (fun r : Run => r.suggestions = run.suggestions) (a.absorb run e) := by
  unfold absorb
  split
  · exact OkOnly.ok rfl
  · exact OkOnly.error _

theorem Run.suggestions_ite_usage (r : Run) (b : Bool) (u : List (String × Nat)) :
    (if b = true then { r with usage := u } else r).suggestions = r.suggestions := by
  cases b <;> rfl

theorem joinStep_grows (run : Run) (j : Join) :
    OkOnly (fun r : Run => run.suggestions <+: r.suggestions) (a.joinStep q run j) := by
  unfold joinStep
  split
  · refine (absorb_suggestions run _).mono (fun r hr => ?_)
    exact hr ▸ List.prefix_refl _
  · dsimp only
    split
    · refine OkOnly.bind (Q := fun r : Run => run.suggestions <+: r.suggestions) (OkOnly.ok ?_)
        (fun r hr => OkOnly.ok ?_)
      · exact List.prefix_append _ _
      · rwa [Run.suggestions_ite_usage]
    · refine (absorb_suggestions run _).bind (fun r hr => OkOnly.ok ?_)
      rw [Run.suggestions_ite_usage]
      exact hr ▸ List.prefix_refl _

/-- **A join that names a table and a key column leaves a high priority index on its key.** -/
theorem joinStep_keyIndexed (run : Run) {j : Join} (hj : j.HasKey) :
    OkOnly (fun r : Run => ∃ s ∈ r.suggestions, s.IndexesKey j) (a.joinStep q run j) := by
  unfold joinStep
  rw [if_neg (by simp [hj.1])]
  dsimp only
  rcases forJoinKeys_keyIndex hj.1 hj.2 with ⟨s, hok, htable, hcols, hhigh⟩ | ⟨e, herr, hrec⟩
  · rw [hok]
    dsimp only
    refine OkOnly.bind (Q := fun r : Run => s ∈ r.suggestions) (OkOnly.ok ?_) (fun r hs => OkOnly.ok ?_)
    · exact List.mem_append_right _ List.mem_cons_self
    · rw [Run.suggestions_ite_usage]
      exact ⟨s, hs, htable, hcols, hhigh⟩
  · rw [herr]
    dsimp only
    rw [absorb_of_not_recoverable run hrec]
    exact OkOnly.error _

/-- After the joins `js`, every join among them that names a table and a key column has a high
priority index on its key, and the suggestions from before are still there. -/
theorem foldlM_joinStep_keysIndexed :
    ∀ (js : List Join) {run r : Run}, js.foldlM (a.joinStep q) run = .ok r →
      run.suggestions <+: r.suggestions ∧ ∀ j ∈ js, j.HasKey → ∃ s ∈ r.suggestions, s.IndexesKey j
  | [], run, r, h => by
    cases h
    exact ⟨List.prefix_refl _, fun _ h => absurd h List.not_mem_nil⟩
  | j :: js, run, r, h => by
    rw [List.foldlM_cons] at h
    obtain ⟨run', h₁, h₂⟩ := Except.bind_eq_ok.mp h
    obtain ⟨hpre, hrest⟩ := foldlM_joinStep_keysIndexed js h₂
    refine ⟨(joinStep_grows q run j run' h₁).trans hpre, fun j' hj' hkey => ?_⟩
    rcases List.mem_cons.mp hj' with rfl | hj'
    · obtain ⟨s, hs, hidx⟩ := joinStep_keyIndexed q run hkey run' h₁
      exact ⟨s, hpre.subset hs, hidx⟩
    · exact hrest j' hj' hkey

/-! ## The merge -/

/-- **The merge keeps a high priority suggestion for every target that has one.** -/
theorem merge_keeps_high {l : List IndexSuggestion} {s : IndexSuggestion} (hs : s ∈ l) (hhigh : s.priority = .high) :
    ∃ s' ∈ l.foldl merge [], s'.table = s.table ∧ s'.columns = s.columns ∧ s'.priority = .high := by
  have hkeep := keepsBest_foldl (fun s : IndexSuggestion => (s.table, s.columns)) (·.priority.rank) l
  obtain ⟨s', hs', hkey⟩ := List.mem_map.mp ((hkeep.keys _).mpr (List.mem_map_of_mem hs))
  have hrank : s.priority.rank ≤ s'.priority.rank := (hkeep.best s' hs').rank_le hs hkey.symm
  rw [hhigh] at hrank
  obtain ⟨htable, hcols⟩ := Prod.mk.inj hkey
  exact ⟨s', hs', htable, hcols, Priority.eq_high_of_rank hrank⟩

/-- The advice for a query keeps a high priority index on the key column of every join that
names a table and a key column. -/
theorem analyze_keysIndexed {adv : IndexAdvice} (h : a.analyze q = .ok adv) :
    ∀ j ∈ q.joins, j.HasKey → ∃ s ∈ adv.suggestions, s.IndexesKey j := by
  unfold analyze at h
  split at h
  · cases h
  · obtain ⟨run₁, -, h⟩ := Except.bind_eq_ok.mp h
    obtain ⟨run₂, h₂, h⟩ := Except.bind_eq_ok.mp h
    obtain ⟨-, hkeys⟩ := foldlM_joinStep_keysIndexed q q.joins h₂
    have hlast : ∃ run₄ : Run, run₂.suggestions <+: run₄.suggestions ∧
        adv.suggestions = run₄.suggestions.foldl merge [] := by
      dsimp only at h
      split at h
      · obtain ⟨run₄, h₄, h⟩ := Except.bind_eq_ok.mp h
        cases h₄
        cases h
        exact ⟨_, List.prefix_append _ _, rfl⟩
      · obtain ⟨run₄, h₄, h⟩ := Except.bind_eq_ok.mp h
        cases h
        exact ⟨run₄, absorb_suggestions _ _ run₄ h₄ ▸ List.prefix_refl _, rfl⟩
    obtain ⟨run₄, hpre, hadv⟩ := hlast
    intro j hj hkey
    obtain ⟨s, hs, htable, hcols, hhigh⟩ := hkeys j hj hkey
    obtain ⟨s', hs', htable', hcols', hhigh'⟩ := merge_keeps_high (hpre.subset hs) hhigh
    exact ⟨s', hadv ▸ hs', htable'.trans htable, hcols'.trans hcols, hhigh'⟩

end IndexAdvisor

/-- **Merging index suggestions keeps the best of each target.** For every list of suggestions,
the merge keeps one suggestion per table and columns that occur in the list, listed in the order
of their first occurrence, and the suggestion kept for a target is the first of the highest
priority among those for that target. So the index advice for a query holds, for every join that
names a table and a key column, a high priority index on that column of the joined table, even
when a filter suggested a lower one on the same column before. -/
theorem merge_keeps_first_best_target :
    (∀ l : List IndexSuggestion,
      KeepsBest (fun s : IndexSuggestion => (s.table, s.columns)) (·.priority.rank) l
          (l.foldl IndexAdvisor.merge []) ∧
        (l.foldl IndexAdvisor.merge []).map (fun s => (s.table, s.columns)) =
          (l.map (fun s => (s.table, s.columns))).eraseDups) ∧
      ∀ (a : IndexAdvisor) (q : Query) (adv : IndexAdvice), a.analyze q = .ok adv →
        ∀ j ∈ q.joins, isBlankText j.table = false → unqualified j.rightField ≠ "" →
          ∃ s ∈ adv.suggestions, s.table = j.table ∧ s.columns = [unqualified j.rightField] ∧
            s.priority = .high :=
  ⟨fun l => ⟨keepsBest_foldl _ _ l, foldl_keepBestBy_keys_eraseDups _ _ l⟩,
    fun _ q _ h j hj ht hc => IndexAdvisor.analyze_keysIndexed q h j hj ⟨ht, hc⟩⟩

/-- A filter on the key column of the joined table suggests a low priority index first; the
advice still has the join's high priority index there. -/
theorem merge_keeps_first_best_target_on_orders :
    let a := IndexAdvisor.ofConfig {}
    let j : Join := ⟨"orders", none, .inner, "users.id", "orders.user_id"⟩
    let q : Query := { table := "users", predicates := [.comparison "orders.user_id" .notEq (.int 5)], joins := [j] }
    ∃ adv, a.analyze q = .ok adv ∧ isBlankText j.table = false ∧ unqualified j.rightField ≠ "" ∧
      ∃ s ∈ adv.suggestions, s.table = j.table ∧ s.columns = [unqualified j.rightField] ∧ s.priority = .high := by
  intro a j q
  obtain ⟨adv, h⟩ := Except.exists_ok_of_isOk (x := a.analyze q) (by decide +kernel)
  have ht : isBlankText j.table = false := by decide
  have hc : unqualified j.rightField ≠ "" := by decide
  exact ⟨adv, h, ht, hc, merge_keeps_first_best_target.2 a q adv h j List.mem_cons_self ht hc⟩

end QueryAdvisor
