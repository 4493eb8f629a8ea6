import QueryAdvisor.Proofs.CompositeIndex
import QueryAdvisor.Proofs.Composition
import QueryAdvisor.Proofs.FloatSign
import QueryAdvisor.Proofs.MoveSources
/-!
# Which advice survives a text cache

Advice is cached as text, and the text has no form for a float that is not finite: such a float
is written as null, and null reads back as no float. A cache of that kind (`ResultCache`) gives
back exactly the advice whose floats are all finite (`Advice.floatsFinite`).

Every float an analysis computes is finite except, possibly, the estimated improvement of a join
order, which is a float clamped to the unit interval and so finite unless it is NaN. The
selectivity of a predicate is a constant or a count of values over a hundred, which is never
negative (`Predicate.selectivity_isFinite`). The index advisor clamps such a selectivity, three
tenths or a power of three tenths; the placement advisor carries the predicate and its
selectivity over unchanged.

* `IndexAdvisor.analyze_all`: a property of every suggestion the three index producers make
  holds of every suggestion the index advisor returns.
* `Parts.FiniteEstimates`, `Phase.run_finiteEstimates`: the phases of an analysis keep the
  selectivities finite, the carried predicates as finite as the query's and each improvement a
  clamp.
* `floatsFinite_iff_of_analyzeWith`: the floats of an analysis of a query without non-finite
  floats are finite exactly when no improvement is NaN.
* `advice_survives_cache_iff`: **such advice comes back from the cache exactly when no join
  order's estimated improvement is NaN.**
-/

namespace QueryAdvisor

/-! ## Floats that are finite -/

mutual
/-- Whether every float inside a value is finite. -/
def Value.floatsFinite : Value → Bool
  | .float x => x.isFinite
  | .array items => Value.floatsFiniteOf items
  | _ => true
/-- Whether every float inside the values of a list is finite. -/
def Value.floatsFiniteOf : List Value → Bool
  | [] => true
  | v :: rest => v.floatsFinite && Value.floatsFiniteOf rest
end

mutual
/-- Whether every float inside a predicate is finite. -/
def Predicate.floatsFinite : Predicate → Bool
  | .comparison _ _ v => v.floatsFinite
  | .inList _ values _ => Value.floatsFiniteOf values
  | .between _ low high => low.floatsFinite && high.floatsFinite
  | .logical _ children => Predicate.floatsFiniteOf children
  | _ => true
/-- Whether every float inside the predicates of a list is finite. -/
def Predicate.floatsFiniteOf : List Predicate → Bool
  | [] => true
  | p :: rest => p.floatsFinite && Predicate.floatsFiniteOf rest
end

/-- Whether every float of a query is finite: its floats are those of its predicates. -/
def Query.floatsFinite (q : Query) : Bool := q.predicates.all Predicate.floatsFinite

/-- Whether every float of the advice is finite: the selectivity of each index and placement
suggestion, the floats of the predicate each placement suggestion carries, and the improvement
of each join order. -/
def Advice.floatsFinite (a : Advice) : Bool :=
  a.indexes.all (·.selectivity.isFinite) &&
    a.moves.all (fun s => s.selectivity.isFinite && s.predicate.floatsFinite) &&
    a.joinOrders.all (·.improvement.isFinite)

/-- A store that keeps advice as text in which a float that is not finite has no form: it gives
back the advice whose floats are all finite, and nothing for any other. -/
structure ResultCache (σ : Type) where
  write : Advice → σ
  read : σ → Option Advice
  read_write : ∀ a, a.floatsFinite = true → read (write a) = some a
  read_write_nonfinite : ∀ a, a.floatsFinite = false → read (write a) = none

/-! ## Clamps and selectivities -/

theorem isFinite_clampUnit (x : Float) : (clampUnit x).isFinite = !x.isNaN := by
  by_cases h0 : x < 0
  · rw [clampUnit_of_lt h0, (Float.isNaN_of_lt h0).1]
    rfl
  · by_cases h1 : x > 1
    · rw [clampUnit_of_gt h0 h1, (Float.isNaN_of_lt h1).2]
      rfl
    · rw [clampUnit_of_unit h0 h1]
      exact Float.isFinite_of_unit h0 h1

/-- A clamp is finite exactly when it is a number. -/
theorem isFinite_clampUnit_eq (x : Float) : (clampUnit x).isFinite = !(clampUnit x).isNaN := by
  have h := isFinite_clampUnit (clampUnit x)
  rwa [clampUnit_clampUnit] at h

/-- **The selectivity of a predicate is finite.** -/
theorem Predicate.selectivity_isFinite (p : Predicate) : p.selectivity.isFinite = true := by
  cases p with
  | comparison _ op _ => cases op <;> simp only [Predicate.selectivity] <;> decide
  | inList _ values negated =>
    simp only [Predicate.selectivity]
    split
    · decide
    · split
      · next hlt => exact Float.isFinite_of_lt hlt (Float.negSigned_natCast_div _ (by decide))
      · decide
  | like _ pattern negated =>
    simp only [Predicate.selectivity, patternSelectivity]
    split
    · decide
    · split
      · decide
      · split <;> decide
  | between | nullCheck | logical | subquery | raw =>
    simp only [Predicate.selectivity]
    decide

/-! ## Index suggestions -/

namespace IndexAdvisor

theorem make_finite (table : String) (columns : List String) (kind : IndexKind) {x : Float}
    (hx : x.isNaN = false) : OkOnly (·.selectivity.isFinite = true) (IndexSuggestion.make table columns kind x) := by
  unfold IndexSuggestion.make
  split
  · exact OkOnly.error _
  · split
    · exact OkOnly.error _
    · exact OkOnly.ok (by rw [isFinite_clampUnit, hx]; rfl)

section Producers

/-- Every suggestion of an analysis so far has the property `P`. -/
def Run.All (P : IndexSuggestion → Prop) (run : Run) : Prop := ∀ s ∈ run.suggestions, P s

variable (a : IndexAdvisor) (q : Query) {P : IndexSuggestion → Prop}

theorem Run.All.append {run : Run} (h : run.All P) {ss : List IndexSuggestion} (hss : ∀ s ∈ ss, P s) :
    Run.All P { run with suggestions := run.suggestions ++ ss } :=
  fun s hs => (List.mem_append.mp hs).elim (h s) (hss s)

theorem Run.All.bump {run : Run} (h : run.All P) (b : Bool) (column : String) :
    Run.All P (if b then { run with usage := bumpUsage run.usage column } else run) := by
  split <;> exact h

theorem absorb_all {run : Run} (h : run.All P) (e : AdviceError) : OkOnly (Run.All P) (a.absorb run e) := by
  unfold absorb
  split
  · exact OkOnly.ok h
  · exact OkOnly.error _

theorem leafStep_all (hleaf : ∀ leaf table, OkOnly (fun found => ∀ s, found = some s → P s) (forLeaf leaf table))
    {run : Run} (h : run.All P) (leaf : Predicate) : OkOnly (Run.All P) (a.leafStep q run leaf) := by
  unfold leafStep
  dsimp only
  split
  · next s hs =>
    exact OkOnly.ok (h.append (fun s' hs' => List.mem_singleton.mp hs' ▸ hleaf _ _ _ hs s rfl))
  · exact OkOnly.ok h
  · exact a.absorb_all h _

theorem joinStep_all (hkeys : ∀ fields table, OkOnly (fun ss => ∀ s ∈ ss, P s) (forJoinKeys fields table))
    {run : Run} (h : run.All P) (j : Join) : OkOnly (Run.All P) (a.joinStep q run j) := by
  unfold joinStep
  split
  · exact a.absorb_all h _
  · dsimp only
    split
    · next ss hss => exact (OkOnly.ok (h.append (hkeys _ _ ss hss))).bind (fun run' h' => OkOnly.ok (h'.bump _ _))
    · exact (a.absorb_all h _).bind (fun run' h' => OkOnly.ok (h'.bump _ _))

/-- **What the three producers of index suggestions make, the advisor returns**: a property of
every suggestion for a filter, a join key and a composite index holds of every suggestion of
the advice. -/
theorem analyze_all (hleaf : ∀ leaf table, OkOnly (fun found => ∀ s, found = some s → P s) (forLeaf leaf table))
    (hkeys : ∀ fields table, OkOnly (fun ss => ∀ s ∈ ss, P s) (forJoinKeys fields table))
    (hcomposite : ∀ usage table threshold, OkOnly (fun ss => ∀ s ∈ ss, P s) (a.composite usage table threshold)) :
    OkOnly (fun adv => ∀ s ∈ adv.suggestions, P s) (a.analyze q) := by
  unfold analyze
  split
  · exact OkOnly.error _
  · have h₀ : Run.All P {} := fun _ h => absurd h List.not_mem_nil
    refine (OkOnly.foldlM _ (fun t leaf _ ht => a.leafStep_all q hleaf ht leaf) h₀).bind (fun run₁ h₁ => ?_)
    refine (OkOnly.foldlM _ (fun t j _ ht => a.joinStep_all q hkeys ht j) h₁).bind (fun run₂ h₂ => ?_)
    have hmerge (run : Run) (h : run.All P) :
        OkOnly (fun adv : IndexAdvice => ∀ s ∈ adv.suggestions, P s) (.ok ⟨run.suggestions.foldl merge [], run.notes⟩ : Except AdviceError IndexAdvice) :=
      OkOnly.ok (fun s hs => h s ((keepsBest_foldl _ _ run.suggestions).best s hs).mem)
    dsimp only
    split
    · next ss hss => exact (OkOnly.ok (h₂.append (hcomposite _ _ _ ss hss))).bind hmerge
    · refine (a.absorb_all ?_ _).bind hmerge
      exact h₂

end Producers

theorem forLeaf_finite (leaf : Predicate) (table : String) :
    OkOnly (fun found => ∀ s, found = some s → s.selectivity.isFinite = true) (forLeaf leaf table) := by
  unfold forLeaf
  split
  · exact OkOnly.ok (fun _ h => by cases h)
  · split
    · exact OkOnly.error _
    · dsimp only
      split
      · exact OkOnly.ok (fun _ h => by cases h)
      · have hnan := Float.isNaN_of_isFinite leaf.selectivity_isFinite
        refine (make_finite _ _ _ hnan).bind (fun s hs => OkOnly.ok ?_)
        rintro s' ⟨⟩
        exact hs

theorem forJoinKeys_finite (fields : List String) (table : String) :
    OkOnly (fun ss => ∀ s ∈ ss, s.selectivity.isFinite = true) (forJoinKeys fields table) := by
  unfold forJoinKeys
  refine OkOnly.bind_of_forall (fun _ => OkOnly.mapM (fun f _ => ?_))
  dsimp only
  split
  · exact OkOnly.error _
  · exact (make_finite _ _ _ (by decide)).bind (fun s hs => OkOnly.ok hs)

theorem composite_finite (a : IndexAdvisor) (usage : List (String × Nat)) (table : String) (threshold : Float) :
    OkOnly (fun ss => ∀ s ∈ ss, s.selectivity.isFinite = true) (a.composite usage table threshold) := by
  unfold composite
  refine OkOnly.bind_of_forall (fun _ => OkOnly.bind_of_forall (fun _ => ?_))
  dsimp only
  split
  · exact OkOnly.ok (fun _ h => absurd h List.not_mem_nil)
  · next hwidth =>
    simp only [Bool.or_eq_true, decide_eq_true_eq, not_or, Nat.not_lt] at hwidth
    have hnan := Float.isNaN_eq_false_of_canonical (powi_three_tenths hwidth.1).1.canonical
    refine (make_finite _ _ _ hnan).bind (fun s hs => OkOnly.ok ?_)
    intro s' hs'
    rw [List.mem_singleton.mp hs']
    exact hs

/-- **Every index suggestion has a finite selectivity.** -/
theorem analyze_finite (a : IndexAdvisor) (q : Query) :
    OkOnly (fun adv => ∀ s ∈ adv.suggestions, s.selectivity.isFinite = true) (a.analyze q) :=
  a.analyze_all q forLeaf_finite forJoinKeys_finite (a.composite_finite)

end IndexAdvisor

/-! ## Placement suggestions -/

namespace PushdownAdvisor

theorem reorder_finite (a : PushdownAdvisor) (preds : List Predicate) :
    ∀ s ∈ a.reorder preds, s.selectivity.isFinite = true := by
  unfold reorder
  dsimp only
  split
  · intro s hs
    exact absurd hs List.not_mem_nil
  · intro s hs
    obtain ⟨⟨p, i⟩, -, hs⟩ := List.mem_filterMap.mp hs
    dsimp only at hs
    split at hs
    · cases hs
    · cases hs
      show (((preds[i]?).map Predicate.selectivity).getD 0).isFinite = true
      cases preds[i]? with
      | none => decide
      | some p => exact p.selectivity_isFinite

theorem pushToJoins_finite (preds : List Predicate) (g : JoinGraph) :
    ∀ s ∈ pushToJoins preds g, s.selectivity.isFinite = true := by
  intro s hs
  obtain ⟨⟨p, i⟩, -, hs⟩ := List.mem_filterMap.mp (by simpa only [pushToJoins] using hs)
  obtain ⟨T, -, rfl⟩ := Option.map_eq_some_iff.mp hs
  exact p.selectivity_isFinite

theorem earlyFilters_finite (preds : List Predicate) : ∀ s ∈ earlyFilters preds, s.selectivity.isFinite = true := by
  unfold earlyFilters
  split
  · intro s hs
    exact absurd hs List.not_mem_nil
  · intro s hs
    obtain ⟨⟨p, i⟩, -, hs⟩ := List.mem_filterMap.mp hs
    dsimp only at hs
    split at hs
    · cases hs
    · cases hs
      exact p.selectivity_isFinite

theorem forIndexes_finite (preds : List Predicate) (indexed : List String) :
    OkOnly (fun moves => ∀ s ∈ moves, s.selectivity.isFinite = true) (forIndexes preds indexed) := by
  unfold forIndexes
  refine (OkOnly.mapM (R := fun found => ∀ s, found = some s → s.selectivity.isFinite = true)
    (fun pi _ => ?_)).bind (fun found hfound => OkOnly.ok ?_)
  · obtain ⟨p, i⟩ := pi
    simp only [indexMove]
    split
    · exact OkOnly.ok (fun _ h => by cases h)
    · split
      · exact OkOnly.error _
      · split
        · refine OkOnly.ok (fun s hs => ?_)
          cases hs
          exact p.selectivity_isFinite
        · exact OkOnly.ok (fun _ h => by cases h)
  · intro s hs
    exact hfound (some s) (List.reduceOption_mem_iff.mp hs) s rfl

theorem candidates_finite (a : PushdownAdvisor) (q : Query) {toIndexes : List PushdownSuggestion}
    (h : ∀ s ∈ toIndexes, s.selectivity.isFinite = true) :
    ∀ s ∈ a.candidates q toIndexes, s.selectivity.isFinite = true := by
  intro s hs
  simp only [candidates, List.mem_append] at hs
  rcases hs with ((hs | hs) | hs) | hs
  · exact a.reorder_finite _ s hs
  · split at hs
    · exact pushToJoins_finite _ _ s hs
    · exact absurd hs List.not_mem_nil
  · exact earlyFilters_finite _ s hs
  · exact h s hs

/-- **Every placement suggestion has a finite selectivity and carries a predicate of the
query.** -/
theorem analyze_finite (a : PushdownAdvisor) {q : Query} (hq : q.floatsFinite = true) :
    OkOnly (fun moves => ∀ s ∈ moves, s.selectivity.isFinite = true ∧ s.predicate.floatsFinite = true)
      (a.analyze q) := by
  intro moves h s hs
  obtain ⟨toIndexes, hidx, hcand⟩ := a.mem_candidates_of_analyze h hs
  have hwithin := a.candidates_movesWithin q (forIndexes_movesWithin _ _ toIndexes hidx) s hcand
  refine ⟨a.candidates_finite q (forIndexes_finite _ _ toIndexes hidx) s hcand, ?_⟩
  exact List.all_eq_true.mp hq _ (List.mem_of_getElem? hwithin.predicate_eq)

end PushdownAdvisor

/-! ## Join order suggestions -/

namespace JoinOrderAdvisor

/-- **Every join order suggestion has a clamped improvement.** -/
theorem analyze_clamped (a : JoinOrderAdvisor) (q : Query) :
    OkOnly (fun orders => ∀ s ∈ orders, ∃ x, s.improvement = clampUnit x) (a.analyze q) := by
  unfold analyze
  split
  · exact OkOnly.error _
  · split
    · exact OkOnly.ok (fun _ h => absurd h List.not_mem_nil)
    · refine OkOnly.bind_of_forall (fun _ => ?_)
      dsimp only
      split
      · exact OkOnly.ok (fun _ h => absurd h List.not_mem_nil)
      · split
        · exact OkOnly.ok (fun _ h => absurd h List.not_mem_nil)
        · next ch _ =>
          unfold JoinOrderSuggestion.make
          split
          · refine OkOnly.ok (fun s hs => ?_)
            rw [List.mem_singleton.mp hs]
            exact ⟨ch.improvement, rfl⟩
          · exact OkOnly.error _

end JoinOrderAdvisor

/-! ## The analysis -/

/-- Parts whose floats are finite but for the improvements of join orders, each a float clamped
to the unit interval. -/
structure Parts.FiniteEstimates (p : Parts) : Prop where
  indexes : ∀ s ∈ p.indexes, s.selectivity.isFinite = true
  moves : ∀ s ∈ p.moves, s.selectivity.isFinite = true ∧ s.predicate.floatsFinite = true
  joinOrders : ∀ s ∈ p.joinOrders, ∃ x, s.improvement = clampUnit x

theorem applyPolicy_okOnly {α : Type} {P : α → Prop} (k : AdvisorKind) (pol : FailurePolicy)
    {o : Except AdviceError (List α)} (h : OkOnly (fun xs => ∀ x ∈ xs, P x) o) :
    OkOnly (fun r => ∀ x ∈ r.1, P x) (applyPolicy k pol o) := by
  cases o with
  | ok xs => exact OkOnly.ok (h xs rfl)
  | error e =>
    simp only [applyPolicy]
    split
    · exact OkOnly.ok (fun _ h => absurd h List.not_mem_nil)
    · exact OkOnly.error _

section Run

variable {c : Config} {stats : TableStatistics} {q : Query} {clock : Checkpoint → Nat}

/-- **A phase keeps the estimates finite.** -/
theorem Phase.run_finiteEstimates (hq : q.floatsFinite = true) (ph : Phase) {p : Parts} (hp : p.FiniteEstimates) :
    OkOnly Parts.FiniteEstimates (ph.run c stats q clock p) := by
  cases ph with
  | index =>
    exact (IndexAdvisor.analyze_finite _ q).bind (fun _ h => OkOnly.ok ⟨h, hp.moves, hp.joinOrders⟩)
  | pushdown =>
    refine (applyPolicy_okOnly _ _ (PushdownAdvisor.analyze_finite _ hq)).bind (fun r h => ?_)
    obtain ⟨moves, notes⟩ := r
    exact OkOnly.ok ⟨hp.indexes, h, hp.joinOrders⟩
  | joinOrder =>
    refine (applyPolicy_okOnly _ _ (JoinOrderAdvisor.analyze_clamped _ q)).bind (fun r h => ?_)
    obtain ⟨orders, notes⟩ := r
    exact OkOnly.ok ⟨hp.indexes, hp.moves, h⟩
  | check pt => exact OkOnly.bind_of_forall (fun _ => OkOnly.ok hp)

/-- **The floats of an analysis of a query whose floats are finite are finite exactly when no
join order's improvement is NaN.** -/
theorem floatsFinite_iff_of_analyzeWith (hq : q.floatsFinite = true) {r : Advice}
    (h : analyzeWith clock c stats q = .ok r) :
    r.floatsFinite = true ↔ ∀ s ∈ r.joinOrders, s.improvement.isNaN = false := by
  unfold analyzeWith at h
  split at h
  · cases h
  · obtain ⟨p, hp, hr⟩ := Except.bind_eq_ok.mp h
    cases hr
    have hfin : p.FiniteEstimates :=
      OkOnly.foldlM Parts.FiniteEstimates (fun t ph _ ht => Phase.run_finiteEstimates hq ph ht)
        ⟨fun _ h => absurd h List.not_mem_nil, fun _ h => absurd h List.not_mem_nil,
          fun _ h => absurd h List.not_mem_nil⟩ p hp
    have hindexes : p.indexes.all (·.selectivity.isFinite) = true := List.all_eq_true.mpr hfin.indexes
    have hmoves : p.moves.all (fun s => s.selectivity.isFinite && s.predicate.floatsFinite) = true :=
      List.all_eq_true.mpr (fun s hs => by simp [hfin.moves s hs])
    simp only [Advice.floatsFinite, Advice.ofParts, hindexes, hmoves, Bool.true_and, List.all_eq_true]
    refine forall₂_congr (fun s hs => ?_)
    obtain ⟨x, hx⟩ := hfin.joinOrders s hs
    rw [hx, isFinite_clampUnit_eq, Bool.not_eq_true']

end Run

/-- **Advice comes back from a text cache exactly when no join order's estimated improvement is
NaN**, for every analysis of a query whose floats are finite. -/
theorem advice_survives_cache_iff {σ : Type} (cache : ResultCache σ) (clock : Checkpoint → Nat) (c : Config)
    (stats : TableStatistics) {q : Query} (hq : q.floatsFinite = true) {r : Advice}
    (h : analyzeWith clock c stats q = .ok r) :
    cache.read (cache.write r) = some r ↔ ∀ s ∈ r.joinOrders, s.improvement.isNaN = false := by
  rw [← floatsFinite_iff_of_analyzeWith hq h]
  cases hr : r.floatsFinite with
  | false => simp [cache.read_write_nonfinite r hr]
  | true => simp [cache.read_write r hr]

/-- The cache that keeps advice as it is when its floats are finite, and nothing otherwise. -/
def ResultCache.finiteOnly : ResultCache (Option Advice) where
  write a := if a.floatsFinite then some a else none
  read := id
  read_write a h := by simp [h]
  read_write_nonfinite a h := by simp [h]

/-- A filter and two joins: the advice holds a join order whose improvement is a number, so it
comes back from the cache. -/
theorem advice_survives_cache_on_orders :
    let c : Config := {}
    let stats : TableStatistics :=
      ({ rows := [("orders", 1000000), ("users", 100), ("regions", 10)], indexes := [("users", "id")] } : Statistics)
    let q : Query :=
      { table := "orders"
        predicates := [.comparison "u.status" .eq (.string "active")]
        joins := [⟨"users", some "u", .inner, "orders.user_id", "u.id"⟩, ⟨"regions", some "r", .inner, "u.region_id", "r.id"⟩] }
    q.floatsFinite = true ∧ ∃ r, analyzeWith (workClock c q) c stats q = .ok r ∧
      (r.joinOrders.length = 1 ∧ r.joinOrders.all (!·.improvement.isNaN) = true) ∧
      (ResultCache.finiteOnly.read (ResultCache.finiteOnly.write r) = some r ↔
        ∀ s ∈ r.joinOrders, s.improvement.isNaN = false) := by
  intro c stats q
  have hq : q.floatsFinite = true := by decide
  obtain ⟨r, h⟩ := Except.exists_ok_of_isOk (x := analyzeWith (workClock c q) c stats q) (by decide +kernel)
  have horders : (analyzeWith (workClock c q) c stats q).toOption.map
      (fun r => (r.joinOrders.length, r.joinOrders.all (!·.improvement.isNaN))) = some (1, true) := by
    decide +kernel
  rw [h] at horders
  obtain ⟨hlen, hnan⟩ := Prod.mk.inj (Option.some.inj horders)
  exact ⟨hq, r, h, ⟨hlen, hnan⟩, advice_survives_cache_iff _ _ _ _ hq h⟩

end QueryAdvisor
