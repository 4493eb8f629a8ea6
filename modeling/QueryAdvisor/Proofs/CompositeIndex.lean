import QueryAdvisor.Proofs.FloatValue
import QueryAdvisor.Proofs.IndexShape
/-!
# The composite index

The composite step of the index advisor suggests one index over the columns an analysis counts
often. A column qualifies when it is counted more than once and more often than the threshold
times the number of columns counted; the two sides are compared as floats, so the product is
rounded first. The qualifying columns are sorted (`compositeColumns`).

* `powi_three_tenths`: three tenths to a power of at least two, by repeated squaring, is a float
  from zero to one below a tenth, since every product of the loop stays from zero to one and at
  most its factors (`powi_go_le`, from `Float.InUnit.mul`). So the clamp leaves the selectivity,
  and the priority is high.
* `composite_eq`: the composite step case by case. A bad threshold or a blank table is refused;
  too few or too many columns give nothing; a blank column is refused by the constructor of
  suggestions; otherwise there is one index.
* `UsageCounts`: a usage list counts a list of columns. Counting one more column keeps it
  (`UsageCounts.bump`); each filter and join step counts the column it should (`leafStep_counts`,
  `joinStep_counts`); so an analysis hands the composite step the counts of `usageEvents`
  (`gather_counts`).
* `IndexAdvisor.composite_index_gating`: **the gating of the composite index, and the counts it
  reads.**

A blank column that qualifies makes the step fail, though threshold and table are valid. And under
the threshold `0.7` with ten columns the cutoff is the float `7`, so a column counted seven times
does not qualify, though the threshold times ten is below seven.
-/

namespace QueryAdvisor

open Float.Model Binary64

/-! ## Three tenths to a power -/

/-- The squaring loop keeps its base and its product from zero to one; from the exponent one up,
what it returns is at most the base. -/
theorem powi_go_le {a r : Float} (ha : Float.InUnit a) (hr : Float.InUnit r) {b : ℕ} (hb : 1 ≤ b) :
    Float.InUnit (powi.go a b r) ∧ value (powi.go a b r).toModel.unpack ≤ value a.toModel.unpack := by
  induction b using Nat.strong_induction_on generalizing a r with
  | _ b ih =>
    rw [powi.go]
    split
    · next hlast =>
      rw [if_pos (by omega)]
      exact ⟨(hr.mul ha).1, (hr.mul ha).2.2⟩
    · next hmore =>
      have hr' : Float.InUnit (if b % 2 = 1 then r * a else r) := by
        split
        · exact (hr.mul ha).1
        · exact hr
      obtain ⟨haa, haa_le, -⟩ := ha.mul ha
      obtain ⟨hgo, hle⟩ := ih (b / 2) (by omega) haa hr' (by omega)
      exact ⟨hgo, hle.trans haa_le⟩

theorem unpack_three_tenths :
    (0.3 : Float).toModel.unpack = .finite .positive 5404319552844595 (-54) (by norm_num) := rfl

theorem unpack_tenth :
    (0.1 : Float).toModel.unpack = .finite .positive 7205759403792794 (-56) (by norm_num) := rfl

theorem inUnit_three_tenths : Float.InUnit 0.3 := by
  refine ⟨?_, ?_, ?_⟩ <;> rw [unpack_three_tenths] <;> norm_num [Canonical, value]

/-- **Three tenths to a power of at least two, by repeated squaring, is a float from zero to one
below one tenth.** -/
theorem powi_three_tenths {k : ℕ} (hk : 2 ≤ k) : Float.InUnit (powi 0.3 k) ∧ powi 0.3 k < 0.1 := by
  have hsq := inUnit_three_tenths.mul inUnit_three_tenths
  have hr : Float.InUnit (if k % 2 = 1 then 1 * 0.3 else 1) := by
    split
    · exact (Float.InUnit.one.mul inUnit_three_tenths).1
    · exact Float.InUnit.one
  have hgo : powi 0.3 k = powi.go (0.3 * 0.3) (k / 2) (if k % 2 = 1 then 1 * 0.3 else 1) := by
    rw [powi, powi.go, dif_neg (by omega)]
  obtain ⟨hin, hle⟩ := powi_go_le hsq.1 hr (b := k / 2) (by omega)
  rw [← hgo] at hin hle
  have htenth : Canonical (0.1 : Float).toModel.unpack := by
    rw [unpack_tenth]
    norm_num [Canonical]
  have hsq_lt : (0.3 * 0.3 : Float) < 0.1 := by decide
  rw [Float.lt_iff_value hsq.1.canonical htenth] at hsq_lt
  exact ⟨hin, (Float.lt_iff_value hin.canonical htenth).mpr (lt_of_le_of_lt hle hsq_lt)⟩

/-! ## The composite index -/

namespace IndexAdvisor

/-- The columns of the composite index: those counted more than once and more often than the
threshold times the number of columns counted, compared as floats, in increasing order. -/
def compositeColumns (usage : List (String × Nat)) (threshold : Float) : List String :=
  ((usage.filter (fun u => u.2 > 1 && u.2.toFloat > threshold * usage.length.toFloat)).map (·.1)).mergeSort
    (fun x y => decide (x ≤ y))

/-- **With each column counted once, the composite columns increase strictly, and are the
columns counted more than once and more often than the threshold times the number of columns.** -/
theorem compositeColumns_spec {usage : List (String × Nat)} (hkeys : (usage.map (·.1)).Nodup)
    (threshold : Float) :
    (compositeColumns usage threshold).Pairwise (· < ·) ∧
      ∀ c, c ∈ compositeColumns usage threshold ↔
        ∃ n, (c, n) ∈ usage ∧ 1 < n ∧ threshold * usage.length.toFloat < n.toFloat := by
  refine ⟨(sorted_keys hkeys _).2, fun c => ?_⟩
  simp only [compositeColumns, List.mem_mergeSort, List.mem_map, List.mem_filter, Bool.and_eq_true,
    decide_eq_true_eq, gt_iff_lt]
  constructor
  · rintro ⟨⟨c', n⟩, ⟨hmem, hmore, hcut⟩, rfl⟩
    exact ⟨n, hmem, hmore, hcut⟩
  · rintro ⟨n, hmem, hmore, hcut⟩
    exact ⟨(c, n), ⟨hmem, hmore, hcut⟩, rfl⟩

/-- The composite suggestion over `columns` of `table`. -/
def compositeSuggestion (table : String) (columns : List String) : IndexSuggestion :=
  ⟨table, columns, .composite, powi 0.3 columns.length,
    "Columns (" ++ ", ".intercalate columns ++ ") of '" ++ table ++ "' are frequently used together",
    "A single index can satisfy filters, joins and sorts over these columns", .high⟩

/-- **The outcome of the composite step, case by case: a threshold outside `[0, 1]` and a blank
table are refused; fewer than two or more than the widest width of qualifying columns give no
index; a blank qualifying column is refused; otherwise one composite index over them.** -/
theorem composite_eq (a : IndexAdvisor) (usage : List (String × Nat)) (table : String) (threshold : Float) :
    a.composite usage table threshold =
      if !(threshold.isFinite && 0 ≤ threshold && threshold ≤ 1) then
        .error (.invalidArgument ("threshold" ++ " must be within [0, 1], got " ++
          Decimal.Layout.plain.write threshold))
      else if isBlankText table then .error (.invalidArgument "table name must not be empty")
      else if (compositeColumns usage threshold).length < 2 ∨
          a.maxComposite < (compositeColumns usage threshold).length then .ok []
      else if (compositeColumns usage threshold).any isBlankText then
        .error (.invalidArgument ("index suggestion on '" ++ table ++ "' requires at least one named column"))
      else .ok [compositeSuggestion table (compositeColumns usage threshold)] := by
  unfold composite checkFraction requireTable
  by_cases hfrac : (threshold.isFinite && decide (0 ≤ threshold) && decide (threshold ≤ 1)) = true
  · by_cases htable : isBlankText table = true
    · simp only [hfrac, htable, Bool.not_true, Bool.false_eq_true, if_true, if_false, bind, Except.bind]
    · simp only [hfrac, htable, Bool.not_true, Bool.false_eq_true, if_true, if_false, bind, Except.bind]
      have hcols : ((usage.filter (fun u => u.2 > 1 && u.2.toFloat > threshold * usage.length.toFloat)).map
          (·.1)).mergeSort (fun x y => decide (x ≤ y)) = compositeColumns usage threshold := rfl
      rw [hcols]
      generalize compositeColumns usage threshold = cols
      simp only [gt_iff_lt, Bool.or_eq_true, decide_eq_true_eq]
      by_cases hwidth : cols.length < 2 ∨ a.maxComposite < cols.length
      · rw [if_pos hwidth, if_pos hwidth]
      · obtain ⟨hunit, htenth⟩ := powi_three_tenths (k := cols.length) (by omega)
        have hne : cols.isEmpty = false := by
          cases cols with
          | nil => simp at hwidth
          | cons _ _ => rfl
        rw [if_neg hwidth, if_neg hwidth]
        simp only [IndexSuggestion.make, htable, Bool.false_eq_true, if_false, hne, Bool.false_or]
        by_cases hnamed : cols.any isBlankText = true
        · simp only [hnamed, if_true]
        · simp only [hnamed, Bool.false_eq_true, if_false, hunit.clampUnit_eq,
            show Priority.ofSelectivity (powi 0.3 cols.length) = .high from if_pos htenth]
          rfl
  · simp only [hfrac, Bool.not_false, Bool.false_eq_true, if_true, if_false, bind, Except.bind]

theorem outcome_of_refusal {x : Except AdviceError (List IndexSuggestion)} {msg : String} {refused : Prop}
    {gives : List IndexSuggestion → Prop} (hx : x = .error (.invalidArgument msg)) (hr : refused) :
    (∀ e, x = .error e → ∃ msg, e = .invalidArgument msg) ∧ ((∃ e, x = .error e) ↔ refused) ∧
      ∀ ss, x = .ok ss → gives ss := by
  subst hx
  exact ⟨fun e he => ⟨_, (Except.error.inj he).symm⟩, ⟨fun _ => hr, fun _ => ⟨_, rfl⟩⟩,
    fun ss hss => (by cases hss)⟩

theorem outcome_of_result {x : Except AdviceError (List IndexSuggestion)} {found : List IndexSuggestion}
    {refused : Prop} {gives : List IndexSuggestion → Prop} (hx : x = .ok found) (hr : ¬refused)
    (hg : gives found) :
    (∀ e, x = .error e → ∃ msg, e = .invalidArgument msg) ∧ ((∃ e, x = .error e) ↔ refused) ∧
      ∀ ss, x = .ok ss → gives ss := by
  subst hx
  refine ⟨fun e he => (by cases he), ⟨fun ⟨e, he⟩ => (by cases he), fun h => absurd h hr⟩, fun ss hss => ?_⟩
  cases hss
  exact hg

/-- The composite step refuses with an invalid argument, or gives nothing or one composite
index over the composite columns, of three tenths to the power of their number, at high
priority. -/
theorem composite_outcome (a : IndexAdvisor) (usage : List (String × Nat)) (table : String)
    (threshold : Float) :
    let cols := compositeColumns usage threshold
    (∀ e, a.composite usage table threshold = .error e → ∃ msg, e = .invalidArgument msg) ∧
      ((∃ e, a.composite usage table threshold = .error e) ↔
        ¬(threshold.isFinite = true ∧ 0 ≤ threshold ∧ threshold ≤ 1) ∨ isBlankText table = true ∨
          (2 ≤ cols.length ∧ cols.length ≤ a.maxComposite ∧ ∃ c ∈ cols, isBlankText c = true)) ∧
      ∀ ss, a.composite usage table threshold = .ok ss →
        ss.length = (if 2 ≤ cols.length ∧ cols.length ≤ a.maxComposite then 1 else 0) ∧
        ∀ s ∈ ss, s.table = table ∧ s.kind = .composite ∧ s.columns = cols ∧
          s.selectivity = powi 0.3 cols.length ∧ s.priority = .high := by
  intro cols
  rw [composite_eq]
  by_cases hfrac : (threshold.isFinite && decide (0 ≤ threshold) && decide (threshold ≤ 1)) = true
  · have hunit : threshold.isFinite = true ∧ 0 ≤ threshold ∧ threshold ≤ 1 := by
      simpa [Bool.and_eq_true, and_assoc] using hfrac
    rw [if_neg (by simp [hfrac])]
    by_cases htable : isBlankText table = true
    · rw [if_pos htable]
      exact outcome_of_refusal rfl (.inr (.inl htable))
    · rw [if_neg htable]
      by_cases hwidth : cols.length < 2 ∨ a.maxComposite < cols.length
      · rw [if_pos hwidth]
        refine outcome_of_result rfl ?_ ⟨by rw [if_neg (by omega)]; rfl, fun s hs => (by cases hs)⟩
        rintro (h | h | ⟨h₁, h₂, -⟩)
        · exact absurd hunit h
        · exact absurd h htable
        · omega
      · rw [if_neg hwidth]
        by_cases hnamed : cols.any isBlankText = true
        · rw [if_pos hnamed]
          obtain ⟨c, hc, hblank⟩ := List.any_eq_true.mp hnamed
          exact outcome_of_refusal rfl (.inr (.inr ⟨by omega, by omega, c, hc, hblank⟩))
        · rw [if_neg hnamed]
          refine outcome_of_result rfl ?_ ⟨by rw [if_pos (by omega)]; rfl, fun s hs => ?_⟩
          · rintro (h | h | ⟨-, -, c, hc, hblank⟩)
            · exact absurd hunit h
            · exact absurd h htable
            · exact absurd (List.any_eq_true.mpr ⟨c, hc, hblank⟩) hnamed
          · rw [List.mem_singleton.mp hs]
            exact ⟨rfl, rfl, rfl, rfl, rfl⟩
  · have hunit : ¬(threshold.isFinite = true ∧ 0 ≤ threshold ∧ threshold ≤ 1) := by
      simpa [Bool.and_eq_true, and_assoc] using hfrac
    rw [if_pos (by simp [hfrac])]
    exact outcome_of_refusal rfl (.inl hunit)

end IndexAdvisor

/-! ## The columns an analysis counts -/

/-- `usage` counts `events`: each column once, the columns are those of the events, and each
with the number of times it occurs among them. -/
structure UsageCounts (usage : List (String × Nat)) (events : List String) : Prop where
  nodup : (usage.map (·.1)).Nodup
  keys : ∀ c, c ∈ usage.map (·.1) ↔ c ∈ events
  entry : ∀ c ∈ events, (c, events.count c) ∈ usage

theorem UsageCounts.nil : UsageCounts [] [] :=
  ⟨List.nodup_nil, fun _ => by simp, fun _ h => by cases h⟩

/-- **Counting a column counts one more occurrence of it.** -/
theorem UsageCounts.bump {usage : List (String × Nat)} {events : List String}
    (h : UsageCounts usage events) (column : String) :
    UsageCounts (bumpUsage usage column) (events ++ [column]) := by
  have hkeys := bumpUsage_keys usage column
  have hcount : ∀ c, (events ++ [column]).count c = events.count c + if column = c then 1 else 0 := by
    intro c
    simp [List.count_append, List.count_singleton, beq_iff_eq]
  by_cases hmem : column ∈ usage.map (·.1)
  · rw [if_pos hmem] at hkeys
    have hev : column ∈ events := (h.keys column).mp hmem
    refine ⟨hkeys ▸ h.nodup, fun c => ?_, fun c hc => ?_⟩
    · rw [hkeys, h.keys, List.mem_append, List.mem_singleton]
      constructor
      · exact .inl
      · rintro (hc | rfl)
        exacts [hc, hev]
    · have hc' : c ∈ events := by
        rcases List.mem_append.mp hc with hc | hc
        · exact hc
        · exact List.mem_singleton.mp hc ▸ hev
      rw [bumpUsage_of_mem hmem, hcount]
      refine List.mem_map.mpr ⟨(c, events.count c), h.entry c hc', ?_⟩
      by_cases hcol : column = c
      · simp [hcol]
      · simp [hcol, Ne.symm hcol]
  · rw [if_neg hmem] at hkeys
    have hnew : column ∉ events := fun hev => hmem ((h.keys column).mpr hev)
    refine ⟨?_, fun c => ?_, fun c hc => ?_⟩
    · rw [hkeys]
      exact List.nodup_append.mpr ⟨h.nodup, List.nodup_singleton _, fun a ha b hb hab =>
        hmem (List.mem_singleton.mp hb ▸ hab ▸ ha)⟩
    · rw [hkeys, List.mem_append, List.mem_append, h.keys]
    · rw [bumpUsage_of_not_mem hmem, hcount, List.mem_append]
      rcases List.mem_append.mp hc with hc | hc
      · have hne : column ≠ c := fun heq => hnew (heq ▸ hc)
        rw [if_neg hne, Nat.add_zero]
        exact .inl (h.entry c hc)
      · obtain rfl := List.mem_singleton.mp hc
        rw [if_pos rfl, List.count_eq_zero_of_not_mem hnew]
        exact .inr (List.mem_singleton_self _)

theorem UsageCounts.foldl_bump {usage : List (String × Nat)} {events : List String}
    (h : UsageCounts usage events) (columns : List String) :
    UsageCounts (columns.foldl bumpUsage usage) (events ++ columns) := by
  induction columns generalizing usage events with
  | nil => simpa using h
  | cons c rest ih =>
    rw [List.foldl_cons, ← List.singleton_append, ← List.append_assoc]
    exact ih (h.bump c)

theorem OkOnly.foldlM_events {α β ε γ : Type} {f : β → α → Except ε β} {ev : α → List γ}
    {P : β → List γ → Prop}
    (hstep : ∀ s evs x, P s evs → OkOnly (fun s' => P s' (evs ++ ev x)) (f s x)) :
    ∀ (l : List α) (s : β) (evs : List γ), P s evs →
      OkOnly (fun s' => P s' (evs ++ l.flatMap ev)) (l.foldlM f s)
  | [], s, evs, h => OkOnly.ok (by simpa using h)
  | x :: xs, s, evs, h => by
    rw [List.foldlM_cons]
    refine (hstep s evs x h).bind (fun s' h' => ?_)
    simpa [List.flatMap_cons, List.append_assoc] using OkOnly.foldlM_events hstep xs s' (evs ++ ev x) h'

namespace IndexAdvisor

variable (a : IndexAdvisor) (q : Query)

/-- Whether the filter `leaf` gets an index on the table it names. -/
def producesIndex (leaf : Predicate) : Bool :=
  ((forLeaf leaf (q.tableOf leaf.qualifier?)).toOption.bind id).isSome

/-- Whether the left key of `j` is on the base table: unqualified, or qualified by the base table
or its alias. -/
def leftOnBase (j : Join) : Bool :=
  (splitLastDot? j.leftField).elim true (fun split => q.isBaseTable split.1)

/-- The column a filter counts: its own, if it got an index and is on the base table. -/
def leafEvents (leaf : Predicate) : List String :=
  if producesIndex q leaf && q.isBaseTable (q.tableOf leaf.qualifier?) then leaf.column?.toList else []

/-- The column a join counts: its left key, if the joined table is named and the key is a named
column of the base table. -/
def joinEvents (j : Join) : List String :=
  if !isBlankText j.table && leftOnBase q j && !(unqualified j.leftField).isEmpty then
    [unqualified j.leftField]
  else []

/-- The groupings and orderings, each by its column, unqualified; empty names left out. -/
def sortColumns : List String :=
  ((q.groupBy ++ q.orderBy.map (·.column)).map unqualified).filter (!·.isEmpty)

/-- The columns an analysis of `q` counts, once for each filter, join and sort entry that counts
one. -/
def usageEvents : List String :=
  (q.predicates.flatMap Predicate.leaves).flatMap (leafEvents q) ++ q.joins.flatMap (joinEvents q) ++
    sortColumns q

/-- The state of an analysis when it reaches the composite step. -/
def gather : Except AdviceError Run := do
  let run ← (q.predicates.flatMap Predicate.leaves).foldlM (a.leafStep q) {}
  let run ← q.joins.foldlM (a.joinStep q) run
  .ok { run with usage := (sortColumns q).foldl bumpUsage run.usage }

/-- The composite step and the merge that end an analysis. -/
def finishComposite (run : Run) : Except AdviceError IndexAdvice := do
  let run ← match a.composite run.usage q.table a.threshold with
    | .ok ss => .ok { run with suggestions := run.suggestions ++ ss }
    | .error e => a.absorb run e
  .ok ⟨run.suggestions.foldl merge [], run.notes⟩

theorem analyze_eq_gather :
    a.analyze q = if isBlankText q.table then .error (.invalidArgument "query model has no base table")
      else a.gather q >>= a.finishComposite q := by
  unfold analyze gather finishComposite
  split
  · rfl
  · cases (q.predicates.flatMap Predicate.leaves).foldlM (a.leafStep q) {} with
    | error e => rfl
    | ok run =>
      simp only [bind, Except.bind]
      cases q.joins.foldlM (a.joinStep q) run with
      | error e => rfl
      | ok run' => rfl

theorem forLeaf_columns (leaf : Predicate) (table : String) :
    OkOnly (fun found => ∀ s, found = some s → s.columns = leaf.column?.toList) (forLeaf leaf table) := by
  unfold forLeaf
  split
  · exact OkOnly.ok (fun _ h => by cases h)
  · next column hcol =>
    split
    · exact OkOnly.error _
    · dsimp only
      split
      · exact OkOnly.ok (fun _ h => by cases h)
      · refine (IndexSuggestion.make_okOnly _ _ _ _).bind (fun s hs => OkOnly.ok ?_)
        rintro s' ⟨⟩
        rw [hcol]
        exact hs.2.1

theorem absorb_usage (run : Run) (e : AdviceError) :
    OkOnly (fun run' => run'.usage = run.usage) (a.absorb run e) := by
  unfold absorb
  split
  · exact OkOnly.ok rfl
  · exact OkOnly.error _

/-- **A filter step counts the column of the filter, if it got an index on the base table.** -/
theorem leafStep_counts {run : Run} {events : List String} (h : UsageCounts run.usage events)
    (leaf : Predicate) :
    OkOnly (fun run' => UsageCounts run'.usage (events ++ leafEvents q leaf)) (a.leafStep q run leaf) := by
  unfold leafStep leafEvents producesIndex
  dsimp only
  have hcols := forLeaf_columns leaf (q.tableOf leaf.qualifier?)
  cases hfound : forLeaf leaf (q.tableOf leaf.qualifier?) with
  | error e =>
    refine (a.absorb_usage run e).mono (fun run' hrun => ?_)
    simpa [hrun, Except.toOption] using h
  | ok found =>
    cases found with
    | none => exact OkOnly.ok (by simpa [Except.toOption] using h)
    | some s =>
      rw [hfound] at hcols
      have hs := hcols (some s) rfl s rfl
      refine OkOnly.ok ?_
      by_cases hbase : q.isBaseTable (q.tableOf leaf.qualifier?) = true
      · simpa [hbase, hs, Except.toOption] using h.foldl_bump leaf.column?.toList
      · simpa [hbase] using h

/-- **A join step counts the left key of the join, if the joined table is named and the key is a
named column of the base table.** -/
theorem joinStep_counts {run : Run} {events : List String} (h : UsageCounts run.usage events)
    (j : Join) :
    OkOnly (fun run' => UsageCounts run'.usage (events ++ joinEvents q j)) (a.joinStep q run j) := by
  unfold joinStep joinEvents
  by_cases hblank : isBlankText j.table = true
  · rw [if_pos hblank]
    refine (a.absorb_usage run _).mono (fun run' hrun => ?_)
    simpa [hblank, hrun] using h
  · rw [if_neg hblank]
    have hnamed : (!isBlankText j.table && leftOnBase q j && !(unqualified j.leftField).isEmpty) =
        (leftOnBase q j && !(unqualified j.leftField).isEmpty) := by
      simp only [Bool.not_eq_true] at hblank
      rw [hblank, Bool.not_false, Bool.true_and]
    rw [hnamed]
    have hcount : ∀ b : Bool, b = leftOnBase q j → ∀ run' : Run, run'.usage = run.usage →
        UsageCounts (if (b && !(unqualified j.leftField).isEmpty) = true then
            { run' with usage := bumpUsage run'.usage (unqualified j.leftField) } else run').usage
          (events ++ if (leftOnBase q j && !(unqualified j.leftField).isEmpty) = true then
            [unqualified j.leftField] else []) := by
      rintro b rfl run' hrun
      by_cases hcounted : (leftOnBase q j && !(unqualified j.leftField).isEmpty) = true
      · rw [if_pos hcounted, if_pos hcounted]
        simpa [hrun] using h.bump (unqualified j.leftField)
      · rw [if_neg hcounted, if_neg hcounted, List.append_nil, hrun]
        exact h
    dsimp only
    rcases hsplit : splitLastDot? j.leftField with _ | ⟨qualifier, rest⟩
    on_goal 1 => have hleft : true = leftOnBase q j := by simp [leftOnBase, hsplit]
    on_goal 2 => have hleft : q.isBaseTable qualifier = leftOnBase q j := by simp [leftOnBase, hsplit]
    all_goals
      rcases forJoinKeys [j.rightField] j.table with e | ss
      all_goals dsimp only
      · refine (a.absorb_usage run e).bind (fun run' hrun => ?_)
        exact OkOnly.ok (hcount _ hleft run' hrun)
      · have hkey : OkOnly (fun run' : Run => run'.usage = run.usage)
            (.ok { run with suggestions := run.suggestions ++ ss } : Except AdviceError Run) := OkOnly.ok rfl
        refine hkey.bind (fun run' hrun => ?_)
        exact OkOnly.ok (hcount _ hleft run' hrun)

/-- **The columns an analysis hands to the composite step count those of its filters, joins and
sort entries.** -/
theorem gather_counts : OkOnly (fun run => UsageCounts run.usage (usageEvents q)) (a.gather q) := by
  unfold gather
  refine (OkOnly.foldlM_events (P := fun (run : Run) events => UsageCounts run.usage events)
    (fun _ _ leaf h => a.leafStep_counts q h leaf) _ ({} : Run) [] UsageCounts.nil).bind
    (fun run hleaves => ?_)
  refine (OkOnly.foldlM_events (P := fun (run : Run) events => UsageCounts run.usage events)
    (fun _ _ j h => a.joinStep_counts q h j) _ run _ hleaves).bind (fun run' hjoins => OkOnly.ok ?_)
  simpa [usageEvents, List.append_assoc] using hjoins.foldl_bump (sortColumns q)

/-- **Composite index gating.** With each column counted once, the composite step refuses with an
invalid argument exactly when the threshold is not a finite number in `[0, 1]`, the table is
blank, or two up to the widest width of columns qualify and one of them is blank. Otherwise it
gives one index when two up to the widest width of columns qualify, and none else: on the table,
composite, over the qualifying columns in increasing order, of selectivity three tenths to the
power of their number, at high priority. A column qualifies when counted more than once and more
often than the threshold times the number of columns, compared as floats. An analysis hands it
the counts of the columns of its filters that got an index on the base table, of the left keys on
the base table of its joins to named tables, and of its sort entries. -/
theorem composite_index_gating (a : IndexAdvisor) {usage : List (String × Nat)}
    (hkeys : (usage.map (·.1)).Nodup) (table : String) (threshold : Float) (q : Query) :
    let cols := compositeColumns usage threshold
    (cols.Pairwise (· < ·) ∧
      (∀ c, c ∈ cols ↔ ∃ n, (c, n) ∈ usage ∧ 1 < n ∧ threshold * usage.length.toFloat < n.toFloat) ∧
      (∀ e, a.composite usage table threshold = .error e → ∃ msg, e = .invalidArgument msg) ∧
      ((∃ e, a.composite usage table threshold = .error e) ↔
        ¬(threshold.isFinite = true ∧ 0 ≤ threshold ∧ threshold ≤ 1) ∨ isBlankText table = true ∨
          (2 ≤ cols.length ∧ cols.length ≤ a.maxComposite ∧ ∃ c ∈ cols, isBlankText c = true)) ∧
      ∀ ss, a.composite usage table threshold = .ok ss →
        ss.length = (if 2 ≤ cols.length ∧ cols.length ≤ a.maxComposite then 1 else 0) ∧
        ∀ s ∈ ss, s.table = table ∧ s.kind = .composite ∧ s.columns = cols ∧
          s.selectivity = powi 0.3 cols.length ∧ s.priority = .high) ∧
    (a.analyze q = if isBlankText q.table then .error (.invalidArgument "query model has no base table")
      else a.gather q >>= a.finishComposite q) ∧
    ∀ run, a.gather q = .ok run → UsageCounts run.usage (usageEvents q) := by
  intro cols
  obtain ⟨hsorted, hmem⟩ := compositeColumns_spec hkeys threshold
  exact ⟨⟨hsorted, hmem, composite_outcome a usage table threshold⟩, analyze_eq_gather a q, gather_counts a q⟩

theorem composite_index_gating_on_orders :
    let a : IndexAdvisor := ⟨3, 0.3, .degrade⟩
    let usage : List (String × Nat) := [("customer_id", 4), ("status", 3), ("total", 1)]
    let q : Query := { table := "orders", groupBy := ["status"] }
    (usage.map (·.1)).Nodup ∧
      (let cols := compositeColumns usage 0.5
      (cols.Pairwise (· < ·) ∧
        (∀ c, c ∈ cols ↔ ∃ n, (c, n) ∈ usage ∧ 1 < n ∧ (0.5 : Float) * usage.length.toFloat < n.toFloat) ∧
        (∀ e, a.composite usage "orders" 0.5 = .error e → ∃ msg, e = .invalidArgument msg) ∧
        ((∃ e, a.composite usage "orders" 0.5 = .error e) ↔
          ¬((0.5 : Float).isFinite = true ∧ 0 ≤ (0.5 : Float) ∧ (0.5 : Float) ≤ 1) ∨
            isBlankText "orders" = true ∨
            (2 ≤ cols.length ∧ cols.length ≤ a.maxComposite ∧ ∃ c ∈ cols, isBlankText c = true)) ∧
        ∀ ss, a.composite usage "orders" 0.5 = .ok ss →
          ss.length = (if 2 ≤ cols.length ∧ cols.length ≤ a.maxComposite then 1 else 0) ∧
          ∀ s ∈ ss, s.table = "orders" ∧ s.kind = .composite ∧ s.columns = cols ∧
            s.selectivity = powi 0.3 cols.length ∧ s.priority = .high) ∧
      (a.analyze q = if isBlankText q.table then .error (.invalidArgument "query model has no base table")
        else a.gather q >>= a.finishComposite q) ∧
      ∀ run, a.gather q = .ok run → UsageCounts run.usage (usageEvents q)) :=
  ⟨by decide, composite_index_gating _ (by decide) "orders" 0.5 _⟩

/-- A blank column counted often enough: the threshold is valid, the table is named and two
columns qualify, and the step still refuses. -/
theorem composite_refuses_blank_column :
    compositeColumns [("", 10), ("b", 9), ("c", 1)] 0.5 = ["", "b"] ∧
      (ofConfig {}).composite [("", 10), ("b", 9), ("c", 1)] "t" 0.5 =
        .error (.invalidArgument "index suggestion on 't' requires at least one named column") := by
  have hcols : compositeColumns [("", 10), ("b", 9), ("c", 1)] 0.5 = ["", "b"] := by
    unfold compositeColumns
    rw [List.mergeSort_of_pairwise (by decide)]
    decide
  refine ⟨hcols, ?_⟩
  rw [composite_eq, hcols]
  rfl

end IndexAdvisor

end QueryAdvisor
