import Mathlib.Data.List.Perm.Subperm
import QueryAdvisor.Proofs.KeepBest
import QueryAdvisor.Proofs.Success
/-!
# The shape of index advice

Every index suggestion comes from one of three places. A filter on a column and the key of a
join each get an index on one column, named by the part of the field after its last point, on
the table the filter names or the joined table. The composite index is on the base table, over
the counted columns that qualify, in sorted order, and only when two of them up to the widest
composite width qualify. The constructor of a suggestion refuses a blank table or column, so
what comes back names real columns. The merge at the end keeps one suggestion per table and
columns (`Proofs/KeepBest`), and every suggestion it keeps is one of those above.

The state of an analysis carries the invariant (`Run.Shaped`): the suggestions so far are
single-column suggestions on tables of the query, and the counted columns are distinct and
have no point. Each step keeps it (`leafStep_shaped`, `joinStep_shaped`). The composite step
adds at most one composite suggestion.

* `unqualified_dotless`: a column named after the last point has no point.
* `forLeaf_single`, `forJoinKeys_single`: filters and join keys get single-column indexes on a
  table of the query.
* `composite_shaped`: the composite index, when there is one, is on the base table, over two to
  the widest width of distinct counted columns, in increasing order.
* `index_advice_shape`: **the index advice for a query names each table and columns once. Each
  suggestion is on a table of the query, over named columns without a point. At most one is
  composite: on the base table, over two up to the widest width of increasing columns. Every
  other suggestion is over one column.**
-/

namespace QueryAdvisor

/-! ## Column names -/

theorem mem_trimBlank {c : Char} {s : String} (h : c ∈ (trimBlank s).toList) : c ∈ s.toList := by
  simp only [trimBlank, String.toList_ofList, List.mem_reverse] at h
  exact (List.dropWhile_sublist _).subset (List.mem_reverse.mp ((List.dropWhile_sublist _).subset h))

theorem unqualified_dotless (field : String) : '.' ∉ (unqualified field).toList := by
  intro h
  have hafter := mem_trimBlank h
  rw [String.toList_ofList, List.mem_reverse] at hafter
  have hne := List.all_eq_true.mp List.all_takeWhile '.' hafter
  simp at hne

theorem Predicate.column?_dotless {p : Predicate} {c : String} (h : p.column? = some c) : '.' ∉ c.toList := by
  obtain ⟨f, -, rfl⟩ := Option.map_eq_some_iff.mp h
  exact unqualified_dotless f

theorem Query.tableOf_mem_joinSequence (q : Query) (qualifier : Option String) :
    q.tableOf qualifier ∈ q.joinSequence := by
  unfold Query.tableOf Query.joinSequence
  split
  · split
    · next j hj => exact List.mem_cons_of_mem _ (List.mem_map_of_mem (List.mem_of_find?_eq_some hj))
    · exact List.mem_cons_self
  · exact List.mem_cons_self

/-! ## The shape of a suggestion -/

namespace IndexSuggestion

/-- A suggestion for one named column without a point, on a table of `q`, that is not a
composite index. -/
structure SingleOn (q : Query) (s : IndexSuggestion) : Prop where
  table_mem : s.table ∈ q.joinSequence
  not_composite : s.kind ≠ .composite
  column : ∃ c, s.columns = [c] ∧ isBlankText c = false ∧ '.' ∉ c.toList

/-- What a suggestion of an analysis of `q` looks like, with composite indexes at most `width`
columns wide. -/
structure Shaped (q : Query) (width : Nat) (s : IndexSuggestion) : Prop where
  table_mem : s.table ∈ q.joinSequence
  columns_ne : s.columns ≠ []
  named : ∀ c ∈ s.columns, isBlankText c = false ∧ '.' ∉ c.toList
  composite : s.kind = .composite →
    s.table = q.table ∧ 2 ≤ s.columns.length ∧ s.columns.length ≤ width ∧ s.columns.Pairwise (· < ·)
  single : s.kind ≠ .composite → s.columns.length = 1

theorem SingleOn.shaped {q : Query} {s : IndexSuggestion} (h : s.SingleOn q) (width : Nat) : s.Shaped q width := by
  obtain ⟨c, hcols, hblank, hdot⟩ := h.column
  refine ⟨h.table_mem, by simp [hcols], fun c' hc' => ?_, fun hk => absurd hk h.not_composite,
    fun _ => by simp [hcols]⟩
  rw [hcols, List.mem_singleton] at hc'
  exact hc' ▸ ⟨hblank, hdot⟩

/-- A suggestion is made only for a table that is not blank and named columns, and keeps its
table, columns and kind. -/
theorem make_okOnly (table : String) (columns : List String) (kind : IndexKind) (selectivity : Float) :
    OkOnly (fun s => s.table = table ∧ s.columns = columns ∧ s.kind = kind ∧ columns ≠ [] ∧
      ∀ c ∈ columns, isBlankText c = false) (make table columns kind selectivity) := by
  unfold make
  split
  · exact OkOnly.error _
  · split
    · exact OkOnly.error _
    · next hcols =>
      simp only [Bool.or_eq_true, List.isEmpty_iff, List.any_eq_true, not_or, not_exists, not_and,
        Bool.not_eq_true] at hcols
      exact OkOnly.ok ⟨rfl, rfl, rfl, hcols.1, hcols.2⟩

end IndexSuggestion

/-! ## Counted columns -/

/-- Column counts with each column once and no column with a point. -/
structure UsageKeyed (usage : List (String × Nat)) : Prop where
  nodup : (usage.map (·.1)).Nodup
  dotless : ∀ c ∈ usage.map (·.1), '.' ∉ c.toList

theorem any_key_iff (usage : List (String × Nat)) (column : String) :
    usage.any (·.1 == column) = true ↔ column ∈ usage.map (·.1) := by
  simp [List.any_eq_true, List.mem_map]

theorem bumpUsage_of_mem {usage : List (String × Nat)} {column : String} (hmem : column ∈ usage.map (·.1)) :
    bumpUsage usage column = usage.map (fun u => if u.1 == column then (u.1, u.2 + 1) else u) :=
  if_pos ((any_key_iff usage column).mpr hmem)

theorem bumpUsage_of_not_mem {usage : List (String × Nat)} {column : String}
    (hmem : column ∉ usage.map (·.1)) : bumpUsage usage column = usage ++ [(column, 1)] :=
  if_neg (mt (any_key_iff usage column).mp hmem)

theorem bumpUsage_keys (usage : List (String × Nat)) (column : String) :
    (bumpUsage usage column).map (·.1) =
      if column ∈ usage.map (·.1) then usage.map (·.1) else usage.map (·.1) ++ [column] := by
  by_cases hmem : column ∈ usage.map (·.1)
  · rw [bumpUsage_of_mem hmem, if_pos hmem, List.map_map]
    refine List.map_congr_left (fun u _ => ?_)
    simp only [Function.comp_apply]
    split <;> rfl
  · rw [bumpUsage_of_not_mem hmem, if_neg hmem]
    simp

theorem UsageKeyed.bump {usage : List (String × Nat)} (h : UsageKeyed usage) {column : String}
    (hdot : '.' ∉ column.toList) : UsageKeyed (bumpUsage usage column) := by
  have hkeys := bumpUsage_keys usage column
  split at hkeys
  · constructor <;> rw [hkeys]
    exacts [h.nodup, h.dotless]
  · next hnew =>
    constructor <;> rw [hkeys]
    · refine List.nodup_append.mpr ⟨h.nodup, List.nodup_singleton _, fun a ha b hb => ?_⟩
      rw [List.mem_singleton.mp hb]
      rintro rfl
      exact hnew ha
    · intro c hc
      rcases List.mem_append.mp hc with hc | hc
      · exact h.dotless c hc
      · exact List.mem_singleton.mp hc ▸ hdot

theorem UsageKeyed.foldl_bump {usage : List (String × Nat)} (h : UsageKeyed usage) :
    ∀ {columns : List String}, (∀ c ∈ columns, '.' ∉ c.toList) → UsageKeyed (columns.foldl bumpUsage usage)
  | [], _ => h
  | c :: rest, hcols => by
    rw [List.foldl_cons]
    exact (h.bump (hcols c List.mem_cons_self)).foldl_bump (fun c' hc' => hcols c' (List.mem_cons_of_mem c hc'))

/-- The columns of a composite index: the counted columns that qualify, sorted. With each column
counted once, each is a counted column, and they strictly increase. -/
theorem sorted_keys {usage : List (String × Nat)} (hkeys : (usage.map (·.1)).Nodup) (p : String × Nat → Bool) :
    let columns := ((usage.filter p).map (·.1)).mergeSort (fun x y => decide (x ≤ y))
    (∀ c ∈ columns, c ∈ usage.map (·.1)) ∧ columns.Pairwise (· < ·) := by
  intro columns
  have hsub : ((usage.filter p).map (·.1)).Sublist (usage.map (·.1)) := (List.filter_sublist).map _
  have hperm := List.mergeSort_perm ((usage.filter p).map (·.1)) (fun x y => decide (x ≤ y))
  have hnodup : columns.Nodup := hperm.nodup_iff.mpr (hkeys.sublist hsub)
  have hsorted : columns.Pairwise (fun x y => decide (x ≤ y)) :=
    List.pairwise_mergeSort (fun x y z hxy hyz => by simp only [decide_eq_true_eq] at *; exact String.le_trans hxy hyz)
      (fun x y => by simpa only [Bool.or_eq_true, decide_eq_true_eq] using String.le_total x y) _
  refine ⟨fun c hc => hsub.subset (hperm.mem_iff.mp hc), ?_⟩
  refine (hsorted.and hnodup).imp (fun ⟨hle, hne⟩ => ?_)
  simp only [decide_eq_true_eq] at hle
  exact String.not_le.mp (fun hyx => hne (String.le_antisymm hle hyx))

theorem UsageKeyed.sorted_columns {usage : List (String × Nat)} (h : UsageKeyed usage) (p : String × Nat → Bool) :
    let columns := ((usage.filter p).map (·.1)).mergeSort (fun x y => decide (x ≤ y))
    (∀ c ∈ columns, c ∈ usage.map (·.1)) ∧ columns.Pairwise (· < ·) :=
  sorted_keys h.nodup p

/-! ## The steps of an analysis -/

namespace IndexAdvisor

open IndexSuggestion

variable (a : IndexAdvisor) (q : Query)

theorem leafReason_ne_composite {leaf : Predicate} {column shown : String} {k : IndexKind} {r : String}
    (h : leafReason leaf column shown = some (k, r)) : k ≠ .composite := by
  unfold leafReason at h
  split at h <;> cases h <;> decide

theorem forLeaf_single (leaf : Predicate) :
    OkOnly (fun found => ∀ s, found = some s → s.SingleOn q) (forLeaf leaf (q.tableOf leaf.qualifier?)) := by
  unfold forLeaf
  split
  · exact OkOnly.ok (fun _ h => by cases h)
  · next column hcol =>
    split
    · exact OkOnly.error _
    · dsimp only
      split
      · exact OkOnly.ok (fun _ h => by cases h)
      · next kind reason hreason =>
        refine (make_okOnly _ _ _ _).bind (fun s hs => OkOnly.ok ?_)
        obtain ⟨htable, hcols, hkind, -, hnamed⟩ := hs
        rintro s' ⟨⟩
        refine ⟨?_, ?_, column, hcols, hnamed column List.mem_cons_self, Predicate.column?_dotless hcol⟩
        · exact htable ▸ q.tableOf_mem_joinSequence _
        · exact hkind ▸ leafReason_ne_composite hreason

theorem forJoinKeys_single (field : String) {j : Join} (hj : j ∈ q.joins) :
    OkOnly (fun ss => ∀ s ∈ ss, s.SingleOn q) (forJoinKeys [field] j.table) := by
  have hmem : j.table ∈ q.joinSequence := List.mem_cons_of_mem _ (List.mem_map_of_mem hj)
  unfold forJoinKeys
  refine OkOnly.bind_of_forall (fun _ => OkOnly.mapM (fun f _ => ?_))
  dsimp only
  split
  · exact OkOnly.error _
  · refine (make_okOnly _ _ _ _).bind (fun s hs => OkOnly.ok ?_)
    obtain ⟨htable, hcols, hkind, -, hnamed⟩ := hs
    refine ⟨htable ▸ hmem, ?_, unqualified f, hcols, hnamed _ List.mem_cons_self, unqualified_dotless f⟩
    rw [hkind]
    decide

/-- The state of an analysis of `q` before its composite index: single-column suggestions on
tables of `q`, and counted columns that are distinct and have no point. -/
structure Run.Shaped (run : Run) : Prop where
  singles : ∀ s ∈ run.suggestions, s.SingleOn q
  usage : UsageKeyed run.usage

variable {q}

theorem Run.Shaped.singles_append {run : Run} (h : run.Shaped q) {ss : List IndexSuggestion}
    (hss : ∀ s ∈ ss, s.SingleOn q) : ∀ s ∈ run.suggestions ++ ss, s.SingleOn q :=
  fun s hs => (List.mem_append.mp hs).elim (h.singles s) (hss s)

theorem Run.Shaped.count {run : Run} (h : run.Shaped q) (b : Bool) (field : String) :
    Run.Shaped q (if b then { run with usage := bumpUsage run.usage (unqualified field) } else run) := by
  split
  · exact ⟨h.singles, h.usage.bump (unqualified_dotless field)⟩
  · exact h

theorem absorb_shaped {run : Run} (h : run.Shaped q) (e : AdviceError) : OkOnly (Run.Shaped q) (a.absorb run e) := by
  unfold absorb
  split
  · exact OkOnly.ok ⟨h.singles, h.usage⟩
  · exact OkOnly.error _

/-- **A filter keeps the shape of the analysis.** -/
theorem leafStep_shaped {run : Run} (h : run.Shaped q) (leaf : Predicate) :
    OkOnly (Run.Shaped q) (a.leafStep q run leaf) := by
  unfold leafStep
  dsimp only
  split
  · next s hleaf =>
    have hsingle := forLeaf_single q leaf _ hleaf s rfl
    obtain ⟨c, hcols, -, hdot⟩ := hsingle.column
    refine OkOnly.ok ⟨h.singles_append (fun s' hs' => List.mem_singleton.mp hs' ▸ hsingle), ?_⟩
    dsimp only
    split
    · rw [hcols]
      exact h.usage.foldl_bump (fun c' hc' => List.mem_singleton.mp hc' ▸ hdot)
    · exact h.usage
  · exact OkOnly.ok h
  · exact a.absorb_shaped h _

/-- **A join keeps the shape of the analysis.** -/
theorem joinStep_shaped {run : Run} (h : run.Shaped q) {j : Join} (hj : j ∈ q.joins) :
    OkOnly (Run.Shaped q) (a.joinStep q run j) := by
  unfold joinStep
  split
  · exact a.absorb_shaped h _
  · dsimp only
    split
    · next ss hk =>
      have hkeys : Run.Shaped q { run with suggestions := run.suggestions ++ ss } :=
        ⟨h.singles_append (forJoinKeys_single q j.rightField hj ss hk), h.usage⟩
      exact (OkOnly.ok hkeys).bind (fun run' h' => OkOnly.ok (h'.count _ _))
    · exact (a.absorb_shaped h _).bind (fun run' h' => OkOnly.ok (h'.count _ _))

/-- **The composite index, when there is one, is on the base table, over two up to the widest
width of distinct counted columns without a point, in increasing order.** -/
theorem composite_shaped {usage : List (String × Nat)} (hu : UsageKeyed usage) (threshold : Float) :
    OkOnly (fun ss => ss.length ≤ 1 ∧ ∀ s ∈ ss, s.kind = .composite ∧ s.Shaped q a.maxComposite)
      (a.composite usage q.table threshold) := by
  unfold composite
  refine OkOnly.bind_of_forall (fun _ => OkOnly.bind_of_forall (fun _ => ?_))
  dsimp only
  obtain ⟨hcounted, hincreasing⟩ :=
    hu.sorted_columns (fun u => u.2 > 1 && u.2.toFloat > threshold * usage.length.toFloat)
  split
  · exact OkOnly.ok ⟨by simp, by simp⟩
  · next hwidth =>
    simp only [Bool.or_eq_true, decide_eq_true_eq, not_or, Nat.not_lt] at hwidth
    refine (make_okOnly _ _ _ _).bind (fun s hs => OkOnly.ok ⟨by simp, ?_⟩)
    obtain ⟨htable, hcols, hkind, hne, hnamed⟩ := hs
    intro s' hs'
    rw [List.mem_singleton.mp hs']
    dsimp only
    rw [htable, hcols, hkind]
    exact ⟨rfl, List.mem_cons_self, hne, fun c hc => ⟨hnamed c hc, hu.dotless c (hcounted c hc)⟩,
      fun _ => ⟨rfl, hwidth.1, hwidth.2, hincreasing⟩, fun hk => absurd rfl hk⟩

/-! ## The merge -/

variable {width : Nat}

/-- **Merging single-column suggestions on tables of `q` and at most one composite keeps one
suggestion per table and columns, each of the right shape, and at most one composite.** -/
theorem merge_shaped {singles ss : List IndexSuggestion} (hsingles : ∀ s ∈ singles, s.SingleOn q)
    (hss : ss.length ≤ 1 ∧ ∀ s ∈ ss, s.kind = .composite ∧ s.Shaped q width) :
    let merged := (singles ++ ss).foldl merge []
    merged.Pairwise (fun s t => (s.table, s.columns) ≠ (t.table, t.columns)) ∧
      (merged.filter (·.kind == .composite)).length ≤ 1 ∧ ∀ s ∈ merged, s.Shaped q width := by
  intro merged
  have hkeep : KeepsBest (fun s : IndexSuggestion => (s.table, s.columns)) (·.priority.rank) (singles ++ ss) merged :=
    keepsBest_foldl _ _ _
  have hmem : ∀ s ∈ merged, s ∈ singles ∨ s ∈ ss := fun s hs => List.mem_append.mp (hkeep.best s hs).mem
  refine ⟨List.pairwise_map.mp hkeep.nodup, ?_, fun s hs => ?_⟩
  · have hnodup : (merged.filter (·.kind == .composite)).Nodup := (hkeep.nodup.of_map _).filter _
    have hsub : merged.filter (·.kind == .composite) ⊆ ss := by
      intro s hs
      obtain ⟨hs, hkind⟩ := List.mem_filter.mp hs
      refine (hmem s hs).resolve_left (fun hsingle => (hsingles s hsingle).not_composite ?_)
      simpa using hkind
    exact Nat.le_trans (hnodup.subperm hsub).length_le hss.1
  · rcases hmem s hs with hsingle | hcomposite
    · exact (hsingles s hsingle).shaped width
    · exact (hss.2 s hcomposite).2

end IndexAdvisor

/-! ## The whole analysis -/

open IndexAdvisor in
/-- **The index advice for a query names each table and columns once. Each suggestion is on a
table of the query, over named columns without a point. At most one is composite: on the base
table, over two up to the widest composite width of increasing columns. Every other suggestion
is over one column.** -/
theorem index_advice_shape (c : Config) (q : Query) {adv : IndexAdvice}
    (h : (IndexAdvisor.ofConfig c).analyze q = .ok adv) :
    adv.suggestions.Pairwise (fun s t => (s.table, s.columns) ≠ (t.table, t.columns)) ∧
      (adv.suggestions.filter (·.kind == .composite)).length ≤ 1 ∧
      ∀ s ∈ adv.suggestions, s.Shaped q (max c.maxCompositeIndexColumns 1) := by
  let a := IndexAdvisor.ofConfig c
  unfold analyze at h
  split at h
  · cases h
  · have hs₀ : Run.Shaped q {} :=
      ⟨fun _ h => absurd h List.not_mem_nil, List.nodup_nil, fun _ h => absurd h List.not_mem_nil⟩
    obtain ⟨run₁, h₁, h⟩ := Except.bind_eq_ok.mp h
    have hs₁ : run₁.Shaped q :=
      OkOnly.foldlM (Run.Shaped q) (fun t leaf _ ht => a.leafStep_shaped ht leaf) hs₀ run₁ h₁
    obtain ⟨run₂, h₂, h⟩ := Except.bind_eq_ok.mp h
    have hs₂ : run₂.Shaped q := OkOnly.foldlM (Run.Shaped q) (fun t j hj ht => a.joinStep_shaped ht hj) hs₁ run₂ h₂
    have hs₃ : Run.Shaped q { run₂ with
        usage := (((q.groupBy ++ q.orderBy.map (·.column)).map unqualified).filter (!·.isEmpty)).foldl bumpUsage run₂.usage } := by
      refine ⟨hs₂.singles, hs₂.usage.foldl_bump (fun col hcol => ?_)⟩
      obtain ⟨field, -, rfl⟩ := List.mem_map.mp (List.mem_filter.mp hcol).1
      exact unqualified_dotless field
    dsimp only at h
    split at h
    · next ss hss =>
      obtain ⟨run₄, h₄, h⟩ := Except.bind_eq_ok.mp h
      cases h₄
      cases h
      exact merge_shaped hs₂.singles (a.composite_shaped hs₃.usage _ ss hss)
    · obtain ⟨run₄, h₄, h⟩ := Except.bind_eq_ok.mp h
      cases h
      have hs₄ := a.absorb_shaped hs₃ _ run₄ h₄
      rw [← List.append_nil run₄.suggestions]
      exact merge_shaped hs₄.singles ⟨Nat.zero_le 1, fun _ h => absurd h List.not_mem_nil⟩

theorem index_advice_shape_on_orders :
    let c : Config := {}
    let q : Query :=
      { table := "orders"
        predicates := [.comparison "o.status" .eq (.string "open"), .nullCheck "region" true]
        joins := [⟨"users", some "u", .inner, "orders.user_id", "u.id"⟩]
        groupBy := ["created"] }
    ∃ adv, (IndexAdvisor.ofConfig c).analyze q = .ok adv ∧
      (adv.suggestions.Pairwise (fun s t => (s.table, s.columns) ≠ (t.table, t.columns)) ∧
        (adv.suggestions.filter (·.kind == .composite)).length ≤ 1 ∧
        ∀ s ∈ adv.suggestions, s.Shaped q (max c.maxCompositeIndexColumns 1)) := by
  intro c q
  obtain ⟨adv, h⟩ := Except.exists_ok_of_isOk (x := (IndexAdvisor.ofConfig c).analyze q) (by decide +kernel)
  exact ⟨adv, h, index_advice_shape c q h⟩

end QueryAdvisor
