import Mathlib.Data.List.DropRight
import Mathlib.Data.List.TakeWhile
import QueryAdvisor.Proofs.IndexShape
import QueryAdvisor.Proofs.MoveSources
/-!
# What a move towards an index cites

The placement advisor moves a predicate one place up when its column is indexed. It first
collects the indexed columns of the query: for each top-level predicate with a column, it asks
the statistics whether the predicate's own table (the join its qualifier names, else the base
table) has an index on that column, and keeps the column's name, once up to ASCII case
(`PushdownAdvisor.indexedColumns_indexed`). It then moves every predicate whose column has one
of those names.

The table is dropped on the way: only the column's name is kept. So a move towards an index
cites a column that is indexed on the table of some predicate on a column of that name, which
need not be the moved predicate's own table. Two predicates on `orders.status` and on a
`status` of the base table both move when only `orders` indexes `status`.

Column names compare the same way in both steps: a column is the text after the last point
without white space around it, so taking the column of a column changes nothing
(`unqualified_unqualified`), and two columns of one name up to ASCII case have the same
normalized name in the statistics (`normalizeName_unqualified_column`).

* `trimBlank_trimBlank`, `unqualified_unqualified`: trimming and taking the column are
  idempotent.
* `PushdownAdvisor.indexedColumns_indexed`: every collected column is indexed on the table of a
  predicate on it.
* `PushdownAdvisor.index_moves_cite_indexed_columns`: **every move towards an index that the
  advisor returns carries the predicate at its position one place up, and its column is
  indexed on the table of some predicate on a column of the same name.**
-/

namespace QueryAdvisor

/-! ## Column names -/

theorem trimBlank_eq (s : String) :
    trimBlank s = String.ofList ((s.toList.dropWhile isBlank).rdropWhile isBlank) := rfl

theorem trimBlank_trimBlank (s : String) : trimBlank (trimBlank s) = trimBlank s := by
  rw [trimBlank_eq (trimBlank s), trimBlank_eq s, String.toList_ofList]
  congr 1
  generalize hL : s.toList.dropWhile isBlank = L
  have hfront : (L.rdropWhile isBlank).dropWhile isBlank = L.rdropWhile isBlank := by
    rw [List.dropWhile_eq_self_iff]
    intro hl
    have hpre : L.rdropWhile isBlank <+: L := List.rdropWhile_prefix isBlank L
    have hL0 : 0 < L.length := Nat.lt_of_lt_of_le hl hpre.length_le
    rw [hpre.getElem hl]
    have := List.dropWhile_get_zero_not isBlank s.toList (by rw [hL]; exact hL0)
    simpa [hL] using this
  rw [hfront, List.rdropWhile_idempotent]

theorem unqualified_unqualified (field : String) : unqualified (unqualified field) = unqualified field := by
  have hdot := unqualified_dotless field
  have hall : (unqualified field).toList.reverse.takeWhile (· != '.') = (unqualified field).toList.reverse := by
    rw [List.takeWhile_eq_self_iff]
    intro c hc
    have : c ≠ '.' := fun h => hdot (h ▸ List.mem_reverse.mp hc)
    simpa using this
  conv_lhs => rw [unqualified, hall, List.reverse_reverse, String.ofList_toList]
  exact trimBlank_trimBlank _

theorem normalizeName_unqualified_column {p : Predicate} {c : String} (h : p.column? = some c) :
    normalizeName (unqualified c) = c.toLower := by
  obtain ⟨f, -, rfl⟩ := Option.map_eq_some_iff.mp h
  rw [unqualified_unqualified, normalizeName, unqualified, trimBlank_trimBlank]

theorem hasIndex_of_sameName (stats : Statistics) (table : String) {p p' : Predicate} {c c' : String}
    (h : p.column? = some c) (h' : p'.column? = some c') (hsame : sameName c c' = true) :
    stats.hasIndex table c = stats.hasIndex table c' := by
  have hlower : c.toLower = c'.toLower := beq_iff_eq.mp hsame
  simp only [Statistics.hasIndex, normalizeName_unqualified_column h, normalizeName_unqualified_column h', hlower]

/-! ## The indexed columns -/

namespace PushdownAdvisor

/-- **Every collected column is indexed on the table of a top-level predicate on it.** -/
theorem indexedColumns_indexed (a : PushdownAdvisor) (q : Query) :
    ∀ c ∈ a.indexedColumns q, ∃ p ∈ q.predicates, p.column? = some c ∧
      a.stats.hasIndex (q.tableOf p.qualifier?) c = true := by
  unfold indexedColumns
  refine List.foldlRecOn (motive := fun cols => ∀ c ∈ cols, ∃ p ∈ q.predicates, p.column? = some c ∧
      a.stats.hasIndex (q.tableOf p.qualifier?) c = true) _ _ (by simp) (fun cols hcols p hp => ?_)
  intro c hc
  dsimp only at hc
  split at hc
  · next column hcol =>
    split at hc
    · exact hcols c hc
    · split at hc
      · next hindexed =>
        rcases List.mem_append.mp hc with hc | hc
        · exact hcols c hc
        · rw [List.mem_singleton] at hc
          subst hc
          exact ⟨p, hp, hcol, (Bool.and_eq_true _ _ ▸ hindexed).1⟩
      · exact hcols c hc
  · exact hcols c hc

/-- A move towards an index of `q` as the statistics bear it out: it carries the predicate at
its position one place up, the predicate's column is not empty and is what its reason names,
and some top-level predicate of `q` has a column of the same name up to ASCII case that the
statistics index on that predicate's table. -/
structure IndexCited (stats : TableStatistics) (q : Query) (s : PushdownSuggestion) : Prop where
  predicate_eq : q.predicates[s.fromPos]? = some s.predicate
  toPos_eq : s.toPos = s.fromPos - 1
  column : ∃ column, s.predicate.column? = some column ∧ column ≠ "" ∧
    s.reason = "Column '" ++ column ++ "' is indexed; evaluating `" ++ s.predicate.sql ++
      "` earlier lets the index narrow the scan" ∧
    ∃ p ∈ q.predicates, ∃ c, p.column? = some c ∧ sameName c column = true ∧
      stats.hasIndex (q.tableOf p.qualifier?) c = true

/-- **What a move towards an index cites.** For every query and every source of statistics,
each move towards an index that the placement advisor returns carries the predicate at its
position and moves it one place up; the predicate's column is not empty and is the column its
reason calls indexed; and some top-level predicate has a column of that name up to ASCII case
that the statistics index on that predicate's table, which need not be the moved predicate's
own table. A snapshot then indexes the named column itself (`IndexCited.hasIndex_column`). -/
theorem index_moves_cite_indexed_columns (a : PushdownAdvisor) (q : Query) :
    ∀ moves, a.analyze q = .ok moves → ∀ s ∈ moves, s.kind = .indexFriendlyReorder → IndexCited a.stats q s := by
  intro moves h s hs hkind
  obtain ⟨toIndexes, hidx, hcand⟩ := a.mem_candidates_of_analyze h hs
  have hmoves := forIndexes_moves _ _ toIndexes hidx
  have hmove : IndexMove q.predicates (a.indexedColumns q) s :=
    hmoves s ((a.candidates_of_kind q (fun s hs => (hmoves s hs).kind_eq) hcand).2 hkind)
  obtain ⟨column, hcol, hne, ⟨c, hc, hsame⟩, hreason⟩ := hmove.column
  obtain ⟨p, hp, hpcol, hindexed⟩ := a.indexedColumns_indexed q c hc
  have hsame' : sameName c column = true := by
    obtain ⟨f, -, rfl⟩ := Option.map_eq_some_iff.mp hpcol
    simpa [unqualified_unqualified] using hsame
  exact ⟨hmove.predicate_eq, hmove.toPos_eq, column, hcol, hne, hreason, p, hp, c, hpcol, hsame', hindexed⟩

/-- A snapshot, which keys columns without regard to case, indexes the column a cited move names
on the table of the predicate that bears it out. -/
theorem IndexCited.hasIndex_column {stats : Statistics} {q : Query} {s : PushdownSuggestion}
    (h : IndexCited stats q s) :
    ∃ column, s.predicate.column? = some column ∧
      ∃ p ∈ q.predicates, p.column?.isSome ∧ stats.hasIndex (q.tableOf p.qualifier?) column = true := by
  obtain ⟨column, hcol, -, -, p, hp, c, hpcol, hsame, hindexed⟩ := h.column
  have hc : stats.hasIndex (q.tableOf p.qualifier?) c = true := hindexed
  rw [hasIndex_of_sameName stats _ hpcol hcol hsame] at hc
  exact ⟨column, hcol, p, hp, Option.isSome_of_eq_some hpcol, hc⟩

theorem index_moves_cite_indexed_columns_on_users :
    let a : PushdownAdvisor := ⟨0.3, ({} : Statistics).withIndex "users" "score"⟩
    let q : Query := { table := "users", predicates := [.comparison "score" .lt (.int 5)] }
    ∃ moves, a.analyze q = .ok moves ∧ ∃ s ∈ moves, s.kind = .indexFriendlyReorder ∧ IndexCited a.stats q s := by
  intro a q
  have hq : isBlankText q.table = false := by decide
  -- the moves kept before they are sorted by position, which the kernel does not evaluate
  obtain ⟨moves, hm, s, hs, hkind⟩ := a.exists_move_of_kept hq .indexFriendlyReorder (by decide +kernel)
  exact ⟨moves, hm, s, hs, hkind, index_moves_cite_indexed_columns a q moves hm s hs hkind⟩

end PushdownAdvisor

end QueryAdvisor
