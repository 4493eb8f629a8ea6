import QueryAdvisor.Proofs.MoveSources
/-!
# Pushes below joins land on inner joins

The join graph of a query lists the base table, with no kind of join, and then each joined
table with the kind of its join (`JoinGraph.ofQuery_tables`). A predicate can be pushed to a
table when it has a leaf and some entry of the graph with that name, joined by an inner or a
cross join, qualifies every leaf by its name or alias (`JoinGraph.canPush_iff`). The base table
has no kind of join, so for a query this is a join clause that takes the push
(`Join.TakesPush`, `JoinGraph.ofQuery_canPush_iff`).

Each push below a join names a table that the graph accepts, so every push the advisor makes,
and every push it returns, lands on an inner or cross join that qualifies all the predicate's
leaves. Fragments of SQL have no leaves and are left out of this check: a fragment on its own
is never pushed, but one inside a connective is not looked at.

* `JoinGraph.ofQuery_tables`, `JoinGraph.canPush_iff`, `JoinGraph.ofQuery_canPush_iff`: the
  graph of a query and what it accepts.
* `PushdownAdvisor.pushes_land_on_inner_joins`: **every push below a join, made or returned,
  carries the predicate at its position, has a leaf, and lands on an inner or cross join whose
  name or alias qualifies every leaf.**
-/

namespace QueryAdvisor

/-- A join clause that can take a predicate pushed to the table `T`: an inner or a cross join
of a table named `T` up to ASCII case, whose table name or alias qualifies every leaf of the
predicate. -/
def Join.TakesPush (j : Join) (p : Predicate) (T : String) : Prop :=
  (j.kind = .inner ∨ j.kind = .cross) ∧ sameName j.table T = true ∧
    ∀ l ∈ p.leaves, ∃ name, l.qualifier? = some name ∧ j.matchesName name = true

/-- A push below a join of `q` that the query bears out: it carries the predicate at its
position, the predicate has a leaf, and a join clause of the target table takes it. -/
structure PushdownSuggestion.PushedSoundly (q : Query) (s : PushdownSuggestion) : Prop where
  predicate_eq : q.predicates[s.fromPos]? = some s.predicate
  has_leaf : s.predicate.leaves ≠ []
  target : ∃ T, s.target = some T ∧ ∃ j ∈ q.joins, j.TakesPush s.predicate T

namespace JoinGraph

/-! ## The join graph of a query -/

theorem addJoins_tables (base : String) :
    ∀ (tables : List GraphTable) (rels : List Relationship) (js : List Join),
      (addJoins base tables rels js).1 = tables ++ js.map (fun j => ⟨j.table, j.aliasName, some j.kind⟩)
  | tables, rels, [] => by simp [addJoins]
  | tables, rels, j :: rest => by simp [addJoins, addJoins_tables base _ _ rest]

/-- The graph of a query lists the base table, with no kind of join, then each joined table
with the kind of its join. -/
theorem ofQuery_tables (q : Query) :
    (ofQuery q).tables = ⟨q.table, q.aliasName, none⟩ :: q.joins.map (fun j => ⟨j.table, j.aliasName, some j.kind⟩) := by
  simp [ofQuery, addJoins_tables]

theorem getD_map_eq_true {α : Type} {o : Option α} {f : α → Bool} :
    (o.map f).getD false = true ↔ ∃ x, o = some x ∧ f x = true := by
  cases o <;> simp

/-- A graph accepts a push of `p` to `T` when `p` has a leaf and an entry named `T`, joined by
an inner or cross join, qualifies every leaf. -/
theorem canPush_iff (g : JoinGraph) (p : Predicate) (T : String) :
    g.canPush p T = true ↔ p.leaves ≠ [] ∧
      ∃ t ∈ g.tables, sameName t.name T = true ∧ (t.kind = some .inner ∨ t.kind = some .cross) ∧
        ∀ l ∈ p.leaves, ∃ name, l.qualifier? = some name ∧ t.matches name = true := by
  simp only [canPush, Bool.and_eq_true, Bool.not_eq_true', List.isEmpty_eq_false_iff, List.any_eq_true,
    List.all_eq_true, Bool.or_eq_true, beq_iff_eq, getD_map_eq_true, and_assoc]

/-- **The graph of a query accepts a push exactly when the predicate has a leaf and a join
clause takes it**: the base table has no kind of join. -/
theorem ofQuery_canPush_iff (q : Query) (p : Predicate) (T : String) :
    (ofQuery q).canPush p T = true ↔ p.leaves ≠ [] ∧ ∃ j ∈ q.joins, j.TakesPush p T := by
  rw [canPush_iff, ofQuery_tables]
  constructor
  · rintro ⟨hleaf, t, ht, hname, hkind, hleaves⟩
    rcases List.mem_cons.mp ht with rfl | ht
    · simp at hkind
    · obtain ⟨j, hj, rfl⟩ := List.mem_map.mp ht
      exact ⟨hleaf, j, hj, by simpa using hkind, hname, hleaves⟩
  · rintro ⟨hleaf, j, hj, hkind, hname, hleaves⟩
    exact ⟨hleaf, _, List.mem_cons_of_mem _ (List.mem_map_of_mem hj), hname, by simpa using hkind, hleaves⟩

end JoinGraph

/-! ## The pushes -/

namespace PushdownAdvisor

theorem pushToJoins_pushedSoundly (q : Query) :
    ∀ s ∈ pushToJoins q.predicates (JoinGraph.ofQuery q), s.kind = .pushToJoinSource ∧ s.PushedSoundly q := by
  intro s hs
  obtain ⟨hkind, T, htarget, hpush⟩ := pushToJoins_target _ _ s hs
  obtain ⟨hleaf, hjoin⟩ := (JoinGraph.ofQuery_canPush_iff q s.predicate T).mp hpush
  exact ⟨hkind, (pushToJoins_movesWithin _ _ s hs).predicate_eq, hleaf, T, htarget, hjoin⟩

/-- **Pushes below joins land on inner joins.** Every push below a join that the advisor makes
for a query, and every push among the moves it returns, carries the predicate at its position,
that predicate has a leaf, and the table it names is, up to ASCII case, the table of an inner or
cross join clause whose table name or alias qualifies every leaf of the predicate. So nothing
is pushed to a table that is only the base table or only the null-supplying side of outer
joins. -/
theorem pushes_land_on_inner_joins (a : PushdownAdvisor) (q : Query) :
    (∀ s ∈ pushToJoins q.predicates (JoinGraph.ofQuery q), s.kind = .pushToJoinSource ∧ s.PushedSoundly q) ∧
      ∀ moves, a.analyze q = .ok moves → ∀ s ∈ moves, s.kind = .pushToJoinSource → s.PushedSoundly q := by
  refine ⟨pushToJoins_pushedSoundly q, fun moves h s hs hkind => ?_⟩
  obtain ⟨toIndexes, hidx, hcand⟩ := a.mem_candidates_of_analyze h hs
  have hkinds : ∀ s ∈ toIndexes, s.kind = .indexFriendlyReorder :=
    fun s hs => (forIndexes_moves _ _ toIndexes hidx s hs).kind_eq
  obtain ⟨-, hpush⟩ := (a.candidates_of_kind q hkinds hcand).1 hkind
  exact (pushToJoins_pushedSoundly q s hpush).2

theorem pushes_land_on_inner_joins_on_orders :
    let a : PushdownAdvisor := ⟨0.3, {}⟩
    let q : Query :=
      { table := "users", aliasName := some "u"
        predicates := [.comparison "o.status" .eq (.string "paid")]
        joins := [⟨"orders", some "o", .inner, "u.id", "user_id"⟩, ⟨"payments", none, .left, "o.id", "order_id"⟩] }
    (∃ s ∈ pushToJoins q.predicates (JoinGraph.ofQuery q), s.kind = .pushToJoinSource ∧ s.PushedSoundly q) ∧
      ∃ moves, a.analyze q = .ok moves ∧ ∃ s ∈ moves, s.kind = .pushToJoinSource ∧ s.PushedSoundly q := by
  intro a q
  have hq : isBlankText q.table = false := by decide
  have hpushes : (pushToJoins q.predicates (JoinGraph.ofQuery q)).isEmpty = false := by decide +kernel
  obtain ⟨s, hs⟩ := List.exists_mem_of_ne_nil _ (by simpa using hpushes)
  -- the moves kept before they are sorted by position, which the kernel does not evaluate
  obtain ⟨moves, hm, s', hs', hkind⟩ := a.exists_move_of_kept hq .pushToJoinSource (by decide +kernel)
  exact ⟨⟨s, hs, (pushes_land_on_inner_joins a q).1 s hs⟩,
    moves, hm, s', hs', hkind, (pushes_land_on_inner_joins a q).2 moves hm s' hs' hkind⟩

end PushdownAdvisor

end QueryAdvisor
