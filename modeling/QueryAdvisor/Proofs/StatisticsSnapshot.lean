import Mathlib.Data.List.Induction
import Mathlib.Data.String.Basic
import QueryAdvisor.Statistics
/-!
# The statistics snapshot is a map on normalized keys

A snapshot of statistics is built by a sequence of calls: row counts, join selectivities and
indexes registered by name, and new defaults. This file reads every lookup of a built snapshot
back to the calls that built it.

Names are normalized (no white space around them, ASCII letters in lower case), and a join key
is the pair of normalized tables, lesser first, with the normalized column of the key field.
Registering replaces the entry of its key, so a lookup finds the last call that registered that
key. Hence a row count is the last one registered for a table of the same normalized name, else
the last default. A join selectivity is the last one registered for the same two tables in
either order and the same column, clamped to `[0, 1]`, else the last default, clamped. Indexes
are a set of normalized table and field names. A lookup strips the qualifier of the field it is
asked about, but registration keeps the field as written: an index registered on `o.user_id`
is stored under `o.user_id` and looked up under `user_id`, so it is never found.

* `find?_setEntry`: a lookup after the entry of a key is replaced.
* `joinKey_eq_iff`, `joinKey_comm`: a join key stands for an unordered pair of tables and a
  column.
* `registeredRows_apply`, `registeredSelectivity_apply`, `mem_indexes_apply` and the two
  defaults: what one call does to each part of a snapshot.
* `view_build`: a part that each call sets or leaves alone holds what the last call that set
  it says; `rowCount_build`, `joinSelectivity_build`, `indexes_build` follow.
* `Statistics.lookups_of_build`: **what every lookup of a built snapshot answers.**
-/

namespace QueryAdvisor

/-! ## Entries replaced by key -/

/-- A lookup after the entry of `key` is replaced finds the new entry if it looks for `key`,
and otherwise what it found before. -/
theorem find?_setEntry {κ α : Type} [BEq κ] [LawfulBEq κ] (entries : List (κ × α)) (key k : κ) (v : α) :
    (setEntry entries key v).find? (·.1 == k) =
      if key == k then some (key, v) else entries.find? (·.1 == k) := by
  unfold setEntry
  rw [List.find?_cons]
  cases h : key == k
  · have hsame : (fun e : κ × α => decide ((!(e.1 == key)) = true ∧ (e.1 == k) = true)) =
        (fun e => e.1 == k) := by
      funext e
      cases hek : e.1 == k
      · simp
      · have hk : e.1 = k := beq_iff_eq.mp hek
        have hne : k ≠ key := fun hkey => by simp [hkey] at h
        simp [hk, hne]
    simp only [Bool.false_eq_true, ↓reduceIte]
    rw [List.find?_filter, hsame]
  · rfl

/-- **Two joins have one key exactly when they join the same two tables, in either order, on
the same column.** -/
theorem joinKey_eq_iff (l r f l' r' f' : String) :
    joinKey l r f = joinKey l' r' f' ↔
      ((normalizeName l = normalizeName l' ∧ normalizeName r = normalizeName r') ∨
        (normalizeName l = normalizeName r' ∧ normalizeName r = normalizeName l')) ∧
      normalizeName (unqualified f) = normalizeName (unqualified f') := by
  simp only [joinKey]
  generalize normalizeName l = a, normalizeName r = b, normalizeName l' = c, normalizeName r' = d,
    normalizeName (unqualified f) = x, normalizeName (unqualified f') = y
  -- a pair put in order is the same pair: two ordered pairs of the same names agree by
  -- antisymmetry, and one of the two orders always holds
  have antisymm := @le_antisymm String _
  have total := @le_total String _
  split_ifs with hab hcd hcd <;> simp only [Prod.mk.injEq] <;> grind

theorem joinKey_comm (l r f : String) : joinKey l r f = joinKey r l f :=
  (joinKey_eq_iff l r f r l f).mpr ⟨.inr ⟨rfl, rfl⟩, rfl⟩

/-! ## Snapshots built by calls -/

/-- A call of the statistics builder. -/
inductive StatsCall where
  | rowCount (table : String) (rows : Nat)
  | joinSelectivity (left right field : String) (selectivity : Float)
  | index (table field : String)
  | defaultRowCount (rows : Nat)
  | defaultJoinSelectivity (selectivity : Float)

namespace StatsCall

/-- The snapshot after a call. -/
def apply (s : Statistics) : StatsCall → Statistics
  | .rowCount t n => s.withRowCount t n
  | .joinSelectivity l r f x => s.withJoinSelectivity l r f x
  | .index t f => s.withIndex t f
  | .defaultRowCount n => s.withDefaultRowCount n
  | .defaultJoinSelectivity x => s.withDefaultJoinSelectivity x

/-- The row count a call registers for a table of the same normalized name as `table`. -/
def rowsFor (table : String) : StatsCall → Option Nat
  | .rowCount t n => if normalizeName t = normalizeName table then some n else none
  | _ => none

/-- The selectivity a call registers for joining `left` and `right`, in either order, on the
column of `field`, all names normalized. -/
def selectivityFor (left right field : String) : StatsCall → Option Float
  | .joinSelectivity l r f x =>
    if ((normalizeName l = normalizeName left ∧ normalizeName r = normalizeName right) ∨
          (normalizeName l = normalizeName right ∧ normalizeName r = normalizeName left)) ∧
        normalizeName (unqualified f) = normalizeName (unqualified field) then some x
    else none
  | _ => none

/-- The default row count a call sets. -/
def defaultRows : StatsCall → Option Nat
  | .defaultRowCount n => some n
  | _ => none

/-- The default join selectivity a call sets. -/
def defaultSelectivity : StatsCall → Option Float
  | .defaultJoinSelectivity x => some x
  | _ => none

end StatsCall

/-- The snapshot that a sequence of calls builds from the empty one. -/
def Statistics.build (calls : List StatsCall) : Statistics := calls.foldl StatsCall.apply {}

/-- What the last call that says anything of `f` says. -/
def lastSaid {α : Type} (f : StatsCall → Option α) (calls : List StatsCall) : Option α :=
  calls.reverse.findSome? f

theorem lastSaid_append_singleton {α : Type} (f : StatsCall → Option α) (calls : List StatsCall) (c : StatsCall) :
    lastSaid f (calls ++ [c]) = (f c).or (lastSaid f calls) := by
  simp only [lastSaid, List.reverse_append, List.reverse_singleton, List.singleton_append,
    List.findSome?_cons]
  cases f c <;> rfl

theorem lastSaid_map {α β : Type} (f : StatsCall → Option α) (g : α → β) (calls : List StatsCall) :
    lastSaid (fun c => (f c).map g) calls = (lastSaid f calls).map g := by
  induction calls using List.reverseRecOn with
  | nil => rfl
  | append_singleton calls c ih =>
    rw [lastSaid_append_singleton, lastSaid_append_singleton, ih]
    cases f c <;> rfl

namespace Statistics

/-! ## One call -/

/-- The row count registered for a table of the same normalized name, if any. -/
def registeredRows (s : Statistics) (t : String) : Option Nat :=
  (s.rows.find? (·.1 == normalizeName t)).map (·.2)

/-- The selectivity registered for the key of joining `l` and `r` on `f`, if any. -/
def registeredSelectivity (s : Statistics) (l r f : String) : Option Float :=
  (s.joins.find? (·.1 == joinKey l r f)).map (·.2)

theorem rowCount_eq (s : Statistics) (t : String) : s.rowCount t = (s.registeredRows t).getD s.defaultRows := by
  simp only [rowCount, registeredRows]
  split
  · next n h => simp [h]
  · next h => simp [h]

theorem joinSelectivity_eq (s : Statistics) (l r f : String) :
    s.joinSelectivity l r f = (s.registeredSelectivity l r f).getD s.defaultJoinSelectivity := by
  simp only [joinSelectivity, registeredSelectivity]
  split
  · next x h => simp [h]
  · next h => simp [h]

variable (s : Statistics) (c : StatsCall)

/-- A call registers a row count for a table exactly when it registers one under the table's
normalized name; the other calls leave the row counts alone. -/
theorem registeredRows_apply (t : String) :
    (StatsCall.apply s c).registeredRows t = (c.rowsFor t).or (s.registeredRows t) := by
  cases c with
  | rowCount t' n =>
    simp only [StatsCall.apply, withRowCount, registeredRows, find?_setEntry, StatsCall.rowsFor, beq_iff_eq]
    by_cases h : normalizeName t' = normalizeName t
    · simp [h]
    · simp [h]
  | _ => rfl

/-- A call registers a selectivity for a join key exactly when it joins the same two tables, in
either order, on the same column; it registers it clamped. -/
theorem registeredSelectivity_apply (l r f : String) :
    (StatsCall.apply s c).registeredSelectivity l r f =
      ((c.selectivityFor l r f).map clampUnit).or (s.registeredSelectivity l r f) := by
  cases c with
  | joinSelectivity l' r' f' x =>
    simp only [StatsCall.apply, withJoinSelectivity, registeredSelectivity, find?_setEntry,
      StatsCall.selectivityFor, beq_iff_eq]
    by_cases h : joinKey l' r' f' = joinKey l r f
    · simp [h, (joinKey_eq_iff l' r' f' l r f).mp h]
    · simp [h, mt (joinKey_eq_iff l' r' f' l r f).mpr h]
  | _ => rfl

theorem defaultRows_apply : (StatsCall.apply s c).defaultRows = c.defaultRows.getD s.defaultRows := by
  cases c <;> rfl

theorem defaultJoinSelectivity_apply :
    (StatsCall.apply s c).defaultJoinSelectivity = (c.defaultSelectivity.map clampUnit).getD s.defaultJoinSelectivity := by
  cases c <;> rfl

/-- An index call adds its table and field, normalized as written; the other calls leave the
indexes alone. -/
theorem mem_indexes_apply (k : String × String) :
    k ∈ (StatsCall.apply s c).indexes ↔ k ∈ s.indexes ∨ ∃ t f, c = .index t f ∧ (normalizeName t, normalizeName f) = k := by
  cases c with
  | index t f =>
    simp only [StatsCall.apply, withIndex, List.mem_cons, List.mem_filter, StatsCall.index.injEq]
    grind
  | _ => simp [StatsCall.apply, withRowCount, withJoinSelectivity, withDefaultRowCount, withDefaultJoinSelectivity]

/-! ## A sequence of calls -/

theorem build_append_singleton (calls : List StatsCall) :
    build (calls ++ [c]) = StatsCall.apply (build calls) c := by
  simp [build, List.foldl_append]

/-- **A part of the snapshot that each call sets or leaves alone holds what the last call that
set it says**, else what the empty snapshot holds. -/
theorem view_build {α : Type} (V : Statistics → Option α) (f : StatsCall → Option α)
    (hV : ∀ s c, V (StatsCall.apply s c) = (f c).or (V s)) (calls : List StatsCall) :
    V (build calls) = (lastSaid f calls).or (V {}) := by
  induction calls using List.reverseRecOn with
  | nil => rfl
  | append_singleton calls c ih =>
    rw [build_append_singleton, hV, ih, lastSaid_append_singleton]
    cases f c <;> rfl

theorem view_build_getD {α : Type} (V : Statistics → α) (f : StatsCall → Option α)
    (hV : ∀ s c, V (StatsCall.apply s c) = (f c).getD (V s)) (calls : List StatsCall) :
    V (build calls) = (lastSaid f calls).getD (V {}) := by
  have hsome := view_build (fun s => some (V s)) f (fun s c => by rw [hV]; cases f c <;> rfl) calls
  cases h : lastSaid f calls <;> simp_all

variable (calls : List StatsCall)

theorem indexes_build (k : String × String) :
    k ∈ (build calls).indexes ↔ ∃ t f, StatsCall.index t f ∈ calls ∧ (normalizeName t, normalizeName f) = k := by
  induction calls using List.reverseRecOn with
  | nil => simp [build]
  | append_singleton calls c ih =>
    rw [build_append_singleton, mem_indexes_apply, ih]
    simp only [List.mem_append, List.mem_singleton]
    grind

/-! ## The lookups -/

theorem rowCount_build (t : String) :
    (build calls).rowCount t =
      (lastSaid (StatsCall.rowsFor t) calls).getD ((lastSaid StatsCall.defaultRows calls).getD 1000) := by
  rw [rowCount_eq, view_build (registeredRows · t) _ (registeredRows_apply · · t),
    view_build_getD defaultRows _ defaultRows_apply]
  cases lastSaid (StatsCall.rowsFor t) calls <;> rfl

theorem joinSelectivity_build (l r f : String) :
    (build calls).joinSelectivity l r f =
      ((lastSaid (StatsCall.selectivityFor l r f) calls).map clampUnit).getD
        (((lastSaid StatsCall.defaultSelectivity calls).map clampUnit).getD 0.1) := by
  rw [joinSelectivity_eq, view_build (registeredSelectivity · l r f) _ (registeredSelectivity_apply · · l r f),
    view_build_getD defaultJoinSelectivity _ defaultJoinSelectivity_apply, lastSaid_map, lastSaid_map]
  cases lastSaid (StatsCall.selectivityFor l r f) calls <;> rfl

theorem joinSelectivity_comm (s : Statistics) (l r f : String) :
    s.joinSelectivity l r f = s.joinSelectivity r l f := by
  simp only [joinSelectivity, joinKey_comm l r f]

/-- A lookup finds an index registered under the table's normalized name and the normalized
field as written, which must then equal the normalized column the lookup asks for. -/
theorem hasIndex_build_iff (t f : String) :
    (build calls).hasIndex t f = true ↔
      ∃ t' f', StatsCall.index t' f' ∈ calls ∧ normalizeName t' = normalizeName t ∧
        normalizeName f' = normalizeName (unqualified f) := by
  simp only [hasIndex, List.contains_iff_mem, indexes_build, Prod.mk.injEq]

/-- **What every lookup of a built snapshot answers.** A row count is the last one registered
for the table's normalized name, else the last default row count, else a thousand. A join
selectivity does not depend on the order of the two tables, and is the last one registered for
the same two normalized tables in either order and the same normalized column, clamped to
`[0, 1]`, else the last default, clamped, else a tenth. A column is indexed exactly when some
index call names the table and a field whose normalized text, qualifier included, is the
normalized column asked about. -/
theorem lookups_of_build (t l r f : String) :
    (build calls).rowCount t =
        (lastSaid (StatsCall.rowsFor t) calls).getD ((lastSaid StatsCall.defaultRows calls).getD 1000) ∧
      (build calls).joinSelectivity l r f = (build calls).joinSelectivity r l f ∧
      (build calls).joinSelectivity l r f =
        ((lastSaid (StatsCall.selectivityFor l r f) calls).map clampUnit).getD
          (((lastSaid StatsCall.defaultSelectivity calls).map clampUnit).getD 0.1) ∧
      ((build calls).hasIndex t f = true ↔
        ∃ t' f', StatsCall.index t' f' ∈ calls ∧ normalizeName t' = normalizeName t ∧
          normalizeName f' = normalizeName (unqualified f)) :=
  ⟨rowCount_build calls t, joinSelectivity_comm _ l r f, joinSelectivity_build calls l r f,
    hasIndex_build_iff calls t f⟩

end Statistics

end QueryAdvisor
