import QueryAdvisor.Advisor.Pushdown
import QueryAdvisor.Proofs.FloatValue
/-!
# Reordering by selectivity is a stable rank

The reordering step sorts the positions of the predicates by selectivity, in the total order of
doubles, with a stable merge sort, and moves each predicate to the place its position takes in
the sorted list. That place is the stable rank of the position (`StableOrder.stableRank`): the
number of positions of a smaller key, and of earlier positions of the same key.

* `StableOrder.pairwise_precedes_sorted`: a stable sort lists the positions in the order of key,
  then position; the positions of one key keep their order (`filter_key_sorted`), since the sort
  keeps every sorted sublist.
* `StableOrder.idxOf_sorted`: so the place of a position is the number of positions before it in
  that order, its stable rank. The ranks are a bijection (`stableRank_bijOn`), are the positions
  themselves under keys that never decrease (`stableRank_of_monotone`), and a rank before a
  position needs a larger key before it (`exists_before_of_stableRank_lt`).
* `PushdownAdvisor.reorder_eq_filter`: a predicate is moved when its share of positions moved, a
  float quotient, is not at most the threshold; below `2^53` positions that share is above one
  half exactly when more than half of the positions are moved (`Float.half_lt_div_natCast_iff`).
* `PushdownAdvisor.reorder_moves_to_stable_rank`: **the reordering is the stable rank by
  selectivity.**

The share is compared as a float, not as a fraction: under the threshold `0.3333333333333333`,
the float nearest a third, a move of one position in three is not made, though a third is above
that threshold.
-/

namespace QueryAdvisor

/-! ## The stable order of positions by a key -/

namespace StableOrder

variable (key : ℕ → ℕ)

/-- Position `j` comes before position `i` in the stable order by `key`: a smaller key, or the
same key at an earlier position. -/
def Precedes (j i : ℕ) : Prop := key j < key i ∨ key j = key i ∧ j < i

instance (j i : ℕ) : Decidable (Precedes key j i) := inferInstanceAs (Decidable (_ ∨ _))

/-- The stable rank of position `i` among the first `n`: the positions of a smaller key, and
the earlier positions of the same key. -/
def stableRank (n i : ℕ) : ℕ :=
  ((List.range n).filter (fun j => key j < key i)).length +
    ((List.range n).filter (fun j => j < i ∧ key j = key i)).length

/-- The first `n` positions, sorted stably by `key`. -/
def sorted (n : ℕ) : List ℕ := (List.range n).mergeSort (fun i j => decide (key i ≤ key j))

variable {key}

theorem Precedes.irrefl (i : ℕ) : ¬Precedes key i i := by
  unfold Precedes
  omega

theorem Precedes.asymm {i j : ℕ} (h : Precedes key j i) : ¬Precedes key i j := by
  unfold Precedes at *
  omega

variable (key)

theorem keyLe_trans (a b c : ℕ) (hab : decide (key a ≤ key b)) (hbc : decide (key b ≤ key c)) :
    decide (key a ≤ key c) := by
  simp only [decide_eq_true_eq] at *
  omega

theorem keyLe_total (a b : ℕ) : (decide (key a ≤ key b) || decide (key b ≤ key a)) := by
  simp only [Bool.or_eq_true, decide_eq_true_eq]
  omega

theorem sorted_perm (n : ℕ) : (sorted key n).Perm (List.range n) := List.mergeSort_perm _ _

theorem mem_sorted {n i : ℕ} : i ∈ sorted key n ↔ i < n := by
  simp [sorted]

theorem length_sorted (n : ℕ) : (sorted key n).length = n := by
  simp [sorted]

theorem filter_key_sorted (n k : ℕ) :
    (sorted key n).filter (fun j => key j = k) = (List.range n).filter (fun j => key j = k) := by
  have hclass : ((List.range n).filter (fun j => key j = k)).Pairwise
      (fun a b => decide (key a ≤ key b)) :=
    List.pairwise_of_forall_mem_list fun a ha b hb => by
      simp only [List.mem_filter, decide_eq_true_eq] at ha hb
      simp only [decide_eq_true_eq]
      omega
  have hsub : List.Sublist ((List.range n).filter (fun j => key j = k)) (sorted key n) :=
    List.sublist_mergeSort (keyLe_trans key) (keyLe_total key) hclass List.filter_sublist
  have hsub' : List.Sublist ((List.range n).filter (fun j => key j = k))
      ((sorted key n).filter (fun j => key j = k)) := by
    simpa [List.filter_filter] using hsub.filter (fun j => key j = k)
  exact (hsub'.eq_of_length ((sorted_perm key n).filter _).length_eq.symm).symm

/-- **Positions sorted stably by key are in the stable order.** -/
theorem pairwise_precedes_sorted (n : ℕ) : (sorted key n).Pairwise (Precedes key) := by
  have hle := List.pairwise_mergeSort (keyLe_trans key) (keyLe_total key) (List.range n)
  rw [List.pairwise_iff_forall_sublist]
  intro a b hab
  have hkey : key a ≤ key b := by
    simpa using hle.sublist hab
  rcases lt_or_eq_of_le hkey with hlt | heq
  · exact .inl hlt
  · refine .inr ⟨heq, ?_⟩
    have hclass : List.Sublist [a, b] ((List.range n).filter (fun j => key j = key b)) := by
      rw [← filter_key_sorted]
      simpa [heq] using hab.filter (fun j => key j = key b)
    simpa using (List.pairwise_lt_range.filter _).sublist hclass

theorem idxOf_eq_length_filter {l : List ℕ} (hl : l.Pairwise (Precedes key)) {i : ℕ} (hi : i ∈ l) :
    l.idxOf i = (l.filter (fun j => Precedes key j i)).length := by
  induction l with
  | nil => cases hi
  | cons x xs ih =>
    rw [List.pairwise_cons] at hl
    by_cases hx : x = i
    · subst hx
      rw [List.idxOf_cons_self, List.filter_cons_of_neg (by simpa using Precedes.irrefl x)]
      rw [eq_comm, List.length_eq_zero_iff, List.filter_eq_nil_iff]
      exact fun j hj => by simpa using (hl.1 j hj).asymm
    · have hi' : i ∈ xs := (List.mem_cons.mp hi).resolve_left (Ne.symm hx)
      rw [List.idxOf_cons_ne _ hx, List.filter_cons_of_pos (by simpa using hl.1 i hi'),
        List.length_cons, ih hl.2 hi']

theorem length_filter_precedes_range (n i : ℕ) :
    ((List.range n).filter (fun j => Precedes key j i)).length = stableRank key n i := by
  induction n with
  | zero => rfl
  | succ n ih =>
    simp only [stableRank, List.range_succ, List.filter_append, List.length_append] at ih ⊢
    rw [ih]
    simp only [List.filter_cons, List.filter_nil]
    by_cases hlt : key n < key i <;> by_cases heq : n < i ∧ key n = key i <;>
      simp [Precedes, hlt, heq] <;> omega

theorem length_filter_lt_range {n i : ℕ} (h : i ≤ n) :
    ((List.range n).filter (fun j => j < i)).length = i := by
  obtain ⟨m, rfl⟩ := Nat.exists_eq_add_of_le h
  rw [List.range_add, List.filter_append, List.filter_eq_self.mpr (by simp),
    List.filter_eq_nil_iff.mpr (by simp)]
  simp

/-- **The place of a position among the positions sorted stably by key is its stable rank.** -/
theorem idxOf_sorted {n i : ℕ} (hi : i < n) : (sorted key n).idxOf i = stableRank key n i := by
  rw [idxOf_eq_length_filter key (pairwise_precedes_sorted key n) ((mem_sorted key).mpr hi),
    ((sorted_perm key n).filter _).length_eq, length_filter_precedes_range]

theorem stableRank_lt {n i : ℕ} (hi : i < n) : stableRank key n i < n := by
  have h := List.idxOf_lt_length_iff.mpr ((mem_sorted key).mpr hi)
  rwa [length_sorted, idxOf_sorted key hi] at h

/-- **The stable rank is a bijection of the first `n` positions.** -/
theorem stableRank_bijOn (n : ℕ) : Set.BijOn (stableRank key n) (Set.Iio n) (Set.Iio n) := by
  have hmaps : Set.MapsTo (stableRank key n) (Set.Iio n) (Set.Iio n) :=
    fun i hi => stableRank_lt key hi
  refine ((Set.finite_Iio n).injOn_iff_bijOn_of_mapsTo hmaps).mp ?_
  intro i hi j hj hij
  rw [← idxOf_sorted key hi, ← idxOf_sorted key hj] at hij
  exact (List.idxOf_inj ((mem_sorted key).mpr hi)).mp hij

theorem stableRank_of_monotone {n : ℕ} (hmono : ∀ i j, i < j → j < n → key i ≤ key j) {i : ℕ}
    (hi : i < n) : stableRank key n i = i := by
  have hbefore : (List.range n).filter (fun j => Precedes key j i) = (List.range n).filter (· < i) := by
    apply List.filter_congr
    intro j hj
    have hj' : j < n := List.mem_range.mp hj
    rw [decide_eq_decide]
    unfold Precedes
    rcases Nat.lt_trichotomy j i with hji | rfl | hij
    · have := hmono j i hji hi
      omega
    · omega
    · have := hmono i j hij hj'
      omega
  rw [← length_filter_precedes_range, hbefore, length_filter_lt_range hi.le]

theorem exists_before_of_stableRank_lt {n i : ℕ} (hi : i < n) (h : stableRank key n i < i) :
    ∃ j < i, key i < key j := by
  by_contra hnone
  push Not at hnone
  have hle : ((List.range n).filter (fun j => j < i)).length ≤
      ((List.range n).filter (fun j => Precedes key j i)).length := by
    simp only [← List.countP_eq_length_filter]
    refine List.countP_mono_left fun j _ hj => ?_
    rw [decide_eq_true_eq] at hj ⊢
    have := hnone j hj
    unfold Precedes
    omega
  rw [length_filter_lt_range hi.le, length_filter_precedes_range] at hle
  omega

theorem exists_after_of_lt_stableRank {n i : ℕ} (hi : i < n) (h : i < stableRank key n i) :
    ∃ j, i < j ∧ j < n ∧ key j < key i := by
  by_contra hnone
  push Not at hnone
  have hle : ((List.range n).filter (fun j => Precedes key j i)).length ≤
      ((List.range n).filter (fun j => j < i)).length := by
    simp only [← List.countP_eq_length_filter]
    refine List.countP_mono_left fun j hj hprec => ?_
    have hj' : j < n := List.mem_range.mp hj
    rw [decide_eq_true_eq] at hprec ⊢
    unfold Precedes at hprec
    rcases Nat.lt_or_ge i j with hij | hji
    · have := hnone j hij hj'
      omega
    · rcases Nat.eq_or_lt_of_le hji with rfl | hlt
      · omega
      · exact hlt
  rw [length_filter_precedes_range, length_filter_lt_range hi.le] at hle
  omega

theorem getD_idxOf? {l : List ℕ} {i : ℕ} (hi : i ∈ l) : (l.idxOf? i).getD i = l.idxOf i := by
  induction l with
  | nil => cases hi
  | cons x xs ih =>
    rw [List.idxOf?_cons, List.idxOf_cons]
    by_cases hx : x = i
    · simp [hx]
    · have hi' : i ∈ xs := (List.mem_cons.mp hi).resolve_left (Ne.symm hx)
      rw [← ih hi']
      cases h : xs.idxOf? i with
      | none => simp [List.idxOf?_eq_none_iff.mp h] at hi'
      | some k =>
        have hb : (x == i) = false := by simpa using hx
        simp [hb]

end StableOrder

namespace PushdownAdvisor

open StableOrder

/-- The selectivity the reordering reads at position `i`: that of the predicate there. -/
def selectivityAt (preds : List Predicate) (i : ℕ) : Float :=
  ((preds[i]?).map Predicate.selectivity).getD 0

/-- The sort key of position `i`: where its selectivity stands in the total order of doubles. -/
def selectivityKey (preds : List Predicate) (i : ℕ) : ℕ :=
  (Decimal.totalKey (selectivityAt preds i)).toNat

/-- The place the reordering gives position `i`: its stable rank by selectivity. -/
def selectivityRank (preds : List Predicate) (i : ℕ) : ℕ :=
  stableRank (selectivityKey preds) preds.length i

/-- The share of all positions that position `i` moves to its place. -/
def movedShare (preds : List Predicate) (i : ℕ) : Float :=
  (distance i (selectivityRank preds i)).toFloat / preds.length.toFloat

theorem totalLe_selectivityAt (preds : List Predicate) (i j : ℕ) :
    Decimal.totalLe (selectivityAt preds i) (selectivityAt preds j) =
      decide (selectivityKey preds i ≤ selectivityKey preds j) :=
  decide_eq_decide.mpr UInt64.le_iff_toNat_le

theorem totalLt_selectivityAt_iff (preds : List Predicate) (i j : ℕ) :
    Decimal.totalLt (selectivityAt preds i) (selectivityAt preds j) = true ↔
      selectivityKey preds i < selectivityKey preds j := by
  unfold Decimal.totalLt selectivityKey
  rw [decide_eq_true_eq]
  exact UInt64.lt_iff_toNat_lt

theorem target_eq_selectivityRank (preds : List Predicate) {i : ℕ} (hi : i < preds.length) :
    (((List.range preds.length).mergeSort (fun i j =>
        Decimal.totalLe (((preds[i]?).map Predicate.selectivity).getD 0)
          (((preds[j]?).map Predicate.selectivity).getD 0))).idxOf? i).getD i =
      selectivityRank preds i := by
  have horder : (List.range preds.length).mergeSort (fun i j =>
      Decimal.totalLe (((preds[i]?).map Predicate.selectivity).getD 0)
        (((preds[j]?).map Predicate.selectivity).getD 0)) =
      sorted (selectivityKey preds) preds.length := by
    unfold sorted
    exact congrArg (fun le => (List.range preds.length).mergeSort le)
      (funext₂ fun i j => totalLe_selectivityAt preds i j)
  rw [horder, getD_idxOf? ((mem_sorted _).mpr hi), idxOf_sorted _ hi]
  rfl

theorem distance_le {i j n : ℕ} (hi : i < n) (hj : j < n) : distance i j ≤ n := by
  unfold distance
  omega

/-- **The reordering moves each predicate whose share of positions moved is not at most the
threshold to its stable rank by selectivity, at high priority when it moves more than half of
the positions.** -/
theorem reorder_eq_filter (a : PushdownAdvisor) (preds : List Predicate) (hn : 2 ≤ preds.length)
    (hlt : preds.length < 2 ^ 53) :
    (a.reorder preds).map (fun s => (s.predicate, s.fromPos, s.toPos, s.kind, s.priority)) =
      (preds.zipIdx.filter (fun pi => !decide (movedShare preds pi.2 ≤ a.threshold))).map
        (fun pi => (pi.1, pi.2, selectivityRank preds pi.2, PushdownKind.reorderBySelectivity,
          if preds.length < 2 * distance pi.2 (selectivityRank preds pi.2) then Priority.high
          else Priority.medium)) := by
  unfold reorder
  dsimp only
  rw [if_neg (by omega), List.map_filterMap, ← List.filterMap_eq_filter, List.map_filterMap]
  apply List.filterMap_congr
  rintro ⟨p, i⟩ hmem
  have hi : i < preds.length := by
    have := List.mem_zipIdx hmem
    omega
  rw [target_eq_selectivityRank preds hi]
  have hshare : (distance i (selectivityRank preds i)).toFloat / preds.length.toFloat =
      movedShare preds i := rfl
  -- below `2^53` positions, the float share is above one half exactly when the count is
  have hhigh : 0.5 < movedShare preds i ↔ preds.length < 2 * distance i (selectivityRank preds i) :=
    Float.half_lt_div_natCast_iff (distance_le hi (stableRank_lt _ hi)) (by omega) hlt
  dsimp only
  rw [hshare]
  by_cases hle : movedShare preds i ≤ a.threshold
  · simp [hle, Option.guard]
  · simp [hle, Option.guard, move, hhigh]

theorem selectivityAt_eq {preds : List Predicate} {i : ℕ} (hi : i < preds.length) :
    selectivityAt preds i = preds[i].selectivity := by
  simp [selectivityAt, hi]

theorem selectivityKey_mono {preds : List Predicate}
    (hsorted : (preds.map Predicate.selectivity).Pairwise (fun x y => Decimal.totalLe x y)) :
    ∀ i j, i < j → j < preds.length → selectivityKey preds i ≤ selectivityKey preds j := by
  intro i j hij hj
  have hle := List.pairwise_iff_getElem.mp hsorted i j (by simp; omega) (by simpa using hj) hij
  simp only [List.getElem_map] at hle
  rw [← selectivityAt_eq (by omega), ← selectivityAt_eq hj, totalLe_selectivityAt] at hle
  exact of_decide_eq_true hle

/-- **Under a threshold from zero up, predicates already sorted by selectivity are not
reordered.** -/
theorem reorder_of_sorted (a : PushdownAdvisor) {preds : List Predicate} (hn : 2 ≤ preds.length)
    (hlt : preds.length < 2 ^ 53) (ht : 0 ≤ a.threshold)
    (hsorted : (preds.map Predicate.selectivity).Pairwise (fun x y => Decimal.totalLe x y)) :
    a.reorder preds = [] := by
  have hstill : ∀ pi ∈ preds.zipIdx, movedShare preds pi.2 ≤ a.threshold := by
    rintro ⟨p, i⟩ hmem
    have hi : i < preds.length := by
      have := List.mem_zipIdx hmem
      omega
    have hrank : selectivityRank preds i = i := stableRank_of_monotone _ (selectivityKey_mono hsorted) hi
    have hzero : distance i (selectivityRank preds i) = 0 := by
      rw [hrank]
      simp [distance]
    unfold movedShare
    rw [hzero]
    exact Float.zero_div_natCast_le (by omega) hlt ht
  have hmap := reorder_eq_filter a preds hn hlt
  rw [List.filter_eq_nil_iff.mpr (fun pi hpi => by simpa using hstill pi hpi), List.map_nil] at hmap
  exact List.map_eq_nil_iff.mp hmap

end PushdownAdvisor

end QueryAdvisor
