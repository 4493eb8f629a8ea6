import Mathlib.Data.List.Nodup
import QueryAdvisor.Advisor.Index
/-!
# Keeping the best entry of each key

The placement advisor keeps one move per position, and the index advisor one suggestion per
index. Both fold `keepBestBy` over their candidates: an entry whose key is new is appended,
and an entry whose key is already kept takes the kept entry's place when it ranks strictly
higher. `PushdownAdvisor.keepBest` keys moves by position and `IndexAdvisor.merge` keys
suggestions by table and columns.

What the fold keeps can be said without the fold (`FirstBest`): the kept entry of a key ranks
at least as high as every entry of that key, and strictly higher than those before it. So it is
the first entry of the highest rank. After every step the kept entries have distinct keys,
cover exactly the keys seen so far, and are each the first best of their key (`KeepsBest`).
Hence this holds after the whole list.

* `keepBestBy_keepsBest`: one step keeps the invariant.
* `keepsBest_foldl`: **folding `keepBestBy` over a list keeps one entry per key of the list,
  the first of the highest rank among the entries of that key.**
* `foldl_keepBestBy_keys_eraseDups`: the kept keys come in the order of their first
  occurrences, since a step appends only a new key.
-/

namespace QueryAdvisor

section KeepBest

variable {α κ : Type} (key : α → κ) (rank : α → Nat)

/-- `s` is an entry of `l` that ranks at least as high as every entry of its key, and strictly
higher than those before it: the first entry of the highest rank among those of its key. -/
def FirstBest (l : List α) (s : α) : Prop :=
  ∃ pre post, l = pre ++ s :: post ∧ (∀ x ∈ pre, key x = key s → rank x < rank s) ∧
    ∀ x ∈ post, key x = key s → rank x ≤ rank s

namespace FirstBest

variable {key rank} {l : List α} {s : α}

theorem mem (h : FirstBest key rank l s) : s ∈ l := by
  obtain ⟨pre, post, rfl, -, -⟩ := h
  exact List.mem_append_right pre List.mem_cons_self

theorem rank_le (h : FirstBest key rank l s) {x : α} (hx : x ∈ l) (hkey : key x = key s) :
    rank x ≤ rank s := by
  obtain ⟨pre, post, rfl, hpre, hpost⟩ := h
  rcases List.mem_append.mp hx with hx | hx
  · exact Nat.le_of_lt (hpre x hx hkey)
  · rcases List.mem_cons.mp hx with rfl | hx
    · exact Nat.le_refl _
    · exact hpost x hx hkey

theorem append (h : FirstBest key rank l s) {l' : List α}
    (h' : ∀ x ∈ l', key x = key s → rank x ≤ rank s) : FirstBest key rank (l ++ l') s := by
  obtain ⟨pre, post, rfl, hpre, hpost⟩ := h
  refine ⟨pre, post ++ l', by simp, hpre, fun x hx hkey => ?_⟩
  rcases List.mem_append.mp hx with hx | hx
  · exact hpost x hx hkey
  · exact h' x hx hkey

theorem last (h : ∀ x ∈ l, key x = key s → rank x < rank s) : FirstBest key rank (l ++ [s]) s :=
  ⟨l, [], rfl, h, by simp⟩

end FirstBest

/-- What the fold has kept after the entries `done`: one entry per key, for exactly the keys of
`done`, each the first best of its key. -/
structure KeepsBest (done kept : List α) : Prop where
  nodup : (kept.map key).Nodup
  keys : ∀ k, k ∈ kept.map key ↔ k ∈ done.map key
  best : ∀ s ∈ kept, FirstBest key rank done s

variable {key rank}

theorem KeepsBest.eq_of_key {done kept : List α} (h : KeepsBest key rank done kept) {x y : α}
    (hx : x ∈ kept) (hy : y ∈ kept) (hkey : key x = key y) : x = y :=
  List.inj_on_of_nodup_map h.nodup hx hy hkey

theorem keepsBest_append {done kept : List α} (h : KeepsBest key rank done kept) {s : α}
    (hnew : key s ∉ kept.map key) : KeepsBest key rank (done ++ [s]) (kept ++ [s]) := by
  have hdone : ∀ x ∈ done, key x ≠ key s := by
    intro x hx hkey
    exact hnew ((h.keys _).mpr (List.mem_map.mpr ⟨x, hx, hkey⟩))
  refine ⟨?_, fun k => ?_, fun x hx => ?_⟩
  · rw [List.map_append, List.nodup_append]
    refine ⟨h.nodup, List.nodup_singleton _, fun a ha b hb => ?_⟩
    rw [List.map_singleton, List.mem_singleton] at hb
    rintro rfl
    exact hnew (hb ▸ ha)
  · simp only [List.map_append, List.mem_append, h.keys k]
  · rcases List.mem_append.mp hx with hx | hx
    · refine (h.best x hx).append (fun y hy hkey => ?_)
      rw [List.mem_singleton.mp hy] at hkey
      exact absurd (by rw [hkey]; exact List.mem_map_of_mem hx) hnew
    · rw [List.mem_singleton.mp hx]
      exact FirstBest.last (fun y hy hkey => absurd hkey (hdone y hy))

theorem map_set_of_key {kept : List α} {s : α} {i : Nat} {hi : i < kept.length} (hkey : key kept[i] = key s) :
    (kept.set i s).map key = kept.map key := by
  refine List.ext_getElem (by simp) (fun j _ _ => ?_)
  simp only [List.getElem_map, List.getElem_set]
  split
  · next hij =>
    subst hij
    exact hkey.symm
  · rfl

/-- A kept key: the entries kept do not change keys, and `s` takes the place of the kept entry
`kept[i]` of its key exactly when it ranks strictly higher. -/
theorem keepsBest_of_kept {done kept : List α} (h : KeepsBest key rank done kept) {s : α} {i : Nat}
    (hi : i < kept.length) (hkey : key kept[i] = key s) :
    KeepsBest key rank (done ++ [s]) (if rank kept[i] < rank s then kept.set i s else kept) := by
  have hk : kept[i] ∈ kept := List.getElem_mem hi
  have hkeys : ∀ k, k ∈ (done ++ [s]).map key ↔ k ∈ done.map key := by
    intro k
    simp only [List.map_append, List.map_singleton, List.mem_append, List.mem_singleton]
    refine ⟨fun hk' => hk'.elim id (fun hks => ?_), .inl⟩
    exact (h.keys k).mp (hks ▸ hkey ▸ List.mem_map_of_mem hk)
  split
  · next hlt =>
    have hmap : (kept.set i s).map key = kept.map key := map_set_of_key hkey
    have hs : s ∈ kept.set i s := List.mem_set hi s
    have hnodup : ((kept.set i s).map key).Nodup := hmap ▸ h.nodup
    refine ⟨hnodup, fun k => by rw [hmap, h.keys k, hkeys k], fun x hx => ?_⟩
    by_cases hxs : key x = key s
    · rw [List.inj_on_of_nodup_map hnodup hx hs hxs]
      refine FirstBest.last (fun y hy hys => ?_)
      exact Nat.lt_of_le_of_lt ((h.best _ hk).rank_le hy (hys.trans hkey.symm)) hlt
    · have hxk : x ∈ kept := (List.mem_or_eq_of_mem_set hx).resolve_right (fun he => hxs (he ▸ rfl))
      refine (h.best x hxk).append (fun y hy hyx => ?_)
      rw [List.mem_singleton.mp hy] at hyx
      exact absurd hyx.symm hxs
  · next hge =>
    refine ⟨h.nodup, fun k => by rw [h.keys k, hkeys k], fun x hx => ?_⟩
    refine (h.best x hx).append (fun y hy hyx => ?_)
    rw [List.mem_singleton.mp hy] at hyx ⊢
    rw [h.eq_of_key hx hk (hyx.symm.trans hkey.symm)]
    exact Nat.le_of_not_lt hge

section Step

variable [BEq κ] [LawfulBEq κ]

/-- **One step of the fold keeps the invariant.** -/
theorem keepBestBy_keepsBest {done kept : List α} (h : KeepsBest key rank done kept) (s : α) :
    KeepsBest key rank (done ++ [s]) (keepBestBy key rank kept s) := by
  unfold keepBestBy
  cases hfind : kept.findIdx? (fun k => key k == key s) with
  | none =>
    refine keepsBest_append h (fun hs => ?_)
    obtain ⟨y, hy, hys⟩ := List.mem_map.mp hs
    have hfalse := List.findIdx?_eq_none_iff.mp hfind y hy
    simp [hys] at hfalse
  | some i =>
    obtain ⟨hi, hkey, -⟩ := List.findIdx?_eq_some_iff_getElem.mp hfind
    simp only [List.getElem?_eq_getElem hi]
    exact keepsBest_of_kept h hi (eq_of_beq hkey)

theorem keepsBest_foldl_of {done kept : List α} (h : KeepsBest key rank done kept) :
    ∀ l : List α, KeepsBest key rank (done ++ l) (l.foldl (keepBestBy key rank) kept)
  | [] => by simpa using h
  | s :: l => by
    rw [List.foldl_cons, List.append_cons]
    exact keepsBest_foldl_of (keepBestBy_keepsBest h s) l

variable (key rank)

/-- **Folding `keepBestBy` over a list keeps one entry per key of the list, the first of the
highest rank among the entries of that key.** -/
theorem keepsBest_foldl (l : List α) : KeepsBest key rank l (l.foldl (keepBestBy key rank) []) := by
  simpa using keepsBest_foldl_of (⟨List.nodup_nil, fun _ => Iff.rfl, fun _ h => absurd h List.not_mem_nil⟩ :
    KeepsBest key rank [] []) l

/-! ## The order of the kept keys -/

variable {key rank}

/-- One step appends the key of `s` when it is new, and otherwise leaves the keys as they are:
an entry that takes a kept entry's place has that entry's key. -/
theorem keepBestBy_keys (kept : List α) (s : α) :
    (keepBestBy key rank kept s).map key = kept.map key ++ if key s ∈ kept.map key then [] else [key s] := by
  unfold keepBestBy
  cases hfind : kept.findIdx? (fun k => key k == key s) with
  | none =>
    have hnew : key s ∉ kept.map key := by
      intro hs
      obtain ⟨y, hy, hys⟩ := List.mem_map.mp hs
      have hfalse := List.findIdx?_eq_none_iff.mp hfind y hy
      simp [hys] at hfalse
    simp [hnew]
  | some i =>
    obtain ⟨hi, hkey, -⟩ := List.findIdx?_eq_some_iff_getElem.mp hfind
    have hkey : key kept[i] = key s := eq_of_beq hkey
    have hold : key s ∈ kept.map key := hkey ▸ List.mem_map_of_mem (List.getElem_mem hi)
    simp only [List.getElem?_eq_getElem hi, hold, ↓reduceIte, List.append_nil]
    split
    · exact map_set_of_key hkey
    · rfl

/-- The keys kept after folding over `l` from the entries `kept` of `done` are the keys of
`done` and then `l`, each at its first occurrence. -/
theorem foldl_keepBestBy_keys :
    ∀ (l : List α) {done kept : List α}, kept.map key = (done.map key).eraseDups →
      (l.foldl (keepBestBy key rank) kept).map key = ((done ++ l).map key).eraseDups
  | [], done, kept, h => by simpa using h
  | s :: l, done, kept, h => by
    rw [List.foldl_cons, ← List.singleton_append, ← List.append_assoc]
    refine foldl_keepBestBy_keys l ?_
    have hmem : key s ∈ kept.map key ↔ key s ∈ done.map key := by rw [h, List.mem_eraseDups]
    rw [keepBestBy_keys, List.map_append, List.eraseDups_append, ← h]
    by_cases hs : key s ∈ done.map key
    · simp [List.removeAll, hs, hmem.mpr hs]
    · simp [List.removeAll, hs, mt hmem.mp hs, List.eraseDups_cons]

variable (key rank)

/-- **Folding `keepBestBy` over a list keeps the keys of the list in the order of their first
occurrences.** -/
theorem foldl_keepBestBy_keys_eraseDups (l : List α) :
    (l.foldl (keepBestBy key rank) []).map key = (l.map key).eraseDups := by
  have h : (l.foldl (keepBestBy key rank) []).map key = (([] ++ l).map key).eraseDups :=
    foldl_keepBestBy_keys l rfl
  simpa using h

end Step

end KeepBest

end QueryAdvisor
