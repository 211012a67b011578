import Mathlib

set_option autoImplicit false

/-!
# A log in two maps

The entries of a log that only grows, kept in two finite maps: one numbers the
keys from one on, the other one holds the values by key.
-/
namespace DepaKms

variable {K V : Type} [DecidableEq K]

/-- The two maps hold the entries of the log, and nothing else. -/
structure IndexedLog (ids : AList fun _ : ℕ => K) (items : AList fun _ : K => V)
    (log : List (K × V)) : Prop where
  lookup_zero : ids.lookup 0 = none
  lookup_succ : ∀ n, ids.lookup (n + 1) = (log[n]?).map Prod.fst
  lookup_item : ∀ k v, items.lookup k = some v ↔ (k, v) ∈ log
  size : ids.keys.length = log.length
  nodup : (log.map Prod.fst).Nodup

namespace IndexedLog

variable {ids : AList fun _ : ℕ => K} {items : AList fun _ : K => V} {log : List (K × V)}

theorem empty : IndexedLog (∅ : AList fun _ : ℕ => K) (∅ : AList fun _ : K => V) [] where
  lookup_zero := rfl
  lookup_succ _ := rfl
  lookup_item k v := by simp
  size := rfl
  nodup := List.nodup_nil

theorem mem_ids (hl : IndexedLog ids items log) (n : ℕ) :
    n ∈ ids ↔ 1 ≤ n ∧ n ≤ log.length := by
  rw [← AList.lookup_isSome]
  cases n with
  | zero => simp [hl.lookup_zero]
  | succ n =>
    rw [hl.lookup_succ, Option.isSome_map]
    simp only [isSome_getElem?]
    omega

theorem lookup_iff (hl : IndexedLog ids items log) {n : ℕ} {k : K} :
    ids.lookup n = some k ↔ ∃ i v, n = i + 1 ∧ log[i]? = some (k, v) := by
  cases n with
  | zero => simp [hl.lookup_zero]
  | succ n => simp [hl.lookup_succ, Option.map_eq_some_iff]

theorem injective (hl : IndexedLog ids items log) {m n : ℕ} {k : K}
    (hm : ids.lookup m = some k) (hn : ids.lookup n = some k) : m = n := by
  obtain ⟨i, v, rfl, hi⟩ := hl.lookup_iff.mp hm
  obtain ⟨j, w, rfl, hj⟩ := hl.lookup_iff.mp hn
  have hi' : (log.map Prod.fst)[i]? = some k := by simp [hi]
  have hj' : (log.map Prod.fst)[j]? = some k := by simp [hj]
  obtain ⟨hlt, -⟩ := List.getElem?_eq_some_iff.mp hi'
  rw [(List.getElem?_inj hlt hl.nodup).mp (hi'.trans hj'.symm)]

theorem mem_items (hl : IndexedLog ids items log) (k : K) :
    k ∈ items ↔ ∃ n, ids.lookup n = some k := by
  rw [← AList.lookup_isSome, Option.isSome_iff_exists]
  constructor
  · rintro ⟨v, hv⟩
    obtain ⟨i, hi⟩ := List.mem_iff_getElem?.mp ((hl.lookup_item k v).mp hv)
    exact ⟨i + 1, hl.lookup_iff.mpr ⟨i, v, rfl, hi⟩⟩
  · rintro ⟨n, hn⟩
    obtain ⟨i, v, rfl, hi⟩ := hl.lookup_iff.mp hn
    exact ⟨v, (hl.lookup_item k v).mpr (List.mem_of_getElem? hi)⟩

theorem append (hl : IndexedLog ids items log) {k : K} (hk : k ∉ log.map Prod.fst) (v : V) :
    IndexedLog (ids.insert (log.length + 1) k) (items.insert k v) (log ++ [(k, v)]) where
  lookup_zero := by
    rw [AList.lookup_insert_ne (by omega), hl.lookup_zero]
  lookup_succ n := by
    by_cases hn : n = log.length
    · subst hn
      simp [AList.lookup_insert]
    · rw [AList.lookup_insert_ne (by omega), hl.lookup_succ]
      rcases Nat.lt_or_gt_of_ne hn with hlt | hgt
      · rw [List.getElem?_append_left hlt]
      · rw [List.getElem?_eq_none (by omega), List.getElem?_eq_none (by simp; omega)]
  lookup_item k' v' := by
    by_cases hk' : k' = k
    · subst hk'
      have hnew : (k', v') ∉ log := fun hm => hk (List.mem_map_of_mem hm)
      simp [AList.lookup_insert, hnew, eq_comm]
    · rw [AList.lookup_insert_ne hk', hl.lookup_item]
      simp [hk']
  size := by
    have hfresh : log.length + 1 ∉ ids.keys := by
      have := (hl.mem_ids (log.length + 1)).not.mpr (by omega)
      simpa [AList.mem_keys] using this
    rw [AList.keys_insert, List.erase_of_not_mem hfresh]
    simp [hl.size]
  nodup := by
    rw [List.map_append, List.nodup_append]
    refine ⟨hl.nodup, by simp, ?_⟩
    rintro a ha b hb rfl
    simp only [List.map_cons, List.map_nil, List.mem_singleton] at hb
    exact hk (hb ▸ ha)

end IndexedLog

end DepaKms
