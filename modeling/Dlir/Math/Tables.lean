import Mathlib.Data.List.Perm.Basic
import Mathlib.Tactic.Common

namespace Dlir.Math

open Std

variable {α β : Type} {cmp : α → α → Ordering} [TransCmp cmp] [LawfulEqCmp cmp]

/-- Enters all pairs of a list into an ordered table, the later ones over the earlier. -/
def insertAll (table : ExtTreeMap α β cmp) (entries : List (α × β)) : ExtTreeMap α β cmp :=
  entries.foldl (fun table entry => table.insert entry.1 entry.2) table

omit [LawfulEqCmp cmp] in
theorem insertAll_append (table : ExtTreeMap α β cmp) (entries entries' : List (α × β)) :
    insertAll table (entries ++ entries') = insertAll (insertAll table entries) entries' :=
  List.foldl_append

omit [LawfulEqCmp cmp] in
theorem insertAll_flatMap {γ : Type} (table : ExtTreeMap α β cmp) (xs : List γ)
    (entries : γ → List (α × β)) :
    insertAll table (xs.flatMap entries) =
      xs.foldl (fun table x => insertAll table (entries x)) table := by
  induction xs generalizing table with
  | nil => rfl
  | cons x xs ih => rw [List.flatMap_cons, insertAll_append, ih, List.foldl_cons]

theorem getElem?_insertAll_of_notMem {table : ExtTreeMap α β cmp} {entries : List (α × β)} {k : α}
    (hk : k ∉ entries.map Prod.fst) : (insertAll table entries)[k]? = table[k]? := by
  induction entries generalizing table with
  | nil => rfl
  | cons entry entries ih =>
    rw [List.map_cons, List.mem_cons, not_or] at hk
    show (insertAll (table.insert entry.1 entry.2) entries)[k]? = _
    rw [ih hk.2, ExtTreeMap.getElem?_insert, if_neg]
    exact fun h => hk.1 (LawfulEqCmp.eq_of_compare h).symm

/-- Keys that are entered once stand for what was entered. -/
theorem getElem?_insertAll {table : ExtTreeMap α β cmp} {entries : List (α × β)}
    (hkeys : (entries.map Prod.fst).Nodup) {k : α} {v : β} (hmem : (k, v) ∈ entries) :
    (insertAll table entries)[k]? = some v := by
  induction entries generalizing table with
  | nil => simp at hmem
  | cons entry entries ih =>
    rw [List.map_cons, List.nodup_cons] at hkeys
    show (insertAll (table.insert entry.1 entry.2) entries)[k]? = _
    rcases List.mem_cons.mp hmem with rfl | hmem
    · rw [getElem?_insertAll_of_notMem hkeys.1, ExtTreeMap.getElem?_insert_self]
    · exact ih hkeys.2 hmem

/-- A table made of distinct keys lists what was entered. -/
theorem toList_insertAll_perm {entries : List (α × β)} (hkeys : (entries.map Prod.fst).Nodup) :
    (insertAll (∅ : ExtTreeMap α β cmp) entries).toList.Perm entries := by
  have hdistinct : (insertAll (∅ : ExtTreeMap α β cmp) entries).toList.Nodup := by
    refine (ExtTreeMap.distinct_keys_toList).imp ?_
    rintro a b hab rfl
    exact hab ReflCmp.compare_self
  have hentries : entries.Nodup := by
    refine (List.pairwise_map.mp hkeys).imp ?_
    rintro a b hab rfl
    exact hab rfl
  rw [List.perm_ext_iff_of_nodup hdistinct hentries]
  rintro ⟨k, v⟩
  rw [ExtTreeMap.mem_toList_iff_getElem?_eq_some]
  constructor
  · intro hget
    by_cases hk : k ∈ entries.map Prod.fst
    · obtain ⟨⟨k', v'⟩, hmem, rfl⟩ := List.mem_map.mp hk
      rw [getElem?_insertAll hkeys hmem] at hget
      obtain rfl := Option.some.inj hget
      exact hmem
    · rw [getElem?_insertAll_of_notMem hk, ExtTreeMap.getElem?_empty] at hget
      cases hget
  · exact getElem?_insertAll hkeys

end Dlir.Math
