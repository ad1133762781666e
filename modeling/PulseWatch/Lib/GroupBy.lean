import Mathlib.Data.List.Dedup
import Mathlib.Data.List.Induction
import Mathlib.Logic.Function.Basic
import PulseWatch.Lib.OrderBy

/-!
# PARTITION BY, GROUP BY and a dictionary of the result

`row_number()` numbers the rows of each partition from one in the order of its window,
rows with equal keys in any order. GROUP BY gives one row for each key that occurs. The
order of neither result is fixed.
-/

namespace GroupBy

variable {α β κ ν : Type*} [DecidableEq κ]

theorem filter_flatMap {f : κ → List β} {g : β → κ} (hf : ∀ k, ∀ b ∈ f k, g b = k) {ks : List κ}
    (hks : ks.Nodup) (k : κ) :
    (ks.flatMap f).filter (fun b => g b = k) = if k ∈ ks then f k else [] := by
  induction ks with
  | nil => rfl
  | cons j js ih =>
    obtain ⟨hj, hjs⟩ := List.nodup_cons.mp hks
    rw [List.flatMap_cons, List.filter_append, ih hjs]
    by_cases hjk : j = k
    · subst hjk
      rw [if_neg hj, if_pos List.mem_cons_self, List.append_nil, List.filter_eq_self]
      exact fun b hb => decide_eq_true (hf j b hb)
    · have hother : (f j).filter (fun b => g b = k) = [] := by
        rw [List.filter_eq_nil_iff]
        exact fun b hb hbk => hjk ((hf j b hb).symm.trans (of_decide_eq_true hbk))
      rw [hother, List.nil_append]
      refine if_congr ?_ rfl rfl
      rw [List.mem_cons, or_iff_right (Ne.symm hjk)]

/-! ### The first row of each partition -/

section
variable [LinearOrder ν] {part : α → κ} {key : α → ν}

/- A result of `row_number() OVER (PARTITION BY part ORDER BY key)`. -/
def Numbered (part : α → κ) (key : α → ν) (rows : List α) (result : List (α × ℕ)) : Prop :=
  ∀ k, ∃ sorted, OrderBy.Ordered key (rows.filter fun a => part a = k) sorted ∧
    (result.filter fun p => part p.1 = k).Perm (sorted.zipIdx 1)

/- A database that has made its choice. -/
structure Numbering (part : α → κ) (key : α → ν) where
  number : List α → List (α × ℕ)
  numbered : ∀ rows, Numbered part key rows (number rows)

def mergeNumbering (part : α → κ) (key : α → ν) : Numbering part key where
  number rows := (rows.map part).dedup.flatMap fun k =>
    ((OrderBy.mergeSorter key).sort (rows.filter fun a => part a = k)).zipIdx 1
  numbered rows k := by
    have hordered := (OrderBy.mergeSorter key).ordered (rows.filter fun a => part a = k)
    refine ⟨_, hordered, ?_⟩
    rw [filter_flatMap (fun j p hp => ?_) (List.nodup_dedup _)]
    · split
      · exact List.Perm.rfl
      · next hk =>
        have hnone : rows.filter (fun a => part a = k) = [] := by
          rw [List.filter_eq_nil_iff]
          intro a ha hak
          exact hk (List.mem_dedup.mpr (List.mem_map.mpr ⟨a, ha, of_decide_eq_true hak⟩))
        rw [hnone] at hordered ⊢
        rw [List.perm_nil.mp hordered.perm]
        exact List.Perm.rfl
    · have hmem := ((OrderBy.mergeSorter key).ordered _).perm.mem_iff.mp
        (List.fst_mem_of_mem_zipIdx hp)
      simpa using (List.mem_filter.mp hmem).2

def firsts (result : List (α × ℕ)) : List α := (result.filter fun p => p.2 = 1).map Prod.fst

theorem firsts_zipIdx (sorted : List α) : firsts (sorted.zipIdx 1) = sorted.head?.toList := by
  cases sorted with
  | nil => rfl
  | cons a rest =>
    have hlater : (rest.zipIdx 2).filter (fun p => p.2 = 1) = [] := by
      rw [List.filter_eq_nil_iff]
      intro p hp hone
      have htwo := List.le_snd_of_mem_zipIdx hp
      simp only [decide_eq_true_eq] at hone
      omega
    rw [firsts, List.zipIdx_cons, List.filter_cons_of_pos (by simp), hlater]
    rfl

/- A partition has a first row exactly if it has a row, and that one comes first. -/
theorem Numbered.first {rows : List α} {result : List (α × ℕ)} (h : Numbered part key rows result)
    (k : κ) : ∃ first : Option α, (firsts result).filter (fun a => part a = k) = first.toList ∧
      (first = none ↔ ∀ a ∈ rows, part a ≠ k) ∧
      ∀ a, first = some a → (a ∈ rows ∧ part a = k) ∧ ∀ b ∈ rows, part b = k → key a ≤ key b := by
  obtain ⟨sorted, hordered, hperm⟩ := h k
  have hmem : ∀ a, a ∈ sorted ↔ a ∈ rows ∧ part a = k := by
    intro a
    rw [hordered.perm.mem_iff, List.mem_filter, decide_eq_true_eq]
  refine ⟨sorted.head?, ?_, ?_, ?_⟩
  · have hswap : (firsts result).filter (fun a => part a = k) =
        firsts (result.filter fun p => part p.1 = k) := by
      rw [firsts, firsts, List.filter_map, List.filter_filter, List.filter_filter]
      congr 1
      refine List.filter_congr fun p _ => ?_
      exact Bool.and_comm _ _
    have hfirst : (firsts (result.filter fun p => part p.1 = k)).Perm sorted.head?.toList := by
      rw [← firsts_zipIdx]
      exact (hperm.filter _).map _
    rw [hswap]
    cases hhead : sorted.head? with
    | none =>
      rw [hhead] at hfirst
      exact List.perm_nil.mp hfirst
    | some a =>
      rw [hhead] at hfirst
      exact List.perm_singleton.mp hfirst
  · rw [List.head?_eq_none_iff, List.eq_nil_iff_forall_not_mem]
    refine forall_congr' fun a => ?_
    rw [hmem, not_and]
  · intro a ha
    obtain ⟨rest, rfl⟩ := List.head?_eq_some_iff.mp ha
    refine ⟨(hmem a).mp List.mem_cons_self, fun b hb hbk => ?_⟩
    rcases List.mem_cons.mp ((hmem b).mpr ⟨hb, hbk⟩) with rfl | hrest
    · exact le_rfl
    · exact (List.pairwise_cons.mp hordered.sorted).1 b hrest

end

/-! ### One row for each key -/

/- A result of `SELECT key, agg(...) ... GROUP BY key`. -/
structure Grouped (key : α → κ) (agg : List α → β) (rows : List α) (result : List (κ × β)) :
    Prop where
  nodup : (result.map Prod.fst).Nodup
  mem : ∀ k v, (k, v) ∈ result ↔
    (∃ a ∈ rows, key a = k) ∧ v = agg (rows.filter fun a => key a = k)

structure Grouping (key : α → κ) (agg : List α → β) where
  group : List α → List (κ × β)
  grouped : ∀ rows, Grouped key agg rows (group rows)

def dedupGrouping (key : α → κ) (agg : List α → β) : Grouping key agg where
  group rows := (rows.map key).dedup.map fun k => (k, agg (rows.filter fun a => key a = k))
  grouped rows := by
    constructor
    · rw [List.map_map]
      exact (List.map_id (rows.map key).dedup).symm ▸ List.nodup_dedup _
    · intro k v
      rw [List.mem_map]
      constructor
      · rintro ⟨j, hj, hjk⟩
        obtain ⟨rfl, rfl⟩ := Prod.mk.inj hjk
        exact ⟨List.mem_map.mp (List.mem_dedup.mp hj), rfl⟩
      · rintro ⟨hk, rfl⟩
        exact ⟨k, List.mem_dedup.mpr (List.mem_map.mpr hk), rfl⟩

/-! ### A dictionary filled in a loop -/

/-- `for row in rows: d[row.key] = row.value`. -/
def toDict (rows : List (κ × β)) : κ → Option β :=
  rows.foldl (fun d row => Function.update d row.1 (some row.2)) fun _ => none

/- Of several rows with one key the last stays. -/
theorem toDict_eq (rows : List (κ × β)) (k : κ) :
    toDict rows k = (rows.filter fun row => row.1 = k).getLast?.map Prod.snd := by
  induction rows using List.reverseRecOn with
  | nil => rfl
  | append_singleton rows row ih =>
    rw [toDict, List.foldl_append, ← toDict, List.filter_append]
    by_cases hk : row.1 = k
    · subst hk
      simp
    · rw [List.foldl_cons, List.foldl_nil, Function.update_of_ne (Ne.symm hk), ih,
        List.filter_cons_of_neg (by simpa using hk), List.filter_nil, List.append_nil]

theorem toDict_map (key : α → κ) (value : α → β) (rows : List α) (k : κ) :
    toDict (rows.map fun a => (key a, value a)) k =
      (rows.filter fun a => key a = k).getLast?.map value := by
  rw [toDict_eq, List.filter_map, List.getLast?_map, Option.map_map]
  rfl

theorem Grouped.toDict {key : α → κ} {agg : List α → β} {rows : List α} {result : List (κ × β)}
    (h : Grouped key agg rows result) (k : κ) : toDict result k =
      if ∃ a ∈ rows, key a = k then some (agg (rows.filter fun a => key a = k)) else none := by
  rw [toDict_eq]
  cases hlast : (result.filter fun row => row.1 = k).getLast? with
  | none =>
    have hnil : result.filter (fun row => row.1 = k) = [] := List.getLast?_eq_none_iff.mp hlast
    rw [List.filter_eq_nil_iff] at hnil
    rw [if_neg]
    · rfl
    · intro hk
      have hno := hnil _ ((h.mem k _).mpr ⟨hk, rfl⟩)
      exact hno (decide_eq_true rfl)
  | some row =>
    have hrow := List.mem_filter.mp (List.mem_of_getLast? hlast)
    obtain rfl := of_decide_eq_true hrow.2
    obtain ⟨hk, hv⟩ := (h.mem row.1 row.2).mp hrow.1
    rw [if_pos hk, Option.map_some, hv]

end GroupBy
