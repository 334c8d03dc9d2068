import Mathlib.Algebra.BigOperators.Pi
import Transcriber.Library.Table

/-! Cumulative histograms: for each bound, how many observations are at most that.
The tally of a list of observations is the sum of the tallies of its members, so it may be
built up in any grouping and in any order.
-/

namespace Histogram

universe u v

variable {α : Type u} [Preorder α] [DecidableLE α]

/-- How many observations are at most each bound. -/
def tally (bounds observations : List α) : List Nat :=
  bounds.map (fun bound => observations.countP (fun value => value ≤ bound))

theorem length_tally (bounds observations : List α)
    : (tally bounds observations).length = bounds.length :=
  List.length_map _

/-- A bucket counts no more than all observations. -/
theorem tally_le {bounds observations : List α}
    : ∀ bucket ∈ tally bounds observations, bucket ≤ observations.length := by
  rw [tally, List.forall_mem_map]
  exact fun bound _ => List.countP_le_length

/-- Over increasing bounds the buckets do not decrease: what is at most a bound is at most the
later ones.
-/
theorem tally_increasing {bounds : List α} (increasing : bounds.Pairwise (· ≤ ·))
    (observations : List α)
    : (tally bounds observations).Pairwise (· ≤ ·) := by
  refine List.pairwise_map.mpr (increasing.imp ?_)
  intro low high order
  refine List.countP_mono_left (fun value _ small => ?_)
  simp only [decide_eq_true_eq] at small ⊢
  exact small.trans order

/-- What one observation adds to each bucket. -/
def increments (bounds : List α) (value : α) : List Nat :=
  bounds.map (fun bound => if value ≤ bound then 1 else 0)

theorem length_increments (bounds : List α) (value : α)
    : (increments bounds value).length = bounds.length :=
  List.length_map _

/-- A bucket of a list of buckets, as a function that is zero past its end. -/
def bucket (buckets : List Nat) (index : Nat) : Nat := buckets.getD index 0

/-- Buckets added one by one. -/
theorem bucket_zipWith {left right : List Nat} (same : left.length = right.length)
    : bucket (List.zipWith (· + ·) left right) = bucket left + bucket right := by
  funext index
  simp only [bucket, Pi.add_apply, List.getD_eq_getElem?_getD, List.getElem?_zipWith]
  rcases lt_or_ge index left.length with within | past
  · rw [List.getElem?_eq_getElem within, List.getElem?_eq_getElem (same ▸ within)]
    rfl
  · rw [List.getElem?_eq_none past, List.getElem?_eq_none (same ▸ past)]
    rfl

theorem bucket_replicate (length : Nat) : bucket (List.replicate length 0) = 0 := by
  funext index
  simp only [bucket, List.getD_eq_getElem?_getD, List.getElem?_replicate, Pi.zero_apply]
  split <;> rfl

/-- Buckets that add up the increments of the observations are their tally. -/
theorem eq_tally {bounds observations : List α} {buckets : List Nat}
    (length : buckets.length = bounds.length)
    (sum
      : bucket buckets
        = (observations.map (fun value => bucket (increments bounds value))).sum)
    : buckets = tally bounds observations := by
  refine List.ext_getElem (length.trans (length_tally _ _).symm) ?_
  intro index within within'
  have inside : index < bounds.length := length ▸ within
  have here := congrFun sum index
  rw [Pi.list_sum_apply, List.map_map] at here
  have read : bucket buckets index = buckets[index] := by
    simp [bucket, List.getD_eq_getElem?_getD, within]
  rw [← read, here]
  simp only [tally, List.getElem_map, Table.countP_eq_sum]
  congr 1
  refine List.map_congr_left (fun value _ => ?_)
  simp [bucket, increments, List.getD_eq_getElem?_getD, inside]

end Histogram
