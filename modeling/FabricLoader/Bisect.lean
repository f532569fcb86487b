/-! Binary search over indices. Where a property holds up to some point of a range and not from there
on, the search finds that point. -/
namespace FabricLoader

/-- The point of the range `low ≤ i < high` up to which `p` holds. -/
def bisect (p : Nat → Bool) (low high : Nat) : Nat :=
  if low < high then
    let middle := low + (high - low) / 2
    if p middle then bisect p (middle + 1) high else bisect p low middle
  else low
termination_by high - low

theorem bisect_le (p : Nat → Bool) {low high : Nat} (h : low ≤ high) : bisect p low high ≤ high := by
  fun_induction bisect p low high with
  | case1 low high lt middle holds ih => exact ih (by omega)
  | case2 low high lt middle fails ih => exact Nat.le_trans (ih (by omega)) (by omega)
  | case3 low high le => exact h

/-- Below the answer the property holds. -/
theorem holds_of_lt_bisect {p : Nat → Bool} (down : ∀ i j, i ≤ j → p j → p i) {low high i : Nat}
    (below : ∀ j < low, p j) (h : i < bisect p low high) : p i := by
  fun_induction bisect p low high with
  | case1 low high lt middle holds ih => exact ih (fun j hj => down j middle (by omega) holds) h
  | case2 low high lt middle fails ih => exact ih below h
  | case3 low high le => exact below i h

/-- From the answer on, the property fails as far as the range goes. -/
theorem fails_of_bisect_le {p : Nat → Bool} (down : ∀ i j, i ≤ j → p j → p i) {low high i : Nat}
    (h : bisect p low high ≤ i) (bound : i < high) : p i = false := by
  fun_induction bisect p low high with
  | case1 low high lt middle holds ih => exact ih h bound
  | case2 low high lt middle fails ih =>
    by_cases inside : i < middle
    · exact ih h inside
    · cases hi : p i with
      | false => rfl
      | true => exact absurd (down middle i (by omega) hi) fails
  | case3 low high le => omega

end FabricLoader
