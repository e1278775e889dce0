import Mathlib.Data.List.TakeWhile
import Mathlib.Tactic

/-!
# Trying the elements of a list until one succeeds

The elements before the first success are tried and fail; no element after it is tried.
-/

namespace SoftEtherVpn.Foundation

variable {α : Type*} (ok : α → Bool)

/-- The elements that are tried, each with whether it succeeds. -/
def attempts : List α → List (α × Bool)
  | [] => []
  | a :: as => if ok a then [(a, true)] else (a, false) :: attempts as

theorem attempts_eq (as : List α) :
    attempts ok as = (as.takeWhile fun a => !ok a).map (fun a => (a, false)) ++
      (as.find? ok).toList.map fun a => (a, true) := by
  induction as with
  | nil => simp [attempts]
  | cons a as ih => cases ha : ok a <;> simp [attempts, ha, ih]

theorem attempts_isPrefix (as : List α) : (attempts ok as).map Prod.fst <+: as := by
  induction as with
  | nil => simp [attempts]
  | cons a as ih => cases ha : ok a <;> simp [attempts, ha, List.cons_prefix_cons, ih]

theorem mem_attempts {as : List α} {a : α} {b : Bool} (h : (a, b) ∈ attempts ok as) :
    a ∈ as ∧ ok a = b := by
  constructor
  · apply (attempts_isPrefix ok as).subset
    exact List.mem_map_of_mem h
  · rw [attempts_eq, List.mem_append] at h
    rcases h with h | h
    · obtain ⟨c, hc, heq⟩ := List.mem_map.mp h
      obtain ⟨rfl, rfl⟩ := Prod.mk.inj heq
      simpa using List.mem_takeWhile_imp hc
    · obtain ⟨c, hc, heq⟩ := List.mem_map.mp h
      obtain ⟨rfl, rfl⟩ := Prod.mk.inj heq
      exact List.find?_some (Option.mem_toList.mp hc)

/-- An element that could have succeeded is enough for one to succeed. -/
theorem exists_success_iff (as : List α) :
    (∃ a, (a, true) ∈ attempts ok as) ↔ ∃ a ∈ as, ok a = true := by
  constructor
  · rintro ⟨a, ha⟩
    exact ⟨a, mem_attempts ok ha⟩
  · rintro ⟨a, ha, hok⟩
    obtain ⟨c, hc⟩ := Option.isSome_iff_exists.mp (List.find?_isSome.mpr ⟨a, ha, hok⟩)
    use c
    rw [attempts_eq, hc]
    simp

theorem attempts_of_all_fail {as : List α} (h : ∀ a ∈ as, ok a = false) {a : α} (ha : a ∈ as) :
    (a, false) ∈ attempts ok as := by
  have hall : as.takeWhile (fun a => !ok a) = as := by
    apply List.takeWhile_eq_self_iff.mpr
    intro c hc
    simp [h c hc]
  rw [attempts_eq, hall]
  exact List.mem_append_left _ (List.mem_map_of_mem ha)

end SoftEtherVpn.Foundation
