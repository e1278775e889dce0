import Mathlib.Tactic

/-!
# Registers that a sequence overwrites

Each element of a sequence may write a register; after the sequence the register
holds the last write, or what it held before. A second sequence with further elements in it
leaves the same value as long as those elements do not write.
-/

namespace SoftEtherVpn.Foundation

variable {α β σ : Type*}

/-- The last value that an element of the list writes. -/
def lastWrite (writes : α → Option β) : List α → Option β
  | [] => none
  | a :: as => (lastWrite writes as).or (writes a)

theorem lastWrite_cons_getD (writes : α → Option β) (a : α) (as : List α) (old : β) :
    (lastWrite writes (a :: as)).getD old =
      (lastWrite writes as).getD ((writes a).getD old) := by
  rw [lastWrite]
  cases lastWrite writes as <;> simp

theorem lastWrite_append (writes : α → Option β) (as bs : List α) :
    lastWrite writes (as ++ bs) = (lastWrite writes bs).or (lastWrite writes as) := by
  induction as with
  | nil => simp [lastWrite]
  | cons a as ih => rw [List.cons_append, lastWrite, lastWrite, ih, Option.or_assoc]

theorem lastWrite_concat (writes : α → Option β) (as : List α) (a : α) :
    lastWrite writes (as ++ [a]) = (writes a).or (lastWrite writes as) := by
  rw [lastWrite_append]
  rfl

theorem exists_of_lastWrite {writes : α → Option β} {as : List α} {b : β}
    (h : lastWrite writes as = some b) : ∃ a ∈ as, writes a = some b := by
  induction as with
  | nil => cases h
  | cons a as ih =>
    rcases Option.or_eq_some_iff.mp h with h | ⟨-, h⟩
    · obtain ⟨c, hc, hb⟩ := ih h
      exact ⟨c, List.mem_cons_of_mem a hc, hb⟩
    · exact ⟨a, List.mem_cons_self, h⟩

/-- Every step overwrites the register that `get` reads or keeps it, and so does the whole list. -/
theorem foldl_lastWrite {step : σ → α → σ} {writes : α → Option β} (get : σ → β)
    (hstep : ∀ s a, get (step s a) = (writes a).getD (get s)) (as : List α) (s : σ) :
    get (as.foldl step s) = (lastWrite writes as).getD (get s) := by
  induction as generalizing s with
  | nil => rfl
  | cons a as ih => rw [List.foldl_cons, ih, hstep, lastWrite_cons_getD]

/-- The second list is the first with elements of `extra` put in before `tail`. -/
inductive InsertedBefore (extra : α → Prop) (tail : List α) : List α → List α → Prop
  | tail : InsertedBefore extra tail tail tail
  | keep (a : α) {as bs : List α} (h : InsertedBefore extra tail as bs) :
      InsertedBefore extra tail (a :: as) (a :: bs)
  | insert {a : α} {as bs : List α} (ha : extra a) (h : InsertedBefore extra tail as bs) :
      InsertedBefore extra tail as (a :: bs)

namespace InsertedBefore

variable {extra : α → Prop} {tail as bs : List α}

theorem length_le (h : InsertedBefore extra tail as bs) : tail.length ≤ as.length := by
  induction h with
  | tail => exact le_rfl
  | keep a h ih => exact ih.trans (Nat.le_succ _)
  | insert ha h ih => exact ih

theorem front (h : InsertedBefore extra tail as bs) :
    ∃ front front', as = front ++ tail ∧ bs = front' ++ tail ∧
      InsertedBefore extra [] front front' := by
  induction h with
  | tail => exact ⟨[], [], rfl, rfl, .tail⟩
  | keep a h ih =>
    obtain ⟨front, front', rfl, rfl, hfront⟩ := ih
    exact ⟨a :: front, a :: front', rfl, rfl, .keep a hfront⟩
  | insert ha h ih =>
    obtain ⟨front, front', rfl, rfl, hfront⟩ := ih
    exact ⟨front, _ :: front', rfl, rfl, .insert ha hfront⟩

theorem lastWrite_eq {writes : α → Option β} (hextra : ∀ a, extra a → writes a = none)
    (h : InsertedBefore extra tail as bs) : lastWrite writes bs = lastWrite writes as := by
  induction h with
  | tail => rfl
  | keep a h ih => rw [lastWrite, lastWrite, ih]
  | insert ha h ih => rw [lastWrite, hextra _ ha, ih, Option.or_none]

end InsertedBefore

end SoftEtherVpn.Foundation
