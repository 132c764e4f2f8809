import Mathlib.Data.List.GetD
import Mathlib.Data.List.Range
import Mathlib.Logic.Function.Basic
import Mathlib.Tactic.Common

/-!
# Memories of cells

A memory is a function from addresses to cell contents. `store m a bs` writes the buffer `bs` from
address `a` on, `slice m a n` reads `n` cells from address `a` on. The frame rules say which cells a
store leaves alone (`store_of_lt`, `store_of_ge`, `slice_store_of_le`), and `slice_store`,
`slice_store_append` what is read back.
-/

namespace BleHidUart.Lib.Memory

variable {β : Type*}

/-- The cells `a, a + 1, …, a + bs.length - 1` get the contents of the buffer. -/
def store (m : ℕ → β) (a : ℕ) (bs : List β) : ℕ → β :=
  fun i => if a ≤ i then bs.getD (i - a) (m i) else m i

/-- The contents of `n` cells from address `a` on. -/
def slice (m : ℕ → β) (a n : ℕ) : List β := (List.range' a n).map m

/-! ### One store -/

@[simp] theorem store_nil (m : ℕ → β) (a : ℕ) : store m a [] = m := by
  funext i; simp [store]

theorem store_of_lt {m : ℕ → β} {a i : ℕ} (bs : List β) (h : i < a) : store m a bs i = m i := by
  unfold store; rw [if_neg (by omega)]

theorem store_of_ge {m : ℕ → β} {a i : ℕ} {bs : List β} (h : a + bs.length ≤ i) :
    store m a bs i = m i := by
  unfold store
  split_ifs
  · exact List.getD_eq_default _ _ (by omega)
  · rfl

theorem store_add {m : ℕ → β} {a k : ℕ} {bs : List β} (h : k < bs.length) :
    store m a bs (a + k) = bs[k] := by
  unfold store
  rw [if_pos (by omega), Nat.add_sub_cancel_left, List.getD_eq_getElem _ _ h]

theorem store_cons (m : ℕ → β) (a : ℕ) (b : β) (bs : List β) :
    store m a (b :: bs) = store (Function.update m a b) (a + 1) bs := by
  funext i
  rcases lt_trichotomy i a with h | rfl | h
  · rw [store_of_lt _ h, store_of_lt _ (by omega), Function.update_of_ne (by omega)]
  · have hnew : store (Function.update m i b) (i + 1) bs i = b := by
      rw [store_of_lt _ (by omega), Function.update_self]
    rw [hnew]
    simp [store]
  · obtain ⟨k, rfl⟩ : ∃ k, i = a + 1 + k := ⟨i - (a + 1), by omega⟩
    unfold store
    rw [if_pos (by omega), if_pos (by omega), Function.update_of_ne (by omega),
      show a + 1 + k - a = k + 1 by omega, Nat.add_sub_cancel_left, List.getD_cons_succ]

theorem store_append (m : ℕ → β) (a : ℕ) (xs ys : List β) :
    store m a (xs ++ ys) = store (store m a xs) (a + xs.length) ys := by
  induction xs generalizing m a with
  | nil => simp
  | cons x xs ih =>
    rw [List.cons_append, store_cons, store_cons, ih, List.length_cons]
    congr 1
    omega

/-! ### Slices -/

@[simp] theorem length_slice (m : ℕ → β) (a n : ℕ) : (slice m a n).length = n := by simp [slice]

@[simp] theorem slice_zero (m : ℕ → β) (a : ℕ) : slice m a 0 = [] := rfl

theorem slice_succ (m : ℕ → β) (a n : ℕ) : slice m a (n + 1) = m a :: slice m (a + 1) n := by
  simp [slice, List.range'_succ]

theorem slice_add (m : ℕ → β) (a n k : ℕ) :
    slice m a (n + k) = slice m a n ++ slice m (a + n) k := by
  simp [slice, ← List.range'_append_1]

theorem slice_congr {m m' : ℕ → β} {a n : ℕ} (h : ∀ i, a ≤ i → i < a + n → m i = m' i) :
    slice m a n = slice m' a n := by
  refine List.map_congr_left fun i hi => ?_
  obtain ⟨h1, h2⟩ := List.mem_range'_1.mp hi
  exact h i h1 h2

theorem getElem_slice {m : ℕ → β} {a n k : ℕ} (h : k < (slice m a n).length) :
    (slice m a n)[k] = m (a + k) := by simp [slice]

theorem take_slice (m : ℕ → β) (a n k : ℕ) : (slice m a n).take k = slice m a (min k n) := by
  rcases le_total k n with h | h
  · rw [slice, ← List.map_take, List.take_range'_of_length_ge h, min_eq_left h, slice]
  · rw [List.take_of_length_le (by rwa [length_slice]), min_eq_right h]

theorem drop_slice (m : ℕ → β) (a n k : ℕ) : (slice m a n).drop k = slice m (a + k) (n - k) := by
  rw [slice, ← List.map_drop, List.drop_range', Nat.mul_one, slice]

/-! ### Reading after a store -/

theorem slice_store (m : ℕ → β) (a : ℕ) (bs : List β) : slice (store m a bs) a bs.length = bs := by
  refine List.ext_getElem (by simp) fun k h1 h2 => ?_
  rw [getElem_slice, store_add h2]

theorem slice_store_of_le {m : ℕ → β} {a b n : ℕ} {bs : List β} (h : b + n ≤ a) :
    slice (store m a bs) b n = slice m b n :=
  slice_congr fun _ _ h2 => store_of_lt _ (by omega)

theorem slice_store_append (m : ℕ → β) (a n : ℕ) (bs : List β) :
    slice (store m (a + n) bs) a (n + bs.length) = slice m a n ++ bs := by
  rw [slice_add, slice_store_of_le le_rfl, slice_store]

end BleHidUart.Lib.Memory
