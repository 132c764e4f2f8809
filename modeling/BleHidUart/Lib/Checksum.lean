import Mathlib.Data.List.GetD
import Mathlib.Data.Nat.ModEq
import Mathlib.Tactic.Common
import Mathlib.Tactic.Ring

/-!
# Position-weighted checksums

`weightedSum w bs` adds the entries of `bs`, weighted with `w, w + 1, …`; a checksum is its residue
modulo `m`. As long as the products stay below `m`, the residue tells a changed entry
(`eq_of_modEq_set`) and two exchanged entries (`eq_of_modEq_exchange`).
-/

namespace BleHidUart.Lib.Checksum

/-- The entries, weighted with `w, w + 1, …`. -/
def weightedSum (w : ℕ) : List ℕ → ℕ
  | [] => 0
  | b :: bs => w * b + weightedSum (w + 1) bs

theorem weightedSum_set (b : ℕ) : ∀ (w : ℕ) (bs : List ℕ) (i : ℕ), i < bs.length →
    weightedSum w (bs.set i b) + (w + i) * bs.getD i 0 = weightedSum w bs + (w + i) * b
  | _, [], i, h => absurd h (Nat.not_lt_zero i)
  | w, x :: xs, 0, _ => by
    simp only [List.set_cons_zero, weightedSum, List.getD_cons_zero, Nat.add_zero]
    omega
  | w, x :: xs, i + 1, h => by
    have ih := weightedSum_set b (w + 1) xs i (Nat.lt_of_succ_lt_succ h)
    have hw : w + (i + 1) = w + 1 + i := by omega
    simp only [List.set_cons_succ, weightedSum, List.getD_cons_succ]
    rw [hw]
    omega

/-- The entries `i` and `j`, exchanged. -/
def exchange {α : Type*} (d : α) (bs : List α) (i j : ℕ) : List α :=
  (bs.set i (bs.getD j d)).set j (bs.getD i d)

theorem weightedSum_exchange {w : ℕ} {bs : List ℕ} {i j : ℕ} (hij : i < j) (hj : j < bs.length) :
    weightedSum w (exchange 0 bs i j) + ((w + i) * bs.getD i 0 + (w + j) * bs.getD j 0) =
      weightedSum w bs + ((w + i) * bs.getD j 0 + (w + j) * bs.getD i 0) := by
  have hfirst := weightedSum_set (bs.getD j 0) w bs i (hij.trans hj)
  have hsecond := weightedSum_set (bs.getD i 0) w (bs.set i (bs.getD j 0)) j
    (by rw [List.length_set]; exact hj)
  have hsame : (bs.set i (bs.getD j 0)).getD j 0 = bs.getD j 0 := by
    simp only [List.getD_eq_getElem?_getD, List.getElem?_set_ne hij.ne]
  rw [hsame] at hsecond
  unfold exchange
  omega

section Detection
variable {m w : ℕ} {bs : List ℕ} {i : ℕ}

/-- **A changed entry changes the residue.** -/
theorem eq_of_modEq_set {b : ℕ} (hi : i < bs.length) (hw : 0 < w + i)
    (hold : (w + i) * bs.getD i 0 < m) (hnew : (w + i) * b < m)
    (h : weightedSum w (bs.set i b) ≡ weightedSum w bs [MOD m]) : b = bs.getD i 0 := by
  have hsum := weightedSum_set b w bs i hi
  have hprod : (w + i) * bs.getD i 0 ≡ (w + i) * b [MOD m] := by
    refine Nat.ModEq.add_left_cancel h ?_
    rw [hsum]
  exact (Nat.eq_of_mul_eq_mul_left hw (hprod.eq_of_lt_of_lt hold hnew)).symm

/-- **Two different entries that are exchanged change the residue.** -/
theorem eq_of_modEq_exchange {j : ℕ} (hij : i < j) (hj : j < bs.length)
    (hleft : (j - i) * bs.getD i 0 < m) (hright : (j - i) * bs.getD j 0 < m)
    (h : weightedSum w (exchange 0 bs i j) ≡ weightedSum w bs [MOD m]) :
    bs.getD i 0 = bs.getD j 0 := by
  have hsum := weightedSum_exchange (w := w) hij hj
  obtain ⟨d, rfl⟩ := Nat.exists_eq_add_of_le hij.le
  rw [Nat.add_sub_cancel_left] at hleft hright
  generalize bs.getD i 0 = x at *
  generalize bs.getD (i + d) 0 = y at *
  have hprod : d * y ≡ d * x [MOD m] := by
    have hboth : (w + i) * x + (w + (i + d)) * y ≡ (w + i) * y + (w + (i + d)) * x [MOD m] := by
      refine Nat.ModEq.add_left_cancel h ?_
      rw [hsum]
    have hl : (w + i) * x + (w + (i + d)) * y = (w + i) * (x + y) + d * y := by ring
    have hr : (w + i) * y + (w + (i + d)) * x = (w + i) * (x + y) + d * x := by ring
    rw [hl, hr] at hboth
    exact Nat.ModEq.add_left_cancel' _ hboth
  have hd : 0 < d := by omega
  exact (Nat.eq_of_mul_eq_mul_left hd (hprod.eq_of_lt_of_lt hright hleft)).symm

end Detection

end BleHidUart.Lib.Checksum
