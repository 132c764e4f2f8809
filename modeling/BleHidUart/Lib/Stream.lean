import BleHidUart.Lib.Run
import Mathlib.Data.List.Basic
import Mathlib.Tactic.Common

/-!
# Streams through a machine

A machine takes items in with its inputs, holds some of them and hands some on with its outputs. A
`Flow` says which; a `Channel` never has more than it was given, and loses nothing in a step exactly
under a condition `C`, as long as the stream of items is `Good`.

* `Channel.kept_iff`: what a run has handed on, followed by what it holds, is the whole stream
  exactly when every step meets `C`.
* `Channel.frames_iff`: for a stream of frames of one size, the frames handed on are those of the
  stream exactly when every step meets `C`.
-/

namespace BleHidUart.Lib.Stream

open BleHidUart.Lib.Run

variable {σ ι ω α β κ : Type*}

/-- How items pass through a machine. -/
structure Flow (σ ι ω α : Type*) where
  arrives : ι → List α
  held : σ → List α
  items : ω → List α

variable (step : σ → ι → σ × List ω) (f : Flow σ ι ω α)

/-- What a step starts from: what is held and what arrives. -/
def Flow.given (s : σ) (i : ι) : List α := f.held s ++ f.arrives i

/-- What a step leaves of it: what is handed on and what is held then. -/
def Flow.left (s : σ) (i : ι) : List α := (step s i).2.flatMap f.items ++ f.held (step s i).1

/-- The steps that meet `G` make nothing up, and lose nothing exactly under `C`. -/
structure Channel (G C : σ → ι → Prop) (Good : List α → Prop) : Prop where
  shrinks : ∀ s i, G s i → (f.left step s i).length ≤ (f.given s i).length
  passes : ∀ s i future, G s i → Good (f.given s i ++ future) → C s i →
    f.left step s i = f.given s i ∧ Good (f.held (step s i).1 ++ future)
  loses : ∀ s i future, G s i → Good (f.given s i ++ future) → ¬ C s i →
    (f.left step s i).length < (f.given s i).length

variable {step f} {G C : σ → ι → Prop} {Good : List α → Prop}

/-! ### Runs -/

theorem Channel.length_le (h : Channel step f G C Good) {s : σ} {is : List ι}
    (hG : EachStep step G s is) :
    ((outs step s is).flatMap f.items ++ f.held (final step s is)).length ≤
      (f.held s ++ is.flatMap f.arrives).length := by
  induction is generalizing s with
  | nil => simp
  | cons i is ih =>
    have hstep := h.shrinks s i hG.1
    have hrest := ih hG.2
    simp only [Flow.left, Flow.given, outs_cons, final_cons, List.flatMap_append, List.flatMap_cons,
      List.length_append] at hstep hrest ⊢
    omega

/-- **Nothing is lost** in a run exactly when every step meets the condition. -/
theorem Channel.kept_iff (h : Channel step f G C Good) {s : σ} {is : List ι}
    (hG : EachStep step G s is) (hgood : Good (f.held s ++ is.flatMap f.arrives)) :
    (outs step s is).flatMap f.items ++ f.held (final step s is) =
      f.held s ++ is.flatMap f.arrives ↔ EachStep step C s is := by
  induction is generalizing s with
  | nil => simp
  | cons i is ih =>
    rw [List.flatMap_cons, ← List.append_assoc] at hgood ⊢
    rw [outs_cons, List.flatMap_append, List.append_assoc, eachStep_cons]
    by_cases hC : C s i
    · obtain ⟨hkeep, hnext⟩ := h.passes s i _ hG.1 hgood hC
      have hsame : f.held s ++ f.arrives i = f.left step s i := hkeep.symm
      rw [hsame, Flow.left, List.append_assoc, List.append_cancel_left_eq, final_cons,
        ih hG.2 hnext]
      exact (and_iff_right hC).symm
    · refine ⟨fun heq => ?_, fun hall => absurd hall.1 hC⟩
      have hlt := h.loses s i _ hG.1 hgood hC
      have hrest := h.length_le hG.2
      have hlen := congrArg List.length heq
      simp only [Flow.left, Flow.given, final_cons, List.length_append] at hlt hrest hlen
      omega

theorem Channel.good_final (h : Channel step f G C Good) {s : σ} {is : List ι}
    (hG : EachStep step G s is) (hgood : Good (f.held s ++ is.flatMap f.arrives))
    (hC : EachStep step C s is) : Good (f.held (final step s is)) := by
  induction is generalizing s with
  | nil => rwa [List.flatMap_nil, List.append_nil] at hgood
  | cons i is ih =>
    rw [List.flatMap_cons, ← List.append_assoc] at hgood
    exact ih hG.2 (h.passes s i _ hG.1 hgood hC.1).2 hC.2

/-! ### Frames of one size -/

/-- A stretch of whole frames at the beginning of a stream. -/
theorem flatMap_split {frame : β → List α} {n : ℕ} (hn : 0 < n) (hf : ∀ b, (frame b).length = n)
    {xs ys : List α} {bs : List β} (h : xs ++ ys = bs.flatMap frame) {k : ℕ}
    (hx : xs.length = k * n) :
    xs = (bs.take k).flatMap frame ∧ ys = (bs.drop k).flatMap frame := by
  induction k generalizing xs bs with
  | zero =>
    rw [Nat.zero_mul] at hx
    obtain rfl := List.length_eq_zero_iff.mp hx
    exact ⟨rfl, h⟩
  | succ k ih =>
    rw [Nat.succ_mul] at hx
    cases bs with
    | nil =>
      have hlen := congrArg List.length h
      rw [List.length_append, List.flatMap_nil, List.length_nil] at hlen
      omega
    | cons b bs =>
      have hb := hf b
      have hhead : xs.take n ++ (xs.drop n ++ ys) = frame b ++ bs.flatMap frame := by
        rw [← List.append_assoc, List.take_append_drop, h, List.flatMap_cons]
      have htake : (xs.take n).length = (frame b).length := by
        rw [List.length_take]
        omega
      obtain ⟨h1, h2⟩ := List.append_inj hhead htake
      obtain ⟨h3, h4⟩ := ih h2 (by rw [List.length_drop]; omega)
      refine ⟨?_, h4⟩
      rw [List.take_succ_cons, List.flatMap_cons, ← h1, ← h3, List.take_append_drop]

/-- A concatenation of frames of one size determines them. -/
theorem eq_map_of_flatMap_eq {frame : κ → List α} {bytes : β → List α} {out : β → κ} {n : ℕ}
    (hn : 0 < n) (hb : ∀ b, (bytes b).length = n) : ∀ {ks : List κ} {bs : List β},
    (∀ k ∈ ks, (frame k).length = n ∧ ∀ b, frame k = bytes b → k = out b) →
    ks.flatMap frame = bs.flatMap bytes → ks = bs.map out := by
  intro ks
  induction ks with
  | nil =>
    intro bs _ heq
    cases bs with
    | nil => rfl
    | cons b bs =>
      have hlen := congrArg List.length heq
      rw [List.flatMap_nil, List.flatMap_cons, List.length_append, hb, List.length_nil] at hlen
      omega
  | cons k ks ih =>
    intro bs hks heq
    obtain ⟨hlen, hk⟩ := hks k List.mem_cons_self
    cases bs with
    | nil =>
      have hzero := congrArg List.length heq
      rw [List.flatMap_nil, List.flatMap_cons, List.length_append, hlen, List.length_nil] at hzero
      omega
    | cons b bs =>
      rw [List.flatMap_cons, List.flatMap_cons] at heq
      obtain ⟨h1, h2⟩ := List.append_inj heq (by rw [hlen, hb])
      rw [List.map_cons, hk b h1, ih (fun j hj => hks j (List.mem_cons_of_mem k hj)) h2]

/-- **The frames handed on are those of the stream** exactly when every step meets the condition, if
nothing is held at the beginning, and nothing at the end of such a run. -/
theorem Channel.frames_iff (h : Channel step f G C Good) {got : ω → List κ} {frame : κ → List α}
    {bytes : β → List α} {out : β → κ} {n : ℕ} (hn : 0 < n) (hb : ∀ b, (bytes b).length = n)
    (hitems : ∀ o, f.items o = (got o).flatMap frame) (hout : ∀ b, frame (out b) = bytes b)
    (hgot : ∀ o, ∀ k ∈ got o, (frame k).length = n ∧ ∀ b, frame k = bytes b → k = out b)
    {s : σ} {is : List ι} {bs : List β} (hG : EachStep step G s is) (h0 : f.held s = [])
    (harr : is.flatMap f.arrives = bs.flatMap bytes) (hgood : Good (bs.flatMap bytes))
    (hlast : EachStep step C s is → f.held (final step s is) = []) :
    (outs step s is).flatMap got = bs.map out ↔ EachStep step C s is := by
  have hiff := h.kept_iff hG (by rwa [h0, List.nil_append, harr])
  have hle := h.length_le hG
  have hflat : (outs step s is).flatMap f.items = ((outs step s is).flatMap got).flatMap frame := by
    rw [List.flatMap_assoc]
    exact List.flatMap_congr fun o _ => hitems o
  rw [h0, List.nil_append, harr, hflat] at hiff hle
  constructor
  · intro heq
    have hbytes : (bs.map out).flatMap frame = bs.flatMap bytes := by
      rw [List.flatMap_map]
      exact List.flatMap_congr fun b _ => hout b
    rw [heq, hbytes] at hiff hle
    refine hiff.mp ?_
    rw [List.length_append] at hle
    have hnil := List.length_eq_zero_iff.mp (by omega : (f.held (final step s is)).length = 0)
    rw [hnil, List.append_nil]
  · intro hC
    have heq := hiff.mpr hC
    rw [hlast hC, List.append_nil] at heq
    refine eq_map_of_flatMap_eq hn hb (fun k hk => ?_) heq
    obtain ⟨o, -, hko⟩ := List.mem_flatMap.mp hk
    exact hgot o k hko

end BleHidUart.Lib.Stream
