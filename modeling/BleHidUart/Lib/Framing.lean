import Mathlib.Data.List.Basic
import Mathlib.Order.Nat
import Mathlib.Tactic.Common

/-!
# Deframing a buffer

A scanner looks at the head of the input and says what to do: skip one item, take a packet of `n`
items, which may be handed on, or stop. `deframe` repeats this until the input is used up.

* `deframe_flatMap`: a concatenation of frames that the scanner recognises is taken apart again.
* `length_deframe_le`: the frames handed on have at most the items of the input; if they have all of
  them, the input is their concatenation (`flatMap_deframe`).
* `deframe_pieces_iff`: deframing the pieces of a concatenation one by one gives the same frames
  exactly when every piece is itself a concatenation of frames.
-/

namespace BleHidUart.Lib.Framing

variable {α κ ι : Type*}

/-- What a scanner does at the head of the input. -/
inductive Scan (κ : Type*)
  | skip
  | packet (n : ℕ) (out : Option κ)
  | stop

/-- The deframing loop. Each round takes at least one item: the fuel is a bound on the length. -/
def deframeLoop (scan : List α → Scan κ) : ℕ → List α → List κ
  | 0, _ => []
  | _ + 1, [] => []
  | fuel + 1, x :: xs =>
    match scan (x :: xs) with
    | .skip => deframeLoop scan fuel xs
    | .packet n out => out.toList ++ deframeLoop scan fuel ((x :: xs).drop n)
    | .stop => []

/-- Deframing a whole input. -/
def deframe (scan : List α → Scan κ) (xs : List α) : List κ := deframeLoop scan xs.length xs

/-- A packet has items, it lies in the input, and what is handed on are its items. -/
def Sound (scan : List α → Scan κ) (items : κ → List α) : Prop :=
  ∀ xs n out, scan xs = .packet n out → 0 < n ∧ n ≤ xs.length ∧ ∀ k ∈ out, items k = xs.take n

/-- Whatever follows it, the frame is taken as one packet and handed on as `k`. -/
def Recognises (scan : List α → Scan κ) (frame : List α) (k : κ) : Prop :=
  frame ≠ [] ∧ ∀ rest, scan (frame ++ rest) = .packet frame.length (some k)

/-! ### The loop -/

variable {scan : List α → Scan κ} {items : κ → List α}

@[simp] theorem deframeLoop_nil (fuel : ℕ) : deframeLoop scan fuel [] = [] := by
  cases fuel <;> rfl

/-- More fuel than items makes no difference. -/
theorem deframeLoop_eq (hs : Sound scan items) : ∀ (fuel : ℕ) (xs : List α), xs.length ≤ fuel →
    deframeLoop scan fuel xs = deframe scan xs := by
  have hany : ∀ (n fuel fuel' : ℕ) (xs : List α), xs.length ≤ n → n ≤ fuel → n ≤ fuel' →
      deframeLoop scan fuel xs = deframeLoop scan fuel' xs := by
    intro n
    induction n with
    | zero =>
      intro fuel fuel' xs hn _ _
      obtain rfl := List.length_eq_zero_iff.mp (Nat.le_zero.mp hn)
      rw [deframeLoop_nil, deframeLoop_nil]
    | succ n ih =>
      intro fuel fuel' xs hn hf hf'
      obtain ⟨f, rfl⟩ := Nat.exists_eq_add_of_lt (Nat.lt_of_lt_of_le (Nat.succ_pos n) hf)
      obtain ⟨f', rfl⟩ := Nat.exists_eq_add_of_lt (Nat.lt_of_lt_of_le (Nat.succ_pos n) hf')
      rw [Nat.zero_add] at hf hf' ⊢
      rw [Nat.zero_add]
      cases xs with
      | nil => rw [deframeLoop_nil, deframeLoop_nil]
      | cons x xs =>
        rw [List.length_cons] at hn
        simp only [deframeLoop]
        cases hx : scan (x :: xs) with
        | skip => exact ih f f' xs (by omega) (by omega) (by omega)
        | stop => rfl
        | packet k out =>
          have hk := (hs _ _ _ hx).1
          refine congrArg _ (ih f f' _ ?_ (by omega) (by omega))
          rw [List.length_drop, List.length_cons]
          omega
  exact fun fuel xs h => hany xs.length fuel xs.length xs le_rfl h le_rfl

theorem deframe_nil : deframe scan [] = [] := deframeLoop_nil _

theorem deframe_skip {x : α} {xs : List α} (h : scan (x :: xs) = .skip) :
    deframe scan (x :: xs) = deframe scan xs := by
  unfold deframe
  rw [List.length_cons]
  simp only [deframeLoop, h]

theorem deframe_stop {xs : List α} (h : scan xs = .stop) : deframe scan xs = [] := by
  cases xs with
  | nil => exact deframe_nil
  | cons x xs =>
    unfold deframe
    rw [List.length_cons]
    simp only [deframeLoop, h]

theorem deframe_packet (hs : Sound scan items) {xs : List α} {n : ℕ} {out : Option κ}
    (h : scan xs = .packet n out) :
    deframe scan xs = out.toList ++ deframe scan (xs.drop n) := by
  obtain ⟨hn, hle, -⟩ := hs _ _ _ h
  cases xs with
  | nil =>
    rw [List.length_nil] at hle
    omega
  | cons x xs =>
    have hloop : deframe scan (x :: xs) =
        out.toList ++ deframeLoop scan xs.length ((x :: xs).drop n) := by
      unfold deframe
      rw [List.length_cons]
      simp only [deframeLoop, h]
    rw [hloop, deframeLoop_eq hs]
    rw [List.length_drop, List.length_cons]
    omega

/-! ### Concatenations of frames -/

theorem deframe_append (hs : Sound scan items) {frame : List α} {k : κ}
    (h : Recognises scan frame k) (rest : List α) :
    deframe scan (frame ++ rest) = k :: deframe scan rest := by
  rw [deframe_packet hs (h.2 rest), List.drop_left]
  rfl

theorem Recognises.items_eq (hs : Sound scan items) {frame : List α} {k : κ}
    (h : Recognises scan frame k) : items k = frame := by
  have hk := (hs _ _ _ (h.2 [])).2.2 k rfl
  rwa [List.append_nil, List.take_length] at hk

/-- **Deframing undoes concatenation.** -/
theorem deframe_flatMap (hs : Sound scan items) {frame : ι → List α} {out : ι → κ}
    (h : ∀ i, Recognises scan (frame i) (out i)) (is : List ι) :
    deframe scan (is.flatMap frame) = is.map out := by
  induction is with
  | nil => exact deframe_nil
  | cons i is ih => rw [List.flatMap_cons, deframe_append hs (h i), ih, List.map_cons]

theorem deframe_flatten {scan : List α → Scan (List α)} (hs : Sound scan id)
    {frames : List (List α)} (h : ∀ f ∈ frames, Recognises scan f f) :
    deframe scan frames.flatten = frames := by
  induction frames with
  | nil => exact deframe_nil
  | cons f fs ih =>
    have hrest := ih fun g hg => h g (List.mem_cons_of_mem f hg)
    rw [List.flatten_cons, deframe_append hs (h f List.mem_cons_self), hrest]

/-! ### What is handed on covers disjoint parts of the input -/

/-- The frames handed on have at most the items of the input, and all of them only if the input is
their concatenation. -/
theorem length_deframe (hs : Sound scan items) (n : ℕ) : ∀ xs : List α, xs.length ≤ n →
    ((deframe scan xs).flatMap items).length ≤ xs.length ∧
      (((deframe scan xs).flatMap items).length = xs.length →
        (deframe scan xs).flatMap items = xs) := by
  induction n with
  | zero =>
    intro xs hn
    obtain rfl := List.length_eq_zero_iff.mp (Nat.le_zero.mp hn)
    rw [deframe_nil]
    exact ⟨le_rfl, fun _ => rfl⟩
  | succ n ih =>
    intro xs hn
    cases hx : scan xs with
    | stop =>
      rw [deframe_stop hx]
      exact ⟨Nat.zero_le _, fun h => (List.length_eq_zero_iff.mp h.symm).symm⟩
    | skip =>
      cases xs with
      | nil =>
        rw [deframe_nil]
        exact ⟨le_rfl, fun _ => rfl⟩
      | cons x xs =>
        rw [List.length_cons] at hn ⊢
        have hrest := (ih xs (by omega)).1
        rw [deframe_skip hx]
        exact ⟨by omega, fun h => by omega⟩
    | packet k out =>
      obtain ⟨hk, hle, hout⟩ := hs _ _ _ hx
      have hdrop : (xs.drop k).length = xs.length - k := List.length_drop
      obtain ⟨hlen, heq⟩ := ih (xs.drop k) (by omega)
      rw [deframe_packet hs hx]
      cases out with
      | none =>
        rw [Option.toList_none, List.nil_append]
        exact ⟨by omega, fun h => by omega⟩
      | some c =>
        have hc : items c = xs.take k := hout c rfl
        have htake : (xs.take k).length = k := by
          rw [List.length_take]
          omega
        rw [Option.toList_some, List.singleton_append, List.flatMap_cons, List.length_append, hc,
          htake]
        refine ⟨by omega, fun h => ?_⟩
        rw [heq (by omega), List.take_append_drop]

theorem length_deframe_le (hs : Sound scan items) (xs : List α) :
    ((deframe scan xs).flatMap items).length ≤ xs.length :=
  (length_deframe hs xs.length xs le_rfl).1

theorem flatMap_deframe (hs : Sound scan items) {xs : List α}
    (h : ((deframe scan xs).flatMap items).length = xs.length) :
    (deframe scan xs).flatMap items = xs :=
  (length_deframe hs xs.length xs le_rfl).2 h

/-! ### Pieces -/

/-- If the frames of the pieces have all the items of the pieces, each piece is the concatenation of
its frames. -/
theorem flatMap_deframe_of_pieces (hs : Sound scan items) : ∀ pieces : List (List α),
    pieces.flatten.length ≤ ((pieces.flatMap (deframe scan)).flatMap items).length →
    ∀ p ∈ pieces, (deframe scan p).flatMap items = p := by
  have hle : ∀ pieces : List (List α),
      ((pieces.flatMap (deframe scan)).flatMap items).length ≤ pieces.flatten.length := by
    intro pieces
    induction pieces with
    | nil => exact le_rfl
    | cons p ps ih =>
      have hp := length_deframe_le hs p
      rw [List.flatMap_cons, List.flatMap_append, List.flatten_cons, List.length_append,
        List.length_append]
      omega
  intro pieces
  induction pieces with
  | nil => exact fun _ _ hp => absurd hp List.not_mem_nil
  | cons p ps ih =>
    intro h q hq
    have hp := length_deframe_le hs p
    have hps := hle ps
    rw [List.flatMap_cons, List.flatMap_append, List.flatten_cons, List.length_append,
      List.length_append] at h
    rcases List.mem_cons.mp hq with rfl | hq
    · exact flatMap_deframe hs (by omega)
    · exact ih (by omega) q hq

/-- **Pieces of a concatenation** give the frames exactly when each of them is a concatenation of
frames: when no frame is cut. -/
theorem deframe_pieces_iff (hs : Sound scan items) {frame : ι → List α} {out : ι → κ}
    (h : ∀ i, Recognises scan (frame i) (out i)) {is : List ι} {pieces : List (List α)}
    (hp : pieces.flatten = is.flatMap frame) :
    pieces.flatMap (deframe scan) = is.map out ↔
      ∃ groups : List (List ι), groups.flatten = is ∧ pieces = groups.map (List.flatMap frame) := by
  constructor
  · intro heq
    have hlen : pieces.flatten.length ≤
        ((pieces.flatMap (deframe scan)).flatMap items).length := by
      rw [heq, hp, List.flatMap_map]
      exact le_of_eq (congrArg List.length (List.flatMap_congr fun i _ => ((h i).items_eq hs).symm))
    have htile := flatMap_deframe_of_pieces hs pieces hlen
    clear hlen hp
    induction pieces generalizing is with
    | nil =>
      have his : is = [] := List.map_eq_nil_iff.mp heq.symm
      exact ⟨[], by rw [his]; rfl, rfl⟩
    | cons p ps ih =>
      rw [List.flatMap_cons] at heq
      obtain ⟨is₁, is₂, rfl, h₁, h₂⟩ := List.map_eq_append_iff.mp heq.symm
      obtain ⟨groups, hflat, hps⟩ := ih h₂.symm fun q hq => htile q (List.mem_cons_of_mem p hq)
      refine ⟨is₁ :: groups, by rw [List.flatten_cons, hflat], ?_⟩
      have hpiece : p = is₁.flatMap frame := by
        have ht := htile p List.mem_cons_self
        rw [← h₁, List.flatMap_map] at ht
        rw [← ht]
        exact List.flatMap_congr fun i _ => (h i).items_eq hs
      rw [List.map_cons, hps, hpiece]
  · rintro ⟨groups, rfl, rfl⟩
    clear hp
    induction groups with
    | nil => rfl
    | cons g gs ih =>
      rw [List.map_cons, List.flatMap_cons, deframe_flatMap hs h, ih, List.flatten_cons,
        List.map_append]

end BleHidUart.Lib.Framing
