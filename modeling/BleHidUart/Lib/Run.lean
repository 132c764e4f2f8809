import Mathlib.Data.List.Basic
import Mathlib.Data.List.Forall2
import Mathlib.Data.List.Induction
import Mathlib.Tactic.Common

/-!
# Runs of a deterministic machine

A machine is a function `step : σ → ι → σ × List ω`: a state and an input give the next state and
the outputs of the step. `final` and `outs` are the state and the outputs of a run on a list of
inputs. `EachStep P` says that `P` holds of every state of the run together with the input it is
given there; it serves both for the assumptions on a run and for what is proved about its steps.

* `final_induction`: an invariant kept by the steps holds at the end of every run.
* `run_replicate`: the same input over and over.
* `eachStep_of_invariant`, `eachStep_congr`: the steps of a run all start in invariant states.
* `forall_prefix_iff_eachStep`: when each step keeps a property exactly under a condition, the
  property holds all along a run exactly when every step meets the condition.
* `final_audible`, `outs_audible`, `eachStep_audible`: inputs that leave no trace can be dropped
  from a run.
* `final_filter`, `outs_filter`: the same for inputs that are told apart without looking at the
  state, so that an observer of one part of the machine sees the run of the inputs for this part
  alone.
* `final_flatMap`, `outs_flatMap`: a machine whose steps are runs of another machine;
  `final_batches`, `outs_batches` if these runs depend on the state.
* `final_seen`, `outs_seen`: a machine above another one, whose steps are runs of it on a part of
  the state.
* `refines_blocks`: a machine above another one, one step of which is a block of inputs below.
* `final_related`, `outs_related`: two machines whose steps keep a relation between their states.
* `exists_putBy`: what is in a slot was put there by a step, and kept by every step since.
* `withHistory`: a machine with a history variable beside its state.
-/

namespace BleHidUart.Lib.Run

variable {σ ι ω γ : Type*}

section Machine
variable (step : σ → ι → σ × List ω)

/-- The state a run ends in. -/
def final (s : σ) : List ι → σ
  | [] => s
  | i :: is => final (step s i).1 is

/-- The outputs of a run, in order. -/
def outs (s : σ) : List ι → List ω
  | [] => []
  | i :: is => (step s i).2 ++ outs (step s i).1 is

/-- `P` holds at every step of the run, of the state and the input it starts with. -/
def EachStep (P : σ → ι → Prop) (s : σ) : List ι → Prop
  | [] => True
  | i :: is => P s i ∧ EachStep P (step s i).1 is

instance EachStep.decidable (P : σ → ι → Prop) [∀ s i, Decidable (P s i)] :
    ∀ (s : σ) (is : List ι), Decidable (EachStep step P s is)
  | _, [] => .isTrue trivial
  | s, i :: is =>
    have := EachStep.decidable P (step s i).1 is
    inferInstanceAs (Decidable (P s i ∧ EachStep step P (step s i).1 is))

@[simp] theorem final_nil (s : σ) : final step s [] = s := rfl

@[simp] theorem final_cons (s : σ) (i : ι) (is : List ι) :
    final step s (i :: is) = final step (step s i).1 is := rfl

@[simp] theorem outs_nil (s : σ) : outs step s [] = [] := rfl

@[simp] theorem outs_cons (s : σ) (i : ι) (is : List ι) :
    outs step s (i :: is) = (step s i).2 ++ outs step (step s i).1 is := rfl

@[simp] theorem eachStep_nil (P : σ → ι → Prop) (s : σ) : EachStep step P s [] := trivial

@[simp] theorem eachStep_cons (P : σ → ι → Prop) (s : σ) (i : ι) (is : List ι) :
    EachStep step P s (i :: is) ↔ P s i ∧ EachStep step P (step s i).1 is := Iff.rfl

theorem final_append (s : σ) (xs ys : List ι) :
    final step s (xs ++ ys) = final step (final step s xs) ys := by
  induction xs generalizing s with
  | nil => rfl
  | cons x xs ih => exact ih _

theorem outs_append (s : σ) (xs ys : List ι) :
    outs step s (xs ++ ys) = outs step s xs ++ outs step (final step s xs) ys := by
  induction xs generalizing s with
  | nil => rfl
  | cons x xs ih => rw [List.cons_append, outs_cons, outs_cons, final_cons, ih, List.append_assoc]

theorem eachStep_append (P : σ → ι → Prop) (s : σ) (xs ys : List ι) :
    EachStep step P s (xs ++ ys) ↔
      EachStep step P s xs ∧ EachStep step P (final step s xs) ys := by
  induction xs generalizing s with
  | nil => simp
  | cons x xs ih => simp [ih, and_assoc]

end Machine

section Rules
variable {step : σ → ι → σ × List ω}

/-- The invariant rule: an invariant kept by every step that meets `G` holds at the end. -/
theorem final_induction {Inv : σ → Prop} {G : σ → ι → Prop}
    (hstep : ∀ s i, Inv s → G s i → Inv (step s i).1) {s : σ} (h0 : Inv s) :
    ∀ {is : List ι}, EachStep step G s is → Inv (final step s is) := by
  intro is hG
  induction is generalizing s with
  | nil => exact h0
  | cons i is ih => exact ih (hstep s i h0 hG.1) hG.2

theorem final_invariant {Inv : σ → Prop} (hstep : ∀ s i, Inv s → Inv (step s i).1) {s : σ}
    (h0 : Inv s) (is : List ι) : Inv (final step s is) := by
  induction is generalizing s with
  | nil => exact h0
  | cons i is ih => exact ih (hstep s i h0)

/-- What an invariant gives at a step, it gives at every step of a run. -/
theorem eachStep_of_invariant {Inv : σ → Prop} {G P : σ → ι → Prop}
    (hstep : ∀ s i, Inv s → G s i → Inv (step s i).1) (hP : ∀ s i, Inv s → G s i → P s i)
    {s : σ} (h0 : Inv s) {is : List ι} (hG : EachStep step G s is) : EachStep step P s is := by
  induction is generalizing s with
  | nil => trivial
  | cons i is ih => exact ⟨hP s i h0 hG.1, ih (hstep s i h0 hG.1) hG.2⟩

theorem forall_outs {Inv : σ → Prop} {Q : ω → Prop}
    (hstep : ∀ s i, Inv s → Inv (step s i).1) (hQ : ∀ s i, Inv s → ∀ o ∈ (step s i).2, Q o)
    {s : σ} (h0 : Inv s) (is : List ι) : ∀ o ∈ outs step s is, Q o := by
  induction is generalizing s with
  | nil => simp
  | cons i is ih =>
    intro o ho
    rcases List.mem_append.mp ho with h | h
    · exact hQ s i h0 o h
    · exact ih (hstep s i h0) o h

theorem eachStep_true (s : σ) (is : List ι) : EachStep step (fun _ _ => True) s is := by
  induction is generalizing s with
  | nil => trivial
  | cons i is ih => exact ⟨trivial, ih _⟩

theorem eachStep_of_forall {P : σ → ι → Prop} {is : List ι} (h : ∀ s, ∀ i ∈ is, P s i) (s : σ) :
    EachStep step P s is := by
  induction is generalizing s with
  | nil => trivial
  | cons i is ih =>
    exact ⟨h s i List.mem_cons_self, ih (fun s j hj => h s j (List.mem_cons_of_mem _ hj)) _⟩

theorem eachStep_and {P Q : σ → ι → Prop} {s : σ} {is : List ι} :
    EachStep step (fun s i => P s i ∧ Q s i) s is ↔ EachStep step P s is ∧
      EachStep step Q s is := by
  induction is generalizing s with
  | nil => simp
  | cons i is ih => simp only [eachStep_cons, ih]; tauto

theorem eachStep_congr {Inv : σ → Prop} {P Q : σ → ι → Prop}
    (hstep : ∀ s i, Inv s → Inv (step s i).1) (hPQ : ∀ s i, Inv s → (P s i ↔ Q s i)) {s : σ}
    (h0 : Inv s) (is : List ι) : EachStep step P s is ↔ EachStep step Q s is := by
  induction is generalizing s with
  | nil => simp
  | cons i is ih => rw [eachStep_cons, eachStep_cons, hPQ s i h0, ih (hstep s i h0)]

theorem eachStep_iff {P Q : σ → ι → Prop} (hPQ : ∀ s i, P s i ↔ Q s i) (s : σ) (is : List ι) :
    EachStep step P s is ↔ EachStep step Q s is := by
  have hstep : ∀ (_ : σ) (_ : ι), True → True := fun _ _ _ => trivial
  exact eachStep_congr hstep (fun s i _ => hPQ s i) trivial is

/-- Two properties of a step that agree in invariant states agree along a run, also when the steps
meet `G` and the invariant is only kept by those with the property. -/
theorem eachStep_congr_guard {Inv : σ → Prop} {G P Q : σ → ι → Prop}
    (hstep : ∀ s i, Inv s → G s i → P s i → Inv (step s i).1)
    (hPQ : ∀ s i, Inv s → G s i → (P s i ↔ Q s i)) {s : σ} (h0 : Inv s) {is : List ι}
    (hG : EachStep step G s is) : EachStep step P s is ↔ EachStep step Q s is := by
  induction is generalizing s with
  | nil => simp
  | cons i is ih =>
    rw [eachStep_cons, eachStep_cons, hPQ s i h0 hG.1]
    refine and_congr_right fun hQ => ?_
    exact ih (hstep s i h0 hG.1 ((hPQ s i h0 hG.1).mpr hQ)) hG.2

/-- The same input over and over, with an invariant that counts the steps. -/
theorem run_replicate {Inv : ℕ → σ → Prop} {i : ι} {shown : ℕ → List ω}
    (hstep : ∀ k s, Inv k s → (step s i).2 = shown k ∧ Inv (k + 1) (step s i).1) (n : ℕ) {k : ℕ}
    {s : σ} (h : Inv k s) : outs step s (List.replicate n i) = (List.range' k n).flatMap shown ∧
      Inv (k + n) (final step s (List.replicate n i)) := by
  induction n generalizing k s with
  | zero => exact ⟨rfl, h⟩
  | succ n ih =>
    obtain ⟨hout, hnext⟩ := hstep k s h
    obtain ⟨houts, hfinal⟩ := ih hnext
    have hlast : k + (n + 1) = k + 1 + n := by omega
    rw [List.replicate_succ, outs_cons, final_cons, hout, houts, List.range'_succ,
      List.flatMap_cons, hlast]
    exact ⟨rfl, hfinal⟩

theorem eachStep_iff_forall {P : σ → ι → Prop} {s : σ} {is : List ι} :
    EachStep step P s is ↔ ∀ xs i ys, is = xs ++ i :: ys → P (final step s xs) i := by
  constructor
  · rintro h xs i ys rfl
    exact ((eachStep_append step P s xs (i :: ys)).mp h).2.1
  · intro h
    induction is generalizing s with
    | nil => trivial
    | cons i is ih =>
      exact ⟨h [] i is rfl, ih fun xs j ys hs => h (i :: xs) j ys (by rw [hs]; rfl)⟩

/-- **Exactly when.** If in the states of a run a step keeps `P` exactly when it meets `C`, then
`P` holds all along the run exactly when every step meets `C`. -/
theorem forall_prefix_iff_eachStep {Inv P : σ → Prop} {G C : σ → ι → Prop}
    (hInv : ∀ s i, Inv s → P s → G s i → C s i → Inv (step s i).1)
    (hP : ∀ s i, Inv s → P s → G s i → (P (step s i).1 ↔ C s i)) {s : σ} (h0 : Inv s) (hs : P s)
    {is : List ι} (hG : EachStep step G s is) :
    (∀ xs, xs <+: is → P (final step s xs)) ↔ EachStep step C s is := by
  induction is generalizing s with
  | nil =>
    refine ⟨fun _ => trivial, fun _ xs hxs => ?_⟩
    rw [List.prefix_nil.mp hxs]
    exact hs
  | cons i is ih =>
    constructor
    · intro h
      have hC : C s i := (hP s i h0 hs hG.1).mp (h [i] ⟨is, rfl⟩)
      have hnext : P (step s i).1 := (hP s i h0 hs hG.1).mpr hC
      refine ⟨hC, (ih (hInv s i h0 hs hG.1 hC) hnext hG.2).mp fun xs hxs => ?_⟩
      exact h (i :: xs) (List.cons_prefix_cons.mpr ⟨rfl, hxs⟩)
    · rintro ⟨hC, hrest⟩ xs hxs
      cases xs with
      | nil => exact hs
      | cons x xs =>
        obtain ⟨rfl, hxs'⟩ := List.cons_prefix_cons.mp hxs
        have hnext : P (step s x).1 := (hP s x h0 hs hG.1).mpr hC
        exact (ih (hInv s x h0 hs hG.1 hC) hnext hG.2).mpr hrest xs hxs'

end Rules

/-! ### Dropping silent inputs -/

section Silent
variable (step : σ → ι → σ × List ω) (silent : σ → ι → Prop) [∀ s i, Decidable (silent s i)]

/-- The inputs of a run that are not silent in the state they arrive in. -/
def audible (s : σ) : List ι → List ι
  | [] => []
  | i :: is => if silent s i then audible (step s i).1 is else i :: audible (step s i).1 is

variable {step silent} {R : σ → σ → Prop} {G P : σ → ι → Prop}

/-- The simulation rule with stuttering: the run without its silent inputs ends in a related state,
when a silent step keeps the relation on its own and any other step on both sides. -/
theorem final_audible (hsilent : ∀ s t i, R s t → G s i → silent s i → R (step s i).1 t)
    (hstep : ∀ s t i, R s t → G s i → ¬ silent s i → R (step s i).1 (step t i).1) {s t : σ}
    (h : R s t) {is : List ι} (hG : EachStep step G s is) :
    R (final step s is) (final step t (audible step silent s is)) := by
  induction is generalizing s t with
  | nil => exact h
  | cons i is ih =>
    unfold audible
    split_ifs with hi
    · exact ih (hsilent s t i h hG.1 hi) hG.2
    · exact ih (hstep s t i h hG.1 hi) hG.2

/-- What holds at a silent step anyway, and in related states alike, holds at every step of the run
exactly when it does without the silent inputs. -/
theorem eachStep_audible (hsilent : ∀ s t i, R s t → G s i → silent s i → R (step s i).1 t)
    (hstep : ∀ s t i, R s t → G s i → ¬ silent s i → R (step s i).1 (step t i).1)
    (hP : ∀ s i, silent s i → P s i) (hcongr : ∀ s t i, R s t → (P s i ↔ P t i)) {s t : σ}
    (h : R s t) {is : List ι} (hG : EachStep step G s is) :
    EachStep step P s is ↔ EachStep step P t (audible step silent s is) := by
  induction is generalizing s t with
  | nil => exact Iff.rfl
  | cons i is ih =>
    unfold audible
    split_ifs with hi
    · rw [eachStep_cons, and_iff_right (hP s i hi)]
      exact ih (hsilent s t i h hG.1 hi) hG.2
    · rw [eachStep_cons, eachStep_cons, hcongr s t i h]
      exact and_congr_right fun _ => ih (hstep s t i h hG.1 hi) hG.2

theorem outs_audible (hsilent : ∀ s t i, R s t → G s i → silent s i → R (step s i).1 t)
    (hstep : ∀ s t i, R s t → G s i → ¬ silent s i → R (step s i).1 (step t i).1) {keep : ω → Bool}
    (hquiet : ∀ s i, silent s i → (step s i).2.filter keep = [])
    (hsame : ∀ s t i, R s t → ¬ silent s i → (step s i).2.filter keep = (step t i).2.filter keep)
    {s t : σ} (h : R s t) {is : List ι} (hG : EachStep step G s is) :
    (outs step s is).filter keep = (outs step t (audible step silent s is)).filter keep := by
  induction is generalizing s t with
  | nil => rfl
  | cons i is ih =>
    unfold audible
    rw [outs_cons, List.filter_append]
    split_ifs with hi
    · rw [hquiet s i hi, List.nil_append]
      exact ih (hsilent s t i h hG.1 hi) hG.2
    · rw [outs_cons, List.filter_append, hsame s t i h hi]
      exact congrArg _ (ih (hstep s t i h hG.1 hi) hG.2)

theorem audible_eq_filter (step : σ → ι → σ × List ω) (own : ι → Bool) (s : σ) (is : List ι) :
    audible step (fun _ i => own i = false) s is = is.filter own := by
  induction is generalizing s with
  | nil => rfl
  | cons i is ih =>
    unfold audible
    cases hi : own i with
    | true => rw [if_neg (by decide), ih, List.filter_cons_of_pos hi]
    | false => rw [if_pos rfl, ih, List.filter_cons_of_neg (by rw [hi]; decide)]

end Silent

/-- **Unwinding.** An observer who sees nothing of a step on an input that is not `own`, and the
same of the others from states that look alike, ends where the run of the own inputs alone ends. -/
theorem final_filter {step : σ → ι → σ × List ω} {R : σ → σ → Prop} {own : ι → Bool}
    (hother : ∀ s t i, R s t → own i = false → R (step s i).1 t)
    (hown : ∀ s t i, R s t → own i = true → R (step s i).1 (step t i).1) {s t : σ} (h : R s t)
    (is : List ι) : R (final step s is) (final step t (is.filter own)) := by
  rw [← audible_eq_filter step own s is]
  exact final_audible (fun s t i hR _ hi => hother s t i hR hi)
    (fun s t i hR _ hi => hown s t i hR (Bool.not_eq_false _ ▸ hi)) h (eachStep_true s is)

theorem outs_filter {step : σ → ι → σ × List ω} {R : σ → σ → Prop} {own : ι → Bool}
    {keep : ω → Bool} (hother : ∀ s t i, R s t → own i = false → R (step s i).1 t)
    (hown : ∀ s t i, R s t → own i = true → R (step s i).1 (step t i).1)
    (hquiet : ∀ s i, own i = false → (step s i).2.filter keep = [])
    (hsame : ∀ s t i, R s t → own i = true → (step s i).2.filter keep = (step t i).2.filter keep)
    {s t : σ} (h : R s t) (is : List ι) :
    (outs step s is).filter keep = (outs step t (is.filter own)).filter keep := by
  rw [← audible_eq_filter step own s is]
  exact outs_audible (fun s t i hR _ hi => hother s t i hR hi)
    (fun s t i hR _ hi => hown s t i hR (Bool.not_eq_false _ ▸ hi)) hquiet
    (fun s t i hR hi => hsame s t i hR (Bool.not_eq_false _ ▸ hi)) h (eachStep_true s is)

theorem filter_outs {step : σ → ι → σ × List ω} {keep : ω → Bool} {is : List ι}
    (h : ∀ s, ∀ i ∈ is, ∀ o ∈ (step s i).2, keep o = true) (s : σ) :
    (outs step s is).filter keep = outs step s is := by
  refine List.filter_eq_self.mpr ?_
  induction is generalizing s with
  | nil => exact fun o ho => absurd ho List.not_mem_nil
  | cons i is ih =>
    intro o ho
    rcases List.mem_append.mp ho with ho | ho
    · exact h s i List.mem_cons_self o ho
    · exact ih (fun s j hj => h s j (List.mem_cons_of_mem _ hj)) _ o ho

/-! ### Batches -/

section Batch
variable {β : Type*} {step : σ → ι → σ × List ω} {batch : β → List ι} {batchStep : σ → β →
  σ × List ω}
  (h : ∀ s b, batchStep s b = (final step s (batch b), outs step s (batch b)))
include h

theorem final_flatMap (s : σ) (bs : List β) :
    final batchStep s bs = final step s (bs.flatMap batch) := by
  induction bs generalizing s with
  | nil => rfl
  | cons b bs ih => rw [final_cons, h, ih, List.flatMap_cons, final_append]

theorem outs_flatMap (s : σ) (bs : List β) :
    outs batchStep s bs = outs step s (bs.flatMap batch) := by
  induction bs generalizing s with
  | nil => rfl
  | cons b bs ih => rw [outs_cons, h, ih, List.flatMap_cons, outs_append]

end Batch

/-- The batch of an input may also depend on the state it arrives in: the run of the batches. -/
def batches {β : Type*} (batch : σ → β → List ι) (batchStep : σ → β → σ × List ω) (s : σ) :
    List β → List ι
  | [] => []
  | b :: bs => batch s b ++ batches batch batchStep (batchStep s b).1 bs

theorem batches_append {β : Type*} (batch : σ → β → List ι) (batchStep : σ → β → σ × List ω) (s : σ)
    (xs ys : List β) : batches batch batchStep s (xs ++ ys) =
      batches batch batchStep s xs ++ batches batch batchStep (final batchStep s xs) ys := by
  induction xs generalizing s with
  | nil => rfl
  | cons x xs ih => rw [List.cons_append, batches, ih, batches, List.append_assoc, final_cons]

section StateBatch
variable {β : Type*} {step : σ → ι → σ × List ω} {batch : σ → β → List ι}
  {batchStep : σ → β → σ × List ω}
  (h : ∀ s b, batchStep s b = (final step s (batch s b), outs step s (batch s b)))
include h

theorem final_batches (s : σ) (bs : List β) :
    final step s (batches batch batchStep s bs) = final batchStep s bs := by
  induction bs generalizing s with
  | nil => rfl
  | cons b bs ih =>
    have hb : final step s (batch s b) = (batchStep s b).1 := by rw [h]
    rw [batches, final_append, hb, ih, final_cons]

theorem outs_batches (s : σ) (bs : List β) :
    outs step s (batches batch batchStep s bs) = outs batchStep s bs := by
  induction bs generalizing s with
  | nil => rfl
  | cons b bs ih =>
    have hb : final step s (batch s b) = (batchStep s b).1 := by rw [h]
    have hout : outs step s (batch s b) = (batchStep s b).2 := by rw [h]
    rw [batches, outs_append, hb, hout, ih, outs_cons]

end StateBatch

/-! ### A machine above another one -/

/-- The inputs the machine below is given in a run of the machine above. -/
def seen {τ β : Type*} (above : τ → β → τ × List ω) (given : τ → β → List ι) (t : τ) :
    List β → List ι
  | [] => []
  | b :: bs => given t b ++ seen above given (above t b).1 bs

section Above
variable {τ β : Type*} {step : σ → ι → σ × List ω} {above : τ → β → τ × List ω} {given : τ → β →
  List ι}
  {view : τ → σ} (h : ∀ t b, view (above t b).1 = final step (view t) (given t b))
include h

theorem final_seen (t : τ) (bs : List β) :
    view (final above t bs) = final step (view t) (seen above given t bs) := by
  induction bs generalizing t with
  | nil => rfl
  | cons b bs ih => rw [final_cons, ih, h, seen, final_append]

theorem outs_seen (hout : ∀ t b, (above t b).2 = outs step (view t) (given t b)) (t : τ)
    (bs : List β) : outs above t bs = outs step (view t) (seen above given t bs) := by
  induction bs generalizing t with
  | nil => rfl
  | cons b bs ih => rw [outs_cons, ih, hout, h, seen, outs_append]

end Above

/-- **Sessions.** If what a block of inputs shows an observer is what one step of the machine above
puts out, then what a run of blocks shows is what the run above puts out. -/
theorem refines_blocks {τ β : Type*} {step : σ → ι → σ × List ω} {above : τ → β → τ × List ω}
    {block : β → List ι} {keep : ω → Bool} {R : σ → τ → Prop} {Ok : τ → β → Prop}
    (h : ∀ s t b, R s t → Ok t b →
      (outs step s (block b)).filter keep = (above t b).2 ∧
        R (final step s (block b)) (above t b).1)
    {s : σ} {t : τ} (hR : R s t) {bs : List β} (hOk : EachStep above Ok t bs) :
    (outs step s (bs.flatMap block)).filter keep = outs above t bs ∧
      R (final step s (bs.flatMap block)) (final above t bs) := by
  induction bs generalizing s t with
  | nil => exact ⟨rfl, hR⟩
  | cons b bs ih =>
    obtain ⟨hshown, hnext⟩ := h s t b hR hOk.1
    obtain ⟨hrest, hfinal⟩ := ih hnext hOk.2
    rw [List.flatMap_cons, outs_append, final_append, List.filter_append, hshown, hrest]
    exact ⟨rfl, hfinal⟩

theorem outs_stateless {β : Type*} (shown : β → List ω) (t : σ) (bs : List β) :
    outs (fun (t : σ) b => (t, shown b)) t bs = bs.flatMap shown := by
  induction bs with
  | nil => rfl
  | cons b bs ih => rw [outs_cons, ih, List.flatMap_cons]

/-! ### Two machines side by side -/

section Related
variable {τ κ ω' : Type*} {step : σ → ι → σ × List ω} {step' : τ → κ → τ × List ω'} {R : σ → τ →
  Prop}
  {f : ι → κ} (hstep : ∀ s t i, R s t → R (step s i).1 (step' t (f i)).1)
include hstep

/-- Steps that keep a relation between the states of two machines keep it along their runs. -/
theorem final_related {s : σ} {t : τ} (h : R s t) (is : List ι) :
    R (final step s is) (final step' t (is.map f)) := by
  induction is generalizing s t with
  | nil => exact h
  | cons i is ih => exact ih (hstep s t i h)

theorem outs_related {Q : ω → ω' → Prop}
    (hout : ∀ s t i, R s t → List.Forall₂ Q (step s i).2 (step' t (f i)).2) {s : σ} {t : τ}
    (h : R s t) (is : List ι) : List.Forall₂ Q (outs step s is) (outs step' t (is.map f)) := by
  induction is generalizing s t with
  | nil => exact .nil
  | cons i is ih => exact List.rel_append (hout s t i h) (ih (hstep s t i h))

end Related

/-! ### Slots -/

/-- What was put into a slot: the input that put it there, and that every step since has kept it. -/
structure PutBy (step : σ → ι → σ × List ω) (Puts Keeps : σ → ι → Prop) (s : σ) (is ys : List ι)
    (i : ι) (zs : List ι) : Prop where
  split : is = ys ++ i :: zs
  puts : Puts (final step s ys) i
  keeps : EachStep step Keeps (step (final step s ys) i).1 zs

/-- **The slot rule.** If a step leaves something in the slot, it has put it there, or it was in the
slot before and the step keeps it. Then what is in the slot at the end of a run was put there by a
step of the run, and every step since has kept it. -/
theorem exists_putBy {α : Type*} {step : σ → ι → σ × List ω} {slot : σ → Option α}
    {Puts Keeps : α → σ → ι → Prop}
    (hstep : ∀ s i a, slot (step s i).1 = some a → Puts a s i ∨ slot s = some a ∧ Keeps a s i)
    {s : σ} (h0 : slot s = none) {a : α} {is : List ι} (h : slot (final step s is) = some a) :
    ∃ ys i zs, PutBy step (Puts a) (Keeps a) s is ys i zs := by
  induction is using List.reverseRecOn with
  | nil =>
    rw [final_nil, h0] at h
    cases h
  | append_singleton is i ih =>
    rw [final_append, final_cons, final_nil] at h
    rcases hstep _ i a h with hput | ⟨hold, hkeep⟩
    · exact ⟨is, i, [], rfl, hput, trivial⟩
    · obtain ⟨ys, j, zs, rfl, hput, hkeeps⟩ := ih hold
      refine ⟨ys, j, zs ++ [i], by simp, hput,
        (eachStep_append step _ _ _ _).mpr ⟨hkeeps, ?_, trivial⟩⟩
      rwa [final_append, final_cons] at hkeep

/-! ### History variables -/

/-- The machine with a history variable: `record` sees the state, the input, the outputs and the
next state of a step. -/
def withHistory (step : σ → ι → σ × List ω) (record : γ → σ → ι → List ω → σ → γ) :
    σ × γ → ι → (σ × γ) × List ω := fun s i =>
  (((step s.1 i).1, record s.2 s.1 i (step s.1 i).2 (step s.1 i).1), (step s.1 i).2)

variable {step : σ → ι → σ × List ω} {record : γ → σ → ι → List ω → σ → γ}

@[simp] theorem withHistory_fst (s : σ × γ) (i : ι) :
    (withHistory step record s i).1.1 = (step s.1 i).1 := rfl

@[simp] theorem withHistory_snd (s : σ × γ) (i : ι) :
    (withHistory step record s i).1.2 =
      record s.2 s.1 i (step s.1 i).2 (step s.1 i).1 := rfl

@[simp] theorem withHistory_outs (s : σ × γ) (i : ι) :
    (withHistory step record s i).2 = (step s.1 i).2 := rfl

/-- The history variable does not change the run. -/
theorem final_withHistory (s : σ × γ) (is : List ι) :
    (final (withHistory step record) s is).1 = final step s.1 is := by
  induction is generalizing s with
  | nil => rfl
  | cons i is ih => exact ih _

theorem eachStep_withHistory {P : σ → ι → Prop} (s : σ × γ) (is : List ι) :
    EachStep (withHistory step record) (fun s i => P s.1 i) s is ↔ EachStep step P s.1 is := by
  induction is generalizing s with
  | nil => simp
  | cons i is ih => rw [eachStep_cons, eachStep_cons, ih]; rfl

theorem outs_withHistory (s : σ × γ) (is : List ι) :
    outs (withHistory step record) s is = outs step s.1 is := by
  induction is generalizing s with
  | nil => rfl
  | cons i is ih => simp [ih]

end BleHidUart.Lib.Run
