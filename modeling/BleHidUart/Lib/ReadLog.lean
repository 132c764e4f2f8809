import BleHidUart.Lib.Memory

/-!
# Computations that log what they read

`Reading β α` is a computation on a memory of cells `β`: its value, and the addresses it reads, in
order. `Reading.shift` moves it to a pointer into the memory. `Yields n m mem a` says that the value
is `a` and every address that is read is below `n`; its rules follow the computation (`yields_bind`,
`yields_ite`, `yields_shift`).
-/

namespace BleHidUart.Lib.ReadLog

open BleHidUart.Lib.Memory

variable {β α γ : Type}

/-- A computation on a memory: its value and the addresses it reads. -/
def Reading (β α : Type) : Type := (ℕ → β) → α × List ℕ

namespace Reading

/-- The value on a memory. -/
def value (m : Reading β α) (mem : ℕ → β) : α := (m mem).1

/-- The addresses that are read. -/
def log (m : Reading β α) (mem : ℕ → β) : List ℕ := (m mem).2

instance : Monad (Reading β) where
  pure a := fun _ => (a, [])
  bind m f := fun mem => (value (f (m.value mem)) mem, m.log mem ++ log (f (m.value mem)) mem)

/-- One cell. -/
def read (i : ℕ) : Reading β β := fun mem => (mem i, [i])

/-- `n` cells from address `i` on. -/
def readRange (i n : ℕ) : Reading β (List β) := fun mem => (slice mem i n, List.range' i n)

/-- The computation on the part of the memory from address `p` on. -/
def shift (p : ℕ) (m : Reading β α) : Reading β α := fun mem =>
  (m.value fun i => mem (p + i), (m.log fun i => mem (p + i)).map (p + ·))

/-! ### Values -/

variable {m : Reading β α} {f : α → Reading β γ} {mem : ℕ → β}

@[simp] theorem value_bind : (m >>= f).value mem = (f (m.value mem)).value mem := rfl

@[simp] theorem value_read (i : ℕ) : (read i : Reading β β).value mem = mem i := rfl

/-! ### Logs -/

@[simp] theorem log_bind : (m >>= f).log mem = m.log mem ++ (f (m.value mem)).log mem := rfl

@[simp] theorem log_read (i : ℕ) : (read i : Reading β β).log mem = [i] := rfl

/-- Every address that is read is below `n`. -/
def Within (n : ℕ) (m : Reading β α) (mem : ℕ → β) : Prop := ∀ i ∈ m.log mem, i < n

variable {n : ℕ}

theorem within_pure (a : α) : Within n (pure a : Reading β α) mem := fun _ h => by cases h

theorem within_read {i : ℕ} : Within n (read i : Reading β β) mem ↔ i < n := by
  simp only [Within, log_read, List.mem_singleton, forall_eq]

theorem within_bind : Within n (m >>= f) mem ↔
    Within n m mem ∧ Within n (f (m.value mem)) mem := by
  simp only [Within, log_bind, List.mem_append]
  exact ⟨fun h => ⟨fun i hi => h i (.inl hi), fun i hi => h i (.inr hi)⟩,
    fun h i hi => hi.elim (h.1 i) (h.2 i)⟩

/-! ### The rules -/

/-- The value is `a`, and every address that is read is below `n`. -/
def Yields (n : ℕ) (m : Reading β α) (mem : ℕ → β) (a : α) : Prop :=
  m.value mem = a ∧ Within n m mem

theorem yields_pure (a : α) : Yields n (pure a : Reading β α) mem a := ⟨rfl, within_pure a⟩

theorem yields_read {i : ℕ} (h : i < n) : Yields n (read i : Reading β β) mem (mem i) :=
  ⟨rfl, within_read.mpr h⟩

theorem yields_readRange {i k : ℕ} (h : i + k ≤ n) :
    Yields n (readRange i k : Reading β (List β)) mem (slice mem i k) := by
  refine ⟨rfl, fun j hj => ?_⟩
  have hlt := (List.mem_range'_1.mp hj).2
  omega

theorem yields_bind {a : α} {c : γ} (h : Yields n m mem a) (hf : Yields n (f a) mem c) :
    Yields n (m >>= f) mem c := by
  obtain ⟨rfl, hm⟩ := h
  exact ⟨hf.1, within_bind.mpr ⟨hm, hf.2⟩⟩

theorem yields_ite {c : Prop} [Decidable c] {m₁ m₂ : Reading β α} {a₁ a₂ : α}
    (h₁ : c → Yields n m₁ mem a₁) (h₂ : ¬ c → Yields n m₂ mem a₂) :
    Yields n (if c then m₁ else m₂) mem (if c then a₁ else a₂) := by
  split_ifs with hc
  · exact h₁ hc
  · exact h₂ hc

theorem yields_shift {p k : ℕ} {a : α} (h : Yields k m (fun i => mem (p + i)) a) (hk : p + k ≤ n) :
    Yields n (m.shift p) mem a := by
  refine ⟨h.1, fun i hi => ?_⟩
  obtain ⟨j, hj, rfl⟩ := List.mem_map.mp hi
  have hlt := h.2 j hj
  omega

end Reading
end BleHidUart.Lib.ReadLog
