import BleHidUart.V3.McuData

/-!
# Buffers that end in a head

A last byte `53` is taken for the head of a `53 35` frame if the parser comes to it. `EndsInHead`
says so of the bytes alone, and `endsInHead_scan` that it follows the rounds of the parser.
-/

namespace BleHidUart.V3.LoneHead

open BleHidUart.Board BleHidUart.Lib.Word BleHidUart.V3.Deframe BleHidUart.V3.McuData
open BleHidUart.V3.Parser

/-- **A buffer whose last byte is taken for the head of a `53 35` frame**: before it there are only
bytes that are no head, heads without a known command, and whole packets. -/
inductive EndsInHead : List UInt8 → Prop
  | head : EndsInHead [v3FrameHead0]
  | byte {x : UInt8} {xs : List UInt8} : x ≠ appFrameHead → x ≠ v3FrameHead0 → EndsInHead xs →
      EndsInHead (x :: xs)
  | appUnknown {xs : List UInt8} : 2 ≤ xs.length → appPktLen (byteAt xs 0) = none → EndsInHead xs →
      EndsInHead (appFrameHead :: xs)
  | appPacket {xs : List UInt8} {n : ℕ} : appPktLen (byteAt xs 0) = some n →
      EndsInHead ((appFrameHead :: xs).drop n) → EndsInHead (appFrameHead :: xs)
  | v3Unknown {xs : List UInt8} : byteAt xs 0 = v3FrameHead1 → 3 ≤ xs.length →
      v3PktLen (byteAt xs 1) (byteAt xs 2) = none → EndsInHead xs → EndsInHead (v3FrameHead0 :: xs)
  | v3Packet {xs : List UInt8} {n : ℕ} : byteAt xs 0 = v3FrameHead1 →
      v3PktLen (byteAt xs 1) (byteAt xs 2) = some n → EndsInHead ((v3FrameHead0 :: xs).drop n) →
      EndsInHead (v3FrameHead0 :: xs)

variable {x : UInt8} {xs : List UInt8} {n : ℕ}

theorem not_endsInHead_nil : ¬ EndsInHead [] := by
  intro h
  cases h

theorem not_endsInHead_drop (h : xs.length ≤ n) : ¬ EndsInHead (xs.drop n) := by
  rw [List.drop_of_length_le h]
  exact not_endsInHead_nil

theorem endsInHead_byte (h1 : x ≠ appFrameHead) (h2 : x ≠ v3FrameHead0) :
    EndsInHead (x :: xs) ↔ EndsInHead xs := by
  refine ⟨fun h => ?_, .byte h1 h2⟩
  cases h with
  | head => exact absurd rfl h2
  | byte _ _ h => exact h
  | appUnknown | appPacket => exact absurd rfl h1
  | v3Unknown | v3Packet => exact absurd rfl h2

theorem endsInHead_appUnknown (hlen : 2 ≤ xs.length) (hpkt : appPktLen (byteAt xs 0) = none) :
    EndsInHead (appFrameHead :: xs) ↔ EndsInHead xs := by
  refine ⟨fun h => ?_, .appUnknown hlen hpkt⟩
  cases h with
  | byte hne => exact absurd rfl hne
  | appUnknown _ _ h => exact h
  | appPacket hsome => cases hpkt.symm.trans hsome

theorem endsInHead_appPacket (hpkt : appPktLen (byteAt xs 0) = some n) :
    EndsInHead (appFrameHead :: xs) ↔ EndsInHead ((appFrameHead :: xs).drop n) := by
  refine ⟨fun h => ?_, .appPacket hpkt⟩
  cases h with
  | byte hne => exact absurd rfl hne
  | appUnknown _ hnone => cases hnone.symm.trans hpkt
  | appPacket hsome h =>
    obtain rfl := Option.some.inj (hpkt.symm.trans hsome)
    exact h

theorem endsInHead_v3Unknown (hsecond : byteAt xs 0 = v3FrameHead1) (hlen : 3 ≤ xs.length)
    (hpkt : v3PktLen (byteAt xs 1) (byteAt xs 2) = none) :
    EndsInHead (v3FrameHead0 :: xs) ↔ EndsInHead xs := by
  refine ⟨fun h => ?_, .v3Unknown hsecond hlen hpkt⟩
  cases h with
  | head => exact absurd hlen (by decide)
  | byte _ hne => exact absurd rfl hne
  | v3Unknown _ _ _ h => exact h
  | v3Packet _ hsome => cases hpkt.symm.trans hsome

theorem endsInHead_v3Packet (hsecond : byteAt xs 0 = v3FrameHead1)
    (hpkt : v3PktLen (byteAt xs 1) (byteAt xs 2) = some n) :
    EndsInHead (v3FrameHead0 :: xs) ↔ EndsInHead ((v3FrameHead0 :: xs).drop n) := by
  refine ⟨fun h => ?_, .v3Packet hsecond hpkt⟩
  cases h with
  | head => exact absurd hsecond (by decide)
  | byte _ hne => exact absurd rfl hne
  | v3Unknown _ _ hnone => cases hnone.symm.trans hpkt
  | v3Packet _ hsome h =>
    obtain rfl := Option.some.inj (hpkt.symm.trans hsome)
    exact h

/-- A packet takes five bytes at least, or the buffer is too short for a frame. -/
theorem not_endsInHead_v3 (hone : xs ≠ []) (h : byteAt xs 0 ≠ v3FrameHead1 ∨ xs.length ≤ 2) :
    ¬ EndsInHead (v3FrameHead0 :: xs) := by
  intro hends
  cases hends with
  | head => exact hone rfl
  | byte _ hne => exact hne rfl
  | v3Unknown hsecond hlen => exact h.elim (fun hne => hne hsecond) fun hle => by omega
  | v3Packet hsecond hpkt hrest =>
    refine not_endsInHead_drop ?_ hrest
    have hge := v3PktLen_ge hpkt
    have hle := h.resolve_left (not_not.mpr hsecond)
    rw [List.length_cons]
    omega

theorem not_endsInHead_app (h : xs.length ≤ 1) : ¬ EndsInHead (appFrameHead :: xs) := by
  intro hends
  cases hends with
  | byte hne => exact hne rfl
  | appUnknown hlen => omega
  | appPacket hpkt hrest =>
    refine not_endsInHead_drop ?_ hrest
    have hge := appPktLen_ge hpkt
    rw [List.length_cons]
    omega

theorem endsInHead_scan (fromApp : Bool) (hone : xs ≠ [] ∨ x ≠ v3FrameHead0) :
    EndsInHead (x :: xs) ↔
      match v3Scan fromApp (x :: xs) with
      | .stop => False
      | .skip => EndsInHead xs
      | .packet n _ => EndsInHead ((x :: xs).drop n) := by
  by_cases happ : x = appFrameHead
  · subst happ
    rw [v3Scan_app]
    by_cases hlen : xs.length ≤ 1
    · rw [if_pos hlen]
      exact iff_of_false (not_endsInHead_app hlen) id
    rw [if_neg hlen]
    cases hpkt : appPktLen (byteAt xs 0) with
    | none => exact endsInHead_appUnknown (by omega) hpkt
    | some n =>
      dsimp only
      by_cases hshort : xs.length + 1 < n
      · rw [if_pos hshort, endsInHead_appPacket hpkt]
        exact iff_of_false (not_endsInHead_drop hshort.le) id
      · rw [if_neg hshort]
        exact endsInHead_appPacket hpkt
  by_cases hv3 : x = v3FrameHead0
  · subst hv3
    rw [v3Scan_v3]
    by_cases hstop : byteAt xs 0 ≠ v3FrameHead1 ∨ xs.length ≤ 2
    · rw [if_pos hstop]
      exact iff_of_false (not_endsInHead_v3 (hone.resolve_right (not_not.mpr rfl)) hstop) id
    rw [if_neg hstop]
    obtain ⟨hsecond, hlen⟩ := not_or.mp hstop
    rw [not_not] at hsecond
    cases hpkt : v3PktLen (byteAt xs 1) (byteAt xs 2) with
    | none => exact endsInHead_v3Unknown hsecond (by omega) hpkt
    | some n =>
      dsimp only
      by_cases hshort : xs.length + 1 < n
      · rw [if_pos hshort, endsInHead_v3Packet hsecond hpkt]
        exact iff_of_false (not_endsInHead_drop hshort.le) id
      · rw [if_neg hshort]
        exact endsInHead_v3Packet hsecond hpkt
  · rw [v3Scan_skip happ hv3]
    exact endsInHead_byte happ hv3

end BleHidUart.V3.LoneHead
