import Chronometry.Proofs.Waiting
import Mathlib.Algebra.Ring.Nat

/-! The exact time of a simulated clock, and how far its readings are from it. -/
namespace Chronometry

/-- A multiple of `d` that is less than `d` away from another one is that one. -/
theorem eq_of_dvd_of_close {x n d : Nat} (hdvd : d ∣ n) (hupper : x * d < n + d)
    (hlower : n < x * d + d) : x * d = n := by
  obtain ⟨q, rfl⟩ := hdvd
  rw [Nat.mul_comm d q] at hupper hlower ⊢
  have hxq : x < q + 1 := Nat.lt_of_mul_lt_mul_right (a := d) (by rwa [Nat.succ_mul])
  have hqx : q < x + 1 := Nat.lt_of_mul_lt_mul_right (a := d) (by rwa [Nat.succ_mul])
  rw [show x = q by omega]

namespace Clock

theorem toNat_now_advance {c : Clock} {ns : UInt64} (h : c.now.toNat + ns.toNat < 2 ^ 64) :
    (c.advance ns).now.toNat = c.now.toNat + ns.toNat := by
  rw [advance, UInt64.toNat_add, Nat.mod_eq_of_lt h]

/-- The exact time after `k` timer readings; the time that the clock keeps is this one until it wraps. -/
def timeAfter (c : Clock) (k : Nat) : Nat := c.now.toNat + k * c.step.toNat

theorem timeAfter_mono (c : Clock) {j k : Nat} (h : j ≤ k) : c.timeAfter j ≤ c.timeAfter k :=
  Nat.add_le_add_left (Nat.mul_le_mul_right _ h) _

theorem toNat_now_add {c : Clock} {k : Nat} (h : c.timeAfter k < 2 ^ 64) :
    (c.now + .ofNat k * c.step).toNat = c.timeAfter k := by
  rw [UInt64.toNat_add, UInt64.toNat_mul, UInt64.toNat_ofNat', Nat.mod_mul_mod, Nat.add_mod_mod]
  exact Nat.mod_eq_of_lt h

theorem toNat_scale {now rate : UInt64} (h : now.toNat * rate.toNat / 10 ^ 9 < 2 ^ 64) :
    (scale now rate).toNat = now.toNat * rate.toNat / 10 ^ 9 := by
  rw [scale, Word.toNat_clamp, Word.maxNat]
  omega

theorem toNat_sub_scale {a b rate : UInt64} (hab : a.toNat ≤ b.toNat)
    (h : b.toNat * rate.toNat / 10 ^ 9 < 2 ^ 64) :
    (Word.sub (scale b rate) (scale a rate)).toNat =
      b.toNat * rate.toNat / 10 ^ 9 - a.toNat * rate.toNat / 10 ^ 9 := by
  have hle : a.toNat * rate.toNat / 10 ^ 9 ≤ b.toNat * rate.toNat / 10 ^ 9 :=
    Nat.div_le_div_right (Nat.mul_le_mul_right _ hab)
  rw [Word.toNat_sub, toNat_scale h, toNat_scale (by omega)]

/-- Whole ticks between two times differ from the exact number of ticks by less than one, on either side. -/
theorem ticks_between (rate : Nat) {a b : Nat} (h : a ≤ b) :
    (b * rate / 10 ^ 9 - a * rate / 10 ^ 9) * 10 ^ 9 < (b - a) * rate + 10 ^ 9 ∧
      (b - a) * rate < (b * rate / 10 ^ 9 - a * rate / 10 ^ 9) * 10 ^ 9 + 10 ^ 9 := by
  have hsplit : b * rate = a * rate + (b - a) * rate := by
    rw [← Nat.add_mul, Nat.add_sub_cancel' h]
  omega

theorem sub_scale_close {a b rate : UInt64} (hab : a.toNat ≤ b.toNat)
    (h : b.toNat * rate.toNat / 10 ^ 9 < 2 ^ 64) :
    let x := (Word.sub (scale b rate) (scale a rate)).toNat
    x * 10 ^ 9 < (b.toNat - a.toNat) * rate.toNat + 10 ^ 9 ∧
      (b.toNat - a.toNat) * rate.toNat < x * 10 ^ 9 + 10 ^ 9 := by
  intro x
  rw [show x = _ from toNat_sub_scale hab h]
  exact ticks_between rate.toNat hab

theorem sub_scale_after_close {c : Clock} {j : Nat} {rate : UInt64} (htime : c.timeAfter j < 2 ^ 64)
    (h : c.timeAfter j * rate.toNat / 10 ^ 9 < 2 ^ 64) :
    let x := (Word.sub (scale (c.now + .ofNat j * c.step) rate) (scale c.now rate)).toNat
    x * 10 ^ 9 < j * c.step.toNat * rate.toNat + 10 ^ 9 ∧
      j * c.step.toNat * rate.toNat < x * 10 ^ 9 + 10 ^ 9 := by
  have hnow : (c.now + .ofNat j * c.step).toNat = c.timeAfter j := toNat_now_add htime
  have hle : c.now.toNat ≤ (c.now + .ofNat j * c.step).toNat := hnow ▸ Nat.le_add_right _ _
  have hspan : c.timeAfter j - c.now.toNat = j * c.step.toNat := Nat.add_sub_cancel_left _ _
  have hcut : (c.now + .ofNat j * c.step).toNat * rate.toNat / 10 ^ 9 < 2 ^ 64 := by rwa [hnow]
  have hclose := sub_scale_close hle hcut
  rwa [hnow, hspan] at hclose

end Clock

end Chronometry
