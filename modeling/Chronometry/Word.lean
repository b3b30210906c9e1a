/-! Saturating and checked arithmetic on 64-bit words, each operation computed in `Nat` and cut once. -/
namespace Chronometry.Word

def maxNat : Nat := 0xFFFF_FFFF_FFFF_FFFF

/-- The word nearest to a natural number: larger numbers become the largest word. -/
def clamp (n : Nat) : UInt64 := .ofNatClamp n

@[simp] theorem toNat_clamp (n : Nat) : (clamp n).toNat = min n maxNat := by
  simp only [clamp, UInt64.ofNatClamp, maxNat]
  split
  · rename_i h
    simp only [UInt64.toNat_ofNatLT]
    simp only [UInt64.size] at h
    omega
  · rename_i h
    simp only [UInt64.toNat_ofNatLT, UInt64.size]
    simp only [UInt64.size] at h
    omega

def add (a b : UInt64) : UInt64 := clamp (a.toNat + b.toNat)

def sub (a b : UInt64) : UInt64 := clamp (a.toNat - b.toNat)

def mul (a b : UInt64) : UInt64 := clamp (a.toNat * b.toNat)

@[simp] theorem toNat_add (a b : UInt64) : (add a b).toNat = min (a.toNat + b.toNat) maxNat := by
  simp [add]

@[simp] theorem toNat_sub (a b : UInt64) : (sub a b).toNat = a.toNat - b.toNat := by
  have := a.toNat_lt
  simp only [sub, toNat_clamp, maxNat]
  omega

@[simp] theorem toNat_mul (a b : UInt64) : (mul a b).toNat = min (a.toNat * b.toNat) maxNat := by
  simp [mul]

def ofNat? (n : Nat) : Option UInt64 := if n ≤ maxNat then some (clamp n) else none

theorem ofNat?_eq_some_iff {n : Nat} {w : UInt64} : ofNat? n = some w ↔ n = w.toNat := by
  have := w.toNat_lt
  simp only [ofNat?]
  constructor
  · intro h
    split at h
    · injection h with h
      subst h
      simp only [toNat_clamp]
      omega
    · simp at h
  · intro h
    rw [if_pos (by simp only [maxNat]; omega)]
    congr 1
    apply UInt64.toNat_inj.1
    simp only [toNat_clamp, maxNat]
    omega

def text (w : UInt64) : String := w.toNat.repr

end Chronometry.Word
