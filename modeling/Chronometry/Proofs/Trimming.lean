import Chronometry.Text.Blank
import Chronometry.Text.Letter

/-! Classes of characters, and texts without blanks at their ends. -/
namespace Chronometry.Text
variable {c : Char}

theorem isAlpha_iff : c.isAlpha ↔
    (65 ≤ c.toNat ∧ c.toNat ≤ 90) ∨ (97 ≤ c.toNat ∧ c.toNat ≤ 122) := by
  change (decide (65 ≤ c.val ∧ c.val ≤ 90) || (decide (97 ≤ c.val) && decide (c.val ≤ 122))) = true ↔ _
  simp [UInt32.le_iff_toNat_le]

theorem isAsciiBlank_iff : isAsciiBlank c ↔ c.toNat = 32 ∨ (9 ≤ c.toNat ∧ c.toNat ≤ 13) := by
  simp [isAsciiBlank, ← Char.toNat_inj]

theorem isAsciiBlank_of_isBlank (hc : isBlank c) (hascii : c.toNat < 128) : isAsciiBlank c := by
  unfold isBlank at hc
  simp at hc
  rcases hc with (h | h) | h
  · exact h
  · omega
  · omega

theorem isBlank_of_isAsciiBlank (hc : isAsciiBlank c) : isBlank c := by
  rw [isBlank, hc]
  rfl

theorem isBlank_eq_false (hc : 32 < c.toNat) (hascii : c.toNat < 128) : isBlank c = false := by
  rw [Bool.eq_false_iff]
  intro h
  have := isAsciiBlank_iff.1 (isAsciiBlank_of_isBlank h hascii)
  omega

theorem isBlank_of_isDigit (hc : c.isDigit) : isBlank c = false := by
  obtain ⟨hzero, hnine⟩ := Char.isDigit_iff_toNat.1 hc
  exact isBlank_eq_false (Nat.lt_of_lt_of_le (by decide) hzero) (Nat.lt_of_le_of_lt hnine (by decide))

theorem isLetter_of_ascii (hascii : c.toNat < 128) : isLetter c = c.isAlpha := if_pos hascii

theorem isLetter_of_isAsciiBlank (hc : isAsciiBlank c) : isLetter c = false := by
  have hblank := isAsciiBlank_iff.1 hc
  rw [isLetter_of_ascii (by omega), Bool.eq_false_iff]
  intro h
  have := isAlpha_iff.1 h
  omega

theorem toNat_toLower (hc : 65 ≤ c.toNat ∧ c.toNat ≤ 90) : c.toLower.toNat = c.toNat + 32 := by
  have hval : c.val ≥ 'A'.val ∧ c.val ≤ 'Z'.val := by
    simpa [UInt32.le_iff_toNat_le] using hc
  have hlower : c.toLower.toNat = (c.val + ('a'.val - 'A'.val)).toNat :=
    congrArg Char.toNat (dif_pos hval)
  rw [hlower, UInt32.toNat_add]
  have hdiff : ('a'.val - 'A'.val).toNat = 32 := by decide
  rw [hdiff, Char.toNat_val]
  omega

theorem toLower_eq_self (hc : ¬(65 ≤ c.toNat ∧ c.toNat ≤ 90)) : c.toLower = c := by
  have hval : ¬(c.val ≥ 'A'.val ∧ c.val ≤ 'Z'.val) := by
    simpa [UInt32.le_iff_toNat_le] using hc
  exact dif_neg hval

theorem isLetter_toLower : isLetter c.toLower = isLetter c := by
  by_cases hc : 65 ≤ c.toNat ∧ c.toNat ≤ 90
  · have hlower := toNat_toLower hc
    rw [isLetter_of_ascii (by omega), isLetter_of_ascii (by omega),
      isAlpha_iff.2 (.inl hc), isAlpha_iff.2 (.inr (by omega))]
  · rw [toLower_eq_self hc]

theorem toLower_of_not_isLetter (hc : isLetter c = false) : c.toLower = c := by
  apply toLower_eq_self
  intro h
  rw [isLetter_of_ascii (by omega), isAlpha_iff.2 (.inl h)] at hc
  cases hc

section Trim
variable {cs core before behind : List Char}

theorem dropWhile_blanks (hbefore : ∀ c ∈ before, isBlank c)
    (hhead : ∀ c ∈ core.head?, isBlank c = false) :
    (before ++ core).dropWhile isBlank = core := by
  rw [List.dropWhile_append_of_pos hbefore]
  cases core with
  | nil => rfl
  | cons c cs => exact List.dropWhile_cons_of_neg (by rw [hhead c rfl]; exact Bool.false_ne_true)

/-- Trimming takes away the blanks at both ends and nothing else. -/
theorem trim_append (hbefore : ∀ c ∈ before, isBlank c) (hbehind : ∀ c ∈ behind, isBlank c)
    (hne : core ≠ []) (hhead : ∀ c ∈ core.head?, isBlank c = false)
    (hlast : ∀ c ∈ core.getLast?, isBlank c = false) :
    trim (before ++ core ++ behind) = core := by
  have hstart : trimStart (before ++ core ++ behind) = core ++ behind := by
    rw [List.append_assoc]
    apply dropWhile_blanks hbefore
    cases core with
    | nil => exact absurd rfl hne
    | cons c cs => exact hhead
  rw [trim, hstart, trimEnd, List.reverse_append, dropWhile_blanks, List.reverse_reverse]
  · intro c hc
    exact hbehind c (List.mem_reverse.1 hc)
  · rwa [List.head?_reverse]

theorem trim_append_of_no_blank (hbefore : ∀ c ∈ before, isBlank c) (hbehind : ∀ c ∈ behind, isBlank c)
    (hne : core ≠ []) (hcore : ∀ c ∈ core, isBlank c = false) :
    trim (before ++ core ++ behind) = core :=
  trim_append hbefore hbehind hne (fun c hc => hcore c (List.mem_of_mem_head? hc))
    fun c hc => hcore c (List.mem_of_mem_getLast? hc)

theorem exists_trimStart (cs : List Char) :
    ∃ before, cs = before ++ trimStart cs ∧ ∀ c ∈ before, isBlank c :=
  ⟨cs.takeWhile isBlank, List.takeWhile_append_dropWhile.symm, List.all_eq_true.1 List.all_takeWhile⟩

theorem exists_trimEnd (cs : List Char) :
    ∃ behind, cs = trimEnd cs ++ behind ∧ ∀ c ∈ behind, isBlank c := by
  obtain ⟨blanks, hcs, hblanks⟩ := exists_trimStart cs.reverse
  refine ⟨blanks.reverse, ?_, fun c hc => hblanks c (List.mem_reverse.1 hc)⟩
  have hreverse := congrArg List.reverse hcs
  rwa [List.reverse_reverse, List.reverse_append] at hreverse

theorem exists_trim (cs : List Char) : ∃ before behind, cs = before ++ trim cs ++ behind ∧
    (∀ c ∈ before, isBlank c) ∧ ∀ c ∈ behind, isBlank c := by
  obtain ⟨before, hcs, hbefore⟩ := exists_trimStart cs
  obtain ⟨behind, hrest, hbehind⟩ := exists_trimEnd (trimStart cs)
  refine ⟨before, behind, ?_, hbefore, hbehind⟩
  rw [List.append_assoc, trim, ← hrest]
  exact hcs

end Trim

end Chronometry.Text
