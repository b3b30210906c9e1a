import Chronometry.Number

/-! Decimal numerals: digits without a sign, of any length. -/
namespace Chronometry

/-- The value of one more digit behind a value. -/
def Number.shift (value : Nat) (digit : Char) : Nat := value * 10 + (digit.toNat - '0'.toNat)

/-- Digits, and one at least. -/
structure Numeral where
  digits : List Char
  isDigit : ∀ c ∈ digits, c.isDigit
  nonempty : digits ≠ []

namespace Numeral

def value (n : Numeral) : Nat := n.digits.foldl Number.shift 0

/-- The numeral of a number, without leading zeros. -/
def ofNat (n : Nat) : Numeral where
  digits := n.repr.toList
  isDigit := by
    intro c hc
    rw [Nat.toList_repr] at hc
    exact Nat.isDigit_of_mem_toDigits (by decide) (by decide) hc
  nonempty := by
    rw [Nat.toList_repr]
    exact Nat.toDigits_ne_nil

theorem value_ofNat (n : Nat) : (ofNat n).value = n := by
  have hshift : Number.shift = fun value digit => 10 * value + (digit.toNat - '0'.toNat) := by
    funext value digit
    rw [Number.shift, Nat.mul_comm]
  have hdigits : (ofNat n).digits = Nat.toDigits 10 n := Nat.toList_repr
  rw [value, hshift, hdigits, ← Nat.ofDigitChars_eq_foldl]
  exact Nat.ofDigitChars_ten_toDigits

end Numeral

namespace Number
variable {cs : List Char} {v w : Nat}

theorem push_eq_ok_iff {c : Char} :
    push v c = .ok w ↔ c.isDigit ∧ w = shift v c ∧ w ≤ Word.maxNat := by
  unfold push shift
  by_cases hc : c.isDigit
  · simp only [hc, if_true, true_and]
    split
    · rw [Except.ok.injEq]
      omega
    · simp only [reduceCtorEq, false_iff]
      omega
  · simp [hc]

theorem ok_bind {ε α β : Type} (a : α) (f : α → Except ε β) : Except.ok a >>= f = f a := rfl

theorem bind_eq_ok_iff {ε α β : Type} {x : Except ε α} {f : α → Except ε β} {b : β} :
    x >>= f = .ok b ↔ ∃ a, x = .ok a ∧ f a = .ok b := by
  cases x with
  | error e => exact ⟨nofun, nofun⟩
  | ok a => exact ⟨fun h => ⟨a, rfl, h⟩, fun ⟨_, ha, h⟩ => by cases ha; exact h⟩

theorem mapError_eq_ok_iff {ε : Type} {wrap : Error → ε} {result : Except Error UInt64} {word : UInt64} :
    result.mapError wrap = .ok word ↔ result = .ok word := by
  cases result with
  | error e => exact ⟨nofun, nofun⟩
  | ok w =>
    have hok : (Except.ok w : Except Error UInt64).mapError wrap = .ok w := rfl
    rw [hok, Except.ok.injEq, Except.ok.injEq]

theorem le_foldl_shift (cs : List Char) (v : Nat) : v ≤ cs.foldl shift v := by
  induction cs generalizing v with
  | nil => exact Nat.le_refl v
  | cons c cs ih =>
    have hstep : v ≤ shift v c := by
      unfold shift
      omega
    exact Nat.le_trans hstep (ih (shift v c))

/-- Values only grow, so the bound on the last value is a bound on all. -/
theorem foldlM_push_eq_ok_iff (hv : v ≤ Word.maxNat) :
    cs.foldlM push v = .ok w ↔
      (∀ c ∈ cs, c.isDigit) ∧ w = cs.foldl shift v ∧ w ≤ Word.maxNat := by
  induction cs generalizing v with
  | nil =>
    constructor
    · intro h
      cases h
      exact ⟨fun c hc => absurd hc List.not_mem_nil, rfl, hv⟩
    · intro h
      rw [h.2.1]
      rfl
  | cons c cs ih =>
    rw [List.foldlM_cons, List.foldl_cons, List.forall_mem_cons]
    constructor
    · intro h
      cases hc : push v c with
      | error e =>
        rw [hc] at h
        cases h
      | ok u =>
        rw [hc] at h
        obtain ⟨hdigit, rfl, hu⟩ := push_eq_ok_iff.1 hc
        obtain ⟨hdigits, hw, hle⟩ := (ih hu).1 h
        exact ⟨⟨hdigit, hdigits⟩, hw, hle⟩
    · intro h
      obtain ⟨⟨hdigit, hdigits⟩, hw, hle⟩ := h
      have hu : shift v c ≤ Word.maxNat := by
        have := le_foldl_shift cs (shift v c)
        omega
      rw [push_eq_ok_iff.2 ⟨hdigit, rfl, hu⟩]
      exact (ih hu).2 ⟨hdigits, hw, hle⟩

theorem ofDigits_eq_ok_iff {word : UInt64} :
    ofDigits cs = .ok word ↔ (∀ c ∈ cs, c.isDigit) ∧ cs.foldl shift 0 = word.toNat := by
  unfold ofDigits
  cases h : cs.foldlM push 0 with
  | error e =>
    constructor
    · intro h
      cases h
    · intro hword
      have hle : cs.foldl shift 0 ≤ Word.maxNat := by
        have := word.toNat_lt
        unfold Word.maxNat
        omega
      have hok := (foldlM_push_eq_ok_iff (Nat.zero_le _)).2 ⟨hword.1, rfl, hle⟩
      cases hok.symm.trans h
  | ok value =>
    obtain ⟨hdigits, rfl, hle⟩ := (foldlM_push_eq_ok_iff (Nat.zero_le _)).1 h
    have hclamp : (Word.clamp (cs.foldl shift 0)).toNat = cs.foldl shift 0 := by
      rw [Word.toNat_clamp]
      omega
    constructor
    · intro h
      cases h
      exact ⟨hdigits, hclamp.symm⟩
    · intro hword
      rw [← UInt64.toNat_inj.1 (hclamp.trans hword.2)]
      rfl

theorem isDigit_plus : ('+' : Char).isDigit = false := by decide

theorem read_numeral (n : Numeral) : read n.digits = ofDigits n.digits := by
  unfold read
  split
  · exact absurd (by assumption) n.nonempty
  · rename_i h
    have := n.isDigit '+' (by rw [h]; exact List.mem_cons_self)
    rw [isDigit_plus] at this
    cases this
  · rename_i h
    have := n.isDigit '+' (by rw [h]; exact List.mem_cons_self)
    rw [isDigit_plus] at this
    cases this
  · rfl

theorem read_numeral_eq_ok_iff (n : Numeral) {word : UInt64} :
    read n.digits = .ok word ↔ n.value = word.toNat := by
  rw [read_numeral, ofDigits_eq_ok_iff]
  exact ⟨And.right, And.intro n.isDigit⟩

theorem exists_word {n : Numeral} (h : n.value < UInt64.size) :
    ∃ word : UInt64, n.value = word.toNat ∧ read n.digits = .ok word := by
  have hvalue : (UInt64.ofNat n.value).toNat = n.value := UInt64.toNat_ofNat_of_lt h
  exact ⟨.ofNat n.value, hvalue.symm, (read_numeral_eq_ok_iff n).2 hvalue.symm⟩

theorem read_plus_numeral (n : Numeral) : read ('+' :: n.digits) = ofDigits n.digits := by
  obtain ⟨digits, -, hne⟩ := n
  cases digits with
  | nil => exact absurd rfl hne
  | cons c cs => rfl

/-- Words are read from numerals of their value, with or without a sign. -/
theorem read_eq_ok_iff {word : UInt64} : read cs = .ok word ↔
    ∃ (sign : List Char) (n : Numeral), cs = sign ++ n.digits ∧ (sign = [] ∨ sign = ['+']) ∧
      n.value = word.toNat := by
  constructor
  · intro h
    unfold read at h
    split at h
    · cases h
    · cases h
    · rename_i ds hne
      obtain ⟨hdigits, hvalue⟩ := ofDigits_eq_ok_iff.1 h
      exact ⟨['+'], ⟨ds, hdigits, hne⟩, rfl, .inr rfl, hvalue⟩
    · rename_i hne _ _
      obtain ⟨hdigits, hvalue⟩ := ofDigits_eq_ok_iff.1 h
      exact ⟨[], ⟨cs, hdigits, hne⟩, rfl, .inl rfl, hvalue⟩
  · intro h
    obtain ⟨sign, n, rfl, hsign, hvalue⟩ := h
    have hword : ofDigits n.digits = .ok word := ofDigits_eq_ok_iff.2 ⟨n.isDigit, hvalue⟩
    rcases hsign with rfl | rfl
    · exact (read_numeral n).trans hword
    · exact (read_plus_numeral n).trans hword

end Number

namespace Numeral

theorem ext_digits {m n : Numeral} (h : m.digits = n.digits) : m = n := by
  obtain ⟨ds, hds, hne⟩ := m
  subst h
  rfl

section Text
variable {m n : Numeral} {xs ys : List Char}

/-- Two texts agree in what stands before the first character outside a class, and in the rest. -/
theorem append_inj_of_class {p : Char → Bool} {front front' : List Char} (hfront : ∀ c ∈ front, p c)
    (hfront' : ∀ c ∈ front', p c) (hxs : ∀ c ∈ xs.head?, p c = false)
    (hys : ∀ c ∈ ys.head?, p c = false) (h : front ++ xs = front' ++ ys) : front = front' ∧ xs = ys := by
  have htake : ∀ zs : List Char, (∀ c ∈ zs.head?, p c = false) → zs.takeWhile p = [] := by
    intro zs hzs
    cases zs with
    | nil => rfl
    | cons c cs => simp [hzs c rfl]
  have hsame := congrArg (List.takeWhile p) h
  rw [List.takeWhile_append_of_pos hfront, List.takeWhile_append_of_pos hfront', htake xs hxs,
    htake ys hys, List.append_nil, List.append_nil] at hsame
  subst hsame
  exact ⟨rfl, List.append_cancel_left h⟩

/-- A numeral ends where the digits end. -/
theorem append_inj (hxs : ∀ c ∈ xs.head?, c.isDigit = false) (hys : ∀ c ∈ ys.head?, c.isDigit = false)
    (h : m.digits ++ xs = n.digits ++ ys) : m = n ∧ xs = ys := by
  obtain ⟨hdigits, hrest⟩ := append_inj_of_class m.isDigit n.isDigit hxs hys h
  exact ⟨ext_digits hdigits, hrest⟩

end Text

section Plain
variable {n : Numeral}

/-- Without a leading zero, and so not zero itself. -/
def Plain (n : Numeral) : Prop := n.digits.head? ≠ some '0'

theorem digit_lt_ten {c : Char} (h : c.isDigit) : c.toNat - '0'.toNat < 10 := by
  have hhigh := (Char.isDigit_iff_toNat.1 h).2
  have hnine : '9'.toNat = '0'.toNat + 9 := rfl
  omega

theorem digitChar_digit {c : Char} (h : c.isDigit) : Nat.digitChar (c.toNat - '0'.toNat) = c := by
  apply Char.toNat_inj.1
  rw [Nat.toNat_digitChar_of_lt_ten (digit_lt_ten h)]
  exact Nat.add_sub_cancel' (Char.isDigit_iff_toNat.1 h).1

/-- Digits behind a positive value are written behind its own digits. -/
theorem toDigits_foldl_shift {cs : List Char} (hcs : ∀ c ∈ cs, c.isDigit) {v : Nat} (hv : 0 < v) :
    Nat.toDigits 10 (cs.foldl Number.shift v) = Nat.toDigits 10 v ++ cs := by
  induction cs generalizing v with
  | nil => simp
  | cons c cs ih =>
    rw [List.forall_mem_cons] at hcs
    have hlt := digit_lt_ten hcs.1
    have hdiv : Number.shift v c / 10 = v := by
      unfold Number.shift
      omega
    have hmod : Number.shift v c % 10 = c.toNat - '0'.toNat := by
      unfold Number.shift
      omega
    rw [List.foldl_cons, ih hcs.2 (by omega), Nat.toDigits_of_base_le (by decide) (by omega), hdiv,
      hmod, digitChar_digit hcs.1]
    simp

/-- A numeral without a leading zero is the one that its value is written with. -/
theorem Plain.eq_ofNat (h : n.Plain) : n = ofNat n.value := by
  have hdigits : Nat.toDigits 10 n.value = n.digits := by
    have hne := n.nonempty
    have hclass := n.isDigit
    unfold Plain at h
    unfold value
    cases hn : n.digits with
    | nil => exact absurd hn hne
    | cons c cs =>
      rw [hn, List.forall_mem_cons] at hclass
      rw [hn] at h
      have hpos : 0 < c.toNat - '0'.toNat := by
        have hzero : c.toNat ≠ '0'.toNat := fun hc => h (congrArg some (Char.toNat_inj.1 hc))
        have hlow := (Char.isDigit_iff_toNat.1 hclass.1).1
        omega
      have hshift : Number.shift 0 c = c.toNat - '0'.toNat := by simp [Number.shift]
      rw [List.foldl_cons, hshift, toDigits_foldl_shift hclass.2 hpos,
        Nat.toDigits_of_lt_base (digit_lt_ten hclass.1), digitChar_digit hclass.1]
      rfl
  apply ext_digits
  exact hdigits.symm.trans Nat.toList_repr.symm

theorem head?_toDigits {k : Nat} (hk : k ≠ 0) : (Nat.toDigits 10 k).head? ≠ some '0' := by
  induction k using Nat.strongRecOn with
  | ind k ih =>
    rw [Nat.toDigits_eq_if (by decide)]
    split
    · rename_i hlt
      intro hzero
      have hnat := congrArg Char.toNat (Option.some.inj hzero)
      rw [Nat.toNat_digitChar_of_lt_ten hlt] at hnat
      change 48 + k = 48 at hnat
      omega
    · have hfront := ih (k / 10) (by omega) (by omega)
      obtain ⟨c, cs, hcons⟩ := List.exists_cons_of_ne_nil (@Nat.toDigits_ne_nil (k / 10) 10)
      rw [hcons] at hfront ⊢
      exact hfront

theorem plain_ofNat {k : Nat} (hk : k ≠ 0) : (ofNat k).Plain := by
  have hdigits : (ofNat k).digits = Nat.toDigits 10 k := Nat.toList_repr
  rw [Plain, hdigits]
  exact head?_toDigits hk

theorem Plain.value_ne_zero (h : n.Plain) : n.value ≠ 0 := by
  intro hzero
  apply h
  rw [h.eq_ofNat, hzero]
  rfl

end Plain

end Numeral

end Chronometry
