import Chronometry.Duration
import Chronometry.Proofs.Numeral
import Chronometry.Proofs.Trimming
import Mathlib.Algebra.Ring.Nat

/-! The texts that name durations. -/
namespace Chronometry.Duration

inductive TimeUnit where
  | second
  | minute
  | hour
  | day

def TimeUnit.symbol : TimeUnit → Char
  | .second => 's'
  | .minute => 'm'
  | .hour => 'h'
  | .day => 'd'

def TimeUnit.seconds : TimeUnit → Nat
  | .second => 1
  | .minute => 60
  | .hour => 3600
  | .day => 86400

structure Component where
  number : Numeral
  unit : TimeUnit

/-- Components in order, and milliseconds without a unit at the end. -/
structure Form where
  components : List Component
  milliseconds : Option Numeral

namespace Form

/-- The text of a form, without blanks. -/
def chars (f : Form) : List Char :=
  (f.components.flatMap fun c => c.number.digits ++ [c.unit.symbol]) ++
    (f.milliseconds.map Numeral.digits).getD []

def numerals (f : Form) : List Numeral := f.components.map (·.number) ++ f.milliseconds.toList

/-- The exact total in milliseconds. -/
def total (f : Form) : Nat :=
  1000 * (f.components.map fun c => c.number.value * c.unit.seconds).sum +
    (f.milliseconds.map Numeral.value).getD 0

variable (c : Component) (components : List Component) (milliseconds : Option Numeral)

theorem chars_cons : chars ⟨c :: components, milliseconds⟩ =
    c.number.digits ++ c.unit.symbol :: chars ⟨components, milliseconds⟩ := by
  simp [chars]

theorem total_cons : total ⟨c :: components, milliseconds⟩ =
    1000 * (c.number.value * c.unit.seconds) + total ⟨components, milliseconds⟩ := by
  simp only [total, List.map_cons, List.sum_cons]
  omega

theorem forall_numerals_cons {P : Numeral → Prop} :
    (∀ n ∈ numerals ⟨c :: components, milliseconds⟩, P n) ↔
      P c.number ∧ ∀ n ∈ numerals ⟨components, milliseconds⟩, P n :=
  List.forall_mem_cons

end Form

theorem unit?_eq_some_iff {c : Char} {seconds : Nat} :
    unit? c = some seconds ↔ ∃ u : TimeUnit, u.symbol = c ∧ u.seconds = seconds := by
  constructor
  · intro h
    unfold unit? at h
    split at h
    · exact ⟨.second, rfl, Option.some.inj h⟩
    · exact ⟨.minute, rfl, Option.some.inj h⟩
    · exact ⟨.hour, rfl, Option.some.inj h⟩
    · exact ⟨.day, rfl, Option.some.inj h⟩
    · cases h
  · intro h
    obtain ⟨u, rfl, rfl⟩ := h
    cases u <;> rfl

theorem isDigit_symbol (u : TimeUnit) : u.symbol.isDigit = false := by
  cases u <;> rfl

theorem isBlank_symbol (u : TimeUnit) : Text.isBlank u.symbol = false := by
  cases u <;> rfl

section Steps
variable {text : String} {cs digits : List Char} {total d : Duration}

theorem eq_of_nanoseconds (h : total.nanoseconds = d.nanoseconds) : total = d := by
  obtain ⟨n, hn⟩ := total
  obtain ⟨m, hm⟩ := d
  cases h
  rfl

theorem extend_eq_ok_iff {n : Nat} :
    extend text total n = .ok d ↔ d.nanoseconds = total.nanoseconds + n := by
  unfold extend add? ofNanoseconds?
  by_cases hfits : total.nanoseconds + n < 0x1_0000_0000_0000_0000 * 1_000_000_000
  · rw [dif_pos hfits]
    constructor
    · intro h
      cases h
      rfl
    · intro h
      exact congrArg Except.ok (eq_of_nanoseconds h.symm)
  · rw [dif_neg hfits]
    have := d.fits
    constructor
    · intro h
      cases h
    · intro h
      omega

theorem extend_of_overflow {n : Nat} (h : 0x1_0000_0000_0000_0000 * 1_000_000_000 ≤ total.nanoseconds + n) :
    extend text total n = .error (.overflow text) := by
  unfold extend add? ofNanoseconds?
  rw [dif_neg (by omega)]

theorem extend_extend (text : String) (total : Duration) (m n : Nat) :
    (extend text total m >>= fun next => extend text next n) = extend text total (m + n) := by
  by_cases hm : total.nanoseconds + m < 0x1_0000_0000_0000_0000 * 1_000_000_000
  · have hnext : extend text total m = .ok ⟨_, hm⟩ := extend_eq_ok_iff.2 rfl
    rw [hnext, Number.ok_bind, extend, extend, add?, add?, Nat.add_assoc]
  · rw [extend_of_overflow (Nat.le_of_not_lt hm), extend_of_overflow (by omega)]
    rfl

theorem component_eq_ok_iff (n : Numeral) {c : Char} {ns : Nat} :
    component n.digits c = .ok ns ↔ n.value < 2 ^ 64 ∧
      ∃ u : TimeUnit, u.symbol = c ∧ ns = n.value * u.seconds * 1_000_000_000 := by
  unfold component
  rw [Number.bind_eq_ok_iff]
  constructor
  · intro h
    obtain ⟨word, hread, hunit⟩ := h
    have hvalue := (Number.read_numeral_eq_ok_iff n).1 (Number.mapError_eq_ok_iff.1 hread)
    split at hunit
    · rename_i seconds hseconds
      obtain ⟨u, hsymbol, rfl⟩ := unit?_eq_some_iff.1 hseconds
      cases hunit
      rw [hvalue]
      exact ⟨word.toNat_lt, u, hsymbol, rfl⟩
    · cases hunit
  · intro h
    obtain ⟨hfits, u, hsymbol, rfl⟩ := h
    obtain ⟨word, hvalue, hread⟩ := Number.exists_word hfits
    refine ⟨word, Number.mapError_eq_ok_iff.2 hread, ?_⟩
    rw [unit?_eq_some_iff.2 ⟨u, hsymbol, rfl⟩, hvalue]

theorem readFrom_digit {c : Char} (hc : c.isDigit) (text : String) (cs digits : List Char)
    (total : Duration) :
    readFrom text (c :: cs) digits total = readFrom text cs (digits ++ [c]) total := by
  rw [readFrom, if_pos hc]

theorem readFrom_blank {c : Char} (hc : Text.isBlank c) (text : String) (cs digits : List Char)
    (total : Duration) : readFrom text (c :: cs) digits total = readFrom text cs digits total := by
  have hdigit : c.isDigit = false := by
    rw [Bool.eq_false_iff]
    intro h
    rw [Text.isBlank_of_isDigit h] at hc
    cases hc
  rw [readFrom, if_neg (by simp [hdigit]), if_pos hc]

theorem readFrom_symbol {c : Char} (hdigit : c.isDigit = false) (hblank : Text.isBlank c = false)
    (text : String) (cs digits : List Char) (total : Duration) :
    readFrom text (c :: cs) digits total = (do
      let n ← component digits c
      let total ← extend text total n
      readFrom text cs [] total) := by
  rw [readFrom, if_neg (by simp [hdigit]), if_neg (by simp [hblank])]

/-- Blanks are skipped wherever they stand. -/
theorem readFrom_filter (text : String) (cs digits : List Char) (total : Duration) :
    readFrom text (cs.filter (!Text.isBlank ·)) digits total = readFrom text cs digits total := by
  induction cs generalizing digits total with
  | nil => rfl
  | cons c cs ih =>
    cases hblank : Text.isBlank c with
    | true => rw [List.filter_cons_of_neg (by simp [hblank]), readFrom_blank hblank, ih]
    | false =>
      rw [List.filter_cons_of_pos (by simp [hblank])]
      cases hdigit : c.isDigit with
      | true => rw [readFrom_digit hdigit, readFrom_digit hdigit, ih]
      | false =>
        rw [readFrom_symbol hdigit hblank, readFrom_symbol hdigit hblank]
        simp only [ih]

theorem readFrom_digits {front : List Char} (hfront : ∀ c ∈ front, c.isDigit) (text : String)
    (cs digits : List Char) (total : Duration) :
    readFrom text (front ++ cs) digits total = readFrom text cs (digits ++ front) total := by
  induction front generalizing digits with
  | nil => rw [List.nil_append, List.append_nil]
  | cons c front ih =>
    rw [List.forall_mem_cons] at hfront
    rw [List.cons_append, readFrom_digit hfront.1, ih hfront.2, List.append_assoc]
    rfl

theorem read_milliseconds (text : String) (n : Numeral) (total : Duration) :
    readFrom text n.digits [] total = (do
      let value ← (Number.read n.digits).mapError .number
      extend text total (value.toNat * 1_000_000)) := by
  have hdigits := readFrom_digits n.isDigit text [] [] total
  rw [List.append_nil, List.nil_append] at hdigits
  rw [hdigits]
  obtain ⟨digits, -, hne⟩ := n
  cases digits with
  | nil => exact absurd rfl hne
  | cons c cs => rfl

theorem readFrom_component (text : String) (c : Component) (cs : List Char) (total : Duration) :
    readFrom text (c.number.digits ++ c.unit.symbol :: cs) [] total = (do
      let n ← component c.number.digits c.unit.symbol
      let total ← extend text total n
      readFrom text cs [] total) := by
  rw [readFrom_digits c.number.isDigit, List.nil_append,
    readFrom_symbol (isDigit_symbol c.unit) (isBlank_symbol c.unit)]

theorem words_of_readFrom {f : Form} (h : readFrom text f.chars [] total = .ok d) :
    ∀ n ∈ f.numerals, n.value < 2 ^ 64 := by
  obtain ⟨components, milliseconds⟩ := f
  induction components generalizing total with
  | nil =>
    cases milliseconds with
    | none => exact List.forall_mem_nil _
    | some n =>
      have hread : readFrom text n.digits [] total = .ok d := h
      rw [read_milliseconds, Number.bind_eq_ok_iff] at hread
      obtain ⟨word, hword, -⟩ := hread
      have hvalue := (Number.read_numeral_eq_ok_iff n).1 (Number.mapError_eq_ok_iff.1 hword)
      have hlt : n.value < 2 ^ 64 := hvalue ▸ word.toNat_lt
      exact List.forall_mem_singleton.2 hlt
  | cons c components ih =>
    rw [Form.chars_cons, readFrom_component, Number.bind_eq_ok_iff] at h
    obtain ⟨n, hcomponent, hrest⟩ := h
    obtain ⟨next, -, hread⟩ := Number.bind_eq_ok_iff.1 hrest
    rw [Form.forall_numerals_cons]
    exact ⟨((component_eq_ok_iff c.number).1 hcomponent).1, ih hread⟩

/-- A form of words is added to the total at once: what is too large for a part of it is too large for
all of it. -/
theorem readFrom_words {f : Form} (hwords : ∀ n ∈ f.numerals, n.value < 2 ^ 64) :
    readFrom text f.chars [] total = extend text total (f.total * 1_000_000) := by
  obtain ⟨components, milliseconds⟩ := f
  induction components generalizing total with
  | nil =>
    cases milliseconds with
    | none =>
      have hchars : Form.chars ⟨[], none⟩ = [] := rfl
      have htotal : Form.total ⟨[], none⟩ = 0 := rfl
      rw [hchars, htotal, Nat.zero_mul, readFrom]
      exact (extend_eq_ok_iff.2 rfl).symm
    | some n =>
      obtain ⟨word, hvalue, hread⟩ := Number.exists_word (hwords n (List.mem_singleton.2 rfl))
      have hchars : Form.chars ⟨[], some n⟩ = n.digits := rfl
      have htotal : Form.total ⟨[], some n⟩ = n.value := Nat.zero_add n.value
      rw [hchars, htotal, read_milliseconds, Number.mapError_eq_ok_iff.2 hread, Number.ok_bind, hvalue]
  | cons c components ih =>
    rw [Form.forall_numerals_cons] at hwords
    have hcomponent := (component_eq_ok_iff c.number).2 ⟨hwords.1, c.unit, rfl, rfl⟩
    rw [Form.chars_cons, readFrom_component, hcomponent, Number.ok_bind]
    simp only [ih hwords.2]
    have htotal : c.number.value * c.unit.seconds * 1_000_000_000 +
        Form.total ⟨components, milliseconds⟩ * 1_000_000 =
          Form.total ⟨c :: components, milliseconds⟩ * 1_000_000 := by
      rw [Form.total_cons]
      omega
    rw [extend_extend, htotal]

theorem exists_form {text : String} {cs digits : List Char} {total d : Duration}
    (hblank : ∀ c ∈ cs, Text.isBlank c = false) (hdigits : ∀ c ∈ digits, c.isDigit)
    (h : readFrom text cs digits total = .ok d) : ∃ f : Form, digits ++ cs = f.chars := by
  induction cs generalizing digits total with
  | nil =>
    by_cases hnil : digits = []
    · rw [hnil]
      exact ⟨⟨[], none⟩, rfl⟩
    · exact ⟨⟨[], some ⟨digits, hdigits, hnil⟩⟩, List.append_nil digits⟩
  | cons c cs ih =>
    rw [List.forall_mem_cons] at hblank
    by_cases hc : c.isDigit
    · rw [readFrom_digit hc] at h
      obtain ⟨f, hf⟩ := ih hblank.2 (by simpa [or_imp, forall_and] using ⟨hdigits, hc⟩) h
      exact ⟨f, by rw [← hf, List.append_assoc]; rfl⟩
    · rw [readFrom_symbol (by simpa using hc) hblank.1, Number.bind_eq_ok_iff] at h
      obtain ⟨n, hcomponent, h⟩ := h
      rw [Number.bind_eq_ok_iff] at h
      obtain ⟨next, -, h⟩ := h
      obtain ⟨f, hf⟩ := ih hblank.2 (List.forall_mem_nil _) h
      have hne : digits ≠ [] := by
        intro hnil
        rw [hnil] at hcomponent
        cases hcomponent
      obtain ⟨-, u, hu, -⟩ := (component_eq_ok_iff ⟨digits, hdigits, hne⟩).1 hcomponent
      refine ⟨⟨⟨⟨digits, hdigits, hne⟩, u⟩ :: f.components, f.milliseconds⟩, ?_⟩
      rw [Form.chars_cons, ← hf, hu]
      rfl

end Steps

/-- What is left of a text without its blanks. -/
def packed (text : String) : List Char := text.toList.filter (!Text.isBlank ·)

theorem read_of_ne_empty {text : String} (hne : text ≠ "") :
    read text = readFrom text (packed text) [] zero := by
  rw [packed, readFrom_filter, read]
  split
  · rename_i hnil
    exact absurd (String.toList_eq_nil_iff.1 hnil) hne
  · rfl

theorem read_words {text : String} {f : Form} (hne : text ≠ "") (hf : packed text = f.chars)
    (hwords : ∀ n ∈ f.numerals, n.value < 2 ^ 64) :
    read text = extend text zero (f.total * 1_000_000) := by
  rw [read_of_ne_empty hne, hf, readFrom_words hwords]

theorem read_form {text : String} {f : Form} {d : Duration} (hne : text ≠ "")
    (hf : packed text = f.chars) : read text = .ok d ↔
      (∀ n ∈ f.numerals, n.value < 2 ^ 64) ∧ d.nanoseconds = f.total * 1_000_000 := by
  have hzero : zero.nanoseconds + f.total * 1_000_000 = f.total * 1_000_000 := Nat.zero_add _
  constructor
  · intro h
    have hread := h
    rw [read_of_ne_empty hne, hf] at hread
    have hwords := words_of_readFrom hread
    rw [read_words hne hf hwords, extend_eq_ok_iff, hzero] at h
    exact ⟨hwords, h⟩
  · intro h
    rw [read_words hne hf h.1, extend_eq_ok_iff, hzero]
    exact h.2

theorem Form.total_of_perm {f g : Form} (hcomponents : f.components.Perm g.components)
    (hms : f.milliseconds = g.milliseconds) : f.total = g.total := by
  rw [total, total, hms, (hcomponents.map _).sum_nat]

theorem Form.mem_numerals_of_perm {f g : Form} (hcomponents : f.components.Perm g.components)
    (hms : f.milliseconds = g.milliseconds) (n : Numeral) : n ∈ f.numerals ↔ n ∈ g.numerals := by
  rw [numerals, numerals, hms]
  exact ((hcomponents.map _).append_right _).mem_iff

theorem exists_form_of_read {text : String} {d : Duration} (h : read text = .ok d) :
    text ≠ "" ∧ ∃ f : Form, packed text = f.chars := by
  have hne : text ≠ "" := by
    intro hempty
    rw [hempty] at h
    cases h
  rw [read_of_ne_empty hne] at h
  have hblank : ∀ c ∈ packed text, Text.isBlank c = false := by
    intro c hc
    simpa using (List.mem_filter.1 hc).2
  exact ⟨hne, exists_form hblank (List.forall_mem_nil _) h⟩

/-- A text is read as a duration exactly if, without its blanks, it is the text of a form of words
whose total fits, and the duration is the total. The order of the components does not matter, and a
form of words is refused for its total only. -/
theorem read_ok_iff_form :
    (∀ (text : String) (d : Duration), read text = .ok d ↔ text ≠ "" ∧ ∃ f : Form,
      packed text = f.chars ∧ (∀ n ∈ f.numerals, n.value < 2 ^ 64) ∧
        f.total < 1000 * 2 ^ 64 ∧ d.nanoseconds = f.total * 1_000_000) ∧
    (∀ (text text' : String) (f f' : Form), text ≠ "" → text' ≠ "" → packed text = f.chars →
      packed text' = f'.chars → f.components.Perm f'.components →
      f.milliseconds = f'.milliseconds → ∀ d, read text = .ok d ↔ read text' = .ok d) ∧
    ∀ (text : String) (f : Form), text ≠ "" → packed text = f.chars →
      (∀ n ∈ f.numerals, n.value < 2 ^ 64) → 1000 * 2 ^ 64 ≤ f.total →
      read text = .error (.overflow text) := by
  refine ⟨fun text d => ⟨fun h => ?_, fun h => ?_⟩, ?_, ?_⟩
  · obtain ⟨hne, f, hf⟩ := exists_form_of_read h
    obtain ⟨hwords, hd⟩ := (read_form hne hf).1 h
    have := d.fits
    exact ⟨hne, f, hf, hwords, by omega, hd⟩
  · obtain ⟨hne, f, hf, hwords, -, hd⟩ := h
    exact (read_form hne hf).2 ⟨hwords, hd⟩
  · intro text text' f f' hne hne' hf hf' hcomponents hms d
    rw [read_form hne hf, read_form hne' hf', Form.total_of_perm hcomponents hms]
    simp only [Form.mem_numerals_of_perm hcomponents hms]
  · intro text f hne hf hwords htotal
    rw [read_words hne hf hwords]
    exact extend_of_overflow (by omega)

theorem read_ok_iff_form_reordered :
    (∃ d, read "1h 3 0m5" = .ok d ∧ d.nanoseconds = 5400005 * 1_000_000) ∧
    (∀ d, read "1h 3 0m5" = .ok d ↔ read "30m1h5" = .ok d) ∧
    read "18446744073709551615m" = .error (.overflow "18446744073709551615m") := by
  let hour : Component := ⟨⟨['1'], by simp, by simp⟩, .hour⟩
  let minutes : Component := ⟨⟨['3', '0'], by simp, by simp⟩, .minute⟩
  let five : Numeral := ⟨['5'], by simp, by simp⟩
  let large : Numeral :=
    ⟨"18446744073709551615".toList, List.all_eq_true.1 (by decide +kernel), by decide +kernel⟩
  refine ⟨⟨⟨5400005 * 1_000_000, by decide⟩, ?_, rfl⟩, ?_, ?_⟩
  · refine (read_ok_iff_form.1 _ _).2 ⟨by decide, ⟨[hour, minutes], some five⟩, ?_⟩
    exact ⟨by decide +kernel, by decide +kernel, by decide +kernel, by decide +kernel⟩
  · exact read_ok_iff_form.2.1 _ _ ⟨[hour, minutes], some five⟩ ⟨[minutes, hour], some five⟩
      (by decide) (by decide) (by decide +kernel) (by decide +kernel) (.swap minutes hour []) rfl
  · exact read_ok_iff_form.2.2 _ ⟨[⟨large, .minute⟩], none⟩ (by decide) (by decide +kernel)
      (by decide +kernel) (by decide +kernel)

end Chronometry.Duration
