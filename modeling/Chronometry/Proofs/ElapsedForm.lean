import Chronometry.Proofs.ElapsedReading
import Mathlib.Data.List.Basic

/-! The texts of elapsed times as a grammar of their own. The numbers and units follow each other without
a blank, and a minute starts like a millisecond; still a text can be taken apart in one way only, and each
number of milliseconds has one text. -/
namespace Chronometry.Elapsed

inductive Scale where
  | day
  | hour
  | minute
  | second
  | millisecond

namespace Scale

def symbol : Scale → List Char
  | .day => ['d']
  | .hour => ['h']
  | .minute => ['m']
  | .second => ['s']
  | .millisecond => ['m', 's']

def milliseconds : Scale → Nat
  | .day => 86400000
  | .hour => 3600000
  | .minute => 60000
  | .second => 1000
  | .millisecond => 1

/-- How many of a unit make one of the next larger unit. Days are the largest. -/
def limit? : Scale → Option Nat
  | .day => none
  | .hour => some 24
  | .minute => some 60
  | .second => some 60
  | .millisecond => some 1000

theorem symbol_inj {u v : Scale} (h : u.symbol = v.symbol) : u = v := by
  cases u <;> cases v <;> simp_all [symbol]

theorem symbol_ne_nil (u : Scale) : u.symbol ≠ [] := by
  cases u <;> exact List.cons_ne_nil _ _

theorem isDigit_of_mem_symbol (u : Scale) : ∀ c ∈ u.symbol, c.isDigit = false := by
  cases u <;> simp [symbol, Char.isDigit]

/-- A unit has a limit below every larger unit, and reaches none of them before it. -/
theorem limit_mul_le {u v : Scale} (h : u.milliseconds < v.milliseconds) :
    ∃ n ∈ u.limit?, n * u.milliseconds ≤ v.milliseconds := by
  cases u <;> cases v <;> simp_all [milliseconds, limit?]

theorem milliseconds_pos (u : Scale) : 0 < u.milliseconds := by
  cases u <;> decide

theorem eq_of_milliseconds {u v : Scale} (h : u.milliseconds = v.milliseconds) : u = v := by
  cases u <;> cases v <;> simp_all [milliseconds]

end Scale

@[ext]
structure Part where
  number : Numeral
  unit : Scale

def chars (parts : List Part) : List Char :=
  parts.flatMap fun part => part.number.digits ++ part.unit.symbol

def total (parts : List Part) : Nat :=
  (parts.map fun part => part.number.value * part.unit.milliseconds).sum

/-- Larger units come first and none comes twice, no number has a leading zero, and none makes one of the
next larger unit. -/
structure Canonical (parts : List Part) : Prop where
  order : parts.Pairwise fun p q => q.unit.milliseconds < p.unit.milliseconds
  plain : ∀ part ∈ parts, part.number.Plain
  below : ∀ part ∈ parts, ∀ n ∈ part.unit.limit?, part.number.value < n

/-- The grammar of elapsed times: `0s` for no time, and otherwise the parts it is made of. -/
def Written (text : List Char) (ms : Nat) : Prop :=
  (text = ['0', 's'] ∧ ms = 0) ∨
    ∃ parts, parts ≠ [] ∧ Canonical parts ∧ text = chars parts ∧ total parts = ms

section Unique
variable {part : Part} {parts parts' : List Part}

theorem chars_cons (part : Part) (parts : List Part) :
    chars (part :: parts) = part.number.digits ++ (part.unit.symbol ++ chars parts) := by
  simp [chars]

theorem total_cons (part : Part) (parts : List Part) :
    total (part :: parts) = part.number.value * part.unit.milliseconds + total parts := by
  simp [total]

/-- What follows a unit starts with a digit. -/
theorem isDigit_head_chars (parts : List Part) : ∀ c ∈ (chars parts).head?, c.isDigit := by
  cases parts with
  | nil => exact nofun
  | cons part parts =>
    intro c hc
    rw [chars_cons, List.head?_append_of_ne_nil _ part.number.nonempty] at hc
    exact part.number.isDigit c (List.mem_of_mem_head? hc)

/-- A text is cut into parts in one way only: numbers are the runs of digits, and units the runs of other
characters between them. -/
theorem chars_inj (h : chars parts = chars parts') : parts = parts' := by
  induction parts generalizing parts' with
  | nil =>
    cases parts' with
    | nil => rfl
    | cons part parts' =>
      rw [chars_cons] at h
      exact absurd (List.append_eq_nil_iff.1 h.symm).1 part.number.nonempty
  | cons part parts ih =>
    cases parts' with
    | nil =>
      rw [chars_cons] at h
      exact absurd (List.append_eq_nil_iff.1 h).1 part.number.nonempty
    | cons part' parts' =>
      have hunit : ∀ (u : Scale) (cs : List Char), ∀ c ∈ (u.symbol ++ cs).head?, c.isDigit = false := by
        intro u cs c hc
        rw [List.head?_append_of_ne_nil _ u.symbol_ne_nil] at hc
        exact u.isDigit_of_mem_symbol c (List.mem_of_mem_head? hc)
      have hclass : ∀ u : Scale, ∀ c ∈ u.symbol, (!c.isDigit) = true := by
        intro u c hc
        simp [u.isDigit_of_mem_symbol c hc]
      have hnext : ∀ parts : List Part, ∀ c ∈ (chars parts).head?, (!c.isDigit) = false := by
        intro parts c hc
        simp [isDigit_head_chars parts c hc]
      rw [chars_cons, chars_cons] at h
      obtain ⟨hnumber, hrest⟩ := Numeral.append_inj (hunit _ _) (hunit _ _) h
      obtain ⟨hsymbol, hchars⟩ := Numeral.append_inj_of_class (hclass _) (hclass _) (hnext _)
        (hnext _) hrest
      have hpart : part = part' := Part.ext hnumber (Scale.symbol_inj hsymbol)
      rw [hpart, ih hchars]

namespace Canonical

theorem tail (h : Canonical (part :: parts)) : Canonical parts where
  order := (List.pairwise_cons.1 h.order).2
  plain := (List.forall_mem_cons.1 h.plain).2
  below := (List.forall_mem_cons.1 h.below).2

/-- Parts of smaller units do not make one of a larger unit. -/
theorem total_lt (h : Canonical parts) {u : Scale}
    (hsmall : ∀ part ∈ parts, part.unit.milliseconds < u.milliseconds) :
    total parts < u.milliseconds := by
  induction parts generalizing u with
  | nil => cases u <;> decide
  | cons part parts ih =>
    have hrest := ih h.tail (List.pairwise_cons.1 h.order).1
    obtain ⟨n, hn, hle⟩ := Scale.limit_mul_le (hsmall part List.mem_cons_self)
    have hbelow : part.number.value + 1 ≤ n := h.below part List.mem_cons_self n hn
    rw [total_cons]
    calc part.number.value * part.unit.milliseconds + total parts
        < part.number.value * part.unit.milliseconds + part.unit.milliseconds := by omega
      _ = (part.number.value + 1) * part.unit.milliseconds := (Nat.succ_mul _ _).symm
      _ ≤ n * part.unit.milliseconds := Nat.mul_le_mul_right _ hbelow
      _ ≤ u.milliseconds := hle

theorem total_tail_lt (h : Canonical (part :: parts)) : total parts < part.unit.milliseconds :=
  h.tail.total_lt (List.pairwise_cons.1 h.order).1

theorem le_total (h : Canonical (part :: parts)) : part.unit.milliseconds ≤ total (part :: parts) := by
  have hpos := Nat.pos_of_ne_zero (h.plain part List.mem_cons_self).value_ne_zero
  have hle := Nat.le_mul_of_pos_left part.unit.milliseconds hpos
  rw [total_cons]
  omega

theorem total_ne_zero (h : Canonical parts) (hne : parts ≠ []) : total parts ≠ 0 := by
  obtain ⟨part, rest, rfl⟩ := List.exists_cons_of_ne_nil hne
  have hle := h.le_total
  have hpos := part.unit.milliseconds_pos
  omega

/-- No more than the largest unit of the one fits into the other. -/
theorem unit_le {part' : Part} (h : Canonical (part :: parts)) (h' : Canonical (part' :: parts'))
    (htotal : total (part :: parts) = total (part' :: parts')) :
    part.unit.milliseconds ≤ part'.unit.milliseconds := by
  by_contra hgt
  have hgt : part'.unit.milliseconds < part.unit.milliseconds := Nat.lt_of_not_le hgt
  have hsmall : ∀ q ∈ part' :: parts', q.unit.milliseconds < part.unit.milliseconds := by
    have hrest := (List.pairwise_cons.1 h'.order).1
    exact List.forall_mem_cons.2 ⟨hgt, fun q hq => Nat.lt_trans (hrest q hq) hgt⟩
  have hless := h'.total_lt hsmall
  have hle := h.le_total
  omega

/-- The total determines the parts: the first unit is the largest that fits, its number says how often, and
the rest is what is left. -/
theorem eq_of_total (h : Canonical parts) (h' : Canonical parts') (htotal : total parts = total parts') :
    parts = parts' := by
  induction parts generalizing parts' with
  | nil =>
    by_contra hne
    exact h'.total_ne_zero (Ne.symm hne) htotal.symm
  | cons part parts ih =>
    cases parts' with
    | nil => exact absurd htotal (h.total_ne_zero (List.cons_ne_nil _ _))
    | cons part' parts' =>
      have hunit : part.unit = part'.unit :=
        Scale.eq_of_milliseconds (Nat.le_antisymm (h.unit_le h' htotal) (h'.unit_le h htotal.symm))
      have hrest := h.total_tail_lt
      have hrest' := h'.total_tail_lt
      rw [total_cons, total_cons] at htotal
      rw [← hunit] at htotal hrest'
      have hvalue : part.number.value = part'.number.value := by
        have hpos := part.unit.milliseconds_pos
        have hdiv := congrArg (· / part.unit.milliseconds) htotal
        simpa [Nat.add_comm, Nat.add_mul_div_right _ _ hpos, Nat.div_eq_of_lt hrest,
          Nat.div_eq_of_lt hrest'] using hdiv
      have hnumber : part.number = part'.number := by
        rw [(h.plain part List.mem_cons_self).eq_ofNat, (h'.plain part' List.mem_cons_self).eq_ofNat,
          hvalue]
      have hpart : part = part' := Part.ext hnumber hunit
      rw [hvalue] at htotal
      rw [hpart, ih h.tail h'.tail (Nat.add_left_cancel htotal)]

end Canonical

end Unique

section Printed
variable {text : List Char} {ms ms' : Nat}

def balanced (ms : Nat) : List (Nat × Scale) :=
  [(ms / 86400000, .day), (ms / 3600000 % 24, .hour), (ms / 60000 % 60, .minute),
    (ms / 1000 % 60, .second), (ms % 1000, .millisecond)]

def parts (ms : Nat) : List Part :=
  ((balanced ms).filter (·.1 ≠ 0)).map fun count => ⟨.ofNat count.1, count.2⟩

theorem chars_parts (h : ms ≠ 0) : chars (parts ms) = (magnitudeText ms).toList := by
  have hcomponents : components ms =
      (balanced ms).map fun count => (count.1, String.ofList count.2.symbol) := rfl
  rw [magnitudeText_eq_join h, String.toList_join, hcomponents, List.filter_map]
  simp [chars, parts, List.flatMap_map, Function.comp_def, Numeral.ofNat]

theorem sum_balanced (ms : Nat) (weight : Scale → Nat) :
    ((balanced ms).map fun count => count.1 * weight count.2).sum =
      ms / 86400000 * weight .day + (ms / 3600000 % 24 * weight .hour +
        (ms / 60000 % 60 * weight .minute + (ms / 1000 % 60 * weight .second +
          ms % 1000 * weight .millisecond))) := by
  simp [balanced]

theorem total_parts (ms : Nat) : total (parts ms) = ms := by
  have hday : Scale.day.milliseconds = 86400000 := rfl
  have hhour : Scale.hour.milliseconds = 3600000 := rfl
  have hminute : Scale.minute.milliseconds = 60000 := rfl
  have hsecond : Scale.second.milliseconds = 1000 := rfl
  have hmillisecond : Scale.millisecond.milliseconds = 1 := rfl
  unfold total parts
  rw [List.map_map]
  simp only [Function.comp_def, Numeral.value_ofNat]
  rw [sum_filter_parts Scale.milliseconds, sum_balanced ms Scale.milliseconds, hday, hhour, hminute,
    hsecond, hmillisecond]
  omega

theorem canonical_parts (ms : Nat) : Canonical (parts ms) where
  order := by
    have hbalanced : (balanced ms).Pairwise fun p q => q.2.milliseconds < p.2.milliseconds := by
      simp [balanced, Scale.milliseconds]
    exact List.pairwise_map.2 (hbalanced.filter _)
  plain := by
    intro part hpart
    obtain ⟨count, hcount, rfl⟩ := List.mem_map.1 hpart
    exact Numeral.plain_ofNat (of_decide_eq_true (List.mem_filter.1 hcount).2)
  below := by
    intro part hpart n hn
    obtain ⟨count, hcount, rfl⟩ := List.mem_map.1 hpart
    rw [Numeral.value_ofNat]
    have hmem := (List.mem_filter.1 hcount).1
    simp only [balanced, List.mem_cons, List.not_mem_nil, or_false] at hmem
    rcases hmem with rfl | rfl | rfl | rfl | rfl <;> cases hn <;> exact Nat.mod_lt _ (by decide)

/-- A text is printed for some milliseconds exactly if the grammar writes them with it. -/
theorem written_iff : Written text ms ↔ text = (magnitudeText ms).toList := by
  have hzero : (magnitudeText 0).toList = ['0', 's'] := by decide +kernel
  constructor
  · rintro (⟨rfl, rfl⟩ | ⟨ps, hne, hcanonical, rfl, rfl⟩)
    · exact hzero.symm
    · have hps : ps = parts (total ps) :=
        hcanonical.eq_of_total (canonical_parts _) (total_parts _).symm
      rw [← chars_parts (hcanonical.total_ne_zero hne), ← hps]
  · rintro rfl
    by_cases hms : ms = 0
    · subst hms
      exact .inl ⟨hzero, rfl⟩
    · refine .inr ⟨parts ms, ?_, canonical_parts ms, (chars_parts hms).symm, total_parts ms⟩
      intro hnil
      have htotal := total_parts ms
      rw [hnil] at htotal
      exact hms htotal.symm

theorem Written.unique (h : Written text ms) (h' : Written text ms') : ms = ms' := by
  have hzero : ∀ ps, ps ≠ [] → Canonical ps → ['0', 's'] ≠ chars ps := by
    intro ps hne hcanonical htext
    obtain ⟨part, rest, rfl⟩ := List.exists_cons_of_ne_nil hne
    apply hcanonical.plain part List.mem_cons_self
    rw [chars_cons] at htext
    rw [← List.head?_append_of_ne_nil _ part.number.nonempty, ← htext]
    rfl
  rcases h with ⟨rfl, rfl⟩ | ⟨ps, hne, hcanonical, rfl, rfl⟩
  · rcases h' with ⟨-, rfl⟩ | ⟨ps', hne', hcanonical', htext, -⟩
    · rfl
    · exact absurd htext (hzero ps' hne' hcanonical')
  · rcases h' with ⟨htext, -⟩ | ⟨ps', -, -, htext, rfl⟩
    · exact absurd htext.symm (hzero ps hne hcanonical)
    · rw [chars_inj htext]

end Printed

theorem text?_of_le {d : Duration} (h : d.seconds ≤ limit) :
    text? d = some (magnitudeText (d.nanoseconds / 1_000_000)) := by
  have hms : d.nanoseconds / 1_000_000 = d.seconds * 1000 + d.subseconds / 1_000_000 := by
    unfold Duration.seconds Duration.subseconds
    omega
  rw [text?_eq_magnitudeText h, hms]

/-- Elapsed times have the same text exactly if they have the same whole milliseconds, and that text is the
only one that the grammar of elapsed times has for them. -/
theorem text_canonical (d₁ d₂ : Duration) (h₁ : d₁.seconds ≤ 631107417600)
    (h₂ : d₂.seconds ≤ 631107417600) :
    ∃ t₁ t₂, text? d₁ = some t₁ ∧ text? d₂ = some t₂ ∧
      (t₁ = t₂ ↔ d₁.nanoseconds / 1_000_000 = d₂.nanoseconds / 1_000_000) ∧
      ∀ t : String, t = t₁ ↔ Written t.toList (d₁.nanoseconds / 1_000_000) := by
  refine ⟨_, _, text?_of_le h₁, text?_of_le h₂, ?_, ?_⟩
  · constructor
    · intro htext
      have hwritten := written_iff.2 (congrArg String.toList htext)
      exact (written_iff.2 rfl : Written _ _).unique hwritten
    · intro hms
      rw [hms]
  · intro t
    rw [written_iff, String.toList_inj]

theorem text_canonical_minute_and_millisecond :
    let late : Duration := ⟨60_001_999_999, by decide⟩
    let early : Duration := ⟨1_000_000, by decide⟩
    late.seconds ≤ 631107417600 ∧ early.seconds ≤ 631107417600 ∧
      text? late = some "1m1ms" ∧ text? early = some "1ms" ∧
      ("1m1ms" = "1ms" ↔ late.nanoseconds / 1_000_000 = early.nanoseconds / 1_000_000) ∧
      ∀ t : String, t = "1m1ms" ↔ Written t.toList (late.nanoseconds / 1_000_000) := by
  intro late early
  have hlate : late.seconds ≤ 631107417600 := by decide
  have hearly : early.seconds ≤ 631107417600 := by decide
  have htext : text? late = some "1m1ms" := by decide +kernel
  have htext' : text? early = some "1ms" := by decide +kernel
  obtain ⟨t₁, t₂, hsome, hsome', hsame, hwritten⟩ := text_canonical late early hlate hearly
  cases htext.symm.trans hsome
  cases htext'.symm.trans hsome'
  exact ⟨hlate, hearly, htext, htext', hsame, hwritten⟩

end Chronometry.Elapsed
