import Chronometry.Elapsed
import Chronometry.Proofs.DurationGrammar

/-! Elapsed times read as durations. Both kinds of text use the same signs for days, hours, minutes and
seconds. Printed milliseconds are minutes to a reader of durations, and behind them stand seconds without
a number, so they are refused. -/
namespace Chronometry

namespace Duration

theorem Form.total_concat (components : List Component) (c : Component) :
    total ⟨components ++ [c], none⟩ =
      total ⟨components, none⟩ + 1000 * (c.number.value * c.unit.seconds) := by
  simp [total, Nat.mul_add]

/-- Components are added to the total at once, and reading goes on behind them. -/
theorem readFrom_components (text : String) {components : List Component}
    (hwords : ∀ c ∈ components, c.number.value < 2 ^ 64) (cs : List Char) (total : Duration) :
    readFrom text (Form.chars ⟨components, none⟩ ++ cs) [] total =
      (extend text total (Form.total ⟨components, none⟩ * 1_000_000) >>= readFrom text cs []) := by
  induction components generalizing total with
  | nil =>
    have hchars : Form.chars ⟨[], none⟩ = [] := rfl
    have htotal : Form.total ⟨[], none⟩ = 0 := rfl
    have hextend : extend text total 0 = .ok total := extend_eq_ok_iff.2 rfl
    rw [hchars, htotal, Nat.zero_mul, hextend, List.nil_append, Number.ok_bind]
  | cons c components ih =>
    rw [List.forall_mem_cons] at hwords
    have hcomponent := (component_eq_ok_iff c.number).2 ⟨hwords.1, c.unit, rfl, rfl⟩
    have htotal : Form.total ⟨c :: components, none⟩ * 1_000_000 =
        c.number.value * c.unit.seconds * 1_000_000_000 +
          Form.total ⟨components, none⟩ * 1_000_000 := by
      rw [Form.total_cons]
      omega
    rw [Form.chars_cons, List.append_assoc, List.cons_append, readFrom_component, hcomponent,
      Number.ok_bind, htotal, ← extend_extend, bind_assoc]
    simp only [ih hwords.2]

/-- A unit without a number in front of it. -/
theorem readFrom_unit_alone (text : String) (u : TimeUnit) (cs : List Char) (total : Duration) :
    readFrom text (u.symbol :: cs) [] total = .error (.number .empty) := by
  rw [readFrom_symbol (isDigit_symbol u) (isBlank_symbol u)]
  rfl

end Duration

namespace Elapsed
open Duration (TimeUnit Component Form)

def wholeParts (ms : Nat) : List (Nat × TimeUnit) :=
  [(ms / 86400000, .day), (ms / 3600000 % 24, .hour), (ms / 60000 % 60, .minute),
    (ms / 1000 % 60, .second)]

def wholeComponents (ms : Nat) : List Component :=
  ((wholeParts ms).filter (·.1 ≠ 0)).map fun part => ⟨.ofNat part.1, part.2⟩

def millisecondChars (ms : Nat) : List Char :=
  if ms % 1000 = 0 then [] else (ms % 1000).repr.toList ++ ['m', 's']

theorem filter_components (ms : Nat) : (components ms).filter (·.1 ≠ 0) =
    ((wholeParts ms).filter (·.1 ≠ 0)).map (fun part => (part.1, part.2.symbol.toString)) ++
      if ms % 1000 = 0 then [] else [(ms % 1000, "ms")] := by
  have hsplit : components ms =
      (wholeParts ms).map (fun part => (part.1, part.2.symbol.toString)) ++ [(ms % 1000, "ms")] := rfl
  rw [hsplit, List.filter_append, List.filter_map]
  congr 1
  by_cases h : ms % 1000 = 0 <;> simp [h]

theorem filter_components_ne_nil {ms : Nat} (h : ms ≠ 0) : (components ms).filter (·.1 ≠ 0) ≠ [] := by
  intro hnil
  have hzero : ∀ part ∈ components ms, part.1 = 0 := by
    simpa [List.filter_eq_nil_iff] using hnil
  simp only [components, List.forall_mem_cons] at hzero
  omega

theorem magnitudeText_eq_join {ms : Nat} (h : ms ≠ 0) : magnitudeText ms =
    String.join (((components ms).filter (·.1 ≠ 0)).map fun part => part.1.repr ++ part.2) := by
  unfold magnitudeText
  split
  · rename_i hnil
    exact absurd hnil (filter_components_ne_nil h)
  · rfl

theorem toList_magnitudeText {ms : Nat} (h : ms ≠ 0) :
    (magnitudeText ms).toList = Form.chars ⟨wholeComponents ms, none⟩ ++ millisecondChars ms := by
  rw [magnitudeText_eq_join h, String.toList_join, filter_components, List.map_append,
    List.flatMap_append]
  congr 1
  · simp [Form.chars, wholeComponents, List.flatMap_map, Numeral.ofNat, Char.toString]
  · unfold millisecondChars
    split <;> simp

/-- Parts that are zero add nothing. -/
theorem sum_filter_parts {α : Type} (weight : α → Nat) (parts : List (Nat × α)) :
    ((parts.filter (·.1 ≠ 0)).map fun part => part.1 * weight part.2).sum =
      (parts.map fun part => part.1 * weight part.2).sum := by
  induction parts with
  | nil => rfl
  | cons part parts ih =>
    by_cases hzero : part.1 = 0
    · simpa [hzero] using ih
    · simpa [hzero] using ih

theorem total_wholeComponents (ms : Nat) :
    Form.total ⟨wholeComponents ms, none⟩ = 1000 * (ms / 1000) := by
  have hsum : ((wholeComponents ms).map fun c => c.number.value * c.unit.seconds).sum = ms / 1000 := by
    unfold wholeComponents
    rw [List.map_map]
    simp only [Function.comp_def, Numeral.value_ofNat]
    rw [sum_filter_parts]
    simp only [wholeParts, List.map_cons, List.map_nil, List.sum_cons, List.sum_nil, TimeUnit.seconds]
    omega
  simp [Form.total, hsum]

theorem value_of_mem_wholeComponents {ms : Nat} {c : Component} (hc : c ∈ wholeComponents ms) :
    c.number.value ≤ ms / 1000 := by
  obtain ⟨part, hpart, rfl⟩ := List.mem_map.1 hc
  rw [Numeral.value_ofNat]
  have hmem := (List.mem_filter.1 hpart).1
  simp only [wholeParts, List.mem_cons, List.not_mem_nil, or_false] at hmem
  rcases hmem with rfl | rfl | rfl | rfl <;> dsimp only <;> omega

theorem millisecondChars_eq_nil_iff {ms : Nat} : millisecondChars ms = [] ↔ ms % 1000 = 0 := by
  unfold millisecondChars
  by_cases h : ms % 1000 = 0 <;> simp [h]

theorem magnitudeText_ne_empty {ms : Nat} (h : ms ≠ 0) : magnitudeText ms ≠ "" := by
  intro hempty
  have hlist := toList_magnitudeText h
  rw [hempty] at hlist
  obtain ⟨hwhole, hrest⟩ := List.append_eq_nil_iff.1 hlist.symm
  have htotal := total_wholeComponents ms
  cases hcomponents : wholeComponents ms with
  | nil =>
    rw [hcomponents] at htotal
    have hzero : Form.total ⟨[], none⟩ = 0 := rfl
    have hms := millisecondChars_eq_nil_iff.1 hrest
    omega
  | cons c components =>
    rw [hcomponents, Form.chars_cons] at hwhole
    simp at hwhole

theorem read_magnitudeText {ms : Nat} (h : ms ≠ 0) : Duration.read (magnitudeText ms) =
    Duration.readFrom (magnitudeText ms)
      (Form.chars ⟨wholeComponents ms, none⟩ ++ millisecondChars ms) [] .zero := by
  rw [Duration.read_of_ne_empty (magnitudeText_ne_empty h), Duration.packed,
    Duration.readFrom_filter, toList_magnitudeText h]

/-- Whole seconds are read as themselves. -/
theorem read_magnitudeText_seconds (seconds : Nat) (h : seconds < 2 ^ 64) :
    ∃ r, Duration.read (magnitudeText (seconds * 1000)) = .ok r ∧
      r.nanoseconds = seconds * 1_000_000_000 := by
  have hfits : seconds * 1_000_000_000 < 0x1_0000_0000_0000_0000 * 1_000_000_000 := by omega
  refine ⟨⟨seconds * 1_000_000_000, hfits⟩, ?_, rfl⟩
  by_cases hzero : seconds = 0
  · have hread : Duration.read (magnitudeText 0) = .ok .zero := by decide +kernel
    subst hzero
    exact hread
  · have hms : seconds * 1000 ≠ 0 := by omega
    have hwhole : millisecondChars (seconds * 1000) = [] :=
      millisecondChars_eq_nil_iff.2 (Nat.mul_mod_left seconds 1000)
    have hwords : ∀ c ∈ wholeComponents (seconds * 1000), c.number.value < 2 ^ 64 := by
      intro c hc
      have := value_of_mem_wholeComponents hc
      omega
    rw [read_magnitudeText hms, hwhole, Duration.readFrom_components _ hwords,
      total_wholeComponents, Number.bind_eq_ok_iff]
    refine ⟨_, Duration.extend_eq_ok_iff.2 ?_, rfl⟩
    change seconds * 1_000_000_000 = 0 + 1000 * (seconds * 1000 / 1000) * 1_000_000
    omega

/-- A fraction of a second cannot be read. -/
theorem read_magnitudeText_milliseconds (ms : Nat) (hms : ms < 2 ^ 64) (h : ms % 1000 ≠ 0) :
    Duration.read (magnitudeText ms) = .error (.number .empty) := by
  have hms0 : ms ≠ 0 := by
    rintro rfl
    exact h rfl
  let minutes : Component := ⟨.ofNat (ms % 1000), .minute⟩
  have hchars : Form.chars ⟨wholeComponents ms, none⟩ ++ millisecondChars ms =
      Form.chars ⟨wholeComponents ms ++ [minutes], none⟩ ++ ['s'] := by
    rw [millisecondChars, if_neg h]
    simp [Form.chars, minutes, Numeral.ofNat, TimeUnit.symbol]
  have hwords : ∀ c ∈ wholeComponents ms ++ [minutes], c.number.value < 2 ^ 64 := by
    intro c hc
    rcases List.mem_append.1 hc with hc | hc
    · have := value_of_mem_wholeComponents hc
      omega
    · rw [List.mem_singleton.1 hc, Numeral.value_ofNat]
      omega
  have htotal : Form.total ⟨wholeComponents ms ++ [minutes], none⟩ =
      1000 * (ms / 1000) + 60000 * (ms % 1000) := by
    have hminutes : minutes.number.value * minutes.unit.seconds = ms % 1000 * 60 :=
      congrArg (· * 60) (Numeral.value_ofNat (ms % 1000))
    rw [Form.total_concat, total_wholeComponents, hminutes]
    omega
  have hfits : (1000 * (ms / 1000) + 60000 * (ms % 1000)) * 1_000_000 <
      0x1_0000_0000_0000_0000 * 1_000_000_000 := by
    omega
  have hextend : Duration.extend (magnitudeText ms) .zero
      ((1000 * (ms / 1000) + 60000 * (ms % 1000)) * 1_000_000) = .ok ⟨_, hfits⟩ :=
    Duration.extend_eq_ok_iff.2 (Nat.zero_add _).symm
  rw [read_magnitudeText hms0, hchars, Duration.readFrom_components _ hwords, htotal, hextend,
    Number.ok_bind]
  exact Duration.readFrom_unit_alone _ .second [] _

theorem text?_eq_magnitudeText {d : Duration} (h : d.seconds ≤ limit) :
    text? d = some (magnitudeText (d.seconds * 1000 + d.subseconds / 1_000_000)) := by
  have hsigned : signedSeconds d = (d.seconds, false) :=
    if_pos (Nat.lt_of_le_of_lt h (by decide))
  unfold text?
  rw [hsigned]
  dsimp only
  rw [if_pos h]
  simp

/-- An elapsed time of whole seconds is read back as itself, and one with milliseconds is refused for a
number that is missing; so what is read back is never another number of milliseconds. -/
theorem text_read_back (d : Duration) (h : d.seconds ≤ 631107417600) :
    ∃ text, text? d = some text ∧
      (d.subseconds < 1_000_000 →
        ∃ r, Duration.read text = .ok r ∧ r.nanoseconds = d.seconds * 1_000_000_000) ∧
      (1_000_000 ≤ d.subseconds → Duration.read text = .error (.number .empty)) ∧
      ∀ r, Duration.read text = .ok r → r.nanoseconds / 1_000_000 = d.nanoseconds / 1_000_000 := by
  have hnanoseconds : d.nanoseconds = d.seconds * 1_000_000_000 + d.subseconds := by
    unfold Duration.seconds Duration.subseconds
    omega
  have hsub : d.subseconds < 1_000_000_000 := Nat.mod_lt _ (by decide)
  refine ⟨_, text?_eq_magnitudeText h, ?_⟩
  by_cases hms : d.subseconds < 1_000_000
  · have hzero : d.subseconds / 1_000_000 = 0 := Nat.div_eq_of_lt hms
    obtain ⟨r, hread, hr⟩ := read_magnitudeText_seconds d.seconds (by omega)
    rw [hzero, Nat.add_zero, hread]
    refine ⟨fun _ => ⟨r, rfl, hr⟩, fun _ => by omega, fun r' hr' => ?_⟩
    cases hr'
    omega
  · have hread := read_magnitudeText_milliseconds (d.seconds * 1000 + d.subseconds / 1_000_000)
      (by omega) (by omega)
    rw [hread]
    exact ⟨fun _ => by omega, fun _ => rfl, fun r' hr' => by cases hr'⟩

theorem text_read_back_day_and_milliseconds :
    let whole : Duration := ⟨90061 * 1_000_000_000 + 999_999, by decide⟩
    let fraction : Duration := ⟨90061 * 1_000_000_000 + 5_000_000, by decide⟩
    whole.seconds ≤ 631107417600 ∧ text? whole = some "1d1h1m1s" ∧
      (∃ r, Duration.read "1d1h1m1s" = .ok r ∧ r.nanoseconds = 90061 * 1_000_000_000) ∧
      fraction.seconds ≤ 631107417600 ∧ text? fraction = some "1d1h1m1s5ms" ∧
      Duration.read "1d1h1m1s5ms" = .error (.number .empty) := by
  intro whole fraction
  have hwhole : whole.seconds ≤ 631107417600 := by decide
  have hfraction : fraction.seconds ≤ 631107417600 := by decide
  have htext : text? whole = some "1d1h1m1s" := by decide +kernel
  have htext' : text? fraction = some "1d1h1m1s5ms" := by decide +kernel
  obtain ⟨text, hsome, hread, -⟩ := text_read_back whole hwhole
  obtain ⟨text', hsome', -, hread', -⟩ := text_read_back fraction hfraction
  cases htext.symm.trans hsome
  cases htext'.symm.trans hsome'
  have hseconds : whole.seconds = 90061 := by decide +kernel
  rw [hseconds] at hread
  exact ⟨hwhole, htext, hread (by decide +kernel), hfraction, htext', hread' (by decide +kernel)⟩

end Elapsed

end Chronometry
