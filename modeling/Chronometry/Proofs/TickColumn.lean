import Chronometry.Profile.Report
import Chronometry.Proofs.Numeral
import Mathlib.Data.List.Forall2
import Mathlib.Data.Nat.Log

/-! The columns of a profile. A name has a field of twenty characters, and a tick count has its digits alone.
Main statement: at which column the word behind a tick count starts, and for which profiles these words line
up. -/
namespace Chronometry

namespace Text
variable {s t : String} {width : Nat}

theorem toList_pushn (s : String) (c : Char) (n : Nat) :
    (s.pushn c n).toList = s.toList ++ List.replicate n c := by
  rw [String.pushn_eq_repeat_push]
  induction n with
  | zero => simp [Nat.repeat]
  | succ n ih =>
    rw [Nat.repeat, String.toList_push, ih, List.append_assoc, ← List.replicate_succ']

/-- The text stays on its line. -/
def Unbroken (s : String) : Prop := '\n' ∉ s.toList

instance (s : String) : Decidable (Unbroken s) := inferInstanceAs (Decidable ('\n' ∉ s.toList))

theorem unbroken_append_iff : Unbroken (s ++ t) ↔ Unbroken s ∧ Unbroken t := by
  simp [Unbroken]

theorem Unbroken.append (hs : Unbroken s) (ht : Unbroken t) : Unbroken (s ++ t) :=
  unbroken_append_iff.2 ⟨hs, ht⟩

theorem Unbroken.pushn (hs : Unbroken s) {c : Char} (hc : c ≠ '\n') (n : Nat) :
    Unbroken (s.pushn c n) := by
  unfold Unbroken
  rw [toList_pushn, List.mem_append, List.mem_replicate]
  rintro (h | h)
  · exact hs h
  · exact hc h.2.symm

theorem Unbroken.alignLeft (hs : Unbroken s) : Unbroken (alignLeft width s) := hs.pushn (by decide) _

theorem Unbroken.alignRight (hs : Unbroken s) : Unbroken (alignRight width s) := by
  have hblanks : Unbroken ("".pushn ' ' (width - s.length)) := Unbroken.pushn (by decide) (by decide) _
  exact hblanks.append hs

theorem unbroken_repr (n : Nat) : Unbroken n.repr := by
  intro h
  have hdigit := (Numeral.ofNat n).isDigit '\n' h
  exact absurd hdigit (by decide)

end Text

namespace Decimal
open Text

theorem unbroken_placed (places n : Nat) : Unbroken (placed places n) := by
  unfold placed
  split
  · exact unbroken_repr n
  · simp only [unbroken_append_iff, and_assoc]
    exact ⟨unbroken_repr _, by decide, Unbroken.pushn (by decide) (by decide) _, unbroken_repr _⟩

theorem unbroken_fixed (places : Nat) (x : Float) : Unbroken (fixed places x) := by
  unfold fixed
  split
  · decide
  · split <;> decide
  · refine Unbroken.append ?_ (unbroken_placed places _)
    split <;> decide

end Decimal

def Ticks.digits (t : Ticks) : Nat := Nat.log 10 t.count.toNat + 1

theorem Ticks.length_text (t : Ticks) : t.text.length = t.digits := by
  have hlength : t.text.length = (Nat.toDigits 10 t.count.toNat).length := by
    rw [← String.length_toList, text, Word.text, Nat.toList_repr]
  have hle_iff {k : Nat} (hk : 0 < k) := @Nat.length_toDigits_le_iff 10 t.count.toNat k (by decide) hk
  rw [hlength, digits]
  apply Nat.le_antisymm
  · exact (hle_iff (Nat.succ_pos _)).2 (Nat.lt_pow_succ_log_self (by decide) _)
  · have hpos : 0 < (Nat.toDigits 10 t.count.toNat).length := Nat.length_toDigits_pos
    exact Nat.log_lt_of_lt_pow' hpos.ne' ((hle_iff hpos).1 (Nat.le_refl _))

namespace Profile
open Text

/-- In a line, the word behind the tick count of a row starts at a column: in front of it stand the indent,
the name, blanks, the digits of the count, and one blank. -/
def Row.TicksAt (r : Row) (line : List Char) (column : Nat) : Prop :=
  ∃ blanks rest : List Char, (∀ c ∈ blanks, c = ' ') ∧
    let front := "  ".toList ++ r.name.toList ++ blanks ++ r.ticks.text.toList ++ [' ']
    line = front ++ "ticks".toList ++ rest ∧ column = front.length

namespace Row
variable {r : Row} {line : List Char} {column : Nat}

/-- The blanks behind a name end at the first digit. -/
theorem TicksAt.unique {column' : Nat} (h : r.TicksAt line column) (h' : r.TicksAt line column') :
    column = column' := by
  obtain ⟨blanks, rest, hblanks, rfl, rfl⟩ := h
  obtain ⟨blanks', rest', hblanks', hline, rfl⟩ := h'
  have hdigits : ∀ back : List Char, ∀ c ∈ (r.ticks.text.toList ++ back).head?, (c == ' ') = false := by
    intro back c hc
    obtain ⟨d, ds, hcons⟩ := List.exists_cons_of_ne_nil (Numeral.ofNat r.ticks.count.toNat).nonempty
    have hdigit := (Numeral.ofNat r.ticks.count.toNat).isDigit d (by rw [hcons]; exact List.mem_cons_self)
    have htext : r.ticks.text.toList = d :: ds := hcons
    rw [htext] at hc
    cases hc
    rw [beq_eq_false_iff_ne]
    rintro rfl
    exact absurd hdigit (by decide)
  simp only [List.append_assoc, List.append_cancel_left_eq] at hline
  have hsame := (Numeral.append_inj_of_class (p := (· == ' ')) (by simpa using hblanks)
    (by simpa using hblanks') (hdigits _) (hdigits _) hline).1
  rw [hsame]

theorem unbroken_line (h : Unbroken r.name) : Unbroken r.line := by
  unfold line
  simp only [unbroken_append_iff, and_assoc]
  refine ⟨by decide, h.alignLeft, by decide, unbroken_repr _, by decide,
    (Decimal.unbroken_fixed 2 _).alignRight, by decide, (unbroken_repr _).alignRight, by decide, ?_, ?_⟩
  · cases r.seconds with
    | none => decide
    | some s =>
      simp only [unbroken_append_iff]
      exact ⟨⟨by decide, (Decimal.unbroken_fixed 4 _).alignRight⟩, by decide⟩
  · cases r.bytesPerSecond with
    | none => decide
    | some b =>
      simp only [unbroken_append_iff]
      exact ⟨⟨by decide, (Decimal.unbroken_fixed 3 _).alignRight⟩, by decide⟩

theorem ticksAt_line (r : Row) : r.TicksAt r.line.toList (4 + max 20 r.name.length + r.ticks.digits) := by
  have hword : " ticks " = " ticks" ++ " " := rfl
  obtain ⟨rest, hline⟩ : ∃ rest, r.line =
      "  " ++ alignLeft 20 r.name ++ " " ++ r.ticks.text ++ " ticks" ++ rest := by
    unfold line
    simp only [hword, String.append_assoc]
    exact ⟨_, rfl⟩
  refine ⟨List.replicate (20 - r.name.length) ' ' ++ [' '], rest.toList, ?_, ?_, ?_⟩
  · intro c hc
    rw [List.mem_append, List.mem_replicate, List.mem_singleton] at hc
    exact hc.elim And.right id
  · simp [hline, alignLeft, toList_pushn]
  · have hindent : "  ".toList.length = 2 := by decide
    simp only [List.length_append, List.length_replicate, List.length_singleton, hindent,
      String.length_toList, r.ticks.length_text]
    omega

/-- A name that fits its field does not move the digits. -/
theorem ticksAt_line_iff (h : r.name.length ≤ 20) :
    r.TicksAt r.line.toList column ↔ column = 24 + r.ticks.digits := by
  have hline := r.ticksAt_line
  rw [Nat.max_eq_left h] at hline
  constructor
  · exact fun hcolumn => hcolumn.unique hline
  · rintro rfl
    exact hline

end Row

/-- The lines behind the first one of a text in which each line ends with a line break. -/
def sectionLines (text : String) : List (List Char) := (text.toList.splitOn '\n').tail.dropLast

namespace Report
variable {r : Report} {column : Nat}

theorem unbroken_headline (r : Report) : Unbroken r.headline := by
  unfold headline
  cases r.total.seconds? r.frequency with
  | none =>
    simp only [unbroken_append_iff]
    exact ⟨⟨by decide, unbroken_repr _⟩, by decide⟩
  | some s =>
    simp only [unbroken_append_iff, and_assoc]
    exact ⟨by decide, unbroken_repr _, by decide, Decimal.unbroken_fixed 4 _, by decide, unbroken_repr _,
      by decide⟩

theorem intercalate_lines (lines : List (List Char)) :
    ['\n'].intercalate (lines ++ [[]]) = lines.flatMap (· ++ ['\n']) := by
  induction lines with
  | nil => rfl
  | cons line lines ih =>
    rw [List.cons_append, List.intercalate_cons_of_ne_nil (by simp), ih, List.flatMap_cons]

/-- Without line breaks in the names, each row has one line of the text. -/
theorem sectionLines_text (h : ∀ row ∈ r.rows, Unbroken row.name) :
    sectionLines r.text = r.rows.map (·.line.toList) := by
  have htext : r.text.toList = ['\n'].intercalate (r.lines.map String.toList ++ [[]]) := by
    rw [intercalate_lines, text, String.toList_join, List.flatMap_map, List.flatMap_map]
    simp
  have hlines : ∀ line ∈ r.lines.map String.toList ++ [[]], '\n' ∉ line := by
    intro line hline
    rw [lines, List.map_cons, List.map_map, List.cons_append, List.mem_cons, List.mem_append,
      List.mem_singleton] at hline
    rcases hline with rfl | hline | rfl
    · exact r.unbroken_headline
    · obtain ⟨row, hrow, rfl⟩ := List.mem_map.1 hline
      exact Row.unbroken_line (h row hrow)
    · exact List.not_mem_nil
  rw [sectionLines, htext, List.splitOn_intercalate '\n' hlines (by simp)]
  simp [lines]

/-- The words behind the tick counts all start at one column. -/
def LinedUp (r : Report) (column : Nat) : Prop :=
  List.Forall₂ (fun row line => row.TicksAt line column) r.rows (sectionLines r.text)

/-- Names fit their field and stay on their line. -/
def Tidy (r : Report) : Prop := ∀ row ∈ r.rows, row.name.length ≤ 20 ∧ '\n' ∉ row.name.toList

theorem Tidy.forall₂_iff {P : Row → List Char → Prop} (h : r.Tidy) :
    List.Forall₂ P r.rows (sectionLines r.text) ↔ ∀ row ∈ r.rows, P row row.line.toList := by
  rw [sectionLines_text fun row hrow => (h row hrow).2, List.forall₂_map_right_iff, List.forall₂_same]

theorem Tidy.linedUp_iff (h : r.Tidy) :
    r.LinedUp column ↔ ∀ row ∈ r.rows, column = 24 + row.ticks.digits := by
  rw [LinedUp, h.forall₂_iff]
  exact forall₂_congr fun row hrow => Row.ticksAt_line_iff (h row hrow).1

theorem Tidy.exists_linedUp_iff (h : r.Tidy) :
    (∃ column, r.LinedUp column) ↔
      ∀ a ∈ r.rows, ∀ b ∈ r.rows, a.ticks.digits = b.ticks.digits := by
  simp only [h.linedUp_iff]
  constructor
  · rintro ⟨column, hcolumn⟩ a ha b hb
    have hab := (hcolumn a ha).symm.trans (hcolumn b hb)
    omega
  · intro hsame
    cases hrows : r.rows with
    | nil => exact ⟨0, fun row hrow => absurd hrow List.not_mem_nil⟩
    | cons first rest =>
      rw [hrows] at hsame
      exact ⟨24 + first.ticks.digits, fun row hrow => by
        rw [hsame first List.mem_cons_self row hrow]⟩

/-- The text of a report has one line for each row. If the names fit their field and stay on their line, the
word behind a tick count starts right behind the digits and one blank, so its column depends on how many
digits there are. The lines are lined up if and only if all tick counts have equally many digits, and at the
column behind a field of sixteen digits if and only if all of them fill that field. -/
theorem tick_words_lined_up_iff (r : Report)
    (h : ∀ row ∈ r.rows, row.name.length ≤ 20 ∧ '\n' ∉ row.name.toList) :
    List.Forall₂ (fun row line => ∀ column, row.TicksAt line column ↔ column = 24 + row.ticks.digits)
        r.rows (sectionLines r.text) ∧
      ((∃ column, r.LinedUp column) ↔
        ∀ a ∈ r.rows, ∀ b ∈ r.rows, a.ticks.digits = b.ticks.digits) ∧
      (r.LinedUp (2 + 20 + 1 + 16 + 1) ↔ ∀ row ∈ r.rows, row.ticks.digits = 16) := by
  have htidy : r.Tidy := h
  refine ⟨?_, htidy.exists_linedUp_iff, ?_⟩
  · exact htidy.forall₂_iff.2 fun row hrow column => Row.ticksAt_line_iff (h row hrow).1
  · rw [htidy.linedUp_iff]
    constructor
    · intro hcolumn row hrow
      have := hcolumn row hrow
      omega
    · intro hdigits row hrow
      rw [hdigits row hrow]

/-- Three digits each, behind a name that fills its field and a short one. -/
theorem tick_words_lined_up_three_digits :
    let r : Report := ⟨⟨1000⟩, 1000,
      [⟨"naïve fill of a page", ⟨250⟩, 2, 25, some 0.25, none⟩,
        ⟨"b", ⟨750⟩, 1, 75, some 0.75, some 4096⟩]⟩
    (∀ row ∈ r.rows, row.name.length ≤ 20 ∧ '\n' ∉ row.name.toList) ∧ ∃ column, r.LinedUp column := by
  intro r
  have hnames : ∀ row ∈ r.rows, row.name.length ≤ 20 ∧ '\n' ∉ row.name.toList := by
    simp only [r, List.forall_mem_cons]
    decide
  refine ⟨hnames, (r.tick_words_lined_up_iff hnames).2.1.2 ?_⟩
  simp only [r, List.forall_mem_cons]
  decide

/-- One digit and two digits: the second word starts one column behind the first. -/
theorem tick_words_apart :
    let r : Report := ⟨⟨100⟩, 0, [⟨"a", ⟨5⟩, 1, 5, none, none⟩, ⟨"b", ⟨95⟩, 1, 95, none, none⟩]⟩
    (∀ row ∈ r.rows, row.name.length ≤ 20 ∧ '\n' ∉ row.name.toList ∧ row.ticks.digits ≤ 16) ∧
      ¬ ∃ column, r.LinedUp column := by
  intro r
  have hrows : ∀ row ∈ r.rows, row.name.length ≤ 20 ∧ '\n' ∉ row.name.toList ∧ row.ticks.digits ≤ 16 := by
    simp only [r, List.forall_mem_cons]
    decide
  have htidy : r.Tidy := fun row hrow => ⟨(hrows row hrow).1, (hrows row hrow).2.1⟩
  refine ⟨hrows, ?_⟩
  rw [htidy.exists_linedUp_iff]
  simp only [r, List.forall_mem_cons]
  decide

end Report

end Profile

end Chronometry
