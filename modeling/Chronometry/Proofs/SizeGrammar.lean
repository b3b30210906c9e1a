import Chronometry.Proofs.Numeral
import Chronometry.Proofs.Trimming
import Chronometry.Size
import Mathlib.Algebra.Ring.Nat
import Mathlib.Data.List.Basic

/-! The texts that name sizes. -/
namespace Chronometry.Size

/-- The multipliers in lower case. -/
def factors : List (List Char × Nat) :=
  [(['k'], 10 ^ 3), (['m'], 10 ^ 6), (['g'], 10 ^ 9), (['t'], 10 ^ 12),
   (['k', 'i'], 2 ^ 10), (['m', 'i'], 2 ^ 20), (['g', 'i'], 2 ^ 30), (['t', 'i'], 2 ^ 40)]

/-- What stands behind the digits, and the factor it stands for: nothing, or ASCII blanks and a
multiplier in any case. -/
inductive Suffix : List Char → Nat → Prop
  | none : Suffix [] 1
  | multiplier {blanks letters : List Char} {factor : Nat}
      (hblanks : ∀ c ∈ blanks, Text.isAsciiBlank c)
      (hfactor : (letters.map Char.toLower, factor) ∈ factors) : Suffix (blanks ++ letters) factor

/-- The grammar of sizes: digits with an optional sign and a suffix, between blanks. -/
def Names (text : List Char) (size : Nat) : Prop :=
  ∃ (before sign rest behind : List Char) (d : Numeral) (factor : Nat),
    text = before ++ (sign ++ d.digits ++ rest) ++ behind ∧
    (∀ c ∈ before, Text.isBlank c) ∧ (∀ c ∈ behind, Text.isBlank c) ∧
    (sign = [] ∨ sign = ['+']) ∧ Suffix rest factor ∧ size = d.value * factor

theorem multiplier?_eq_some_iff {cs : List Char} {factor : Nat} :
    multiplier? cs = some factor ↔ (cs, factor) ∈ factors := by
  constructor
  · intro h
    obtain ⟨m, hm, rfl⟩ := Option.map_eq_some_iff.1 h
    have hcs : m.1.toList = cs := by simpa using List.find?_some hm
    rw [← hcs]
    have htable : ∀ m ∈ multipliers, (m.1.toList, m.2) ∈ factors := by decide
    exact htable m (List.mem_of_find?_eq_some hm)
  · intro h
    have htable : ∀ m ∈ factors, multiplier? m.1 = some m.2 := by decide
    exact htable (cs, factor) h

section Split
variable {front back rest suffix : List Char} {n : Nat}

def byteLength (cs : List Char) : Nat := (cs.map Char.utf8Size).sum

theorem byteLength_append (front back : List Char) :
    byteLength (front ++ back) = byteLength front + byteLength back := by
  rw [byteLength, List.map_append, List.sum_append]
  rfl

theorem length_le_byteLength (cs : List Char) : cs.length ≤ byteLength cs := by
  induction cs with
  | nil => exact Nat.le_refl 0
  | cons c cs ih =>
    have hpos := c.utf8Size_pos
    have hcons : byteLength (c :: cs) = c.utf8Size + byteLength cs := rfl
    rw [hcons, List.length_cons]
    omega

theorem utf8Size_eq_one_iff {c : Char} : c.utf8Size = 1 ↔ c.toNat < 128 := by
  rw [Char.utf8Size_eq_one_iff, UInt32.le_iff_toNat_le, Char.toNat_val]
  exact Nat.lt_succ_iff.symm

/-- A text has as many bytes as characters if and only if all of them are ASCII. -/
theorem byteLength_eq_length_iff {cs : List Char} :
    byteLength cs = cs.length ↔ ∀ c ∈ cs, c.toNat < 128 := by
  induction cs with
  | nil => simp [byteLength]
  | cons c cs ih =>
    have hpos := c.utf8Size_pos
    have hle := length_le_byteLength cs
    have hcons : byteLength (c :: cs) = c.utf8Size + byteLength cs := rfl
    rw [List.forall_mem_cons, ← ih, ← utf8Size_eq_one_iff, hcons, List.length_cons]
    omega

theorem splitAtByte_eq_some {cs : List Char} (h : splitAtByte n cs = some (front, rest)) :
    cs = front ++ rest ∧ byteLength front = n := by
  fun_induction splitAtByte n cs generalizing front rest with
  | case1 cs =>
    cases h
    exact ⟨rfl, rfl⟩
  | case2 n => cases h
  | case3 n c cs hle ih =>
    obtain ⟨⟨f, r⟩, hsplit, heq⟩ := Option.map_eq_some_iff.1 h
    cases heq
    obtain ⟨hcs, hbytes⟩ := ih hsplit
    have hcons : byteLength (c :: f) = c.utf8Size + byteLength f := rfl
    rw [hcons, hbytes, hcs]
    exact ⟨rfl, by omega⟩
  | case4 n c cs hlt => cases h

theorem splitAtByte_append (front back : List Char) :
    splitAtByte (byteLength front) (front ++ back) = some (front, back) := by
  induction front with
  | nil => simp [byteLength, splitAtByte]
  | cons c front ih =>
    obtain ⟨n, hn⟩ := Nat.exists_eq_succ_of_ne_zero (Nat.ne_of_gt c.utf8Size_pos)
    have hbytes : byteLength (c :: front) = n + byteLength front + 1 := by
      simp only [byteLength, List.map_cons, List.sum_cons, hn]
      omega
    have hrest : n + byteLength front + 1 - c.utf8Size = byteLength front := by omega
    rw [hbytes, List.cons_append, splitAtByte, if_pos (by omega), hrest, ih]
    rfl

/-- The offset counts characters and the cut counts bytes. Behind a wide character the cut comes too
early, and the suffix does not start with a letter. -/
theorem split_at_letter (hfront : ∀ c ∈ front, Text.isLetter c = false)
    (hsplit : splitAtByte front.length (front ++ back) = some (rest, suffix))
    (hletter : ∃ c ∈ suffix.head?, Text.isLetter c) :
    (∀ c ∈ front, c.toNat < 128) ∧ rest = front ∧ suffix = back := by
  obtain ⟨happend, hbytes⟩ := splitAtByte_eq_some hsplit
  have hwide := length_le_byteLength front
  rcases List.append_eq_append_iff.1 happend with ⟨x, hx, hback⟩ | ⟨x, hx, hsuffix⟩
  · have hlen := length_le_byteLength x
    rw [hx, byteLength_append] at hbytes
    have hnil : x = [] := List.length_eq_zero_iff.1 (by omega)
    subst hnil
    rw [List.append_nil] at hx
    exact ⟨byteLength_eq_length_iff.1 (by omega), hx, hback.symm⟩
  · cases x with
    | nil =>
      rw [List.append_nil] at hx
      exact ⟨byteLength_eq_length_iff.1 (by rw [hx] at hbytes ⊢; omega), hx.symm, hsuffix⟩
    | cons c x =>
      obtain ⟨d, hd, hletter⟩ := hletter
      rw [hsuffix] at hd
      cases hd
      rw [hfront c (by rw [hx]; simp)] at hletter
      cases hletter

end Split

section Grammar
variable {front suffix text : List Char} {n : UInt64}

theorem scale_eq_ok_iff {value : UInt64} {factor : Nat} :
    scale value factor = .ok n ↔ value.toNat * factor = n.toNat := by
  rw [← Word.ofNat?_eq_some_iff, scale]
  cases Word.ofNat? (value.toNat * factor) with
  | none => exact ⟨nofun, nofun⟩
  | some size => rw [Except.ok.injEq, Option.some.injEq]

theorem readTrimmed_of_no_letter (h : ∀ c ∈ text, Text.isLetter c = false) :
    readTrimmed text = .ok n ↔ Number.read text = .ok n := by
  rw [readTrimmed, List.findIdx?_eq_none_iff.2 h]
  exact Number.mapError_eq_ok_iff

theorem head_letter {factor : Nat} (h : (suffix, factor) ∈ factors) :
    ∃ c ∈ suffix.head?, Text.isLetter c := by
  have htable : ∀ m ∈ factors, ∃ c ∈ m.1.head?, Text.isLetter c := by
    simp [factors, Text.isLetter]
  exact htable _ h

/-- The first letter is found behind the characters that are none. -/
theorem findIdx?_first_letter (hfront : ∀ c ∈ front, Text.isLetter c = false)
    (hletter : ∃ c ∈ suffix.head?, Text.isLetter c) :
    (front ++ suffix).findIdx? Text.isLetter = some front.length := by
  obtain ⟨c, hc, hletter⟩ := hletter
  cases suffix with
  | nil => cases hc
  | cons d cs =>
    cases hc
    rw [List.findIdx?_append, List.findIdx?_eq_none_iff.2 hfront, List.findIdx?_cons, if_pos hletter]
    simp

theorem readTrimmed_of_letter (hfront : ∀ c ∈ front, Text.isLetter c = false)
    (hletter : ∃ c ∈ suffix.head?, Text.isLetter c) :
    readTrimmed (front ++ suffix) = .ok n ↔
      (∀ c ∈ front, c.toNat < 128) ∧ ∃ factor value, (suffix, factor) ∈ factors ∧
        Number.read (Text.trim front) = .ok value ∧ value.toNat * factor = n.toNat := by
  rw [readTrimmed, findIdx?_first_letter hfront hletter]
  constructor
  · intro h
    dsimp only at h
    split at h
    · cases h
    · rename_i rest tail hsplit
      split at h
      · cases h
      · rename_i factor hfactor
        have hmem := multiplier?_eq_some_iff.1 hfactor
        obtain ⟨hascii, rfl, rfl⟩ := split_at_letter hfront hsplit (head_letter hmem)
        cases hread : (Number.read (Text.trim rest)).mapError Error.number with
        | error e =>
          rw [hread] at h
          cases h
        | ok value =>
          rw [hread] at h
          exact ⟨hascii, factor, value, hmem, Number.mapError_eq_ok_iff.1 hread, scale_eq_ok_iff.1 h⟩
  · intro h
    obtain ⟨hascii, factor, value, hmem, hread, hvalue⟩ := h
    dsimp only
    rw [← byteLength_eq_length_iff.2 hascii, splitAtByte_append]
    dsimp only
    rw [multiplier?_eq_some_iff.2 hmem]
    dsimp only
    rw [hread]
    exact scale_eq_ok_iff.2 hvalue

theorem map_toLower (hfront : ∀ c ∈ front, Text.isLetter c = false) :
    front.map Char.toLower = front := by
  have heq : ∀ c ∈ front, c.toLower = id c := fun c hc => Text.toLower_of_not_isLetter (hfront c hc)
  rw [List.map_congr_left heq, List.map_id]

theorem exists_first_letter (cs : List Char) : ∃ front back, cs = front ++ back ∧
    (∀ c ∈ front, Text.isLetter c = false) ∧ (back = [] ∨ ∃ c ∈ back.head?, Text.isLetter c) := by
  induction cs with
  | nil => exact ⟨[], [], rfl, fun c hc => absurd hc List.not_mem_nil, .inl rfl⟩
  | cons c cs ih =>
    cases hc : Text.isLetter c with
    | true => exact ⟨[], c :: cs, rfl, fun c hc => absurd hc List.not_mem_nil, .inr ⟨c, rfl, hc⟩⟩
    | false =>
      obtain ⟨front, back, rfl, hfront, hback⟩ := ih
      exact ⟨c :: front, back, rfl, List.forall_mem_cons.2 ⟨hc, hfront⟩, hback⟩

/-- Only an empty text is refused before the rest is read. -/
theorem read_eq_iff (text : String) {result : Except Error UInt64} (hempty : result ≠ .error .empty)
    (hnumber : result ≠ .error (.number .empty)) :
    read text = result ↔ readTrimmed ((Text.trim text.toList).map Char.toLower) = result := by
  unfold read
  split
  · rename_i h
    rw [h]
    exact ⟨fun hread => absurd hread.symm hempty, fun hread => absurd hread.symm hnumber⟩
  · rfl

theorem read_eq_ok_iff (text : String) :
    read text = .ok n ↔ readTrimmed ((Text.trim text.toList).map Char.toLower) = .ok n :=
  read_eq_iff text nofun nofun

theorem names_of_read {text : String} (h : read text = .ok n) : Names text.toList n.toNat := by
  rw [read_eq_ok_iff] at h
  obtain ⟨before, behind, htext, hbefore, hbehind⟩ := Text.exists_trim text.toList
  obtain ⟨front, back, hcore, hfront, hback⟩ := exists_first_letter (Text.trim text.toList)
  rw [hcore] at htext h
  rw [List.map_append, map_toLower hfront] at h
  rcases hback with rfl | ⟨c, hc, hletter⟩
  · rw [List.map_nil, List.append_nil] at h
    obtain ⟨sign, d, rfl, hsign, hvalue⟩ :=
      Number.read_eq_ok_iff.1 ((readTrimmed_of_no_letter hfront).1 h)
    refine ⟨before, sign, [], behind, d, 1, htext, hbefore, hbehind, hsign, .none, ?_⟩
    rw [hvalue, Nat.mul_one]
  · have hlower : ∃ c ∈ (back.map Char.toLower).head?, Text.isLetter c :=
      ⟨c.toLower, by rw [List.head?_map, hc]; rfl, by rwa [Text.isLetter_toLower]⟩
    obtain ⟨hascii, factor, value, hfactor, hread, hn⟩ := (readTrimmed_of_letter hfront hlower).1 h
    obtain ⟨sign, d, hsigned, hsign, hvalue⟩ := Number.read_eq_ok_iff.1 hread
    obtain ⟨b₁, b₂, hblanks, hb₁, hb₂⟩ := Text.exists_trim front
    rw [hsigned] at hblanks
    have hmiddle : ∀ c ∈ b₂, Text.isAsciiBlank c := by
      intro c hc
      exact Text.isAsciiBlank_of_isBlank (hb₂ c hc) (hascii c (by rw [hblanks]; simp [hc]))
    refine ⟨before ++ b₁, sign, b₂ ++ back, behind, d, factor, ?_, ?_, hbehind, hsign,
      .multiplier hmiddle hfactor, ?_⟩
    · rw [htext, hblanks]
      simp only [List.append_assoc]
    · exact List.forall_mem_append.2 ⟨hbefore, hb₁⟩
    · rw [hvalue, hn]

section Signed
variable {sign : List Char} (hsign : sign = [] ∨ sign = ['+']) (d : Numeral)
include hsign

theorem toNat_of_mem_signed : ∀ c ∈ sign ++ d.digits, 43 ≤ c.toNat ∧ c.toNat ≤ 57 := by
  intro c hc
  rcases List.mem_append.1 hc with hc | hc
  · rcases hsign with rfl | rfl
    · cases hc
    · rw [List.mem_singleton.1 hc]
      decide
  · exact ⟨Nat.le_trans (by decide) (Char.isDigit_iff_toNat.1 (d.isDigit c hc)).1,
      (Char.isDigit_iff_toNat.1 (d.isDigit c hc)).2⟩

theorem isBlank_of_mem_signed : ∀ c ∈ sign ++ d.digits, Text.isBlank c = false := by
  intro c hc
  have := toNat_of_mem_signed hsign d c hc
  exact Text.isBlank_eq_false (by omega) (by omega)

theorem isLetter_of_mem_signed : ∀ c ∈ sign ++ d.digits, Text.isLetter c = false := by
  intro c hc
  have := toNat_of_mem_signed hsign d c hc
  rw [Text.isLetter_of_ascii (by omega), Bool.eq_false_iff]
  intro h
  have := Text.isAlpha_iff.1 h
  omega

theorem readTrimmed_number (hn : d.value = n.toNat) : readTrimmed (sign ++ d.digits) = .ok n := by
  rw [readTrimmed_of_no_letter (isLetter_of_mem_signed hsign d), Number.read_eq_ok_iff]
  exact ⟨sign, d, rfl, hsign, hn⟩

theorem readTrimmed_multiplier {blanks : List Char} {factor : Nat}
    (hblanks : ∀ c ∈ blanks, Text.isAsciiBlank c) (hfactor : (suffix, factor) ∈ factors)
    (hn : d.value * factor = n.toNat) :
    readTrimmed (sign ++ d.digits ++ blanks ++ suffix) = .ok n := by
  have hfront : ∀ c ∈ sign ++ d.digits ++ blanks, Text.isLetter c = false ∧ c.toNat < 128 := by
    intro c hc
    rcases List.mem_append.1 hc with hc | hc
    · have := toNat_of_mem_signed hsign d c hc
      exact ⟨isLetter_of_mem_signed hsign d c hc, by omega⟩
    · have := Text.isAsciiBlank_iff.1 (hblanks c hc)
      exact ⟨Text.isLetter_of_isAsciiBlank (hblanks c hc), by omega⟩
  have htrim : Text.trim (sign ++ d.digits ++ blanks) = sign ++ d.digits := by
    have := Text.trim_append_of_no_blank (List.forall_mem_nil _)
      (fun c hc => Text.isBlank_of_isAsciiBlank (hblanks c hc))
      (List.append_ne_nil_of_right_ne_nil sign d.nonempty) (isBlank_of_mem_signed hsign d)
    rwa [List.nil_append] at this
  -- No factor is zero, so the number fits if the size does.
  have hfits : d.value < 2 ^ 64 := by
    have htable : ∀ m ∈ factors, 0 < m.2 := by decide
    have hpos : 0 < factor := htable _ hfactor
    have := Nat.le_mul_of_pos_right d.value hpos
    have := n.toNat_lt
    omega
  obtain ⟨word, hvalue, -⟩ := Number.exists_word hfits
  rw [readTrimmed_of_letter (fun c hc => (hfront c hc).1) (head_letter hfactor), htrim]
  refine ⟨fun c hc => (hfront c hc).2, factor, word, hfactor, ?_, ?_⟩
  · exact Number.read_eq_ok_iff.2 ⟨sign, d, rfl, hsign, hvalue⟩
  · rw [← hvalue, hn]

end Signed

theorem multiplier_letters {letters : List Char} {factor : Nat}
    (h : (letters.map Char.toLower, factor) ∈ factors) :
    letters ≠ [] ∧ ∀ c ∈ letters, Text.isBlank c = false := by
  have htable : ∀ m ∈ factors, m.1 ≠ [] ∧ ∀ c ∈ m.1, 97 ≤ c.toNat ∧ c.toNat ≤ 122 := by
    simp [factors]
  obtain ⟨hne, hrange⟩ := htable _ h
  refine ⟨fun hnil => hne (by rw [hnil]; rfl), fun c hc => ?_⟩
  have hlower := hrange c.toLower (List.mem_map_of_mem hc)
  by_cases hupper : 65 ≤ c.toNat ∧ c.toNat ≤ 90
  · exact Text.isBlank_eq_false (by omega) (by omega)
  · rw [Text.toLower_eq_self hupper] at hlower
    exact Text.isBlank_eq_false (by omega) (by omega)

theorem read_of_names {text : String} (h : Names text.toList n.toNat) : read text = .ok n := by
  obtain ⟨before, sign, rest, behind, d, factor, htext, hbefore, hbehind, hsign, hrest, hn⟩ := h
  have hne : sign ++ d.digits ≠ [] := List.append_ne_nil_of_right_ne_nil sign d.nonempty
  have hblank := isBlank_of_mem_signed hsign d
  have hletter := isLetter_of_mem_signed hsign d
  rw [read_eq_ok_iff, htext]
  cases hrest with
  | none =>
    rw [Nat.mul_one] at hn
    rw [List.append_nil, Text.trim_append_of_no_blank hbefore hbehind hne hblank, map_toLower hletter]
    exact readTrimmed_number hsign d hn.symm
  | @multiplier blanks letters _ hblanks hfactor =>
    obtain ⟨hletters, hlast⟩ := multiplier_letters hfactor
    have htrim : Text.trim (before ++ (sign ++ d.digits ++ (blanks ++ letters)) ++ behind) =
        sign ++ d.digits ++ (blanks ++ letters) := by
      apply Text.trim_append hbefore hbehind (List.append_ne_nil_of_left_ne_nil hne _)
      · intro c hc
        rw [List.head?_append_of_ne_nil _ hne] at hc
        exact hblank c (List.mem_of_mem_head? hc)
      · intro c hc
        rw [← List.append_assoc, List.getLast?_append_of_ne_nil _ hletters] at hc
        exact hlast c (List.mem_of_mem_getLast? hc)
    have hfront : ∀ c ∈ sign ++ d.digits ++ blanks, Text.isLetter c = false :=
      List.forall_mem_append.2 ⟨hletter, fun c hc => Text.isLetter_of_isAsciiBlank (hblanks c hc)⟩
    rw [htrim, ← List.append_assoc, List.map_append, map_toLower hfront]
    exact readTrimmed_multiplier hsign d hblanks hfactor hn.symm

/-- A text is read as a size exactly if the grammar names that size by it. -/
theorem read_ok_iff_names (text : String) (n : UInt64) :
    read text = .ok n ↔ Names text.toList n.toNat :=
  ⟨names_of_read, read_of_names⟩

end Grammar

end Chronometry.Size
