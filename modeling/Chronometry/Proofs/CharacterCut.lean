import Chronometry.Proofs.CommandSpelling

/-! Where the text of a size is cut. The offset of the suffix counts characters and the cut counts bytes,
so behind wide characters the cut can fall inside a character. Main statement: the texts for which it
does, and what a command line with such a text gives. -/
namespace Chronometry

namespace Text
variable {c : Char}

theorem utf8Size_toLower : c.toLower.utf8Size = c.utf8Size := by
  by_cases hc : 65 ≤ c.toNat ∧ c.toNat ≤ 90
  · have hlower := toNat_toLower hc
    have hsize : c.utf8Size = 1 := Size.utf8Size_eq_one_iff.2 (by omega)
    rw [hsize, Size.utf8Size_eq_one_iff]
    omega
  · rw [toLower_eq_self hc]

theorem isLetter_of_wide (h : 128 ≤ c.toNat) :
    isLetter c = letterRanges.toList.any fun (first, last) => first ≤ c.toNat && c.toNat ≤ last := by
  rw [isLetter, if_neg (by omega), Array.any_toList]

end Text

namespace Size
variable {cs front : List Char} {n : Nat}

/-- The first `n` bytes of a text are whole characters. -/
def Boundary (cs : List Char) (n : Nat) : Prop := ∃ front, front <+: cs ∧ byteLength front = n

theorem splitAtByte_eq_none_iff : splitAtByte n cs = none ↔ ¬ Boundary cs n := by
  constructor
  · rintro hnone ⟨front, ⟨back, rfl⟩, rfl⟩
    rw [splitAtByte_append] at hnone
    cases hnone
  · intro hinside
    cases hsplit : splitAtByte n cs with
    | none => rfl
    | some cut =>
      obtain ⟨hcs, hbytes⟩ := splitAtByte_eq_some hsplit
      exact absurd ⟨cut.1, ⟨cut.2, hcs.symm⟩, hbytes⟩ hinside

theorem boundary_map_toLower_iff : Boundary (cs.map Char.toLower) n ↔ Boundary cs n := by
  have hbytes : ∀ front : List Char, byteLength (front.map Char.toLower) = byteLength front := by
    intro front
    simp [byteLength, Function.comp_def, Text.utf8Size_toLower]
  unfold Boundary
  simp only [List.prefix_map_iff]
  constructor
  · rintro ⟨_, ⟨front, hfront, rfl⟩, rfl⟩
    exact ⟨front, hfront, (hbytes front).symm⟩
  · rintro ⟨front, hfront, rfl⟩
    exact ⟨front.map Char.toLower, ⟨front, hfront, rfl⟩, hbytes front⟩

/-- A text has no more characters than bytes, so what stands behind them does not matter to the bytes that
lie within. -/
theorem boundary_append_iff (hn : n ≤ byteLength front) (back : List Char) :
    Boundary (front ++ back) n ↔ Boundary front n := by
  constructor
  · rintro ⟨cut, hcut, rfl⟩
    refine ⟨cut, ?_, rfl⟩
    rcases List.prefix_or_prefix_of_prefix hcut (List.prefix_append front back) with h | ⟨more, rfl⟩
    · exact h
    · have hmore := length_le_byteLength more
      rw [byteLength_append] at hn
      have hnil : more = [] := List.length_eq_zero_iff.1 (by omega)
      simp [hnil]
  · rintro ⟨cut, hcut, rfl⟩
    exact ⟨cut, hcut.trans (List.prefix_append front back), rfl⟩

theorem scale_ne_insideCharacter (value : UInt64) (factor : Nat) :
    scale value factor ≠ .error .insideCharacter := by
  unfold scale
  split
  · exact nofun
  · exact nofun

theorem mapError_ne_insideCharacter (result : Except Number.Error UInt64) :
    result.mapError .number ≠ .error Error.insideCharacter := by
  cases result with
  | error cause => exact nofun
  | ok value => exact nofun

/-- Of all the steps only the cut can fall inside a character. -/
theorem readTrimmed_insideCharacter_iff : readTrimmed cs = .error .insideCharacter ↔
    ∃ offset, cs.findIdx? Text.isLetter = some offset ∧ ¬ Boundary cs offset := by
  unfold readTrimmed
  cases hoffset : cs.findIdx? Text.isLetter with
  | none => simp [mapError_ne_insideCharacter]
  | some offset =>
    simp only [Option.some.injEq, exists_eq_left', ← splitAtByte_eq_none_iff]
    cases hsplit : splitAtByte offset cs with
    | none => simp
    | some cut =>
      simp only [reduceCtorEq, iff_false]
      cases multiplier? cut.2 with
      | none => simp
      | some factor =>
        cases hread : (Number.read (Text.trim cut.1)).mapError Error.number with
        | error e =>
          have hne := mapError_ne_insideCharacter (Number.read (Text.trim cut.1))
          rw [hread] at hne
          exact hne
        | ok value => exact scale_ne_insideCharacter value factor

/-- The text of a size has a letter, and in front of the first one stand characters of which no whole
number takes as many bytes as there are characters. -/
def CutInside (text : List Char) : Prop :=
  ∃ front letter rest, Text.trim text = front ++ letter :: rest ∧
    (∀ c ∈ front, Text.isLetter c = false) ∧ Text.isLetter letter ∧ ¬ Boundary front front.length

theorem read_insideCharacter_iff (text : String) :
    read text = .error .insideCharacter ↔ CutInside text.toList := by
  have hlower : (Text.isLetter ∘ Char.toLower) = Text.isLetter := by
    funext c
    exact Text.isLetter_toLower
  have hlength := length_le_byteLength
  have hread : read text = .error .insideCharacter ↔ _ := read_eq_iff text nofun nofun
  rw [hread, readTrimmed_insideCharacter_iff, List.findIdx?_map, hlower]
  simp only [boundary_map_toLower_iff]
  constructor
  · rintro ⟨offset, hoffset, hinside⟩
    obtain ⟨front, back, hcore, hfront, hback⟩ := exists_first_letter (Text.trim text.toList)
    rw [hcore] at hoffset hinside
    rcases hback with rfl | hletter
    · rw [List.append_nil, List.findIdx?_eq_none_iff.2 hfront] at hoffset
      cases hoffset
    · rw [findIdx?_first_letter hfront hletter] at hoffset
      cases hoffset
      rw [boundary_append_iff (hlength front)] at hinside
      obtain ⟨letter, hhead, hletter⟩ := hletter
      obtain ⟨rest, rfl⟩ := List.head?_eq_some_iff.1 hhead
      exact ⟨front, letter, rest, hcore, hfront, hletter, hinside⟩
  · rintro ⟨front, letter, rest, hcore, hfront, hletter, hinside⟩
    refine ⟨front.length, ?_, ?_⟩
    · rw [hcore]
      exact findIdx?_first_letter hfront ⟨letter, rfl, hletter⟩
    · rwa [hcore, boundary_append_iff (hlength front)]

/-- In ASCII, characters and bytes are counted alike. -/
theorem not_cutInside_of_ascii {text : List Char} (h : ∀ c ∈ text, c.toNat < 128) : ¬ CutInside text := by
  rintro ⟨front, letter, rest, hcore, -, -, hinside⟩
  obtain ⟨before, behind, htext, -⟩ := Text.exists_trim text
  have hfront : ∀ c ∈ front, c.toNat < 128 := by
    intro c hc
    exact h c (by rw [htext, hcore]; simp [hc])
  exact hinside ⟨front, List.prefix_refl front, byteLength_eq_length_iff.2 hfront⟩

end Size

namespace Command
variable {name : Name} {key : Key}

theorem readLine_command (name : Name) (args : List String) :
    readLine (name.text :: args) = (do
      let inner ← name.level.readLast args
      let command ← name.command inner
      return ⟨command, inner.logInterval⟩) := by
  unfold readLine
  rw [Level.scan_command (Progress.holds_settings {}) name.text_mem_commands, Number.ok_bind]
  simp only [Name.ofText?_text]
  cases name.level.readLast args with
  | error e => rfl
  | ok inner =>
    cases hcommand : name.command inner with
    | error e =>
      simp only [Number.ok_bind, hcommand]
      rfl
    | ok command =>
      simp only [Number.ok_bind, hcommand]
      have hlogInterval : inner.logInterval.or none = inner.logInterval := Option.or_none
      rw [(Progress.holds_settings {}), Number.ok_bind, hlogInterval]

theorem readLast_long (hkey : key ∈ name.keys) (htakes : key.takesValue = true) (raw : String) :
    name.level.readLast ["--" ++ key.long ++ "=" ++ raw] = Settings.assign {} key raw := by
  have hread : name.level.readLong key.long (some raw) {} = Progress.give {} key raw := by
    rw [Level.readLong, (Name.level_offers hkey).long]
    simp only [htakes, if_true]
  have hscan : name.level.scan ["--" ++ key.long ++ "=" ++ raw] {} =
      (do name.level.scan [] (← Progress.give {} key raw)) := by
    rw [Level.scan, Argument.ofText_long_joined, ← hread]
    rfl
  cases hassign : Settings.assign {} key raw with
  | error e =>
    have hgive : Progress.give {} key raw = .error e := by
      change (do let s ← Settings.assign {} key raw; _) = _
      rw [hassign]
      rfl
    rw [Level.readLast, hscan, hgive]
    rfl
  | ok s =>
    rw [Level.readLast, hscan, (Progress.holds_settings {}).give hassign]
    rfl

theorem Name.command_ne_brokenValue (name : Name) (s : Settings) :
    name.command s ≠ .error .brokenValue := by
  cases name
  case completions => cases hshell : s.shell <;> simp [Name.command, hshell]
  all_goals exact nofun

/-- A size on the command line breaks the reading of the line if and only if its text is cut inside a
character. -/
theorem readLine_size (hkey : key ∈ name.keys) (htakes : key.takesValue = true)
    (assigned : UInt64 → Settings)
    (hassign : ∀ raw, Settings.assign {} key raw = assigned <$> Settings.readSize raw) (raw : String) :
    readLine [name.text, "--" ++ key.long ++ "=" ++ raw] = .error .brokenValue ↔
      Size.read raw = .error .insideCharacter := by
  rw [readLine_command, readLast_long hkey htakes, hassign, Settings.readSize]
  cases Size.read raw with
  | ok size =>
    have hcommand := name.command_ne_brokenValue (assigned size)
    change (name.command (assigned size) >>= _) = _ ↔ _
    cases hresult : name.command (assigned size) with
    | error e =>
      rw [hresult] at hcommand
      simpa using hcommand
    | ok command =>
      constructor
      · intro hbroken
        cases hbroken
      · intro hinside
        cases hinside
  | error e =>
    cases e
    case insideCharacter => exact ⟨fun _ => rfl, fun _ => rfl⟩
    all_goals
      constructor
      · intro hbroken
        cases hbroken
      · intro hinside
        cases hinside

end Command

/-- Every text is read as a size or refused for what it is, except those that are cut inside a character;
none of these is all ASCII. On the command line they stop the program before it starts, wherever a size
is asked for. -/
theorem size_cut_inside_iff (text : String) :
    (Size.read text = .error .insideCharacter ↔ Size.CutInside text.toList) ∧
      (Command.readLine ["repeat", "--bytes=" ++ text] = .error .brokenValue ↔
        Size.CutInside text.toList) ∧
      (Command.readLine ["profile", "--fill-bytes=" ++ text] = .error .brokenValue ↔
        Size.CutInside text.toList) ∧
      ((∀ c ∈ text.toList, c.toNat < 128) → ¬ Size.CutInside text.toList) := by
  have hread := Size.read_insideCharacter_iff text
  have hassignBytes (raw : String) : Command.Settings.assign {} .bytes raw =
      (fun size => { bytes := some size }) <$> Command.Settings.readSize raw := by
    unfold Command.Settings.assign Command.Settings.once
    cases Command.Settings.readSize raw <;> rfl
  have hassignFill (raw : String) : Command.Settings.assign {} .fillBytes raw =
      (fun size => { fillBytes := some size }) <$> Command.Settings.readSize raw := by
    unfold Command.Settings.assign Command.Settings.once
    cases Command.Settings.readSize raw <;> rfl
  have hbytesKey : Command.Key.bytes ∈ Command.Name.repetition.keys := by decide
  have hfillKey : Command.Key.fillBytes ∈ Command.Name.profile.keys := by decide
  have hbytesLong : "--" ++ Command.Key.bytes.long ++ "=" = "--bytes=" := by decide
  have hfillLong : "--" ++ Command.Key.fillBytes.long ++ "=" = "--fill-bytes=" := by decide
  have hbytes := Command.readLine_size hbytesKey rfl _ hassignBytes text
  have hfill := Command.readLine_size hfillKey rfl _ hassignFill text
  rw [hbytesLong] at hbytes
  rw [hfillLong] at hfill
  exact ⟨hread, hbytes.trans hread, hfill.trans hread, Size.not_cutInside_of_ascii⟩

/-- The letter is the third character, and the second byte lies inside the second one. -/
theorem size_cut_inside_euro_sign : Size.read "5€k" = .error .insideCharacter := by
  have htrim : Text.trim "5€k".toList = ['5', '€'] ++ ['k'] := by decide +kernel
  have hfront : ∀ c ∈ ['5', '€'], Text.isLetter c = false := by
    have heuro : Text.isLetter '€' = false := by
      rw [Text.isLetter_of_wide (by decide)]
      decide +kernel
    have hfive : Text.isLetter '5' = false := by decide
    simp [heuro, hfive]
  have hinside : ¬ Size.Boundary ['5', '€'] 2 := Size.splitAtByte_eq_none_iff.1 (by decide)
  exact (Size.read_insideCharacter_iff "5€k").2
    ⟨['5', '€'], 'k', [], htrim, hfront, by decide, hinside⟩

end Chronometry
