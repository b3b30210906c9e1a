import Chronometry.Command.Line
import Chronometry.Proofs.DurationGrammar
import Chronometry.Proofs.SizeGrammar

/-! The ways to write a configuration on a command line. Main statement: whichever way it is written, the
line is read as the configuration, with the declared default for each option that is left out. -/
namespace Chronometry.Command

/-- An option together with the value that it is given. -/
inductive Entry where
  | logInterval (value : Duration)
  | timer (value : TimerChoice)
  | serialize
  | waitMs (value : UInt64)
  | maxWaitMs (value : UInt64)
  | iterations (values : List UInt64)
  | fillBytes (value : UInt64)
  | bytes (value : UInt64)
  | seconds (value : UInt64)

namespace Entry

def key : Entry → Key
  | .logInterval _ => .logInterval
  | .timer _ => .timer
  | .serialize => .serialize
  | .waitMs _ => .waitMs
  | .maxWaitMs _ => .maxWaitMs
  | .iterations _ => .iterations
  | .fillBytes _ => .fillBytes
  | .bytes _ => .bytes
  | .seconds _ => .seconds

/-- The texts of a value. Those of a list are written with commas between them. -/
inductive HasText : Entry → String → Prop where
  | logInterval {raw : String} {value : Duration} (h : Duration.read raw = .ok value) :
      HasText (.logInterval value) raw
  | micro : HasText (.timer .micro) "micro"
  | mono : HasText (.timer .mono) "mono"
  | waitMs {raw : String} {value : UInt64} (h : Number.read raw.toList = .ok value) :
      HasText (.waitMs value) raw
  | maxWaitMs {raw : String} {value : UInt64} (h : Number.read raw.toList = .ok value) :
      HasText (.maxWaitMs value) raw
  | iterations {raws : List (List Char)} {values : List UInt64} (hne : raws ≠ [])
      (h : List.Forall₂ (fun raw value => Number.read raw = .ok value) raws values) :
      HasText (.iterations values) (String.ofList ([','].intercalate raws))
  | fillBytes {raw : String} {value : UInt64} (h : Size.read raw = .ok value) :
      HasText (.fillBytes value) raw
  | bytes {raw : String} {value : UInt64} (h : Size.read raw = .ok value) : HasText (.bytes value) raw
  | seconds {raw : String} {value : UInt64} (h : Number.read raw.toList = .ok value) :
      HasText (.seconds value) raw

/-- The spellings of an entry, as arguments. A flag has two, an option with a value two with its name,
and three more with its letter if it has one. -/
inductive Spelled : Entry → List String → Prop where
  | flagLetter : Spelled .serialize ["-s"]
  | flagName : Spelled .serialize ["--serialize"]
  | nameApart {e : Entry} {raw : String} (h : e.HasText raw) : Spelled e ["--" ++ e.key.long, raw]
  | nameJoined {e : Entry} {raw : String} (h : e.HasText raw) :
      Spelled e ["--" ++ e.key.long ++ "=" ++ raw]
  | letterApart {e : Entry} {raw : String} {letter : Char} (hletter : e.key.short? = some letter)
      (h : e.HasText raw) : Spelled e [String.ofList ['-', letter], raw]
  | letterJoined {e : Entry} {raw : String} {letter : Char} (hletter : e.key.short? = some letter)
      (h : e.HasText raw) : Spelled e [String.ofList ['-', letter] ++ raw]
  | letterEqual {e : Entry} {raw : String} {letter : Char} (hletter : e.key.short? = some letter)
      (h : e.HasText raw) : Spelled e [String.ofList ['-', letter, '='] ++ raw]

/-- Entries one after the other, each in some spelling. -/
inductive SpelledAll : List Entry → List String → Prop where
  | nil : SpelledAll [] []
  | cons {e : Entry} {entries : List Entry} {args rest : List String} (h : e.Spelled args)
      (hrest : SpelledAll entries rest) : SpelledAll (e :: entries) (args ++ rest)

/-- The loops that an entry asks for. -/
def iterations? : Entry → Option (List UInt64)
  | .iterations values => some values
  | _ => none

end Entry

/-- The entry that assigns an option its value, unless it is not set. The loops can take several. -/
def Settings.assigned? (s : Settings) : Key → Option Entry
  | .logInterval => s.logInterval.map .logInterval
  | .timer => s.timer.map .timer
  | .serialize => if s.serialize then some .serialize else none
  | .waitMs => s.waitMs.map .waitMs
  | .maxWaitMs => s.maxWaitMs.map .maxWaitMs
  | .fillBytes => s.fillBytes.map .fillBytes
  | .bytes => s.bytes.map .bytes
  | .seconds => s.seconds.map .seconds
  | .iterations | .shell | .help | .version => none

/-- The parts of a list put together, if there is one. -/
def joined (parts : List (List UInt64)) : Option (List UInt64) :=
  if parts = [] then none else some parts.flatten

/-- Entries that assign the settings: each option that is set stands once, and the others do not stand at
all. The loops may stand in several parts, which belong together in their order. -/
structure Settings.WrittenAs (s : Settings) (entries : List Entry) : Prop where
  single : ∀ key, key ≠ .iterations → entries.filter (·.key = key) = (s.assigned? key).toList
  loops : s.iterations = joined (entries.filterMap Entry.iterations?)

/-- The command that settings configure, with the defaults of the options that are not set. -/
def Name.configured? (s : Settings) : Name → Option Command
  | .calibrate =>
    some (.calibrate ⟨s.timer.getD .micro, s.serialize⟩ ⟨s.waitMs.getD 100, s.maxWaitMs.getD 10000⟩)
  | .osTimer => some (.osTimer ⟨s.timer.getD .micro, s.serialize⟩ (s.waitMs.getD 1000))
  | .profile =>
    some (.profile ⟨s.timer.getD .micro, s.serialize⟩ ⟨s.waitMs.getD 100, s.maxWaitMs.getD 10000⟩
      (s.iterations.getD [1000, 100000, 1000000, 100000, 10000]) s.fillBytes)
  | .repetition =>
    some (.repetition ⟨s.timer.getD .micro, s.serialize⟩ ⟨s.waitMs.getD 100, s.maxWaitMs.getD 10000⟩
      (s.bytes.getD 1048576) (s.seconds.getD 10))
  | .completions => none

section Values
variable {cs raw : List Char} {raws : List (List Char)}

/-- A text that neither opens an option nor is cut at its start. -/
def Unmarked (cs : List Char) : Prop := ∃ c rest, cs = c :: rest ∧ c ≠ '-' ∧ c ≠ '='

theorem unmarked_cons {c : Char} (h : c.isDigit ∨ c = '+' ∨ Text.isBlank c) : Unmarked (c :: cs) := by
  refine ⟨c, cs, rfl, ?_, ?_⟩
  · rintro rfl
    revert h
    decide
  · rintro rfl
    revert h
    decide

theorem Unmarked.append (h : Unmarked cs) (more : List Char) : Unmarked (cs ++ more) := by
  obtain ⟨c, rest, rfl, hc⟩ := h
  exact ⟨c, rest ++ more, rfl, hc⟩

theorem unmarked_signed {sign : List Char} (hsign : sign = [] ∨ sign = ['+']) (n : Numeral) :
    Unmarked (sign ++ n.digits) := by
  obtain rfl | rfl := hsign
  · obtain ⟨c, rest, hdigits⟩ := List.exists_cons_of_ne_nil n.nonempty
    rw [List.nil_append, hdigits]
    exact unmarked_cons (.inl (n.isDigit c (by simp [hdigits])))
  · exact unmarked_cons (.inr (.inl rfl))

theorem unmarked_of_readNumber {value : UInt64} (h : Number.read cs = .ok value) : Unmarked cs := by
  obtain ⟨sign, n, rfl, hsign, -⟩ := Number.read_eq_ok_iff.1 h
  exact unmarked_signed hsign n

theorem unmarked_of_readSize {text : String} {value : UInt64} (h : Size.read text = .ok value) :
    Unmarked text.toList := by
  obtain ⟨before, sign, rest, behind, n, -, htext, hbefore, -, hsign, -⟩ := Size.names_of_read h
  rw [htext]
  cases before with
  | nil => exact ((unmarked_signed hsign n).append rest).append behind
  | cons c before => exact unmarked_cons (.inr (.inr (hbefore c (by simp))))

/-- A unit needs a number in front of it, so a duration starts with a digit or a blank. -/
theorem unmarked_of_readDuration {text : String} {value : Duration}
    (h : Duration.read text = .ok value) : Unmarked text.toList := by
  unfold Duration.read at h
  cases htext : text.toList with
  | nil => simp [htext] at h
  | cons c cs =>
    simp only [htext] at h
    by_cases hdigit : c.isDigit
    · exact unmarked_cons (.inl hdigit)
    by_cases hblank : Text.isBlank c
    · exact unmarked_cons (.inr (.inr hblank))
    rw [Duration.readFrom_symbol (by simpa using hdigit) (by simpa using hblank)] at h
    exact nomatch h

theorem comma_notMem_of_readNumber {value : UInt64} (h : Number.read cs = .ok value) : ',' ∉ cs := by
  obtain ⟨sign, n, rfl, hsign, -⟩ := Number.read_eq_ok_iff.1 h
  intro hmem
  obtain hmem | hmem := List.mem_append.1 hmem
  · obtain rfl | rfl := hsign <;> simp at hmem
  · exact absurd (n.isDigit ',' hmem) (by decide)

namespace Settings

theorem pieces_ne_nil (cs : List Char) : pieces cs ≠ [] := by
  cases cs with
  | nil => exact List.cons_ne_nil _ _
  | cons c cs =>
    unfold pieces
    split
    · exact List.cons_ne_nil _ _
    · split <;> exact List.cons_ne_nil _ _

theorem pieces_comma (cs : List Char) : pieces (',' :: cs) = [] :: pieces cs := by
  obtain ⟨piece, rest, h⟩ := List.exists_cons_of_ne_nil (pieces_ne_nil cs)
  simp [pieces, h]

theorem pieces_cons {c : Char} {piece : List Char} (hc : c ≠ ',') (h : pieces cs = piece :: raws) :
    pieces (c :: cs) = (c :: piece) :: raws := by
  simp [pieces, h, hc]

theorem pieces_of_notMem (h : ',' ∉ raw) : pieces raw = [raw] := by
  induction raw with
  | nil => rfl
  | cons c raw ih =>
    rw [List.mem_cons, not_or] at h
    exact pieces_cons (Ne.symm h.1) (ih h.2)

theorem pieces_append_comma (h : ',' ∉ raw) (cs : List Char) :
    pieces (raw ++ ',' :: cs) = raw :: pieces cs := by
  induction raw with
  | nil => exact pieces_comma cs
  | cons c raw ih =>
    rw [List.mem_cons, not_or] at h
    exact pieces_cons (Ne.symm h.1) (ih h.2)

theorem pieces_intercalate (hne : raws ≠ []) (h : ∀ raw ∈ raws, ',' ∉ raw) :
    pieces ([','].intercalate raws) = raws := by
  induction raws with
  | nil => exact absurd rfl hne
  | cons raw raws ih =>
    rw [List.forall_mem_cons] at h
    cases raws with
    | nil => simpa using pieces_of_notMem h.1
    | cons next raws =>
      rw [List.intercalate_cons_cons, List.append_assoc]
      have hrest := ih (List.cons_ne_nil _ _) h.2
      exact (pieces_append_comma h.1 _).trans (congrArg (raw :: ·) hrest)

theorem readWord_ok {text : String} {value : UInt64} (h : Number.read text.toList = .ok value) :
    readWord text = .ok value := by
  simp [readWord, h, Except.mapError]

theorem readSize_ok {text : String} {value : UInt64} (h : Size.read text = .ok value) :
    readSize text = .ok value := by
  simp [readSize, h, Except.mapError]

theorem readDuration_ok {text : String} {value : Duration} (h : Duration.read text = .ok value) :
    readDuration text = .ok value := by
  simp [readDuration, h, Except.mapError]

theorem readWords_intercalate {values : List UInt64} (hne : raws ≠ [])
    (h : List.Forall₂ (fun raw value => Number.read raw = .ok value) raws values) :
    readWords (String.ofList ([','].intercalate raws)) = .ok values := by
  have hcomma : ∀ raw ∈ raws, ',' ∉ raw := by
    clear hne
    induction h with
    | nil => exact List.forall_mem_nil _
    | cons hread _ ih => exact List.forall_mem_cons.2 ⟨comma_notMem_of_readNumber hread, ih⟩
  rw [readWords, String.toList_ofList, pieces_intercalate hne hcomma]
  clear hne hcomma
  induction h with
  | nil => rfl
  | cons hread _ ih =>
    rw [List.mapM_cons, readWord_ok (by rwa [String.toList_ofList]), Number.ok_bind, ih]
    rfl

end Settings
end Values

section Assigning
variable {e : Entry} {raw : String} {s a : Settings} {done all entries : List Entry}

namespace Entry

theorem HasText.unmarked (h : e.HasText raw) : Unmarked raw.toList := by
  cases h with
  | logInterval h => exact unmarked_of_readDuration h
  | micro => exact ⟨'m', ['i', 'c', 'r', 'o'], rfl, by decide⟩
  | mono => exact ⟨'m', ['o', 'n', 'o'], rfl, by decide⟩
  | waitMs h => exact unmarked_of_readNumber h
  | maxWaitMs h => exact unmarked_of_readNumber h
  | iterations hne h =>
    rw [String.toList_ofList]
    cases h with
    | nil => exact absurd rfl hne
    | @cons raw value raws values hread hrest =>
      have hraw := unmarked_of_readNumber hread
      cases raws with
      | nil => simpa using hraw
      | cons next raws =>
        rw [List.intercalate_cons_cons, List.append_assoc]
        exact hraw.append _
  | fillBytes h => exact unmarked_of_readSize h
  | bytes h => exact unmarked_of_readSize h
  | seconds h => exact unmarked_of_readNumber h

theorem HasText.takesValue (h : e.HasText raw) : e.key.takesValue = true := by
  cases h <;> rfl

/-- The settings once the entry is read. -/
def applied (s : Settings) : Entry → Settings
  | .logInterval value => { s with logInterval := some value }
  | .timer value => { s with timer := some value }
  | .serialize => { s with serialize := true }
  | .waitMs value => { s with waitMs := some value }
  | .maxWaitMs value => { s with maxWaitMs := some value }
  | .iterations values => { s with iterations := some (s.iterations.getD [] ++ values) }
  | .fillBytes value => { s with fillBytes := some value }
  | .bytes value => { s with bytes := some value }
  | .seconds value => { s with seconds := some value }

/-- The option can still be assigned. -/
def Free (s : Settings) (e : Entry) : Prop := e.key ≠ .iterations → s.assigned? e.key = none

end Entry

theorem Settings.once_none {α : Type} (value : α) : once none (.ok value) = .ok (some value) := rfl

theorem Settings.assign_hasText (h : e.HasText raw) (hfree : e.Free s) :
    s.assign e.key raw = .ok (e.applied s) := by
  cases h with
  | logInterval h =>
    have hnone : s.logInterval = none := Option.map_eq_none_iff.1 (hfree nofun)
    simp only [Entry.key, assign, hnone, readDuration_ok h, once_none]
    rfl
  | micro =>
    have hnone : s.timer = none := Option.map_eq_none_iff.1 (hfree nofun)
    simp only [Entry.key, assign, hnone, readTimer, once_none]
    rfl
  | mono =>
    have hnone : s.timer = none := Option.map_eq_none_iff.1 (hfree nofun)
    simp only [Entry.key, assign, hnone, readTimer, once_none]
    rfl
  | waitMs h =>
    have hnone : s.waitMs = none := Option.map_eq_none_iff.1 (hfree nofun)
    simp only [Entry.key, assign, hnone, readWord_ok h, once_none]
    rfl
  | maxWaitMs h =>
    have hnone : s.maxWaitMs = none := Option.map_eq_none_iff.1 (hfree nofun)
    simp only [Entry.key, assign, hnone, readWord_ok h, once_none]
    rfl
  | iterations hne h =>
    simp only [Entry.key, assign, readWords_intercalate hne h]
    rfl
  | fillBytes h =>
    have hnone : s.fillBytes = none := Option.map_eq_none_iff.1 (hfree nofun)
    simp only [Entry.key, assign, hnone, readSize_ok h, once_none]
    rfl
  | bytes h =>
    have hnone : s.bytes = none := Option.map_eq_none_iff.1 (hfree nofun)
    simp only [Entry.key, assign, hnone, readSize_ok h, once_none]
    rfl
  | seconds h =>
    have hnone : s.seconds = none := Option.map_eq_none_iff.1 (hfree nofun)
    simp only [Entry.key, assign, hnone, readWord_ok h, once_none]
    rfl

theorem Settings.raise_serialize (hfree : Entry.Free s .serialize) :
    s.raise .serialize = .ok (Entry.applied s .serialize) := by
  have hunset : s.serialize = false := by simpa [Entry.Free, Entry.key, assigned?] using hfree
  simp [raise, hunset, Entry.applied]

theorem Settings.assigned?_applied (s : Settings) (e : Entry) {key : Key} (hkey : key ≠ .iterations) :
    (e.applied s).assigned? key = if e.key = key then some e else s.assigned? key := by
  cases e <;> cases key <;> first | rfl | exact absurd rfl hkey

theorem joined_concat (parts : List (List UInt64)) (values : List UInt64) :
    joined (parts ++ [values]) = some ((joined parts).getD [] ++ values) := by
  cases parts <;> simp [joined]

theorem Settings.iterations_applied (s : Settings) (e : Entry) (parts : List (List UInt64))
    (h : s.iterations = joined parts) :
    (e.applied s).iterations = joined (parts ++ e.iterations?.toList) := by
  cases e with
  | iterations values => rw [Entry.iterations?, Option.toList_some, joined_concat, ← h]; rfl
  | _ => simpa [Entry.iterations?, Entry.applied] using h

theorem Settings.WrittenAs.applied (h : s.WrittenAs done) (hfree : e.Free s) :
    (e.applied s).WrittenAs (done ++ [e]) := by
  refine ⟨?_, ?_⟩
  · intro key hkey
    rw [assigned?_applied s e hkey, List.filter_append, h.single key hkey]
    by_cases he : e.key = key
    · subst he
      simp [hfree hkey]
    · simp [he]
  · have hone : [e].filterMap Entry.iterations? = e.iterations?.toList := by
      cases e <;> rfl
    rw [List.filterMap_append, hone]
    exact iterations_applied s e _ h.loops

/-- An option of which one entry is still to come has not been assigned. -/
theorem Settings.WrittenAs.free (ha : a.WrittenAs all) (hs : s.WrittenAs done)
    (hsub : (done ++ e :: entries).Sublist all) : e.Free s := by
  intro hkey
  have hfilter := hsub.filter (·.key = e.key)
  rw [List.filter_append, List.filter_cons_of_pos (by simp), hs.single _ hkey, ha.single _ hkey]
    at hfilter
  have hlength := hfilter.length_le
  have hall := (a.assigned? e.key).length_toList_le
  rw [List.length_append, List.length_cons] at hlength
  exact Option.toList_eq_nil_iff.1 (List.eq_nil_of_length_eq_zero (by omega))

end Assigning

section Scanning
variable {level : Level} {p p' : Progress} {s s' : Settings} {key : Key} {e : Entry}
  {text raw : String} {args : List String}

namespace Argument

theorem ofText_plain (h : Unmarked text.toList) : ofText text = .plain := by
  obtain ⟨c, cs, htext, hdash, -⟩ := h
  unfold ofText
  rw [htext]
  split <;> simp_all

theorem splitValue_joined {cs : List Char} (h : '=' ∉ cs) (value : List Char) :
    splitValue (cs ++ '=' :: value) = (String.ofList cs, some (String.ofList value)) := by
  have hall : ∀ c ∈ cs, decide (c ≠ '=') = true := by
    intro c hc
    exact decide_eq_true (ne_of_mem_of_not_mem hc h)
  rw [splitValue, List.takeWhile_append_of_pos hall, List.dropWhile_append_of_pos hall,
    List.takeWhile_cons_of_neg (by simp), List.dropWhile_cons_of_neg (by simp), List.append_nil]

theorem equals_notMem_long (key : Key) : '=' ∉ key.long.toList := by
  cases key <;> decide

theorem ofText_long (key : Key) : ofText ("--" ++ key.long) = .long key.long none := by
  cases key <;> rfl

theorem ofText_dashes {cs : List Char} {name : String} {value : Option String} (hne : cs ≠ [])
    (htext : text.toList = '-' :: '-' :: cs) (hsplit : splitValue cs = (name, value)) :
    ofText text = .long name value := by
  obtain ⟨c, cs, rfl⟩ := List.exists_cons_of_ne_nil hne
  unfold ofText
  rw [htext]
  simp only [hsplit]

theorem ofText_long_joined (key : Key) (raw : String) :
    ofText ("--" ++ key.long ++ "=" ++ raw) = .long key.long (some raw) := by
  have htext : ("--" ++ key.long ++ "=" ++ raw).toList =
      '-' :: '-' :: (key.long.toList ++ '=' :: raw.toList) := by
    simp [String.toList_append]
  have hsplit := splitValue_joined (equals_notMem_long key) raw.toList
  rw [String.ofList_toList, String.ofList_toList] at hsplit
  exact ofText_dashes (by simp) htext hsplit

theorem ofText_short {letter : Char} {cs : List Char} (hletter : letter ≠ '-')
    (h : text.toList = '-' :: letter :: cs) : ofText text = .short (letter :: cs) := by
  unfold ofText
  rw [h]
  split <;> simp_all

end Argument

/-- What has been read so far amounts to the settings, once the last value is assigned. -/
def Progress.Holds (p : Progress) (s : Settings) : Prop := p.settle = .ok { settings := s }

namespace Progress

theorem holds_settings (s : Settings) : Holds { settings := s } s := rfl

theorem holds_pending (h : s.assign key raw = .ok s') :
    Holds { settings := s, pending := some (key, some raw) } s' := by
  simp only [Holds, settle, h]
  rfl

theorem Holds.ready (h : p.Holds s) : p.escaped = false ∧ p.waits = false := by
  unfold Holds settle at h
  split at h
  next hpending =>
    cases h
    exact ⟨rfl, rfl⟩
  next => exact nomatch h
  next key raw hpending =>
    obtain ⟨s', -, hs'⟩ := Number.bind_eq_ok_iff.1 h
    exact ⟨congrArg Progress.escaped (Except.ok.inj hs'), by rw [waits, hpending]⟩

theorem Holds.expect (h : p.Holds s) (key : Key) :
    p.expect key = .ok { settings := s, pending := some (key, none) } := by
  rw [Progress.expect, h]
  rfl

theorem Holds.give (h : p.Holds s) (hassign : s.assign key raw = .ok s') :
    p.give key raw = .ok { settings := s' } := by
  rw [Progress.give, h, Number.ok_bind]
  simp only [hassign]
  rfl

theorem Holds.raise (h : p.Holds s) (hraise : s.raise key = .ok s') :
    p.raise key = .ok { settings := s' } := by
  rw [Progress.raise, h, Number.ok_bind]
  simp only [hraise]
  rfl

end Progress

/-- A level on which an option can be written. -/
structure Level.Offers (level : Level) (key : Key) : Prop where
  long : level.long? key.long = some key
  short : ∀ letter, key.short? = some letter → level.short? letter = some key
  undashed : ∀ text ∈ level.commands, text.toList.head? ≠ some '-'

namespace Level

theorem scan_long {name : String} {value : Option String} (hp : p.Holds s)
    (htext : text ∉ level.commands) (harg : Argument.ofText text = .long name value)
    (hread : level.readLong name value p = .ok p') (rest : List String) :
    level.scan (text :: rest) p = level.scan rest p' := by
  rw [scan]
  simp only [hp.ready, harg, hread, Bool.false_eq_true, if_false, List.contains_eq_mem, htext,
    decide_false, Bool.and_false]
  rfl

theorem scan_short {letters : List Char} (hp : p.Holds s)
    (htext : text ∉ level.commands) (harg : Argument.ofText text = .short letters)
    (hread : level.readShort letters p = .ok p') (rest : List String) :
    level.scan (text :: rest) p = level.scan rest p' := by
  rw [scan]
  simp only [hp.ready, harg, hread, Bool.false_eq_true, if_false, List.contains_eq_mem, htext,
    decide_false, Bool.and_false]
  rfl

theorem scan_value (htext : Unmarked text.toList) (s : Settings) (key : Key) (rest : List String) :
    level.scan (text :: rest) { settings := s, pending := some (key, none) } =
      level.scan rest { settings := s, pending := some (key, some text) } := by
  rw [scan]
  simp [Progress.waits, Argument.ofText_plain htext]

variable {letter : Char}

theorem readLong_joined (hkey : level.Offers e.key) (h : e.HasText raw) (hp : p.Holds s)
    (hfree : e.Free s) :
    level.readLong e.key.long (some raw) p = .ok { settings := e.applied s } := by
  rw [readLong, hkey.long]
  simp only [h.takesValue, if_true]
  exact hp.give (Settings.assign_hasText h hfree)

theorem readLong_apart (hkey : level.Offers e.key) (h : e.HasText raw) (hp : p.Holds s) :
    level.readLong e.key.long none p = .ok { settings := s, pending := some (e.key, none) } := by
  rw [readLong, hkey.long]
  simp only [h.takesValue, if_true]
  exact hp.expect e.key

theorem readShort_apart (hkey : level.Offers e.key) (hletter : e.key.short? = some letter)
    (h : e.HasText raw) (hp : p.Holds s) :
    level.readShort [letter] p = .ok { settings := s, pending := some (e.key, none) } := by
  rw [readShort, hkey.short letter hletter]
  simp only [h.takesValue, if_true]
  exact hp.expect e.key

theorem readShort_joined (hkey : level.Offers e.key) (hletter : e.key.short? = some letter)
    (h : e.HasText raw) (hp : p.Holds s) (hfree : e.Free s) :
    level.readShort (letter :: raw.toList) p = .ok { settings := e.applied s } := by
  obtain ⟨c, cs, hraw, -, hequals⟩ := h.unmarked
  have htext : String.ofList (c :: cs) = raw := by rw [← hraw, String.ofList_toList]
  rw [hraw, readShort, hkey.short letter hletter]
  simp only [h.takesValue, if_true]
  split
  next hnil => exact nomatch hnil
  next value hvalue => exact absurd (List.cons.inj hvalue).1 hequals
  next =>
    rw [htext]
    exact hp.give (Settings.assign_hasText h hfree)

theorem readShort_equal (hkey : level.Offers e.key) (hletter : e.key.short? = some letter)
    (h : e.HasText raw) (hp : p.Holds s) (hfree : e.Free s) :
    level.readShort (letter :: '=' :: raw.toList) p = .ok { settings := e.applied s } := by
  rw [readShort, hkey.short letter hletter]
  simp only [h.takesValue, if_true, String.ofList_toList]
  exact hp.give (Settings.assign_hasText h hfree)

theorem readLong_flag (hkey : level.Offers .serialize) (hp : p.Holds s)
    (hfree : Entry.Free s .serialize) :
    level.readLong "serialize" none p = .ok { settings := Entry.applied s .serialize } := by
  have hlong : level.long? "serialize" = some .serialize := hkey.long
  rw [readLong, hlong]
  exact hp.raise (Settings.raise_serialize hfree)

theorem readShort_flag (hkey : level.Offers .serialize) (hp : p.Holds s)
    (hfree : Entry.Free s .serialize) :
    level.readShort ['s'] p = .ok { settings := Entry.applied s .serialize } := by
  rw [readShort, hkey.short 's' rfl]
  simp only [Key.takesValue, Bool.false_eq_true, if_false, hp.raise (Settings.raise_serialize hfree)]
  rfl

theorem letter_ne_dash (hletter : key.short? = some letter) : letter ≠ '-' := by
  rintro rfl
  cases key <;> exact nomatch hletter

/-- One entry, however it is spelled, assigns its option. -/
theorem scan_entry (hkey : level.Offers e.key) (h : e.Spelled args) (hp : p.Holds s) (hfree : e.Free s) :
    ∃ p', p'.Holds (e.applied s) ∧ ∀ rest, level.scan (args ++ rest) p = level.scan rest p' := by
  have hcommand : ∀ text : String, text.toList.head? = some '-' → text ∉ level.commands :=
    fun text hdash hmem => hkey.undashed text hmem hdash
  cases h with
  | flagLetter =>
    have harg : Argument.ofText "-s" = .short ['s'] := rfl
    exact ⟨_, Progress.holds_settings _,
      scan_short hp (hcommand _ rfl) harg (readShort_flag hkey hp hfree)⟩
  | flagName =>
    exact ⟨_, Progress.holds_settings _,
      scan_long hp (hcommand _ rfl) (Argument.ofText_long .serialize) (readLong_flag hkey hp hfree)⟩
  | @nameApart _ raw h =>
    refine ⟨_, Progress.holds_pending (Settings.assign_hasText h hfree), ?_⟩
    intro rest
    have hopen := scan_long hp (hcommand _ (by simp [String.toList_append]))
      (Argument.ofText_long e.key) (readLong_apart hkey h hp) (raw :: rest)
    exact hopen.trans (scan_value h.unmarked s e.key rest)
  | @nameJoined _ raw h =>
    exact ⟨_, Progress.holds_settings _,
      scan_long hp (hcommand _ (by simp [String.toList_append])) (Argument.ofText_long_joined e.key raw)
        (readLong_joined hkey h hp hfree)⟩
  | @letterApart _ raw letter hletter h =>
    refine ⟨_, Progress.holds_pending (Settings.assign_hasText h hfree), ?_⟩
    intro rest
    have harg := Argument.ofText_short (letter_ne_dash hletter) (@String.toList_ofList ['-', letter])
    have hopen := scan_short hp (hcommand _ (by simp)) harg (readShort_apart hkey hletter h hp)
      (raw :: rest)
    exact hopen.trans (scan_value h.unmarked s e.key rest)
  | @letterJoined _ raw letter hletter h =>
    have htext : (String.ofList ['-', letter] ++ raw).toList = '-' :: letter :: raw.toList := by simp
    have harg := Argument.ofText_short (letter_ne_dash hletter) htext
    exact ⟨_, Progress.holds_settings _,
      scan_short hp (hcommand _ (by simp)) harg (readShort_joined hkey hletter h hp hfree)⟩
  | @letterEqual _ raw letter hletter h =>
    have htext : (String.ofList ['-', letter, '='] ++ raw).toList =
        '-' :: letter :: '=' :: raw.toList := by simp
    have harg := Argument.ofText_short (letter_ne_dash hletter) htext
    exact ⟨_, Progress.holds_settings _,
      scan_short hp (hcommand _ (by simp)) harg (readShort_equal hkey hletter h hp hfree)⟩

/-- The run over entries: each option is assigned the one time that it stands. -/
theorem scan_entries {entries all done : List Entry} {a : Settings} (ha : a.WrittenAs all)
    (h : Entry.SpelledAll entries args) (hkeys : ∀ e ∈ entries, level.Offers e.key) (hp : p.Holds s)
    (hs : s.WrittenAs done) (hsub : (done ++ entries).Sublist all) :
    ∃ p' s', p'.Holds s' ∧ s'.WrittenAs (done ++ entries) ∧
      ∀ rest, level.scan (args ++ rest) p = level.scan rest p' := by
  induction h generalizing p s done with
  | nil => exact ⟨p, s, hp, by rwa [List.append_nil], fun rest => rfl⟩
  | @cons e entries args next h hrest ih =>
    rw [List.forall_mem_cons] at hkeys
    have hfree := ha.free hs hsub
    obtain ⟨p₁, hp₁, hscan₁⟩ := scan_entry hkeys.1 h hp hfree
    rw [List.append_cons] at hsub ⊢
    obtain ⟨p₂, s₂, hp₂, hs₂, hscan₂⟩ := ih hkeys.2 hp₁ (hs.applied hfree) hsub
    refine ⟨p₂, s₂, hp₂, hs₂, ?_⟩
    intro rest
    rw [List.append_assoc, hscan₁, hscan₂]

theorem scan_command (hp : p.Holds s) (htext : text ∈ level.commands) (rest : List String) :
    level.scan (text :: rest) p = .ok (p, some (text, rest)) := by
  rw [scan]
  simp [hp.ready, htext]

theorem readLast_of_scan (hp : p.Holds s) (hscan : level.scan args {} = .ok (p, none)) :
    level.readLast args = .ok s := by
  simp only [readLast, hscan, Number.ok_bind]
  rw [hp]
  rfl

end Level
end Scanning

theorem outerLevel_offers : outerLevel.Offers .logInterval where
  long := rfl
  short := nofun
  undashed := by decide

theorem Name.level_offers {name : Name} {key : Key} (h : key ∈ name.keys) : name.level.Offers key where
  long := by
    revert key
    cases name <;> decide
  short := by
    intro letter hletter
    cases name <;> cases key <;> cases hletter <;> first | rfl | exact absurd h (by decide)
  undashed := nofun

theorem Name.ofText?_text (name : Name) : ofText? name.text = some name := by
  cases name <;> rfl

theorem Name.text_mem_commands (name : Name) : name.text ∈ outerLevel.commands := by
  cases name <;> decide

section Agreement
variable {name : Name} {before after : List Entry} {s a front : Settings} {command : Command}

theorem Settings.writtenAs_nil : Settings.WrittenAs {} [] where
  single key _ := by cases key <;> rfl
  loops := rfl

/-- In front of the command only the log interval can be set, so the entries behind it decide the
rest. -/
theorem Settings.WrittenAs.eq_of_shared (ha : a.WrittenAs (before ++ after))
    (hshared : ∀ e ∈ before, e.key = .logInterval) (hs : s.WrittenAs after) :
    s = { a with logInterval := s.logInterval, shell := s.shell } := by
  have hentry : ∀ key, key ≠ .logInterval → key ≠ .iterations → s.assigned? key = a.assigned? key := by
    intro key hlog hloops
    have hbefore : before.filter (·.key = key) = [] := by
      rw [List.filter_eq_nil_iff]
      intro e he
      simpa [hshared e he] using hlog.symm
    have h := ha.single key hloops
    rw [List.filter_append, hbefore, List.nil_append, hs.single key hloops] at h
    simpa using congrArg List.head? h
  have hloops : s.iterations = a.iterations := by
    have hbefore : before.filterMap Entry.iterations? = [] := by
      rw [List.filterMap_eq_nil_iff]
      intro e he
      have hkey := hshared e he
      cases e <;> first | rfl | exact nomatch hkey
    rw [hs.loops, ha.loops, List.filterMap_append, hbefore, List.nil_append]
  have htimer : s.timer = a.timer :=
    Option.map_injective (fun _ _ => Entry.timer.inj) (hentry .timer nofun nofun)
  have hwait : s.waitMs = a.waitMs :=
    Option.map_injective (fun _ _ => Entry.waitMs.inj) (hentry .waitMs nofun nofun)
  have hmaxWait : s.maxWaitMs = a.maxWaitMs :=
    Option.map_injective (fun _ _ => Entry.maxWaitMs.inj) (hentry .maxWaitMs nofun nofun)
  have hfill : s.fillBytes = a.fillBytes :=
    Option.map_injective (fun _ _ => Entry.fillBytes.inj) (hentry .fillBytes nofun nofun)
  have hbytes : s.bytes = a.bytes :=
    Option.map_injective (fun _ _ => Entry.bytes.inj) (hentry .bytes nofun nofun)
  have hseconds : s.seconds = a.seconds :=
    Option.map_injective (fun _ _ => Entry.seconds.inj) (hentry .seconds nofun nofun)
  have hserialize : s.serialize = a.serialize := by
    have h := hentry .serialize nofun nofun
    simp only [assigned?] at h
    cases hx : s.serialize <;> cases hy : a.serialize <;> simp_all
  rw [← htimer, ← hserialize, ← hwait, ← hmaxWait, ← hloops, ← hfill, ← hbytes, ← hseconds]

theorem Settings.WrittenAs.logInterval_or (ha : a.WrittenAs (before ++ after))
    (hfront : front.WrittenAs before) (hs : s.WrittenAs after) :
    s.logInterval.or front.logInterval = a.logInterval := by
  have h := ha.single .logInterval (by decide)
  rw [List.filter_append, hfront.single _ (by decide), hs.single _ (by decide)] at h
  simp only [assigned?] at h
  cases hx : front.logInterval <;> cases hy : s.logInterval <;> cases hz : a.logInterval <;> simp_all

theorem Name.command_of_configured (h : name.configured? s = some command) :
    name.command s = .ok command := by
  cases name <;> cases h <;> rfl

theorem Name.configured?_of_shared (name : Name) (a : Settings) (logInterval : Option Duration)
    (shell : Option Shell) :
    name.configured? { a with logInterval, shell } = name.configured? a := by
  cases name <;> rfl

/-- A configuration is read back from every line on which it is written: each option that is set stands
once and in any of its spellings, at any place behind the command, and the log interval also in front of
it. The loops may be split over several uses of their option. -/
theorem readLine_written {first last : List String} (hfirst : Entry.SpelledAll before first)
    (hlast : Entry.SpelledAll after last) (hshared : ∀ e ∈ before, e.key = .logInterval)
    (hkeys : ∀ e ∈ after, e.key ∈ name.keys) (ha : a.WrittenAs (before ++ after))
    (hcommand : name.configured? a = some command) :
    readLine (first ++ name.text :: last) = .ok ⟨command, a.logInterval⟩ := by
  have houter : ∀ e ∈ before, outerLevel.Offers e.key := by
    intro e he
    rw [hshared e he]
    exact outerLevel_offers
  obtain ⟨p, front, hp, hfront, hscan⟩ := Level.scan_entries ha hfirst houter
    (Progress.holds_settings {}) Settings.writtenAs_nil (List.sublist_append_left before after)
  have hinside : ∀ e ∈ after, name.level.Offers e.key := fun e he => Name.level_offers (hkeys e he)
  obtain ⟨q, s, hq, hs, hscan'⟩ := Level.scan_entries ha hlast hinside
    (Progress.holds_settings {}) Settings.writtenAs_nil (List.sublist_append_right before after)
  rw [List.nil_append] at hfront hs
  have hinner : name.level.readLast last = .ok s := by
    apply Level.readLast_of_scan hq
    have h := hscan' []
    rwa [List.append_nil] at h
  have hread : name.command s = .ok command := by
    apply Name.command_of_configured
    rw [ha.eq_of_shared hshared hs, Name.configured?_of_shared, hcommand]
  unfold readLine
  rw [hscan, Level.scan_command hp name.text_mem_commands, Number.ok_bind]
  simp only [Name.ofText?_text, hinner, hread, Number.ok_bind]
  rw [hp, Number.ok_bind, ha.logInterval_or hfront hs]
  rfl

theorem readLine_written_profile :
    readLine ["--log-interval=1m", "profile", "-i", "1,2", "-s", "--timer=mono", "-w5", "--iterations",
      "3", "-b=4k"] =
      .ok ⟨.profile ⟨.mono, true⟩ ⟨5, 10000⟩ [1, 2, 3] (some 4000),
        some ⟨60000000000, by decide⟩⟩ := by
  have hfirst : Entry.SpelledAll [.logInterval ⟨60000000000, by decide⟩] ["--log-interval=1m"] :=
    .cons (@Entry.Spelled.nameJoined _ "1m" (.logInterval (by decide +kernel))) .nil
  have hlast : Entry.SpelledAll
      [.iterations [1, 2], .serialize, .timer .mono, .waitMs 5, .iterations [3], .fillBytes 4000]
      ["-i", "1,2", "-s", "--timer=mono", "-w5", "--iterations", "3", "-b=4k"] :=
    .cons (@Entry.Spelled.letterApart _ "1,2" 'i' rfl
        (@Entry.HasText.iterations [['1'], ['2']] _ (by decide) (.cons rfl (.cons rfl .nil)))) <|
      .cons .flagLetter <|
      .cons (@Entry.Spelled.nameJoined _ "mono" .mono) <|
      .cons (@Entry.Spelled.letterJoined _ "5" 'w' rfl (.waitMs rfl)) <|
      .cons (@Entry.Spelled.nameApart _ "3"
        (@Entry.HasText.iterations [['3']] _ (by decide) (.cons rfl .nil))) <|
      .cons (@Entry.Spelled.letterEqual _ "4k" 'b' rfl (.fillBytes (by decide +kernel))) .nil
  have ha : Settings.WrittenAs
      { logInterval := some ⟨60000000000, by decide⟩, timer := some .mono, serialize := true,
        waitMs := some 5, iterations := some [1, 2, 3], fillBytes := some 4000 }
      ([.logInterval ⟨60000000000, by decide⟩] ++
        [.iterations [1, 2], .serialize, .timer .mono, .waitMs 5, .iterations [3], .fillBytes 4000]) :=
    ⟨fun key hkey => by cases key <;> first | rfl | exact absurd rfl hkey, rfl⟩
  exact @readLine_written .profile _ _ _ _ _ _ hfirst hlast (by simp [Entry.key])
    (by simp [Entry.key, Name.keys]) ha rfl

end Agreement

end Chronometry.Command
