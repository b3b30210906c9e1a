import Chronometry.Profile
import Mathlib.Algebra.Ring.Nat
import Mathlib.Data.List.Induction

/-! The begins and ends that a profiler has been through, and what it remembers of them. -/
namespace Chronometry

theorem Word.clamp_add_toNat (n : Nat) (w : UInt64) : clamp (n + w.toNat) = add (clamp n) w := by
  apply UInt64.toNat_inj.1
  simp only [toNat_clamp, toNat_add]
  omega

inductive Event where
  /-- A begin. Its reading is absent if the counter could not be read, the number of its token if no
  token was handed out. -/
  | begun (token : Option Nat) (name : String) (bytes : UInt64) (reading : Option UInt64)
  /-- An end, under the name and with the bytes of its begin. -/
  | ended (name : String) (bytes ticks reading : UInt64)
deriving DecidableEq

abbrev History := List Event

namespace History

/-- The names of the begins in order. -/
def begins (h : History) : List String := h.filterMap fun
  | .begun _ name _ _ => some name
  | .ended .. => none

/-- Every name once, in the order of first begins. -/
def names (h : History) : List String := h.begins.eraseDups

def firstBegin? (h : History) : Option UInt64 := h.findSome? fun
  | .begun _ _ _ reading => reading
  | .ended .. => none

def endReadings (h : History) : List Nat := h.filterMap fun
  | .begun .. => none
  | .ended _ _ _ reading => some reading.toNat

def lastEnd? (h : History) : Option Nat := h.endReadings.max?

/-- Ticks and bytes of the ends under a name. -/
def endsOf (h : History) (name : String) : List (UInt64 × UInt64) := h.filterMap fun
  | .begun .. => none
  | .ended n bytes ticks _ => if n = name then some (ticks, bytes) else none

def ticksOf (h : History) (name : String) : Nat := ((h.endsOf name).map (·.1.toNat)).sum

def bytesOf (h : History) (name : String) : Nat := ((h.endsOf name).map (·.2.toNat)).sum

/-- The section of a name, its sums cut at the largest word. -/
def sectionOf (h : History) (name : String) : Section :=
  ⟨name, ⟨Word.clamp (h.ticksOf name)⟩, .ofNat (h.endsOf name).length, Word.clamp (h.bytesOf name)⟩

theorem eraseDups_concat (xs : List String) (x : String) :
    (xs ++ [x]).eraseDups = if x ∈ xs then xs.eraseDups else xs.eraseDups ++ [x] := by
  rw [List.eraseDups_append]
  by_cases hx : x ∈ xs
  · simp [List.removeAll, hx]
  · simp [List.removeAll, hx, List.eraseDups_cons]

theorem eraseDups_order (xs : List String) :
    xs.eraseDups.Pairwise fun x y => xs.idxOf x < xs.idxOf y := by
  induction xs using List.reverseRecOn with
  | nil => exact List.Pairwise.nil
  | append_singleton xs a ih =>
    -- A name that is new comes after all others; the places of the others stay.
    have hold : xs.eraseDups.Pairwise fun x y => (xs ++ [a]).idxOf x < (xs ++ [a]).idxOf y := by
      apply ih.imp_of_mem
      intro x y hx hy hxy
      rw [List.mem_eraseDups] at hx hy
      rwa [List.idxOf_append, List.idxOf_append, if_pos hx, if_pos hy]
    rw [eraseDups_concat]
    by_cases ha : a ∈ xs
    · rwa [if_pos ha]
    · rw [if_neg ha, List.pairwise_append]
      refine ⟨hold, List.pairwise_singleton _ _, ?_⟩
      intro x hx y hy
      rw [List.mem_eraseDups] at hx
      rw [List.mem_singleton.1 hy, List.idxOf_append, List.idxOf_append, if_pos hx, if_neg ha]
      have := List.idxOf_lt_length_of_mem hx
      omega

theorem endsOf_cons (name : String) (bytes ticks reading : UInt64) (h : History) (x : String) :
    endsOf (.ended name bytes ticks reading :: h) x =
      if name = x then (ticks, bytes) :: h.endsOf x else h.endsOf x := by
  by_cases hx : name = x <;> simp [endsOf, hx]

theorem length_endsOf_le (h : History) (name : String) :
    (h.endsOf name).length ≤ h.endReadings.length := by
  induction h with
  | nil => exact Nat.le_refl 0
  | cons e h ih =>
    cases e with
    | begun => exact ih
    | ended x bytes ticks reading =>
      have hreadings : endReadings (.ended x bytes ticks reading :: h) =
          reading.toNat :: endReadings h := rfl
      rw [endsOf_cons, hreadings, List.length_cons]
      split
      · rw [List.length_cons]
        omega
      · omega

theorem nodup_names (h : History) : h.names.Nodup := by
  apply (eraseDups_order h.begins).imp
  intro x y hxy hne
  rw [hne] at hxy
  omega

section Begun
variable (h : History) (token : Option Nat) (name : String) (bytes : UInt64) (reading : Option UInt64)

theorem names_begun : names (h ++ [.begun token name bytes reading]) =
    if name ∈ h.names then h.names else h.names ++ [name] := by
  have hb : begins (h ++ [.begun token name bytes reading]) = h.begins ++ [name] := by
    simp [begins]
  rw [names, hb, eraseDups_concat]
  simp only [names, List.mem_eraseDups]

theorem endsOf_begun (x : String) :
    endsOf (h ++ [.begun token name bytes reading]) x = h.endsOf x := by
  simp [endsOf]

theorem sectionOf_begun : sectionOf (h ++ [.begun token name bytes reading]) = h.sectionOf := by
  funext x
  simp only [sectionOf, ticksOf, bytesOf, endsOf_begun]

theorem firstBegin?_begun :
    firstBegin? (h ++ [.begun token name bytes reading]) = h.firstBegin?.or reading := by
  simp [firstBegin?]

theorem lastEnd?_begun : lastEnd? (h ++ [.begun token name bytes reading]) = h.lastEnd? := by
  simp [lastEnd?, endReadings]

end Begun

section Ended
variable (h : History) (name : String) (bytes ticks reading : UInt64)

theorem names_ended : names (h ++ [.ended name bytes ticks reading]) = h.names := by
  simp [names, begins]

theorem endsOf_ended (x : String) : endsOf (h ++ [.ended name bytes ticks reading]) x =
    h.endsOf x ++ if name = x then [(ticks, bytes)] else [] := by
  by_cases hx : name = x <;> simp [endsOf, hx]

/-- An end adds one pass to the section of its name and leaves the others alone. -/
theorem sectionOf_ended (x : String) : sectionOf (h ++ [.ended name bytes ticks reading]) x =
    if name = x then Profiler.hit (h.sectionOf x) ⟨ticks⟩ bytes else h.sectionOf x := by
  by_cases hx : name = x
  · rw [if_pos hx]
    have hends : endsOf (h ++ [.ended name bytes ticks reading]) x = h.endsOf x ++ [(ticks, bytes)] := by
      rw [endsOf_ended, if_pos hx]
    simp only [sectionOf, ticksOf, bytesOf, hends, Profiler.hit, List.map_append, List.map_singleton,
      List.sum_append_nat, List.sum_singleton, Word.clamp_add_toNat, List.length_append,
      List.length_singleton, UInt64.ofNat_add]
    rfl
  · rw [if_neg hx]
    have hends : endsOf (h ++ [.ended name bytes ticks reading]) x = h.endsOf x := by
      rw [endsOf_ended, if_neg hx, List.append_nil]
    simp only [sectionOf, ticksOf, bytesOf, hends]

theorem firstBegin?_ended :
    firstBegin? (h ++ [.ended name bytes ticks reading]) = h.firstBegin? := by
  simp [firstBegin?]

theorem lastEnd?_ended : lastEnd? (h ++ [.ended name bytes ticks reading]) =
    some (match h.lastEnd? with
      | none => reading.toNat
      | some last => max last reading.toNat) := by
  have hr : endReadings (h ++ [.ended name bytes ticks reading]) =
      h.endReadings ++ [reading.toNat] := by
    simp [endReadings]
  rw [lastEnd?, lastEnd?, hr]
  cases h.endReadings with
  | nil => rfl
  | cons x xs =>
    rw [List.cons_append, List.max?_cons', List.max?_cons', List.foldl_append]
    rfl

end Ended

end History

/-- A profiler remembers a history: one section for each name, the reading of the first begin, and the
greatest reading of an end. No name has ended without having begun. -/
structure Profiler.Records (p : Profiler) (h : History) : Prop where
  sections : p.sections = h.names.map h.sectionOf
  first : p.first = h.firstBegin?.map Stamp.mk
  last : p.last.map (·.reading.toNat) = h.lastEnd?
  ends : ∀ name, name ∉ h.names → h.endsOf name = []

namespace Profiler

theorem indexOf_eq_idxOf (p : Profiler) (name : String) :
    p.indexOf name = (p.sections.map (·.name)).idxOf name := by
  rw [indexOf, List.idxOf, List.findIdx_map]
  rfl

theorem first_declare (p : Profiler) (name : String) : (p.declare name).first = p.first := by
  unfold declare
  split <;> rfl

theorem last_declare (p : Profiler) (name : String) : (p.declare name).last = p.last := by
  unfold declare
  split <;> rfl

theorem leave_snd (p : Profiler) (t : Token) (stop : Stamp) : (p.leave t stop).2 = stop.since t.start := by
  unfold leave
  dsimp only
  split <;> rfl

namespace Records
variable {p : Profiler} {h : History}

theorem new (frequency : UInt64) : (Profiler.new frequency).Records [] :=
  ⟨rfl, rfl, rfl, fun _ _ => rfl⟩

theorem map_name (hp : p.Records h) : p.sections.map (·.name) = h.names := by
  rw [hp.sections, List.map_map]
  exact List.map_id h.names

theorem indexOf_eq (hp : p.Records h) (name : String) : p.indexOf name = h.names.idxOf name := by
  rw [indexOf_eq_idxOf, hp.map_name]

theorem length_sections (hp : p.Records h) : p.sections.length = h.names.length := by
  rw [hp.sections, List.length_map]

theorem sections_declare (hp : p.Records h) (token : Option Nat) (name : String) (bytes : UInt64)
    (reading : Option UInt64) :
    let h' := h ++ [.begun token name bytes reading]
    (p.declare name).sections = (History.names h').map (History.sectionOf h') := by
  intro h'
  rw [History.names_begun, History.sectionOf_begun, declare, hp.indexOf_eq, hp.length_sections]
  by_cases hn : name ∈ h.names
  · rw [if_pos (List.idxOf_lt_length_of_mem hn), if_pos hn]
    exact hp.sections
  · rw [if_neg (by rw [List.idxOf_eq_length hn]; omega), if_neg hn, List.map_append, ← hp.sections]
    have hempty : h.sectionOf name = ⟨name, ⟨0⟩, 0, 0⟩ := by
      rw [History.sectionOf, History.ticksOf, History.bytesOf, hp.ends name hn]
      rfl
    rw [List.map_singleton, hempty]

theorem ends_begun (hp : p.Records h) (token : Option Nat) (name : String) (bytes : UInt64)
    (reading : Option UInt64) (x : String)
    (hx : x ∉ History.names (h ++ [.begun token name bytes reading])) :
    History.endsOf (h ++ [.begun token name bytes reading]) x = [] := by
  rw [History.endsOf_begun]
  apply hp.ends
  intro hmem
  rw [History.names_begun] at hx
  split at hx
  · exact hx hmem
  · exact hx (List.mem_append_left _ hmem)

/-- A begin without a reading leaves a section behind. -/
theorem declare (hp : p.Records h) (name : String) (bytes : UInt64) :
    (p.declare name).Records (h ++ [.begun none name bytes none]) where
  sections := hp.sections_declare none name bytes none
  first := by rw [first_declare, hp.first, History.firstBegin?_begun, Option.or_none]
  last := by rw [last_declare, hp.last, History.lastEnd?_begun]
  ends := hp.ends_begun none name bytes none

theorem enter (hp : p.Records h) (token : Option Nat) (name : String) (bytes reading : UInt64) :
    (p.enter name bytes ⟨reading⟩).1.Records (h ++ [.begun token name bytes (some reading)]) where
  sections := hp.sections_declare token name bytes (some reading)
  first := by
    change (p.declare name).first.or _ = _
    rw [first_declare, hp.first, History.firstBegin?_begun]
    cases h.firstBegin? <;> rfl
  last := by
    change (p.declare name).last.map _ = _
    rw [last_declare, hp.last, History.lastEnd?_begun]
  ends := hp.ends_begun token name bytes (some reading)

theorem token_enter (hp : p.Records h) (token : Option Nat) (name : String) (bytes reading : UInt64) :
    (p.enter name bytes ⟨reading⟩).2 =
      ⟨(History.names (h ++ [.begun token name bytes (some reading)])).idxOf name, ⟨reading⟩, bytes⟩ := by
  rw [← (hp.enter token name bytes reading).indexOf_eq name]
  rfl

theorem leave (hp : p.Records h) {t : Token} {name : String} (hname : name ∈ h.names)
    (ht : t.index = h.names.idxOf name) (reading : UInt64) :
    (p.leave t ⟨reading⟩).1.Records
      (h ++ [.ended name t.bytes (p.leave t ⟨reading⟩).2.count reading]) := by
  have howns : p.owns t = true := by
    rw [owns, hp.length_sections, ht]
    exact decide_eq_true (List.idxOf_lt_length_of_mem hname)
  rw [Profiler.leave, if_pos howns]
  refine ⟨?_, ?_, ?_, ?_⟩
  · dsimp only
    rw [hp.sections, ht, History.names_ended]
    apply List.ext_getElem?
    intro j
    rw [List.getElem?_modify, List.getElem?_map, List.getElem?_map]
    cases hj : h.names[j]? with
    | none => rfl
    | some x =>
      -- Names are distinct, so the place of the token is the place of its name.
      have hplace : h.names.idxOf name = j ↔ name = x := by
        obtain ⟨hlt, hx⟩ := List.getElem?_eq_some_iff.1 hj
        constructor
        · intro he
          subst he
          rw [← hx, List.getElem_idxOf hlt]
        · intro he
          rw [he, ← hx]
          exact h.nodup_names.idxOf_getElem j hlt
      simp only [Option.map_some, Option.map_eq_map, History.sectionOf_ended, hplace]
  · rw [History.firstBegin?_ended]; exact hp.first
  · rw [History.lastEnd?_ended, ← hp.last]
    cases p.last with
    | none => rfl
    | some last =>
      simp only [laterOf, Option.map_some]
      split
      · rename_i hlt
        have := UInt64.lt_iff_toNat_lt.1 hlt
        rw [Nat.max_eq_right (by omega)]
      · rename_i hge
        have := UInt64.le_iff_toNat_le.1 (UInt64.not_lt.1 hge)
        rw [Nat.max_eq_left (by omega)]
  · intro x hx
    rw [History.names_ended] at hx
    have hne : name ≠ x := by
      intro he
      exact hx (he ▸ hname)
    rw [History.endsOf_ended, if_neg hne, List.append_nil]
    exact hp.ends x hx

theorem toNat_total (hp : p.Records h) : p.total.count.toNat = match h.lastEnd?, h.firstBegin? with
    | some last, some first => last - first.toNat
    | _, _ => 0 := by
  rw [← hp.last, total, hp.first]
  cases h.firstBegin? with
  | none => cases p.last <;> rfl
  | some first =>
    cases p.last with
    | none => rfl
    | some last => exact Word.toNat_sub last.reading first

end Records

end Profiler

end Chronometry
