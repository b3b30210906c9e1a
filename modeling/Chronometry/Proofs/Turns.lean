import Chronometry.Proofs.History
import Mathlib.Algebra.Order.BigOperators.Group.List
import Mathlib.Algebra.Order.Group.Nat
import Mathlib.Data.List.Pairwise

/-! Histories in which one section follows another. The ticks of the sections and the gaps between them
make up the time from the first begin to the last end. -/
namespace Chronometry

namespace History

def beginReadings (h : History) : List Nat := h.filterMap fun
  | .begun _ _ _ reading => reading.map (·.toNat)
  | .ended .. => none

def readings (h : History) : List Nat := h.filterMap fun
  | .begun _ _ _ reading => reading.map (·.toNat)
  | .ended _ _ _ reading => some reading.toNat

def ticks (h : History) : List Nat := h.filterMap fun
  | .begun .. => none
  | .ended _ _ ticks _ => some ticks.toNat

/-- For sections in turn, the readings at the begin and at the end of each; a section that is still open
has no end and is left out. -/
def passes (h : History) : List (Nat × Nat) := h.beginReadings.zip h.endReadings

/-- From the end of each pass to the begin of the next. -/
def gapsBetween : List (Nat × Nat) → List Nat
  | x :: y :: rest => (y.1 - x.2) :: gapsBetween (y :: rest)
  | _ => []

def gaps (h : History) : List Nat := gapsBetween h.passes

/-- Passes without overlap and the gaps between them fill the time from the first begin to the last end. -/
theorem sum_passes_add_sum_gaps (x : Nat × Nat) (rest : List (Nat × Nat))
    (h : ((x :: rest).flatMap fun x => [x.1, x.2]).Pairwise (· ≤ ·)) :
    ((x :: rest).map fun x => x.2 - x.1).sum + (gapsBetween (x :: rest)).sum + x.1 =
      ((x :: rest).getLast (List.cons_ne_nil _ _)).2 := by
  induction rest generalizing x with
  | nil =>
    have hx : x.1 ≤ x.2 := by simpa using h
    simp only [List.map_cons, List.map_nil, List.sum_cons, List.sum_nil, gapsBetween,
      List.getLast_singleton]
    omega
  | cons y rest ih =>
    simp only [List.flatMap_cons, List.cons_append, List.nil_append, List.pairwise_cons,
      List.mem_cons] at h
    obtain ⟨hx, hxy, htail⟩ := h
    have hsum := ih y (by simpa [List.pairwise_cons] using htail)
    have hbegin : x.1 ≤ x.2 := hx _ (.inl rfl)
    have hgap : x.2 ≤ y.1 := hxy _ (.inl rfl)
    simp only [List.map_cons, List.sum_cons, gapsBetween, List.getLast_cons_cons] at hsum ⊢
    omega

/-- A history of sections in turn, all of them ended, with the readings of each pass: every end comes
right after the begin of its own section, and its ticks are those since that begin. A begin that got no
reading starts nothing. -/
inductive Closed : History → List (Nat × Nat) → Prop
  | nil : Closed [] []
  | missed {h : History} {ps : List (Nat × Nat)} (name : String) (bytes : UInt64) :
    Closed h ps → Closed (h ++ [.begun none name bytes none]) ps
  | passed {h : History} {ps : List (Nat × Nat)} (token : Option Nat) (name : String)
    (bytes start stop : UInt64) : Closed h ps →
      Closed (h ++ [.begun token name bytes (some start),
        .ended name bytes (Stamp.since ⟨stop⟩ ⟨start⟩).count stop]) (ps ++ [(start.toNat, stop.toNat)])

/-- Sections in turn, of which the last may be open. -/
def InTurn (h : History) (ps : List (Nat × Nat)) : Prop :=
  h.Closed ps ∨ ∃ (g : History) (token : Option Nat) (name : String) (bytes start : UInt64),
    g.Closed ps ∧ h = g ++ [.begun token name bytes (some start)]

namespace Closed
variable {h : History} {ps : List (Nat × Nat)}

theorem beginReadings_eq (hc : h.Closed ps) : h.beginReadings = ps.map (·.1) := by
  induction hc with
  | nil => rfl
  | missed name bytes _ ih => simpa [beginReadings] using ih
  | passed token name bytes start stop _ ih => simpa [beginReadings] using ih

theorem endReadings_eq (hc : h.Closed ps) : h.endReadings = ps.map (·.2) := by
  induction hc with
  | nil => rfl
  | missed name bytes _ ih => simpa [endReadings] using ih
  | passed token name bytes start stop _ ih => simpa [endReadings] using ih

theorem readings_eq (hc : h.Closed ps) : h.readings = ps.flatMap fun x => [x.1, x.2] := by
  induction hc with
  | nil => rfl
  | missed name bytes _ ih => simpa [readings] using ih
  | passed token name bytes start stop _ ih => simpa [readings] using ih

theorem ticks_eq (hc : h.Closed ps) : h.ticks = ps.map fun x => x.2 - x.1 := by
  induction hc with
  | nil => rfl
  | missed name bytes _ ih => simpa [ticks] using ih
  | passed token name bytes start stop _ ih => simpa [ticks, Stamp.since] using ih

end Closed

theorem head?_beginReadings (h : History) : h.beginReadings.head? = h.firstBegin?.map (·.toNat) := by
  induction h with
  | nil => rfl
  | cons e h ih =>
    cases e with
    | begun token name bytes reading =>
      cases reading with
      | none => simpa [beginReadings, firstBegin?] using ih
      | some r => simp [beginReadings, firstBegin?]
    | ended name bytes ticks reading => simpa [beginReadings, firstBegin?] using ih

theorem ends_sublist (ps : List (Nat × Nat)) :
    (ps.map (·.2)).Sublist (ps.flatMap fun x => [x.1, x.2]) := by
  induction ps with
  | nil => exact List.Sublist.slnil
  | cons x ps ih => exact .cons _ (.cons_cons _ ih)

theorem zip_map_append (ps : List (Nat × Nat)) (l : List Nat) :
    (ps.map (·.1) ++ l).zip (ps.map (·.2)) = ps := by
  induction ps with
  | nil => simp
  | cons x ps ih => simp [ih]

theorem ticksOf_cons (name : String) (bytes ticks reading : UInt64) (h : History) (x : String) :
    ticksOf (.ended name bytes ticks reading :: h) x =
      (if x = name then ticks.toNat else 0) + h.ticksOf x := by
  rw [ticksOf, endsOf_cons]
  by_cases hx : name = x
  · simp [hx, ticksOf]
  · simp [hx, Ne.symm hx, ticksOf]

theorem sum_map_ticksOf (h : History) {names : List String} (hnodup : names.Nodup)
    (hends : ∀ name, name ∉ names → h.endsOf name = []) : (names.map h.ticksOf).sum = h.ticks.sum := by
  induction h with
  | nil =>
    have hzero : ticksOf [] = fun _ => 0 := rfl
    simp [hzero, ticks]
  | cons e h ih =>
    cases e with
    | begun token name bytes reading => exact ih hends
    | ended name bytes ticks reading =>
      have hname : name ∈ names := by
        by_contra hmem
        have := hends name hmem
        simp [endsOf_cons] at this
      have hrest : ∀ x, x ∉ names → endsOf h x = [] := by
        intro x hx
        have hne : name ≠ x := fun he => hx (he ▸ hname)
        simpa [endsOf_cons, hne] using hends x hx
      have hone : (names.map fun x => if x = name then ticks.toNat else 0).sum = ticks.toNat := by
        rw [List.sum_map_eq_nsmul_single name _ fun x hx _ => if_neg hx, hnodup.count, if_pos hname]
        simp
      have hsplit : ticksOf (.ended name bytes ticks reading :: h) =
          fun x => (if x = name then ticks.toNat else 0) + ticksOf h x := by
        funext x
        exact ticksOf_cons name bytes ticks reading h x
      rw [hsplit, List.sum_map_add, hone, ih hrest]
      rfl

namespace InTurn
variable {h : History} {ps : List (Nat × Nat)}

theorem endReadings_eq (ht : h.InTurn ps) : h.endReadings = ps.map (·.2) := by
  rcases ht with hc | ⟨g, token, name, bytes, start, hc, rfl⟩
  · exact hc.endReadings_eq
  · rw [← hc.endReadings_eq]
    simp [endReadings]

theorem ticks_eq (ht : h.InTurn ps) : h.ticks = ps.map fun x => x.2 - x.1 := by
  rcases ht with hc | ⟨g, token, name, bytes, start, hc, rfl⟩
  · exact hc.ticks_eq
  · rw [← hc.ticks_eq]
    simp [ticks]

/-- The begin of an open section is all that comes after the passes. -/
theorem exists_open (ht : h.InTurn ps) : ∃ l, h.beginReadings = ps.map (·.1) ++ l ∧
    h.readings = (ps.flatMap fun x => [x.1, x.2]) ++ l := by
  rcases ht with hc | ⟨g, token, name, bytes, start, hc, rfl⟩
  · exact ⟨[], by simpa using hc.beginReadings_eq, by simpa using hc.readings_eq⟩
  · refine ⟨[start.toNat], ?_, ?_⟩
    · rw [← hc.beginReadings_eq]
      simp [beginReadings]
    · rw [← hc.readings_eq]
      simp [readings]

theorem passes_eq (ht : h.InTurn ps) : h.passes = ps := by
  obtain ⟨l, hbegins, -⟩ := ht.exists_open
  rw [passes, hbegins, ht.endReadings_eq, zip_map_append]

/-- The ticks of all ends and the gaps between the sections make up the total. -/
theorem sum_ticks_add_sum_gaps (ht : h.InTurn ps) {p : Profiler} (hp : p.Records h)
    (hmono : h.readings.Pairwise (· ≤ ·)) : h.ticks.sum + h.gaps.sum = p.total.count.toNat := by
  obtain ⟨l, hbegins, hreadings⟩ := ht.exists_open
  rw [hp.toNat_total, ht.ticks_eq, gaps, ht.passes_eq, lastEnd?, ht.endReadings_eq]
  cases ps with
  | nil => simp [gapsBetween]
  | cons x rest =>
    rw [hreadings, List.pairwise_append] at hmono
    have hspan := sum_passes_add_sum_gaps x rest hmono.1
    have hfirst : h.firstBegin?.map (·.toNat) = some x.1 := by
      rw [← head?_beginReadings, hbegins]
      rfl
    obtain ⟨first, hfirst, hx⟩ := Option.map_eq_some_iff.1 hfirst
    have hlast : ((x :: rest).map (·.2)).max? = some ((x :: rest).getLast (List.cons_ne_nil _ _)).2 := by
      rw [List.max?_eq_some_iff]
      refine ⟨List.mem_map_of_mem (List.getLast_mem _), fun e he => ?_⟩
      have hends := (hmono.1.sublist (ends_sublist _)).rel_getLast he
      rwa [List.getLast_map] at hends
    rw [hlast, hfirst]
    dsimp only
    omega

/-- No sum is cut, and the ticks of the sections and the gaps between them make up the total. -/
theorem sections_accounted (ht : h.InTurn ps) {p : Profiler} (hp : p.Records h)
    (hmono : h.readings.Pairwise (· ≤ ·)) :
    (∀ x ∈ p.sections, x.ticks.count.toNat = h.ticksOf x.name) ∧
      (p.sections.map (·.ticks.count.toNat)).sum + h.gaps.sum = p.total.count.toNat := by
  have htotal := ht.sum_ticks_add_sum_gaps hp hmono
  have hnames := h.sum_map_ticksOf h.nodup_names hp.ends
  have hexact : ∀ name ∈ h.names, (h.sectionOf name).ticks.count.toNat = h.ticksOf name := by
    intro name hname
    have hle : h.ticksOf name ≤ (h.names.map h.ticksOf).sum :=
      List.le_sum_of_mem (List.mem_map_of_mem hname)
    have hlt := p.total.count.toNat_lt
    change (Word.clamp (h.ticksOf name)).toNat = _
    rw [Word.toNat_clamp, Word.maxNat]
    omega
  rw [hp.sections]
  constructor
  · intro x hx
    obtain ⟨name, hname, rfl⟩ := List.mem_map.1 hx
    exact hexact name hname
  · rw [List.map_map, ← htotal, ← hnames]
    congr 2
    exact List.map_congr_left hexact

end InTurn

end History

end Chronometry
