import Mathlib.Data.Nat.Find
import Runtt.Loop
import Runtt.Residency

/-! # When a heartbeat gives up

The loop of `stay_resident`, an iteration at a time, for any readings of the stop flag and any
results of the echoes.  It may go on for ever; `Loop.Ends` says what it returns if it returns.

The head of an iteration is reached as long as nothing has said stop and no two echoes in a row
have failed, and then the counter is the length of the row of failures before it (`atHead_iff`).
What the loop returns is read off the first iteration that is not gone through (`returns_iff`),
and it is what the steps of `Watch`, a reading or an echo each, come to (`returns_iff_watch`).
-/
namespace Runtt

/-! ## Rows -/

/-- How many of the numbers before `i` in a row, the latest first, have the property. -/
def row (p : Nat → Bool) (i : Nat) : Nat := ((List.range i).reverse.takeWhile p).length

section Rows
variable {p : Nat → Bool} {i : Nat}

@[simp] theorem row_zero : row p 0 = 0 := rfl

theorem row_succ : row p (i + 1) = if p i then row p i + 1 else 0 := by
  unfold row
  rw [List.range_succ, List.reverse_append, List.reverse_singleton, List.singleton_append,
    List.takeWhile_cons]
  split
  · rfl
  · rfl

/-- A row that is not empty ends just before. -/
theorem row_pos_iff : 0 < row p i ↔ ∃ k, i = k + 1 ∧ p k = true := by
  cases i with
  | zero => simp
  | succ k =>
    rw [row_succ]
    constructor
    · intro h
      by_cases hk : p k = true
      · exact ⟨k, rfl, hk⟩
      · rw [if_neg hk] at h
        exact absurd h (Nat.lt_irrefl 0)
    · rintro ⟨k', hk', hp⟩
      cases hk'
      rw [if_pos hp]
      exact Nat.succ_pos _

/-- Where no two in a row have the property, a row has one member at most. -/
theorem row_le_one (h : ∀ k, k + 1 < i → ¬ (p k = true ∧ p (k + 1) = true)) : row p i ≤ 1 := by
  cases i with
  | zero => exact Nat.zero_le 1
  | succ i =>
    rw [row_succ]
    split
    · rename_i hi
      have hbefore : ¬ 0 < row p i := by
        intro hpos
        obtain ⟨k, rfl, hk⟩ := row_pos_iff.mp hpos
        exact h k (Nat.lt_succ_self _) ⟨hk, hi⟩
      omega
    · exact Nat.zero_le 1

end Rows

/-! ## The loop -/

/-- What `stay_resident` is given, by the number of the iteration: what `should_stop` says at its
head and behind the sleep, and what comes of its echo. -/
structure Heartbeats where
  head : Nat → Bool
  slept : Nat → Bool
  echo : Nat → Except Error String

/-- An iteration of the loop of `stay_resident`, by its number and `consecutive_failures`. -/
def stayResident (b : Heartbeats) : Nat × Nat → Except Error Unit ⊕ Nat × Nat
  | (i, failures) =>
    if b.head i then .inl (.ok ())
    else if b.slept i then .inl (.ok ())
    else
      match b.echo i with
      | .ok _ => .inr (i + 1, 0)
      | .error _ =>
        if 2 ≤ failures + 1 then
          .inl (.error [s!"lost contact with the device after {failures + 1} heartbeats"])
        else .inr (i + 1, failures + 1)

namespace Heartbeats
variable (b : Heartbeats)

/-- `stay_resident` returns this. -/
def Returns (r : Except Error Unit) : Prop := Loop.Ends (stayResident b) (0, 0) r

/-- It gets to the head of this iteration with this counter. -/
def AtHead (i failures : Nat) : Prop := Loop.Visits (stayResident b) (0, 0) (i, failures)

/-- One of the two readings of the iteration says stop. -/
def stops (i : Nat) : Bool := b.head i || b.slept i

/-- The echo of the iteration fails. -/
def fails (i : Nat) : Bool := !(b.echo i).isOk

/-- The echoes of this iteration and of the next fail. -/
def Strikes (k : Nat) : Prop := b.fails k = true ∧ b.fails (k + 1) = true

/-- Before iteration `i` nothing says stop, and no two echoes in a row fail. -/
structure Calm (i : Nat) : Prop where
  stops : ∀ j < i, b.stops j = false
  strikes : ∀ k, k + 1 < i → ¬ b.Strikes k

variable {b} {i failures : Nat}

/-- What an iteration does. -/
theorem stayResident_cases (b : Heartbeats) (i failures : Nat) :
    (b.stops i = true ∧ stayResident b (i, failures) = .inl (.ok ())) ∨
      (b.stops i = false ∧ b.fails i = true ∧ 0 < failures ∧
        ∃ e, stayResident b (i, failures) = .inl (.error e)) ∨
      (b.stops i = false ∧ (b.fails i = true → failures = 0) ∧
        stayResident b (i, failures) = .inr (i + 1, if b.fails i then failures + 1 else 0)) := by
  unfold stayResident stops fails
  dsimp only
  by_cases hhead : b.head i = true
  · exact .inl ⟨by rw [hhead, Bool.true_or], if_pos hhead⟩
  by_cases hslept : b.slept i = true
  · exact .inl ⟨by rw [hslept, Bool.or_true], by rw [if_neg hhead, if_pos hslept]⟩
  have hstops : (b.head i || b.slept i) = false := by
    rw [Bool.or_eq_false_iff]
    exact ⟨Bool.eq_false_iff.mpr hhead, Bool.eq_false_iff.mpr hslept⟩
  rw [if_neg hhead, if_neg hslept]
  cases hecho : b.echo i with
  | ok s =>
    refine .inr (.inr ⟨hstops, fun hfails => ?_, rfl⟩)
    cases hfails
  | error e =>
    by_cases hzero : failures = 0
    · subst hzero
      exact .inr (.inr ⟨hstops, fun _ => rfl, rfl⟩)
    · have hpos : 0 < failures := Nat.pos_of_ne_zero hzero
      refine .inr (.inl ⟨hstops, rfl, hpos, _, if_pos ?_⟩)
      omega

/-! ## Which iterations are gone through -/

theorem calm_zero : b.Calm 0 where
  stops := by
    intro j hj
    exact absurd hj (Nat.not_lt_zero j)
  strikes := by
    intro k hk
    exact absurd hk (Nat.not_lt_zero _)

theorem calm_succ_iff :
    b.Calm (i + 1) ↔ b.Calm i ∧ b.stops i = false ∧ (b.fails i = true → row b.fails i = 0) := by
  constructor
  · intro h
    refine ⟨⟨fun j hj => h.stops j (by omega), fun k hk => h.strikes k (by omega)⟩,
      h.stops i (Nat.lt_succ_self i), fun hfails => ?_⟩
    by_contra hrow
    obtain ⟨k, rfl, hk⟩ := row_pos_iff.mp (Nat.pos_of_ne_zero hrow)
    exact h.strikes k (Nat.lt_succ_self _) ⟨hk, hfails⟩
  · rintro ⟨h, hstops, hrow⟩
    refine ⟨fun j hj => ?_, fun k hk hstrikes => ?_⟩
    · rcases Nat.lt_succ_iff_lt_or_eq.mp hj with hj | rfl
      · exact h.stops j hj
      · exact hstops
    · rcases Nat.lt_succ_iff_lt_or_eq.mp hk with hk | rfl
      · exact h.strikes k hk hstrikes
      · have hpos : 0 < row b.fails (k + 1) := row_pos_iff.mpr ⟨k, rfl, hstrikes.1⟩
        rw [hrow hstrikes.2] at hpos
        exact Nat.lt_irrefl 0 hpos

/-- An iteration that is gone through counts its failure, and is calm. -/
theorem calm_of_continues {j failures' : Nat} (h : b.Calm i)
    (hround : Loop.Continues (stayResident b) (i, row b.fails i) (j, failures')) :
    b.Calm j ∧ failures' = row b.fails j := by
  have hbody : stayResident b (i, row b.fails i) = .inr (j, failures') := hround
  rcases stayResident_cases b i (row b.fails i) with
    ⟨-, hnext⟩ | ⟨-, -, -, e, hnext⟩ | ⟨hstops, hrow, hnext⟩
  · rw [hnext] at hbody
    cases hbody
  · rw [hnext] at hbody
    cases hbody
  · rw [hnext] at hbody
    cases hbody
    exact ⟨calm_succ_iff.mpr ⟨h, hstops, hrow⟩, row_succ.symm⟩

/-- **At the head of an iteration** the counter is the row of failures before it, and it gets
there exactly when all before it is calm. -/
theorem atHead_iff : b.AtHead i failures ↔ b.Calm i ∧ failures = row b.fails i := by
  constructor
  · intro h
    refine h.invariant (I := fun s => b.Calm s.1 ∧ s.2 = row b.fails s.1)
      ⟨calm_zero, rfl⟩ fun {s s'} hs hround => ?_
    obtain ⟨i, failures⟩ := s
    obtain ⟨hcalm, hfailures⟩ := hs
    dsimp only at hcalm hfailures
    subst hfailures
    exact calm_of_continues hcalm hround
  · rintro ⟨h, rfl⟩
    induction i with
    | zero => exact .refl
    | succ i ih =>
      obtain ⟨hbefore, hstops, hrow⟩ := calm_succ_iff.mp h
      refine .tail (ih hbefore) ?_
      show stayResident b (i, row b.fails i) = .inr (i + 1, row b.fails (i + 1))
      rcases stayResident_cases b i (row b.fails i) with
        ⟨hstop, -⟩ | ⟨-, hfails, hpos, -⟩ | ⟨-, -, hnext⟩
      · rw [hstops] at hstop
        cases hstop
      · rw [hrow hfails] at hpos
        exact absurd hpos (Nat.lt_irrefl 0)
      · rw [hnext, row_succ]

/-- What is returned comes from an iteration whose head is reached. -/
theorem returns_iff {r : Except Error Unit} :
    b.Returns r ↔ ∃ i, b.Calm i ∧ stayResident b (i, row b.fails i) = .inl r := by
  constructor
  · intro h
    obtain ⟨⟨i, failures⟩, hvisits, hlast⟩ := Loop.Ends.last h
    obtain ⟨hcalm, rfl⟩ := atHead_iff.mp hvisits
    exact ⟨i, hcalm, hlast⟩
  · rintro ⟨i, hcalm, hlast⟩
    have hvisits : b.AtHead i (row b.fails i) := atHead_iff.mpr ⟨hcalm, rfl⟩
    exact (Loop.Visits.ends_iff hvisits).mpr (.stop hlast)

/-! ## A reading at a time -/

/-- What an iteration sees that is gone through. -/
def seen (b : Heartbeats) (i : Nat) : List Seen :=
  [.stop (b.head i), .stop (b.slept i), .echo (b.echo i)]

/-- What the first iterations see. -/
def sight (b : Heartbeats) (n : Nat) : List Seen := (List.range n).flatMap b.seen

theorem sight_succ : b.sight (i + 1) = b.sight i ++ b.seen i := by
  unfold sight
  rw [List.range_succ, List.flatMap_append, List.flatMap_singleton]

theorem sight_mono {n : Nat} (h : i ≤ n) : b.sight i <+: b.sight n := by
  induction h with
  | refl => exact List.prefix_refl _
  | step _ ih =>
    rw [Nat.succ_eq_add_one, sight_succ]
    exact ih.trans (List.prefix_append _ _)

/-- Once it has returned it sees no more. -/
theorem returned_last {w w' : Watch} {s s' : List Seen} {r : Except Error Unit}
    (hpre : s <+: s') (h : s.foldlM Watch.step w = some (.returned r))
    (h' : s'.foldlM Watch.step w = some w') : w' = .returned r := by
  obtain ⟨rest, rfl⟩ := hpre
  rw [List.foldlM_append, h] at h'
  cases rest with
  | nil =>
    cases h'
    rfl
  | cons first rest => cases h'

/-- What an iteration sees on its way. -/
theorem watch_cases (b : Heartbeats) (i failures : Nat) :
    (∃ failures', stayResident b (i, failures) = .inr (i + 1, failures') ∧
      (b.seen i).foldlM Watch.step (.head failures) = some (.head failures')) ∨
      ∃ r s, stayResident b (i, failures) = .inl r ∧ s <+: b.seen i ∧
        s.foldlM Watch.step (.head failures) = some (.returned r) := by
  unfold stayResident seen
  dsimp only
  cases b.head i with
  | true => exact .inr ⟨.ok (), [.stop true], rfl, ⟨_, rfl⟩, rfl⟩
  | false =>
    cases b.slept i with
    | true => exact .inr ⟨.ok (), [.stop false, .stop true], rfl, ⟨_, rfl⟩, rfl⟩
    | false =>
      cases b.echo i with
      | ok s => exact .inl ⟨0, rfl, rfl⟩
      | error e =>
        -- the second failure in a row returns behind the echo, the first goes on
        cases failures with
        | zero => exact .inl ⟨1, rfl, rfl⟩
        | succ failures =>
          have hmany : 2 ≤ failures + 1 + 1 := by omega
          dsimp only
          rw [if_pos hmany]
          exact .inr ⟨_, _, rfl, List.prefix_refl _, rfl⟩

/-- At the head of an iteration it has seen all of those before. -/
theorem AtHead.watch (h : b.AtHead i failures) :
    (b.sight i).foldlM Watch.step (.head 0) = some (.head failures) := by
  refine Loop.Visits.invariant
    (I := fun s => (b.sight s.1).foldlM Watch.step (.head 0) = some (.head s.2)) h rfl ?_
  rintro ⟨i, failures⟩ ⟨j, failures'⟩ hs hround
  have hbody : stayResident b (i, failures) = .inr (j, failures') := hround
  dsimp only at hs ⊢
  rcases b.watch_cases i failures with ⟨failures₁, hnext, hsees⟩ | ⟨r, s, hlast, -⟩
  · rw [hnext] at hbody
    cases hbody
    rw [sight_succ, List.foldlM_append, hs]
    exact hsees
  · rw [hlast] at hbody
    cases hbody

theorem Returns.watch {r : Except Error Unit} (h : b.Returns r) :
    ∃ n s, s <+: b.sight n ∧ s.foldlM Watch.step (.head 0) = some (.returned r) := by
  obtain ⟨⟨i, failures⟩, hvisits, hbody⟩ := Loop.Ends.last h
  have hhead : b.AtHead i failures := hvisits
  rcases b.watch_cases i failures with ⟨failures', hnext, -⟩ | ⟨r', s, hlast, hpre, hsees⟩
  · rw [hnext] at hbody
    cases hbody
  · rw [hlast] at hbody
    cases hbody
    refine ⟨i + 1, b.sight i ++ s, ?_, ?_⟩
    · rw [sight_succ]
      exact (List.prefix_append_right_inj _).mpr hpre
    · rw [List.foldlM_append, hhead.watch]
      exact hsees

/-- It gets to the head of an iteration or returns. -/
theorem atHead_or_returns (b : Heartbeats) (n : Nat) :
    (∃ failures, b.AtHead n failures) ∨ ∃ r, b.Returns r := by
  induction n with
  | zero => exact .inl ⟨0, .refl⟩
  | succ n ih =>
    rcases ih with ⟨failures, hhead⟩ | hreturns
    · rcases b.watch_cases n failures with ⟨failures', hnext, -⟩ | ⟨r, s, hlast, -⟩
      · exact .inl ⟨failures', .tail hhead hnext⟩
      · exact .inr ⟨r, (Loop.Visits.ends_iff hhead).mpr (.stop hlast)⟩
    · exact .inr hreturns

/-- **The loop and its steps agree**: `stay_resident` returns what `Watch.step` comes to, a
reading or an echo at a time. -/
theorem returns_iff_watch {r : Except Error Unit} :
    b.Returns r ↔
      ∃ n s, s <+: b.sight n ∧ s.foldlM Watch.step (.head 0) = some (.returned r) := by
  refine ⟨Returns.watch, ?_⟩
  rintro ⟨n, s, hpre, hsees⟩
  rcases b.atHead_or_returns n with ⟨failures, hhead⟩ | ⟨r', hreturns⟩
  · cases returned_last hpre hsees hhead.watch
  · obtain ⟨n', s', hpre', hsees'⟩ := hreturns.watch
    have hboth : s <+: s' ∨ s' <+: s :=
      List.prefix_or_prefix_of_prefix (hpre.trans (sight_mono (Nat.le_max_left n n')))
        (hpre'.trans (sight_mono (Nat.le_max_right n n')))
    have hsame : r = r' := by
      rcases hboth with hle | hle
      · cases returned_last hle hsees hsees'
        rfl
      · cases returned_last hle hsees' hsees
        rfl
    rw [hsame]
    exact hreturns

/-! ## What is returned -/

/-- `Ok` is returned at the first request to stop that is in time. -/
theorem returns_ok_iff :
    b.Returns (.ok ()) ↔ ∃ i, b.stops i = true ∧ ∀ k, k + 1 < i → ¬ b.Strikes k := by
  rw [returns_iff]
  constructor
  · rintro ⟨i, hcalm, hlast⟩
    rcases stayResident_cases b i (row b.fails i) with
      ⟨hstops, -⟩ | ⟨-, -, -, e, hnext⟩ | ⟨-, -, hnext⟩
    · exact ⟨i, hstops, hcalm.strikes⟩
    · rw [hnext] at hlast
      cases hlast
    · rw [hnext] at hlast
      cases hlast
  · rintro ⟨i, hstops, hstrikes⟩
    have hex : ∃ i, b.stops i = true := ⟨i, hstops⟩
    have hfirst : Nat.find hex ≤ i := Nat.find_min' hex hstops
    refine ⟨Nat.find hex, ⟨fun j hj => ?_, fun k hk => hstrikes k (by omega)⟩, ?_⟩
    · exact Bool.eq_false_iff.mpr (Nat.find_min hex hj)
    · rcases stayResident_cases b (Nat.find hex) (row b.fails (Nat.find hex)) with
        ⟨-, hnext⟩ | ⟨hnot, -⟩ | ⟨hnot, -⟩
      · exact hnext
      · rw [Nat.find_spec hex] at hnot
        cases hnot
      · rw [Nat.find_spec hex] at hnot
        cases hnot

/-- An error is returned at the first two failures in a row. -/
theorem returns_error_iff :
    (∃ e, b.Returns (.error e)) ↔ ∃ k, b.Strikes k ∧ ∀ i ≤ k + 1, b.stops i = false := by
  constructor
  · rintro ⟨e, h⟩
    obtain ⟨i, hcalm, hlast⟩ := returns_iff.mp h
    rcases stayResident_cases b i (row b.fails i) with
      ⟨-, hnext⟩ | ⟨hstops, hfails, hpos, -⟩ | ⟨-, -, hnext⟩
    · rw [hnext] at hlast
      cases hlast
    · obtain ⟨k, rfl, hk⟩ := row_pos_iff.mp hpos
      refine ⟨k, ⟨hk, hfails⟩, fun j hj => ?_⟩
      rcases Nat.lt_or_eq_of_le hj with hj | rfl
      · exact hcalm.stops j hj
      · exact hstops
    · rw [hnext] at hlast
      cases hlast
  · rintro ⟨k, hstrikes, hstops⟩
    classical
    have hex : ∃ k, b.Strikes k := ⟨k, hstrikes⟩
    have hfirst : Nat.find hex ≤ k := Nat.find_min' hex hstrikes
    obtain ⟨hone, htwo⟩ := Nat.find_spec hex
    have hcalm : b.Calm (Nat.find hex + 1) := by
      refine ⟨fun j hj => hstops j (by omega), fun k' hk' => Nat.find_min hex (by omega)⟩
    have hpos : 0 < row b.fails (Nat.find hex + 1) := row_pos_iff.mpr ⟨_, rfl, hone⟩
    rcases stayResident_cases b (Nat.find hex + 1) (row b.fails (Nat.find hex + 1)) with
      ⟨hstop, -⟩ | ⟨-, -, -, e, hnext⟩ | ⟨-, hrow, -⟩
    · rw [hstops _ (by omega)] at hstop
      cases hstop
    · exact ⟨e, returns_iff.mpr ⟨_, hcalm, hnext⟩⟩
    · rw [hrow htwo] at hpos
      exact absurd hpos (Nat.lt_irrefl 0)

/-- **Two strikes, exactly.**  `stay_resident` returns an error exactly when two echoes in a row
fail and no reading before the second of them says stop; it returns `Ok` exactly when a reading
says stop before two echoes in a row have failed; and at the head of every iteration the counter
is 0 or 1, and the number of failures since the last success. -/
theorem two_strikes (b : Heartbeats) :
    ((∃ e, b.Returns (.error e)) ↔ ∃ k, b.Strikes k ∧ ∀ i ≤ k + 1, b.stops i = false) ∧
      (b.Returns (.ok ()) ↔ ∃ i, b.stops i = true ∧ ∀ k, k + 1 < i → ¬ b.Strikes k) ∧
      ∀ i failures, b.AtHead i failures →
        (failures = 0 ∨ failures = 1) ∧ failures = row b.fails i := by
  refine ⟨returns_error_iff, returns_ok_iff, fun i failures h => ?_⟩
  obtain ⟨hcalm, rfl⟩ := atHead_iff.mp h
  exact ⟨Nat.le_one_iff_eq_zero_or_eq_one.mp (row_le_one hcalm.strikes), rfl⟩

end Heartbeats
end Runtt
