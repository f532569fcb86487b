import FabricLoader.Proofs.Console.Shown
import Mathlib.Algebra.GroupWithZero.Nat

/-! The counters in front of log lines as a ledger of host writes. Which lines are shown does not
matter for the sums: a line takes over what was written since the line before it. With every line
shown, a write is entered by the line that the bus logs for it, and nothing is left for the others. -/
namespace FabricLoader

/-- The counters of the lines that are shown, each with its delta. -/
def Shown.marks (shown : List Shown) : List (Nat × Nat) :=
  shown.filterMap fun
    | .line writes since _ => some (writes, since)
    | .text _ => none

/-- Counters that go on from a last one by their deltas. -/
inductive Balanced : Nat → List (Nat × Nat) → Prop
  | nil {last : Nat} : Balanced last []
  | cons {last since : Nat} {marks : List (Nat × Nat)} (later : Balanced (last + since) marks) :
      Balanced last ((last + since, since) :: marks)

namespace Balanced
variable {last : Nat} {marks before later : List (Nat × Nat)} {mark : Nat × Nat}

theorem le_of_mem (balanced : Balanced last marks) : ∀ counter ∈ marks.map Prod.fst, last ≤ counter := by
  induction balanced with
  | nil => exact nofun
  | cons _ ih =>
    intro counter member
    rcases List.mem_cons.mp member with rfl | behind
    · exact Nat.le_add_right _ _
    · exact Nat.le_trans (Nat.le_add_right _ _) (ih counter behind)

/-- The counters never decrease. -/
theorem increasing (balanced : Balanced last marks) : (marks.map Prod.fst).Pairwise (· ≤ ·) := by
  induction balanced with
  | nil => exact .nil
  | cons later ih => exact .cons later.le_of_mem ih

/-- A counter is the one before it, or the last one of what is past, and its delta. -/
theorem counter_eq (balanced : Balanced last marks) (split : marks = before ++ mark :: later) :
    mark.1 = (before.map Prod.fst).getLastD last + mark.2 := by
  induction balanced generalizing before with
  | nil => simp at split
  | cons _ ih =>
    cases before with
    | nil =>
      obtain ⟨rfl, _⟩ := List.cons.inj split
      rfl
    | cons first before =>
      obtain ⟨rfl, rest⟩ := List.cons.inj split
      rw [List.map_cons, List.getLastD_cons]
      exact ih rest

/-- The deltas add up to the last counter. -/
theorem sum_eq (balanced : Balanced last marks) :
    last + (marks.map Prod.snd).sum = (marks.map Prod.fst).getLastD last := by
  induction balanced with
  | nil => rfl
  | cons _ ih =>
    simp only [List.map_cons, List.getLastD_cons, List.sum_cons, ← Nat.add_assoc]
    exact ih

end Balanced

namespace Console
variable {threshold : Level}

theorem balanced_shown (console : Console) (told : console.last ≤ console.writes) (events : List Event) :
    Balanced console.last (Shown.marks (console.shown threshold events)) := by
  induction events generalizing console with
  | nil => exact .nil
  | cons event events ih =>
    rw [shown_cons]
    cases event with
    | print text => exact ih _ told
    | access access =>
      cases access with
      | write address value => exact ih ⟨console.writes + 1, console.last⟩ (Nat.le_succ_of_le told)
      | reset | read address => exact ih _ told
    | line line =>
      by_cases seen : threshold.shownAt line.level = true
      · have further := ih ⟨console.writes, console.writes⟩ (Nat.le_refl _)
        have total : console.last + (console.writes - console.last) = console.writes :=
          Nat.add_sub_cancel' told
        have first : Balanced console.last ((console.last + (console.writes - console.last),
            console.writes - console.last) :: Shown.marks
              (Console.shown threshold ⟨console.writes, console.writes⟩ events)) := by
          refine .cons ?_
          rwa [total]
        rw [total] at first
        simpa [step, seen, Shown.marks] using first
      · simpa [step, seen] using ih _ told

end Console

def Bus.writeLine (address value : UInt32) (block : String) : LogLine where
  level := .trace
  text := s!"write: addr={Text.hexWord address} block={block} value={Text.hexWord value}"

/-- Directly behind every host write stands the line that the bus logs for it, and nothing is printed
but log lines. -/
inductive Booked : List Event → Prop
  | nil : Booked []
  | write {address value : UInt32} {block : String} {events : List Event} (later : Booked events) :
      Booked (.access (.write address value) :: .line (Bus.writeLine address value block) :: events)
  | access {access : Access} {events : List Event} (other : access.isWrite = false)
      (later : Booked events) : Booked (.access access :: events)
  | line {line : LogLine} {events : List Event} (later : Booked events) : Booked (.line line :: events)

theorem Booked.append {before later : List Event} (first : Booked before) (second : Booked later) :
    Booked (before ++ later) := by
  induction first with
  | nil => exact second
  | write _ ih => exact .write ih
  | access other _ ih => exact .access other ih
  | line _ ih => exact .line ih

theorem booked_lines (lines : List LogLine) : Booked (lines.map .line) := by
  induction lines with
  | nil => exact .nil
  | cons line lines ih => exact .line ih

/-- A full account of events after some host writes. The next write is entered under its number and
with a delta of one by the line that the bus logs for it; any other line carries the number so far and
a delta of zero. -/
inductive Entered : Nat → List Event → List Shown → Prop
  | nil {writes : Nat} : Entered writes [] []
  | write {writes : Nat} {address value : UInt32} {block : String} {events : List Event}
      {shown : List Shown} (later : Entered (writes + 1) events shown) :
      Entered writes
        (.access (.write address value) :: .line (Bus.writeLine address value block) :: events)
        (.line (writes + 1) 1 (Bus.writeLine address value block) :: shown)
  | access {writes : Nat} {access : Access} {events : List Event} {shown : List Shown}
      (other : access.isWrite = false) (later : Entered writes events shown) :
      Entered writes (.access access :: events) shown
  | line {writes : Nat} {line : LogLine} {events : List Event} {shown : List Shown}
      (later : Entered writes events shown) :
      Entered writes (.line line :: events) (.line writes 0 line :: shown)

/-- With every line shown, booked events make a full account. -/
theorem Booked.entered {events : List Event} (booked : Booked events) (writes : Nat) :
    Entered writes events (Console.shown .trace ⟨writes, writes⟩ events) := by
  have seen (line : LogLine) : Level.trace.shownAt line.level = true := by cases line.level <;> rfl
  induction booked generalizing writes with
  | nil => exact .nil
  | write _ ih =>
    rw [Console.shown_cons, Console.shown_cons]
    simpa [Console.step, seen] using Entered.write (ih (writes + 1))
  | @access access events other _ ih =>
    rw [Console.shown_cons]
    cases access with
    | write => cases other
    | reset | read => exact .access rfl (ih writes)
  | line _ ih =>
    rw [Console.shown_cons]
    simpa [Console.step, seen] using Entered.line (ih writes)

/-- The lines with a delta are those of the writes, numbered in their order. -/
theorem Entered.marks {writes : Nat} {events : List Event} {shown : List Shown}
    (entered : Entered writes events shown) :
    (Shown.marks shown).filter (·.2 ≠ 0) =
      (List.range' (writes + 1) (Event.hostWrites events)).map fun number => (number, 1) := by
  induction entered with
  | nil => rfl
  | @write writes address value block events shown _ ih =>
    have counted : Event.hostWrites (.access (.write address value) ::
        .line (Bus.writeLine address value block) :: events) = Event.hostWrites events + 1 :=
      List.countP_cons_of_pos rfl
    rw [counted, List.range'_succ, List.map_cons, ← ih]
    rfl
  | @access writes access events shown other _ ih =>
    cases access with
    | write => cases other
    | reset | read => exact ih
  | line _ ih => exact ih

/-- At any level nothing but log lines is shown. -/
theorem Booked.shown_line {events : List Event} (booked : Booked events) (threshold : Level)
    (console : Console) : ∀ shown ∈ console.shown threshold events,
      ∃ writes since line, shown = .line writes since line := by
  have line (logged : LogLine) (console : Console) :
      ∀ shown ∈ (console.step threshold (.line logged)).2.toList,
        ∃ writes since line, shown = .line writes since line := by
    intro shown member
    rw [Console.step] at member
    split at member
    · exact ⟨_, _, _, by simpa using member⟩
    · cases member
  induction booked generalizing console with
  | nil =>
    intro shown member
    cases member
  | write _ ih =>
    intro shown member
    rw [Console.shown_cons, Console.shown_cons] at member
    rcases List.mem_append.mp member with none | member
    · cases none
    · exact (List.mem_append.mp member).elim (line _ _ shown) (ih _ shown)
  | @access access events _ _ ih =>
    cases access <;> exact ih _
  | line _ ih =>
    intro shown member
    rw [Console.shown_cons] at member
    exact (List.mem_append.mp member).elim (line _ _ shown) (ih _ shown)

end FabricLoader
