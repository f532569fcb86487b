import FabricLoader.Text.Utf8
import Mathlib.Data.List.Infix
import Mathlib.Tactic.SplitIfs

/-! The lenient reading of any bytes. Every byte of ASCII stands for itself, whatever is unfinished
before it, and every other character stands for bytes outside ASCII; so a sequence of characters of
ASCII is in the text only if its bytes are side by side too. -/
namespace FabricLoader.Text.Utf8

variable {b : UInt8} {bytes : List UInt8} {text : List Char} {c : Char} {u next : Unfinished}
  {pending : Option Unfinished}

/-- A character that no byte of ASCII stands for, except perhaps the zero byte. -/
def Foreign (c : Char) : Prop := c.toNat = 0 ∨ 0x80 ≤ c.toNat

theorem foreign_ofNat {n : Nat} (large : 0x80 ≤ n) : Foreign (Char.ofNat n) := by
  by_cases valid : n.isValidChar
  · rw [Char.ofNat, dif_pos valid]
    exact .inr large
  · rw [Char.ofNat, dif_neg valid]
    exact .inl rfl

theorem foreign_replacement : Foreign replacement := .inr (by decide)

/-- Whatever bytes follow, the character will be outside ASCII. -/
structure Unfinished.Wide (u : Unfinished) : Prop where
  low : 0x80 ≤ u.low.toNat
  bits : 2 ≤ u.bits ∨ 0 < u.owed ∧ 2 ≤ u.bits * 64 + (u.low.toNat - 0x80)

theorem first_char (read : first b = .char c) : b.toNat < 0x80 ∧ c = Char.ofNat b.toNat := by
  unfold first at read
  split_ifs at read with ascii
  exact ⟨UInt8.lt_iff_toNat_lt.mp ascii, (Reading.char.inj read).symm⟩

theorem first_other (other : ∀ c, first b ≠ .char c) : 0x80 ≤ b.toNat :=
  Nat.le_of_not_lt fun ascii => other _ (if_pos (UInt8.lt_iff_toNat_lt.mpr ascii))

theorem first_unfinished (read : first b = .unfinished u) : u.Wide := by
  unfold first at read
  split_ifs at read
  all_goals simp only [Reading.unfinished.injEq] at read
  all_goals subst read
  all_goals simp only [UInt8.lt_iff_toNat_lt, beq_iff_eq, ← UInt8.toNat_inj, UInt8.reduceToNat] at *
  all_goals constructor <;> simp only [UInt8.reduceToNat] <;> omega

/-- A byte that goes on with a character is outside ASCII, and so is the character. -/
theorem next_cases (wide : u.Wide) (b : UInt8) :
    u.next b = .refused ∨ 0x80 ≤ b.toNat ∧
      ((∃ c, u.next b = .char c ∧ Foreign c) ∨ ∃ next, u.next b = .unfinished next ∧ next.Wide) := by
  obtain ⟨low, bits⟩ := wide
  unfold Unfinished.next
  by_cases within : (u.low ≤ b && b ≤ u.high) = true
  · rw [if_pos within]
    have above : u.low.toNat ≤ b.toNat := by
      simp only [Bool.and_eq_true, decide_eq_true_eq, UInt8.le_iff_toNat_le] at within
      exact within.1
    refine .inr ⟨by omega, ?_⟩
    cases owed : u.owed with
    | zero => exact .inl ⟨_, rfl, foreign_ofNat (by omega)⟩
    | succ n => exact .inr ⟨_, rfl, ⟨Nat.le_refl _, .inl (by simp only; omega)⟩⟩
  · exact .inl (if_neg within)

/-- A text as its bytes tell it: a byte of ASCII is a character, and any other character stands for
some bytes outside ASCII. -/
inductive Tells : List UInt8 → List Char → Prop
  | nil : Tells [] []
  | ascii {b : UInt8} {bytes : List UInt8} {text : List Char} (small : b.toNat < 0x80)
      (later : Tells bytes text) : Tells (b :: bytes) (Char.ofNat b.toNat :: text)
  | foreign {part bytes : List UInt8} {c : Char} {text : List Char} (some : part ≠ [])
      (large : ∀ b ∈ part, 0x80 ≤ b.toNat) (outside : Foreign c) (later : Tells bytes text) :
      Tells (part ++ bytes) (c :: text)

/-- The bytes tell the lenient text, also together with those of an unfinished character. -/
theorem tells_lenientFrom (bytes : List UInt8) : Tells bytes (lenientFrom none bytes) ∧
    ∀ u part, u.Wide → part ≠ [] → (∀ b ∈ part, 0x80 ≤ b.toNat) →
      Tells (part ++ bytes) (lenientFrom (some u) bytes) := by
  induction bytes with
  | nil => exact ⟨.nil, fun u part _ some large => .foreign some large foreign_replacement .nil⟩
  | cons b bytes ih =>
    obtain ⟨fresh, started⟩ := ih
    have single (large : 0x80 ≤ b.toNat) : ∀ other ∈ [b], 0x80 ≤ other.toNat := by simpa using large
    have begun : Tells (b :: bytes) (lenientFrom none (b :: bytes)) := by
      cases read : first b with
      | char c =>
        obtain ⟨small, rfl⟩ := first_char read
        simpa [lenientFrom, step, read] using Tells.ascii small fresh
      | unfinished u =>
        have large : 0x80 ≤ b.toNat := first_other (by simp [read])
        simpa [lenientFrom, step, read] using
          started u [b] (first_unfinished read) (List.cons_ne_nil b []) (single large)
      | refused =>
        have large : 0x80 ≤ b.toNat := first_other (by simp [read])
        simpa [lenientFrom, step, read] using
          Tells.foreign (List.cons_ne_nil b []) (single large) foreign_replacement fresh
    refine ⟨begun, fun u part wide some large => ?_⟩
    rcases next_cases wide b with refused | ⟨largeToo, ⟨c, read, outside⟩ | ⟨next, read, wideNext⟩⟩
    · -- the byte ends the character and is read again as the first of another
      have again : lenientFrom (Option.some u) (b :: bytes) =
          replacement :: lenientFrom none (b :: bytes) := by
        simp [lenientFrom, step, refused]
      rw [again]
      exact .foreign some large foreign_replacement begun
    all_goals
      have longer : ∀ other ∈ part ++ [b], 0x80 ≤ other.toNat := by
        intro other member
        rcases List.mem_append.mp member with inside | last
        · exact large other inside
        · exact single largeToo other last
      have nonempty : part ++ [b] ≠ [] := by simp
    · simpa [lenientFrom, step, read] using Tells.foreign nonempty longer outside fresh
    · simpa [lenientFrom, step, read] using started next (part ++ [b]) wideNext nonempty longer

theorem tells_lenient (bytes : List UInt8) : Tells bytes (lenient bytes) := (tells_lenientFrom bytes).1

theorem toNat_ascii (small : b.toNat < 0x80) : (Char.ofNat b.toNat).toNat = b.toNat := by
  have valid : b.toNat.isValidChar := .inl (by omega)
  rw [Char.ofNat, dif_pos valid]
  rfl

theorem not_foreign_ascii (positive : 0 < b.toNat) (small : b.toNat < 0x80) :
    ¬ Foreign (Char.ofNat b.toNat) := by
  rw [Foreign, toNat_ascii small]
  omega

/-- A character of ASCII at the front of a text is the first byte. -/
theorem Tells.head {later : List Char} (tells : Tells bytes (Char.ofNat b.toNat :: later))
    (positive : 0 < b.toNat) (small : b.toNat < 0x80) :
    ∃ rest, bytes = b :: rest ∧ Tells rest later := by
  generalize shape : Char.ofNat b.toNat :: later = text at tells
  cases tells with
  | nil => cases shape
  | @ascii first rest _ smallFirst restTells =>
    obtain ⟨same, rfl⟩ := List.cons.inj shape
    have equal := congrArg Char.toNat same
    rw [toNat_ascii small, toNat_ascii smallFirst] at equal
    exact ⟨rest, by rw [UInt8.toNat_inj.mp equal], restTells⟩
  | foreign _ _ outside _ =>
    obtain ⟨rfl, rfl⟩ := List.cons.inj shape
    exact (not_foreign_ascii positive small outside).elim

/-- Two characters of ASCII stand side by side only if their bytes do. -/
theorem Tells.infix_bytes {x y : UInt8} (tells : Tells bytes text) (positive : 0 < x.toNat)
    (small : x.toNat < 0x80) (positiveToo : 0 < y.toNat) (smallToo : y.toNat < 0x80)
    (inside : [Char.ofNat x.toNat, Char.ofNat y.toNat] <:+: text) : [x, y] <:+: bytes := by
  induction tells with
  | nil => simp at inside
  | @ascii b bytes text smallByte later ih =>
    rcases List.infix_cons_iff.mp inside with ⟨tail, front⟩ | behind
    · have whole : Tells (b :: bytes) (Char.ofNat x.toNat :: Char.ofNat y.toNat :: tail) := by
        have split : Char.ofNat x.toNat :: Char.ofNat y.toNat :: tail = _ := front
        rw [split]
        exact .ascii smallByte later
      obtain ⟨rest, shape, tellsRest⟩ := whole.head positive small
      obtain ⟨rest, rfl, _⟩ := tellsRest.head positiveToo smallToo
      exact ⟨[], rest, shape.symm⟩
    · exact (ih behind).trans (List.suffix_cons b bytes).isInfix
  | @foreign part bytes c text _ _ outside _ ih =>
    rcases List.infix_cons_iff.mp inside with ⟨tail, front⟩ | behind
    · obtain ⟨rfl, _⟩ := List.cons.inj front
      exact (not_foreign_ascii positive small outside).elim
    · exact (ih behind).trans (List.suffix_append part bytes).isInfix

theorem step_wide (wide : ∀ u, pending = some u → u.Wide) (b : UInt8) :
    ∀ u, (step pending b).2 = some u → u.Wide := by
  have fresh (u : Unfinished) (begun : (step none b).2 = some u) : u.Wide := by
    cases read : first b with
    | unfinished v =>
      obtain rfl : v = u := by simpa [step, read] using begun
      exact first_unfinished read
    | char | refused => simp [step, read] at begun
  intro u left
  cases pending with
  | none => exact fresh u left
  | some v =>
    rcases next_cases (wide v rfl) b with refused | ⟨_, ⟨c, read, _⟩ | ⟨next, read, wideNext⟩⟩
    · refine fresh u ?_
      simpa [step, refused] using left
    · simp [step, read] at left
    · obtain rfl : next = u := by simpa [step, read] using left
      exact wideNext

/-- A byte of ASCII stands for itself, and what comes after it is read as if nothing were before. -/
theorem lenientFrom_append (wide : ∀ u, pending = some u → u.Wide) (bytes rest : List UInt8)
    (small : b.toNat < 0x80) : lenientFrom pending (bytes ++ b :: rest) =
      lenientFrom pending bytes ++ Char.ofNat b.toNat :: lenient rest := by
  induction bytes generalizing pending with
  | nil =>
    have read := step_ascii pending (UInt8.lt_iff_toNat_lt.mpr small)
      fun u left => UInt8.le_iff_toNat_le.mpr (wide u left).low
    cases pending <;> simp [lenientFrom, read, lenient]
  | cons a bytes ih =>
    have later := ih (step_wide wide a)
    cases pending <;> simp [lenientFrom, later]

theorem lenient_append (bytes rest : List UInt8) (small : b.toNat < 0x80) :
    lenient (bytes ++ b :: rest) = lenient bytes ++ Char.ofNat b.toNat :: lenient rest := by
  have nothing (u : Unfinished) (left : none = some u) : u.Wide := nomatch left
  exact lenientFrom_append nothing bytes rest small

end FabricLoader.Text.Utf8
