import FabricLoader.Image.Basic
import FabricLoader.Proofs.Block.Writes

/-! Entries streamed into a block, each as a selector write and a data write. The chain is a tail of
the words sent since the last reset, whatever its depth, so what a complete stream leaves behind
depends on nothing that was there before a reset but the count of data writes. -/
namespace FabricLoader

def Entry.word (e : Entry) : ConfigWord := ⟨e.address &&& Block.selectorMask, e.value⟩

namespace Block
variable {block : Block} {base : UInt32} {entries : List Entry} {n i : Nat}

def entryAccesses (base : UInt32) (e : Entry) : List Access :=
  [.write (base + Register.selector.offset) e.address, .write (base + Register.data.offset) e.value]

def streamAccesses (base : UInt32) (entries : List Entry) : List Access :=
  entries.flatMap (entryAccesses base)

@[simp] theorem streamAccesses_nil : streamAccesses base [] = [] := rfl

@[simp] theorem streamAccesses_cons (e : Entry) (rest : List Entry) :
    streamAccesses base (e :: rest) = entryAccesses base e ++ streamAccesses base rest := rfl

/-- Among the next `n` data writes, the place of the one that is going to be refused. -/
def refusal? (block : Block) (n : Nat) : Option Nat :=
  block.failAt.bind fun f =>
    if block.failed = false ∧ block.received ≤ f.toNat ∧ f.toNat < block.received + n then
      some (f.toNat - block.received)
    else none

theorem refusal?_eq_some_iff : block.refusal? n = some i ↔
    block.failed = false ∧ i < n ∧ ∃ f, block.failAt = some f ∧ f.toNat = block.received + i := by
  simp only [refusal?, Option.bind_eq_some_iff, Option.ite_none_right_eq_some, Option.some.injEq]
  constructor
  · rintro ⟨f, atF, ⟨unfired, low, high⟩, rfl⟩
    exact ⟨unfired, by omega, f, atF, by omega⟩
  · rintro ⟨unfired, inside, f, atF, place⟩
    exact ⟨f, atF, ⟨unfired, by omega, by omega⟩, by omega⟩

theorem Settled.refusal?_eq_some_iff (settled : block.Settled) : block.refusal? n = some i ↔
    i < n ∧ ∃ f, block.failAt = some f ∧ f.toNat = block.received + i := by
  refine Block.refusal?_eq_some_iff.trans ⟨And.right, fun pending => ⟨?_, pending⟩⟩
  obtain ⟨_, f, atF, place⟩ := pending
  by_contra fired
  obtain ⟨g, atG, passed⟩ := settled.mp (by simpa using fired)
  obtain rfl : f = g := Option.some.inj (atF.symm.trans atG)
  omega

theorem refuses_iff_refusal? : block.refuses ↔ block.refusal? (n + 1) = some 0 := by
  rw [refuses_iff, refusal?_eq_some_iff]
  simp

theorem accepts_of_refusal? (h : block.refusal? (n + 1) ≠ some 0) : block.refuses = false := by
  by_contra refuses
  exact h (refuses_iff_refusal?.mp (by simpa using refuses))

/-- Once a refusal has happened there is no other. -/
theorem refusal?_of_failed (h : block.failed = true) : block.refusal? n = none := by
  cases found : block.refusal? n with
  | none => rfl
  | some i => exact absurd (refusal?_eq_some_iff.mp found).1 (by simp [h])

theorem refusal?_succ (accepts : block.refuses = false) {after : Block}
    (failAt : after.failAt = block.failAt) (failed : after.failed = block.failed)
    (received : after.received = block.received + 1) :
    block.refusal? (n + 1) = (after.refusal? n).map (· + 1) := by
  have first : block.refusal? (n + 1) ≠ some 0 := by
    rw [Ne, ← refuses_iff_refusal?, accepts]
    exact Bool.false_ne_true
  apply Option.ext
  intro i
  rw [Option.map_eq_some_iff, refusal?_eq_some_iff]
  constructor
  · rintro ⟨unfired, inside, f, atF, place⟩
    cases i with
    | zero => exact absurd (refusal?_eq_some_iff.mpr ⟨unfired, inside, f, atF, place⟩) first
    | succ i =>
      refine ⟨i, refusal?_eq_some_iff.mpr ?_, rfl⟩
      exact ⟨failed.trans unfired, by omega, f, failAt.trans atF, by omega⟩
  · rintro ⟨i, found, rfl⟩
    obtain ⟨unfired, inside, f, atF, place⟩ := refusal?_eq_some_iff.mp found
    exact ⟨failed.symm.trans unfired, by omega, f, failAt.symm.trans atF, by omega⟩

/-- A block after a reset, held in it, as every attempt finds it. -/
def held (block : Block) : Block := { block.cleared with control := resetBit }

@[simp] theorem refusal?_held : block.held.refusal? n = block.refusal? n := rfl

theorem replay_entry (fits : Fits base) (e : Entry) :
    block.replay base (entryAccesses base e) =
      (push e.value { block with selector := e.address &&& selectorMask }).state := by
  simp only [entryAccesses, replay_cons, replay_nil]
  rw [access_data fits, access_write fits (by decide), write_selector_state]

theorem replay_entry_refused (fits : Fits base) (refuses : block.refuses) (e : Entry) :
    block.replay base (entryAccesses base e) =
      { block with
        selector := e.address &&& selectorMask, received := block.received + 1, failed := true } := by
  have stillRefuses : { block with selector := e.address &&& selectorMask }.refuses := refuses
  rw [replay_entry fits]
  exact (push_refused stillRefuses _).2

theorem replay_entry_accepted (fits : Fits base) (accepts : block.refuses = false) (e : Entry) :
    block.replay base (entryAccesses base e) =
      { block with
        selector := e.address &&& selectorMask, received := block.received + 1,
        chain := block.chain.drop (block.chain.length + 1 - block.capacity) ++ [e.word] } := by
  have stillAccepts : { block with selector := e.address &&& selectorMask }.refuses = false := accepts
  rw [replay_entry fits]
  exact (push_accepted stillAccepts _).2

theorem capacity_pos (block : Block) : 0 < block.capacity :=
  Nat.lt_of_lt_of_le Nat.zero_lt_one (Nat.le_max_right _ _)

theorem refusal?_entry (fits : Fits base) (accepts : block.refuses = false) (e : Entry) :
    block.refusal? (n + 1) = ((block.replay base (entryAccesses base e)).refusal? n).map (· + 1) := by
  rw [replay_entry_accepted fits accepts]
  exact refusal?_succ accepts rfl rfl rfl

/-- The stream up to a refusal leaves the refusal behind. -/
theorem failed_of_refusal? (fits : Fits base) (refusal : block.refusal? entries.length = some i) :
    (block.replay base (streamAccesses base (entries.take (i + 1)))).failed = true := by
  induction entries generalizing block i with
  | nil => exact absurd (refusal?_eq_some_iff.mp refusal).2.1 (by simp)
  | cons e rest ih =>
    rw [List.length_cons] at refusal
    cases i with
    | zero =>
      simp [replay_entry_refused fits (refuses_iff_refusal?.mpr refusal)]
    | succ i =>
      have accepted : block.refuses = false :=
        accepts_of_refusal? (n := rest.length) (by simp [refusal])
      rw [refusal?_entry fits accepted e] at refusal
      rw [List.take_succ_cons, streamAccesses_cons, replay_append]
      exact ih (by simpa using refusal)

/-- A chain of bounded length is a tail of everything pushed, and stays one. -/
theorem drop_push {words : List ConfigWord} {capacity : Nat} (positive : 0 < capacity)
    (word : ConfigWord) :
    let chain := words.drop (words.length - capacity)
    chain.drop (chain.length + 1 - capacity) ++ [word] =
      (words ++ [word]).drop (words.length + 1 - capacity) := by
  simp only [List.length_drop, List.drop_drop]
  rw [List.drop_append_of_le_length (by omega)]
  congr 2
  omega

/-- A stream without a refusal leaves a tail of the words sent. -/
theorem replay_stream (fits : Fits base) (words : List ConfigWord)
    (tail : block.chain = words.drop (words.length - block.capacity))
    (accepts : block.refusal? entries.length = none) :
    block.replay base (streamAccesses base entries) =
      { block with
        selector := entries.getLast?.elim block.selector (·.address &&& selectorMask)
        received := block.received + entries.length
        chain := (words ++ entries.map Entry.word).drop
          (words.length + entries.length - block.capacity) } := by
  induction entries generalizing block words with
  | nil => simp [← tail]
  | cons e rest ih =>
    rw [List.length_cons] at accepts
    have accepted : block.refuses = false :=
      accepts_of_refusal? (n := rest.length) (by simp [accepts])
    rw [refusal?_entry fits accepted e, Option.map_eq_none_iff] at accepts
    rw [streamAccesses_cons, replay_append]
    rw [replay_entry_accepted fits accepted] at accepts ⊢
    rw [ih (words ++ [e.word]) ?_ accepts]
    · congr 1
      · rw [List.getLast?_cons]
        cases rest.getLast? <;> rfl
      · simp only [List.append_assoc, List.singleton_append, List.map_cons, List.length_append,
          List.length_cons, List.length_nil, capacity]
        congr 1
        omega
      · simp only [List.length_cons]
        omega
    · simp only [tail, List.length_append, List.length_singleton]
      exact drop_push (capacity_pos block) e.word

end Block
end FabricLoader
