import FabricLoader.Proofs.Command.Packed
import FabricLoader.Proofs.Text.Numeral

/-! The lines of a plan. A line is made of words between blanks, and the words tell the write that
it shows; read this way, the lines of a plan are the calls that the image asks of a sink. -/
namespace FabricLoader

namespace Text
variable {word rest : List Char}

def words (line : List Char) : List (List Char) := (cutAt ' ' line).filter (!·.isEmpty)

theorem words_blank (rest : List Char) : words (' ' :: rest) = words rest := by
  simp [words, cutAt]

theorem words_blanks (k : Nat) (rest : List Char) :
    words (List.replicate k ' ' ++ rest) = words rest := by
  induction k with
  | zero => rfl
  | succ k ih => rwa [List.replicate_succ, List.cons_append, words_blank]

theorem words_append (solid : ' ' ∉ word) (nonempty : word ≠ []) (rest : List Char) :
    words (word ++ ' ' :: rest) = word :: words rest := by
  simp [words, cutAt_append solid, nonempty]

theorem words_solid (solid : ' ' ∉ word) (nonempty : word ≠ []) : words word = [word] := by
  simp [words, cutAt_of_not_mem solid, nonempty]

end Text

namespace AcceptedWrite

/-- The write that a line of a plan shows: its ordinal, its kind, and the address and the value on
either side of an arrow. -/
def ofLine? (line : String) : Option AcceptedWrite :=
  match (Text.words line.toList).map String.ofList with
  | [_, "entry", address, "<-", value] => do
    return .entry (← Arguments.address? address) (← Arguments.address? value)
  | [_, "control", address, "<-", value] => do
    return .control (← Arguments.address? address) (← Arguments.address? value)
  | _ => none

def isEntry : AcceptedWrite → Bool
  | entry .. => true
  | control .. => false

end AcceptedWrite

/-- A line of five words, the second of which may be filled up with blanks. -/
def Text.shown (ordinal : Nat) (kind : String) (gap : Nat) (address value : UInt32) : List Char :=
  (Text.decimal 3 ordinal).toList ++ ' ' :: (kind.toList ++ ' ' :: (List.replicate gap ' ' ++
    ((Text.hexWord address).toList ++ ' ' :: ("<-".toList ++ ' ' :: (Text.hexWord value).toList))))

theorem Text.words_shown {kind : String} (solid : ' ' ∉ kind.toList) (nonempty : kind.toList ≠ [])
    (ordinal gap : Nat) (address value : UInt32) :
    (Text.words (Text.shown ordinal kind gap address value)).map String.ofList =
    [String.ofList (Nat.toDigits 10 ordinal), kind, Text.hexWord address, "<-", Text.hexWord value] := by
  have digits : ' ' ∉ Nat.toDigits 10 ordinal :=
    not_mem_of_digitsFrom (digitsFrom_toDigits (by decide) (by decide) ordinal) (by decide)
  have filled : (Text.decimal 3 ordinal).toList =
      List.replicate (3 - (Nat.toDigits 10 ordinal).length) ' ' ++ Nat.toDigits 10 ordinal := by
    simp [Text.decimal, Text.padLeft]
  have wide (w : UInt32) : (Text.hexWord w).toList ≠ [] := by simp [Text.toList_hexWord]
  rw [Text.shown, filled, List.append_assoc, words_blanks, words_append digits Nat.toDigits_ne_nil,
    words_append solid nonempty, words_blanks, words_append (not_mem_hexWord address) (wide address),
    words_append (by decide) (by decide), words_solid (not_mem_hexWord value) (wide value)]
  simp

/-- The line of a write shows that write. -/
theorem Command.ofLine?_planLine (ordinal : Nat) (write : AcceptedWrite) :
    AcceptedWrite.ofLine? (planLine ordinal write) = some write := by
  cases write with
  | entry address value =>
    have line : (planLine ordinal (.entry address value)).toList =
        Text.shown ordinal "entry" 2 address value := by simp [planLine, Text.shown, toString]
    rw [AcceptedWrite.ofLine?, line, Text.words_shown (by decide) (by decide)]
    simp [Text.address?_hexWord]
  | control address value =>
    have line : (planLine ordinal (.control address value)).toList =
        Text.shown ordinal "control" 0 address value := by simp [planLine, Text.shown, toString]
    rw [AcceptedWrite.ofLine?, line, Text.words_shown (by decide) (by decide)]
    simp [Text.address?_hexWord]

def Applier.planned (applier : Applier) (image : Image) : List AcceptedWrite :=
  image.entries.map (fun e => .entry e.address e.value) ++
    (image.control.map (.control applier.controlAddress)).toList

namespace Recording

theorem write_open {r : Recording} (opened : r.Open) (e : Entry) :
    RegisterSink.write e.address e.value r = ⟨.ok (), { r with
      attempts := r.attempts + 1, writes := r.writes ++ [.entry e.address e.value] }, []⟩ := by
  change (⟨(r.entry e.address e.value).1, (r.entry e.address e.value).2, []⟩ : Outcome Event _ _) = _
  simp [Recording.entry, opened.1]

theorem writeControl_open {r : Recording} (opened : r.Open) (address value : UInt32) :
    RegisterSink.writeControl address value r =
      ⟨.ok (), { r with writes := r.writes ++ [.control address value] }, []⟩ := by
  change (⟨(r.control address value).1, (r.control address value).2, []⟩ : Outcome Event _ _) = _
  simp [Recording.control, opened.2]

theorem stream_open (entries : List Entry) (index : Nat) {r : Recording} (opened : r.Open) :
    Applier.stream (fun _ _ => false) index entries r = ⟨.ok (), { r with
      attempts := r.attempts + entries.length
      writes := r.writes ++ entries.map fun e => .entry e.address e.value }, []⟩ := by
  induction entries generalizing index r with
  | nil => simp [Applier.stream]
  | cons e rest ih =>
    rw [Applier.stream_cons, write_open opened]
    simp only
    rw [ih (index + 1) (r := { r with
      attempts := r.attempts + 1, writes := r.writes ++ [.entry e.address e.value] }) opened]
    simp [Nat.add_assoc, Nat.add_comm 1]

/-- A sink that refuses nothing records the writes that the image asks for. -/
theorem apply_new (applier : Applier) (image : Image) :
    applier.apply image (new none false) = ⟨.ok ⟨image.size, image.control.isSome⟩,
      { new none false with attempts := image.size, writes := applier.planned image }, []⟩ := by
  rw [Applier.apply_apply, stream_open image.entries 0 (show (new none false).Open from ⟨rfl, rfl⟩)]
  cases control : image.control with
  | none => simp [new, Image.size, Applier.planned, control]
  | some word =>
    simp only
    rw [writeControl_open ⟨rfl, rfl⟩]
    simp [new, Image.size, Applier.planned, control]

end Recording

theorem Command.mapM_planLine (writes : List AcceptedWrite) (k : Nat) :
    ((writes.zipIdx k).map fun (write, i) => planLine i write).mapM AcceptedWrite.ofLine? =
      some writes := by
  induction writes generalizing k with
  | nil => rfl
  | cons write rest ih => simp [ofLine?_planLine, ih]

def Event.printed (events : List Event) : List String :=
  events.filterMap fun | print text => some text | _ => none

/-- A plan prints one line for each write of the image, and the line shows that write. -/
theorem Command.runPlan_lines {φ : Type} [FileSystem φ] {store : φ} {file : String} {table : Table} {image : Image}
    (loaded : ((Table.load file).run store).value = .ok table)
    (checked : Checker.standard.checkTable table = .ok image) (address : Option UInt32) :
    let run := (runPlan file address).run store
    run.value = .ok () ∧ ∃ lines : List String,
      Event.printed run.events = lines.map (· ++ "\n") ∧
      lines.mapM AcceptedWrite.ofLine? = some ((Applier.ofAddress? address).planned image) := by
  rw [runPlan_run loaded checked]
  simp only [planEvents, Applier.applyTable_apply, checked, Recording.apply_new]
  generalize (Applier.ofAddress? address).planned image = writes
  refine ⟨trivial, writes.zipIdx.map fun (write, i) => planLine i write, ?_, ?_⟩
  · simp [Event.printed, List.filterMap_map]
  · exact mapM_planLine writes 0

end FabricLoader
