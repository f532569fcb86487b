/-! Recognisers over characters. A recogniser looks at the front of a text and answers with what it
found and the text after it; here are the two ways to run one over a whole text, and the cut of a
text at a mark. -/
namespace FabricLoader.Text
variable {α : Type}

def after? : List Char → List Char → Option (List Char)
  | [], text => some text
  | c :: expected, d :: text => if c = d then after? expected text else none
  | _ :: _, [] => none

/-- The first thing found, looking from every place in turn. -/
def findFirst? (recognise : List Char → Option (α × List Char)) : List Char → Option α
  | [] => none
  | c :: text =>
    match recognise (c :: text) with
    | some (found, _) => some found
    | none => findFirst? recognise text

/-- Everything found from left to right, no find overlapping another. The recogniser is also given
the character before the place where it looks. The first argument counts the characters ahead that
belong to the last find. -/
def findAllFrom (recognise : Option Char → List Char → Option (α × List Char)) :
    Nat → Option Char → List Char → List α
  | _, _, [] => []
  | covered + 1, _, c :: text => findAllFrom recognise covered (some c) text
  | 0, before, c :: text =>
    match recognise before (c :: text) with
    | some (found, rest) =>
      found :: findAllFrom recognise (text.length - rest.length) (some c) text
    | none => findAllFrom recognise 0 (some c) text

def findAll (recognise : Option Char → List Char → Option (α × List Char)) (text : List Char) :
    List α :=
  findAllFrom recognise 0 none text

/-- The pieces of a text between the marks in it; there is always a first piece. -/
def cutAt (mark : Char) : List Char → List (List Char)
  | [] => [[]]
  | c :: text =>
    if c = mark then [] :: cutAt mark text
    else
      match cutAt mark text with
      | [] => [[c]]
      | piece :: pieces => (c :: piece) :: pieces

theorem cutAt_of_not_mem {mark : Char} {piece : List Char} (h : mark ∉ piece) :
    cutAt mark piece = [piece] := by
  induction piece with
  | nil => rfl
  | cons c piece ih =>
    obtain ⟨other, later⟩ := List.ne_and_not_mem_of_not_mem_cons h
    rw [cutAt, if_neg (Ne.symm other), ih later]

theorem cutAt_append {mark : Char} {piece : List Char} (h : mark ∉ piece) (rest : List Char) :
    cutAt mark (piece ++ mark :: rest) = piece :: cutAt mark rest := by
  induction piece with
  | nil => simp [cutAt]
  | cons c piece ih =>
    obtain ⟨other, later⟩ := List.ne_and_not_mem_of_not_mem_cons h
    rw [List.cons_append, cutAt, if_neg (Ne.symm other), ih later]

theorem after?_append (expected text : List Char) : after? expected (expected ++ text) = some text := by
  induction expected with
  | nil => rfl
  | cons c expected ih => simp [after?, ih]

theorem eq_append_of_after? {expected text rest : List Char}
    (h : after? expected text = some rest) : text = expected ++ rest := by
  fun_induction after? expected text with
  | case1 text => simp at h; simp [h]
  | case2 expected c text ih => simp [ih h]
  | case3 => simp at h
  | case4 => simp at h

end FabricLoader.Text
