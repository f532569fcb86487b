import FabricLoader.Container.Bytes
import Mathlib.Data.Nat.Digits.Lemmas

/-! Bytes as digits in base 256, the lowest first. A word or a half word that is read is the number
that its bytes make, so reading and writing undo each other, byte by byte and over any number of
words. -/
namespace FabricLoader.Container
variable {bytes rest before : List UInt8} {w : UInt32} {h : UInt16} {ws : List UInt32}
  {low k place : Nat}

def number (bytes : List UInt8) : Nat := Nat.ofDigits 256 (bytes.map UInt8.toNat)

def wordAt (bytes : List UInt8) (place : Nat) : UInt32 :=
  UInt32.ofNat (number ((bytes.drop place).take 4))

def halfAt (bytes : List UInt8) (place : Nat) : UInt16 :=
  UInt16.ofNat (number ((bytes.drop place).take 2))

/-- Bytes of one length that make the same number are the same. -/
theorem eq_of_number_eq (length : bytes.length = rest.length) (same : number bytes = number rest) :
    bytes = rest := by
  have small (l : List UInt8) : ∀ digit ∈ l.map UInt8.toNat, digit < 256 := by
    intro digit member
    obtain ⟨byte, _, rfl⟩ := List.mem_map.mp member
    exact byte.toNat_lt
  have digits : bytes.map UInt8.toNat = rest.map UInt8.toNat :=
    Nat.ofDigits_inj_of_len_eq (by decide) (by simpa using length) (small bytes) (small rest) same
  exact List.map_injective_iff.mpr (fun _ _ => UInt8.toNat_inj.mp) digits

theorem or_shiftLeft (below : low < 2 ^ k) (high : Nat) :
    low ||| high <<< k = low + 2 ^ k * high := by
  rw [Nat.or_comm, ← Nat.shiftLeft_add_eq_or_of_lt below, Nat.shiftLeft_eq]
  ring

theorem number_wordBytes (w : UInt32) : number (wordBytes w) = w.toNat := by
  have := w.toNat_lt
  simp only [number, wordBytes, List.map_cons, List.map_nil, Nat.ofDigits_cons, Nat.ofDigits_nil,
    UInt32.toNat_toUInt8, UInt32.toNat_shiftRight, Nat.shiftRight_eq_div_pow]
  simp
  omega

theorem number_halfBytes (h : UInt16) : number (halfBytes h) = h.toNat := by
  have := h.toNat_lt
  simp only [number, halfBytes, List.map_cons, List.map_nil, Nat.ofDigits_cons, Nat.ofDigits_nil,
    UInt16.toNat_toUInt8, UInt16.toNat_shiftRight, Nat.shiftRight_eq_div_pow]
  simp
  omega

theorem ofNat_number_wordBytes (w : UInt32) : UInt32.ofNat (number (wordBytes w)) = w := by
  rw [number_wordBytes, UInt32.ofNat_toNat]

theorem ofNat_number_halfBytes (h : UInt16) : UInt16.ofNat (number (halfBytes h)) = h := by
  rw [number_halfBytes, UInt16.ofNat_toNat]

/-- Four bytes put together are the word whose number they make. -/
theorem toNat_joined (a b c d : UInt8) :
    (a.toUInt32 ||| b.toUInt32 <<< 8 ||| c.toUInt32 <<< 16 ||| d.toUInt32 <<< 24).toNat =
      number [a, b, c, d] := by
  have ha := a.toNat_lt
  have hb := b.toNat_lt
  have hc := c.toNat_lt
  have hd := d.toNat_lt
  simp only [number, List.map_cons, List.map_nil, Nat.ofDigits_cons, Nat.ofDigits_nil,
    UInt32.toNat_or, UInt32.toNat_shiftLeft, UInt8.toNat_toUInt32]
  -- No shifted byte leaves the word, and none meets what is below it, so the disjunctions are sums.
  simp only [UInt32.reduceToNat, Nat.reduceMod, Nat.shiftLeft_eq]
  rw [Nat.mod_eq_of_lt (by omega), Nat.mod_eq_of_lt (by omega), Nat.mod_eq_of_lt (by omega)]
  simp only [← Nat.shiftLeft_eq]
  rw [or_shiftLeft (k := 8) (by omega), or_shiftLeft (k := 16) (by omega),
    or_shiftLeft (k := 24) (by omega)]
  omega

/-- Two bytes put together are the half word whose number they make. -/
theorem toNat_paired (a b : UInt8) : (a.toUInt16 ||| b.toUInt16 <<< 8).toNat = number [a, b] := by
  have ha := a.toNat_lt
  have hb := b.toNat_lt
  simp only [number, List.map_cons, List.map_nil, Nat.ofDigits_cons, Nat.ofDigits_nil,
    UInt16.toNat_or, UInt16.toNat_shiftLeft, UInt8.toNat_toUInt16]
  simp only [UInt16.reduceToNat, Nat.reduceMod, Nat.shiftLeft_eq]
  rw [Nat.mod_eq_of_lt (by omega), ← Nat.shiftLeft_eq, or_shiftLeft (by omega)]
  omega

/-- Reading a word takes off exactly the bytes that writing it puts in front. -/
theorem word?_eq_some_iff : word? bytes = some (w, rest) ↔ bytes = wordBytes w ++ rest := by
  constructor
  · intro read
    unfold word? at read
    split at read
    · obtain ⟨rfl, rfl⟩ := Prod.mk.inj (Option.some.inj read)
      rename_i a b c d rest
      have same : [a, b, c, d] = wordBytes
          (a.toUInt32 ||| b.toUInt32 <<< 8 ||| c.toUInt32 <<< 16 ||| d.toUInt32 <<< 24) :=
        eq_of_number_eq rfl (by rw [number_wordBytes, toNat_joined])
      rw [← same]
      rfl
    · cases read
  · rintro rfl
    have same := (toNat_joined _ _ _ _).trans (number_wordBytes w)
    simp only [wordBytes, List.cons_append, List.nil_append, word?, UInt32.toNat_inj.mp same]

/-- Reading a half word takes off exactly the bytes that writing it puts in front. -/
theorem half?_eq_some_iff : half? bytes = some (h, rest) ↔ bytes = halfBytes h ++ rest := by
  constructor
  · intro read
    unfold half? at read
    split at read
    · obtain ⟨rfl, rfl⟩ := Prod.mk.inj (Option.some.inj read)
      rename_i a b rest
      have same : [a, b] = halfBytes (a.toUInt16 ||| b.toUInt16 <<< 8) :=
        eq_of_number_eq rfl (by rw [number_halfBytes, toNat_paired])
      rw [← same]
      rfl
    · cases read
  · rintro rfl
    have same := (toNat_paired _ _).trans (number_halfBytes h)
    simp only [halfBytes, List.cons_append, List.nil_append, half?, UInt16.toNat_inj.mp same]

@[simp] theorem word?_wordBytes (w : UInt32) (rest : List UInt8) :
    word? (wordBytes w ++ rest) = some (w, rest) := word?_eq_some_iff.mpr rfl

@[simp] theorem half?_halfBytes (h : UInt16) (rest : List UInt8) :
    half? (halfBytes h ++ rest) = some (h, rest) := half?_eq_some_iff.mpr rfl

/-- There is a word to read if four bytes are left. -/
theorem exists_word (enough : k + 4 ≤ bytes.length) :
    ∃ w rest, bytes = wordBytes w ++ rest ∧ k ≤ rest.length := by
  match bytes, enough with
  | a :: b :: c :: d :: rest, enough =>
    exact ⟨_, rest, word?_eq_some_iff.mp rfl, by simpa using enough⟩

theorem exists_wordBytes (four : bytes.length = 4) : ∃ w, bytes = wordBytes w := by
  obtain ⟨w, rest, rfl, -⟩ := exists_word (k := 0) four.ge
  obtain rfl : rest = [] := by simpa [wordBytes] using four
  exact ⟨w, List.append_nil _⟩

theorem exists_half (enough : k + 2 ≤ bytes.length) :
    ∃ h rest, bytes = halfBytes h ++ rest ∧ k ≤ rest.length := by
  match bytes, enough with
  | a :: b :: rest, enough => exact ⟨_, rest, half?_eq_some_iff.mp rfl, by simpa using enough⟩

/-- Words read one after another, each from bytes that are there, until exactly none is left. -/
inductive Drains : List UInt8 → List UInt32 → Prop
  | done : Drains [] []
  | next {bytes rest : List UInt8} {w : UInt32} {ws : List UInt32}
      (read : word? bytes = some (w, rest)) (later : Drains rest ws) : Drains bytes (w :: ws)

theorem drains_iff : Drains bytes ws ↔ bytes = ws.flatMap wordBytes := by
  constructor
  · intro drains
    induction drains with
    | done => rfl
    | next read later ih =>
      rw [List.flatMap_cons, ← ih]
      exact word?_eq_some_iff.mp read
  · rintro rfl
    induction ws with
    | nil => exact .done
    | cons w ws ih => exact .next (word?_wordBytes w _) ih

theorem words_of_drains (drains : Drains bytes ws) : words bytes = ws := by
  induction drains with
  | done => rfl
  | @next bytes rest w ws read later ih =>
    unfold word? at read
    split at read
    · obtain ⟨rfl, rfl⟩ := Prod.mk.inj (Option.some.inj read)
      rw [words, ih]
    · cases read

theorem words_flatMap (ws : List UInt32) : words (ws.flatMap wordBytes) = ws :=
  words_of_drains (drains_iff.mpr rfl)

/-- A whole number of words is read to its end. -/
theorem drains_words (whole : bytes.length % 4 = 0) : Drains bytes (words bytes) := by
  fun_induction words bytes with
  | case1 a b c d rest ih =>
    simp only [List.length_cons] at whole
    exact .next rfl (ih (by omega))
  | case2 bytes short =>
    match bytes, short with
    | [], _ => exact .done
    | [_], _ | [_, _], _ | [_, _, _], _ => simp at whole
    | a :: b :: c :: d :: rest, short => exact absurd rfl (short a b c d rest)

theorem length_flatMap_wordBytes (ws : List UInt32) :
    (ws.flatMap wordBytes).length = 4 * ws.length := by
  simp [List.length_flatMap, wordBytes]
  omega

theorem length_words (whole : bytes.length % 4 = 0) : (words bytes).length = bytes.length / 4 := by
  have length := length_flatMap_wordBytes (words bytes)
  rw [← drains_iff.mp (drains_words whole)] at length
  omega

theorem wordAt_append (here : before.length = place) (w : UInt32) (rest : List UInt8) :
    wordAt (before ++ (wordBytes w ++ rest)) place = w := by
  subst here
  have field : ((before ++ (wordBytes w ++ rest)).drop before.length).take 4 = wordBytes w := by
    rw [List.drop_left]
    rfl
  rw [wordAt, field, ofNat_number_wordBytes]

/-- Words in a row stand four bytes apart. -/
theorem wordAt_flatMap (here : before.length = place) (ws : List UInt32) (rest : List UInt8) :
    (List.range ws.length).map (fun i =>
      wordAt (before ++ (ws.flatMap wordBytes ++ rest)) (place + 4 * i)) = ws := by
  induction ws generalizing before place with
  | nil => rfl
  | cons w ws ih =>
    have later := @ih (before ++ wordBytes w) (place + 4) (by simp [here, wordBytes])
    rw [List.length_cons, List.range_succ_eq_map, List.map_cons, List.map_map, List.flatMap_cons]
    congr 1
    · rw [List.append_assoc, Nat.mul_zero, Nat.add_zero]
      exact wordAt_append here w _
    · refine Eq.trans (List.map_congr_left ?_) later
      intro i _
      simp only [Function.comp_apply, List.append_assoc]
      congr 1
      omega

end FabricLoader.Container
