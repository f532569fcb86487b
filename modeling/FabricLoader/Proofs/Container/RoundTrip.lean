import FabricLoader.Proofs.Container.Parts

/-! A container gives back the table that went into it, but for its name and its origin, so two
tables share a container only if they differ in these alone. -/
namespace FabricLoader
variable {table other : Table}

/-- What a container keeps of a table, under another name. -/
def Table.contained (table : Table) (name : String) : Table :=
  { table with name, source := none, pins := none }

namespace Container

theorem length_encode (table : Table) : (encode table).length = 4 * table.words.length + 24 := by
  rw [encode_eq, Parts.length_bytes, Parts.ofTable, length_flatMap_wordBytes]

/-- The flag and the field that is zero without it keep a control word apart from none. -/
theorem control_ofTable (table : Table) :
    (if (Header.ofTable table).flags &&& controlFlag ≠ 0 then some (Header.ofTable table).control
      else none) = table.control := by
  cases control : table.control with
  | none => simp [Header.ofTable, control, controlFlag]
  | some word => simp [Header.ofTable, control, controlFlag]

theorem table_ofTable (name : String) (table : Table) :
    (Parts.ofTable table).table name = table.contained name := by
  unfold Parts.table Table.contained
  congr 1
  · exact words_flatMap table.words
  · exact control_ofTable table

theorem decode_contained (name : String) (table : Table) :
    decode name (encode table) = .ok (table.contained name) := by
  rw [encode_eq, decode_eq_ok_iff]
  refine ⟨rfl, rfl, rfl, ?_, table_ofTable name table⟩
  rw [Parts.ofTable, length_flatMap_wordBytes, Nat.mul_mod_right]

theorem encode_contained (table : Table) (name : String) :
    encode (table.contained name) = encode table := rfl

/-- Nothing but the name and the origin is left out of a container. -/
theorem encode_eq_encode_iff (name : String) :
    encode other = encode table ↔ other.contained name = table.contained name := by
  constructor
  · intro same
    have decoded := decode_contained name other
    rw [same, decode_contained] at decoded
    exact (Except.ok.inj decoded).symm
  · intro same
    simp only [Table.contained, Table.mk.injEq, true_and, and_true] at same
    obtain ⟨words, count, width, control⟩ := same
    simp only [encode, body, Header.ofTable, words, count, width, control]

/-- Decoding what was encoded gives the table back under the name asked for, without its origin; a
control word of zero does not pass for none, and tables with the same container agree in all that
containers keep. -/
theorem decode_encode (name : String) (table : Table) :
    decode name (encode table) = .ok { table with name, source := none, pins := none } ∧
    encode { table with control := some 0 } ≠ encode { table with control := none } ∧
    ∀ other : Table, encode other = encode table ↔
      ({ other with name, source := none, pins := none } : Table) =
        { table with name, source := none, pins := none } := by
  refine ⟨decode_contained name table, ?_, fun other => encode_eq_encode_iff name⟩
  intro same
  have kept := (encode_eq_encode_iff name).mp same
  cases congrArg Table.control kept

end Container
end FabricLoader
