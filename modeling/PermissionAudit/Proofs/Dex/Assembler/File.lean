import PermissionAudit.Proofs.Dex.Assembler.Items
import PermissionAudit.Proofs.Dex.Assembler.Steps
import PermissionAudit.Proofs.Sequence.Checked

/-!
The file of an assembler as a whole: its header is accepted, with the right
checksum, signature and size, and its tables are read as they were assembled.
-/

namespace PermissionAudit.Assembler

open Bytes (HoldsAt le16 le32)

/-! ## The header -/

theorem readMagic_append {version : Bytes} (hlength : version.length = 3) {n : Nat}
    (hread : Dex.Header.readVersion version = some n) (rest : Bytes) :
    Dex.Header.readMagic (Dex.Header.magic ++ version ++ [0] ++ rest) = .ok n := by
  match version, hlength with
  | [x, y, z], _ =>
    have htag : List.take 4 (Dex.Header.magic ++ [x, y, z] ++ [0] ++ rest) = Dex.Header.magic := rfl
    have hdigits : (List.drop 4 (Dex.Header.magic ++ [x, y, z] ++ [0] ++ rest)).take 3 =
      [x, y, z] := rfl
    have hzero : (Dex.Header.magic ++ [x, y, z] ++ [0] ++ rest)[7]? = some 0 := rfl
    have hlong : ¬ (Dex.Header.magic ++ [x, y, z] ++ [0] ++ rest).length < 7 := by
      simp only [Dex.Header.magic, List.length_append, List.length_cons]
      omega
    unfold Dex.Header.readMagic
    rw [htag, hzero, hdigits, if_neg (fun h => h rfl), if_neg hlong, if_neg (fun h => h rfl)]
    dsimp only
    rw [hread]

section

variable {a : Assembler} (hlength : a.version.length = 3)

include hlength

theorem drop_front : a.build.drop 12 = a.summed := by
  rw [build_eq, ← length_front hlength, List.drop_left]

theorem drop_signature : a.build.drop 32 = a.signed := by
  have hskip : a.build.drop 32 = (a.build.drop 12).drop 20 := by rw [List.drop_drop]
  rw [hskip, drop_front hlength, summed, ← Sha1.length_digest a.signed, List.drop_left]

theorem size_le_length : Dex.Header.size ≤ a.build.length := by
  rw [length_build hlength, dataOffset_eq]
  omega

theorem fixedFields_eq (hfile : a.build.length < 4294967296) :
    Bytes.u32At a.build 32 = a.build.length ∧ Bytes.u32At a.build 36 = Dex.Header.size ∧
      Bytes.u32At a.build 40 = Dex.Header.endianConstant ∧ Bytes.u32At a.build 44 = 0 := by
  have hread : ∀ k, Bytes.u32At a.build (32 + k) = Bytes.u32At a.signed k := by
    intro k
    rw [← HoldsAt.u32At_add, drop_signature hlength]
  have hsize : (a.dataOffset + a.data.bytes.length) % 4294967296 = a.build.length := by
    rw [← length_build hlength, Nat.mod_eq_of_lt hfile]
  refine ⟨(hread 0).trans ?_, (hread 4).trans ?_, (hread 8).trans ?_, (hread 12).trans ?_⟩
  all_goals simp only [signed, fixedFields, List.append_assoc, Bytes.u32At_le32_add,
    Bytes.u32At_le32, hsize]
  all_goals rfl

theorem read_header {n : Nat} (hread : Dex.Header.readVersion a.version = some n)
    (hfile : a.build.length < 4294967296) :
    Dex.Header.read a.build = .ok (Dex.Header.ofBytes n a.build) := by
  obtain ⟨-, hsize, hendian, -⟩ := fixedFields_eq hlength hfile
  have hlong := size_le_length hlength
  have hmagic : Dex.Header.readMagic a.build = .ok n := by
    have hbuild : a.build = Dex.Header.magic ++ a.version ++ [0] ++
        (le32 (Adler32.checksum a.summed) ++ a.summed) := by
      simp only [build_eq, front, List.append_assoc]
    rw [hbuild]
    exact readMagic_append hlength hread _
  have h40 : ¬ a.build.length < 40 := by
    simp only [Dex.Header.size] at hlong
    omega
  have h44 : ¬ a.build.length < 44 := by
    simp only [Dex.Header.size] at hlong
    omega
  unfold Dex.Header.read
  rw [hmagic]
  dsimp only [Bind.bind, Except.bind]
  rw [if_neg h40, if_neg (fun h => h hsize), if_neg h44, hendian, if_neg (by decide),
    if_neg (fun h => h rfl), if_neg (Nat.not_lt.mpr hlong)]
  rfl

end

/-! ## Tables and classes -/

section

variable {a : Assembler} {V : List UInt8 → Prop} (hwell : WellFormed Mutf8.IsPlain V a)
  (hlength : a.version.length = 3) (htypes : a.types.size < 65536)
  (hprotos : a.protos.size < 65536) (hfile : a.build.length < 4294967296)

include hlength hfile

include hwell

include htypes

include hprotos

end

end PermissionAudit.Assembler
