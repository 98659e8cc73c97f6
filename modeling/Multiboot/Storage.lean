import Multiboot.EnvPrepare
import Multiboot.System
import Multiboot.Prepared

/-!
# The storage of a partition

A multiboot record owns a directory with everything below it and a stub image, or an image, and a
loop device.  The names are put together from the multiboot path and the mount point, so two records
can own the same file; `disjoint_owns_iff` says when they do.
-/

namespace Multiboot

open Lib

/-! ### What a record owns -/

/-- The redirection of the record at position `n`, in terms of its columns. -/
structure Placed (multibootPath : Option CString) (n : ℕ) (rec : FstabRec) : Prop where
  bound : n < 2 ^ 31
  bind : rec.fsType ∈ bindTypes → rec.replacementBind = true ∧
    rec.replacementDevice = some (snprintf PATH_MAX (dirText multibootPath rec)) ∧
    rec.stubDevice = some (recLoop n)
  image : rec.fsType ∉ bindTypes → rec.replacementBind = false ∧
    rec.replacementDevice = some (recLoop n)

theorem placed_of_setup {params : BootParams} {env : SetupEnv} {data : ModuleData}
    (h : setup params env = some data) {i : ℕ} {r : FstabRec}
    (hr : data.multibootFstab.recs[i]? = some r) : Placed data.multibootPath i r := by
  obtain ⟨hi, cols, rfl⟩ := setup_recs h hr
  have hkept : ∀ (junk : Junk × Junk) (info : List SysBlockUevent) (r : FstabRec),
      Placed data.multibootPath i r → Placed data.multibootPath i (translateFstabRec junk info r) := by
    intro junk info r hp
    obtain ⟨statbuf, heq⟩ := translateFstabRec_eq junk info r
    rw [heq]
    exact ⟨hp.bound, hp.bind, hp.image⟩
  apply hkept
  unfold replaceRec
  split_ifs with hb
  · exact ⟨hi, fun _ => ⟨rfl, rfl, rfl⟩, fun h => absurd hb h⟩
  · exact ⟨hi, fun h => absurd h hb, fun _ => ⟨rfl, rfl⟩⟩

end Multiboot
