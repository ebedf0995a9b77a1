import Mathlib.Data.BitVec
import NeoZygisk.Common.ElfLookup

/-!
# Run-time addresses

`dl_iterate_phdr` gives the load bias of a library, the difference between where it runs and where it was
linked. `findSymbolAddress` takes it for the start of the library and subtracts what the first `PT_LOAD` is
linked above its place in the file. `findSymbolAddress_iff` says when this leaves the run-time address.
-/

set_option autoImplicit false

namespace NeoZygisk.Common.ElfParser

open NeoZygisk.Lib.Bytes
open NeoZygisk.Lib.Transition

variable {m : DataModel}

namespace ElfImage

theorem addSection_bias (file : File) (img : ElfImage m) (shdr : Shdr) :
    (addSection file img shdr).baseAddress = img.baseAddress ∧ (addSection file img shdr).bias = img.bias := by
  simp only [addSection]
  split_ifs <;> exact ⟨rfl, rfl⟩

/-- The bias comes from the first `PT_LOAD`. -/
theorem ofFile_bias {baseAddress : m.Word} {file : File} {phdr : Phdr m}
    (hload : (programHeaders m file).find? (·.pType == PT_LOAD) = some phdr) :
    (ofFile baseAddress file).baseAddress = baseAddress ∧
      (ofFile baseAddress file).bias = phdr.pVaddr - phdr.pOffset := by
  rw [ofFile_eq]
  refine List.foldlRecOn (motive := fun img : ElfImage m =>
    img.baseAddress = baseAddress ∧ img.bias = phdr.pVaddr - phdr.pOffset) _ _ ?_ ?_
  · simp only [headed, hload]
    exact ⟨rfl, trivial⟩
  · intro img himg shdr _
    rwa [(addSection_bias file img shdr).1, (addSection_bias file img shdr).2]

/-- Calls change neither the base address nor the bias. -/
theorem reach_bias {img img' : ElfImage m} (h : Reach step img img') :
    img'.baseAddress = img.baseAddress ∧ img'.bias = img.bias := by
  rcases reach_cases h with rfl | rfl
  · exact ⟨rfl, rfl⟩
  · obtain ⟨cache, hcache⟩ := buildSymbolCache_tables img
    rw [hcache]
    exact ⟨rfl, rfl⟩

/-- The address of a symbol that is found. -/
theorem findSymbolAddress_eq {img img' : ElfImage m} {fuel : Nat} {name : Name} {v : m.Word}
    (hv : img.findSymbolOffset fuel name (calculateGnuHash name) (calculateSysvHash name) = some (v, img'))
    (hne : v ≠ 0) (hbase : img.baseAddress ≠ 0) :
    img.findSymbolAddress fuel name = some (img.baseAddress + v - img.bias, img') := by
  have hsame : img'.baseAddress = img.baseAddress ∧ img'.bias = img.bias := by
    rcases findSymbolOffset_image hv with himg | himg <;> dsimp only at himg
    · rw [himg]
      exact ⟨rfl, rfl⟩
    · obtain ⟨cache, hcache⟩ := buildSymbolCache_tables img
      rw [himg, hcache]
      exact ⟨rfl, rfl⟩
  rw [findSymbolAddress, hv, Option.bind_eq_bind, Option.bind_some]
  dsimp only
  rw [hsame.1, hsame.2, if_pos ⟨hne, hbase⟩]
  rfl

end ElfImage

/-- In an image that was loaded with a bias, whatever was looked up before, a symbol that is found has its
run-time address exactly if the first `PT_LOAD` is linked at its place in the file. -/
theorem findSymbolAddress_iff {loaded : List (PhdrInfo m)} {readFile : Name → Option File}
    {libraryName path : Name} {dlpiAddr : m.Word} {file : File}
    (hlibrary : findLoadedLibraryInfo loaded libraryName = some (path, dlpiAddr))
    (hfile : readFile path = some file) {phdr : Phdr m}
    (hload : (programHeaders m file).find? (·.pType == PT_LOAD) = some phdr) (hbias : dlpiAddr ≠ 0)
    {img img' : ElfImage m} (hreach : Reach ElfImage.step (.load loaded readFile libraryName) img)
    {fuel : Nat} {name : Name} {v : m.Word}
    (hv : img.findSymbolOffset fuel name (calculateGnuHash name) (calculateSysvHash name) = some (v, img'))
    (hne : v ≠ 0) :
    img.findSymbolAddress fuel name = some (dlpiAddr + v, img') ↔ phdr.pVaddr = phdr.pOffset := by
  have hofFile : ElfImage.load loaded readFile libraryName = .ofFile dlpiAddr file := by
    rw [ElfImage.load, hlibrary]
    dsimp only
    rw [hfile]
  rw [hofFile] at hreach
  obtain ⟨hbase, hsub⟩ := ElfImage.reach_bias hreach
  rw [(ElfImage.ofFile_bias hload).1] at hbase
  rw [(ElfImage.ofFile_bias hload).2] at hsub
  rw [ElfImage.findSymbolAddress_eq hv hne (hbase ▸ hbias), hbase, hsub, Option.some.injEq, Prod.mk.injEq,
    and_iff_left rfl]
  -- in the ring of words
  exact sub_eq_self.trans sub_eq_zero

/-! ## A library linked above its file -/

/-- The one library that is loaded. -/
def loadedAt (dlpiAddr : BitVec 32) : List (PhdrInfo .lp32) := [⟨some (ascii "/system/lib/libsmall.so"), dlpiAddr⟩]

/-- The image of a library that is linked at an address and loaded at another one. -/
def smallImage (linkedAt : Nat) (dlpiAddr : BitVec 32) : ElfImage .lp32 :=
  .load (loadedAt dlpiAddr) (fun _ => some (smallLibrary linkedAt)) (ascii "libsmall.so")

/-- Linked at its place in the file, `bar` has its run-time address. -/
theorem findSymbolAddress_linkedAtZero :
    ((smallImage 0 0x70000000).findSymbolAddress 4 (ascii "bar")).map (·.1) = some 0x70000200 := by
  have hload : ((programHeaders .lp32 (smallLibrary 0)).find? (·.pType == PT_LOAD)) = some ⟨PT_LOAD, 0, 0⟩ := by
    decide +kernel
  have hoffset : ((smallImage 0 0x70000000).findSymbolOffset 4 (ascii "bar") (calculateGnuHash (ascii "bar"))
      (calculateSysvHash (ascii "bar"))).map (·.1) = some 0x200 := by
    decide +kernel
  obtain ⟨⟨v, img'⟩, hv, rfl⟩ := Option.map_eq_some_iff.mp hoffset
  have hlibrary : findLoadedLibraryInfo (loadedAt 0x70000000) (ascii "libsmall.so") =
      some (ascii "/system/lib/libsmall.so", 0x70000000) := by
    decide +kernel
  have hbias : (0x70000000 : BitVec 32) ≠ 0 := by decide
  let readFile : Name → Option File := fun _ => some (smallLibrary 0)
  have hfile : readFile (ascii "/system/lib/libsmall.so") = some (smallLibrary 0) := rfl
  have hreach : Reach ElfImage.step (.load (loadedAt 0x70000000) readFile (ascii "libsmall.so"))
      (smallImage 0 0x70000000) := .refl
  have haddress := findSymbolAddress_iff hlibrary hfile hload hbias hreach hv (by decide)
  have hfound : (smallImage 0 0x70000000).findSymbolAddress 4 (ascii "bar") = some (0x70000000 + 0x200, img') :=
    haddress.mpr rfl
  rw [hfound]
  rfl

/-- Linked at 0x1000, `bar` is found, and given an address that is not its run-time address. -/
theorem findSymbolAddress_linkedHigher :
    ((smallImage 0x1000 0x70000000).findSymbolOffset 4 (ascii "bar") (calculateGnuHash (ascii "bar"))
        (calculateSysvHash (ascii "bar"))).map (·.1) = some 0x1200 ∧
      ((smallImage 0x1000 0x70000000).findSymbolAddress 4 (ascii "bar")).map (·.1) ≠
        some (0x70000000 + 0x1200) := by
  decide +kernel

end NeoZygisk.Common.ElfParser
