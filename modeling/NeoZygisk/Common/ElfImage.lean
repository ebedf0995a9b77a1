import NeoZygisk.Common.DataModel
import NeoZygisk.Lib.Bytes
import NeoZygisk.Lib.Chain
import Mathlib.Data.List.Infix

/-!
# ELF images

`ElfImage` finds a library among those loaded in the process, maps its file and takes from the section headers
where the symbol tables, the string tables and the hash tables lie. Pointers into the mapped file are offsets
here, and what lies behind the end of the file reads as zero.

A symbol is looked up in `.gnu.hash`, then in `.hash`, and last in a cache of the functions and objects of
`.symtab`, which is built when it is first needed. The walks along the chains of the hash tables have fuel: the
code follows a chain for as long as the file tells it to.
-/

set_option autoImplicit false

namespace NeoZygisk.Common.ElfParser

open NeoZygisk.Lib.Bytes
open NeoZygisk.Lib.Chain

variable {m : DataModel}

/-! ## The file -/

/-- The bytes of a file. -/
abbrev File := List (BitVec 8)

/-- A name without its terminator. -/
abbrev Name := List (BitVec 8)

/-- The number in the `n` bytes at `offset`. -/
def uintAt (file : File) (n offset : Nat) : Nat := ofBytes ((file.drop offset).take n)

/-- The `uint32_t` at `offset`. -/
def u32At (file : File) (offset : Nat) : BitVec 32 := BitVec.ofNat 32 (uintAt file 4 offset)

/-- The `ElfW(Addr)` at `offset`. -/
def addrAt (m : DataModel) (file : File) (offset : Nat) : m.Word :=
  BitVec.ofNat _ (uintAt file m.wordSize offset)

/-- The string at `offset`. -/
def cstringAt (file : File) (offset : Nat) : Name := (file.drop offset).takeWhile (· != 0)

/-- `ElfW(Ehdr)`. -/
structure Ehdr where
  ePhoff : Nat
  eShoff : Nat
  ePhnum : Nat
  eShnum : Nat
  eShstrndx : Nat
  deriving DecidableEq, Repr

def readEhdr (m : DataModel) (file : File) : Ehdr :=
  match m with
  | .lp32 => ⟨uintAt file 4 28, uintAt file 4 32, uintAt file 2 44, uintAt file 2 48, uintAt file 2 50⟩
  | .lp64 => ⟨uintAt file 8 32, uintAt file 8 40, uintAt file 2 56, uintAt file 2 60, uintAt file 2 62⟩

/-- `ElfW(Phdr)`. -/
structure Phdr (m : DataModel) where
  pType : Nat
  pOffset : m.Word
  pVaddr : m.Word
  deriving DecidableEq, Repr

def sizeofPhdr : DataModel → Nat
  | .lp32 => 32
  | .lp64 => 56

def readPhdr (m : DataModel) (file : File) (offset : Nat) : Phdr m :=
  match m with
  | .lp32 => ⟨uintAt file 4 offset, addrAt .lp32 file (offset + 4), addrAt .lp32 file (offset + 8)⟩
  | .lp64 => ⟨uintAt file 4 offset, addrAt .lp64 file (offset + 8), addrAt .lp64 file (offset + 16)⟩

/-- `ElfW(Shdr)`. -/
structure Shdr where
  shName : Nat
  shType : Nat
  shOffset : Nat
  shSize : Nat
  shEntsize : Nat
  deriving DecidableEq, Repr

def sizeofShdr : DataModel → Nat
  | .lp32 => 40
  | .lp64 => 64

def readShdr (m : DataModel) (file : File) (offset : Nat) : Shdr :=
  match m with
  | .lp32 => ⟨uintAt file 4 offset, uintAt file 4 (offset + 4), uintAt file 4 (offset + 16),
      uintAt file 4 (offset + 20), uintAt file 4 (offset + 36)⟩
  | .lp64 => ⟨uintAt file 4 offset, uintAt file 4 (offset + 4), uintAt file 8 (offset + 24),
      uintAt file 8 (offset + 32), uintAt file 8 (offset + 56)⟩

/-- `ElfW(Sym)`. -/
structure Sym (m : DataModel) where
  stName : Nat
  stInfo : Nat
  stShndx : Nat
  stValue : m.Word
  stSize : Nat
  deriving DecidableEq, Repr

def sizeofSym : DataModel → Nat
  | .lp32 => 16
  | .lp64 => 24

def readSym (m : DataModel) (file : File) (offset : Nat) : Sym m :=
  match m with
  | .lp32 => ⟨uintAt file 4 offset, uintAt file 1 (offset + 12), uintAt file 2 (offset + 14),
      addrAt .lp32 file (offset + 4), uintAt file 4 (offset + 8)⟩
  | .lp64 => ⟨uintAt file 4 offset, uintAt file 1 (offset + 4), uintAt file 2 (offset + 6),
      addrAt .lp64 file (offset + 8), uintAt file 8 (offset + 16)⟩

def PT_LOAD : Nat := 1
def SHT_SYMTAB : Nat := 2
def SHT_STRTAB : Nat := 3
def SHT_HASH : Nat := 5
def SHT_DYNSYM : Nat := 11
def SHT_GNU_HASH : Nat := 0x6ffffff6
def STT_OBJECT : Nat := 1
def STT_FUNC : Nat := 2

/-- The program headers. -/
def programHeaders (m : DataModel) (file : File) : List (Phdr m) :=
  let header := readEhdr m file
  (List.range header.ePhnum).map fun i => readPhdr m file (header.ePhoff + i * sizeofPhdr m)

/-- The section headers. -/
def sectionHeaders (m : DataModel) (file : File) : List Shdr :=
  let header := readEhdr m file
  (List.range header.eShnum).map fun i => readShdr m file (header.eShoff + i * sizeofShdr m)

/-- The name of a section, from the table of section names. -/
def sectionName (m : DataModel) (file : File) (shdr : Shdr) : Name :=
  let header := readEhdr m file
  let shstrtab := (readShdr m file (header.eShoff + header.eShstrndx * sizeofShdr m)).shOffset
  cstringAt file (shstrtab + shdr.shName)

/-! ## The image -/

/-- `nbucket_`, `bucket_` and `chain_`. -/
structure SysvHash where
  nbucket : BitVec 32
  bucket : Nat
  chain : Nat

/-- The `gnu_` members. -/
structure GnuHash where
  nbucket : BitVec 32
  symindx : BitVec 32
  bloomSize : BitVec 32
  shift2 : BitVec 32
  bloomFilter : Nat
  bucket : Nat
  chain : Nat

structure ElfImage (m : DataModel) where
  baseAddress : m.Word
  /-- The mapped file; `none` if `header_` is null. -/
  file : Option File
  bias : m.Word
  dynsym : Option Nat
  dynstr : Option Nat
  symtab : Option Nat
  strtab : Option Nat
  symtabCount : Nat
  sysv : Option SysvHash
  gnu : Option GnuHash
  /-- Every name once, with the symbol that was first entered under it. -/
  symbolCache : List (Name × Sym m)

namespace ElfImage

/-- The image before its file is mapped: `bias_` is -1, and every pointer is null. -/
def unmapped (baseAddress : m.Word) : ElfImage m where
  baseAddress := baseAddress
  file := none
  bias := -1
  dynsym := none
  dynstr := none
  symtab := none
  strtab := none
  symtabCount := 0
  sysv := none
  gnu := none
  symbolCache := []

/-- One section header in the constructor. -/
def addSection (file : File) (img : ElfImage m) (shdr : Shdr) : ElfImage m :=
  let hashData (i : Nat) := u32At file (shdr.shOffset + 4 * i)
  if shdr.shType = SHT_DYNSYM then { img with dynsym := some shdr.shOffset }
  else if shdr.shType = SHT_SYMTAB then
    { img with symtab := some shdr.shOffset, symtabCount := shdr.shSize / shdr.shEntsize }
  else if shdr.shType = SHT_STRTAB then
    if sectionName m file shdr = ascii ".strtab" then { img with strtab := some shdr.shOffset }
    else if sectionName m file shdr = ascii ".dynstr" then { img with dynstr := some shdr.shOffset }
    else img
  else if shdr.shType = SHT_HASH then
    let nbucket := hashData 0
    let bucket := shdr.shOffset + 4 * 2
    { img with sysv := some ⟨nbucket, bucket, bucket + 4 * nbucket.toNat⟩ }
  else if shdr.shType = SHT_GNU_HASH then
    let nbucket := hashData 0
    let bloomSize := hashData 2
    let bloomFilter := shdr.shOffset + 16
    let bucket := bloomFilter + m.wordSize * bloomSize.toNat
    { img with gnu := some ⟨nbucket, hashData 1, bloomSize, hashData 3, bloomFilter, bucket,
        bucket + 4 * nbucket.toNat⟩ }
  else img

/-- The constructor, from the mapped file on. -/
def ofFile (baseAddress : m.Word) (file : File) : ElfImage m :=
  let img := { unmapped baseAddress with file := some file }
  let img :=
    match (programHeaders m file).find? (·.pType == PT_LOAD) with
    | some phdr => { img with bias := phdr.pVaddr - phdr.pOffset }
    | none => img
  (sectionHeaders m file).foldl (addSection file) img

end ElfImage

/-- `dlpi_name` and `dlpi_addr` of a loaded library. -/
structure PhdrInfo (m : DataModel) where
  dlpiName : Option Name
  dlpiAddr : m.Word

/-- `strstr`. -/
def strstr (haystack needle : Name) : Bool := decide (needle <:+: haystack)

/-- `findLoadedLibraryInfo`: the first library whose path contains the name. -/
def findLoadedLibraryInfo (loaded : List (PhdrInfo m)) (libraryName : Name) : Option (Name × m.Word) :=
  loaded.findSome? fun info =>
    info.dlpiName.bind fun path => if strstr path libraryName then some (path, info.dlpiAddr) else none

/-- `ElfImage::ElfImage`. `readFile` gives the file that can be opened and mapped under a path. -/
def ElfImage.load (loaded : List (PhdrInfo m)) (readFile : Name → Option File) (libraryName : Name) :
    ElfImage m :=
  match findLoadedLibraryInfo loaded libraryName with
  | none => .unmapped 0
  | some (path, baseAddress) =>
      match readFile path with
      | none => .unmapped baseAddress
      | some file => .ofFile baseAddress file

/-! ## Hashes -/

def calculateSysvHash (name : Name) : BitVec 32 :=
  name.foldl
    (fun h c =>
      let h := (h <<< 4) + c.setWidth 32
      let g := h &&& 0xf0000000
      let h := if g ≠ 0 then h ^^^ (g >>> 24) else h
      h &&& ~~~g)
    0

def calculateGnuHash (name : Name) : BitVec 32 :=
  name.foldl (fun h c => (h <<< 5) + h + c.setWidth 32) 5381

/-! ## Lookups -/

namespace ElfImage

variable (img : ElfImage m)

/-- The mapped bytes. -/
def bytes : File := img.file.getD []

/-- `dynsym_[i]`. -/
def dynsymAt (i : Nat) : Sym m := readSym m img.bytes (img.dynsym.getD 0 + i * sizeofSym m)

/-- `&dynstr_[sym->st_name]`. -/
def dynstrAt (sym : Sym m) : Name := cstringAt img.bytes (img.dynstr.getD 0 + sym.stName)

/-- `sym->st_value` of the symbol a search comes to, 0 if it comes to none. -/
def foundValue (found : Option Nat) : m.Word := found.elim 0 fun i => (img.dynsymAt i).stValue

/-- `findSymbolByGnuHash`; `none` when the fuel runs out. -/
def findSymbolByGnuHash (fuel : Nat) (symbolName : Name) (gnuHash : BitVec 32) : Option m.Word :=
  match img.gnu with
  | none => some 0
  | some gnu =>
      let bloomMaskBits := m.wordSize * 8
      let bloomWord :=
        addrAt m img.bytes (gnu.bloomFilter + m.wordSize * (gnuHash.toNat / bloomMaskBits % gnu.bloomSize.toNat))
      let mask := BitVec.twoPow (8 * m.wordSize) (gnuHash.toNat % bloomMaskBits) |||
        BitVec.twoPow (8 * m.wordSize) ((gnuHash >>> gnu.shift2).toNat % bloomMaskBits)
      if bloomWord &&& mask ≠ mask then some 0
      else
        let symIndex := (u32At img.bytes (gnu.bucket + 4 * (gnuHash % gnu.nbucket).toNat)).toNat
        if symIndex < gnu.symindx.toNat then some 0
        else
          let chain (i : Nat) := u32At img.bytes (gnu.chain + 4 * (i - gnu.symindx.toNat))
          let hit (i : Nat) : Bool :=
            ((chain i ^^^ gnuHash) >>> 1) == 0 && symbolName == img.dynstrAt (img.dynsymAt i)
          let next (i : Nat) := if chain i &&& 1 = 0 then some (i + 1) else none
          (search next hit fuel (some symIndex)).map img.foundValue

/-- `findSymbolBySysvHash`; `none` when the fuel runs out. -/
def findSymbolBySysvHash (fuel : Nat) (symbolName : Name) (sysvHash : BitVec 32) : Option m.Word :=
  match img.sysv with
  | none => some 0
  | some sysv =>
      -- the loop goes on while `n != 0`
      let nonzero (n : BitVec 32) := if n ≠ 0 then some n.toNat else none
      let hit (n : Nat) : Bool := symbolName == img.dynstrAt (img.dynsymAt n)
      let next (n : Nat) := nonzero (u32At img.bytes (sysv.chain + 4 * n))
      let start := nonzero (u32At img.bytes (sysv.bucket + 4 * (sysvHash % sysv.nbucket).toNat))
      (search next hit fuel start).map img.foundValue

/-- A function or object with a size. -/
def cached (sym : Sym m) : Bool :=
  let type := sym.stInfo % 16
  (type == STT_FUNC || type == STT_OBJECT) && decide (0 < sym.stSize)

/-- `symbol_cache_.emplace`: a name that is there keeps its symbol. -/
def emplace (cache : List (Name × Sym m)) (entry : Name × Sym m) : List (Name × Sym m) :=
  if cache.any (·.1 == entry.1) then cache else cache ++ [entry]

/-- The symbols of `.symtab` with their names. -/
def symtabEntries (symtab strtab : Nat) : List (Name × Sym m) :=
  (List.range img.symtabCount).map fun i =>
    let sym := readSym m img.bytes (symtab + i * sizeofSym m)
    (cstringAt img.bytes (strtab + sym.stName), sym)

def buildSymbolCache : ElfImage m :=
  match img.symbolCache, img.symtab, img.strtab with
  | [], some symtab, some strtab =>
      { img with
        symbolCache := (img.symtabEntries symtab strtab).foldl
          (fun cache entry => if cached entry.2 then emplace cache entry else cache) [] }
  | _, _, _ => img

def findSymbolByLinearScan (symbolName : Name) : m.Word × ElfImage m :=
  let img := img.buildSymbolCache
  match img.symbolCache.find? (·.1 == symbolName) with
  | some entry => (entry.2.stValue, img)
  | none => (0, img)

/-- `findSymbolNameByPrefix`. `iterate` is the order in which the hash map is gone through. -/
def findSymbolNameByPrefix (iterate : List (Name × Sym m) → List (Name × Sym m)) (symbolPrefix : Name) :
    Name × ElfImage m :=
  let img := img.buildSymbolCache
  match (iterate img.symbolCache).find? fun entry => symbolPrefix.isPrefixOf entry.1 with
  | some entry => (entry.1, img)
  | none => ([], img)

/-- `findSymbolOffset`; `none` when the fuel runs out. -/
def findSymbolOffset (fuel : Nat) (symbolName : Name) (gnuHash sysvHash : BitVec 32) :
    Option (m.Word × ElfImage m) := do
  let offset ← img.findSymbolByGnuHash fuel symbolName gnuHash
  if offset ≠ 0 then return (offset, img)
  let offset ← img.findSymbolBySysvHash fuel symbolName sysvHash
  if offset ≠ 0 then return (offset, img)
  return img.findSymbolByLinearScan symbolName

/-- `findSymbolAddress`; `none` when the fuel runs out. -/
def findSymbolAddress (fuel : Nat) (symbolName : Name) : Option (m.Word × ElfImage m) := do
  let (offset, img) ←
    img.findSymbolOffset fuel symbolName (calculateGnuHash symbolName) (calculateSysvHash symbolName)
  if offset ≠ 0 ∧ img.baseAddress ≠ 0 then return (img.baseAddress + offset - img.bias, img)
  return (0, img)

/-! ## Runs of lookups -/

/-- A call of the public interface. -/
inductive Call where
  | findSymbolAddress (fuel : Nat) (symbolName : Name)
  | findSymbolNameByPrefix (symbolPrefix : Name)

/-- The image after a call that returns. -/
def step (img : ElfImage m) : Call → Option (ElfImage m)
  | .findSymbolAddress fuel symbolName => (img.findSymbolAddress fuel symbolName).map (·.2)
  | .findSymbolNameByPrefix symbolPrefix => some (img.findSymbolNameByPrefix id symbolPrefix).2

end ElfImage

end NeoZygisk.Common.ElfParser
