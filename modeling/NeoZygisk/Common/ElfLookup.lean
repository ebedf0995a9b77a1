import Mathlib.Tactic.IntervalCases
import NeoZygisk.Common.ElfImage
import NeoZygisk.Lib.Mask
import NeoZygisk.Lib.Selection
import NeoZygisk.Lib.Transition

/-!
# Hashed lookups and the symbol table

What a lookup is for is said by the symbol tables alone: the value of a dynamic symbol of the name that a hash
table covers (`ValueOf`), and of the first function or object of the name in `.symtab` (`symtabValue`). A file
is `WellFormed` if its hash tables are those of its `.dynsym` in the standard formats.

`findSymbol_agrees` says that the lookups of an image, whatever was looked up before, give these values.
-/

set_option autoImplicit false

namespace NeoZygisk.Common.ElfParser

open NeoZygisk.Lib.Bytes
open NeoZygisk.Lib.Chain
open NeoZygisk.Lib.Selection
open NeoZygisk.Lib.Transition

variable {m : DataModel}

/-! ## The symbol tables of a file -/

/-- The last section of a type. -/
def sectionOfType (m : DataModel) (file : File) (type : Nat) : Option Shdr :=
  ((sectionHeaders m file).filter fun shdr => shdr.shType == type).getLast?

/-- The last string table of a name. -/
def stringTable (m : DataModel) (file : File) (name : String) : Option Shdr :=
  ((sectionHeaders m file).filter fun shdr =>
    shdr.shType == SHT_STRTAB && sectionName m file shdr == ascii name).getLast?

/-- The number of dynamic symbols. -/
def dynamicCount (m : DataModel) (file : File) : Nat :=
  (sectionOfType m file SHT_DYNSYM).elim 0 fun shdr => shdr.shSize / sizeofSym m

def dynamicSymbol (m : DataModel) (file : File) (i : Nat) : Sym m :=
  readSym m file ((sectionOfType m file SHT_DYNSYM).elim 0 (·.shOffset) + i * sizeofSym m)

def dynamicName (m : DataModel) (file : File) (i : Nat) : Name :=
  cstringAt file ((stringTable m file ".dynstr").elim 0 (·.shOffset) + (dynamicSymbol m file i).stName)

/-- The section index of an undefined symbol is `SHN_UNDEF`. -/
def Defined (m : DataModel) (file : File) (i : Nat) : Prop := (dynamicSymbol m file i).stShndx ≠ 0

/-- The value of the first function or object with a size that `.symtab` has under the name, 0 if it has
none. -/
def symtabValue (m : DataModel) (file : File) (name : Name) : m.Word :=
  match sectionOfType m file SHT_SYMTAB, stringTable m file ".strtab" with
  | some symtab, some strtab =>
      let symbols := (List.range (symtab.shSize / symtab.shEntsize)).map fun i =>
        readSym m file (symtab.shOffset + i * sizeofSym m)
      let named (sym : Sym m) : Bool :=
        ElfImage.cached sym && cstringAt file (strtab.shOffset + sym.stName) == name
      (symbols.find? named).elim 0 (·.stValue)
  | _, _ => 0

/-- `v` is the value of the symbols of a name that `covers` selects: of the defined one if it is covered, of
some covered one in any case, and 0 if none is. -/
structure ValueOf (m : DataModel) (file : File) (covers : Nat → Prop) (name : Name) (v : m.Word) : Prop where
  defined : ∀ i, covers i → dynamicName m file i = name → Defined m file i →
    v = (dynamicSymbol m file i).stValue
  covered : ∀ i, covers i → dynamicName m file i = name →
    ∃ j, covers j ∧ dynamicName m file j = name ∧ v = (dynamicSymbol m file j).stValue
  absent : (∀ i, covers i → dynamicName m file i ≠ name) → v = 0

/-! ## The formats of the hash tables -/

/-- The GNU hash of a name: times 33, from 5381 on. -/
def standardGnuHash (name : Name) : BitVec 32 := name.foldl (fun h c => h * 33 + c.setWidth 32) 5381

/-- The System V hash of a name has seven hexadecimal digits: times 16, and the digit that leaves them at the top
comes in again at the second place. -/
def standardSysvHash (name : Name) : BitVec 32 :=
  name.foldl
    (fun h c =>
      let sum := h * 16#32 + c.setWidth 32
      sum % 0x10000000#32 ^^^ sum / 0x10000000#32 * 16#32)
    0

section Formats

variable (m) (file : File) (shdr : Shdr)

def gnuNbucket : BitVec 32 := u32At file shdr.shOffset
def gnuSymindx : BitVec 32 := u32At file (shdr.shOffset + 4)
def gnuBloomSize : BitVec 32 := u32At file (shdr.shOffset + 8)
def gnuShift2 : BitVec 32 := u32At file (shdr.shOffset + 12)

/-- The word of the Bloom filter for a hash. -/
def gnuBloomWord (h : BitVec 32) : m.Word :=
  addrAt m file (shdr.shOffset + 16 + m.wordSize * (h.toNat / (m.wordSize * 8) % (gnuBloomSize file shdr).toNat))

/-- The two bits of the Bloom filter for a hash. -/
def gnuBloomBits (h : BitVec 32) : List Nat :=
  [h.toNat % (m.wordSize * 8), (h >>> gnuShift2 file shdr).toNat % (m.wordSize * 8)]

/-- The bucket of a hash. It follows the Bloom filter. -/
def gnuBucket (h : BitVec 32) : BitVec 32 :=
  u32At file (shdr.shOffset + 16 + m.wordSize * (gnuBloomSize file shdr).toNat +
    4 * (h % gnuNbucket file shdr).toNat)

/-- The chain word of a symbol. The chains follow the buckets and begin with the first symbol that is hashed. -/
def gnuChain (i : Nat) : BitVec 32 :=
  u32At file (shdr.shOffset + 16 + m.wordSize * (gnuBloomSize file shdr).toNat +
    4 * (gnuNbucket file shdr).toNat + 4 * (i - (gnuSymindx file shdr).toNat))

/-- The symbols of a bucket are those from the one it names up to the first with an odd chain word. -/
def gnuTable : Table (BitVec 32) Nat where
  start h :=
    if (gnuBucket m file shdr h).toNat < (gnuSymindx file shdr).toNat then none
    else some (gnuBucket m file shdr h).toNat
  next i := if gnuChain m file shdr i &&& 1 = 0 then some (i + 1) else none

/-- The hash table covers the dynamic symbols from the first hashed one on. -/
def GnuCovers (i : Nat) : Prop := (gnuSymindx file shdr).toNat ≤ i ∧ i < dynamicCount m file

structure GnuWellFormed : Prop where
  nbucket_pos : gnuNbucket file shdr ≠ 0
  bloomSize_pos : gnuBloomSize file shdr ≠ 0
  table : (gnuTable m file shdr).WellFormed (GnuCovers m file shdr)
    fun i => standardGnuHash (dynamicName m file i)
  hashed : ∀ i, GnuCovers m file shdr i →
    gnuChain m file shdr i >>> 1 = standardGnuHash (dynamicName m file i) >>> 1
  bloom : ∀ i, GnuCovers m file shdr i →
    ∀ bit ∈ gnuBloomBits m file shdr (standardGnuHash (dynamicName m file i)),
      (gnuBloomWord m file shdr (standardGnuHash (dynamicName m file i))).getLsbD bit = true

def sysvNbucket : BitVec 32 := u32At file shdr.shOffset
def sysvNchain : BitVec 32 := u32At file (shdr.shOffset + 4)

/-- Symbol 0 ends a chain. -/
def symbolOf (n : BitVec 32) : Option Nat := if n ≠ 0 then some n.toNat else none

def sysvTable : Table (BitVec 32) Nat where
  start h := symbolOf (u32At file (shdr.shOffset + 8 + 4 * (h % sysvNbucket file shdr).toNat))
  next i := symbolOf (u32At file (shdr.shOffset + 8 + 4 * (sysvNbucket file shdr).toNat + 4 * i))

/-- The hash table covers the dynamic symbols that have a chain word. -/
def SysvCovers (i : Nat) : Prop := 0 < i ∧ i < (sysvNchain file shdr).toNat

structure SysvWellFormed : Prop where
  nbucket_pos : sysvNbucket file shdr ≠ 0
  nchain_le : (sysvNchain file shdr).toNat ≤ dynamicCount m file
  table : (sysvTable file shdr).WellFormed (SysvCovers file shdr)
    fun i => standardSysvHash (dynamicName m file i)

end Formats

/-- `.gnu.hash` is there and covers the symbol. -/
def CoveredByGnu (m : DataModel) (file : File) (i : Nat) : Prop :=
  ∃ shdr, sectionOfType m file SHT_GNU_HASH = some shdr ∧ GnuCovers m file shdr i

/-- `.hash` is there and covers the symbol. -/
def CoveredBySysv (m : DataModel) (file : File) (i : Nat) : Prop :=
  ∃ shdr, sectionOfType m file SHT_HASH = some shdr ∧ SysvCovers file shdr i

/-- The hash tables are those of the dynamic symbols, among which a name that is defined stands once. -/
structure WellFormed (m : DataModel) (file : File) : Prop where
  gnu : ∀ shdr, sectionOfType m file SHT_GNU_HASH = some shdr → GnuWellFormed m file shdr
  sysv : ∀ shdr, sectionOfType m file SHT_HASH = some shdr → SysvWellFormed m file shdr
  unique : ∀ i j, i < dynamicCount m file → j < dynamicCount m file → Defined m file i →
    dynamicName m file i = dynamicName m file j → i = j

/-! ## What the constructor finds -/

namespace ElfImage

variable {file : File}

theorem addSection_file (img : ElfImage m) (shdr : Shdr) : (addSection file img shdr).file = img.file := by
  simp only [addSection]
  split_ifs <;> rfl

theorem addSection_symbolCache (img : ElfImage m) (shdr : Shdr) :
    (addSection file img shdr).symbolCache = img.symbolCache := by
  simp only [addSection]
  split_ifs <;> rfl

theorem addSection_dynsym (img : ElfImage m) (shdr : Shdr) :
    (addSection file img shdr).dynsym =
      if (shdr.shType == SHT_DYNSYM) = true then some shdr.shOffset else img.dynsym := by
  by_cases h : shdr.shType = SHT_DYNSYM
  · simp [addSection, h]
  · simp only [addSection, beq_iff_eq, h, ↓reduceIte]
    split_ifs <;> rfl

theorem addSection_symtab (img : ElfImage m) (shdr : Shdr) :
    ((addSection file img shdr).symtab, (addSection file img shdr).symtabCount) =
      if (shdr.shType == SHT_SYMTAB) = true then (some shdr.shOffset, shdr.shSize / shdr.shEntsize)
      else (img.symtab, img.symtabCount) := by
  by_cases h : shdr.shType = SHT_SYMTAB
  · simp [addSection, h, SHT_SYMTAB, SHT_DYNSYM]
  · simp only [addSection, beq_iff_eq, h, ↓reduceIte]
    split_ifs <;> rfl

theorem addSection_dynstr (img : ElfImage m) (shdr : Shdr) :
    (addSection file img shdr).dynstr =
      if (shdr.shType == SHT_STRTAB && sectionName m file shdr == ascii ".dynstr") = true then
        some shdr.shOffset
      else img.dynstr := by
  by_cases h : shdr.shType = SHT_STRTAB
  · by_cases hname : sectionName m file shdr = ascii ".dynstr"
    · have hother : ascii ".dynstr" ≠ ascii ".strtab" := by decide
      simp [addSection, h, hname, hother, SHT_SYMTAB, SHT_DYNSYM, SHT_STRTAB]
    · simp only [addSection, Bool.and_eq_true, beq_iff_eq, hname, and_false, ↓reduceIte]
      split_ifs <;> rfl
  · simp only [addSection, Bool.and_eq_true, beq_iff_eq, h, false_and, ↓reduceIte]
    split_ifs <;> rfl

theorem addSection_strtab (img : ElfImage m) (shdr : Shdr) :
    (addSection file img shdr).strtab =
      if (shdr.shType == SHT_STRTAB && sectionName m file shdr == ascii ".strtab") = true then
        some shdr.shOffset
      else img.strtab := by
  by_cases h : shdr.shType = SHT_STRTAB
  · by_cases hname : sectionName m file shdr = ascii ".strtab"
    · simp [addSection, h, hname, SHT_SYMTAB, SHT_DYNSYM, SHT_STRTAB]
    · simp only [addSection, Bool.and_eq_true, beq_iff_eq, hname, and_false, ↓reduceIte]
      split_ifs <;> rfl
  · simp only [addSection, Bool.and_eq_true, beq_iff_eq, h, false_and, ↓reduceIte]
    split_ifs <;> rfl

/-- The members for `.hash`. -/
def sysvHashAt (file : File) (shdr : Shdr) : SysvHash where
  nbucket := sysvNbucket file shdr
  bucket := shdr.shOffset + 8
  chain := shdr.shOffset + 8 + 4 * (sysvNbucket file shdr).toNat

/-- The members for `.gnu.hash`. -/
def gnuHashAt (m : DataModel) (file : File) (shdr : Shdr) : GnuHash where
  nbucket := gnuNbucket file shdr
  symindx := gnuSymindx file shdr
  bloomSize := gnuBloomSize file shdr
  shift2 := gnuShift2 file shdr
  bloomFilter := shdr.shOffset + 16
  bucket := shdr.shOffset + 16 + m.wordSize * (gnuBloomSize file shdr).toNat
  chain := shdr.shOffset + 16 + m.wordSize * (gnuBloomSize file shdr).toNat + 4 * (gnuNbucket file shdr).toNat

theorem addSection_sysv (img : ElfImage m) (shdr : Shdr) :
    (addSection file img shdr).sysv =
      if (shdr.shType == SHT_HASH) = true then some (sysvHashAt file shdr) else img.sysv := by
  by_cases h : shdr.shType = SHT_HASH
  · simp [addSection, h, sysvHashAt, sysvNbucket, SHT_SYMTAB, SHT_DYNSYM, SHT_STRTAB, SHT_HASH]
  · simp only [addSection, beq_iff_eq, h, ↓reduceIte]
    split_ifs <;> rfl

theorem addSection_gnu (img : ElfImage m) (shdr : Shdr) :
    (addSection file img shdr).gnu =
      if (shdr.shType == SHT_GNU_HASH) = true then some (gnuHashAt m file shdr) else img.gnu := by
  by_cases h : shdr.shType = SHT_GNU_HASH
  · simp [addSection, h, gnuHashAt, gnuNbucket, gnuSymindx, gnuBloomSize, gnuShift2, SHT_SYMTAB, SHT_DYNSYM,
      SHT_STRTAB, SHT_HASH, SHT_GNU_HASH]
  · simp only [addSection, beq_iff_eq, h, ↓reduceIte]
    split_ifs <;> rfl

/-- The image before its sections are gone through. -/
def headed (baseAddress : m.Word) (file : File) : ElfImage m :=
  let img := { unmapped baseAddress with file := some file }
  match (programHeaders m file).find? (·.pType == PT_LOAD) with
  | some phdr => { img with bias := phdr.pVaddr - phdr.pOffset }
  | none => img

theorem ofFile_eq (baseAddress : m.Word) (file : File) :
    ofFile baseAddress file = (sectionHeaders m file).foldl (addSection file) (headed baseAddress file) := rfl

/-- Before that every pointer is null. -/
theorem headed_null (baseAddress : m.Word) (file : File) :
    headed baseAddress file =
      { unmapped baseAddress with file := some file, bias := (headed baseAddress file).bias } := by
  rw [headed]
  split <;> rfl

variable (baseAddress : m.Word) (file)

theorem ofFile_file : (ofFile baseAddress file).file = some file := by
  rw [ofFile_eq]
  refine List.foldlRecOn (motive := fun img : ElfImage m => img.file = some file) _ _ ?_ ?_
  · rw [headed_null]
  · intro img himg shdr _
    rw [addSection_file, himg]

theorem ofFile_symbolCache : (ofFile baseAddress file).symbolCache = [] := by
  rw [ofFile_eq]
  refine List.foldlRecOn (motive := fun img : ElfImage m => img.symbolCache = []) _ _ ?_ ?_
  · rw [headed_null]
    rfl
  · intro img himg shdr _
    rw [addSection_symbolCache, himg]

theorem ofFile_dynsym :
    (ofFile baseAddress file).dynsym = (sectionOfType m file SHT_DYNSYM).map (·.shOffset) := by
  rw [ofFile_eq, foldl_lastMatch addSection_dynsym, headed_null, sectionOfType]
  cases ((sectionHeaders m file).filter _).getLast? <;> rfl

theorem ofFile_dynstr :
    (ofFile baseAddress file).dynstr = (stringTable m file ".dynstr").map (·.shOffset) := by
  rw [ofFile_eq, foldl_lastMatch addSection_dynstr, headed_null, stringTable]
  cases ((sectionHeaders m file).filter _).getLast? <;> rfl

theorem ofFile_strtab :
    (ofFile baseAddress file).strtab = (stringTable m file ".strtab").map (·.shOffset) := by
  rw [ofFile_eq, foldl_lastMatch addSection_strtab, headed_null, stringTable]
  cases ((sectionHeaders m file).filter _).getLast? <;> rfl

theorem ofFile_symtab :
    ((ofFile baseAddress file).symtab, (ofFile baseAddress file).symtabCount) =
      (sectionOfType m file SHT_SYMTAB).elim (none, 0) fun shdr =>
        (some shdr.shOffset, shdr.shSize / shdr.shEntsize) := by
  have hlast := @foldl_lastMatch _ _ _ (addSection file) (fun img : ElfImage m => (img.symtab, img.symtabCount)) _ _
    addSection_symtab (headed baseAddress file) (sectionHeaders m file)
  rw [ofFile_eq, hlast, headed_null, sectionOfType]
  rfl

theorem ofFile_sysv :
    (ofFile baseAddress file).sysv = (sectionOfType m file SHT_HASH).map (sysvHashAt file) := by
  rw [ofFile_eq, foldl_lastMatch addSection_sysv, headed_null, sectionOfType]
  cases ((sectionHeaders m file).filter _).getLast? <;> rfl

theorem ofFile_gnu :
    (ofFile baseAddress file).gnu = (sectionOfType m file SHT_GNU_HASH).map (gnuHashAt m file) := by
  rw [ofFile_eq, foldl_lastMatch addSection_gnu, headed_null, sectionOfType]
  cases ((sectionHeaders m file).filter _).getLast? <;> rfl

theorem ofFile_bytes : (ofFile baseAddress file).bytes = file := by
  rw [bytes, ofFile_file, Option.getD_some]

theorem ofFile_dynsymAt (i : Nat) : (ofFile baseAddress file).dynsymAt i = dynamicSymbol m file i := by
  rw [dynsymAt, dynamicSymbol, ofFile_bytes, ofFile_dynsym]
  cases sectionOfType m file SHT_DYNSYM <;> rfl

theorem ofFile_dynstrAt (i : Nat) :
    (ofFile baseAddress file).dynstrAt ((ofFile baseAddress file).dynsymAt i) = dynamicName m file i := by
  rw [dynstrAt, dynamicName, ofFile_dynsymAt, ofFile_bytes, ofFile_dynstr]
  cases stringTable m file ".dynstr" <;> rfl

end ElfImage

/-! ## The hash tables -/

theorem calculateGnuHash_eq (name : Name) : calculateGnuHash name = standardGnuHash name := by
  have htimes : ∀ h : BitVec 32, (h <<< 5) + h = h * 33 := by
    intro h
    apply BitVec.eq_of_toNat_eq
    have hconst : (33 : BitVec 32).toNat = 33 := rfl
    rw [BitVec.toNat_add, BitVec.toNat_shiftLeft, BitVec.toNat_mul, hconst]
    omega
  simp only [calculateGnuHash, standardGnuHash, htimes]

/-- The mask takes the top digit out, and the shift puts it to the second place. -/
theorem foldTopDigit (sum : BitVec 32) :
    ((if sum &&& 0xf0000000 ≠ 0 then sum ^^^ ((sum &&& 0xf0000000) >>> 24) else sum) &&& ~~~(sum &&& 0xf0000000)) =
      sum % 0x10000000#32 ^^^ sum / 0x10000000#32 * 16#32 := by
  have hzero : (if sum &&& 0xf0000000 ≠ 0 then sum ^^^ ((sum &&& 0xf0000000) >>> 24) else sum) =
      sum ^^^ ((sum &&& 0xf0000000) >>> 24) := by
    split_ifs with h
    · rfl
    · rw [of_not_not h]
      exact (BitVec.xor_zero).symm
  have hlow : sum % 0x10000000#32 = sum &&& 0x0fffffff := by
    apply BitVec.eq_of_toNat_eq
    rw [BitVec.toNat_umod, BitVec.toNat_and]
    exact (Nat.and_two_pow_sub_one_eq_mod sum.toNat 28).symm
  have hdiv : sum / 0x10000000#32 = sum >>> 28 := BitVec.udiv_twoPow_eq_of_lt (by decide : 28 < 32)
  have htimes : sum >>> 28 * 16#32 = sum >>> 28 <<< 4 := BitVec.mul_twoPow_eq_shiftLeft (sum >>> 28) 4
  rw [hzero, hlow, hdiv, htimes]
  -- bit by bit
  ext i hi
  interval_cases i <;> simp

theorem calculateSysvHash_eq (name : Name) : calculateSysvHash name = standardSysvHash name := by
  have htimes : ∀ h : BitVec 32, h <<< 4 = h * 16#32 := fun h => (BitVec.mul_twoPow_eq_shiftLeft h 4).symm
  simp only [calculateSysvHash, standardSysvHash, htimes, foldTopDigit]

example : standardSysvHash (ascii "printf") = 0x077905a6#32 := by decide +kernel

namespace ElfImage

variable {file : File} {covers : Nat → Prop} {name : Name}

/-- A search along the chains of a table, for the name, gives the value of the name. -/
theorem valueOf_search (baseAddress : m.Word) {table : Table (BitVec 32) Nat} {hash : Name → BitVec 32}
    (htable : table.WellFormed covers fun i => hash (dynamicName m file i))
    (hcovers : ∀ i, covers i → i < dynamicCount m file)
    (hunique : ∀ i j, i < dynamicCount m file → j < dynamicCount m file → Defined m file i →
      dynamicName m file i = dynamicName m file j → i = j)
    {hit : Nat → Bool} (hname : ∀ i, hit i = true → dynamicName m file i = name)
    (hhit : ∀ i, covers i → dynamicName m file i = name → hit i = true) :
    ∃ bound v, (∀ fuel, bound ≤ fuel →
        (search table.next hit fuel (table.start (hash name))).map (ofFile baseAddress file).foundValue =
          some v) ∧
      ValueOf m file covers name v := by
  obtain ⟨bound, found, hsearch, hfound, hnone⟩ := Table.search_spec htable hit (hash name)
  refine ⟨bound, (ofFile baseAddress file).foundValue found, ?_, ?_⟩
  · intro fuel hfuel
    rw [hsearch fuel hfuel, Option.map_some]
  · cases found with
    | none =>
        have habsent : ∀ i, covers i → dynamicName m file i ≠ name := by
          intro i hi heq
          have hmiss := hnone rfl i hi (by rw [heq])
          rw [hhit i hi heq] at hmiss
          cases hmiss
        exact ⟨fun i hi heq => absurd heq (habsent i hi), fun i hi heq => absurd heq (habsent i hi), fun _ => rfl⟩
    | some j =>
        obtain ⟨hj, hjhit⟩ := hfound j rfl
        have hjname := hname j hjhit
        have hvalue : (ofFile baseAddress file).foundValue (some j) = (dynamicSymbol m file j).stValue := by
          rw [foundValue, Option.elim_some, ofFile_dynsymAt]
        rw [hvalue]
        refine ⟨?_, ?_, ?_⟩
        · intro i hi hiname hdefined
          rw [hunique i j (hcovers i hi) (hcovers j hj) hdefined (hiname.trans hjname.symm)]
        · intro i _ _
          exact ⟨j, hj, hjname, rfl⟩
        · intro habsent
          exact absurd hjname (habsent j hj)

/-- Without a table nothing is covered. -/
theorem valueOf_zero (h : ∀ i, covers i → dynamicName m file i ≠ name) : ValueOf m file covers name 0 :=
  ⟨fun i hi heq => absurd heq (h i hi), fun i hi heq => absurd heq (h i hi), fun _ => rfl⟩

/-- The Bloom filter lets a hash pass if both bits are set. -/
theorem bloomWord_and_mask {x : m.Word} {a b : Nat} (ha : x.getLsbD a = true) (hb : x.getLsbD b = true) :
    x &&& (BitVec.twoPow (8 * m.wordSize) a ||| BitVec.twoPow (8 * m.wordSize) b) =
      BitVec.twoPow (8 * m.wordSize) a ||| BitVec.twoPow (8 * m.wordSize) b := by
  rw [BitVec.and_or_distrib_left, BitVec.and_twoPow, BitVec.and_twoPow, if_pos ha, if_pos hb]

/-- A lookup in `.gnu.hash` tests the Bloom filter and searches the chain of the hash. -/
theorem ofFile_findSymbolByGnuHash (baseAddress : m.Word) {shdr : Shdr}
    (hshdr : sectionOfType m file SHT_GNU_HASH = some shdr) (fuel : Nat) (h : BitVec 32) :
    (ofFile baseAddress file).findSymbolByGnuHash fuel name h =
      if gnuBloomWord m file shdr h &&&
            (BitVec.twoPow (8 * m.wordSize) (h.toNat % (m.wordSize * 8)) |||
              BitVec.twoPow (8 * m.wordSize) ((h >>> gnuShift2 file shdr).toNat % (m.wordSize * 8))) ≠
          BitVec.twoPow (8 * m.wordSize) (h.toNat % (m.wordSize * 8)) |||
            BitVec.twoPow (8 * m.wordSize) ((h >>> gnuShift2 file shdr).toNat % (m.wordSize * 8)) then some 0
      else
        (search (gnuTable m file shdr).next
          (fun i => ((gnuChain m file shdr i ^^^ h) >>> 1) == 0 && name == dynamicName m file i) fuel
          ((gnuTable m file shdr).start h)).map (ofFile baseAddress file).foundValue := by
  have hgnu : (ofFile baseAddress file).gnu = some (gnuHashAt m file shdr) := by
    rw [ofFile_gnu, hshdr, Option.map_some]
  simp only [findSymbolByGnuHash, hgnu, ofFile_dynstrAt, ofFile_bytes]
  refine ite_congr rfl (fun _ => rfl) ?_
  intro _
  simp only [gnuTable]
  split_ifs with hlow hlow' hlow'
  · cases fuel <;> rfl
  · exact absurd hlow hlow'
  · exact absurd hlow' hlow
  · rfl

theorem ofFile_gnu_none (baseAddress : m.Word) (hnone : sectionOfType m file SHT_GNU_HASH = none)
    (fuel : Nat) (h : BitVec 32) : (ofFile baseAddress file).findSymbolByGnuHash fuel name h = some 0 := by
  have hgnu : (ofFile baseAddress file).gnu = none := by
    rw [ofFile_gnu, hnone, Option.map_none]
  simp only [findSymbolByGnuHash, hgnu]

/-- `findSymbolByGnuHash` gives the value of the name among the symbols that `.gnu.hash` covers. -/
theorem findSymbolByGnuHash_valueOf (hfile : WellFormed m file) (baseAddress : m.Word) (name : Name) :
    ∃ bound v, (∀ fuel, bound ≤ fuel →
        (ofFile baseAddress file).findSymbolByGnuHash fuel name (calculateGnuHash name) = some v) ∧
      ValueOf m file (CoveredByGnu m file) name v := by
  cases hshdr : sectionOfType m file SHT_GNU_HASH with
  | none =>
      refine ⟨0, 0, fun fuel _ => ofFile_gnu_none baseAddress hshdr fuel _, valueOf_zero ?_⟩
      rintro i ⟨shdr, hshdr', -⟩
      rw [hshdr] at hshdr'
      cases hshdr'
  | some shdr =>
      have hgnu := hfile.gnu shdr hshdr
      have hcovers : CoveredByGnu m file = GnuCovers m file shdr := by
        funext i
        simp only [CoveredByGnu, hshdr, Option.some.injEq, exists_eq_left']
      rw [hcovers, calculateGnuHash_eq]
      simp only [ofFile_findSymbolByGnuHash baseAddress hshdr]
      split_ifs with hbloom
      · -- a covered symbol of the name would have its bits set
        refine ⟨0, 0, fun _ _ => rfl, valueOf_zero ?_⟩
        rintro i hi rfl
        have hbits := hgnu.bloom i hi
        simp only [gnuBloomBits, List.forall_mem_cons] at hbits
        exact hbloom (bloomWord_and_mask hbits.1 hbits.2.1)
      · refine valueOf_search baseAddress hgnu.table (fun i hi => hi.2) hfile.unique ?_ ?_
        · intro i hi
          simp only [Bool.and_eq_true, beq_iff_eq] at hi
          exact hi.2.symm
        · rintro i hi rfl
          have hxor : (gnuChain m file shdr i ^^^ standardGnuHash (dynamicName m file i)) >>> 1 = 0 := by
            rw [BitVec.ushiftRight_xor_distrib, hgnu.hashed i hi, BitVec.xor_self]
            rfl
          rw [hxor, beq_self_eq_true, beq_self_eq_true]
          rfl

theorem ofFile_findSymbolBySysvHash (baseAddress : m.Word) {shdr : Shdr}
    (hshdr : sectionOfType m file SHT_HASH = some shdr) (fuel : Nat) (h : BitVec 32) :
    (ofFile baseAddress file).findSymbolBySysvHash fuel name h =
      (search (sysvTable file shdr).next (fun i => name == dynamicName m file i) fuel
        ((sysvTable file shdr).start h)).map (ofFile baseAddress file).foundValue := by
  have hsysv : (ofFile baseAddress file).sysv = some (sysvHashAt file shdr) := by
    rw [ofFile_sysv, hshdr, Option.map_some]
  simp only [findSymbolBySysvHash, hsysv, ofFile_dynstrAt, ofFile_bytes]
  rfl

/-- `findSymbolBySysvHash` gives the value of the name among the symbols that `.hash` covers. -/
theorem findSymbolBySysvHash_valueOf (hfile : WellFormed m file) (baseAddress : m.Word) (name : Name) :
    ∃ bound v, (∀ fuel, bound ≤ fuel →
        (ofFile baseAddress file).findSymbolBySysvHash fuel name (calculateSysvHash name) = some v) ∧
      ValueOf m file (CoveredBySysv m file) name v := by
  cases hshdr : sectionOfType m file SHT_HASH with
  | none =>
      have hsysv : (ofFile baseAddress file).sysv = none := by
        rw [ofFile_sysv, hshdr, Option.map_none]
      refine ⟨0, 0, fun fuel _ => by simp only [findSymbolBySysvHash, hsysv], valueOf_zero ?_⟩
      rintro i ⟨shdr, hshdr', -⟩
      rw [hshdr] at hshdr'
      cases hshdr'
  | some shdr =>
      have hsysv := hfile.sysv shdr hshdr
      have hcovers : CoveredBySysv m file = SysvCovers file shdr := by
        funext i
        simp only [CoveredBySysv, hshdr, Option.some.injEq, exists_eq_left']
      rw [hcovers, calculateSysvHash_eq]
      simp only [ofFile_findSymbolBySysvHash baseAddress hshdr]
      refine valueOf_search baseAddress hsysv.table ?_ hfile.unique ?_ ?_
      · intro i hi
        exact Nat.lt_of_lt_of_le hi.2 hsysv.nchain_le
      · intro i hi
        exact (beq_iff_eq.mp hi).symm
      · rintro i - rfl
        exact beq_self_eq_true _

/-! ## The cache -/

/-- What `emplace` changes for a name. -/
theorem find?_emplace (cache : List (Name × Sym m)) (entry : Name × Sym m) (name : Name) :
    (emplace cache entry).find? (·.1 == name) =
      (cache.find? (·.1 == name)).or (if entry.1 == name then some entry else none) := by
  rw [emplace]
  split
  · rename_i hany
    split
    · -- the name is there already
      rename_i hname
      rw [beq_iff_eq.mp hname] at hany
      obtain ⟨first, hfirst⟩ := Option.isSome_iff_exists.mp (List.find?_isSome.mpr (List.any_eq_true.mp hany))
      rw [hfirst]
      rfl
    · rw [Option.or_none]
  · rw [List.find?_append, List.find?_singleton]

/-- The cache has the first entry that qualifies under its name. -/
theorem find?_foldl_emplace (entries cache : List (Name × Sym m)) (name : Name) :
    (entries.foldl (fun cache entry => if cached entry.2 then emplace cache entry else cache) cache).find?
        (·.1 == name) =
      (cache.find? (·.1 == name)).or (entries.find? fun entry => cached entry.2 && entry.1 == name) := by
  induction entries generalizing cache with
  | nil => rw [List.foldl_nil, List.find?_nil, Option.or_none]
  | cons entry entries ih =>
      rw [List.foldl_cons, ih, List.find?_cons]
      cases hcached : cached entry.2 with
      | true =>
          rw [if_pos rfl, find?_emplace, Option.or_assoc, Bool.true_and]
          cases entry.1 == name <;> rfl
      | false =>
          rw [if_neg (by simp), Bool.false_and]

/-- Building the cache again changes nothing. -/
theorem buildSymbolCache_idem (img : ElfImage m) :
    img.buildSymbolCache.buildSymbolCache = img.buildSymbolCache := by
  obtain ⟨baseAddress, file, bias, dynsym, dynstr, symtab, strtab, symtabCount, sysv, gnu, cache⟩ := img
  cases cache with
  | cons entry cache => rfl
  | nil =>
      cases symtab with
      | none => rfl
      | some symtab =>
          cases strtab with
          | none => rfl
          | some strtab =>
              simp only [buildSymbolCache]
              -- it is empty again or not looked at
              split
              · rename_i hempty hsymtab hstrtab
                cases hsymtab
                cases hstrtab
                rfl
              · rfl

/-- The lookups in the hash tables do not look at the cache. -/
theorem buildSymbolCache_tables (img : ElfImage m) :
    ∃ cache, img.buildSymbolCache = { img with symbolCache := cache } := by
  rw [buildSymbolCache]
  split
  · exact ⟨_, rfl⟩
  · exact ⟨img.symbolCache, rfl⟩

/-- The cache that is built from an empty one. -/
theorem buildSymbolCache_symbolCache {img : ElfImage m} (hempty : img.symbolCache = []) :
    img.buildSymbolCache.symbolCache =
      match img.symtab, img.strtab with
      | some symtab, some strtab =>
          (img.symtabEntries symtab strtab).foldl
            (fun cache entry => if cached entry.2 then emplace cache entry else cache) []
      | _, _ => [] := by
  rw [buildSymbolCache, hempty]
  cases img.symtab with
  | none => exact hempty
  | some symtab =>
      cases img.strtab with
      | none => exact hempty
      | some strtab => rfl

theorem findSymbolByLinearScan_fst (img : ElfImage m) (name : Name) :
    (img.findSymbolByLinearScan name).1 =
      (img.buildSymbolCache.symbolCache.find? (·.1 == name)).elim 0 (·.2.stValue) := by
  rw [findSymbolByLinearScan]
  cases img.buildSymbolCache.symbolCache.find? (·.1 == name) <;> rfl

/-- The linear scan gives the first function or object of the name. -/
theorem ofFile_findSymbolByLinearScan (baseAddress : m.Word) (file : File) (name : Name) :
    ((ofFile baseAddress file).findSymbolByLinearScan name).1 = symtabValue m file name := by
  have hsymtab := ofFile_symtab file baseAddress
  rw [findSymbolByLinearScan_fst, buildSymbolCache_symbolCache (ofFile_symbolCache file baseAddress),
    ofFile_strtab, symtabValue]
  cases hsection : sectionOfType m file SHT_SYMTAB with
  | none =>
      rw [hsection] at hsymtab
      rw [(Prod.mk.inj hsymtab).1]
      rfl
  | some symtab =>
      rw [hsection] at hsymtab
      rw [(Prod.mk.inj hsymtab).1]
      cases stringTable m file ".strtab" with
      | none => rfl
      | some strtab =>
          simp only [Option.map_some, find?_foldl_emplace, List.find?_nil, Option.none_or]
          rw [symtabEntries, (Prod.mk.inj hsymtab).2, ofFile_bytes, List.find?_map, List.find?_map]
          simp only [Function.comp_def]
          cases (List.range (symtab.shSize / symtab.shEntsize)).find? _ <;> rfl

/-! ## Runs -/

theorem findSymbolByLinearScan_snd (img : ElfImage m) (name : Name) :
    (img.findSymbolByLinearScan name).2 = img.buildSymbolCache := by
  rw [findSymbolByLinearScan]
  cases img.buildSymbolCache.symbolCache.find? (·.1 == name) <;> rfl

/-- A lookup that returns is that of the hash tables or the linear scan. -/
theorem findSymbolOffset_eq_some {img : ElfImage m} {fuel : Nat} {name : Name} {gnuHash sysvHash : BitVec 32}
    {result : m.Word × ElfImage m} :
    img.findSymbolOffset fuel name gnuHash sysvHash = some result ↔
      ∃ g, img.findSymbolByGnuHash fuel name gnuHash = some g ∧
        if g ≠ 0 then result = (g, img)
        else
          ∃ s, img.findSymbolBySysvHash fuel name sysvHash = some s ∧
            result = if s ≠ 0 then (s, img) else img.findSymbolByLinearScan name := by
  simp only [findSymbolOffset, Option.bind_eq_bind, Option.bind_eq_some_iff]
  refine exists_congr fun g => and_congr_right fun _ => ?_
  split_ifs
  · exact ⟨fun h => (Option.some.inj h).symm, fun h => h ▸ rfl⟩
  · rw [Option.bind_eq_some_iff]
    refine exists_congr fun s => and_congr_right fun _ => ?_
    split_ifs
    · exact ⟨fun h => (Option.some.inj h).symm, fun h => h ▸ rfl⟩
    · exact ⟨fun h => (Option.some.inj h).symm, fun h => h ▸ rfl⟩

theorem findSymbolOffset_image {img : ElfImage m} {fuel : Nat} {name : Name} {gnuHash sysvHash : BitVec 32}
    {result : m.Word × ElfImage m} (h : img.findSymbolOffset fuel name gnuHash sysvHash = some result) :
    result.2 = img ∨ result.2 = img.buildSymbolCache := by
  obtain ⟨g, -, h⟩ := findSymbolOffset_eq_some.mp h
  split_ifs at h
  · exact .inl (h ▸ rfl)
  · obtain ⟨s, -, h⟩ := h
    split_ifs at h
    · exact .inl (h ▸ rfl)
    · exact .inr (h ▸ findSymbolByLinearScan_snd img name)

/-- A call builds the cache or leaves the image as it is. -/
theorem step_cases {img img' : ElfImage m} {call : Call} (h : step img call = some img') :
    img' = img ∨ img' = img.buildSymbolCache := by
  cases call with
  | findSymbolAddress fuel name =>
      obtain ⟨⟨v, t⟩, haddress, rfl⟩ := Option.map_eq_some_iff.mp h
      obtain ⟨⟨offset, t'⟩, hoffset, hresult⟩ := Option.bind_eq_some_iff.mp haddress
      have himage := findSymbolOffset_image hoffset
      dsimp only at hresult himage
      split_ifs at hresult
      · cases hresult
        exact himage
      · cases hresult
        exact himage
  | findSymbolNameByPrefix symbolPrefix =>
      obtain rfl := Option.some.inj h
      right
      rw [findSymbolNameByPrefix]
      cases (id img.buildSymbolCache.symbolCache).find? _ <;> rfl

/-- The image after any calls is as it was loaded, or with its cache built. -/
theorem reach_cases {img img' : ElfImage m} (h : Reach step img img') :
    img' = img ∨ img' = img.buildSymbolCache := by
  refine GuardedReach.invariant (I := fun t => t = img ∨ t = img.buildSymbolCache) h (.inl rfl) ?_
  intro t call t' ht _ hstep
  rcases step_cases hstep with rfl | rfl
  · exact ht
  · rcases ht with rfl | rfl
    · exact .inr rfl
    · exact .inr (buildSymbolCache_idem img)

/-- Lookups give the same whatever was looked up before. -/
theorem reach_lookups {img img' : ElfImage m} (h : Reach step img img') (fuel : Nat) (name : Name)
    (hash : BitVec 32) :
    img'.findSymbolByGnuHash fuel name hash = img.findSymbolByGnuHash fuel name hash ∧
      img'.findSymbolBySysvHash fuel name hash = img.findSymbolBySysvHash fuel name hash ∧
      (img'.findSymbolByLinearScan name).1 = (img.findSymbolByLinearScan name).1 := by
  rcases reach_cases h with rfl | rfl
  · exact ⟨rfl, rfl, rfl⟩
  · refine ⟨?_, ?_, ?_⟩
    · obtain ⟨cache, hcache⟩ := buildSymbolCache_tables img
      rw [hcache]
      rfl
    · obtain ⟨cache, hcache⟩ := buildSymbolCache_tables img
      rw [hcache]
      rfl
    · rw [findSymbolByLinearScan_fst, findSymbolByLinearScan_fst, buildSymbolCache_idem]

end ElfImage

/-! ## Agreement with the symbol tables -/

theorem ValueOf.exists_of_ne_zero {file : File} {covers : Nat → Prop} {name : Name} {v : m.Word}
    (h : ValueOf m file covers name v) (hv : v ≠ 0) : ∃ i, covers i ∧ dynamicName m file i = name := by
  by_contra hnone
  apply hv
  apply h.absent
  intro i hi heq
  exact hnone ⟨i, hi, heq⟩

/-- The values of two tables, the second of which counts where the first gives 0, are those of the symbols that
one of them covers. -/
theorem ValueOf.orElse {file : File} {covers covers' : Nat → Prop} {name : Name} {v v' : m.Word}
    (hv : ValueOf m file covers name v) (hv' : ValueOf m file covers' name v')
    (hunique : ∀ i j, covers i ∨ covers' i → covers j ∨ covers' j → Defined m file i →
      dynamicName m file i = dynamicName m file j → i = j) :
    ValueOf m file (fun i => covers i ∨ covers' i) name (if v ≠ 0 then v else v') := by
  split_ifs with hzero
  · -- the first table has the name
    obtain ⟨j, hj, hjname⟩ := hv.exists_of_ne_zero hzero
    refine ⟨?_, ?_, ?_⟩
    · intro i hi hiname hdefined
      obtain rfl := hunique i j hi (.inl hj) hdefined (hiname.trans hjname.symm)
      exact hv.defined i hj hiname hdefined
    · intro i _ _
      obtain ⟨k, hk, hkname, hvalue⟩ := hv.covered j hj hjname
      exact ⟨k, .inl hk, hkname, hvalue⟩
    · intro habsent
      exact absurd hjname (habsent j (.inl hj))
  · have hv0 : v = 0 := of_not_not hzero
    by_cases hother : ∃ j, covers' j ∧ dynamicName m file j = name
    · -- the second table has the name
      obtain ⟨j, hj, hjname⟩ := hother
      refine ⟨?_, ?_, ?_⟩
      · intro i hi hiname hdefined
        obtain rfl := hunique i j hi (.inr hj) hdefined (hiname.trans hjname.symm)
        exact hv'.defined i hj hiname hdefined
      · intro i _ _
        obtain ⟨k, hk, hkname, hvalue⟩ := hv'.covered j hj hjname
        exact ⟨k, .inr hk, hkname, hvalue⟩
      · intro habsent
        exact absurd hjname (habsent j (.inr hj))
    · -- if the first one has it, its value is 0
      have hnone : ∀ j, covers' j → dynamicName m file j ≠ name := fun j hj heq => hother ⟨j, hj, heq⟩
      rw [hv'.absent hnone, ← hv0]
      refine ⟨?_, ?_, fun _ => hv0⟩
      · rintro i (hi | hi) hiname hdefined
        · exact hv.defined i hi hiname hdefined
        · exact absurd hiname (hnone i hi)
      · rintro i (hi | hi) hiname
        · obtain ⟨k, hk, hkname, hvalue⟩ := hv.covered i hi hiname
          exact ⟨k, .inl hk, hkname, hvalue⟩
        · exact absurd hiname (hnone i hi)

/-- A symbol that a hash table covers is a dynamic symbol. -/
theorem WellFormed.lt_of_covered {file : File} (hfile : WellFormed m file) {i : Nat}
    (h : CoveredByGnu m file i ∨ CoveredBySysv m file i) : i < dynamicCount m file := by
  rcases h with ⟨shdr, -, hi⟩ | ⟨shdr, hshdr, hi⟩
  · exact hi.2
  · exact Nat.lt_of_lt_of_le hi.2 (hfile.sysv shdr hshdr).nchain_le

/-- With enough fuel, and whatever was looked up before, a lookup in a hash table gives the value of the name
among the symbols that it covers, and `findSymbolOffset` the value among those that one of them covers, or else
that of the first function or object of the name. -/
theorem findSymbol_agrees {file : File} (hfile : WellFormed m file) {baseAddress : m.Word} {img : ElfImage m}
    (hreach : Reach ElfImage.step (ElfImage.ofFile baseAddress file) img) (name : Name) :
    ∃ bound, ∀ fuel, bound ≤ fuel →
      (∃ v, img.findSymbolByGnuHash fuel name (calculateGnuHash name) = some v ∧
        ValueOf m file (CoveredByGnu m file) name v) ∧
      (∃ v, img.findSymbolBySysvHash fuel name (calculateSysvHash name) = some v ∧
        ValueOf m file (CoveredBySysv m file) name v) ∧
      ∃ v, (img.findSymbolOffset fuel name (calculateGnuHash name) (calculateSysvHash name)).map (·.1) =
          some (if v ≠ 0 then v else symtabValue m file name) ∧
        ValueOf m file (fun i => CoveredByGnu m file i ∨ CoveredBySysv m file i) name v := by
  obtain ⟨bound, g, hgnu, hg⟩ := ElfImage.findSymbolByGnuHash_valueOf hfile baseAddress name
  obtain ⟨bound', s, hsysv, hs⟩ := ElfImage.findSymbolBySysvHash_valueOf hfile baseAddress name
  refine ⟨max bound bound', ?_⟩
  intro fuel hfuel
  have hgnu' : img.findSymbolByGnuHash fuel name (calculateGnuHash name) = some g := by
    rw [(ElfImage.reach_lookups hreach fuel name _).1, hgnu fuel (le_of_max_le_left hfuel)]
  have hsysv' : img.findSymbolBySysvHash fuel name (calculateSysvHash name) = some s := by
    rw [(ElfImage.reach_lookups hreach fuel name _).2.1, hsysv fuel (le_of_max_le_right hfuel)]
  have hscan : (img.findSymbolByLinearScan name).1 = symtabValue m file name := by
    rw [(ElfImage.reach_lookups hreach fuel name 0).2.2, ElfImage.ofFile_findSymbolByLinearScan]
  refine ⟨⟨g, hgnu', hg⟩, ⟨s, hsysv', hs⟩, if g ≠ 0 then g else s, ?_, ?_⟩
  · simp only [ElfImage.findSymbolOffset, hgnu', hsysv', Option.bind_eq_bind, Option.bind_some]
    by_cases hgnuFound : g ≠ 0
    · rw [if_pos hgnuFound, if_pos hgnuFound, if_pos hgnuFound]
      rfl
    · rw [if_neg hgnuFound, if_neg hgnuFound]
      by_cases hsysvFound : s ≠ 0
      · rw [if_pos hsysvFound, if_pos hsysvFound]
        rfl
      · -- neither table has the name: the scan is left
        rw [if_neg hsysvFound, if_neg hsysvFound, ← hscan]
        rfl
  · apply hg.orElse hs
    intro i j hi hj hdefined heq
    exact hfile.unique i j (hfile.lt_of_covered hi) (hfile.lt_of_covered hj) hdefined heq

/-! ## A small library -/

/-- Numbers of four bytes. -/
def words (ns : List Nat) : File := ns.flatMap (toBytes 4)

/-- A 32 bit library linked at an address, with a `bar`, a `baz` and a `foo` in both hash tables. -/
def smallLibrary (linkedAt : Nat) : File :=
  -- the ELF header
  words [0, 0, 0, 0, 0, 0, 0, 52, 252, 0, 0] ++ toBytes 2 1 ++ toBytes 2 0 ++ toBytes 2 5 ++ toBytes 2 1 ++
  -- the program header
  words [1, 0, linkedAt, 0, 0, 0, 0, 0] ++
  -- `.dynstr`, at 84
  ascii "\x00foo\x00bar\x00baz\x00.dynstr\x00\x00\x00\x00" ++
  -- `.dynsym`, at 108
  words [0, 0, 0, 0, 5, linkedAt + 0x200, 4, 0x10012, 9, linkedAt + 0x300, 4, 0x10012,
    1, linkedAt + 0x100, 4, 0x10012] ++
  -- `.gnu.hash`, at 172, with two buckets
  words [2, 1, 1, 5, 335544932, 1, 3, 193487034, 193487043, 193491849] ++
  -- `.hash`, at 212, with four buckets
  words [4, 4, 0, 0, 1, 3, 0, 2, 0, 0] ++
  -- the section headers, at 252
  words [0, 0, 0, 0, 0, 0, 0, 0, 0, 0] ++
  words [13, SHT_STRTAB, 0, 0, 84, 24, 0, 0, 0, 0] ++
  words [0, SHT_DYNSYM, 0, 0, 108, 64, 1, 0, 0, 16] ++
  words [0, SHT_GNU_HASH, 0, 0, 172, 40, 2, 0, 0, 4] ++
  words [0, SHT_HASH, 0, 0, 212, 40, 2, 0, 0, 4]

theorem smallLibrary_dynamicCount : dynamicCount .lp32 (smallLibrary 0x1000) = 4 := by decide +kernel

/-- The chains of `.gnu.hash`: `foo` has an odd hash. -/
def gnuChains (b : BitVec 32) : List Nat := if b = 0 then [1, 2] else [3]

/-- The chains of `.hash`. -/
def sysvChains (b : BitVec 32) : List Nat := if b = 2 then [1, 2] else if b = 3 then [3] else []

/-- A chain of the first two symbols. -/
theorem trail_bar_baz {next : Nat → Option Nat} (hbar : next 1 = some 2) (hbaz : next 2 = none) :
    Trail next (some 1) [1, 2] := by
  apply Trail.step
  rw [hbar]
  apply Trail.step
  rw [hbaz]
  exact Trail.stop

/-- A chain of the last symbol. -/
theorem trail_foo {next : Nat → Option Nat} (hfoo : next 3 = none) : Trail next (some 3) [3] := by
  apply Trail.step
  rw [hfoo]
  exact Trail.stop

theorem smallLibrary_gnu :
    GnuWellFormed .lp32 (smallLibrary 0x1000) ⟨0, SHT_GNU_HASH, 172, 40, 4⟩ := by
  have hnbucket : gnuNbucket (smallLibrary 0x1000) ⟨0, SHT_GNU_HASH, 172, 40, 4⟩ = 2#32 := by decide +kernel
  have hsymindx : gnuSymindx (smallLibrary 0x1000) ⟨0, SHT_GNU_HASH, 172, 40, 4⟩ = 1#32 := by decide +kernel
  have hcovers : ∀ i, GnuCovers .lp32 (smallLibrary 0x1000) ⟨0, SHT_GNU_HASH, 172, 40, 4⟩ i ↔
      i = 1 ∨ i = 2 ∨ i = 3 := by
    intro i
    have hone : (1#32).toNat = 1 := rfl
    rw [GnuCovers, hsymindx, smallLibrary_dynamicCount, hone]
    omega
  constructor
  · rw [hnbucket]
    decide
  · decide +kernel
  · refine .of_buckets (fun h => h % 2#32) gnuChains ?_ ?_ ?_
    · intro k
      have hstart : (gnuTable .lp32 (smallLibrary 0x1000) ⟨0, SHT_GNU_HASH, 172, 40, 4⟩).start k =
          let first := u32At (smallLibrary 0x1000) (192 + 4 * (k % 2#32).toNat)
          if first.toNat < 1 then none else some first.toNat := by
        simp only [gnuTable, gnuBucket, hnbucket, hsymindx]
        rfl
      have hlt : k % 2#32 < 2#32 := BitVec.umod_lt k (by decide)
      have hk : k % 2#32 = 0#32 ∨ k % 2#32 = 1#32 := by bv_omega
      rcases hk with hk | hk
      · have hfirst : (gnuTable .lp32 (smallLibrary 0x1000) ⟨0, SHT_GNU_HASH, 172, 40, 4⟩).start k = some 1 := by
          rw [hstart, hk]
          decide +kernel
        rw [hfirst, hk]
        exact trail_bar_baz (by decide +kernel) (by decide +kernel)
      · have hfirst : (gnuTable .lp32 (smallLibrary 0x1000) ⟨0, SHT_GNU_HASH, 172, 40, 4⟩).start k = some 3 := by
          rw [hstart, hk]
          decide +kernel
        rw [hfirst, hk]
        exact trail_foo (by decide +kernel)
    · intro b i hi
      rw [hcovers]
      rw [gnuChains] at hi
      split_ifs at hi
      · simp only [List.mem_cons, List.not_mem_nil, or_false] at hi
        omega
      · simp only [List.mem_cons, List.not_mem_nil, or_false] at hi
        omega
    · intro i hi
      rcases (hcovers i).mp hi with rfl | rfl | rfl
      · decide +kernel
      · decide +kernel
      · decide +kernel
  · intro i hi
    rcases (hcovers i).mp hi with rfl | rfl | rfl
    · decide +kernel
    · decide +kernel
    · decide +kernel
  · intro i hi
    rcases (hcovers i).mp hi with rfl | rfl | rfl
    · decide +kernel
    · decide +kernel
    · decide +kernel

theorem smallLibrary_sysv : SysvWellFormed .lp32 (smallLibrary 0x1000) ⟨0, SHT_HASH, 212, 40, 4⟩ := by
  have hnbucket : sysvNbucket (smallLibrary 0x1000) ⟨0, SHT_HASH, 212, 40, 4⟩ = 4#32 := by decide +kernel
  have hnchain : sysvNchain (smallLibrary 0x1000) ⟨0, SHT_HASH, 212, 40, 4⟩ = 4#32 := by decide +kernel
  have hfour : (4#32).toNat = 4 := rfl
  have hcovers : ∀ i, SysvCovers (smallLibrary 0x1000) ⟨0, SHT_HASH, 212, 40, 4⟩ i ↔ i = 1 ∨ i = 2 ∨ i = 3 := by
    intro i
    rw [SysvCovers, hnchain, hfour]
    omega
  constructor
  · rw [hnbucket]
    decide
  · rw [hnchain, smallLibrary_dynamicCount, hfour]
  · refine .of_buckets (fun h => h % 4#32) sysvChains ?_ ?_ ?_
    · intro k
      have hstart : (sysvTable (smallLibrary 0x1000) ⟨0, SHT_HASH, 212, 40, 4⟩).start k =
          symbolOf (u32At (smallLibrary 0x1000) (220 + 4 * (k % 4#32).toNat)) := by
        simp only [sysvTable, hnbucket]
      have hlt : k % 4#32 < 4#32 := BitVec.umod_lt k (by decide)
      have hk : k % 4#32 = 0#32 ∨ k % 4#32 = 1#32 ∨ k % 4#32 = 2#32 ∨ k % 4#32 = 3#32 := by bv_omega
      rcases hk with hk | hk | hk | hk
      · have hfirst : (sysvTable (smallLibrary 0x1000) ⟨0, SHT_HASH, 212, 40, 4⟩).start k = none := by
          rw [hstart, hk]
          decide +kernel
        rw [hfirst, hk]
        exact Trail.stop
      · have hfirst : (sysvTable (smallLibrary 0x1000) ⟨0, SHT_HASH, 212, 40, 4⟩).start k = none := by
          rw [hstart, hk]
          decide +kernel
        rw [hfirst, hk]
        exact Trail.stop
      · have hfirst : (sysvTable (smallLibrary 0x1000) ⟨0, SHT_HASH, 212, 40, 4⟩).start k = some 1 := by
          rw [hstart, hk]
          decide +kernel
        rw [hfirst, hk]
        exact trail_bar_baz (by decide +kernel) (by decide +kernel)
      · have hfirst : (sysvTable (smallLibrary 0x1000) ⟨0, SHT_HASH, 212, 40, 4⟩).start k = some 3 := by
          rw [hstart, hk]
          decide +kernel
        rw [hfirst, hk]
        exact trail_foo (by decide +kernel)
    · intro b i hi
      rw [hcovers]
      rw [sysvChains] at hi
      split_ifs at hi
      · simp only [List.mem_cons, List.not_mem_nil, or_false] at hi
        omega
      · simp only [List.mem_cons, List.not_mem_nil, or_false] at hi
        omega
      · exact absurd hi List.not_mem_nil
    · intro i hi
      rcases (hcovers i).mp hi with rfl | rfl | rfl
      · decide +kernel
      · decide +kernel
      · decide +kernel

theorem smallLibrary_wellFormed : WellFormed .lp32 (smallLibrary 0x1000) := by
  constructor
  · intro shdr hshdr
    have hsection : sectionOfType .lp32 (smallLibrary 0x1000) SHT_GNU_HASH =
        some ⟨0, SHT_GNU_HASH, 172, 40, 4⟩ := by decide +kernel
    obtain rfl := Option.some.inj (hsection.symm.trans hshdr)
    exact smallLibrary_gnu
  · intro shdr hshdr
    have hsection : sectionOfType .lp32 (smallLibrary 0x1000) SHT_HASH = some ⟨0, SHT_HASH, 212, 40, 4⟩ := by
      decide +kernel
    obtain rfl := Option.some.inj (hsection.symm.trans hshdr)
    exact smallLibrary_sysv
  · rw [smallLibrary_dynamicCount]
    have hnames : ∀ i < 4, ∀ j < 4, (dynamicSymbol .lp32 (smallLibrary 0x1000) i).stShndx ≠ 0 →
        dynamicName .lp32 (smallLibrary 0x1000) i = dynamicName .lp32 (smallLibrary 0x1000) j → i = j := by
      decide +kernel
    intro i j hi hj hdefined heq
    exact hnames i hi j hj hdefined heq

/-- `baz`, the second one of its chains, is found through either table. -/
theorem findSymbol_baz :
    ∃ bound, ∀ fuel, bound ≤ fuel →
      (ElfImage.ofFile (m := .lp32) 0x70000000 (smallLibrary 0x1000)).findSymbolByGnuHash fuel (ascii "baz")
          (calculateGnuHash (ascii "baz")) = some 0x1300 ∧
        (ElfImage.ofFile (m := .lp32) 0x70000000 (smallLibrary 0x1000)).findSymbolBySysvHash fuel (ascii "baz")
          (calculateSysvHash (ascii "baz")) = some 0x1300 ∧
        ((ElfImage.ofFile (m := .lp32) 0x70000000 (smallLibrary 0x1000)).findSymbolOffset fuel (ascii "baz")
          (calculateGnuHash (ascii "baz")) (calculateSysvHash (ascii "baz"))).map (·.1) = some 0x1300 := by
  obtain ⟨bound, hbound⟩ := findSymbol_agrees smallLibrary_wellFormed
    (.refl : Reach ElfImage.step (.ofFile 0x70000000 (smallLibrary 0x1000)) _) (ascii "baz")
  refine ⟨bound, ?_⟩
  intro fuel hfuel
  obtain ⟨⟨g, hgnu, hg⟩, ⟨s, hsysv, hs⟩, v, hoffset, hv⟩ := hbound fuel hfuel
  have hgnuCovers : CoveredByGnu .lp32 (smallLibrary 0x1000) 2 := by
    refine ⟨⟨0, SHT_GNU_HASH, 172, 40, 4⟩, by decide +kernel, ?_⟩
    exact ⟨by decide +kernel, by decide +kernel⟩
  have hsysvCovers : CoveredBySysv .lp32 (smallLibrary 0x1000) 2 := by
    refine ⟨⟨0, SHT_HASH, 212, 40, 4⟩, by decide +kernel, ?_⟩
    exact ⟨by decide +kernel, by decide +kernel⟩
  have hname : dynamicName .lp32 (smallLibrary 0x1000) 2 = ascii "baz" := by decide +kernel
  have hdefined : Defined .lp32 (smallLibrary 0x1000) 2 := by
    show _ ≠ _
    decide +kernel
  have hvalue : (dynamicSymbol .lp32 (smallLibrary 0x1000) 2).stValue = 0x1300 := by decide +kernel
  have hg' : g = 0x1300 := (hg.defined 2 hgnuCovers hname hdefined).trans hvalue
  have hs' : s = 0x1300 := (hs.defined 2 hsysvCovers hname hdefined).trans hvalue
  have hv' : v = 0x1300 := (hv.defined 2 (.inl hgnuCovers) hname hdefined).trans hvalue
  refine ⟨hgnu.trans (congrArg some hg'), hsysv.trans (congrArg some hs'), ?_⟩
  rw [hoffset, hv']
  rfl

end NeoZygisk.Common.ElfParser
