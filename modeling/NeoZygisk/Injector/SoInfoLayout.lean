import NeoZygisk.Common.DataModel
import NeoZygisk.Injector.SoInfoRelease
import NeoZygisk.Lib.StagedSearch

/-!
# Where the linker keeps what

The linker's records are read at offsets that differ between versions of Android. `findHeuristicOffsets` goes once
over the words of two records that it knows, looking for the size, the link to the next record, the `link_map` of the
linker itself and, unless there is a function that tells it, the path.

It takes for each field the first place that looks like it, behind the field before, and reads the texts that places
on the way point to. `findHeuristicOffsets_eq_iff` says when these are the right ones, and `solist_read` adds that the
list is then read as the linker has it.
-/

set_option autoImplicit false

namespace NeoZygisk.Injector.SoInfoLayout

open NeoZygisk.Common
open NeoZygisk.Injector.SoInfoRelease
open NeoZygisk.Lib.StagedSearch

/-! ## The search -/

/-- What is read at an address: a word, a flag, a text up to its NUL, and a `std::string` with its size and its text.
A text is `none` if it cannot be read. -/
structure Memory where
  word : Nat → Nat
  flag : Nat → Bool
  cString : Nat → Option String
  stringSize : Nat → Nat
  stringText : Nat → Option String

/-- What `initialize` hands on: the name of the linker, the records it knows (`vdso` may be null), and the function
for the path if there is one. -/
structure Known where
  model : DataModel
  mem : Memory
  linkerName : String
  somain : Nat
  solinker : Nat
  vdso : Nat
  getRealpathSym : Option (Nat → Option String)

/-- The offsets of the fields, in bytes. The base stands in front of the size. -/
structure Offsets where
  base : Int
  size : Nat
  next : Nat
  constructorCalled : Nat
  realpath : Nat
  deriving DecidableEq, Repr

def sizeBlockRange : Nat := 1024
def sizeMaximal : Nat := 0x100000
def sizeMinimal : Nat := 0x100

/-- The words of a `link_map`. -/
def indexGap : Nat := 5

structure Scan where
  sizeFieldFound : Bool
  nextFieldFound : Bool
  constructorCalledFieldFound : Bool
  offsets : Offsets
  deriving DecidableEq, Repr

/-- Whether the loop goes on, and where. -/
inductive Flow where
  | next (i : Nat)
  | stop

namespace Known

variable (k : Known)

/-- `sizeof(void *)`. -/
def wordSize : Nat := k.model.wordSize

/-- `field_of_solinker`. -/
def field (i : Nat) : Nat := k.solinker + i * k.wordSize

/-- The bound of the loop. -/
def bound : Nat := sizeBlockRange / k.wordSize

/-- `link_map_head_of_solinker->l_name`. -/
def linkName (i : Nat) : Nat := k.mem.word (k.field i + k.wordSize)

/-- What is asked of a `link_map` before its name is read. -/
def linkMapLike (i : Nat) : Bool :=
  k.mem.flag (k.field i + indexGap * k.wordSize) && decide (k.mem.word (k.field i) ≠ 0) && decide (k.linkName i ≠ 0)

/-- An iteration of the loop; `none` if it reads a text that cannot be read. -/
def iteration (i : Nat) (s : Scan) : Option (Scan × Flow) :=
  if s.sizeFieldFound = false then
    let sizeOfSomain := k.mem.word (k.somain + i * k.wordSize)
    if sizeOfSomain < sizeMaximal ∧ sizeMinimal < sizeOfSomain then
      some
        ({ s with
            sizeFieldFound := true
            offsets := { s.offsets with size := i * k.wordSize, base := (i * k.wordSize : Int) - k.wordSize } },
          .next (i + 1))
    else some (s, .next (i + 1))
  else if s.nextFieldFound = false then
    let nextOfSolinker := k.mem.word (k.field i)
    if nextOfSolinker = k.somain ∨ (k.vdso ≠ 0 ∧ nextOfSolinker = k.vdso) then
      some ({ s with nextFieldFound := true, offsets := { s.offsets with next := i * k.wordSize } }, .next (i + 1))
    else some (s, .next (i + 1))
  else if s.constructorCalledFieldFound = false then
    if k.linkMapLike i then
      (k.mem.cString (k.linkName i)).map fun name =>
        if k.linkerName = name then
          ({ s with
              constructorCalledFieldFound := true
              offsets := { s.offsets with constructorCalled := (i + indexGap) * k.wordSize } },
            .next (i + indexGap + 1))
        else (s, .next (i + 1))
    else some (s, .next (i + 1))
  else if k.getRealpathSym.isSome then some (s, .stop)
  else if k.mem.stringSize (k.field i) = k.linkerName.utf8ByteSize then
    (k.mem.stringText (k.field i)).map fun text =>
      if k.linkerName = text then ({ s with offsets := { s.offsets with realpath := i * k.wordSize } }, .stop)
      else (s, .next (i + 1))
  else some (s, .next (i + 1))

/-- The loop. It goes on at least one index each time, so that it ends before the fuel does. -/
def scan : Nat → Nat → Scan → Option Scan
  | 0, _, s => some s
  | fuel + 1, i, s =>
      if i < k.bound then
        match k.iteration i s with
        | none => none
        | some (s, .stop) => some s
        | some (s, .next i) => scan fuel i s
      else some s

/-- `findHeuristicOffsets`: its result, and the offsets after it; before it they are those of the headers the library
was built with. -/
def findHeuristicOffsets (built : Offsets) : Option (Bool × Offsets) :=
  (k.scan k.bound 0 ⟨false, false, false, built⟩).map fun s =>
    (s.sizeFieldFound && s.nextFieldFound && s.constructorCalledFieldFound, s.offsets)

/-! ## What is looked for -/

def sizeStage : Stage where
  test i := decide (k.mem.word (k.somain + i * k.wordSize) < sizeMaximal ∧
    sizeMinimal < k.mem.word (k.somain + i * k.wordSize))
  ready _ := true
  skip := 0

def nextStage : Stage where
  test i := decide (k.mem.word (k.field i) = k.somain ∨ (k.vdso ≠ 0 ∧ k.mem.word (k.field i) = k.vdso))
  ready _ := true
  skip := 0

def linkMapStage : Stage where
  test i := k.linkMapLike i && decide (k.mem.cString (k.linkName i) = some k.linkerName)
  ready i := !k.linkMapLike i || (k.mem.cString (k.linkName i)).isSome
  skip := indexGap

def realpathStage : Stage where
  test i := decide (k.mem.stringSize (k.field i) = k.linkerName.utf8ByteSize) &&
    decide (k.mem.stringText (k.field i) = some k.linkerName)
  ready i := decide (k.mem.stringSize (k.field i) ≠ k.linkerName.utf8ByteSize) || (k.mem.stringText (k.field i)).isSome
  skip := 0

def pathStages : List Stage := if k.getRealpathSym.isSome then [] else [k.realpathStage]

/-- What the stage that is next makes of its index. -/
def record (s : Scan) (i : Nat) : Scan :=
  if s.sizeFieldFound = false then
    { s with
      sizeFieldFound := true
      offsets := { s.offsets with size := i * k.wordSize, base := (i * k.wordSize : Int) - k.wordSize } }
  else if s.nextFieldFound = false then
    { s with nextFieldFound := true, offsets := { s.offsets with next := i * k.wordSize } }
  else if s.constructorCalledFieldFound = false then
    { s with
      constructorCalledFieldFound := true
      offsets := { s.offsets with constructorCalled := (i + indexGap) * k.wordSize } }
  else { s with offsets := { s.offsets with realpath := i * k.wordSize } }

end Known

/-! ## The loop is a search in stages -/

variable {k : Known} {i : Nat} {s : Scan} {stage : Stage} {rest : List Stage}

/-- The four states of the search, and what is left to look for in each. A field is found behind the field before. -/
inductive Phase (k : Known) (s : Scan) : List Stage → Prop where
  | size (hsize : s.sizeFieldFound = false) (hnext : s.nextFieldFound = false)
      (hlink : s.constructorCalledFieldFound = false) :
      Phase k s (k.sizeStage :: k.nextStage :: k.linkMapStage :: k.pathStages)
  | next (hsize : s.sizeFieldFound = true) (hnext : s.nextFieldFound = false)
      (hlink : s.constructorCalledFieldFound = false) : Phase k s (k.nextStage :: k.linkMapStage :: k.pathStages)
  | linkMap (hsize : s.sizeFieldFound = true) (hnext : s.nextFieldFound = true)
      (hlink : s.constructorCalledFieldFound = false) : Phase k s (k.linkMapStage :: k.pathStages)
  | realpath (hsize : s.sizeFieldFound = true) (hnext : s.nextFieldFound = true)
      (hlink : s.constructorCalledFieldFound = true) : Phase k s k.pathStages

theorem pathStages_eq (k : Known) :
    (k.getRealpathSym.isSome = true ∧ k.pathStages = []) ∨
      (k.getRealpathSym.isSome = false ∧ k.pathStages = [k.realpathStage]) := by
  unfold Known.pathStages
  cases k.getRealpathSym with
  | none => exact .inr ⟨rfl, rfl⟩
  | some f => exact .inl ⟨rfl, rfl⟩

theorem iteration_nil (h : Phase k s []) : k.iteration i s = some (s, .stop) := by
  generalize hstages : ([] : List Stage) = stages at h
  cases h with
  | size | next | linkMap => cases hstages
  | realpath hsize hnext hlink =>
      rcases pathStages_eq k with ⟨hsym, -⟩ | ⟨-, hpath⟩
      · simp [Known.iteration, hsize, hnext, hlink, hsym]
      · rw [hpath] at hstages
        cases hstages

/-- A text that cannot be read ends the process. -/
theorem iteration_unready (h : Phase k s (stage :: rest)) (hready : stage.ready i = false) :
    k.iteration i s = none := by
  generalize hstages : stage :: rest = stages at h
  cases h with
  | size hsize hnext hlink =>
      obtain ⟨rfl, -⟩ := List.cons.inj hstages
      cases hready
  | next hsize hnext hlink =>
      obtain ⟨rfl, -⟩ := List.cons.inj hstages
      cases hready
  | linkMap hsize hnext hlink =>
      obtain ⟨rfl, -⟩ := List.cons.inj hstages
      simp only [Known.linkMapStage, Bool.or_eq_false_iff, Bool.not_eq_false', Option.isSome_eq_false_iff,
        Option.isNone_iff_eq_none] at hready
      simp [Known.iteration, hsize, hnext, hlink, hready]
  | realpath hsize hnext hlink =>
      rcases pathStages_eq k with ⟨-, hpath⟩ | ⟨hsym, hpath⟩
      · rw [hpath] at hstages
        cases hstages
      · rw [hpath] at hstages
        obtain ⟨rfl, -⟩ := List.cons.inj hstages
        simp only [Known.realpathStage, Bool.or_eq_false_iff, decide_eq_false_iff_not, not_not,
          Option.isSome_eq_false_iff, Option.isNone_iff_eq_none] at hready
        simp [Known.iteration, hsize, hnext, hlink, hsym, hready]

theorem iteration_miss (h : Phase k s (stage :: rest)) (hready : stage.ready i = true) (htest : stage.test i = false) :
    k.iteration i s = some (s, .next (i + 1)) := by
  generalize hstages : stage :: rest = stages at h
  cases h with
  | size hsize hnext hlink =>
      obtain ⟨rfl, -⟩ := List.cons.inj hstages
      simp only [Known.sizeStage, decide_eq_false_iff_not] at htest
      simp only [Known.iteration, if_pos hsize, if_neg htest]
  | next hsize hnext hlink =>
      obtain ⟨rfl, -⟩ := List.cons.inj hstages
      simp only [Known.nextStage, decide_eq_false_iff_not] at htest
      simp [Known.iteration, hsize, hnext, htest]
  | linkMap hsize hnext hlink =>
      obtain ⟨rfl, -⟩ := List.cons.inj hstages
      cases hlike : k.linkMapLike i with
      | false => simp [Known.iteration, hsize, hnext, hlink, hlike]
      | true =>
          -- it looks like a `link_map`, but of another library
          simp only [Known.linkMapStage, hlike, Bool.not_true, Bool.false_or] at hready
          obtain ⟨name, hname⟩ := Option.isSome_iff_exists.mp hready
          have hne : k.linkerName ≠ name := by
            rintro heq
            simp [Known.linkMapStage, hlike, hname, heq] at htest
          simp [Known.iteration, hsize, hnext, hlink, hlike, hname, hne]
  | realpath hsize hnext hlink =>
      rcases pathStages_eq k with ⟨-, hpath⟩ | ⟨hsym, hpath⟩
      · rw [hpath] at hstages
        cases hstages
      · rw [hpath] at hstages
        obtain ⟨rfl, -⟩ := List.cons.inj hstages
        simp only [Known.realpathStage, Bool.and_eq_false_iff, decide_eq_false_iff_not] at htest
        -- the text is read only where its size is right
        by_cases hlength : k.mem.stringSize (k.field i) = k.linkerName.utf8ByteSize
        · simp only [Known.realpathStage, hlength, ne_eq, not_true_eq_false, decide_false, Bool.false_or] at hready
          obtain ⟨text, htext⟩ := Option.isSome_iff_exists.mp hready
          have hne : k.linkerName ≠ text := by
            rintro heq
            rcases htest with hno | hno
            · exact hno hlength
            · exact hno (htext.trans (congrArg some heq.symm))
          simp [Known.iteration, hsize, hnext, hlink, hsym, hlength, htext, hne]
        · simp [Known.iteration, hsize, hnext, hlink, hsym, hlength]

theorem iteration_hit (h : Phase k s (stage :: rest)) (htest : stage.test i = true) :
    (k.iteration i s = some (k.record s i, .stop) ∧ rest = []) ∨
      (k.iteration i s = some (k.record s i, .next (stage.behind i)) ∧ Phase k (k.record s i) rest) := by
  generalize hstages : stage :: rest = stages at h
  cases h with
  | size hsize hnext hlink =>
      obtain ⟨rfl, rfl⟩ := List.cons.inj hstages
      simp only [Known.sizeStage, decide_eq_true_iff] at htest
      simp only [Known.iteration, Known.record, if_pos hsize, if_pos htest]
      exact .inr ⟨rfl, .next rfl hnext hlink⟩
  | next hsize hnext hlink =>
      obtain ⟨rfl, rfl⟩ := List.cons.inj hstages
      simp only [Known.nextStage, decide_eq_true_iff] at htest
      simp only [Known.iteration, Known.record, hsize, hnext, Bool.true_eq_false, if_false, if_true, if_pos htest]
      exact .inr ⟨rfl, .linkMap rfl rfl hlink⟩
  | linkMap hsize hnext hlink =>
      obtain ⟨rfl, rfl⟩ := List.cons.inj hstages
      simp only [Known.linkMapStage, Bool.and_eq_true, decide_eq_true_iff] at htest
      simp only [Known.iteration, Known.record, hsize, hnext, hlink, Bool.true_eq_false, if_false, if_true, htest,
        Option.map_some]
      exact .inr ⟨rfl, .realpath rfl rfl rfl⟩
  | realpath hsize hnext hlink =>
      rcases pathStages_eq k with ⟨-, hpath⟩ | ⟨hsym, hpath⟩
      · rw [hpath] at hstages
        cases hstages
      · rw [hpath] at hstages
        obtain ⟨rfl, rfl⟩ := List.cons.inj hstages
        left
        simp only [Known.realpathStage, Bool.and_eq_true, decide_eq_true_iff] at htest
        simp [Known.iteration, Known.record, hsize, hnext, hlink, hsym, htest]

/-- The loop takes one index each time, and each test is made where the pass makes it. -/
theorem scan_eq {stages : List Stage} {fuel : Nat} (hphase : Phase k s stages) (hfuel : k.bound - i ≤ fuel) :
    k.scan fuel i s =
      if passReady k.bound stages i then some ((pass k.bound stages i).foldl k.record s) else none := by
  induction fuel generalizing i s stages with
  | zero =>
      rw [pass_of_ge stages (by omega), passReady_of_ge stages (by omega)]
      rfl
  | succ fuel ih =>
      by_cases hlt : i < k.bound
      · rw [Known.scan, if_pos hlt]
        cases stages with
        | nil =>
            rw [iteration_nil hphase, pass_nil, passReady_nil]
            rfl
        | cons stage rest =>
            cases hready : stage.ready i with
            | false =>
                have hpass : passReady k.bound (stage :: rest) i = false := by
                  rw [passReady, if_pos hlt, hready, Bool.false_and]
                rw [iteration_unready hphase hready, hpass]
                rfl
            | true =>
                cases htest : stage.test i with
                | false =>
                    rw [iteration_miss hphase hready htest, pass_of_miss hlt htest, passReady_of_miss hlt htest, hready,
                      Bool.true_and]
                    exact ih hphase (by omega)
                | true =>
                    rw [pass_of_hit hlt htest, passReady_of_hit hlt htest, hready, Bool.true_and, List.foldl_cons]
                    rcases iteration_hit hphase htest with ⟨hit, rfl⟩ | ⟨hit, hrest⟩
                    · rw [hit, pass_nil, passReady_nil]
                      rfl
                    · have hless : k.bound - stage.behind i ≤ fuel := by
                        unfold Stage.behind
                        omega
                      rw [hit]
                      exact ih hrest hless
      · have hge : k.bound ≤ i := Nat.le_of_not_lt hlt
        rw [Known.scan, if_neg hlt, pass_of_ge stages hge, passReady_of_ge stages hge]
        rfl

/-! ## What is found -/

/-- The places of the fields, in words. The base stands in front of the size. -/
structure Layout where
  size : Nat
  next : Nat
  linkMap : Nat
  realpath : Nat

namespace Layout

variable (l : Layout)

/-- The offsets of a layout. That of the path stays what it was where a function tells the path. -/
def offsets (k : Known) (built : Offsets) : Offsets where
  base := (l.size * k.wordSize : Int) - k.wordSize
  size := l.size * k.wordSize
  next := l.next * k.wordSize
  constructorCalled := (l.linkMap + indexGap) * k.wordSize
  realpath := if k.getRealpathSym.isSome then built.realpath else l.realpath * k.wordSize

/-- The fields stand in the record of the linker, and in that of the program, as they are looked for. -/
structure Genuine (k : Known) : Prop where
  base : 0 < l.size
  size : k.sizeStage.test l.size = true
  next : k.nextStage.test l.next = true
  linkMap : k.linkMapStage.test l.linkMap = true
  realpath : k.getRealpathSym = none → k.realpathStage.test l.realpath = true
  size_lt : l.size < l.next
  next_lt : l.next < l.linkMap
  linkMap_lt : l.linkMap < k.bound
  linkMap_lt_realpath : k.getRealpathSym = none → l.linkMap + indexGap < l.realpath
  realpath_lt : k.getRealpathSym = none → l.realpath < k.bound

/-- Nothing between one field and the next looks like the next. -/
structure Clear (k : Known) : Prop where
  size : ∀ i < l.size, k.sizeStage.test i = false
  next : ∀ i, l.size < i → i < l.next → k.nextStage.test i = false
  linkMap : ∀ i, l.next < i → i < l.linkMap → k.linkMapStage.test i = false
  realpath : k.getRealpathSym = none → ∀ i, l.linkMap + indexGap < i → i < l.realpath → k.realpathStage.test i = false

/-- What looks like a `link_map` or a path in front of the right one can be read. -/
structure Readable (k : Known) : Prop where
  name : ∀ i, l.next < i → i < l.linkMap → k.linkMapLike i = true → (k.mem.cString (k.linkName i)).isSome = true
  path : k.getRealpathSym = none → ∀ i, l.linkMap + indexGap < i → i < l.realpath →
    k.mem.stringSize (k.field i) = k.linkerName.utf8ByteSize → (k.mem.stringText (k.field i)).isSome = true

end Layout

variable {l : Layout} {built : Offsets}

theorem wordSize_pos (k : Known) : 0 < k.wordSize := by
  unfold Known.wordSize
  cases k.model with
  | lp32 => decide
  | lp64 => decide

/-- The search as a whole: what the pass over all four stages makes of the offsets, if its tests can be made. -/
theorem findHeuristicOffsets_eq_pass (k : Known) (built : Offsets) :
    k.findHeuristicOffsets built =
      if passReady k.bound (k.sizeStage :: k.nextStage :: k.linkMapStage :: k.pathStages) 0 then
        some
          (let s := (pass k.bound (k.sizeStage :: k.nextStage :: k.linkMapStage :: k.pathStages) 0).foldl k.record
              ⟨false, false, false, built⟩
          (s.sizeFieldFound && s.nextFieldFound && s.constructorCalledFieldFound, s.offsets))
      else none := by
  unfold Known.findHeuristicOffsets
  rw [scan_eq (.size rfl rfl rfl) (Nat.sub_le _ _)]
  split_ifs
  · rfl
  · rfl

theorem Layout.Clear.first_size (hclear : l.Clear k) (hgenuine : l.Genuine k) :
    First k.sizeStage.test 0 k.bound l.size :=
  ⟨Nat.zero_le _, Nat.lt_trans hgenuine.size_lt (Nat.lt_trans hgenuine.next_lt hgenuine.linkMap_lt), hgenuine.size,
    fun j _ hj => hclear.size j hj⟩

theorem Layout.Clear.first_next (hclear : l.Clear k) (hgenuine : l.Genuine k) :
    First k.nextStage.test (l.size + 1) k.bound l.next :=
  ⟨hgenuine.size_lt, Nat.lt_trans hgenuine.next_lt hgenuine.linkMap_lt, hgenuine.next, hclear.next⟩

theorem Layout.Clear.first_linkMap (hclear : l.Clear k) (hgenuine : l.Genuine k) :
    First k.linkMapStage.test (l.next + 1) k.bound l.linkMap :=
  ⟨hgenuine.next_lt, hgenuine.linkMap_lt, hgenuine.linkMap, hclear.linkMap⟩

theorem Layout.Clear.first_realpath (hclear : l.Clear k) (hgenuine : l.Genuine k) (hsym : k.getRealpathSym = none) :
    First k.realpathStage.test (l.linkMap + indexGap + 1) k.bound l.realpath :=
  ⟨hgenuine.linkMap_lt_realpath hsym, hgenuine.realpath_lt hsym, hgenuine.realpath hsym, hclear.realpath hsym⟩

theorem Layout.Clear.firsts (hclear : l.Clear k) (hgenuine : l.Genuine k) :
    Firsts k.bound (k.sizeStage :: k.nextStage :: k.linkMapStage :: k.pathStages) 0
      (l.size :: l.next :: l.linkMap :: if k.getRealpathSym.isSome then [] else [l.realpath]) := by
  refine .found (hclear.first_size hgenuine) (.found (hclear.first_next hgenuine)
    (.found (hclear.first_linkMap hgenuine) ?_))
  cases hsym : k.getRealpathSym with
  | some f =>
      simp only [Known.pathStages, hsym, Option.isSome_some, if_true]
      exact .nil _
  | none =>
      simp only [Known.pathStages, hsym, Option.isSome_none, Bool.false_eq_true, if_false]
      exact .found (hclear.first_realpath hgenuine hsym) (.nil _)

/-- Of the places that look like a `link_map`, the last one is the linker's, and can be read. -/
theorem Layout.Genuine.ready_linkMap_iff (hgenuine : l.Genuine k) :
    (∀ i, l.next + 1 ≤ i → i ≤ l.linkMap → k.linkMapStage.ready i = true) ↔
      ∀ i, l.next < i → i < l.linkMap → k.linkMapLike i = true → (k.mem.cString (k.linkName i)).isSome = true := by
  have hready : ∀ i, k.linkMapStage.ready i = true ↔
      (k.linkMapLike i = true → (k.mem.cString (k.linkName i)).isSome = true) := by
    intro i
    simp only [Known.linkMapStage, Bool.or_eq_true, Bool.not_eq_true', ← Bool.not_eq_true, imp_iff_not_or]
  simp only [hready]
  constructor
  · intro h i hlow hhigh
    exact h i hlow (Nat.le_of_lt hhigh)
  · intro h i hlow hhigh
    rcases Nat.eq_or_lt_of_le hhigh with rfl | hlt
    · intro _
      have htest := hgenuine.linkMap
      simp only [Known.linkMapStage, Bool.and_eq_true, decide_eq_true_iff] at htest
      rw [htest.2, Option.isSome_some]
    · exact h i hlow hlt

theorem Layout.Genuine.ready_realpath_iff (hgenuine : l.Genuine k) (hsym : k.getRealpathSym = none) :
    (∀ i, l.linkMap + indexGap + 1 ≤ i → i ≤ l.realpath → k.realpathStage.ready i = true) ↔
      ∀ i, l.linkMap + indexGap < i → i < l.realpath → k.mem.stringSize (k.field i) = k.linkerName.utf8ByteSize →
        (k.mem.stringText (k.field i)).isSome = true := by
  have hready : ∀ i, k.realpathStage.ready i = true ↔
      (k.mem.stringSize (k.field i) = k.linkerName.utf8ByteSize →
        (k.mem.stringText (k.field i)).isSome = true) := by
    intro i
    simp only [Known.realpathStage, Bool.or_eq_true, decide_eq_true_iff, ne_eq, imp_iff_not_or]
  simp only [hready]
  constructor
  · intro h i hlow hhigh
    exact h i hlow (Nat.le_of_lt hhigh)
  · intro h i hlow hhigh
    rcases Nat.eq_or_lt_of_le hhigh with rfl | hlt
    · intro _
      have htest := hgenuine.realpath hsym
      simp only [Known.realpathStage, Bool.and_eq_true, decide_eq_true_iff] at htest
      rw [htest.2, Option.isSome_some]
    · exact h i hlow hlt

/-- The pass over the path is ready where a function tells it, or if the texts can be read. -/
theorem Layout.Clear.passReady_pathStages_iff (hclear : l.Clear k) (hgenuine : l.Genuine k) :
    passReady k.bound k.pathStages (l.linkMap + indexGap + 1) = true ↔
      (k.getRealpathSym = none → ∀ i, l.linkMap + indexGap < i → i < l.realpath →
        k.mem.stringSize (k.field i) = k.linkerName.utf8ByteSize →
          (k.mem.stringText (k.field i)).isSome = true) := by
  cases hsym : k.getRealpathSym with
  | some f =>
      simp only [Known.pathStages, hsym, Option.isSome_some, if_true, passReady_nil, reduceCtorEq, false_imp_iff]
  | none =>
      simp only [Known.pathStages, hsym, Option.isSome_none, Bool.false_eq_true, if_false, true_imp_iff]
      rw [passReady_found (hclear.first_realpath hgenuine hsym), passReady_nil, and_iff_left rfl,
        hgenuine.ready_realpath_iff hsym]

/-- What the pass reads are the texts in front of the fields, and those of the fields. -/
theorem Layout.Clear.passReady_iff (hclear : l.Clear k) (hgenuine : l.Genuine k) :
    passReady k.bound (k.sizeStage :: k.nextStage :: k.linkMapStage :: k.pathStages) 0 = true ↔ l.Readable k := by
  have hsize : passReady k.bound (k.sizeStage :: k.nextStage :: k.linkMapStage :: k.pathStages) 0 = true ↔
      passReady k.bound (k.nextStage :: k.linkMapStage :: k.pathStages) (l.size + 1) = true := by
    rw [passReady_found (hclear.first_size hgenuine)]
    exact and_iff_right fun _ _ _ => rfl
  have hnext : passReady k.bound (k.nextStage :: k.linkMapStage :: k.pathStages) (l.size + 1) = true ↔
      passReady k.bound (k.linkMapStage :: k.pathStages) (l.next + 1) = true := by
    rw [passReady_found (hclear.first_next hgenuine)]
    exact and_iff_right fun _ _ _ => rfl
  rw [hsize, hnext, passReady_found (hclear.first_linkMap hgenuine), hgenuine.ready_linkMap_iff]
  have hpath := hclear.passReady_pathStages_iff hgenuine
  constructor
  · rintro ⟨hname, hready⟩
    exact ⟨hname, hpath.mp hready⟩
  · rintro ⟨hname, hready⟩
    exact ⟨hname, hpath.mpr hready⟩

/-- The offsets that are found are those of the records if, and only if, nothing in front of a field looks like it and
the texts there can be read. -/
theorem findHeuristicOffsets_eq_iff (hgenuine : l.Genuine k) :
    k.findHeuristicOffsets built = some (true, l.offsets k built) ↔ l.Clear k ∧ l.Readable k := by
  rw [findHeuristicOffsets_eq_pass]
  constructor
  · intro h
    split_ifs at h with hready
    suffices hclear : l.Clear k from ⟨hclear, (hclear.passReady_iff hgenuine).mp hready⟩
    have hw := wordSize_pos k
    have hfirsts := pass_firsts k.bound (k.sizeStage :: k.nextStage :: k.linkMapStage :: k.pathStages) 0
    generalize pass k.bound (k.sizeStage :: k.nextStage :: k.linkMapStage :: k.pathStages) 0 = found at h hfirsts
    -- each of the first three stages has found something, as the result is true
    cases hfirsts with
    | missing => simp at h
    | @found _ _ _ a _ hsize hfirsts =>
    cases hfirsts with
    | missing => simp [Known.record] at h
    | @found _ _ _ b _ hnext hfirsts =>
    cases hfirsts with
    | missing => simp [Known.record] at h
    | @found _ _ _ c _ hlink hfirsts =>
    have hfields : a = l.size ∧ b = l.next ∧ c = l.linkMap ∧
        (k.getRealpathSym = none → First k.realpathStage.test (l.linkMap + indexGap + 1) k.bound l.realpath) := by
      cases hsym : k.getRealpathSym with
      | some f =>
          simp only [Known.pathStages, hsym, Option.isSome_some, if_true] at hfirsts
          cases hfirsts
          obtain ⟨-, ha, hb, hc⟩ :
              (a : Int) * k.wordSize = l.size * k.wordSize ∧ a = l.size ∧ b = l.next ∧ c = l.linkMap := by
            simpa [Known.record, Layout.offsets, hsym, Nat.ne_of_gt hw] using h
          exact ⟨ha, hb, hc, fun hno => nomatch hno⟩
      | none =>
          simp only [Known.pathStages, hsym, Option.isSome_none, Bool.false_eq_true, if_false] at hfirsts
          cases hfirsts with
          | missing hmiss =>
              obtain ⟨-, -, -, rfl, -⟩ :
                  (a : Int) * k.wordSize = l.size * k.wordSize ∧ a = l.size ∧ b = l.next ∧ c = l.linkMap ∧
                    built.realpath = l.realpath * k.wordSize := by
                simpa [Known.record, Layout.offsets, hsym, Nat.ne_of_gt hw] using h
              -- the path is there to be found
              have hno := hmiss l.realpath (hgenuine.linkMap_lt_realpath hsym) (hgenuine.realpath_lt hsym)
              exact Bool.noConfusion (hno.symm.trans (hgenuine.realpath hsym))
          | @found _ _ _ d _ hpath hfirsts =>
              cases hfirsts
              obtain ⟨-, ha, hb, rfl, rfl⟩ :
                  (a : Int) * k.wordSize = l.size * k.wordSize ∧ a = l.size ∧ b = l.next ∧ c = l.linkMap ∧
                    d = l.realpath := by
                simpa [Known.record, Layout.offsets, hsym, Nat.ne_of_gt hw] using h
              exact ⟨ha, hb, rfl, fun _ => hpath⟩
    obtain ⟨rfl, rfl, rfl, hpath⟩ := hfields
    exact
      { size := fun i hi => hsize.miss i (Nat.zero_le _) hi
        next := hnext.miss
        linkMap := hlink.miss
        realpath := fun hsym => (hpath hsym).miss }
  · rintro ⟨hclear, hreadable⟩
    rw [if_pos ((hclear.passReady_iff hgenuine).mpr hreadable),
      pass_eq_iff.mpr (hclear.firsts hgenuine)]
    cases hsym : k.getRealpathSym with
    | some f => simp [Known.record, Layout.offsets, hsym]
    | none => simp [Known.record, Layout.offsets, hsym]

/-! ## The list behind `solinker` -/

namespace Known

variable (k : Known)

/-- `getPath`; `none` outside if the text cannot be read. -/
def getPath (o : Offsets) (a : Nat) : Option (Option String) :=
  match k.getRealpathSym with
  | some f => some (f a)
  | none => (k.mem.stringText (a + o.realpath)).map some

def getNext (o : Offsets) (a : Nat) : Nat := k.mem.word (a + o.next)

/-- What the getters give of the record at an address. -/
def readRecord (o : Offsets) (a : Nat) : Option Record :=
  (k.getPath o a).map fun path =>
    { addr := a
      base := k.mem.word ((a : Int) + o.base).toNat
      size := k.mem.word (a + o.size)
      path := path
      constructorCalled := k.mem.flag (a + o.constructorCalled) }

/-- The records that `for (auto *iter = solinker; iter; iter = iter->getNext())` comes to, no more of them than given. -/
def walk (o : Offsets) : Nat → Nat → Option (List Record)
  | 0, _ => some []
  | n + 1, a =>
      if a = 0 then some []
      else do
        let r ← k.readRecord o a
        let rest ← walk o n (k.getNext o a)
        return r :: rest

end Known

/-- A record lies in memory as a layout says. -/
structure Layout.Holds (l : Layout) (k : Known) (r : Record) : Prop where
  base : k.mem.word (r.addr + (l.size - 1) * k.wordSize) = r.base
  size : k.mem.word (r.addr + l.size * k.wordSize) = r.size
  constructorCalled : k.mem.flag (r.addr + (l.linkMap + indexGap) * k.wordSize) = r.constructorCalled
  path : match k.getRealpathSym with
    | some f => f r.addr = r.path
    | none => ∃ text, k.mem.stringText (r.addr + l.realpath * k.wordSize) = some text ∧ r.path = some text

/-- The records of a list lie in memory, each linked to the next. -/
inductive Layout.Linked (l : Layout) (k : Known) : Nat → List Record → Prop where
  | nil : Linked l k 0 []
  | cons {r : Record} {rs : List Record} (hne : r.addr ≠ 0) (hholds : l.Holds k r)
      (hnext : Linked l k (k.mem.word (r.addr + l.next * k.wordSize)) rs) : Linked l k r.addr (r :: rs)

theorem readRecord_of_holds {r : Record} (hgenuine : l.Genuine k) (h : l.Holds k r) :
    k.readRecord (l.offsets k built) r.addr = some r := by
  have hpath : k.getPath (l.offsets k built) r.addr = some r.path := by
    have hpath := h.path
    unfold Known.getPath
    cases hsym : k.getRealpathSym with
    | some f =>
        rw [hsym] at hpath
        exact congrArg some hpath
    | none =>
        rw [hsym] at hpath
        obtain ⟨text, htext, heq⟩ := hpath
        simp [Layout.offsets, hsym, htext, heq]
  have hbase : ((r.addr : Int) + (l.offsets k built).base).toNat = r.addr + (l.size - 1) * k.wordSize := by
    obtain ⟨m, hm⟩ := Nat.exists_eq_succ_of_ne_zero (Nat.ne_of_gt hgenuine.base)
    have hsub : (l.size * k.wordSize : Int) - k.wordSize = (m * k.wordSize : Nat) := by
      rw [hm]
      push_cast
      rw [Int.add_mul, Int.one_mul, Int.add_sub_cancel]
    simp only [Layout.offsets]
    rw [hsub, ← Int.natCast_add, Int.toNat_natCast, hm]
    rfl
  unfold Known.readRecord
  rw [hpath, hbase, h.base]
  simp [Layout.offsets, h.size, h.constructorCalled]

/-- Offsets of the right layout read the list as it is. -/
theorem walk_of_linked {rs : List Record} {a n : Nat} (hgenuine : l.Genuine k) (h : l.Linked k a rs)
    (hn : rs.length ≤ n) : k.walk (l.offsets k built) n a = some rs := by
  induction h generalizing n with
  | nil =>
      cases n with
      | zero => rfl
      | succ n => simp [Known.walk]
  | @cons r rs hne hholds hnext ih =>
      cases n with
      | zero => simp at hn
      | succ n =>
          rw [Known.walk, if_neg hne, readRecord_of_holds hgenuine hholds]
          have hrest := ih (Nat.le_of_succ_le_succ hn)
          have hgetNext : k.getNext (l.offsets k built) r.addr = k.mem.word (r.addr + l.next * k.wordSize) := rfl
          simp [hgetNext, hrest]

/-- What the search finds is right exactly when nothing looks like a field in front of it and the texts there can be
read, and then the getters give the list that the linker has. -/
theorem solist_read {s : Solist} {n : Nat} (built : Offsets) (hgenuine : l.Genuine k)
    (hlinked : l.Linked k k.solinker s.records) (hn : s.records.length ≤ n) :
    (k.findHeuristicOffsets built = some (true, l.offsets k built) ↔ l.Clear k ∧ l.Readable k) ∧
      k.walk (l.offsets k built) n k.solinker = some s.records := by
  constructor
  · exact findHeuristicOffsets_eq_iff hgenuine
  · exact walk_of_linked hgenuine hlinked hn

/-- Two records: the size three words in, the link after two more, and the `link_map` after that. Most addresses hold
no text, and one in front of the path holds another one of its length. -/
def twoRecords : Known where
  model := .lp64
  mem :=
    { word := fun a =>
        if a = 8024 ∨ a = 16024 then 4096
        else if a = 8040 then 16000
        else if a = 8056 ∨ a = 8064 then 1
        else 0
      flag := fun a => decide (a = 8096)
      cString := fun a => if a = 1 then some "linker64" else none
      stringSize := fun a => if a = 8112 ∨ a = 8120 then 8 else 0
      stringText := fun a =>
        if a = 8120 then some "linker64"
        else if a = 8112 then some "app_proc"
        else if a = 16120 then some "app"
        else none }
  linkerName := "linker64"
  somain := 16000
  solinker := 8000
  vdso := 0
  getRealpathSym := none

def twoRecordsLayout : Layout := ⟨3, 5, 7, 15⟩

def twoRecordsSolist : Solist where
  solinker := ⟨8000, 0, 4096, some "linker64", true⟩
  next := [⟨16000, 0, 4096, some "app", false⟩]
  distinct := by decide

theorem twoRecords_genuine : twoRecordsLayout.Genuine twoRecords where
  base := by decide
  size := by decide
  next := by decide
  linkMap := by decide
  realpath _ := by decide
  size_lt := by decide
  next_lt := by decide
  linkMap_lt := by decide
  linkMap_lt_realpath _ := by decide
  realpath_lt _ := by decide

theorem twoRecords_linked : twoRecordsLayout.Linked twoRecords 8000 twoRecordsSolist.records := by
  have happ : twoRecordsLayout.Linked twoRecords 16000 [⟨16000, 0, 4096, some "app", false⟩] :=
    .cons (r := ⟨16000, 0, 4096, some "app", false⟩) (by decide) ⟨rfl, rfl, rfl, "app", rfl, rfl⟩ .nil
  exact .cons (r := twoRecordsSolist.solinker) (by decide) ⟨rfl, rfl, rfl, "linker64", rfl, rfl⟩ happ

theorem twoRecords_clear : twoRecordsLayout.Clear twoRecords where
  size := by decide
  next := by
    have hnext : ∀ i < 5, 3 < i → twoRecords.nextStage.test i = false := by decide
    exact fun i hlow hhigh => hnext i hhigh hlow
  linkMap := by
    have hlinkMap : ∀ i < 7, 5 < i → twoRecords.linkMapStage.test i = false := by decide
    exact fun i hlow hhigh => hlinkMap i hhigh hlow
  realpath _ := by
    have hrealpath : ∀ i < 15, 12 < i → twoRecords.realpathStage.test i = false := by decide
    exact fun i hlow hhigh => hrealpath i hhigh hlow

theorem twoRecords_readable : twoRecordsLayout.Readable twoRecords where
  name := by
    have hname : ∀ i < 7, 5 < i → twoRecords.linkMapLike i = true →
        (twoRecords.mem.cString (twoRecords.linkName i)).isSome = true := by decide
    exact fun i hlow hhigh => hname i hhigh hlow
  path _ := by
    have hpath : ∀ i < 15, 12 < i → twoRecords.mem.stringSize (twoRecords.field i) = "linker64".utf8ByteSize →
        (twoRecords.mem.stringText (twoRecords.field i)).isSome = true := by decide
    exact fun i hlow hhigh => hpath i hhigh hlow

/-- Nothing looks like a field in front of it, so that the search finds the right places, and the list is read. -/
theorem solist_read_twoRecords :
    twoRecordsLayout.Clear twoRecords ∧ twoRecordsLayout.Readable twoRecords ∧
      twoRecords.findHeuristicOffsets ⟨0, 0, 0, 0, 0⟩ = some (true, ⟨16, 24, 40, 96, 120⟩) ∧
        twoRecords.walk ⟨16, 24, 40, 96, 120⟩ 2 8000 = some twoRecordsSolist.records := by
  have hread := solist_read ⟨0, 0, 0, 0, 0⟩ twoRecords_genuine twoRecords_linked (Nat.le_refl 2)
  exact ⟨twoRecords_clear, twoRecords_readable, hread.1.mpr ⟨twoRecords_clear, twoRecords_readable⟩, hread.2⟩

end NeoZygisk.Injector.SoInfoLayout
