import NeoZygisk.Common.DataModel
import NeoZygisk.Injector.Fossil
import NeoZygisk.Lib.Reads

/-!
# The fossil byte by byte

The search runs through the stack with a pointer, and the parser with a pointer of its own. Each of the five scans
of a position ends at the limit of the search, also where the pointer stands on the limit already.

`attempts_parseFromMemory` and `reads_find` relate the pointers to the bytes up to the limit: nothing outside the
range is read, and what is found is the first fossil there. `writeToMemory` moves a pointer too;
`parseFromMemory_writeToMemory` reads back what it wrote.
-/

set_option autoImplicit false

namespace NeoZygisk.Injector.Fossil.Pointers

open NeoZygisk.Common
open NeoZygisk.Lib
open NeoZygisk.Lib.Reads
open NeoZygisk.Lib.Bytes
open NeoZygisk.Lib.Text

/-! ## The parser -/

section Parser

variable (m : DataModel) (mem : Memory)

/-- `limit - ptr`, as a `size_t`. -/
def distance (ptr limit : Nat) : Nat :=
  if ptr ≤ limit then limit - ptr else 2 ^ (8 * m.wordSize) - (ptr - limit)

def strnlen (ptr : Nat) : Nat → Reads Nat Nat
  | 0 => pure 0
  | n + 1 => do
      let c ← read mem ptr
      if c = 0 then pure 0
      else do
        let len ← strnlen (ptr + 1) n
        pure (len + 1)

/-- `std::string(ptr, n)` and `memcpy` from `ptr`. -/
def copy (ptr : Nat) : Nat → Reads Nat Text
  | 0 => pure []
  | n + 1 => do
      let c ← read mem ptr
      let rest ← copy (ptr + 1) n
      pure (c :: rest)

/-- `parse_and_copy_string_field`: the field, and where the pointer stands then. -/
def parseAndCopyStringField (ptr limit : Nat) : OptionT (Reads Nat) (Text × Nat) := do
  let len ← OptionT.lift (strnlen mem ptr (distance m ptr limit))
  guard (len ≠ distance m ptr limit)
  let outStr ← OptionT.lift (copy mem ptr len)
  guard (ptr + (len + 1) ≤ limit)
  return (outStr, ptr + (len + 1))

/-- `*p == '\0' && *(p + 1) == '\0'`. -/
def isDoubleNull (p : Nat) : Reads Nat Bool := do
  let first ← read mem p
  if first = 0 then do
    let second ← read mem (p + 1)
    pure (second = 0)
  else pure false

def findDoubleNull (p limit : Nat) : Reads Nat (Option Nat) :=
  if p + 1 < limit then do
    let found ← isDoubleNull mem p
    if found then pure (some p) else findDoubleNull (p + 1) limit
  else pure none
termination_by limit - p

def parseFromMemory (start searchLimit : Nat) : OptionT (Reads Nat) MountArgv := do
  guard (start ≠ 0 ∧ searchLimit ≠ 0 ∧ start < searchLimit)
  let (source, ptr) ← parseAndCopyStringField m mem start searchLimit
  let (target, ptr) ← parseAndCopyStringField m mem ptr searchLimit
  let (filesystemType, ptr) ← parseAndCopyStringField m mem ptr searchLimit
  let (mountOptions, ptr) ← parseAndCopyStringField m mem ptr searchLimit
  guard (ptr + 4 ≤ searchLimit)
  let baseFlags ← OptionT.lift (copy mem ptr 4)
  let endOfFossil := ptr + 4
  let remnantsEnd ← OptionT.lift (findDoubleNull mem endOfFossil searchLimit)
  return {
    startAddress := start
    source := source
    target := target
    filesystemType := filesystemType
    mountOptions := mountOptions
    baseFlags := ofBytes baseFlags
    fossilSize := endOfFossil - start
    remnantSize := (remnantsEnd.map (· - endOfFossil)).getD 0 }

/-- `MountArgv::find`, with the pointer at `p`. -/
def find (p searchTo : Nat) : Reads Nat (Option MountArgv) :=
  if p < searchTo then do
    let mountArgv ← (parseFromMemory m mem p searchTo).run
    match mountArgv.filter MountArgv.passesHeuristics with
    | some fossil => pure (some fossil)
    | none => find (p + 1) searchTo
  -- `MountArgv(nullptr, nullptr)`, which is not valid
  else (parseFromMemory m mem 0 0).run
termination_by searchTo - p

end Parser

/-! ## The writer -/

/-- `writeToMemory`: the memory, and where the pointer stands behind the last byte. -/
def writeToMemory (fossil : MountArgv) (mem : Memory) : Memory × Nat :=
  let ptr := fossil.startAddress
  let mem := writeAt mem ptr (fossil.source ++ [0])
  let ptr := ptr + (fossil.source.length + 1)
  let mem := writeAt mem ptr (fossil.target ++ [0])
  let ptr := ptr + (fossil.target.length + 1)
  let mem := writeAt mem ptr (fossil.filesystemType ++ [0])
  let ptr := ptr + (fossil.filesystemType.length + 1)
  let mem := writeAt mem ptr (fossil.mountOptions ++ [0])
  let ptr := ptr + (fossil.mountOptions.length + 1)
  let mem := writeAt mem ptr (toBytes 4 fossil.baseFlags)
  (mem, ptr + 4)

/-! ## Bytes of a range -/

/-- The address lies in the range. -/
def InRange (start limit a : Nat) : Prop := start ≤ a ∧ a < limit

variable {mem : Memory} {ptr limit start : Nat}

theorem bytesBetween_of_le (mem : Memory) (h : limit ≤ start) : bytesBetween mem start limit = [] := by
  rw [bytesBetween, Nat.sub_eq_zero_of_le h]
  rfl

theorem bytesBetween_cons (mem : Memory) (h : start < limit) :
    bytesBetween mem start limit = mem start :: bytesBetween mem (start + 1) limit := by
  have hlen : limit - start = (limit - (start + 1)) + 1 := by omega
  rw [bytesBetween, hlen, List.range_succ_eq_map, List.map_cons, List.map_map, bytesBetween]
  congr 1
  apply List.map_congr_left
  intro i _
  show mem (start + (i + 1)) = mem (start + 1 + i)
  congr 1
  omega

theorem drop_bytesBetween (mem : Memory) (start limit n : Nat) :
    (bytesBetween mem start limit).drop n = bytesBetween mem (start + n) limit := by
  induction n generalizing start with
  | zero => rfl
  | succ n ih =>
      by_cases h : start < limit
      · rw [bytesBetween_cons mem h, List.drop_succ_cons, ih]
        congr 1
        omega
      · rw [bytesBetween_of_le mem (by omega), List.drop_nil, bytesBetween_of_le mem (by omega)]

theorem take_bytesBetween (mem : Memory) {start limit n : Nat} (h : start + n ≤ limit) :
    (bytesBetween mem start limit).take n = bytesBetween mem start (start + n) := by
  induction n generalizing start with
  | zero => rw [List.take_zero, bytesBetween_of_le mem (Nat.le_of_eq (Nat.add_zero start))]
  | succ n ih =>
      rw [bytesBetween_cons mem (by omega), List.take_succ_cons, ih (by omega),
        bytesBetween_cons mem (show start < start + (n + 1) by omega)]
      congr 2
      omega

/-! ## What the scans read -/

theorem within_inside {α : Type} {start' limit' : Nat} {x : Reads Nat α}
    (h : Within (InRange start' limit') x) (hstart : start ≤ start') (hlimit : limit' ≤ limit) :
    Within (InRange start limit) x := by
  intro a ha
  obtain ⟨hle, hlt⟩ := h a ha
  exact ⟨Nat.le_trans hstart hle, Nat.lt_of_lt_of_le hlt hlimit⟩

theorem strnlen_spec (mem : Memory) (ptr n : Nat) :
    Within (InRange ptr (ptr + n)) (strnlen mem ptr n) ∧
      (strnlen mem ptr n).value = ((bytesBetween mem ptr (ptr + n)).takeWhile (· != 0)).length := by
  -- on the bytes that may still be read, with the pointer moving along
  induction n generalizing ptr with
  | zero =>
      constructor
      · exact within_pure 0
      · rw [Nat.add_zero, bytesBetween_of_le mem (Nat.le_refl ptr)]
        rfl
  | succ n ih =>
      obtain ⟨hwithin, hvalue⟩ := ih (ptr + 1)
      have hend : ptr + 1 + n = ptr + (n + 1) := by omega
      rw [hend] at hwithin hvalue
      rw [bytesBetween_cons mem (by omega), strnlen]
      constructor
      · apply within_bind
        · apply within_read
          exact ⟨Nat.le_refl ptr, by omega⟩
        · split
          · exact within_pure 0
          · apply within_bind
            · exact within_inside hwithin (Nat.le_succ ptr) (Nat.le_refl _)
            · exact within_pure _
      · rw [value_bind, value_read]
        by_cases hc : mem ptr = 0
        · have hstop : ¬ (mem ptr != 0) = true := by
            rw [hc]
            exact Bool.false_ne_true
          rw [if_pos hc, List.takeWhile_cons, if_neg hstop]
          rfl
        · have hgo : (mem ptr != 0) = true := bne_iff_ne.mpr hc
          rw [if_neg hc, List.takeWhile_cons, if_pos hgo, List.length_cons, value_bind, value_pure, hvalue]

theorem copy_spec (mem : Memory) (ptr n : Nat) :
    Within (InRange ptr (ptr + n)) (copy mem ptr n) ∧
      (copy mem ptr n).value = bytesBetween mem ptr (ptr + n) := by
  induction n generalizing ptr with
  | zero =>
      constructor
      · exact within_pure []
      · rw [Nat.add_zero, bytesBetween_of_le mem (Nat.le_refl ptr)]
        rfl
  | succ n ih =>
      obtain ⟨hwithin, hvalue⟩ := ih (ptr + 1)
      have hend : ptr + 1 + n = ptr + (n + 1) := by omega
      rw [hend] at hwithin hvalue
      rw [bytesBetween_cons mem (by omega), copy]
      constructor
      · apply within_bind
        · apply within_read
          exact ⟨Nat.le_refl ptr, by omega⟩
        · apply within_bind
          · exact within_inside hwithin (Nat.le_succ ptr) (Nat.le_refl _)
          · exact within_pure _
      · rw [value_bind, value_bind, value_pure, value_read, hvalue]

theorem distance_of_le (m : DataModel) (h : ptr ≤ limit) : distance m ptr limit = limit - ptr := if_pos h

/-- A field is read as from the bytes up to the limit, and the pointer stays on the rest of them. -/
theorem attempts_field (m : DataModel) (mem : Memory) (h : ptr ≤ limit) :
    Attempts (InRange ptr limit) (parseAndCopyStringField m mem ptr limit)
      ((Fossil.parseAndCopyStringField (bytesBetween mem ptr limit)).map
        fun field => (field.1, ptr + (field.1.length + 1))) := by
  have hend : ptr + (limit - ptr) = limit := by omega
  obtain ⟨hscan, hlen⟩ := strnlen_spec mem ptr (limit - ptr)
  rw [hend] at hscan hlen
  -- the field, as the first bytes
  have hfield : (bytesBetween mem ptr limit).takeWhile (· != 0) <+: bytesBetween mem ptr limit :=
    List.takeWhile_prefix _
  have hle := hfield.length_le
  rw [length_bytesBetween, ← hlen] at hle
  have htake : (bytesBetween mem ptr limit).takeWhile (· != 0) =
      bytesBetween mem ptr (ptr + (strnlen mem ptr (limit - ptr)).value) := by
    rw [← take_bytesBetween mem (show ptr + (strnlen mem ptr (limit - ptr)).value ≤ limit by omega), hlen]
    exact List.prefix_iff_eq_take.mp hfield
  obtain ⟨hcopy, htext⟩ := copy_spec mem ptr (strnlen mem ptr (limit - ptr)).value
  rw [parseAndCopyStringField, Fossil.parseAndCopyStringField, distance_of_le m h, length_bytesBetween, ← hlen]
  apply attempts_seq (attempts_lift hscan)
  by_cases hfull : (strnlen mem ptr (limit - ptr)).value = limit - ptr
  · -- no end before the limit
    rw [if_pos hfull]
    apply attempts_stop
    exact attempts_guard_not (not_not_intro hfull)
  · rw [if_neg hfull, Option.map_some, htake]
    apply attempts_seq (attempts_guard hfull)
    apply attempts_seq (attempts_lift (within_inside hcopy (Nat.le_refl ptr) (by omega)))
    apply attempts_seq (attempts_guard (by omega))
    rw [length_bytesBetween, Nat.add_sub_cancel_left, htext]
    exact attempts_pure _

theorem parseAndCopyStringField_eq_some {bytes rest : List (BitVec 8)} {field : Text}
    (h : Fossil.parseAndCopyStringField bytes = some (field, rest)) :
    field.length < bytes.length ∧ rest = bytes.drop (field.length + 1) := by
  rw [Fossil.parseAndCopyStringField] at h
  have hle := (List.takeWhile_prefix (l := bytes) (· != 0)).length_le
  split at h
  · cases h
  · cases h
    exact ⟨by omega, rfl⟩

/-- What follows a field is read from the pointer as from the rest of the bytes. -/
theorem attempts_field_bind {α : Type} {m : DataModel} {f : Text × Nat → OptionT (Reads Nat) α}
    {g : Text × List (BitVec 8) → Option α} (hstart : start ≤ ptr) (hle : ptr ≤ limit)
    (hf : ∀ text next, ptr < next → next ≤ limit →
      Attempts (InRange start limit) (f (text, next)) (g (text, bytesBetween mem next limit))) :
    Attempts (InRange start limit) (parseAndCopyStringField m mem ptr limit >>= f)
      ((Fossil.parseAndCopyStringField (bytesBetween mem ptr limit)).bind g) := by
  obtain ⟨hwithin, houtcome⟩ := attempts_field m mem hle
  have hinside := within_inside hwithin hstart (Nat.le_refl limit)
  cases hfield : Fossil.parseAndCopyStringField (bytesBetween mem ptr limit) with
  | none =>
      rw [hfield] at houtcome
      exact attempts_stop ⟨hinside, houtcome⟩
  | some field =>
      obtain ⟨text, rest⟩ := field
      obtain ⟨hlen, rfl⟩ := parseAndCopyStringField_eq_some hfield
      rw [hfield] at houtcome
      rw [length_bytesBetween] at hlen
      rw [drop_bytesBetween]
      apply attempts_seq ⟨hinside, houtcome⟩
      apply hf
      · omega
      · show ptr + (text.length + 1) ≤ limit
        omega

theorem isDoubleNull_spec (mem : Memory) {p limit : Nat} (h : p + 1 < limit) :
    Within (InRange p limit) (isDoubleNull mem p) ∧
      (isDoubleNull mem p).value = decide (mem p = 0 ∧ mem (p + 1) = 0) := by
  rw [isDoubleNull]
  constructor
  · apply within_bind
    · apply within_read
      exact ⟨Nat.le_refl p, by omega⟩
    · split
      · apply within_bind
        · apply within_read
          exact ⟨Nat.le_succ p, h⟩
        · exact within_pure _
      · exact within_pure false
  · rw [value_bind, value_read]
    by_cases hfirst : mem p = 0
    · rw [if_pos hfirst, value_bind, value_read, value_pure]
      simp only [hfirst, true_and]
    · rw [if_neg hfirst, value_pure]
      simp only [hfirst, false_and, decide_false]

/-- The scan behind the fossil finds the two null bytes where they first stand. -/
theorem findDoubleNull_spec (mem : Memory) (p limit : Nat) :
    Within (InRange p limit) (findDoubleNull mem p limit) ∧
      (findDoubleNull mem p limit).value =
        (Fossil.findDoubleNull (bytesBetween mem p limit)).map fun i => p + i := by
  induction p using findDoubleNull.induct limit with
  | case1 p h ih =>
      obtain ⟨hwithin, hvalue⟩ := ih
      obtain ⟨hread, hnull⟩ := isDoubleNull_spec mem h
      have hbytes : bytesBetween mem p limit = mem p :: mem (p + 1) :: bytesBetween mem (p + 2) limit := by
        rw [bytesBetween_cons mem (show p < limit by omega), bytesBetween_cons mem h]
      rw [findDoubleNull, if_pos h]
      constructor
      · apply within_bind hread
        split
        · exact within_pure _
        · exact within_inside hwithin (Nat.le_succ p) (Nat.le_refl limit)
      · have hpair : [0, 0] <+: mem p :: mem (p + 1) :: bytesBetween mem (p + 2) limit ↔
            mem p = 0 ∧ mem (p + 1) = 0 := by
          rw [List.cons_prefix_cons, List.cons_prefix_cons, eq_comm, eq_comm (a := 0)]
          simp only [List.nil_prefix, and_true]
        rw [value_bind, hnull, Fossil.findDoubleNull, hbytes, indexOf]
        by_cases hfound : mem p = 0 ∧ mem (p + 1) = 0
        · rw [if_pos (decide_eq_true hfound), if_pos (hpair.mpr hfound)]
          rfl
        · rw [if_neg (by simpa using hfound), if_neg (fun h' => hfound (hpair.mp h')), hvalue, Option.map_map,
            Fossil.findDoubleNull, bytesBetween_cons mem h]
          congr 1
          funext i
          show p + 1 + i = p + (i + 1)
          omega
  | case2 p h =>
      -- at most one byte is left
      have hnone : Fossil.findDoubleNull (bytesBetween mem p limit) = none := by
        apply Option.eq_none_iff_forall_ne_some.mpr
        intro i hi
        have hlen := indexOf_add_length_le hi
        rw [length_bytesBetween, List.length_cons, List.length_singleton] at hlen
        omega
      rw [findDoubleNull, if_neg h, hnone]
      constructor
      · exact within_pure none
      · rfl

/-! ## The parser and the bytes up to the limit -/

/-- There is no fossil at a null pointer, nor at the limit or behind it. -/
theorem parseFromMemory_eq_none (mem : Memory) (h : start = 0 ∨ limit ≤ start) :
    Fossil.parseFromMemory start (bytesBetween mem start limit) = none := by
  rw [Fossil.parseFromMemory]
  by_cases hnull : start = 0
  · rw [guard, if_neg (not_not_intro hnull)]
    rfl
  · rw [guard, if_pos hnull, bytesBetween_of_le mem (by omega)]
    rfl

/-- The parser finds what the bytes from its start up to the limit hold, and reads none other. -/
theorem attempts_parseFromMemory (m : DataModel) (mem : Memory) (start limit : Nat) :
    Attempts (InRange start limit) (parseFromMemory m mem start limit)
      (Fossil.parseFromMemory start (bytesBetween mem start limit)) := by
  rw [parseFromMemory, Fossil.parseFromMemory]
  by_cases hguard : start ≠ 0 ∧ limit ≠ 0 ∧ start < limit
  · have hnull := hguard.1
    have hlt := hguard.2.2
    apply attempts_seq (attempts_guard hguard)
    rw [guard, if_pos hnull]
    apply attempts_field_bind (Nat.le_refl start) (Nat.le_of_lt hlt)
    intro source ptr₁ h₁ hlimit₁
    apply attempts_field_bind (by omega) hlimit₁
    intro target ptr₂ h₂ hlimit₂
    apply attempts_field_bind (by omega) hlimit₂
    intro filesystemType ptr₃ h₃ hlimit₃
    apply attempts_field_bind (by omega) hlimit₃
    intro mountOptions ptr₄ h₄ hlimit₄
    dsimp only
    rw [length_bytesBetween]
    by_cases hflags : ptr₄ + 4 ≤ limit
    · obtain ⟨hcopy, hbytes⟩ := copy_spec mem ptr₄ 4
      obtain ⟨hscan, hremnants⟩ := findDoubleNull_spec mem (ptr₄ + 4) limit
      rw [if_neg (by omega)]
      apply attempts_seq (attempts_guard hflags)
      apply attempts_seq (attempts_lift (within_inside hcopy (by omega) hflags))
      apply attempts_seq (attempts_lift (within_inside hscan (by omega) (Nat.le_refl limit)))
      rw [hbytes, hremnants, take_bytesBetween mem hflags, drop_bytesBetween, length_bytesBetween, length_bytesBetween,
        Option.map_map]
      have hsize : limit - start - (limit - (ptr₄ + 4)) = ptr₄ + 4 - start := by omega
      have hremnant : ((fun x => x - (ptr₄ + 4)) ∘ fun i => ptr₄ + 4 + i) = id := by
        funext i
        exact Nat.add_sub_cancel_left _ _
      rw [hsize, hremnant, Option.map_id]
      exact attempts_pure _
    · rw [if_pos (by omega)]
      apply attempts_stop
      exact attempts_guard_not hflags
  · -- nothing is read, and there is nothing to be found
    have hnone := parseFromMemory_eq_none mem (show start = 0 ∨ limit ≤ start by omega)
    rw [Fossil.parseFromMemory] at hnone
    rw [hnone]
    apply attempts_stop
    exact attempts_guard_not hguard

/-! ## The search -/

/-- The bytes from the position up to the limit begin with a fossil that passes the heuristics. -/
def Holds (mem : Memory) (searchTo p : Nat) (fossil : MountArgv) : Prop :=
  Fossil.parseFromMemory p (bytesBetween mem p searchTo) = some fossil ∧ fossil.passesHeuristics = true

/-- What the search through a range finds: nothing if no position holds a fossil, and else the first one. -/
structure FindsFirst (mem : Memory) (searchFrom searchTo : Nat) (found : Option MountArgv) : Prop where
  isSome_iff : found.isSome ↔ ∃ p fossil, InRange searchFrom searchTo p ∧ Holds mem searchTo p fossil
  holds : ∀ fossil ∈ found, Holds mem searchTo fossil.startAddress fossil
  lowest : ∀ fossil ∈ found, ∀ p other, InRange searchFrom searchTo p → Holds mem searchTo p other →
    fossil.startAddress ≤ p
  inside : ∀ fossil ∈ found, searchFrom ≤ fossil.startAddress ∧
    fossil.startAddress + fossil.fossilSize + fossil.remnantSize ≤ searchTo

variable {m : DataModel} {searchFrom searchTo p : Nat}

/-- The pointers find at a position what the bytes from there on hold. -/
theorem holds_iff {fossil : MountArgv} :
    Holds mem searchTo p fossil ↔
      (parseFromMemory m mem p searchTo).run.value.filter MountArgv.passesHeuristics = some fossil := by
  rw [Option.filter_eq_some_iff, (attempts_parseFromMemory m mem p searchTo).outcome]
  exact Iff.rfl

theorem Holds.spec {fossil : MountArgv} (h : Holds mem searchTo p fossil) :
    fossil.startAddress = p ∧ p + fossil.fossilSize + fossil.remnantSize ≤ searchTo := by
  have hparse := h.1
  obtain ⟨hstart, hsize⟩ := parseFromMemory_spec hparse
  have hlt : p < searchTo := by
    by_contra hle
    rw [parseFromMemory_eq_none mem (.inr (Nat.le_of_not_lt hle))] at hparse
    cases hparse
  rw [length_bytesBetween] at hsize
  exact ⟨hstart, by omega⟩

/-- No position is left. -/
theorem findsFirst_none (h : searchTo ≤ searchFrom) : FindsFirst mem searchFrom searchTo none := by
  constructor
  · constructor
    · intro hsome
      cases hsome
    · rintro ⟨p, fossil, ⟨hle, hlt⟩, -⟩
      omega
  · intro fossil hfound
    cases hfound
  · intro fossil hfound
    cases hfound
  · intro fossil hfound
    cases hfound

/-- The first position holds a fossil. -/
theorem findsFirst_here {fossil : MountArgv} (h : searchFrom < searchTo)
    (hholds : Holds mem searchTo searchFrom fossil) : FindsFirst mem searchFrom searchTo (some fossil) := by
  obtain ⟨rfl, hend⟩ := hholds.spec
  constructor
  · constructor
    · intro _
      exact ⟨fossil.startAddress, fossil, ⟨Nat.le_refl _, h⟩, hholds⟩
    · intro _
      rfl
  · rintro _ ⟨⟩
    exact hholds
  · rintro _ ⟨⟩ p other hp _
    exact hp.1
  · rintro _ ⟨⟩
    exact ⟨Nat.le_refl _, hend⟩

/-- The first position holds none. -/
theorem findsFirst_next {found : Option MountArgv} (hno : ∀ fossil, ¬ Holds mem searchTo searchFrom fossil)
    (hnext : FindsFirst mem (searchFrom + 1) searchTo found) : FindsFirst mem searchFrom searchTo found := by
  -- a position with a fossil comes later
  have hlater : ∀ p fossil, InRange searchFrom searchTo p → Holds mem searchTo p fossil →
      InRange (searchFrom + 1) searchTo p := by
    rintro p fossil ⟨hle, hlt⟩ hholds
    rcases Nat.eq_or_lt_of_le hle with rfl | hlt'
    · exact absurd hholds (hno fossil)
    · exact ⟨hlt', hlt⟩
  constructor
  · rw [hnext.isSome_iff]
    constructor
    · rintro ⟨p, fossil, ⟨hle, hlt⟩, hholds⟩
      exact ⟨p, fossil, ⟨Nat.le_of_succ_le hle, hlt⟩, hholds⟩
    · rintro ⟨p, fossil, hp, hholds⟩
      exact ⟨p, fossil, hlater p fossil hp hholds, hholds⟩
  · exact hnext.holds
  · intro fossil hfound p other hp hholds
    exact hnext.lowest fossil hfound p other (hlater p other hp hholds) hholds
  · intro fossil hfound
    obtain ⟨hle, hend⟩ := hnext.inside fossil hfound
    exact ⟨Nat.le_of_succ_le hle, hend⟩

/-- `MountArgv::find` reads only the searched range, and finds the first fossil there. -/
theorem find_findsFirst (m : DataModel) (mem : Memory) (searchFrom searchTo : Nat) :
    Within (InRange searchFrom searchTo) (find m mem searchFrom searchTo) ∧
      FindsFirst mem searchFrom searchTo (find m mem searchFrom searchTo).value := by
  induction searchFrom using find.induct searchTo with
  | case1 p h ih =>
      obtain ⟨hwithin, hfinds⟩ := ih
      have hparse := (attempts_parseFromMemory m mem p searchTo).within
      rw [find, if_pos h]
      cases hhere : (parseFromMemory m mem p searchTo).run.value.filter MountArgv.passesHeuristics with
      | none =>
          have hno : ∀ fossil, ¬ Holds mem searchTo p fossil := by
            intro fossil hholds
            rw [@holds_iff mem m, hhere] at hholds
            cases hholds
          constructor
          · apply within_bind hparse
            rw [hhere]
            exact within_inside hwithin (Nat.le_succ p) (Nat.le_refl searchTo)
          · rw [value_bind, hhere]
            exact findsFirst_next hno hfinds
      | some fossil =>
          constructor
          · apply within_bind hparse
            rw [hhere]
            exact within_pure _
          · rw [value_bind, hhere]
            exact findsFirst_here h (holds_iff.mpr hhere)
  | case2 p h =>
      have hnull := attempts_parseFromMemory m mem 0 0
      rw [find, if_neg h]
      constructor
      · intro a ha
        exact absurd (hnull.within a ha).2 (Nat.not_lt_zero a)
      · rw [hnull.outcome, parseFromMemory_eq_none mem (.inl rfl)]
        exact findsFirst_none (Nat.le_of_not_lt h)

/-! ## What was written -/

/-- What is written right behind other bytes is written with them. -/
theorem writeAt_writeAt (mem : Memory) {start ptr : Nat} {front : List (BitVec 8)} (back : List (BitVec 8))
    (h : ptr = start + front.length) :
    writeAt (writeAt mem start front) ptr back = writeAt mem start (front ++ back) := by
  funext a
  simp only [writeAt]
  by_cases hstart : a < start
  · rw [if_pos (by omega), if_pos hstart, if_pos hstart]
  · rw [if_neg hstart, if_neg hstart]
    by_cases hback : a < ptr
    · rw [if_pos hback, List.getElem?_append_left (by omega)]
    · rw [if_neg hback, List.getElem?_append_right (by omega), List.getElem?_eq_none (l := front) (by omega),
        Option.getD_none]
      congr 2
      omega

/-- The pointer writes the image of the fossil, and stands behind it then. -/
theorem writeToMemory_eq (fossil : MountArgv) (mem : Memory) :
    writeToMemory fossil mem = (fossil.writeToMemory mem, fossil.startAddress + fossil.image.length) := by
  have hmem : (writeToMemory fossil mem).1 = fossil.writeToMemory mem := by
    dsimp only [writeToMemory]
    rw [writeAt_writeAt mem _ (by simp), writeAt_writeAt mem _ (by simp; omega),
      writeAt_writeAt mem _ (by simp; omega), writeAt_writeAt mem _ (by simp; omega)]
    rfl
  have hend : (writeToMemory fossil mem).2 = fossil.startAddress + fossil.image.length := by
    rw [length_image]
    dsimp only [writeToMemory]
    omega
  exact Prod.ext hmem hend

/-- What was written is there. -/
theorem bytesBetween_writeAt (mem : Memory) {start limit : Nat} {bytes : List (BitVec 8)}
    (h : start + bytes.length ≤ limit) :
    bytesBetween (writeAt mem start bytes) start limit =
      bytes ++ bytesBetween mem (start + bytes.length) limit := by
  apply List.ext_getElem?
  intro i
  rw [bytesBetween, List.getElem?_map]
  by_cases hi : i < limit - start
  · rw [List.getElem?_range hi, Option.map_some, writeAt, if_neg (by omega), Nat.add_sub_cancel_left]
    by_cases hwritten : i < bytes.length
    · rw [List.getElem?_append_left hwritten, List.getElem?_eq_getElem hwritten, Option.getD_some]
    · rw [List.getElem?_append_right (by omega), List.getElem?_eq_none (by omega), Option.getD_none, bytesBetween,
        List.getElem?_map, List.getElem?_range (by omega), Option.map_some]
      congr 2
      omega
  · rw [List.getElem?_eq_none (by rw [List.length_range]; omega), Option.map_none, List.getElem?_eq_none]
    rw [List.length_append, length_bytesBetween]
    omega

theorem parseAndCopyStringField_append {text : Text} (h : 0 ∉ text) (rest : List (BitVec 8)) :
    Fossil.parseAndCopyStringField ((text ++ [0]) ++ rest) = some (text, rest) := by
  have hfield : ((text ++ [0]) ++ rest).takeWhile (· != 0) = text := by
    rw [List.append_assoc]
    apply takeWhile_append_stop
    · intro c hc
      exact bne_iff_ne.mpr fun hzero => h (hzero ▸ hc)
    · rintro c ⟨⟩
      rfl
  have hrest : ((text ++ [0]) ++ rest).drop (text.length + 1) = rest := by
    apply List.drop_left'
    rw [List.length_append, List.length_singleton]
  rw [Fossil.parseAndCopyStringField, hfield, hrest, if_neg]
  rw [List.length_append, List.length_append, List.length_singleton]
  omega

/-- The bytes of a fossil, and any others behind them, are parsed to the fossil. -/
theorem parseFromMemory_image (fossil : MountArgv) (hsource : 0 ∉ fossil.source) (htarget : 0 ∉ fossil.target)
    (htype : 0 ∉ fossil.filesystemType) (hoptions : 0 ∉ fossil.mountOptions) (hnull : fossil.startAddress ≠ 0)
    (hflags : fossil.baseFlags < 2 ^ 32) (rest : List (BitVec 8)) :
    Fossil.parseFromMemory fossil.startAddress (fossil.image ++ rest) =
      some { fossil with
        fossilSize := fossil.image.length
        remnantSize := (Fossil.findDoubleNull rest).getD 0 } := by
  have himage : fossil.image ++ rest = (fossil.source ++ [0]) ++ ((fossil.target ++ [0]) ++
      ((fossil.filesystemType ++ [0]) ++ ((fossil.mountOptions ++ [0]) ++ (toBytes 4 fossil.baseFlags ++ rest)))) := by
    simp only [MountArgv.image, List.append_assoc]
  have hbytes : (toBytes 4 fossil.baseFlags ++ rest).take 4 = toBytes 4 fossil.baseFlags :=
    List.take_left' (length_toBytes 4 fossil.baseFlags)
  have hrest : (toBytes 4 fossil.baseFlags ++ rest).drop 4 = rest :=
    List.drop_left' (length_toBytes 4 fossil.baseFlags)
  have hvalue : ofBytes (toBytes 4 fossil.baseFlags) = fossil.baseFlags := by
    rw [ofBytes_toBytes]
    exact Nat.mod_eq_of_lt hflags
  have hsize : (fossil.image ++ rest).length - rest.length = fossil.image.length := by
    rw [List.length_append, Nat.add_sub_cancel]
  rw [himage] at hsize ⊢
  rw [Fossil.parseFromMemory, guard, if_pos hnull]
  simp only [Option.pure_def, Option.bind_eq_bind, Option.bind_some, parseAndCopyStringField_append hsource,
    parseAndCopyStringField_append htarget, parseAndCopyStringField_append htype,
    parseAndCopyStringField_append hoptions]
  rw [if_neg, hbytes, hrest, hvalue, hsize]
  rw [List.length_append, length_toBytes]
  omega

/-- A written fossil is parsed again with any limit behind it, and only its bytes have changed. -/
theorem parseFromMemory_writeToMemory (m : DataModel) (mem : Memory) {cleanEntry : MountInfoEntry}
    {targetAddress searchLimit : Nat} (baseFlags : BitVec 32) (hsource : 0 ∉ cleanEntry.source)
    (htarget : 0 ∉ cleanEntry.target) (htype : 0 ∉ cleanEntry.filesystemType)
    (hoptions : 0 ∉ cleanEntry.mountOptions) (hnull : targetAddress ≠ 0)
    (hlimit : (writeToMemory (MountArgv.ofEntry cleanEntry targetAddress baseFlags.toNat) mem).2 ≤ searchLimit) :
    let written := MountArgv.ofEntry cleanEntry targetAddress baseFlags.toNat
    (∃ remnantSize,
      (parseFromMemory m (writeToMemory written mem).1 targetAddress searchLimit).run.value =
        some { written with remnantSize := remnantSize }) ∧
      (writeToMemory written mem).2 - targetAddress = written.fossilSize ∧
      ∀ a, ¬ InRange targetAddress (writeToMemory written mem).2 a → (writeToMemory written mem).1 a = mem a := by
  intro written
  have hsize : written.image.length = written.fossilSize := by
    rw [length_image]
    dsimp only [written, MountArgv.ofEntry]
    omega
  rw [writeToMemory_eq] at hlimit ⊢
  refine ⟨?_, ?_, ?_⟩
  · use (Fossil.findDoubleNull (bytesBetween mem (targetAddress + written.image.length) searchLimit)).getD 0
    rw [(attempts_parseFromMemory m _ targetAddress searchLimit).outcome]
    have hbytes : bytesBetween (written.writeToMemory mem) targetAddress searchLimit =
        written.image ++ bytesBetween mem (targetAddress + written.image.length) searchLimit :=
      bytesBetween_writeAt mem hlimit
    have himage := parseFromMemory_image written hsource htarget htype hoptions hnull
      baseFlags.isLt (bytesBetween mem (targetAddress + written.image.length) searchLimit)
    rw [hbytes, ← hsize]
    exact himage
  · show targetAddress + written.image.length - targetAddress = written.fossilSize
    omega
  · intro a ha
    exact writeAt_of_not_mem ha

/-- An entry without a source. -/
def dataEntry : MountInfoEntry := ⟨[], ascii "/data", ascii "ext4", ascii "rw", false⟩

/-- The limit stands right behind what was written. -/
theorem parseFromMemory_writeToMemory_limit :
    (writeToMemory (MountArgv.ofEntry dataEntry 0x1000 7) smallStack).2 = 0x1013 ∧
      ∃ remnantSize,
        (parseFromMemory .lp64 (writeToMemory (MountArgv.ofEntry dataEntry 0x1000 7) smallStack).1 0x1000
          0x1013).run.value = some { MountArgv.ofEntry dataEntry 0x1000 7 with remnantSize := remnantSize } := by
  have hend : (writeToMemory (MountArgv.ofEntry dataEntry 0x1000 (7 : BitVec 32).toNat) smallStack).2 = 0x1013 := by
    rw [writeToMemory_eq]
    rfl
  have hparse := @parseFromMemory_writeToMemory .lp64 smallStack dataEntry 0x1000 0x1013 7 List.not_mem_nil
    (by decide) (by decide) (by decide) (by decide) (Nat.le_of_eq hend)
  exact ⟨hend, hparse.1⟩

end NeoZygisk.Injector.Fossil.Pointers
