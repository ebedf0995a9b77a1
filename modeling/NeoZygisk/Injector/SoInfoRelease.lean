import NeoZygisk.Injector.LinkerTrace

/-!
# Every record is released once

`dropSoPath` takes the addresses of the records it wants first and calls into the linker afterwards,
one address after another, while each call may rewrite the list: the linker unloads what nobody needs
any more together with the record it was asked for. A second unload of a record aborts the process.

Here the linker may take off any records at any call. Two checks stand before each call, that the
record is still reached from `solinker` and that its size is not zero, and what they protect is one
invariant (`Inv`): a record whose block has not been called is as it was at the start or has size
zero. `dropOne_inv` keeps it over one round, `dropSoPath_safeRelease` is what it leaves of the run,
and `records_dropSoPath` is the case of a linker that drops exactly the record it is asked for.
-/

set_option autoImplicit false

namespace NeoZygisk.Injector.SoInfoRelease

/-! ## The list behind `solinker` -/

/-- What `SoInfoWrapper` reads of a record. `path` is `none` where `getPath` gives null. -/
structure Record where
  addr : Nat
  base : Nat
  size : Nat
  path : Option String
  constructorCalled : Bool
  deriving DecidableEq, Repr

namespace Record

/-- `getPath() && strstr(getPath(), needle)`. -/
def contains (needle : String) (r : Record) : Bool :=
  r.path.any fun path => decide (needle.toList <:+: path.toList)

/-- The records the first loop collects. -/
def isTarget (needle : String) (r : Record) : Bool := r.contains needle && decide (0 < r.size)

/-- A block that went back to the allocator. -/
def zeroed (r : Record) : Record := ⟨r.addr, 0, 0, none, false⟩

/-- A store to a field of the record at `a`. -/
def storeAt (a : Nat) (store : Record → Record) (r : Record) : Record :=
  if r.addr = a then { store r with addr := r.addr } else r

@[simp] theorem addr_storeAt (a : Nat) (store : Record → Record) (r : Record) :
    (r.storeAt a store).addr = r.addr := by
  unfold storeAt
  split_ifs <;> rfl

theorem storeAt_of_ne {a : Nat} {r : Record} (store : Record → Record) (h : r.addr ≠ a) :
    r.storeAt a store = r := if_neg h

end Record

/-- The records reached from `solinker`. The pointer is read once and never set again, so its record
stays in the walk whatever becomes of the block. -/
structure Solist where
  solinker : Record
  next : List Record
  distinct : ((solinker :: next).map Record.addr).Nodup

namespace Solist

variable (s : Solist)

def records : List Record := s.solinker :: s.next

/-- A store to a field of the record at `a`, wherever the walk meets it. -/
def store (a : Nat) (f : Record → Record) : Solist where
  solinker := s.solinker.storeAt a f
  next := s.next.map (Record.storeAt a f)
  distinct := by simpa [Function.comp_def] using s.distinct

def setSize (a size : Nat) : Solist := s.store a fun r => { r with size := size }

def setConstructorCalled (a : Nat) (called : Bool) : Solist :=
  s.store a fun r => { r with constructorCalled := called }

/-- What a call into the linker leaves. Blocks are zeroed as they are freed: if the first one goes, the
walk from `solinker` ends there. -/
def unlink (gone : Record → Bool) : Solist :=
  if gone s.solinker then ⟨s.solinker.zeroed, [], List.nodup_singleton _⟩
  else
    ⟨s.solinker, s.next.filter fun r => !gone r,
      s.distinct.sublist ((List.filter_sublist.cons_cons _).map Record.addr)⟩

end Solist

/-! ## `dropSoPath` -/

/-- A call of `soinfo_unload` or `soinfo_free`, and the list as it is when the call is made. -/
structure Call where
  unload : Bool
  target : Nat
  linked : List Record

/-- The records the linker takes off the list at the last call of a sequence. -/
abbrev Linker := List Call → Record → Bool

/-- The state of the second loop: the list, the calls made so far, `path_found` and what the two out
parameters point to. -/
structure State where
  solist : Solist
  calls : List Call
  pathFound : Bool
  outBase : Option Nat
  outSize : Option Nat

/-- `if (out != nullptr && *out == 0) *out = value`. -/
def setOut (out : Option Nat) (value : Nat) : Option Nat := out.map fun n => if n = 0 then value else n

/-- One round of the second loop for a record that is still linked and has a size. -/
def release (gone : Linker) (unload : Bool) (st : State) (target : Record) : State :=
  let sized := st.solist.setSize target.addr 0
  let entered := if unload then sized.setConstructorCalled target.addr false else sized
  let calls := st.calls ++ [⟨unload, target.addr, entered.records⟩]
  -- what the linker does may depend on all calls so far
  let left := entered.unlink (gone calls)
  { solist :=
      if unload then left.setConstructorCalled target.addr true
      else left.setSize target.addr target.size
    calls := calls
    pathFound := true
    outBase := setOut st.outBase target.base
    outSize := setOut st.outSize target.size }

/-- One round of the second loop. -/
def dropOne (gone : Linker) (unload : Bool) (st : State) (target : Nat) : State :=
  match st.solist.records.find? fun r => decide (r.addr = target) with
  -- an earlier unload took it along
  | none => st
  | some r => if r.size = 0 then st else release gone unload st r

/-- The addresses the first loop collects, highest first. -/
def targets (needle : String) (s : Solist) : List Nat :=
  ((s.records.filter (Record.isTarget needle)).map Record.addr).insertionSort (· ≥ ·)

/-- `none` where `solinker` is null and `initialize` fails: the function returns false at once.
`initialized` is the list that `initialize` finds. -/
def dropSoPath (gone : Linker) (needle : String) (unload : Bool) (outBase outSize : Option Nat)
    (solinker initialized : Option Solist) : Option State :=
  (solinker <|> initialized).map fun s =>
    (targets needle s).foldl (dropOne gone unload) ⟨s, [], false, outBase, outSize⟩

/-! ## What is to hold -/

/-- No record is released twice or without being reached from `solinker`, none of another name is
released, and nothing of the name is left behind: released, no longer linked, or of size zero. -/
structure SafeRelease (needle : String) (start : Solist) (st : State) : Prop where
  once : (st.calls.map Call.target).Nodup
  linked : ∀ c ∈ st.calls, ∃ r ∈ c.linked, r.addr = c.target ∧ r.contains needle = true
  named : ∀ c ∈ st.calls, ∃ r ∈ start.records, r.addr = c.target ∧ r.contains needle = true
  settled : ∀ r ∈ start.records, r.contains needle = true →
    r.addr ∈ st.calls.map Call.target ∨ r.addr ∉ st.solist.records.map Record.addr ∨
      ∃ r' ∈ st.solist.records, r'.addr = r.addr ∧ r'.size = 0

/-! ## What a call can do to the list -/

namespace Solist

variable {s : Solist} {r : Record} {a : Nat}

theorem mem_records_store {f : Record → Record} :
    r ∈ (s.store a f).records ↔ ∃ old ∈ s.records, old.storeAt a f = r := by
  simp [store, records, eq_comm]

/-- Two records of one address are one record. -/
theorem eq_of_addr_eq {r r' : Record} (h : r ∈ s.records) (h' : r' ∈ s.records) (heq : r.addr = r'.addr) :
    r = r' :=
  List.inj_on_of_nodup_map s.distinct h h' heq

/-- Every record of `s'` stands where one of `s` stood, and apart from the block at `a` it is that
record or has size zero. -/
def Leads (a : Nat) (s s' : Solist) : Prop :=
  ∀ r ∈ s'.records, ∃ old ∈ s.records, r.addr = old.addr ∧ (r.addr = a ∨ r.size = 0 ∨ r = old)

theorem Leads.trans {s s' s'' : Solist} (h : Leads a s s') (h' : Leads a s' s'') : Leads a s s'' := by
  intro r hr
  obtain ⟨mid, hmid, haddr, hcases⟩ := h' r hr
  obtain ⟨old, hold, haddr', hcases'⟩ := h mid hmid
  refine ⟨old, hold, haddr.trans haddr', ?_⟩
  rcases hcases with hat | hzero | rfl
  · exact Or.inl hat
  · exact Or.inr (Or.inl hzero)
  · exact hcases'

theorem leads_store (s : Solist) (a : Nat) (f : Record → Record) : Leads a s (s.store a f) := by
  intro r hr
  obtain ⟨old, hold, rfl⟩ := mem_records_store.mp hr
  refine ⟨old, hold, Record.addr_storeAt a f old, ?_⟩
  by_cases hat : old.addr = a
  · exact Or.inl ((Record.addr_storeAt a f old).trans hat)
  · exact Or.inr (Or.inr (Record.storeAt_of_ne f hat))

theorem leads_unlink (s : Solist) (a : Nat) (gone : Record → Bool) : Leads a s (s.unlink gone) := by
  intro r hr
  unfold unlink at hr
  split_ifs at hr with hgone
  · -- the block of `solinker` is zeroed and the walk ends there
    obtain rfl : r = s.solinker.zeroed := by simpa [records] using hr
    exact ⟨s.solinker, List.mem_cons_self, rfl, Or.inr (Or.inl rfl)⟩
  · refine ⟨r, ?_, rfl, Or.inr (Or.inr rfl)⟩
    rcases List.mem_cons.mp hr with rfl | hmem
    · exact List.mem_cons_self
    · exact List.mem_cons_of_mem _ (List.mem_of_mem_filter hmem)

end Solist

section Rounds

variable (gone : Linker) (unload : Bool) (st : State) (target : Record)

/-- The list as the linker finds it when it is called. -/
def entered : Solist :=
  let sized := st.solist.setSize target.addr 0
  if unload then sized.setConstructorCalled target.addr false else sized

theorem calls_release :
    (release gone unload st target).calls =
      st.calls ++ [⟨unload, target.addr, (entered unload st target).records⟩] := rfl

theorem leads_entered : Solist.Leads target.addr st.solist (entered unload st target) := by
  unfold entered
  cases unload with
  | false => exact Solist.leads_store _ _ _
  | true => exact (Solist.leads_store _ _ _).trans (Solist.leads_store _ _ _)

theorem leads_release : Solist.Leads target.addr st.solist (release gone unload st target).solist := by
  have hcall := (leads_entered unload st target).trans
    (Solist.leads_unlink _ _ (gone (release gone unload st target).calls))
  cases unload with
  | false => exact hcall.trans (Solist.leads_store _ _ _)
  | true => exact hcall.trans (Solist.leads_store _ _ _)

/-- The record is still linked when the linker is called for it, under its own name. -/
theorem mem_entered (h : target ∈ st.solist.records) :
    ∃ r ∈ (entered unload st target).records, r.addr = target.addr ∧ r.path = target.path := by
  have hsized : { target with size := 0 } ∈ (st.solist.setSize target.addr 0).records := by
    apply Solist.mem_records_store.mpr
    exact ⟨target, h, by simp [Record.storeAt]⟩
  unfold entered
  cases unload with
  | false => exact ⟨_, hsized, rfl, rfl⟩
  | true =>
      refine ⟨{ target with size := 0, constructorCalled := false }, ?_, rfl, rfl⟩
      apply Solist.mem_records_store.mpr
      exact ⟨_, hsized, by simp [Record.storeAt]⟩

end Rounds

/-- What one round can do: the record is gone or has size zero, or it is linked with a size and is
released. -/
theorem dropOne_cases (gone : Linker) (unload : Bool) (st : State) (a : Nat) :
    (dropOne gone unload st a = st ∧ ∀ r ∈ st.solist.records, r.addr = a → r.size = 0) ∨
      ∃ r ∈ st.solist.records, r.addr = a ∧ r.size ≠ 0 ∧
        dropOne gone unload st a = release gone unload st r := by
  unfold dropOne
  cases hfind : st.solist.records.find? fun r => decide (r.addr = a) with
  | none =>
      refine Or.inl ⟨rfl, ?_⟩
      intro r hr haddr
      exact absurd haddr (by simpa using List.find?_eq_none.mp hfind r hr)
  | some r =>
      have hmem : r ∈ st.solist.records := List.mem_of_find?_eq_some hfind
      have haddr : r.addr = a := by simpa using List.find?_some hfind
      by_cases hsize : r.size = 0
      · refine Or.inl ⟨if_pos hsize, ?_⟩
        intro r' hr' haddr'
        rw [Solist.eq_of_addr_eq hr' hmem (haddr'.trans haddr.symm)]
        exact hsize
      · exact Or.inr ⟨r, hmem, haddr, hsize, if_neg hsize⟩

/-! ## The invariant -/

/-- After the rounds for `done`. A record whose block was not called is as at the start or has size
zero, so what is called is called under the name it was collected for. -/
structure Inv (needle : String) (start : Solist) (done : List Nat) (st : State) : Prop where
  calls_done : List.Sublist (st.calls.map Call.target) done
  kept : ∀ r ∈ st.solist.records, r.addr ∈ st.calls.map Call.target ∨ r.size = 0 ∨ r ∈ start.records
  linked : ∀ c ∈ st.calls, ∃ r ∈ c.linked, r.addr = c.target ∧ r.contains needle = true
  named : ∀ c ∈ st.calls, ∃ r ∈ start.records, r.addr = c.target ∧ r.contains needle = true
  settled : ∀ a ∈ done, a ∈ st.calls.map Call.target ∨ ∀ r ∈ st.solist.records, r.addr = a → r.size = 0

section Runs

variable {needle : String} {start : Solist} {done : List Nat} {st : State} {a : Nat}

/-- A block that counts as settled stays so while the linker is called for another one. -/
theorem settled_of_leads {s s' : Solist} {b : Nat} (h : Solist.Leads b s s') (hne : a ≠ b)
    (hzero : ∀ r ∈ s.records, r.addr = a → r.size = 0) : ∀ r ∈ s'.records, r.addr = a → r.size = 0 := by
  intro r hr haddr
  obtain ⟨old, hold, haddr', hat | hsize | rfl⟩ := h r hr
  · exact absurd (haddr.symm.trans hat) hne
  · exact hsize
  · exact hzero r hold haddr

/-- A block that is passed over is gone or has size zero. -/
theorem Inv.skip (h : Inv needle start done st) (hzero : ∀ r ∈ st.solist.records, r.addr = a → r.size = 0) :
    Inv needle start (done ++ [a]) st := by
  refine ⟨h.calls_done.trans (List.sublist_append_left done [a]), h.kept, h.linked, h.named, ?_⟩
  intro b hb
  rcases List.mem_append.mp hb with hdone | hlast
  · exact h.settled b hdone
  · obtain rfl := List.mem_singleton.mp hlast
    exact Or.inr hzero

/-- A record with a size whose block was not called is still the one of the start. -/
theorem Inv.mem_start {r : Record} (h : Inv needle start done st) (hnew : r.addr ∉ done)
    (hr : r ∈ st.solist.records) (hsize : r.size ≠ 0) : r ∈ start.records := by
  rcases h.kept r hr with hcalled | hzero | hold
  · exact absurd (h.calls_done.subset hcalled) hnew
  · exact absurd hzero hsize
  · exact hold

theorem Inv.released {r : Record} (gone : Linker) (unload : Bool) (h : Inv needle start done st)
    (hr : r ∈ st.solist.records) (hstart : r ∈ start.records) (hcontains : r.contains needle = true) :
    Inv needle start (done ++ [r.addr]) (release gone unload st r) := by
  have hcalls : (release gone unload st r).calls.map Call.target = st.calls.map Call.target ++ [r.addr] := by
    rw [calls_release, List.map_append]
    rfl
  constructor
  case calls_done =>
    rw [hcalls]
    exact h.calls_done.append (List.Sublist.refl _)
  case kept =>
    intro r' hr'
    rw [hcalls]
    obtain ⟨old, hold, haddr', hat | hzero | rfl⟩ := leads_release gone unload st r r' hr'
    · exact Or.inl (List.mem_append_right _ (List.mem_singleton.mpr hat))
    · exact Or.inr (Or.inl hzero)
    · exact (h.kept r' hold).imp_left (List.mem_append_left _)
  case linked =>
    obtain ⟨r', hr', haddr', hpath⟩ := mem_entered unload st r hr
    have hcontains' : r'.contains needle = true := by rwa [Record.contains, hpath]
    rw [calls_release, List.forall_mem_append, List.forall_mem_singleton]
    exact ⟨h.linked, r', hr', haddr', hcontains'⟩
  case named =>
    rw [calls_release, List.forall_mem_append, List.forall_mem_singleton]
    exact ⟨h.named, r, hstart, rfl, hcontains⟩
  case settled =>
    intro b hb
    rw [hcalls]
    by_cases heq : b = r.addr
    · exact Or.inl (List.mem_append_right _ (List.mem_singleton.mpr heq))
    · have hdone : b ∈ done := by
        rcases List.mem_append.mp hb with hdone | hlast
        · exact hdone
        · exact absurd (List.mem_singleton.mp hlast) heq
      rcases h.settled b hdone with hcalled | hzero
      · exact Or.inl (List.mem_append_left _ hcalled)
      · exact Or.inr (settled_of_leads (leads_release gone unload st r) heq hzero)

theorem dropOne_inv (gone : Linker) (unload : Bool) (h : Inv needle start done st) (hnew : a ∉ done)
    (htarget : ∃ r ∈ start.records, r.addr = a ∧ r.contains needle = true) :
    Inv needle start (done ++ [a]) (dropOne gone unload st a) := by
  obtain ⟨target, hmem, haddr, hcontains⟩ := htarget
  rcases dropOne_cases gone unload st a with ⟨hskip, hzero⟩ | ⟨r, hr, rfl, hsize, hrelease⟩
  · rw [hskip]
    exact h.skip hzero
  · have hstart : r ∈ start.records := h.mem_start hnew hr hsize
    -- the record is the one that was collected, with its name
    obtain rfl : r = target := Solist.eq_of_addr_eq hstart hmem haddr.symm
    rw [hrelease]
    exact h.released gone unload hr hstart hcontains

/-- The rounds for further addresses, none of them twice. -/
theorem foldl_dropOne_inv (gone : Linker) (unload : Bool) (rest : List Nat) (h : Inv needle start done st)
    (hnodup : (done ++ rest).Nodup)
    (htargets : ∀ a ∈ rest, ∃ r ∈ start.records, r.addr = a ∧ r.contains needle = true) :
    Inv needle start (done ++ rest) (rest.foldl (dropOne gone unload) st) := by
  -- the round for `a` moves it from the rest to what is done
  induction rest generalizing done st with
  | nil => simpa using h
  | cons a rest ih =>
      have hsplit : done ++ a :: rest = (done ++ [a]) ++ rest := by simp
      have hnew : a ∉ done := by
        intro hdone
        exact List.disjoint_of_nodup_append hnodup hdone List.mem_cons_self
      rw [hsplit] at hnodup ⊢
      apply ih
      · exact dropOne_inv gone unload h hnew (htargets a List.mem_cons_self)
      · exact hnodup
      · intro b hb
        exact htargets b (List.mem_cons_of_mem a hb)

end Runs

/-! ## A whole run -/

section Targets

variable (needle : String) (s : Solist)

theorem mem_targets_iff {a : Nat} :
    a ∈ targets needle s ↔ ∃ r ∈ s.records, (r.contains needle = true ∧ 0 < r.size) ∧ r.addr = a := by
  simp [targets, List.mem_insertionSort, Record.isTarget, and_assoc]

theorem nodup_targets : (targets needle s).Nodup := by
  have hsub : ((s.records.filter (Record.isTarget needle)).map Record.addr).Nodup :=
    s.distinct.sublist (List.filter_sublist.map Record.addr)
  exact (List.perm_insertionSort _ _).nodup_iff.mpr hsub

end Targets

/-- After the last round nothing that matched is left with a size, unless it was released. -/
theorem settled_of_inv {needle : String} {start : Solist} {st : State}
    (h : Inv needle start (targets needle start) st) {r : Record} (hr : r ∈ start.records)
    (hcontains : r.contains needle = true) (hcalled : r.addr ∉ st.calls.map Call.target) :
    ∀ r' ∈ st.solist.records, r'.addr = r.addr → r'.size = 0 := by
  intro r' hr' haddr
  rcases h.kept r' hr' with hcalled' | hzero | hold
  · exact absurd (haddr ▸ hcalled') hcalled
  · exact hzero
  · -- the record is the one of the start: its size was zero already, or it was a target
    obtain rfl := Solist.eq_of_addr_eq hold hr haddr
    by_cases hsize : r'.size = 0
    · exact hsize
    · have htarget := (mem_targets_iff needle start).mpr ⟨r', hr, ⟨hcontains, by omega⟩, rfl⟩
      rcases h.settled _ htarget with hcalled' | hzero
      · exact absurd hcalled' hcalled
      · exact hzero r' hr' rfl

/-- Whatever the linker takes off at each call, no record is released twice, unlinked or under another
name, and nothing that matched is left behind. -/
theorem dropSoPath_safeRelease (gone : Linker) (needle : String) (unload : Bool) (outBase outSize : Option Nat)
    (solinker initialized : Option Solist) (start : Solist) (h : (solinker <|> initialized) = some start) :
    ∃ st, dropSoPath gone needle unload outBase outSize solinker initialized = some st ∧
      SafeRelease needle start st := by
  have hinv : Inv needle start ([] ++ targets needle start)
      ((targets needle start).foldl (dropOne gone unload) ⟨start, [], false, outBase, outSize⟩) := by
    apply foldl_dropOne_inv
    case h =>
      constructor
      case kept => exact fun r hr => Or.inr (Or.inr hr)
      all_goals simp
    case hnodup => exact nodup_targets needle start
    case htargets =>
      intro a ha
      obtain ⟨r, hr, ⟨hcontains, -⟩, haddr⟩ := (mem_targets_iff needle start).mp ha
      exact ⟨r, hr, haddr, hcontains⟩
  rw [List.nil_append] at hinv
  refine ⟨_, by rw [dropSoPath, h]; rfl, ?_⟩
  refine ⟨(nodup_targets needle start).sublist hinv.calls_done, hinv.linked, hinv.named, ?_⟩
  intro r hr hcontains
  rw [or_iff_not_imp_left]
  intro hcalled
  rw [or_iff_not_imp_left, not_not]
  intro hlinked
  obtain ⟨r', hr', haddr⟩ := List.mem_map.mp hlinked
  exact ⟨r', hr', haddr, settled_of_inv hinv hr hcontains hcalled r' hr' haddr⟩

/-- Two libraries of the name, the second of which goes with the first. -/
def dependent : Solist where
  solinker := ⟨0x100, 0x7000, 0x1000, some "/system/bin/linker64", true⟩
  next :=
    [⟨0x200, 0x8000, 0x1000, some "/memfd:zygisk-module (deleted)", true⟩,
      ⟨0x300, 0x9000, 0x2000, some "/system/lib64/libc.so", true⟩,
      ⟨0x400, 0xa000, 0x3000, some "/memfd:zygisk-module (deleted)", true⟩]
  distinct := by decide

/-- The unload of the record at `0x400` takes the one at `0x200` with it, which is then passed over. -/
theorem dropSoPath_dependent :
    (∃ st, dropSoPath (fun _ r => decide (r.addr = 0x200 ∨ r.addr = 0x400)) "zygisk-module" true none none
        (some dependent) none = some st ∧ SafeRelease "zygisk-module" dependent st) ∧
      (dropSoPath (fun _ r => decide (r.addr = 0x200 ∨ r.addr = 0x400)) "zygisk-module" true none none
        (some dependent) none).map (fun st => (st.calls.map Call.target, st.pathFound)) = some ([0x400], true) := by
  constructor
  · exact dropSoPath_safeRelease _ _ _ _ _ _ _ dependent rfl
  · decide +kernel

/-! ## A linker that drops what it is asked for -/

def ofSoInfo (r : LinkerTrace.SoInfo) : Record := ⟨r.addr, 0, r.size, some r.path, true⟩

/-- An unload takes the record it is asked for off the list unless the record is pinned, `soinfo_free`
takes it off in any case, and nothing goes along. -/
def dropping (pinned : Nat → Bool) : Linker := fun calls r =>
  calls.getLast?.any fun c => decide (r.addr = c.target) && !(c.unload && pinned c.target)

section Dropping

variable {pinned : Nat → Bool} {st : State} {L : LinkerTrace.Linker} {needle : String} {a : Nat}

@[simp] theorem contains_ofSoInfo (r : LinkerTrace.SoInfo) :
    (ofSoInfo r).contains needle = r.contains needle := rfl

@[simp] theorem Solist.records_store (s : Solist) (a : Nat) (f : Record → Record) :
    (s.store a f).records = s.records.map (Record.storeAt a f) := rfl

/-- While the first block stays, a call filters the list. -/
theorem Solist.records_unlink {s : Solist} {gone : Record → Bool} (h : gone s.solinker = false) :
    (s.unlink gone).records = s.records.filter fun r => !gone r := by
  simp [unlink, records, h]

@[simp] theorem dropping_append (calls : List Call) (c : Call) (r : Record) :
    dropping pinned (calls ++ [c]) r = (decide (r.addr = c.target) && !(c.unload && pinned c.target)) := by
  simp [dropping]

/-- The two lists agree, `first` is the block of `solinker` and `pinned` is what the records say. -/
structure Same (pinned : Nat → Bool) (first : Nat) (st : State) (L : LinkerTrace.Linker) : Prop where
  records : st.solist.records = L.solist.map ofSoInfo
  pinned : ∀ r ∈ L.solist, r.pinned = pinned r.addr
  first : st.solist.solinker.addr = first

/-- Two lists made from one are equal if the records that stay are the same and look the same. -/
theorem map_filter_congr {α β : Type} {l : List α} {p q : α → Bool} {f g : α → β}
    (hpq : ∀ x ∈ l, p x = q x) (hfg : ∀ x ∈ l, q x = true → f x = g x) :
    (l.filter p).map f = (l.filter q).map g := by
  rw [List.filter_congr hpq]
  apply List.map_congr_left
  intro x hx
  obtain ⟨hmem, hq⟩ := List.mem_filter.mp hx
  exact hfg x hmem hq

theorem release_same {first : Nat} (unload : Bool) (h : Same pinned first st L) {r : LinkerTrace.SoInfo}
    (hne : r.addr ≠ first) :
    Same pinned first (release (dropping pinned) unload st (ofSoInfo r))
      (if unload then (L.setSize r.addr 0).soinfoUnload r.addr
        else (L.setSize r.addr 0).soinfoFree r.addr) := by
  have hfirst : first ≠ r.addr := Ne.symm hne
  constructor
  case records =>
    cases unload with
    | false =>
        simp only [release, if_false, Solist.setSize, Solist.records_store, Bool.false_eq_true]
        rw [Solist.records_unlink]
        · simp only [Solist.records_store, h.records, LinkerTrace.Linker.soinfoFree, LinkerTrace.Linker.remove,
            LinkerTrace.Linker.setSize, List.filter_map, List.map_map]
          apply map_filter_congr
          · intro x hx
            by_cases hat : x.addr = r.addr <;> simp [ofSoInfo, hat]
          · intro x hx hstays
            by_cases hat : x.addr = r.addr <;> simp_all [ofSoInfo, Record.storeAt]
        · simp [Solist.store, h.first, hfirst, ofSoInfo]
    | true =>
        simp only [release, if_true, Solist.setConstructorCalled, Solist.setSize, Solist.records_store]
        rw [Solist.records_unlink]
        · simp only [Solist.records_store, h.records, LinkerTrace.Linker.soinfoUnload, LinkerTrace.Linker.remove,
            LinkerTrace.Linker.setSize, List.filter_map, List.map_map]
          apply map_filter_congr
          · intro x hx
            by_cases hat : x.addr = r.addr <;>
              simp [ofSoInfo, hat, LinkerTrace.Linker.closes, h.pinned x hx]
          · intro x hx hstays
            by_cases hat : x.addr = r.addr <;>
              simp [ofSoInfo, hat, Record.storeAt, LinkerTrace.SoInfo.setSize]
        · simp [Solist.store, h.first, hfirst, ofSoInfo]
  case pinned =>
    have hsized : ∀ x ∈ (L.setSize r.addr 0).solist, x.pinned = pinned x.addr := by
      intro x hx
      obtain ⟨old, hold, rfl⟩ := LinkerTrace.Linker.mem_setSize.mp hx
      split_ifs <;> exact h.pinned old hold
    intro x hx
    cases unload with
    | false => exact hsized x (List.mem_of_mem_filter hx)
    | true => exact hsized x (List.mem_of_mem_filter hx)
  case first =>
    cases unload <;>
      simp [release, Solist.setSize, Solist.setConstructorCalled, Solist.store, Solist.unlink, h.first, hfirst,
        ofSoInfo]

theorem dropOne_same {first : Nat} (unload : Bool) (h : Same pinned first st L) (hne : a ≠ first) :
    Same pinned first (dropOne (dropping pinned) unload st a) (LinkerTrace.dropOne unload L a) := by
  have hfind : (st.solist.records.find? fun r => decide (r.addr = a)) =
      (L.solist.find? fun r => decide (r.addr = a)).map ofSoInfo := by
    rw [h.records, List.find?_map]
    rfl
  unfold dropOne LinkerTrace.dropOne
  rw [hfind]
  cases hfound : L.solist.find? fun r => decide (r.addr = a) with
  | none => exact h
  | some r =>
      have haddr : r.addr = a := by simpa using List.find?_some hfound
      subst haddr
      by_cases hsize : r.size = 0
      · simpa [ofSoInfo, hsize] using h
      · simpa [ofSoInfo, hsize] using release_same unload h hne

theorem foldl_dropOne_same {first : Nat} (unload : Bool) (as : List Nat) (h : Same pinned first st L)
    (hne : ∀ a ∈ as, a ≠ first) :
    Same pinned first (as.foldl (dropOne (dropping pinned) unload) st)
      (as.foldl (LinkerTrace.dropOne unload) L) := by
  induction as generalizing st L with
  | nil => exact h
  | cons a as ih =>
      apply ih
      · exact dropOne_same unload h (hne a List.mem_cons_self)
      · exact fun b hb => hne b (List.mem_cons_of_mem a hb)

end Dropping

/-- For such a linker, whose own record has another name, the run is the one of `LinkerTrace`. -/
theorem records_dropSoPath {L : LinkerTrace.Linker} {head : LinkerTrace.SoInfo} {tail : List LinkerTrace.SoInfo}
    (hL : L.solist = head :: tail) (pinned : Nat → Bool) (hpinned : ∀ r ∈ L.solist, r.pinned = pinned r.addr)
    (needle : String) (hhead : head.contains needle = false) (unload : Bool) (handles : LinkerTrace.Handles)
    (hhandles : handles.solinker = true) {start : Solist} (hstart : start.records = L.solist.map ofSoInfo) :
    ∃ st, dropSoPath (dropping pinned) needle unload none none (some start) none = some st ∧
      st.solist.records = (LinkerTrace.dropSoPath handles needle unload L).solist.map ofSoInfo := by
  have htargets : targets needle start = LinkerTrace.targets needle L := by
    rw [targets, LinkerTrace.targets, hstart, List.filter_map, List.map_map]
    rfl
  have hfirst : start.solinker.addr = head.addr := by
    have hrecords := hstart
    rw [hL] at hrecords
    exact congrArg Record.addr (List.cons.inj hrecords).1
  have hne : ∀ a ∈ LinkerTrace.targets needle L, a ≠ head.addr := by
    rintro a ha rfl
    rw [← htargets] at ha
    obtain ⟨r, hr, ⟨hcontains, -⟩, haddr⟩ := (mem_targets_iff needle start).mp ha
    obtain rfl := Solist.eq_of_addr_eq hr List.mem_cons_self (haddr.trans hfirst.symm)
    rw [hL] at hstart
    rw [(List.cons.inj hstart).1, contains_ofSoInfo, hhead] at hcontains
    cases hcontains
  have hsame : Same pinned head.addr ⟨start, [], false, none, none⟩ L := ⟨hstart, hpinned, hfirst⟩
  refine ⟨(targets needle start).foldl (dropOne (dropping pinned) unload) ⟨start, [], false, none, none⟩, rfl, ?_⟩
  rw [htargets, LinkerTrace.dropSoPath, if_pos hhandles]
  exact (foldl_dropOne_same unload _ hsame hne).records

end NeoZygisk.Injector.SoInfoRelease
