import NeoZygisk.Injector.Lifecycle

/-!
# Reading `/proc/self/fd`

`fork_pre` records the descriptors a child starts with and `sanitize_fds` closes what nobody spoke for, since
the framework aborts an app that has a descriptor it does not expect. Both read `/proc/self/fd` through a
descriptor that shows up in the directory itself, and both act on the directory while they read it: the loops
are spelled out here over a directory that is listed in ascending order and is open to change (`readDir`).

`recordFdsIn_spec` and `sanitizeFdsIn_spec` say what the two leave, each from one invariant about the numbers
that the listing is past (`readDir_invariant`). It is what `Lifecycle` states as their outcome
(`recordFdsIn_eq`, `sanitizeFdsIn_eq`): the directory itself leaves no trace.
-/

set_option autoImplicit false

namespace NeoZygisk.Injector.SanitizeFds

open NeoZygisk.Common
open NeoZygisk.Lib.Mask

/-! ## `/proc/self/fd` -/

def isOpen (p : Proc) (n : Nat) : Bool := p.fds.any (·.num == n)

/-- A number above every open one. -/
def fdBound (p : Proc) : Nat := (p.fds.map fun f => f.num + 1).foldr max 0

/-- `while (entry = readdir(dir))`: the directory lists numbers in ascending order, each of them if it is
open by the time the listing gets there. The entries "." and ".." parse as -1, with which neither loop does
anything. -/
def readDir (body : Nat → Proc → Proc) (p : Proc) : Proc :=
  (List.range (fdBound p)).foldl (fun q n => if isOpen q n then body n q else q) p

/-- `open_dir`; `d` is the number of the new descriptor. -/
def openDir (d : Nat) (p : Proc) : Proc := { p with fds := p.fds ++ [⟨d, "/proc/self/fd"⟩] }

/-- The directory is closed at the end of the scope. -/
def closeDir (d : Nat) (p : Proc) : Proc := { p with fds := p.fds.filter fun f => f.num != d }

/-! ## `fork_pre` -/

def recordEntry (fd : Nat) (p : Proc) : Proc :=
  withCtx p fun c =>
    -- the vector has a bit for each number below the limit
    if c.fdMax ≤ fd then p.close fd
    else p.setCtx { c with allowedFds := c.allowedFds ++ [fd] }

/-- The second part of `fork_pre`. -/
def recordFdsIn (d : Nat) (p : Proc) : Proc :=
  let listed := readDir recordEntry (openDir d p)
  closeDir d (withCtx listed fun c =>
    listed.setCtx { c with allowedFds := c.allowedFds.filter fun n => n != d })

/-- `fork_pre`. -/
def forkPreIn (env : Env) (d : Nat) (p : Proc) : Proc :=
  withCtx p fun c =>
    let r := oldFork env p
    let c := { c with pid := r.1 }
    if isChild c then recordFdsIn d (r.2.setCtx c) else r.2.setCtx c

/-! ## `sanitize_fds` -/

def kFdTargetMax : Nat := 256

/-- What `readlinkat` puts into the buffer: it neither terminates the target nor says how long it was. -/
def truncated (target : String) : String := String.ofList (target.toList.take (kFdTargetMax - 1))

def fdTarget (p : Proc) (fd : Nat) : String :=
  ((p.fds.find? (·.num == fd)).map fun f => truncated f.target).getD "<unreadable>"

def sanitizeEntry (dfd fd : Nat) (p : Proc) : Proc :=
  withCtx p fun c =>
    -- the listing runs through the directory's own descriptor too
    if fd = dfd then p
    else if decide (fd < c.fdMax) && c.allowedFds.contains fd then p
    else if isAllowedFdTarget (fdTarget p fd) then p
    else p.close fd

/-- `sanitize_fds`; `dir` is `none` when the directory does not open. -/
def sanitizeFdsIn (env : Env) (dir : Option Nat) (p : Proc) : Proc :=
  withCtx p fun c =>
    if isChild c then
      match dir with
      | none => p.setCtx (allowExempted env c)
      | some d => closeDir d (readDir (sanitizeEntry d) (openDir d (p.setCtx (allowExempted env c))))
    else p

/-! ## Reading the directory -/

section Listing

variable {p q : Proc} {n : Nat}

theorem isOpen_iff : isOpen p n = true ↔ ∃ f ∈ p.fds, f.num = n := by
  simp [isOpen]

theorem lt_fdBound {f : Fd} (h : f ∈ p.fds) : f.num < fdBound p := by
  unfold fdBound
  generalize p.fds = fds at h ⊢
  induction fds with
  | nil => cases h
  | cons g fds ih =>
      rw [List.map_cons, List.foldr_cons]
      rcases List.mem_cons.mp h with rfl | hrest
      · exact lt_of_lt_of_le (Nat.lt_succ_self _) (le_max_left _ _)
      · exact lt_of_lt_of_le (ih hrest) (le_max_right _ _)

/-- What every number in turn preserves holds when the listing is through. -/
theorem readDir_invariant {body : Nat → Proc → Proc} {I : Nat → Proc → Prop} (h0 : I 0 p)
    (hopen : ∀ k q, I k q → isOpen q k = true → I (k + 1) (body k q))
    (hskip : ∀ k q, I k q → isOpen q k = false → I (k + 1) q) : I (fdBound p) (readDir body p) := by
  -- on the numbers of the listing, from its end: the last one acts on what the others left
  unfold readDir
  induction fdBound p with
  | zero => exact h0
  | succ k ih =>
      rw [List.range_succ, List.foldl_append, List.foldl_cons, List.foldl_nil]
      cases hk : isOpen ((List.range k).foldl (fun q n => if isOpen q n then body n q else q) p) k with
      | true => exact hopen k _ ih hk
      | false => exact hskip k _ ih hk

/-- The descriptors that are left when those below `k` have been dealt with. -/
def leftAt (k : Nat) (keep : Fd → Bool) (fds : List Fd) : List Fd :=
  fds.filter fun f => decide (k ≤ f.num) || keep f

theorem leftAt_zero (keep : Fd → Bool) (fds : List Fd) : leftAt 0 keep fds = fds := by
  simp [leftAt]

theorem leftAt_fdBound (keep : Fd → Bool) (p : Proc) : leftAt (fdBound p) keep p.fds = p.fds.filter keep := by
  apply List.filter_congr
  intro f hf
  simp [Nat.not_le.mpr (lt_fdBound hf)]

/-- A number whose descriptors are all kept. -/
theorem leftAt_succ_of_keep {keep : Fd → Bool} {fds : List Fd} {k : Nat}
    (h : ∀ f ∈ fds, f.num = k → keep f = true) : leftAt (k + 1) keep fds = leftAt k keep fds := by
  apply List.filter_congr
  intro f hf
  by_cases hk : f.num = k
  · simp [h f hf hk]
  · have hle : k + 1 ≤ f.num ↔ k ≤ f.num := by omega
    simp [hle]

/-- A number whose descriptor is closed. -/
theorem leftAt_succ_of_not_keep {keep : Fd → Bool} {fds : List Fd} {k : Nat}
    (h : ∀ f ∈ fds, f.num = k → keep f = false) :
    leftAt (k + 1) keep fds = (leftAt k keep fds).filter fun f => f.num != k := by
  rw [leftAt, leftAt, List.filter_filter]
  apply List.filter_congr
  intro f hf
  by_cases hk : f.num = k
  · simp [h f hf hk, hk]
  · have hle : k + 1 ≤ f.num ↔ k ≤ f.num := by omega
    simp [hle, hk]

/-- The listing finds the number in the directory it started with. -/
theorem isOpen_leftAt {keep : Fd → Bool} (hq : q.fds = leftAt n keep p.fds) :
    isOpen q n = isOpen p n := by
  rw [Bool.eq_iff_iff, isOpen_iff, isOpen_iff, hq]
  constructor
  · rintro ⟨f, hf, hn⟩
    exact ⟨f, List.mem_of_mem_filter hf, hn⟩
  · rintro ⟨f, hf, hn⟩
    exact ⟨f, List.mem_filter.mpr ⟨hf, by simp [hn]⟩, hn⟩

/-- A number that is not listed changes nothing. -/
theorem leftAt_succ_of_not_open {keep : Fd → Bool} (hq : q.fds = leftAt n keep p.fds) (hn : isOpen q n = false) :
    q.fds = leftAt (n + 1) keep p.fds := by
  rw [isOpen_leftAt hq] at hn
  rw [leftAt_succ_of_keep, hq]
  intro f hf hnum
  rw [isOpen_iff.mpr ⟨f, hf, hnum⟩] at hn
  cases hn

theorem fds_close (p : Proc) (fd : Nat) : (p.close fd).fds = p.fds.filter fun f => f.num != fd := by
  unfold Proc.close
  split_ifs with h
  · rfl
  · symm
    apply List.filter_eq_self.mpr
    intro f hf
    simp only [List.any_eq_true, not_exists, not_and] at h
    simpa using h f hf

theorem gCtx_close (p : Proc) (fd : Nat) : (p.close fd).gCtx = p.gCtx := by
  unfold Proc.close
  split_ifs <;> rfl

end Listing

/-! ## What the two loops leave -/

section Loops

variable {p : Proc} {c : ZygiskContext} {d : Nat}

/-- The numbers `fork_pre` sets a bit for. -/
def recorded (c : ZygiskContext) (p : Proc) (k : Nat) : List Nat :=
  (List.range k).filter fun n => isOpen p n && decide (n < c.fdMax)

theorem readDir_recordEntry (hc : p.gCtx = some c) :
    (readDir recordEntry p).fds = p.fds.filter (fun f => decide (f.num < c.fdMax)) ∧
      (readDir recordEntry p).gCtx = some { c with allowedFds := c.allowedFds ++ recorded c p (fdBound p) } := by
  have hloop : (readDir recordEntry p).fds = leftAt (fdBound p) (fun f => decide (f.num < c.fdMax)) p.fds ∧
      (readDir recordEntry p).gCtx = some { c with allowedFds := c.allowedFds ++ recorded c p (fdBound p) } := by
    apply readDir_invariant (I := fun k q => q.fds = leftAt k (fun f => decide (f.num < c.fdMax)) p.fds ∧
      q.gCtx = some { c with allowedFds := c.allowedFds ++ recorded c p k })
    case h0 => simp [leftAt_zero, recorded, hc]
    case hopen =>
      rintro k q ⟨hfds, hctx⟩ hk
      rw [isOpen_leftAt hfds] at hk
      rw [recordEntry, withCtx_some hctx]
      by_cases hmax : c.fdMax ≤ k
      · -- beyond the vector: the descriptor is closed and no bit is set
        have hrec : recorded c p (k + 1) = recorded c p k := by
          simp [recorded, List.range_succ, Nat.not_lt.mpr hmax]
        rw [if_pos hmax, fds_close, gCtx_close, hrec, hfds]
        refine ⟨(leftAt_succ_of_not_keep ?_).symm, hctx⟩
        rintro f _ rfl
        simpa using hmax
      · have hrec : recorded c p (k + 1) = recorded c p k ++ [k] := by
          simp [recorded, List.range_succ, Nat.not_le.mp hmax, hk]
        rw [if_neg hmax, hrec, ← List.append_assoc]
        refine ⟨?_, rfl⟩
        rw [leftAt_succ_of_keep]
        · exact hfds
        · rintro f _ rfl
          simpa using hmax
    case hskip =>
      rintro k q ⟨hfds, hctx⟩ hk
      have hrec : recorded c p (k + 1) = recorded c p k := by
        rw [isOpen_leftAt hfds] at hk
        simp [recorded, List.range_succ, hk]
      rw [hrec]
      exact ⟨leftAt_succ_of_not_open hfds hk, hctx⟩
  rw [leftAt_fdBound] at hloop
  exact hloop

/-- The number that the directory itself has is not in use before. -/
theorem num_ne_of_isOpen_eq_false (hd : isOpen p d = false) {f : Fd} (hf : f ∈ p.fds) : f.num ≠ d := by
  intro hn
  rw [isOpen_iff.mpr ⟨f, hf, hn⟩] at hd
  cases hd

theorem isOpen_openDir (n : Nat) : isOpen (openDir d p) n = (isOpen p n || d == n) := by
  rw [isOpen, openDir, List.any_append, List.any_cons, List.any_nil, Bool.or_false]
  rfl

/-- Closing the directory takes away what opening it added. -/
theorem filter_closeDir (hd : isOpen p d = false) (keep : Fd → Bool) :
    ((openDir d p).fds.filter keep).filter (fun f => f.num != d) = p.fds.filter keep := by
  rw [openDir, List.filter_filter, List.filter_append]
  have hself : [(⟨d, "/proc/self/fd"⟩ : Fd)].filter (fun f => f.num != d && keep f) = [] := by
    simp
  rw [hself, List.append_nil]
  apply List.filter_congr
  intro f hf
  simp [num_ne_of_isOpen_eq_false hd hf]

/-- What `fork_pre` leaves: the descriptors below the limit, with their bits set. -/
theorem recordFdsIn_spec (hc : p.gCtx = some c) (hd : isOpen p d = false) :
    (recordFdsIn d p).fds = p.fds.filter (fun f => decide (f.num < c.fdMax)) ∧
      ∃ allowed, (recordFdsIn d p).gCtx = some { c with allowedFds := allowed } ∧
        ∀ n, n ∈ allowed ↔ (n ∈ c.allowedFds ∧ n ≠ d) ∨ (isOpen p n = true ∧ n < c.fdMax) := by
  have hopened : (openDir d p).gCtx = some c := hc
  obtain ⟨hfds, hctx⟩ := readDir_recordEntry hopened
  simp only [recordFdsIn]
  rw [withCtx_some hctx]
  refine ⟨?_, _, rfl, ?_⟩
  · rw [closeDir, Proc.setCtx, hfds]
    exact filter_closeDir hd _
  · intro n
    have hlt : isOpen (openDir d p) n = true → n < fdBound (openDir d p) := by
      intro h
      obtain ⟨f, hf, rfl⟩ := isOpen_iff.mp h
      exact lt_fdBound hf
    have hne : isOpen p n = true → n ≠ d := by
      rintro hn rfl
      rw [hn] at hd
      cases hd
    rw [isOpen_openDir, Bool.or_eq_true, beq_iff_eq] at hlt
    rw [List.mem_filter, List.mem_append, recorded, List.mem_filter, List.mem_range, isOpen_openDir, bne_iff_ne,
      Bool.and_eq_true, Bool.or_eq_true, decide_eq_true_eq, beq_iff_eq]
    constructor
    · rintro ⟨hold | ⟨-, hn | rfl, hmax⟩, hnd⟩
      · exact Or.inl ⟨hold, hnd⟩
      · exact Or.inr ⟨hn, hmax⟩
      · exact absurd rfl hnd
    · rintro (⟨hold, hnd⟩ | ⟨hn, hmax⟩)
      · exact ⟨Or.inl hold, hnd⟩
      · exact ⟨Or.inr ⟨hlt (Or.inl hn), Or.inl hn, hmax⟩, hne hn⟩

/-- Every allowed target fits into the buffer, so that a target that was cut is none. -/
theorem length_lt_of_mem_kAllowedFdTargets {allowed : String} (h : allowed ∈ kAllowedFdTargets) :
    allowed.toList.length < kFdTargetMax - 1 := by
  have hall : (kAllowedFdTargets.all fun allowed => decide (allowed.toList.length < kFdTargetMax - 1)) = true := by
    decide +kernel
  simpa using List.all_eq_true.mp hall allowed h

theorem truncated_eq_iff {allowed : String} (h : allowed ∈ kAllowedFdTargets) (target : String) :
    truncated target = allowed ↔ target = allowed := by
  have hlength := length_lt_of_mem_kAllowedFdTargets h
  constructor
  · rintro rfl
    rw [truncated, String.toList_ofList, List.length_take] at hlength
    rw [truncated, List.take_of_length_le (by omega), String.ofList_toList]
  · rintro rfl
    rw [truncated, List.take_of_length_le hlength.le, String.ofList_toList]

theorem isAllowedFdTarget_truncated (target : String) :
    isAllowedFdTarget (truncated target) = isAllowedFdTarget target := by
  rw [Bool.eq_iff_iff, isAllowedFdTarget, isAllowedFdTarget, List.contains_iff_mem, List.contains_iff_mem]
  constructor
  · intro h
    have heq := (truncated_eq_iff h target).mp rfl
    rwa [← heq] at h
  · intro h
    have heq := (truncated_eq_iff h target).mpr rfl
    rwa [heq]

/-- In a table without double numbers the target read for a number is the one of its descriptor. -/
theorem fdTarget_eq {f : Fd} (hnodup : (p.fds.map Fd.num).Nodup) (hf : f ∈ p.fds) :
    fdTarget p f.num = truncated f.target := by
  cases hfind : p.fds.find? (·.num == f.num) with
  | none => simpa using List.find?_eq_none.mp hfind f hf
  | some g =>
      have hnum : g.num = f.num := by simpa using List.find?_some hfind
      have heq : g = f := List.inj_on_of_nodup_map hnodup (List.mem_of_find?_eq_some hfind) hf hnum
      rw [fdTarget, hfind, heq]
      rfl

/-- The three tests of the loop are `keepsFd`, its own directory apart. -/
theorem sanitizeEntry_eq {f : Fd} (hc : p.gCtx = some c) (htarget : fdTarget p f.num = truncated f.target) :
    sanitizeEntry d f.num p = if f.num == d || keepsFd c f then p else p.close f.num := by
  rw [sanitizeEntry, withCtx_some hc, htarget, isAllowedFdTarget_truncated, keepsFd]
  by_cases hself : f.num = d
  · rw [if_pos hself, if_pos (by simp [hself])]
  · have hother : (f.num == d) = false := by simpa using hself
    rw [if_neg hself, hother, Bool.false_or, ← ite_or]
    congr 1
    rw [Bool.or_eq_true]

/-- The loop of `sanitize_fds` closes what `keepsFd` does not keep, its own directory apart. -/
theorem readDir_sanitizeEntry (hc : p.gCtx = some c) (hnodup : (p.fds.map Fd.num).Nodup) :
    (readDir (sanitizeEntry d) p).fds = p.fds.filter (fun f => f.num == d || keepsFd c f) ∧
      (readDir (sanitizeEntry d) p).gCtx = some c := by
  have hloop : (readDir (sanitizeEntry d) p).fds =
        leftAt (fdBound p) (fun f => f.num == d || keepsFd c f) p.fds ∧
      (readDir (sanitizeEntry d) p).gCtx = some c := by
    apply readDir_invariant (I := fun k q =>
      q.fds = leftAt k (fun f => f.num == d || keepsFd c f) p.fds ∧ q.gCtx = some c)
    case h0 => exact ⟨(leftAt_zero _ _).symm, hc⟩
    case hopen =>
      rintro k q ⟨hfds, hctx⟩ hk
      have hsub : q.fds.Sublist p.fds := by
        rw [hfds]
        exact List.filter_sublist
      have hunique : ∀ f ∈ p.fds, ∀ g ∈ p.fds, f.num = g.num → f = g := fun f hf g hg =>
        List.inj_on_of_nodup_map hnodup hf hg
      obtain ⟨f, hf, rfl⟩ := isOpen_iff.mp hk
      have hfp : f ∈ p.fds := hsub.subset hf
      have htarget : fdTarget q f.num = truncated f.target :=
        fdTarget_eq (hnodup.sublist (hsub.map Fd.num)) hf
      rw [sanitizeEntry_eq hctx htarget]
      split_ifs with hkeep
      · refine ⟨?_, hctx⟩
        rw [leftAt_succ_of_keep]
        · exact hfds
        · intro g hg hn
          rw [hunique g hg f hfp hn]
          exact hkeep
      · rw [fds_close, gCtx_close, hfds]
        refine ⟨(leftAt_succ_of_not_keep ?_).symm, hctx⟩
        intro g hg hn
        rw [hunique g hg f hfp hn]
        simpa using hkeep
    case hskip =>
      rintro k q ⟨hfds, hctx⟩ hk
      exact ⟨leftAt_succ_of_not_open hfds hk, hctx⟩
  rw [leftAt_fdBound] at hloop
  exact hloop

theorem nodup_opened (hnodup : (p.fds.map Fd.num).Nodup) (hd : isOpen p d = false) (target : String) :
    ((p.fds ++ [(⟨d, target⟩ : Fd)]).map Fd.num).Nodup := by
  rw [List.map_append]
  apply List.Nodup.append hnodup (List.nodup_singleton d)
  intro n hn hn'
  obtain ⟨f, hf, hnum⟩ := List.mem_map.mp hn
  exact num_ne_of_isOpen_eq_false hd hf (hnum.trans (List.mem_singleton.mp hn'))

/-- What `sanitize_fds` leaves. -/
theorem sanitizeFdsIn_spec (env : Env) (hc : p.gCtx = some c) (hchild : isChild c = true)
    (hnodup : (p.fds.map Fd.num).Nodup) (hd : isOpen p d = false) :
    (sanitizeFdsIn env (some d) p).fds = p.fds.filter (keepsFd (allowExempted env c)) ∧
      (sanitizeFdsIn env (some d) p).gCtx = some (allowExempted env c) := by
  let q := p.setCtx (allowExempted env c)
  have hbranch : sanitizeFdsIn env (some d) p = closeDir d (readDir (sanitizeEntry d) (openDir d q)) := by
    rw [sanitizeFdsIn, withCtx_some hc, if_pos hchild]
  have hopened : (openDir d q).gCtx = some (allowExempted env c) := rfl
  obtain ⟨hfds, hctx⟩ := readDir_sanitizeEntry (d := d) hopened (nodup_opened (p := q) hnodup hd _)
  rw [hbranch]
  refine ⟨?_, hctx⟩
  rw [closeDir, hfds]
  refine (filter_closeDir (p := q) hd _).trans ?_
  apply List.filter_congr
  intro f hf
  have hne : (f.num == d) = false := by simpa using num_ne_of_isOpen_eq_false hd hf
  rw [hne, Bool.false_or]

end Loops

/-! ## The outcome that `Lifecycle` states -/

section Outcome

variable {p : Proc} {c : ZygiskContext} {d : Nat}

theorem fds_closeAll (ns : List Nat) (p : Proc) :
    (closeAll ns p).fds = p.fds.filter fun f => !ns.contains f.num := by
  induction ns generalizing p with
  | nil => simp [closeAll]
  | cons n ns ih =>
      have hfirst : closeAll (n :: ns) p = closeAll ns (p.close n) := rfl
      rw [hfirst, ih, fds_close, List.filter_filter]
      apply List.filter_congr
      intro f _
      by_cases hn : f.num = n <;> simp [hn]

/-- Closing what a test of the descriptors picks leaves the rest, where no number has two that the test
tells apart. -/
theorem fds_closeAll_filter {keep : Fd → Bool}
    (h : ∀ f ∈ p.fds, ∀ g ∈ p.fds, f.num = g.num → keep f = keep g) :
    (closeAll ((p.fds.filter fun f => !keep f).map (·.num)) p).fds = p.fds.filter keep := by
  rw [fds_closeAll]
  apply List.filter_congr
  intro f hf
  have hmem : ((p.fds.filter fun f => !keep f).map (·.num)).contains f.num = true ↔ keep f = false := by
    rw [List.contains_iff_mem, List.mem_map]
    constructor
    · rintro ⟨g, hg, hnum⟩
      obtain ⟨hgp, hkeep⟩ := List.mem_filter.mp hg
      rw [h f hf g hgp hnum.symm]
      simpa using hkeep
    · intro hkeep
      exact ⟨f, List.mem_filter.mpr ⟨hf, by simp [hkeep]⟩, rfl⟩
  cases hkeep : keep f with
  | true => simpa [hkeep] using hmem
  | false => simpa [hkeep] using hmem

/-- `fork_pre` leaves the descriptors that `recordFds` leaves, and sets the same bits. -/
theorem recordFdsIn_eq (hc : p.gCtx = some c) (hd : isOpen p d = false) (hfresh : d ∉ c.allowedFds) :
    (recordFdsIn d p).fds = (recordFds p).fds ∧
      ∃ allowed allowed', (recordFdsIn d p).gCtx = some { c with allowedFds := allowed } ∧
        (recordFds p).gCtx = some { c with allowedFds := allowed' } ∧ ∀ n, n ∈ allowed ↔ n ∈ allowed' := by
  obtain ⟨hfds, allowed, hctx, hmem⟩ := recordFdsIn_spec hc hd
  rw [recordFds, withCtx_some hc]
  refine ⟨?_, allowed, _, hctx, closeAll_gCtx _ _, ?_⟩
  · rw [hfds]
    symm
    have hbeyond : (p.fds.filter fun f => decide (c.fdMax ≤ f.num)) =
        p.fds.filter fun f => !decide (f.num < c.fdMax) := by
      apply List.filter_congr
      intro f _
      rw [← decide_not, decide_eq_decide]
      omega
    rw [hbeyond]
    exact fds_closeAll_filter (p := p.setCtx _) fun f _ g _ hnum => by rw [hnum]
  · intro n
    rw [hmem, List.mem_append, List.mem_map]
    have hrecorded : (isOpen p n = true ∧ n < c.fdMax) ↔
        ∃ f ∈ p.fds.filter (fun f => decide (f.num < c.fdMax)), f.num = n := by
      rw [isOpen_iff]
      constructor
      · rintro ⟨⟨f, hf, rfl⟩, hmax⟩
        exact ⟨f, List.mem_filter.mpr ⟨hf, by simpa using hmax⟩, rfl⟩
      · rintro ⟨f, hf, rfl⟩
        obtain ⟨hfp, hmax⟩ := List.mem_filter.mp hf
        exact ⟨⟨f, hfp, rfl⟩, by simpa using hmax⟩
    rw [← hrecorded]
    constructor
    · exact Or.imp_left And.left
    · exact Or.imp_left fun hold => ⟨hold, fun hnd => hfresh (hnd ▸ hold)⟩

/-- `sanitize_fds` leaves what `sanitizeFds` leaves. -/
theorem sanitizeFdsIn_eq (env : Env) (hc : p.gCtx = some c) (hnodup : (p.fds.map Fd.num).Nodup)
    (hd : isOpen p d = false) (hopen : env.openDir = true) :
    (sanitizeFdsIn env (some d) p).fds = (sanitizeFds env p).fds ∧
      (sanitizeFdsIn env (some d) p).gCtx = (sanitizeFds env p).gCtx := by
  cases hchild : isChild c with
  | false => simp [sanitizeFdsIn, sanitizeFds, withCtx_some hc, hchild]
  | true =>
      obtain ⟨hfds, hctx⟩ := sanitizeFdsIn_spec env hc hchild hnodup hd
      rw [hfds, hctx, sanitizeFds, withCtx_some hc, if_pos hchild]
      dsimp only
      rw [if_pos hopen, closeAll_gCtx]
      refine ⟨?_, rfl⟩
      symm
      apply fds_closeAll_filter (p := p.setCtx (allowExempted env c))
      intro f hf g hg hnum
      rw [List.inj_on_of_nodup_map hnodup hf hg hnum]

end Outcome

end NeoZygisk.Injector.SanitizeFds
