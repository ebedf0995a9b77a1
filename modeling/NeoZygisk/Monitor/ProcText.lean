import NeoZygisk.Monitor.Rearm
import NeoZygisk.Ptracer.MapsText

/-!
# Reading `/proc`

A rearm looks for its targets among the processes as their files under `/proc` show them: the link of the program, the
status, the argument vector, the name and the memory map. The readers of these files are modelled here on their texts,
`find_processes_by_exe` on the listing of the directory.

`readTable_listing` says what `Monitor.Rearm` takes for given: whatever names, titles and mappings processes give
themselves, the table that is read is that of the kernel's processes, and no process can pass for another's child, for
traced or for stopped.
-/

set_option autoImplicit false

namespace NeoZygisk.Monitor.ProcText

open NeoZygisk.Common
open NeoZygisk.Lib.FormattedInput
open NeoZygisk.Lib.Text (takeWhile_append_stop)
open NeoZygisk.Ptracer.MapsText

/-! ## Readers -/

def nul : Char := Char.ofNat 0

/-- A buffer as a C string. -/
def cString (buf : Text) : Text := buf.takeWhile fun c => c != nul

/-- The room of `char line[256]`. -/
def lineRoom : Nat := 255

/-- `sscanf(...) == 1`, with the value it stored. -/
def storedNumber : List Value → Option Int
  | [.signed n] => some n
  | _ => none

def storedChar : List Value → Option Char
  | [.char c] => some c
  | _ => none

/-- The number behind a key of the status file; -1 without one. -/
def statusNumber (key : String) (file : Option Text) : Int :=
  match file with
  | none => -1
  | some text =>
      (firstLine lineRoom (fun line => storedNumber (scan 0 (literals key ++ [.space, .signed 32]) line))
        text.length text).getD (-1)

def getPpid (file : Option Text) : Int := statusNumber "PPid:" file

def getTracerPid (file : Option Text) : Int := statusNumber "TracerPid:" file

def getProcessState (file : Option Text) : Char :=
  match file with
  | none => nul
  | some text =>
      (firstLine lineRoom (fun line => storedChar (scan 0 (literals "State:" ++ [.space, .char]) line))
        text.length text).getD nul

/-- `get_comm`. -/
def getComm (file : Option Text) : Text :=
  match file with
  | none => []
  | some text =>
      ((cString (fgets 63 text).1).reverse.dropWhile fun c => c == '\n' || c == nul).reverse

/-- The loop of `read_cmdline`, with the argument it is at. -/
def splitArgs (arg : Text) : Text → List Text
  | [] => if arg = [] then [] else [arg]
  | c :: text =>
      if c = nul then (if arg = [] then splitArgs [] text else arg :: splitArgs [] text)
      else splitArgs (arg ++ [c]) text

def readCmdline (file : Option Text) : List Text :=
  match file with
  | none => []
  | some text => splitArgs [] text

/-- The target of the link as `find_processes_by_exe` compares it. -/
def readExe (link : Option Text) : Text :=
  match link with
  | none => []
  | some target => cString (target.take 4095)

/-- What `/proc/<pid>/` has of a process; `none` where it cannot be read. -/
structure ProcFiles where
  exe : Option Text
  status : Option Text
  cmdline : Option Text
  comm : Option Text
  maps : Option Text

/-- A process as the readers see it. -/
def readProcess (m : DataModel) (pid : Pid) (files : ProcFiles) : Process where
  pid := pid
  exe := .ofList (readExe files.exe)
  ppid := getPpid files.status
  cmdline := (readCmdline files.cmdline).map .ofList
  comm := .ofList (getComm files.comm)
  tracerPid := getTracerPid files.status
  state := getProcessState files.status
  maps := (scanMaps m files.maps).map MapInfo.path

/-- One round of `find_processes_by_exe`; `none` if the entry does not name a process. -/
def readEntry (m : DataModel) (entry : Text × ProcFiles) : Option Process :=
  match strtolAll (wordBits m) entry.1 with
  | some value => if 0 < value then some (readProcess m (value.bmod (2 ^ 32)).toNat entry.2) else none
  | none => none

/-- The processes that the listing of the directory names. -/
def readTable (m : DataModel) (dir : List (Text × ProcFiles)) : List Process := dir.filterMap (readEntry m)

/-! ## The kernel's files -/

/-- A name as the status file has it. -/
def escapeName (name : Text) : Text :=
  name.flatMap fun c => if c = '\n' then ['\\', 'n'] else if c = '\\' then ['\\', '\\'] else [c]

/-- A line of the status file. -/
def keyLine (key : String) (value : Text) : Text := key.toList ++ ':' :: '\t' :: value

/-- The state of a process and what the kernel calls it. -/
structure State where
  letter : Char
  text : Text
  visible : isSpace letter = false
  unbroken : '\n' ∉ text
  short : text.length < 32

/-- A process as the kernel has it. -/
structure Task where
  pid : Nat
  pidPos : 0 < pid
  pidLt : pid < 2 ^ 31
  /-- The program; a kernel thread has none. -/
  exe : Option Text
  exeShort : ∀ link ∈ exe, link.length ≤ 4095 ∧ nul ∉ link
  comm : Text
  commShort : comm.length ≤ 62 ∧ nul ∉ comm
  umask : Option (BitVec 9)
  state : State
  tgid : BitVec 31
  ngid : BitVec 31
  ppid : BitVec 31
  tracer : BitVec 31
  /-- The status file behind the tracer. -/
  more : Text
  args : List Text
  noNul : ∀ arg ∈ args, nul ∉ arg
  /-- What is left of the space for arguments. -/
  zeros : Nat
  mappings : List Mapping

namespace Task

variable (t : Task)

/-- The status file up to the tracer. -/
def entries : List (String × Text) :=
  ("Name", escapeName t.comm) :: ((t.umask.map fun umask => ("Umask", padded 8 4 umask.toNat)).toList ++
    [("State", t.state.letter :: ' ' :: t.state.text), ("Tgid", decimalText t.tgid.toNat), ("Ngid", decimalText t.ngid.toNat),
      ("Pid", decimalText t.pid), ("PPid", decimalText t.ppid.toNat), ("TracerPid", decimalText t.tracer.toNat)])

def status : Text := (t.entries.map fun e => keyLine e.1 e.2).flatMap (fun line => line ++ ['\n']) ++ t.more

def cmdline : Text := (t.args.flatMap fun arg => arg ++ [nul]) ++ List.replicate t.zeros nul

/-- The files of a process; names in its memory map begin at the given column. -/
def files (column : Nat) : ProcFiles where
  exe := t.exe
  status := some t.status
  cmdline := some t.cmdline
  comm := some (t.comm ++ ['\n'])
  maps := some (Ptracer.MapsText.maps column t.mappings)

/-- The process itself: its first name up to a line break, and the arguments that are not empty. -/
def process : Process where
  pid := t.pid
  exe := .ofList (t.exe.getD [])
  ppid := t.ppid.toNat
  cmdline := (t.args.filter fun arg => arg ≠ []).map .ofList
  comm := .ofList (t.comm.takeWhile fun c => c != '\n')
  tracerPid := t.tracer.toNat
  state := t.state.letter
  maps := t.mappings.map fun r => .ofList (seqPath r.name)

end Task

/-- An entry of `/proc`: a process, or a name that begins with a letter or a dot. -/
inductive Entry where
  | task (t : Task)
  | other (name : Text) (files : ProcFiles) (begins : ∃ c ∈ name.head?, c = '.' ∨ 10 ≤ digitValue c ∧ digitValue c < 36)

def Entry.listed (column : Nat) : Entry → Text × ProcFiles
  | .task t => (decimalText t.pid, t.files column)
  | .other name files _ => (name, files)

def Entry.task? : Entry → Option Task
  | .task t => some t
  | .other _ _ _ => none

/-! ## The status file -/

/-- A key is told from another by what stands before the colon. -/
theorem key_eq_of_isPrefix {w w' rest : Text} (hw : ':' ∉ w) (hw' : ':' ∉ w') (h : w ++ [':'] <+: w' ++ ':' :: rest) :
    w = w' := by
  induction w generalizing w' with
  | nil =>
      cases w' with
      | nil => rfl
      | cons c w' => exact absurd (List.cons_prefix_cons.mp h).1 (List.ne_of_not_mem_cons hw')
  | cons c w ih =>
      cases w' with
      | nil => exact absurd (List.cons_prefix_cons.mp h).1 (List.ne_of_not_mem_cons hw).symm
      | cons d w' =>
          obtain ⟨rfl, htail⟩ := List.cons_prefix_cons.mp h
          rw [ih (List.not_mem_of_not_mem_cons hw) (List.not_mem_of_not_mem_cons hw') htail]

/-- A line with another key is passed over. -/
theorem scan_keyLine_of_ne {key key' : String} (hkey : ':' ∉ key.toList) (hkey' : ':' ∉ key'.toList) (hne : key' ≠ key)
    {found : String} (hfound : found.toList = key.toList ++ [':']) (format : List Directive) (value : Text) :
    scan 0 (literals found ++ format) (keyLine key' value ++ ['\n']) = [] := by
  apply scan_literals_of_not_prefix
  rw [hfound, keyLine, List.append_assoc, List.cons_append]
  intro h
  exact hne (String.toList_inj.mp (key_eq_of_isPrefix hkey hkey' h)).symm

/-- The line with the key is read. -/
theorem scan_keyLine {key found : String} (hfound : found.toList = key.toList ++ [':']) (format : List Directive)
    {value : Text} (hvalue : ∀ c ∈ (value ++ ['\n']).head?, isSpace c = false) :
    ∃ pos, scan 0 (literals found ++ .space :: format) (keyLine key value ++ ['\n']) = scan pos format (value ++ ['\n']) := by
  have hline : keyLine key value ++ ['\n'] = found.toList ++ (['\t'] ++ (value ++ ['\n'])) := by
    rw [hfound, keyLine]
    simp only [List.append_assoc, List.cons_append, List.nil_append]
  have htab : ∀ c ∈ ['\t'], isSpace c = true := List.forall_mem_singleton.mpr (by decide)
  rw [hline, scan_literals, scan_space htab hvalue]
  exact ⟨_, rfl⟩

theorem length_decimal {n : Nat} (h : n < 2 ^ 31) : (decimalText n).length ≤ 10 :=
  (Nat.length_toDigits_le_iff (by decide) (by decide)).mpr (by omega)

theorem newline_not_mem_decimal (n : Nat) : '\n' ∉ decimalText n := by
  intro h
  rw [← padded_zero] at h
  exact not_mem_padded (by decide) (by decide) (by decide) 0 n h

/-- A line that is read as a whole. -/
structure Fits (line : Text) : Prop where
  short : line.length < lineRoom
  unbroken : '\n' ∉ line

theorem fits_keyLine {key : String} (hkey : key.toList.length ≤ 10) (hunbroken : '\n' ∉ key.toList) {value : Text}
    (hvalue : value.length ≤ 200) (hline : '\n' ∉ value) : Fits (keyLine key value) := by
  constructor
  · rw [keyLine, List.length_append, List.length_cons, List.length_cons, lineRoom]
    omega
  · rw [keyLine, List.mem_append, List.mem_cons, List.mem_cons, not_or, not_or, not_or]
    exact ⟨hunbroken, by decide, by decide, hline⟩

theorem length_escapeName (name : Text) : (escapeName name).length ≤ 2 * name.length := by
  induction name with
  | nil => exact Nat.le_refl 0
  | cons c name ih =>
      rw [escapeName, List.flatMap_cons, List.length_append, List.length_cons]
      have hc : (if c = '\n' then ['\\', 'n'] else if c = '\\' then ['\\', '\\'] else [c]).length ≤ 2 := by
        split_ifs <;> simp
      rw [escapeName] at ih
      omega

theorem newline_not_mem_escapeName (name : Text) : '\n' ∉ escapeName name := by
  intro h
  obtain ⟨c, -, hc⟩ := List.mem_flatMap.mp h
  split_ifs at hc with hnewline hbackslash
  · revert hc
    decide
  · revert hc
    decide
  · exact hnewline (List.mem_singleton.mp hc).symm

def keys : List String := ["Name", "Umask", "State", "Tgid", "Ngid", "Pid", "PPid", "TracerPid"]

theorem keys_plain {key : String} (h : key ∈ keys) :
    ':' ∉ key.toList ∧ '\n' ∉ key.toList ∧ key.toList.length ≤ 10 := by
  have hall : (keys.all fun key => !key.toList.contains ':' && !key.toList.contains '\n' &&
      decide (key.toList.length ≤ 10)) = true := by decide
  simpa [and_assoc] using List.all_eq_true.mp hall key h

/-- Whatever the name of the process is, its lines are read one by one. -/
theorem fits_entries (t : Task) {e : String × Text} (h : e ∈ t.entries) : e.1 ∈ keys ∧ Fits (keyLine e.1 e.2) := by
  have hnumber : ∀ {n : Nat}, n < 2 ^ 31 → (decimalText n).length ≤ 200 ∧ '\n' ∉ decimalText n := by
    intro n hn
    exact ⟨(length_decimal hn).trans (by decide), newline_not_mem_decimal n⟩
  have hkey : ∀ (key : String) {value : Text}, key ∈ keys → value.length ≤ 200 ∧ '\n' ∉ value →
      key ∈ keys ∧ Fits (keyLine key value) := by
    intro key value hkey hvalue
    obtain ⟨-, hunbroken, hlength⟩ := keys_plain hkey
    exact ⟨hkey, fits_keyLine hlength hunbroken hvalue.1 hvalue.2⟩
  rw [Task.entries, List.mem_cons, List.mem_append] at h
  rcases h with rfl | h | h
  · have hlength := length_escapeName t.comm
    have hshort := t.commShort.1
    exact hkey "Name" (by decide) ⟨hlength.trans (by omega), newline_not_mem_escapeName t.comm⟩
  · rw [Option.mem_toList, Option.map_eq_some_iff] at h
    obtain ⟨umask, -, rfl⟩ := h
    have hlength : (Nat.toDigits 8 umask.toNat).length ≤ 3 :=
      (Nat.length_toDigits_le_iff (by decide) (by decide)).mpr umask.isLt
    refine hkey "Umask" (by decide) ⟨?_, not_mem_padded (by decide) (by decide) (by decide) 4 _⟩
    rw [padded, List.leftpad, List.length_append, List.length_replicate]
    omega
  · simp only [List.mem_cons, List.not_mem_nil, or_false] at h
    rcases h with rfl | rfl | rfl | rfl | rfl | rfl
    · have hshort := t.state.short
      refine hkey "State" (by decide) ⟨?_, ?_⟩
      · rw [List.length_cons, List.length_cons]
        omega
      · rw [List.mem_cons, List.mem_cons, not_or, not_or]
        refine ⟨?_, by decide, t.state.unbroken⟩
        intro hletter
        have hvisible := t.state.visible
        rw [← hletter] at hvisible
        exact absurd hvisible (by decide)
    · exact hkey "Tgid" (by decide) (hnumber t.tgid.isLt)
    · exact hkey "Ngid" (by decide) (hnumber t.ngid.isLt)
    · exact hkey "Pid" (by decide) (hnumber t.pidLt)
    · exact hkey "PPid" (by decide) (hnumber t.ppid.isLt)
    · exact hkey "TracerPid" (by decide) (hnumber t.tracer.isLt)

theorem nodup_keys (t : Task) : (t.entries.map Prod.fst).Nodup := by
  rw [Task.entries]
  cases t.umask with
  | none => exact (by decide : ["Name", "State", "Tgid", "Ngid", "Pid", "PPid", "TracerPid"].Nodup)
  | some umask => exact (by decide : keys.Nodup)

/-- The loop over the status file comes to the line with the key. -/
theorem firstLine_status (t : Task) {key : String} {value : Text} (h : (key, value) ∈ t.entries) {found : String}
    (hfound : found.toList = key.toList ++ [':']) {β : Type} (format : List Directive) (store : List Value → Option β)
    (hstore : store [] = none) {b : β}
    (hread : store (scan 0 (literals found ++ format) (keyLine key value ++ ['\n'])) = some b) :
    firstLine lineRoom (fun line => store (scan 0 (literals found ++ format) line)) t.status.length t.status = some b := by
  obtain ⟨before, after, hentries⟩ := List.append_of_mem h
  have hmem : ∀ e ∈ t.entries, e.1 ∈ keys ∧ Fits (keyLine e.1 e.2) := fun e he => fits_entries t he
  have hnodup := nodup_keys t
  rw [hentries] at hmem hnodup
  obtain ⟨hkey, hfits⟩ := hmem (key, value) (by simp)
  -- no other line has the key
  have hbefore : ∀ e ∈ before, e.1 ≠ key := by
    intro e he heq
    rw [List.map_append, List.map_cons] at hnodup
    exact (List.nodup_append.mp hnodup).2.2 e.1 (List.mem_map_of_mem he) key List.mem_cons_self heq
  have hstatus : t.status = ((before.map fun e => keyLine e.1 e.2).flatMap fun line => line ++ ['\n']) ++
      (keyLine key value ++ '\n' :: ((after.map fun e => keyLine e.1 e.2).flatMap (fun line => line ++ ['\n']) ++
        t.more)) := by
    rw [Task.status, hentries]
    simp only [List.map_append, List.map_cons, List.flatMap_append, List.flatMap_cons, List.append_assoc,
      List.cons_append, List.nil_append]
  rw [hstatus]
  apply firstLine_eq
  · intro line hline
    obtain ⟨e, he, rfl⟩ := List.mem_map.mp hline
    obtain ⟨hkey', hfits'⟩ := hmem e (List.mem_append_left _ he)
    refine ⟨hfits'.short, hfits'.unbroken, ?_⟩
    rw [scan_keyLine_of_ne (keys_plain hkey).1 (keys_plain hkey').1 (hbefore e he) hfound, hstore]
  · exact hfits.short
  · exact hfits.unbroken
  · exact hread

theorem statusNumber_status (t : Task) (key : String) {n : Nat} (h : (key, decimalText n) ∈ t.entries) {found : String}
    (hfound : found.toList = key.toList ++ [':']) (hn : n < 2 ^ 31) : statusNumber found (some t.status) = n := by
  have hread : storedNumber (scan 0 (literals found ++ [.space, .signed 32]) (keyLine key (decimalText n) ++ ['\n'])) =
      some (n : Int) := by
    have hhead := @isSpace_of_mem_head?_padded 10 (by decide) (by decide) 0 n ['\n']
    rw [padded_zero] at hhead
    obtain ⟨pos, hscan⟩ := scan_keyLine hfound [.signed 32] hhead
    rw [hscan, scan_signed (by decide) hn (stops_cons (by decide) [])]
    rfl
  rw [statusNumber, firstLine_status t h hfound _ storedNumber rfl hread, Option.getD_some]

theorem getPpid_status (t : Task) : getPpid (some t.status) = t.ppid.toNat :=
  statusNumber_status t "PPid" (by simp [Task.entries]) (by decide) t.ppid.isLt

/-- A process whose name has a line of the status file in it. -/
def disguised : Task where
  pid := 4242
  pidPos := by decide
  pidLt := by decide
  exe := some "/system/bin/app_process64".toList
  exeShort := by decide
  comm := "x\nPPid:\t1".toList
  commShort := by decide
  umask := some 18
  state := { letter := 'S', text := "(sleeping)".toList, visible := by decide, unbroken := by decide, short := by decide }
  tgid := 4242
  ngid := 0
  ppid := 99
  tracer := 0
  more := "Uid:\t0\t0\t0\t0\n".toList
  args := ["zygote64".toList]
  noNul := by decide
  zeros := 3
  mappings := []

example : getPpid (some disguised.status) = 99 := by decide +kernel

theorem getTracerPid_status (t : Task) : getTracerPid (some t.status) = t.tracer.toNat :=
  statusNumber_status t "TracerPid" (by simp [Task.entries]) (by decide) t.tracer.isLt

theorem getProcessState_status (t : Task) : getProcessState (some t.status) = t.state.letter := by
  have hfound : "State:".toList = "State".toList ++ [':'] := by decide
  have hread : storedChar (scan 0 (literals "State:" ++ [.space, .char])
      (keyLine "State" (t.state.letter :: ' ' :: t.state.text) ++ ['\n'])) = some t.state.letter := by
    have hhead : ∀ c ∈ ((t.state.letter :: ' ' :: t.state.text) ++ ['\n']).head?, isSpace c = false := by
      intro c hc
      rw [← Option.some.inj hc]
      exact t.state.visible
    obtain ⟨pos, hscan⟩ := scan_keyLine hfound [.char] hhead
    rw [hscan]
    exact congrArg storedChar (scan_char t.state.letter _ pos [])
  have hmem : ("State", t.state.letter :: ' ' :: t.state.text) ∈ t.entries := by simp [Task.entries]
  rw [getProcessState, firstLine_status t hmem hfound _ storedChar rfl hread, Option.getD_some]

/-! ## The other files -/

theorem cString_eq_self {buf : Text} (h : nul ∉ buf) : cString buf = buf := by
  rw [cString, List.takeWhile_eq_self_iff]
  intro c hc
  rw [bne_iff_ne]
  rintro rfl
  exact h hc

/-- The name is read up to its first line break. -/
theorem getComm_comm (t : Task) : getComm (some (t.comm ++ ['\n'])) = t.comm.takeWhile fun c => c != '\n' := by
  have hcut : ∀ comm : Text, ∃ rest, comm ++ ['\n'] = comm.takeWhile (fun c => c != '\n') ++ '\n' :: rest := by
    intro comm
    induction comm with
    | nil => exact ⟨[], rfl⟩
    | cons c comm ih =>
        obtain ⟨rest, hrest⟩ := ih
        by_cases hc : c = '\n'
        · exact ⟨comm ++ ['\n'], by simp [hc]⟩
        · exact ⟨rest, by simp [hc, hrest]⟩
  obtain ⟨rest, hrest⟩ := hcut t.comm
  have hline : ∀ c ∈ t.comm.takeWhile (fun c => c != '\n'), c ≠ '\n' ∧ c ≠ nul := by
    intro c hc
    refine ⟨by simpa using List.mem_takeWhile_imp hc, ?_⟩
    rintro rfl
    exact t.commShort.2 ((List.takeWhile_prefix _).subset hc)
  have hlength := (List.takeWhile_prefix (fun c => c != '\n') (l := t.comm)).length_le
  have hroom := t.commShort.1
  have hnewline : '\n' ∉ t.comm.takeWhile fun c => c != '\n' := fun h => (hline _ h).1 rfl
  have hbuf : cString (t.comm.takeWhile (fun c => c != '\n') ++ ['\n']) =
      t.comm.takeWhile (fun c => c != '\n') ++ ['\n'] := by
    apply cString_eq_self
    rw [List.mem_append, not_or]
    exact ⟨fun h => (hline _ h).2 rfl, by decide⟩
  -- only the line break comes off
  have hstrip : (t.comm.takeWhile (fun c => c != '\n')).reverse.dropWhile (fun c => c == '\n' || c == nul) =
      (t.comm.takeWhile fun c => c != '\n').reverse := by
    cases hreverse : (t.comm.takeWhile fun c => c != '\n').reverse with
    | nil => rfl
    | cons c w =>
        obtain ⟨hbreak, hnul⟩ := hline c (by rw [← List.mem_reverse, hreverse]; exact List.mem_cons_self)
        exact List.dropWhile_cons_of_neg (by simp [hbreak, hnul])
  rw [getComm, hrest, fgets_line (by omega) hnewline, hbuf, List.reverse_append, List.reverse_singleton,
    List.singleton_append, List.dropWhile_cons_of_pos rfl, hstrip, List.reverse_reverse]

theorem splitArgs_append {arg : Text} (harg : nul ∉ arg) (read rest : Text) :
    splitArgs read (arg ++ rest) = splitArgs (read ++ arg) rest := by
  induction arg generalizing read with
  | nil => rw [List.nil_append, List.append_nil]
  | cons c arg ih =>
      rw [List.cons_append, splitArgs, if_neg (List.ne_of_not_mem_cons harg).symm,
        ih (List.not_mem_of_not_mem_cons harg), List.append_assoc, List.singleton_append]

/-- The arguments are read without the empty ones. -/
theorem readCmdline_cmdline (t : Task) : readCmdline (some t.cmdline) = t.args.filter fun arg => arg ≠ [] := by
  have hzeros : ∀ zeros, splitArgs [] (List.replicate zeros nul) = [] := by
    intro zeros
    induction zeros with
    | zero => rfl
    | succ zeros ih => rw [List.replicate_succ, splitArgs, if_pos rfl, if_pos rfl, ih]
  have hargs : ∀ args : List Text, (∀ arg ∈ args, nul ∉ arg) →
      splitArgs [] ((args.flatMap fun arg => arg ++ [nul]) ++ List.replicate t.zeros nul) =
        args.filter fun arg => arg ≠ [] := by
    intro args hnul
    induction args with
    | nil => exact hzeros t.zeros
    | cons arg args ih =>
        rw [List.flatMap_cons, List.append_assoc, List.append_assoc, splitArgs_append (hnul arg List.mem_cons_self),
          List.nil_append, List.singleton_append, splitArgs, if_pos rfl,
          ih fun a ha => hnul a (List.mem_cons_of_mem arg ha), List.filter_cons]
        by_cases harg : arg = []
        · simp [harg]
        · simp [harg]
  exact hargs t.args t.noNul

theorem readExe_exe (t : Task) : readExe t.exe = t.exe.getD [] := by
  cases hexe : t.exe with
  | none => rfl
  | some link =>
      obtain ⟨hlength, hnul⟩ := t.exeShort link hexe
      rw [readExe, List.take_of_length_le hlength, cString_eq_self hnul, Option.getD_some]

/-- A process is read as it is. -/
theorem readProcess_files (m : DataModel) (t : Task) (column : Nat) :
    readProcess m t.pid (t.files column) = t.process := by
  rw [readProcess, Task.files, Task.process]
  simp only [readExe_exe, getPpid_status, getTracerPid_status, getProcessState_status, getComm_comm,
    readCmdline_cmdline, scanMaps_maps, List.map_map]
  rfl

/-! ## The directory -/

theorem strtolAll_decimal {bits n : Nat} (h : n < 2 ^ (bits - 1)) : strtolAll bits (decimalText n) = some (n : Int) := by
  have hread := @readNumber_padded 10 (by decide) (by decide) 0 n [] (by simp [Stops])
  rw [List.append_nil, padded_zero] at hread
  simp only [strtolAll, hread, ne_eq, not_true_eq_false, if_false, Bool.false_eq_true, if_neg (Nat.not_le.mpr h)]

/-- A name that begins with a letter or a dot is no number. -/
theorem strtolAll_name (bits : Nat) {name : Text}
    (h : ∃ c ∈ name.head?, c = '.' ∨ 10 ≤ digitValue c ∧ digitValue c < 36) : strtolAll bits name = none := by
  obtain ⟨c, hc, hbegins⟩ := h
  obtain ⟨rest, rfl⟩ := List.head?_eq_some_iff.mp hc
  have hnone : readNumber 10 (c :: rest) = none := by
    rcases hbegins with rfl | ⟨hle, hlt⟩
    · exact readNumber_eq_none (by decide) (by decide) (by decide) (by decide) (by decide) rest
    · have hminus : c ≠ '-' := by
        rintro rfl
        exact absurd hlt (by decide)
      have hplus : c ≠ '+' := by
        rintro rfl
        exact absurd hlt (by decide)
      have hdigit : isDigitOf 10 c = false := decide_eq_false (Nat.not_lt.mpr hle)
      exact readNumber_eq_none (by decide) (isSpace_of_digitValue hlt) hminus hplus hdigit rest
  rw [strtolAll, hnone]
  exact if_neg (List.cons_ne_nil c rest)

theorem readEntry_task (m : DataModel) (t : Task) (column : Nat) :
    readEntry m (decimalText t.pid, t.files column) = some t.process := by
  have hbits : 2 ^ 31 ≤ 2 ^ (wordBits m - 1) := Nat.pow_le_pow_right (by decide) (by cases m <;> decide)
  have hpos := t.pidPos
  have hlt := t.pidLt
  have hpid : ((t.pid : Int).bmod (2 ^ 32)).toNat = t.pid := by
    rw [Int.bmod_eq_of_le (by omega) (by omega), Int.toNat_natCast]
  simp only [readEntry, strtolAll_decimal (Nat.lt_of_lt_of_le hlt hbits), if_pos (Int.natCast_pos.mpr hpos), hpid,
    readProcess_files]

theorem readEntry_listed (m : DataModel) (column : Nat) (e : Entry) :
    readEntry m (e.listed column) = e.task?.map Task.process := by
  cases e with
  | task t => exact readEntry_task m t column
  | other name files begins => simp only [Entry.listed, readEntry, strtolAll_name _ begins, Entry.task?, Option.map_none]

/-! ## Names in the memory map -/

theorem prefix_seqPath_iff {w : Text} (hnewline : '\n' ∉ w) (hbackslash : '\\' ∉ w) (name : Text) :
    w <+: seqPath name ↔ w <+: name := by
  induction w generalizing name with
  | nil => exact ⟨fun _ => List.nil_prefix, fun _ => List.nil_prefix⟩
  | cons a w ih =>
      cases name with
      | nil => rfl
      | cons c name =>
          rw [seqPath, List.flatMap_cons]
          split_ifs with hc
          · subst hc
            constructor
            · intro h
              exact absurd (List.cons_prefix_cons.mp h).1 (List.ne_of_not_mem_cons hbackslash).symm
            · intro h
              exact absurd (List.cons_prefix_cons.mp h).1 (List.ne_of_not_mem_cons hnewline).symm
          · rw [List.singleton_append, List.cons_prefix_cons, List.cons_prefix_cons]
            exact and_congr_right fun _ =>
              ih (List.not_mem_of_not_mem_cons hnewline) (List.not_mem_of_not_mem_cons hbackslash) name

/-- Escapes neither hide a name nor make one up, if it does not begin with a digit of theirs. -/
theorem infix_seqPath_iff {a : Char} {w : Text} (hnewline : '\n' ∉ a :: w) (hbackslash : '\\' ∉ a :: w)
    (hdigit : a ∉ ['0', '1', '2']) (name : Text) : a :: w <:+: seqPath name ↔ a :: w <:+: name := by
  induction name with
  | nil => rfl
  | cons c name ih =>
      rw [List.infix_cons_iff (a := c), ← ih, ← prefix_seqPath_iff hnewline hbackslash (c :: name)]
      have hcons : seqPath (c :: name) = (if c = '\n' then ['\\', '0', '1', '2'] else [c]) ++ seqPath name := rfl
      rw [hcons]
      split_ifs with hc
      · simp only [List.mem_cons, List.not_mem_nil, or_false, not_or] at hdigit
        simp only [List.cons_append, List.nil_append, List.infix_cons_iff, List.cons_prefix_cons, hdigit.1,
          hdigit.2.1, hdigit.2.2, (List.ne_of_not_mem_cons hbackslash).symm, false_and, false_or]
      · rw [List.singleton_append, List.infix_cons_iff]

theorem mapped_process_iff (t : Task) :
    t.process.mapped = true ↔ ∃ r ∈ t.mappings, "libzygisk.so".toList <:+: r.name := by
  have hname : "libzygisk.so".toList = 'l' :: "ibzygisk.so".toList := by decide
  simp only [Process.mapped, hasLibraryMapped, Task.process, List.any_map, List.any_eq_true, Function.comp_apply,
    decide_eq_true_eq, String.toList_ofList, hname]
  exact exists_congr fun r => and_congr_right fun _ =>
    infix_seqPath_iff (by decide) (by decide) (by decide) r.name

/-- The readers of `/proc` give the kernel's processes, in order, and the library is seen where it is mapped. -/
theorem readTable_listing (m : DataModel) (column : Nat) (entries : List Entry) :
    readTable m (entries.map (Entry.listed column)) = (entries.filterMap Entry.task?).map Task.process ∧
      ∀ t : Task, t.process.mapped = true ↔ ∃ r ∈ t.mappings, "libzygisk.so".toList <:+: r.name := by
  refine ⟨?_, mapped_process_iff⟩
  rw [readTable, List.filterMap_map, List.map_filterMap]
  congr 1
  funext e
  exact readEntry_listed m column e

end NeoZygisk.Monitor.ProcText
