import NeoZygisk.Lib.PrefixCode
import NeoZygisk.Monitor.ControlSocket

/-!
# The text of the status

`update_status` writes what the monitor knows about itself, the zygote and the daemon, between the metadata of the
module and its description. The reason of a stop stands in brackets behind the state, as does the error of a daemon
that crashed, and what a running daemon says about itself is a block of its own. The texts of the daemon may be
anything, also what looks like another part of the status.

`View` is what is to be seen of the state, and `readout_inj` says that all of it can be read off the text: two states
of one module with the same text look the same.
-/

set_option autoImplicit false

namespace NeoZygisk.Monitor.StatusText

open NeoZygisk.Lib.Bytes
open NeoZygisk.Lib.PrefixCode

/-! ## The module -/

/-- What is shown of the module whatever happens, and the name of the ABI. -/
structure Module where
  abiName : List Byte
  metadataSection : List Byte
  description : List Byte

def newline : Byte := 10

/-- `file_readline` without trimming: the lines with their ends, each up to its first NUL. -/
def fileReadline : List Byte → List (List Byte)
  | [] => []
  | b :: file =>
      if b = newline then [b] :: fileReadline file
      else
        match fileReadline file with
        | [] => [[b]]
        | line :: rest => (b :: line) :: rest

/-- What `prepare_environment` takes of one line of module.prop. -/
def Module.addLine (m : Module) (line : List Byte) : Module :=
  if (utf8 "updateJson=").isPrefixOf line then m
  else if (utf8 "description=").isPrefixOf line then
    { m with description := m.description ++ line.drop (utf8 "description=").length }
  else { m with metadataSection := m.metadataSection ++ utf8 "\t" ++ line }

/-- What `prepare_environment` reads. -/
def Module.read (abiName moduleProp : List Byte) : Module :=
  ((fileReadline moduleProp).map fun line => line.takeWhile (· ≠ 0)).foldl Module.addLine ⟨abiName, [], []⟩

/-! ## The text -/

/-- `write_abi_status_section`: the text of the status and the block of the daemon. -/
def writeAbiStatusSection (m : Module) (c : ControlState) (statusText daemonDetail : List Byte) :
    List Byte × List Byte :=
  if !c.monitor.abi.supported then (statusText, daemonDetail)
  else
    let statusText := statusText ++ utf8 "\n\tzygote" ++ m.abiName ++ utf8 ":"
    let statusText :=
      statusText ++
        if c.monitor.tracingState ≠ .tracing then utf8 "\t❓ unknown"
        else
          match c.monitor.abi.zygote with
          | .injected => utf8 "\t😋 injected"
          | .needsRestart => utf8 "\t⚠️ needs restart"
          | .notInjected => utf8 "\t❌ not injected"
    let statusText := statusText ++ utf8 "\n\tdaemon" ++ m.abiName ++ utf8 ":"
    if c.monitor.abi.daemonRunning then (statusText ++ utf8 "\t😋 running", c.daemonInfo)
    else
      let statusText := statusText ++ utf8 "\t❌ crashed"
      let statusText :=
        if c.daemonErrorInfo ≠ [] then statusText ++ utf8 " (" ++ c.daemonErrorInfo ++ utf8 ")" else statusText
      (statusText, daemonDetail)

/-- The state of the monitor, with the reason if it does not trace. -/
def writeMonitorStatus (c : ControlState) : List Byte :=
  let statusText :=
    utf8 "\tmonitor: \t" ++
      match c.monitor.tracingState with
      | .tracing => utf8 "😋 tracing"
      | .stopping | .stopped => utf8 "❌ stopped"
      | .exiting => utf8 "❌ exited"
  if c.monitor.tracingState ≠ .tracing ∧ utf8 c.monitor.stopReason ≠ [] then
    statusText ++ utf8 " (" ++ utf8 c.monitor.stopReason ++ utf8 ")"
  else statusText

/-- A block without the ends of lines behind it. -/
def trimmed (block : List Byte) : List Byte := block.rdropWhile (· = newline)

/-- One block is put behind the others. -/
def addBlock (ss block : List Byte) : List Byte :=
  if trimmed block = [] then ss
  else if ss ≠ [] then ss ++ utf8 "\n\n" ++ trimmed block
  else ss ++ trimmed block

/-- What `update_status` writes. -/
def readout (m : Module) (c : ControlState) : List Byte :=
  let written := writeAbiStatusSection m c (writeMonitorStatus c) []
  [m.metadataSection, written.1, written.2, m.description].foldl addBlock [] ++ utf8 "\n"

/-! ## What is to be seen -/

/-- The state of the monitor in one word. -/
inductive Activity where
  | tracing
  | stopped
  | exited
  deriving DecidableEq, Repr

/-- What is known of the zygote; nothing if the monitor does not trace. -/
inductive ZygoteView where
  | unknown
  | injected
  | needsRestart
  | notInjected
  deriving DecidableEq, Repr

/-- The zygote and the daemon; of a daemon that runs its own words, of another its error. -/
structure AbiView where
  zygote : ZygoteView
  daemonRunning : Bool
  detail : List Byte
  deriving DecidableEq

/-- What is to be seen of a state. -/
structure View where
  activity : Activity
  reason : List Byte
  abi : Option AbiView
  deriving DecidableEq

def viewActivity : TracingState → Activity
  | .tracing => .tracing
  | .stopping => .stopped
  | .stopped => .stopped
  | .exiting => .exited

def viewZygote (tracingState : TracingState) (zygote : ZygoteState) : ZygoteView :=
  if tracingState ≠ .tracing then .unknown
  else
    match zygote with
    | .injected => .injected
    | .needsRestart => .needsRestart
    | .notInjected => .notInjected

def viewAbi (c : ControlState) : AbiView where
  zygote := viewZygote c.monitor.tracingState c.monitor.abi.zygote
  daemonRunning := c.monitor.abi.daemonRunning
  detail := if c.monitor.abi.daemonRunning then trimmed c.daemonInfo else c.daemonErrorInfo

def view (c : ControlState) : View where
  activity := viewActivity c.monitor.tracingState
  reason := if c.monitor.tracingState = .tracing then [] else utf8 c.monitor.stopReason
  abi := if c.monitor.abi.supported then some (viewAbi c) else none

/-! ## The text of a view -/

def activityText : Activity → List Byte
  | .tracing => utf8 "😋 tracing"
  | .stopped => utf8 "❌ stopped"
  | .exited => utf8 "❌ exited"

def zygoteText : ZygoteView → List Byte
  | .unknown => utf8 "\t❓ unknown"
  | .injected => utf8 "\t😋 injected"
  | .needsRestart => utf8 "\t⚠️ needs restart"
  | .notInjected => utf8 "\t❌ not injected"

/-- A text in brackets, if there is one. -/
def bracketed (text : List Byte) : List Byte := if text = [] then [] else utf8 " (" ++ text ++ utf8 ")"

/-- A block behind others. -/
def furtherBlock (text : List Byte) : List Byte := if text = [] then [] else utf8 "\n\n" ++ text

def daemonText (a : AbiView) : List Byte :=
  if a.daemonRunning then utf8 "\t😋 running" else utf8 "\t❌ crashed" ++ bracketed a.detail

def daemonBlock (a : AbiView) : List Byte := if a.daemonRunning then furtherBlock a.detail else []

namespace Module

variable (m : Module)

def zygoteLabel : List Byte := utf8 "\n\tzygote" ++ m.abiName ++ utf8 ":"

def daemonLabel : List Byte := utf8 "\n\tdaemon" ++ m.abiName ++ utf8 ":"

/-- What stands in front of the status. -/
def front : List Byte :=
  if trimmed m.metadataSection = [] then [] else trimmed m.metadataSection ++ utf8 "\n\n"

/-- What stands behind it. -/
def back : List Byte := furtherBlock (trimmed m.description) ++ utf8 "\n"

def abiText : Option AbiView → List Byte
  | none => []
  | some a => m.zygoteLabel ++ (zygoteText a.zygote ++ (m.daemonLabel ++ (daemonText a ++ daemonBlock a)))

def viewText (v : View) : List Byte :=
  m.front ++ (utf8 "\tmonitor: \t" ++ (activityText v.activity ++ (bracketed v.reason ++ (m.abiText v.abi ++ m.back))))

end Module

/-! ## The text that is written is that of the view -/

variable {m : Module} {c : ControlState}

/-- Nothing is trimmed behind a text that does not end a line. -/
theorem trimmed_concat (text : List Byte) {b : Byte} (hb : b ≠ newline) : trimmed (text ++ [b]) = text ++ [b] := by
  unfold trimmed
  exact List.rdropWhile_concat_neg _ _ _ (by simpa using hb)

/-- Text that ends with a byte other than the end of a line. -/
def Plain (text : List Byte) : Prop := ∃ start b, b ≠ newline ∧ text = start ++ [b]

theorem Plain.trimmed_eq {text : List Byte} (h : Plain text) : trimmed text = text := by
  obtain ⟨start, b, hb, rfl⟩ := h
  exact trimmed_concat start hb

theorem Plain.ne_nil {text : List Byte} (h : Plain text) : text ≠ [] := by
  obtain ⟨start, b, hb, rfl⟩ := h
  exact List.append_ne_nil_of_right_ne_nil start (List.cons_ne_nil b [])

theorem Plain.append (front : List Byte) {text : List Byte} (h : Plain text) : Plain (front ++ text) := by
  obtain ⟨start, b, hb, rfl⟩ := h
  exact ⟨front ++ start, b, hb, (List.append_assoc _ _ _).symm⟩

theorem Plain.append_bracketed {text : List Byte} (h : Plain text) (detail : List Byte) :
    Plain (text ++ bracketed detail) := by
  unfold bracketed
  split_ifs with hnone
  · rw [List.append_nil]
    exact h
  · exact .append text ⟨utf8 " (" ++ detail, 41, by decide, rfl⟩

theorem plain_activityText (a : Activity) : Plain (activityText a) := by
  cases a with
  | tracing => exact ⟨(activityText .tracing).dropLast, 103, by decide, by decide⟩
  | stopped => exact ⟨(activityText .stopped).dropLast, 100, by decide, by decide⟩
  | exited => exact ⟨(activityText .exited).dropLast, 100, by decide, by decide⟩

theorem plain_daemonText (a : AbiView) : Plain (daemonText a) := by
  unfold daemonText
  split_ifs
  · exact ⟨(utf8 "\t😋 running").dropLast, 103, by decide, by decide⟩
  · apply Plain.append_bracketed
    exact ⟨(utf8 "\t❌ crashed").dropLast, 100, by decide, by decide⟩

/-- The status as a view has it, without the block of the daemon. -/
def statusOf (m : Module) (v : View) : List Byte :=
  utf8 "\tmonitor: \t" ++ (activityText v.activity ++ (bracketed v.reason ++
    match v.abi with
    | none => []
    | some a => m.zygoteLabel ++ (zygoteText a.zygote ++ (m.daemonLabel ++ daemonText a))))

def detailOf (v : View) : List Byte :=
  match v.abi with
  | none => []
  | some a => if a.daemonRunning then a.detail else []

theorem plain_statusOf (m : Module) (v : View) : Plain (statusOf m v) := by
  unfold statusOf
  apply Plain.append
  cases v.abi with
  | none =>
      rw [List.append_nil]
      exact (plain_activityText v.activity).append_bracketed v.reason
  | some a =>
      apply Plain.append
      apply Plain.append
      apply Plain.append
      apply Plain.append
      exact (plain_daemonText a).append _

theorem writeMonitorStatus_eq (c : ControlState) :
    writeMonitorStatus c =
      utf8 "\tmonitor: \t" ++ (activityText (view c).activity ++ bracketed (view c).reason) := by
  unfold writeMonitorStatus view bracketed
  cases c.monitor.tracingState with
  | tracing => simp [viewActivity, activityText]
  | stopping | stopped | exiting =>
      by_cases hreason : utf8 c.monitor.stopReason = []
      · simp [viewActivity, activityText, hreason]
      · simp [viewActivity, activityText, hreason]

theorem zygoteText_viewZygote (tracingState : TracingState) (zygote : ZygoteState) :
    zygoteText (viewZygote tracingState zygote) =
      if tracingState ≠ .tracing then utf8 "\t❓ unknown"
      else
        match zygote with
        | .injected => utf8 "\t😋 injected"
        | .needsRestart => utf8 "\t⚠️ needs restart"
        | .notInjected => utf8 "\t❌ not injected" := by
  unfold viewZygote
  split_ifs
  · rfl
  · cases zygote with
    | injected | needsRestart | notInjected => rfl

theorem writeAbiStatusSection_fst (m : Module) (c : ControlState) :
    (writeAbiStatusSection m c (writeMonitorStatus c) []).1 = statusOf m (view c) := by
  unfold writeAbiStatusSection
  rw [writeMonitorStatus_eq]
  cases hsupported : c.monitor.abi.supported with
  | false => simp [statusOf, view, hsupported]
  | true =>
      have hzygote := zygoteText_viewZygote c.monitor.tracingState c.monitor.abi.zygote
      simp only [Bool.not_true, Bool.false_eq_true, if_false, ← hzygote]
      cases hrunning : c.monitor.abi.daemonRunning with
      | true =>
          simp [statusOf, view, viewAbi, hsupported, hrunning, daemonText, Module.zygoteLabel, Module.daemonLabel]
      | false =>
          by_cases herror : c.daemonErrorInfo = []
          · simp [statusOf, view, viewAbi, hsupported, hrunning, herror, daemonText, bracketed, Module.zygoteLabel,
              Module.daemonLabel]
          · simp [statusOf, view, viewAbi, hsupported, hrunning, herror, daemonText, bracketed, Module.zygoteLabel,
              Module.daemonLabel]

theorem writeAbiStatusSection_snd (m : Module) (c : ControlState) (statusText : List Byte) :
    trimmed (writeAbiStatusSection m c statusText []).2 = detailOf (view c) := by
  unfold writeAbiStatusSection
  cases hsupported : c.monitor.abi.supported with
  | false =>
      simp only [detailOf, view, hsupported, Bool.not_false, Bool.false_eq_true, if_true, if_false]
      rfl
  | true =>
      cases hrunning : c.monitor.abi.daemonRunning with
      | true => simp [detailOf, view, viewAbi, hsupported, hrunning]
      | false =>
          simp only [detailOf, view, viewAbi, hsupported, hrunning, Bool.not_true, Bool.false_eq_true, if_true, if_false]
          rfl

theorem addBlock_of_ne_nil {ss : List Byte} (h : ss ≠ []) (block : List Byte) :
    addBlock ss block = ss ++ furtherBlock (trimmed block) := by
  unfold addBlock furtherBlock
  split_ifs
  · rw [List.append_nil]
  · rw [List.append_assoc]

/-- `update_status` writes the text of what is to be seen. -/
theorem readout_eq (m : Module) (c : ControlState) : readout m c = m.viewText (view c) := by
  have hplain := plain_statusOf m (view c)
  have hstatus : addBlock (addBlock [] m.metadataSection) (statusOf m (view c)) = m.front ++ statusOf m (view c) := by
    unfold addBlock Module.front
    by_cases hmeta : trimmed m.metadataSection = []
    · simp [hmeta, hplain.trimmed_eq, hplain.ne_nil]
    · simp [hmeta, hplain.trimmed_eq, hplain.ne_nil]
  unfold readout
  simp only [List.foldl_cons, List.foldl_nil]
  rw [writeAbiStatusSection_fst, hstatus]
  -- from here on something has been written
  have hne : m.front ++ statusOf m (view c) ≠ [] := List.append_ne_nil_of_right_ne_nil _ hplain.ne_nil
  rw [addBlock_of_ne_nil hne, writeAbiStatusSection_snd, addBlock_of_ne_nil (List.append_ne_nil_of_left_ne_nil hne _)]
  unfold Module.viewText Module.back statusOf detailOf
  cases (view c).abi with
  | none => simp [Module.abiText, furtherBlock]
  | some a =>
      by_cases hrunning : a.daemonRunning = true
      · simp [Module.abiText, daemonBlock, hrunning]
      · simp [Module.abiText, daemonBlock, hrunning, furtherBlock]

/-! ## Reading the text -/

theorem readsBack_activityText : ReadsBack (fun _ => True) activityText := by
  apply readsBack_of_incomparable
  rintro a b - -
  cases a with
  | tracing | stopped | exited => cases b <;> decide

theorem readsBack_zygoteText : ReadsBack (fun _ => True) zygoteText := by
  apply readsBack_of_incomparable
  rintro a b - -
  cases a with
  | unknown | injected | needsRestart | notInjected => cases b <;> decide

/-- The bracket that closes. -/
def closing : Byte := 41

theorem bracketed_of_ne_nil {text : List Byte} (h : text ≠ []) : bracketed text = 32 :: 40 :: (text ++ [closing]) := by
  unfold bracketed
  rw [if_neg h, List.append_assoc]
  rfl

/-- A text in brackets that contains no bracket, in front of the next line. -/
theorem bracketed_inj_line {s t x y : List Byte} (hs : closing ∉ s) (ht : closing ∉ t)
    (h : bracketed s ++ newline :: x = bracketed t ++ newline :: y) : s = t ∧ x = y := by
  by_cases hempty : s = []
  · subst hempty
    by_cases hempty' : t = []
    · subst hempty'
      exact ⟨rfl, (List.cons.inj h).2⟩
    · -- a line does not start with a space
      rw [bracketed_of_ne_nil hempty'] at h
      exact absurd (List.cons.inj h).1 (by decide)
  · by_cases hempty' : t = []
    · subst hempty'
      rw [bracketed_of_ne_nil hempty] at h
      exact absurd (List.cons.inj h).1 (by decide)
    · rw [bracketed_of_ne_nil hempty, bracketed_of_ne_nil hempty'] at h
      have hinner := (List.cons.inj (List.cons.inj h).2).2
      obtain ⟨rfl, hrest⟩ := readsBack_delimited closing s t hs ht _ _ hinner
      exact ⟨rfl, (List.cons.inj hrest).2⟩

theorem bracketed_injective : Function.Injective bracketed := by
  intro s t h
  by_cases hempty : s = []
  · by_cases hempty' : t = []
    · rw [hempty, hempty']
    · rw [hempty, bracketed_of_ne_nil hempty'] at h
      cases h
  · by_cases hempty' : t = []
    · rw [hempty', bracketed_of_ne_nil hempty] at h
      cases h
    · rw [bracketed_of_ne_nil hempty, bracketed_of_ne_nil hempty'] at h
      exact List.append_cancel_right (List.cons.inj (List.cons.inj h).2).2

theorem furtherBlock_injective : Function.Injective furtherBlock := by
  intro s t h
  unfold furtherBlock at h
  split_ifs at h with hempty hempty'
  · rw [hempty, hempty']
  · cases h
  · cases h
  · exact List.append_cancel_left h

/-- Behind the state of the monitor a line ends. -/
theorem exists_newline (m : Module) (abi : Option AbiView) :
    ∃ rest, m.abiText abi ++ m.back = newline :: rest := by
  cases abi with
  | none =>
      unfold Module.abiText Module.back furtherBlock
      split_ifs
      · exact ⟨[], rfl⟩
      · exact ⟨newline :: (trimmed m.description ++ [newline]), rfl⟩
  | some a => exact ⟨_, rfl⟩

theorem daemon_inj {a b : AbiView} (h : daemonText a ++ daemonBlock a = daemonText b ++ daemonBlock b) :
    a.daemonRunning = b.daemonRunning ∧ a.detail = b.detail := by
  unfold daemonText daemonBlock at h
  cases ha : a.daemonRunning with
  | true =>
      cases hb : b.daemonRunning with
      | true =>
          simp only [ha, hb, if_true] at h
          exact ⟨rfl, furtherBlock_injective (List.append_cancel_left h)⟩
      | false =>
          simp only [ha, hb, Bool.false_eq_true, if_true, if_false] at h
          -- the second byte tells a daemon that runs from one that crashed
          exact absurd (List.cons.inj (List.cons.inj h).2).1 (by decide)
  | false =>
      cases hb : b.daemonRunning with
      | true =>
          simp only [ha, hb, Bool.false_eq_true, if_true, if_false] at h
          exact absurd (List.cons.inj (List.cons.inj h).2).1 (by decide)
      | false =>
          simp only [ha, hb, Bool.false_eq_true, if_false, List.append_nil] at h
          exact ⟨rfl, bracketed_injective (List.append_cancel_left h)⟩

theorem abiText_injective (m : Module) : Function.Injective m.abiText := by
  intro x y h
  cases x with
  | none =>
      cases y with
      | none => rfl
      | some b => exact absurd h.symm (List.append_ne_nil_of_left_ne_nil (List.cons_ne_nil _ _) _)
  | some a =>
      cases y with
      | none => exact absurd h (List.append_ne_nil_of_left_ne_nil (List.cons_ne_nil _ _) _)
      | some b =>
          obtain ⟨hzygote, hdaemon⟩ :=
            readsBack_zygoteText _ _ trivial trivial _ _ (List.append_cancel_left h)
          obtain ⟨hrunning, hdetail⟩ := daemon_inj (List.append_cancel_left hdaemon)
          cases a with
          | mk zygote running detail =>
              cases b with
              | mk zygote' running' detail' =>
                  obtain rfl : zygote = zygote' := hzygote
                  obtain rfl : running = running' := hrunning
                  obtain rfl : detail = detail' := hdetail
                  rfl

/-- All of a view can be read off its text. -/
theorem viewText_inj (m : Module) {v w : View} (hv : closing ∉ v.reason) (hw : closing ∉ w.reason)
    (h : m.viewText v = m.viewText w) : v = w := by
  obtain ⟨hactivity, hrest_eq⟩ :=
    readsBack_activityText _ _ trivial trivial _ _ (List.append_cancel_left (List.append_cancel_left h))
  obtain ⟨rest, hrest⟩ := exists_newline m v.abi
  obtain ⟨rest', hrest'⟩ := exists_newline m w.abi
  rw [hrest, hrest'] at hrest_eq
  obtain ⟨hreason, rfl⟩ := bracketed_inj_line hv hw hrest_eq
  have habi : v.abi = w.abi := abiText_injective m (List.append_cancel_right (hrest.trans hrest'.symm))
  cases v with
  | mk activity reason abi =>
      cases w with
      | mk activity' reason' abi' =>
          obtain rfl : activity = activity' := hactivity
          obtain rfl : reason = reason' := hreason
          obtain rfl : abi = abi' := habi
          rfl

/-- States with the same text look the same, if no reason to stop contains a bracket. -/
theorem readout_inj (m : Module) {c c' : ControlState} (hc : closing ∉ utf8 c.monitor.stopReason)
    (hc' : closing ∉ utf8 c'.monitor.stopReason) (h : readout m c = readout m c') : view c = view c' := by
  have hreason : ∀ c : ControlState, closing ∉ utf8 c.monitor.stopReason → closing ∉ (view c).reason := by
    intro c hc
    simp only [view]
    split_ifs
    · exact List.not_mem_nil
    · exact hc
  rw [readout_eq, readout_eq] at h
  exact viewText_inj m (hreason c hc) (hreason c' hc') h

end NeoZygisk.Monitor.StatusText
